import RealMode.Opcode

/-!
From instruction bytes to an instruction and its length. The bytes come in a fixed order: opcode,
ModRM byte, displacement, immediate. An encoding without a meaning ends with the byte that shows
it: with the opcode, or with the ModRM byte, whose displacement is then not part of it.
-/

namespace RealMode

/-- The bytes from the start of an instruction on. -/
abbrev Code := Nat → UInt8

namespace Code

def word (code : Code) (i : Nat) : UInt16 :=
  wordOfBytes (code i) (code (i + 1))

def immediate (code : Code) (w : Width) (i : Nat) : UInt16 :=
  match w with
  | .byte => (code i).toUInt16
  | .word => code.word i

end Code

def Width.size : Width → Nat
  | .byte => 1
  | .word => 2

structure Decoded where
  instr : Instr
  /-- Number of bytes, prefixes apart. -/
  length : Nat
  deriving DecidableEq

namespace MemOperand

/-- The operand of a ModRM byte in memory form; its displacement starts at byte 2. -/
def ofModRM (m : ModRM) (code : Code) : MemOperand :=
  match m.mode with
  | 0 => if m.rm.val = 6 then direct (code.word 2) else based (.ofIndex m.rm)
  | 1 => displaced (.ofIndex m.rm) (signExtend (code 2))
  | _ => displaced (.ofIndex m.rm) (code.word 2)

end MemOperand

namespace Operand

def ofModRM (m : ModRM) (code : Code) : Operand :=
  if m.isRegister then reg m.rm else mem (.ofModRM m code)

end Operand

namespace Opcode

def modRM (code : Code) : ModRM := .ofByte (code 1)

def immediateAt (m : ModRM) : Nat := 2 + m.displacementLength

/-- An encoding that its ModRM byte shows to have no meaning. -/
def unknownForm : Decoded := ⟨.unknown, 2⟩

/-- An instruction that ends with the operand of its ModRM byte. -/
def withOperand (code : Code) (instr : ModRM → Operand → Instr) : Decoded :=
  let m := modRM code
  ⟨instr m (.ofModRM m code), immediateAt m⟩

/-- As `withOperand`, for operands that have to lie in memory. -/
def withMemory (code : Code) (instr : ModRM → MemOperand → Instr) : Decoded :=
  let m := modRM code
  if m.isRegister then unknownForm else ⟨instr m (.ofModRM m code), immediateAt m⟩

/-- As `withOperand`, with an immediate behind. -/
def withImmediate (code : Code) (w : Width) (instr : ModRM → Operand → UInt16 → Instr) : Decoded :=
  let m := modRM code
  ⟨instr m (.ofModRM m code) (code.immediate w (immediateAt m)), immediateAt m + w.size⟩

/-- F6 and F7. Encoding 1 is a second name of TEST. -/
def decodeUnary (code : Code) (w : Width) : Decoded :=
  match (modRM code).reg with
  | 0 | 1 => withImmediate code w fun _ rm value => .testImm w rm value
  | 2 => withOperand code fun _ rm => .complement w rm
  | 3 => withOperand code fun _ rm => .negate w rm
  | 4 => withOperand code fun _ rm => .mul false w rm
  | 5 => withOperand code fun _ rm => .mul true w rm
  | 6 => withOperand code fun _ rm => .div false w rm
  | 7 => withOperand code fun _ rm => .div true w rm

/-- FF. -/
def decodeStepWord (code : Code) : Decoded :=
  match (modRM code).reg with
  | 0 => withOperand code fun _ rm => .incRm .word rm
  | 1 => withOperand code fun _ rm => .decRm .word rm
  | 2 => withOperand code fun _ rm => .callRm rm
  | 3 => withMemory code fun _ m => .callFarMem m
  | 4 => withOperand code fun _ rm => .jumpRm rm
  | 5 => withMemory code fun _ m => .jumpFarMem m
  | 6 => withOperand code fun _ rm => .pushRm rm
  | 7 => unknownForm

/-- FE. -/
def decodeStepByte (code : Code) : Decoded :=
  match (modRM code).reg with
  | 0 => withOperand code fun _ rm => .incRm .byte rm
  | 1 => withOperand code fun _ rm => .decRm .byte rm
  | _ => unknownForm

/-- 8E. Only the 8086 lets a move change CS. -/
def decodeMovToSeg (v : Variant) (code : Code) : Decoded :=
  if v = .i80186 ∧ (modRM code).segment = .cs then unknownForm
  else withOperand code fun m rm => .movToSeg m.segment rm

/-- An immediate byte, sign-extended. -/
def signedAt (code : Code) (i : Nat) : UInt16 := signExtend (code i)

def decode (v : Variant) (code : Code) : Opcode → Decoded
  | plain instr => ⟨instr, 1⟩
  | aluToRm op w => withOperand code fun m rm => .aluToRm op w rm m.reg
  | aluToReg op w => withOperand code fun m rm => .aluToReg op w m.reg rm
  | testReg w => withOperand code fun m rm => .testReg w rm m.reg
  | xchgRm w => withOperand code fun m rm => .xchgRm w rm m.reg
  | movToRm w => withOperand code fun m rm => .movToRm w rm m.reg
  | movToReg w => withOperand code fun m rm => .movToReg w m.reg rm
  | movFromSeg => withOperand code fun m rm => .movFromSeg rm m.segment
  | movToSeg => decodeMovToSeg v code
  | lea => withMemory code fun m mem => .lea m.reg mem
  | loadFar seg => withMemory code fun m mem => .loadFar seg m.reg mem
  | popRm =>
    if (modRM code).reg.val = 0 then withOperand code fun _ rm => .popRm rm else unknownForm
  | shift w count => withOperand code fun m rm => .shift (.ofIndex m.reg) w rm count
  | stepByte => decodeStepByte code
  | stepWord => decodeStepWord code
  | bound => withMemory code fun m mem => .bound m.reg mem
  | escape => withOperand code fun _ rm => .escape rm
  | aluImm w => withImmediate code w fun m rm value => .aluImm (.ofIndex m.reg) w rm value
  | aluSigned =>
    withImmediate code .byte fun m rm value =>
      .aluImm (.ofIndex m.reg) .word rm (signExtend value.toUInt8)
  | movImm w =>
    if (modRM code).reg.val = 0 then withImmediate code w fun _ rm value => .movImm w rm value
    else unknownForm
  | shiftImm w =>
    withImmediate code .byte fun m rm value =>
      .shift (.ofIndex m.reg) w rm (.immediate value.toUInt8)
  | unary w => decodeUnary code w
  | mulWord => withImmediate code .word fun m rm value => .mulImm m.reg rm value
  | mulSigned =>
    withImmediate code .byte fun m rm value => .mulImm m.reg rm (signExtend value.toUInt8)
  | aluAcc op w => ⟨.aluAcc op w (code.immediate w 1), 1 + w.size⟩
  | testAcc w => ⟨.testAcc w (code.immediate w 1), 1 + w.size⟩
  | movReg w reg => ⟨.movRegImm w reg (code.immediate w 1), 1 + w.size⟩
  | movAccFrom w => ⟨.movAccFrom w (code.word 1), 3⟩
  | movAccTo w => ⟨.movAccTo w (code.word 1), 3⟩
  | aam => ⟨.aam (code 1), 2⟩
  | aad => ⟨.aad (code 1), 2⟩
  | jumpIf c => ⟨.jumpIf c (signedAt code 1), 2⟩
  | jumpIfCxZero => ⟨.jumpIfCxZero (signedAt code 1), 2⟩
  | loop test => ⟨.loop test (code 1), 2⟩
  | jumpShort => ⟨.jump (signedAt code 1), 2⟩
  | jumpNear => ⟨.jump (code.word 1), 3⟩
  | jumpFar => ⟨.jumpFar (code.word 3) (code.word 1), 5⟩
  | callNear => ⟨.call (code.word 1), 3⟩
  | callFar => ⟨.callFar (code.word 3) (code.word 1), 5⟩
  | ret => ⟨.ret (some (code.word 1)), 3⟩
  | retFar => ⟨.retFar (some (code.word 1)), 3⟩
  | int => ⟨.int (code 1), 2⟩
  | input w => ⟨.input w (.immediate (code 1)), 2⟩
  | output w => ⟨.output w (.immediate (code 1)), 2⟩
  | pushWord => ⟨.pushImm (code.word 1), 3⟩
  | pushSigned => ⟨.pushImm (signedAt code 1), 2⟩
  | enter => ⟨.enter (code.word 1) (code 3), 4⟩

end Opcode

def decode (v : Variant) (code : Code) : Decoded :=
  (Opcode.ofByte v (code 0)).decode v code

end RealMode
