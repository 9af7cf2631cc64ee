import RealMode.Proofs.Decode.Operands

/-!
Decoding as a sequence of readings. A window is read from its start, each byte once and in order,
and what the next byte is for is known from the bytes before it. The instruction is the one that is
decoded from the places of its bytes, with the displacement read before the immediate, and no byte
is missed as long as the window covers its length.
-/

namespace RealMode

/-- What a byte of an instruction is there for. -/
inductive Part where
  | opcode
  | modRM
  | displacement
  | immediate
  deriving DecidableEq

/-- Reads from a window. The state says what each byte read so far was for, and with that where the
next one stands. Behind the window there is nothing to read. -/
abbrev Reading := ReaderT ByteArray (StateT (List Part) Option)

namespace Reading

def byte (part : Part) : Reading UInt8 := fun window taken =>
  if h : taken.length < window.size then some (window[taken.length], taken ++ [part]) else none

def word (part : Part) : Reading UInt16 := do
  let low ← byte part
  let high ← byte part
  return wordOfBytes low high

def immediate : Width → Reading UInt16
  | .byte => return (← byte .immediate).toUInt16
  | .word => word .immediate

def modRM : Reading ModRM := return .ofByte (← byte .modRM)

/-- The operand of a ModRM byte in memory form, with its displacement. -/
def memOperand (m : ModRM) : Reading MemOperand :=
  match m.mode with
  | 0 =>
    if m.rm.val = 6 then return .direct (← word .displacement) else return .based (.ofIndex m.rm)
  | 1 => return .displaced (.ofIndex m.rm) (signExtend (← byte .displacement))
  | _ => return .displaced (.ofIndex m.rm) (← word .displacement)

def operand (m : ModRM) : Reading Operand :=
  if m.isRegister then return .reg m.rm else return .mem (← memOperand m)

/-- An instruction that ends with an operand. -/
def withOperand (m : ModRM) (instr : Operand → Instr) : Reading Instr :=
  return instr (← operand m)

/-- As `withOperand`, for operands that have to lie in memory. Nothing more is read of a register. -/
def withMemory (m : ModRM) (instr : MemOperand → Instr) : Reading Instr :=
  if m.isRegister then return .unknown else return instr (← memOperand m)

/-- As `withOperand`, with an immediate behind. -/
def withImmediate (m : ModRM) (w : Width) (instr : Operand → UInt16 → Instr) : Reading Instr :=
  return instr (← operand m) (← immediate w)

/-- F6 and F7. -/
def unary (m : ModRM) (w : Width) : Reading Instr :=
  match m.reg with
  | 0 | 1 => withImmediate m w (.testImm w)
  | 2 => withOperand m (.complement w)
  | 3 => withOperand m (.negate w)
  | 4 => withOperand m (.mul false w)
  | 5 => withOperand m (.mul true w)
  | 6 => withOperand m (.div false w)
  | 7 => withOperand m (.div true w)

/-- FF. -/
def stepWord (m : ModRM) : Reading Instr :=
  match m.reg with
  | 0 => withOperand m (.incRm .word)
  | 1 => withOperand m (.decRm .word)
  | 2 => withOperand m .callRm
  | 3 => withMemory m .callFarMem
  | 4 => withOperand m .jumpRm
  | 5 => withMemory m .jumpFarMem
  | 6 => withOperand m .pushRm
  | 7 => return .unknown

/-- FE. -/
def stepByte (m : ModRM) : Reading Instr :=
  match m.reg with
  | 0 => withOperand m (.incRm .byte)
  | 1 => withOperand m (.decRm .byte)
  | _ => return .unknown

/-- 8E. -/
def movToSeg (v : Variant) (m : ModRM) : Reading Instr :=
  if v = .i80186 ∧ m.segment = .cs then return .unknown else withOperand m (.movToSeg m.segment)

/-- What an opcode goes on with. -/
def ofOpcode (v : Variant) : Opcode → Reading Instr
  | .plain instr => return instr
  | .aluToRm op w => do let m ← modRM; withOperand m (.aluToRm op w · m.reg)
  | .aluToReg op w => do let m ← modRM; withOperand m (.aluToReg op w m.reg)
  | .testReg w => do let m ← modRM; withOperand m (.testReg w · m.reg)
  | .xchgRm w => do let m ← modRM; withOperand m (.xchgRm w · m.reg)
  | .movToRm w => do let m ← modRM; withOperand m (.movToRm w · m.reg)
  | .movToReg w => do let m ← modRM; withOperand m (.movToReg w m.reg)
  | .movFromSeg => do let m ← modRM; withOperand m (.movFromSeg · m.segment)
  | .movToSeg => do movToSeg v (← modRM)
  | .lea => do let m ← modRM; withMemory m (.lea m.reg)
  | .loadFar seg => do let m ← modRM; withMemory m (.loadFar seg m.reg)
  | .popRm => do
    let m ← modRM
    if m.reg.val = 0 then withOperand m .popRm else return .unknown
  | .shift w count => do let m ← modRM; withOperand m (.shift (.ofIndex m.reg) w · count)
  | .stepByte => do stepByte (← modRM)
  | .stepWord => do stepWord (← modRM)
  | .bound => do let m ← modRM; withMemory m (.bound m.reg)
  | .escape => do withOperand (← modRM) .escape
  | .aluImm w => do let m ← modRM; withImmediate m w (.aluImm (.ofIndex m.reg) w)
  | .aluSigned => do
    let m ← modRM
    withImmediate m .byte fun rm value =>
      .aluImm (.ofIndex m.reg) .word rm (signExtend value.toUInt8)
  | .movImm w => do
    let m ← modRM
    if m.reg.val = 0 then withImmediate m w (.movImm w) else return .unknown
  | .shiftImm w => do
    let m ← modRM
    withImmediate m .byte fun rm value => .shift (.ofIndex m.reg) w rm (.immediate value.toUInt8)
  | .unary w => do unary (← modRM) w
  | .mulWord => do let m ← modRM; withImmediate m .word (.mulImm m.reg)
  | .mulSigned => do
    let m ← modRM
    withImmediate m .byte fun rm value => .mulImm m.reg rm (signExtend value.toUInt8)
  | .aluAcc op w => return .aluAcc op w (← immediate w)
  | .testAcc w => return .testAcc w (← immediate w)
  | .movReg w reg => return .movRegImm w reg (← immediate w)
  | .movAccFrom w => return .movAccFrom w (← word .immediate)
  | .movAccTo w => return .movAccTo w (← word .immediate)
  | .aam => return .aam (← byte .immediate)
  | .aad => return .aad (← byte .immediate)
  | .jumpIf c => return .jumpIf c (signExtend (← byte .immediate))
  | .jumpIfCxZero => return .jumpIfCxZero (signExtend (← byte .immediate))
  | .loop test => return .loop test (← byte .immediate)
  | .jumpShort => return .jump (signExtend (← byte .immediate))
  | .jumpNear => return .jump (← word .immediate)
  | .jumpFar => do let offset ← word .immediate; return .jumpFar (← word .immediate) offset
  | .callNear => return .call (← word .immediate)
  | .callFar => do let offset ← word .immediate; return .callFar (← word .immediate) offset
  | .ret => return .ret (some (← word .immediate))
  | .retFar => return .retFar (some (← word .immediate))
  | .int => return .int (← byte .immediate)
  | .input w => return .input w (.immediate (← byte .immediate))
  | .output w => return .output w (.immediate (← byte .immediate))
  | .pushWord => return .pushImm (← word .immediate)
  | .pushSigned => return .pushImm (signExtend (← byte .immediate))
  | .enter => return .enter (← word .immediate) (← byte .immediate)

def instr (v : Variant) : Reading Instr := do
  let b ← byte .opcode
  ofOpcode v (.ofByte v b)

/-- The bytes of the window are those of the code. -/
def Shows (window : ByteArray) (code : Code) : Prop :=
  ∀ i (h : i < window.size), window[i] = code i

variable {α γ : Type}

/-- From byte `first` on the code reads as `value`, each byte for one of `parts`. -/
def Takes (r : Reading α) (code : Code) (first : Nat) (value : α) (parts : List Part) : Prop :=
  ∀ window taken, Shows window code → taken.length = first → first + parts.length ≤ window.size →
    r window taken = some (value, taken ++ parts)

variable {code : Code} {first : Nat} {value : α} {parts : List Part} {r : Reading α}

theorem takes_pure (value : α) : Takes (pure value) code first value [] := by
  intro window taken _ _ _
  rw [List.append_nil]
  rfl

theorem Takes.bind {f : α → Reading γ} {result : γ} {more : List Part}
    (h : Takes r code first value parts)
    (next : Takes (f value) code (first + parts.length) result more) :
    Takes (r >>= f) code first result (parts ++ more) := by
  intro window taken shows start covered
  rw [List.length_append] at covered
  have read := h window taken shows start (by omega)
  have rest := next window (taken ++ parts) shows (by rw [List.length_append, start]) (by omega)
  rw [List.append_assoc] at rest
  change (r window taken).bind (fun p => f p.1 window p.2) = _
  rw [read]
  exact rest

theorem Takes.map {f : α → γ} (h : Takes r code first value parts) :
    Takes (r >>= fun x => pure (f x)) code first (f value) parts := by
  have both := h.bind (f := fun x => pure (f x)) (takes_pure (f value))
  rwa [List.append_nil] at both

theorem takes_byte (part : Part) : Takes (byte part) code first (code first) [part] := by
  intro window taken shows start covered
  subst start
  have inside : taken.length < window.size := covered
  rw [byte, dif_pos inside, shows _ inside]

theorem takes_word (part : Part) : Takes (word part) code first (code.word first) [part, part] :=
  (takes_byte part).bind (takes_byte part).map

theorem takes_immediate (w : Width) :
    Takes (immediate w) code first (code.immediate w first) (.replicate w.size .immediate) := by
  cases w with
  | byte => exact (takes_byte .immediate).map
  | word => exact takes_word .immediate

theorem takes_modRM : Takes modRM code 1 (Opcode.modRM code) [.modRM] :=
  (takes_byte .modRM).map

theorem takes_memOperand (m : ModRM) (inMemory : m.isRegister = false) :
    Takes (memOperand m) code 2 (.ofModRM m code)
      (.replicate m.displacementLength .displacement) := by
  obtain ⟨mode, reg, rm⟩ := m
  match mode with
  | 0 =>
      simp only [memOperand, MemOperand.ofModRM, ModRM.displacementLength]
      split
      · exact (takes_word .displacement).map
      · exact takes_pure _
  | 1 => exact (takes_byte .displacement).map
  | 2 => exact (takes_word .displacement).map
  | 3 => cases inMemory

theorem takes_operand (m : ModRM) :
    Takes (operand m) code 2 (.ofModRM m code) (.replicate m.displacementLength .displacement) := by
  unfold operand Operand.ofModRM
  split
  next inRegister =>
    obtain ⟨mode, reg, rm⟩ := m
    match mode with
    | 0 | 1 | 2 => cases inRegister
    | 3 => exact takes_pure _
  next inMemory => exact (takes_memOperand m (Bool.eq_false_iff.2 inMemory)).map

/-- An instruction is read where it is decoded: all that its layout announces, unless the encoding
turns out to have no meaning on the way. -/
inductive Reads (r : Reading Instr) (code : Code) (first : Nat) (d : Decoded)
    (layout : List Part) : Prop
  | whole (takes : Takes r code first d.instr layout) (length : d.length = first + layout.length)
  | unknown (parts : List Part) (takes : Takes r code first .unknown parts)
      (begins : parts <+: layout) (decoded : d = ⟨.unknown, first + parts.length⟩)

variable {d : Decoded} {layout : List Part}

theorem Takes.reads {f : α → Reading Instr} (h : Takes r code first value parts)
    (rest : Reads (f value) code (first + parts.length) d layout) :
    Reads (r >>= f) code first d (parts ++ layout) := by
  cases rest with
  | whole takes length =>
      refine .whole (h.bind takes) ?_
      rw [length, List.length_append, Nat.add_assoc]
  | unknown more takes begins decoded =>
      refine .unknown _ (h.bind takes) ((List.prefix_append_right_inj parts).2 begins) ?_
      rw [decoded, List.length_append, Nat.add_assoc]

theorem reads_unknownForm : Reads (pure .unknown) code 2 Opcode.unknownForm layout :=
  .unknown [] (takes_pure _) List.nil_prefix rfl

end Reading
end RealMode
