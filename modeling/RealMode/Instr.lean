import RealMode.Flags.Shift
import RealMode.ModRM
import RealMode.Prefixes

/-!
Instructions with their operands. An instruction says nothing about the state it runs in: memory
operands are still sums of registers, and displacements of jumps are relative. A form with an effect
of its own is an instruction of its own, even if another comes to the same.
-/

namespace RealMode

/-- The pairs of an accumulator and its decimal adjustment. -/
inductive DecimalAdjust where
  | daa
  | das
  | aaa
  | aas
  deriving DecidableEq

/-- Where the count of a shift comes from. -/
inductive ShiftCount where
  | one
  | cl
  | immediate (count : UInt8)
  deriving DecidableEq

inductive StringOp where
  | movs
  | cmps
  | scas
  | lods
  | stos
  | ins
  | outs
  deriving DecidableEq

/-- What a loop tests besides its counter. -/
inductive LoopTest where
  | counter
  | whileZero
  | whileNotZero
  deriving DecidableEq

inductive PortNumber where
  | immediate (port : UInt8)
  | dx
  deriving DecidableEq

inductive FlagOp where
  | complementCarry
  | clearCarry
  | setCarry
  | clearInterrupt
  | setInterrupt
  | clearDirection
  | setDirection
  deriving DecidableEq

inductive Instr where
  /-- An encoding without a meaning. -/
  | unknown
  -- arithmetic and logic
  | aluToRm (op : AluOp) (w : Width) (rm : Operand) (reg : Fin 8)
  | aluToReg (op : AluOp) (w : Width) (reg : Fin 8) (rm : Operand)
  | aluImm (op : AluOp) (w : Width) (rm : Operand) (value : UInt16)
  | aluAcc (op : AluOp) (w : Width) (value : UInt16)
  | testReg (w : Width) (rm : Operand) (reg : Fin 8)
  | testAcc (w : Width) (value : UInt16)
  | testImm (w : Width) (rm : Operand) (value : UInt16)
  | incReg (reg : Fin 8)
  | decReg (reg : Fin 8)
  | incRm (w : Width) (rm : Operand)
  | decRm (w : Width) (rm : Operand)
  | complement (w : Width) (rm : Operand)
  | negate (w : Width) (rm : Operand)
  | mul (signed : Bool) (w : Width) (rm : Operand)
  | div (signed : Bool) (w : Width) (rm : Operand)
  | mulImm (reg : Fin 8) (rm : Operand) (value : UInt16)
  | shift (op : ShiftOp) (w : Width) (rm : Operand) (count : ShiftCount)
  | decimal (op : DecimalAdjust)
  | aam (base : UInt8)
  | aad (base : UInt8)
  | cbw
  | cwd
  | salc
  -- data movement
  | movToRm (w : Width) (rm : Operand) (reg : Fin 8)
  | movToReg (w : Width) (reg : Fin 8) (rm : Operand)
  | movImm (w : Width) (rm : Operand) (value : UInt16)
  | movRegImm (w : Width) (reg : Fin 8) (value : UInt16)
  | movFromSeg (rm : Operand) (seg : SegReg)
  | movToSeg (seg : SegReg) (rm : Operand)
  | movAccFrom (w : Width) (offset : UInt16)
  | movAccTo (w : Width) (offset : UInt16)
  | lea (reg : Fin 8) (m : MemOperand)
  | loadFar (seg : SegReg) (reg : Fin 8) (m : MemOperand)
  | xchgRm (w : Width) (rm : Operand) (reg : Fin 8)
  | xchgAcc (reg : Fin 8)
  | nop
  | xlat
  | lahf
  | sahf
  -- stack
  | pushReg (reg : Fin 8)
  | popReg (reg : Fin 8)
  | pushSeg (seg : SegReg)
  | popSeg (seg : SegReg)
  | pushRm (rm : Operand)
  | popRm (rm : Operand)
  | pushImm (value : UInt16)
  | pushFlags
  | popFlags
  | pushAll
  | popAll
  | enter (size : UInt16) (level : UInt8)
  | leave
  -- control transfer
  | jumpIf (code : UInt8) (displacement : UInt16)
  | jumpIfCxZero (displacement : UInt16)
  | loop (test : LoopTest) (displacement : UInt8)
  | jump (displacement : UInt16)
  | jumpFar (segment offset : UInt16)
  | jumpRm (rm : Operand)
  | jumpFarMem (m : MemOperand)
  | call (displacement : UInt16)
  | callFar (segment offset : UInt16)
  | callRm (rm : Operand)
  | callFarMem (m : MemOperand)
  | ret (release : Option UInt16)
  | retFar (release : Option UInt16)
  | bound (reg : Fin 8) (m : MemOperand)
  | int3
  | int (vector : UInt8)
  | into
  | iret
  -- strings and ports
  | string (op : StringOp) (w : Width)
  | input (w : Width) (port : PortNumber)
  | output (w : Width) (port : PortNumber)
  -- processor control
  | flag (op : FlagOp)
  | hlt
  | wait
  | escape (rm : Operand)
  | segmentOverride (seg : SegReg)
  | repeatPrefix (mode : RepeatMode)
  | lock
  deriving DecidableEq

end RealMode
