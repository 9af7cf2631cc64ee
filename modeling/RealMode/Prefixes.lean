import RealMode.Registers

/-!
Prefixes in force. A prefix is an instruction of its own, whose effect lasts up to the end of the
next instruction that is not one; `keep` is how an instruction asks that they outlive it.
-/

namespace RealMode

inductive RepeatMode where
  /-- Comparisons go on while the zero flag is set. -/
  | whileZero
  /-- Comparisons go on while the zero flag is clear. -/
  | whileNotZero
  deriving DecidableEq

namespace RepeatMode

def stopsOn : RepeatMode → Bool → Bool
  | whileZero, zero => !zero
  | whileNotZero, zero => zero

end RepeatMode

structure Prefixes where
  segment : Option SegReg := none
  rep : Option RepeatMode := none
  lock : Bool := false
  keep : Bool := false
  deriving DecidableEq

namespace Prefixes

/-- Called once after every instruction. -/
def retire (p : Prefixes) : Prefixes :=
  if p.keep then { p with keep := false } else {}

def isPending (p : Prefixes) : Bool :=
  p.segment.isSome || p.rep.isSome || p.lock

end Prefixes
end RealMode
