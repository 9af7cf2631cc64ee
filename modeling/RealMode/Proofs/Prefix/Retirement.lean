import RealMode.Proofs.Prefix.Flow
import RealMode.Proofs.String.Elements

/-!
What one instruction does with prefixes. A prefix adds itself to those in force, a repeated string
instruction that has gone back to its opcode hands on what it has found, and every other
instruction drops all of them.
-/

namespace RealMode

namespace Prefixes

/-- If anything is kept beyond the instruction, it is nothing. -/
def Settled (p : Prefixes) : Prop :=
  p.keep = true → p.segment = none ∧ p.rep = none

theorem Settled.retire {p : Prefixes} (h : p.Settled) :
    p.retire.segment = none ∧ p.retire.rep = none := by
  rw [Prefixes.retire]
  split
  next keep => exact h keep
  next => exact ⟨rfl, rfl⟩

theorem retire_of_keep {p : Prefixes} (keep : p.keep = true) :
    p.retire.segment = p.segment ∧ p.retire.rep = p.rep := by
  rw [Prefixes.retire, if_pos keep]
  exact ⟨rfl, rfl⟩

theorem none_of_not_isPending {p : Prefixes} (h : (!p.isPending) = true) :
    p.segment = none ∧ p.rep = none := by
  simp only [isPending, Bool.not_or, Bool.and_eq_true, Bool.not_eq_true', Option.isSome_eq_false_iff,
    Option.isNone_iff_eq_none] at h
  exact h.1

theorem settled_retire (p : Prefixes) : p.retire.Settled := by
  intro keep
  rw [Cpu.keep_retire] at keep
  cases keep

end Prefixes

variable {β : Type}

/-- The prefixes are those that a run of instructions, the newest first, has named last. -/
structure InForce (run : List (Executed β)) (p : Prefixes) : Prop where
  segment : p.segment = run.findSome? (·.instr.override?)
  rep : p.rep = run.findSome? (·.instr.repeats?)

/-- The instructions at the end of a flow that have handed on prefixes. -/
def unbroken (flow : List (Executed β)) : List (Executed β) :=
  flow.takeWhile Executed.passesOn

theorem unbroken_of_passesOn {x : Executed β} (passes : x.passesOn = true)
    (flow : List (Executed β)) : unbroken (x :: flow) = x :: unbroken flow :=
  List.takeWhile_cons_of_pos passes

theorem unbroken_of_not_passesOn {x : Executed β} (drops : x.passesOn = false)
    (flow : List (Executed β)) : unbroken (x :: flow) = [] :=
  List.takeWhile_cons_of_neg (Bool.eq_false_iff.1 drops)

theorem Executed.passesOn_of_rewinds {x : Executed β} (rewinds : x.rewinds = true) :
    x.passesOn = true := by
  rw [passesOn, rewinds, Bool.or_true]

namespace Instr

theorem override?_of_isString {i : Instr} (isString : i.isString = true) : i.override? = none := by
  cases i with
  | string => rfl
  | _ => cases isString

theorem repeats?_of_isString {i : Instr} (isString : i.isString = true) : i.repeats? = none := by
  cases i with
  | string => rfl
  | _ => cases isString

end Instr

namespace InForce

variable {x : Executed β} {flow : List (Executed β)} {p q : Prefixes}

theorem nil (settled : p.segment = none ∧ p.rep = none) : InForce ([] : List (Executed β)) p :=
  ⟨settled.1, settled.2⟩

theorem drops (drops : x.passesOn = false) (settled : p.Settled) :
    InForce (unbroken (x :: flow)) p.retire := by
  rw [unbroken_of_not_passesOn drops]
  exact .nil settled.retire

theorem passes (h : InForce (unbroken flow) p) (passes : x.passesOn = true) (keep : q.keep = true)
    (segment : q.segment = x.instr.override?.or p.segment)
    (rep : q.rep = x.instr.repeats?.or p.rep) : InForce (unbroken (x :: flow)) q.retire := by
  obtain ⟨sameSegment, sameRep⟩ := Prefixes.retire_of_keep keep
  rw [unbroken_of_passesOn passes]
  refine ⟨?_, ?_⟩
  · rw [sameSegment, segment, h.segment, List.findSome?_cons]
    cases x.instr.override? <;> rfl
  · rw [sameRep, rep, h.rep, List.findSome?_cons]
    cases x.instr.repeats? <;> rfl

end InForce

namespace Cpu

variable [Bus β]

/-- What a string instruction makes of the prefixes, by the place where it ends. -/
theorem prefixes_string (c : Cpu β) (op : StringOp) (w : Width) :
    ((c.string op w).regs.ip = c.regs.ip ∧
        (c.string op w).prefixes = { c.prefixes with rep := none }) ∨
      ((c.string op w).regs.ip = c.regs.ip - 1 ∧
        (c.string op w).prefixes = { c.prefixes with keep := true }) := by
  have place := c.ip_stringElement op w
  have kept := c.prefixes_stringElement op w
  cases rep : c.prefixes.rep with
  | none =>
      rw [string_of_not_rep rep]
      refine .inl ⟨place, ?_⟩
      change (c.stringElement op w).prefixes = _
      rw [kept, ← rep]
  | some mode =>
      rcases c.string_cases op w rep with ⟨_, same⟩ | ⟨_, same⟩ | ⟨_, same⟩
      · rw [same]
        exact .inl ⟨rfl, rfl⟩
      · rw [same]
        refine .inl ⟨place, ?_⟩
        change { (c.stringElement op w).prefixes with rep := none } = _
        rw [kept]
      · rw [same]
        refine .inr ⟨congrArg (· - 1) place, ?_⟩
        change { (c.stringElement op w).prefixes with keep := true } = _
        rw [kept]

end Cpu

theorem Executed.passesOn_of_isPlain {x : Executed β} (plain : x.instr.isPlain = true) :
    x.passesOn = false := by
  obtain ⟨instr, before, after⟩ := x
  cases instr with
  | iret | string | hlt | segmentOverride | repeatPrefix | lock => cases plain
  | _ => rfl

section

variable [Bus β] {before after : Cpu β} {flow : List (Executed β)}

theorem inForce_string (done : before.dispatch = .ok after) {op : StringOp} {w : Width}
    (isString : before.fetch.instr = .string op w) (h : InForce (unbroken flow) before.prefixes)
    (settled : before.prefixes.Settled) :
    InForce (unbroken (⟨.string op w, before, after⟩ :: flow)) after.prefixes.retire := by
  change before.fetched.exec before.fetch.instr = .ok after at done
  rw [isString] at done
  cases done
  have place := Cpu.ip_fetched_of_string isString
  rcases before.fetched.prefixes_string op w with ⟨ip, kept⟩ | ⟨ip, kept⟩
  · have dropped : (before.fetched.string op w).prefixes.Settled := by
      rw [kept]
      exact fun keep => ⟨(settled keep).1, rfl⟩
    refine .drops ?_ dropped
    change (_ == before.regs.ip) = false
    rw [ip, place, beq_eq_false_iff_ne]
    exact (ne_succ _).symm
  · have back : (before.fetched.string op w).regs.ip = before.regs.ip := by
      rw [ip, place, UInt16.add_sub_cancel]
    exact h.passes (beq_iff_eq.2 back) (by rw [kept]) (by rw [kept]; rfl) (by rw [kept]; rfl)

theorem inForce_executed (done : before.dispatch = .ok after)
    (notReturn : before.fetch.instr ≠ .iret) (h : InForce (unbroken flow) before.prefixes)
    (settled : before.prefixes.Settled) :
    InForce (unbroken (⟨before.fetch.instr, before, after⟩ :: flow)) after.prefixes.retire := by
  have executed : before.fetched.exec before.fetch.instr = .ok after := done
  by_cases plain : before.fetch.instr.isPlain = true
  · have kept := (before.fetched.plain_exec plain).prefixes
    rw [executed] at kept
    refine .drops (Executed.passesOn_of_isPlain plain) ?_
    change after.prefixes = before.prefixes at kept
    rwa [kept]
  · cases instr : before.fetch.instr with
    | iret => exact absurd instr notReturn
    | string op w => exact inForce_string done instr h settled
    | hlt =>
        rw [instr] at executed
        cases executed
        exact .drops rfl settled
    | segmentOverride | repeatPrefix | lock =>
        rw [instr] at executed
        cases executed
        exact h.passes rfl rfl rfl rfl
    | _ => exact absurd (by rw [instr]; rfl) plain

end

end RealMode
