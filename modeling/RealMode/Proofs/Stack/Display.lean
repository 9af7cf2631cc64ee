import RealMode.Proofs.Stack.Pairs

/-!
The display of nested frames. Each ENTER of the next level copies the display that it finds through
BP and adds its own frame pointer, so that after a chain of them the words below BP are the frame
pointers of all levels, outermost first, as long as the frames do not run into each other.
-/

namespace RealMode

open MemoryBus (memory)

variable {β : Type} [Bus β] [MemoryBus β]

/-- The word `i` words below the one that BP points to. -/
def Cpu.displayWord (c : Cpu β) (i : Nat) : UInt16 :=
  (memory c.bus).readWord (physical c.regs.ss (slot c.regs.bp i))

/-- The next step is an ENTER one level below these frames. Its words fit into what is left of the
64 KiB of the stack, and they are in RAM. -/
structure Deepens (frames : List UInt16) (used : Nat) (c : Cpu β) (size : UInt16) (level : UInt8) :
    Prop where
  performs : c.Performs (.enter size level)
  next : (level &&& 0x1F).toNat = frames.length + 1
  room : used + 2 * (frames.length + 2) ≤ 0x10000
  ram : ∀ byte ∈ pushedBytes c.regs.ss c.regs.sp (frames.length + 2), isRam byte

/-- From `start` to `c` so many ENTERs of the levels from 1 on have been done, and `frames` are the
values that they have given to BP, the first level first. Between two of them anything may happen
that keeps BP and the words of the display and uses up more of the stack. -/
inductive Chain (start : Cpu β) : List UInt16 → Nat → Cpu β → Prop
  | start : Chain start [] 0 start
  | enter {frames : List UInt16} {used : Nat} {c : Cpu β} {size : UInt16} {level : UInt8}
      (h : Chain start frames used c) (deepens : Deepens frames used c size level) :
      Chain start (frames ++ [c.step.cpu.regs.bp]) (used + 2 * (frames.length + 2) + size.toNat)
        c.step.cpu
  | work {frames : List UInt16} {used : Nat} {c d : Cpu β} (h : Chain start frames used c)
      (more : Nat) (sp : d.regs.sp = c.regs.sp - UInt16.ofNat more) (bp : d.regs.bp = c.regs.bp)
      (display : ∀ i < frames.length, d.displayWord (i + 1) = c.displayWord (i + 1)) :
      Chain start frames (used + more) d

/-- The display of these frames: BP is the innermost frame pointer, and below the word that it
points to lie all of them. -/
structure Displayed (start : Cpu β) (frames : List UInt16) (c : Cpu β) : Prop where
  bp : c.regs.bp = frames.getLastD start.regs.bp
  word : ∀ i, ∀ inside : i < frames.length, c.displayWord (i + 1) = frames[i]

/-- So many bytes of stack are in use, and the display lies among them. -/
structure Framed (start : Cpu β) (frames : List UInt16) (used : Nat) (c : Cpu β) : Prop
    extends Displayed start frames c where
  sp : c.regs.sp = start.regs.sp - UInt16.ofNat used
  depth : frames ≠ [] → ∃ base, c.regs.bp = start.regs.sp - UInt16.ofNat base ∧
    base + 2 * frames.length ≤ used

namespace Framed

variable {start c d : Cpu β} {frames : List UInt16} {used : Nat} {size : UInt16} {level : UInt8}

theorem initial : Framed start [] 0 start :=
  ⟨⟨rfl, nofun⟩, (UInt16.sub_zero _).symm, fun some => absurd rfl some⟩

theorem work (h : Framed start frames used c) {more : Nat}
    (sp : d.regs.sp = c.regs.sp - UInt16.ofNat more) (bp : d.regs.bp = c.regs.bp)
    (display : ∀ i < frames.length, d.displayWord (i + 1) = c.displayWord (i + 1)) :
    Framed start frames (used + more) d := by
  refine ⟨⟨bp.trans h.bp, fun i inside => (display i inside).trans (h.word i inside)⟩, ?_, ?_⟩
  · rw [sp, h.sp, UInt16.ofNat_add]
    grind
  · intro some
    obtain ⟨base, place, below⟩ := h.depth some
    exact ⟨base, bp.trans place, by omega⟩

/-- What the stack holds between its top and BP is as many bytes as it seems. -/
theorem above (h : Framed start frames used c) (room : used + 4 ≤ 0x10000) (some : frames ≠ []) :
    2 * frames.length ≤ (c.regs.bp - c.regs.sp).toNat ∧
      (c.regs.bp - c.regs.sp).toNat ≤ used := by
  obtain ⟨base, place, below⟩ := h.depth some
  have distance : c.regs.bp - c.regs.sp = UInt16.ofNat (used - base) := by
    have sum : UInt16.ofNat used = UInt16.ofNat (used - base) + UInt16.ofNat base := by
      rw [← UInt16.ofNat_add, Nat.sub_add_cancel (by omega)]
    rw [place, h.sp, sum]
    grind
  rw [distance, UInt16.toNat_ofNat']
  omega

end Framed

namespace Deepens

variable {start c : Cpu β} {frames : List UInt16} {used : Nat} {size : UInt16} {level : UInt8}

theorem regs_step (h : Deepens frames used c size level) :
    c.step.cpu.regs = { c.regs with
      ip := c.behind
      bp := c.regs.sp - 2
      sp := slot c.regs.sp (frames.length + 2) - size } := by
  rw [h.performs.regs_step ⟨rfl, nofun⟩]
  refine (c.ahead.regs_enter size level).trans ?_
  rw [h.next]
  rfl

theorem memory_step (h : Deepens frames used c size level) :
    memory c.step.cpu.bus = (memory c.bus).pushWords c.regs.ss c.regs.sp
      ((memory c.bus).frameWords c.regs (frames.length + 1)) := by
  rw [h.performs.memory_step ⟨rfl, nofun⟩]
  refine (c.ahead.memory_enter size level).trans ?_
  rw [h.next, Cpu.memory_ahead]
  rfl

theorem displayWord_step (h : Deepens frames used c size level) {i : Nat} {value : UInt16}
    (found : ((memory c.bus).frameWords c.regs (frames.length + 1))[i]? = some value) :
    c.step.cpu.displayWord i = value := by
  obtain ⟨inside, same⟩ := List.getElem?_eq_some_iff.1 found
  have length := (memory c.bus).length_frameWords c.regs (frames.length + 1)
  have room := h.room
  have place : slot (c.regs.sp - 2) i = slot c.regs.sp (i + 1) := slot_sub_two _ _
  have ram := h.ram
  rw [← length] at ram
  rw [Cpu.displayWord, h.memory_step, h.regs_step]
  change Memory.readWord _ (physical c.regs.ss (slot (c.regs.sp - 2) i)) = value
  rw [place, Memory.readWord_pushWords _ ram (by omega) inside, same]

/-- The new display is the old one and the new frame pointer. -/
theorem displayed (h : Deepens frames used c size level) (framed : Framed start frames used c) :
    Displayed start (frames ++ [c.step.cpu.regs.bp]) c.step.cpu := by
  have bp : c.step.cpu.regs.bp = c.regs.sp - 2 := by rw [h.regs_step]
  refine ⟨by simp, ?_⟩
  intro i inside
  by_cases outer : i < frames.length
  · have some : frames ≠ [] := List.ne_nil_of_length_pos (Nat.zero_lt_of_lt outer)
    have room := h.room
    obtain ⟨above, near⟩ := framed.above (by omega) some
    have copied := h.displayWord_step
      ((memory c.bus).frameWords_display above (by omega) outer)
    rw [copied, List.getElem_append_left outer]
    exact framed.word i outer
  · rw [List.length_append, List.length_singleton] at inside
    have last : i = frames.length := by omega
    subst last
    rw [h.displayWord_step ((memory c.bus).frameWords_last c.regs frames.length),
      List.getElem_concat_length rfl, bp]

theorem framed (h : Deepens frames used c size level) (framed : Framed start frames used c) :
    Framed start (frames ++ [c.step.cpu.regs.bp])
      (used + 2 * (frames.length + 2) + size.toNat) c.step.cpu := by
  refine ⟨h.displayed framed, ?_, fun _ => ⟨used + 2, ?_, ?_⟩⟩
  · rw [h.regs_step, framed.sp, slot, UInt16.ofNat_add, UInt16.ofNat_add, UInt16.ofNat_toNat]
    grind
  · rw [h.regs_step, framed.sp, UInt16.ofNat_add]
    grind
  · rw [List.length_append, List.length_singleton]
    omega

end Deepens

theorem Chain.framed {start c : Cpu β} {frames : List UInt16} {used : Nat}
    (h : Chain start frames used c) : Framed start frames used c := by
  induction h with
  | start => exact .initial
  | enter _ deepens ih => exact deepens.framed ih
  | work _ _ sp bp display ih => exact ih.work sp bp display

/-- A push between two ENTERs does not reach the display. -/
theorem Chain.push {start c : Cpu β} {frames : List UInt16} {used : Nat}
    (h : Chain start frames used c) (room : used + 6 ≤ 0x10000) {value : UInt16}
    (pushes : c.Pushes value) : Chain start frames (used + 2) c.step.cpu := by
  have regs := pushes.regs
  refine h.work 2 (by rw [regs]; rfl) (by rw [regs]) fun k inside => ?_
  have some : frames ≠ [] := List.ne_nil_of_length_pos (Nat.zero_lt_of_lt inside)
  obtain ⟨above, near⟩ := h.framed.above (by omega) some
  have clear : (slot c.regs.bp (k + 1) - c.regs.sp).toNat + 2 * 1 ≤ 0xFFFE := by
    rw [toNat_slot_sub (by omega)]
    omega
  rw [Cpu.displayWord, regs, pushes.memory]
  exact Memory.readWord_pushWords_above _ clear

/-- After a chain of ENTERs of the levels from 1 on, the word `2 * i` bytes below BP is the frame
pointer of level `i`, the word at BP is the BP of the level before, and SP lies below the display by
what is allocated. -/
theorem display_after {start c : Cpu β} {frames : List UInt16} {used : Nat} {size : UInt16}
    {level : UInt8} (chain : Chain start frames used c) (deepens : Deepens frames used c size level) :
    let d := c.step.cpu
    let all := frames ++ [d.regs.bp]
    (∀ i, ∀ inside : i < all.length, d.displayWord (i + 1) = all[i]) ∧
      d.displayWord 0 = frames.getLastD start.regs.bp ∧
      d.regs.sp = slot d.regs.bp all.length - size := by
  have framed := chain.framed
  refine ⟨(deepens.displayed framed).word, ?_, ?_⟩
  · rw [deepens.displayWord_step ((memory c.bus).frameWords_zero c.regs _)]
    exact framed.bp
  · rw [deepens.regs_step, List.length_append, List.length_singleton]
    exact congrArg (· - size) (slot_sub_two _ _).symm

/-- ENTER 2,1, PUSH AX and ENTER 4,2, with a stack that is about to wrap. -/
def nested : Cpu FlatBus where
  regs := { ax := 7, sp := 3, bp := 0x1234, ss := 0x1000, ip := 0x10 }
  bus := { memory := Memory.zero.loadBlock 0x10 ⟨#[0xC8, 2, 0, 1, 0x50, 0xC8, 4, 0, 2]⟩ }
  config := .ofRatio .i80186 4 false

theorem next_nested : nested.next = ⟨.enter 2 1, 4⟩ := by
  rw [Cpu.next_linear]
  decide

theorem performs_nested : nested.Performs (.enter 2 1) := by
  have masked := congrArg (·.flags.interrupt) (nested.ahead.regs_enter 2 1)
  exact .of_masked rfl (by rw [next_nested]) ⟨rfl, nofun⟩ rfl masked

theorem deepens_nested : Deepens [] 0 nested 2 1 where
  performs := performs_nested
  next := by decide
  room := by decide
  ram := List.all_iff_forall_prop.1 (by decide)

theorem behind_nested : nested.behind = 0x14 := by
  rw [Cpu.behind, next_nested]
  decide

theorem regs_nested : nested.step.cpu.regs = { nested.regs with ip := 0x14, bp := 1, sp := 0xFFFD } := by
  have regs := deepens_nested.regs_step
  rw [behind_nested] at regs
  rw [regs]
  decide

theorem memory_nested :
    memory nested.step.cpu.bus = nested.bus.memory.pushWords 0x1000 3 [0x1234, 1] :=
  deepens_nested.memory_step

theorem next_step_nested : nested.step.cpu.next = ⟨.pushReg 0, 1⟩ := by
  have config := deepens_nested.performs.config_step ⟨rfl, nofun⟩
  rw [Cpu.next_linear, config, memory_nested, regs_nested]
  decide

theorem pushesOne_nested :
    PushesOne nested.step.cpu (.pushReg 0) (nested.step.cpu.ahead.regs.get (.ofIndex 0)) :=
  pushesOne_reg _ (by decide)

theorem performs_step_nested : nested.step.cpu.Performs (.pushReg 0) := by
  have running := performs_nested.halted_step ⟨rfl, nofun⟩ nofun
  refine .of_push running (by rw [next_step_nested]) ⟨rfl, nofun⟩ pushesOne_nested ?_ ?_
  · rw [regs_nested]
    rfl
  · rw [regs_nested]
    rfl

theorem pushes_nested :
    nested.step.cpu.Pushes (nested.step.cpu.ahead.regs.get (.ofIndex 0)) :=
  performs_step_nested.pushes ⟨rfl, nofun⟩ pushesOne_nested

theorem regs_step_nested : nested.step.cpu.step.cpu.regs =
    { nested.regs with ip := 0x15, bp := 1, sp := 0xFFFB } := by
  rw [pushes_nested.regs, Cpu.behind, next_step_nested,
    regs_nested]
  decide

theorem memory_step_nested : memory nested.step.cpu.step.cpu.bus =
    (nested.bus.memory.pushWords 0x1000 3 [0x1234, 1]).pushWords 0x1000 0xFFFD [7] := by
  have pushed := pushes_nested.memory
  rw [memory_nested, Cpu.regs_ahead, regs_nested] at pushed
  exact pushed

theorem next_twice_nested : nested.step.cpu.step.cpu.next = ⟨.enter 4 2, 4⟩ := by
  have config := (performs_step_nested.config_step ⟨rfl, nofun⟩).trans
    (performs_nested.config_step ⟨rfl, nofun⟩)
  rw [Cpu.next_linear, config, memory_step_nested, regs_step_nested]
  decide

theorem deepens_twice_nested : Deepens [1] 8 nested.step.cpu.step.cpu 4 2 where
  performs := by
    have running := performs_step_nested.halted_step ⟨rfl, nofun⟩ nofun
    have regs := nested.step.cpu.step.cpu.ahead.regs_enter 4 2
    rw [Cpu.regs_ahead, regs_step_nested] at regs
    exact .of_masked running (by rw [next_twice_nested]) ⟨rfl, nofun⟩ (by rw [regs_step_nested]; rfl)
      (congrArg (·.flags.interrupt) regs)
  next := by decide
  room := by decide
  ram := by
    rw [regs_step_nested]
    exact List.all_iff_forall_prop.1 (by decide)

theorem chain_nested : Chain nested [1] 8 nested.step.cpu.step.cpu := by
  have first := Chain.start.enter deepens_nested
  rw [regs_nested] at first
  exact first.push (by decide) pushes_nested

/-- The display holds both frame pointers, one of them in a word that runs over the end of the
segment. -/
theorem display_after_nested :
    Chain nested [1] 8 nested.step.cpu.step.cpu ∧ Deepens [1] 8 nested.step.cpu.step.cpu 4 2 ∧
      let d := nested.step.cpu.step.cpu.step.cpu
      d.displayWord 1 = 1 ∧ d.displayWord 2 = 0xFFF9 ∧ d.displayWord 0 = 1 ∧ d.regs.sp = 0xFFF1 := by
  have chain := chain_nested
  have deepens := deepens_twice_nested
  obtain ⟨word, outer, sp⟩ := display_after chain deepens
  have bp : nested.step.cpu.step.cpu.step.cpu.regs.bp = 0xFFF9 := by
    rw [deepens.regs_step, regs_step_nested]
    decide
  have last : [(1 : UInt16)].getLastD nested.regs.bp = 1 := rfl
  rw [bp] at word sp
  rw [last] at outer
  refine ⟨chain, deepens, word 0 (by decide), word 1 (by decide), outer, ?_⟩
  rw [sp]
  decide

end RealMode
