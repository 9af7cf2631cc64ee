import RealMode.Proofs.Pic.Registers

/-!
The initialisation of the controller. Its first word, a command, says which words are to follow at
the data port; these are taken in order, whatever else happens in between, and after the last of
them the data port is that of the mask. How far it is follows from the bytes alone that have been
written to the data port since the first word.
-/

namespace RealMode
namespace Pic

/-- A byte at the command port that begins an initialisation. -/
def BeginsInit (value : UInt8) : Prop := value &&& 0x10 ≠ 0

/-- The words after the first one: the vector offset always, the lines with further controllers
unless there are none, and the last word if it has been announced. -/
def initWords (first : UInt8) : List InitStage :=
  .icw2 :: ((if first &&& 0x02 != 0 then [] else [.icw3]) ++
    if first &&& 0x01 != 0 then [.icw4] else [])

instance (value : UInt8) : Decidable (BeginsInit value) :=
  inferInstanceAs (Decidable (value &&& 0x10 ≠ 0))

def Op.BeginsInit : Op → Prop
  | .write port value => port = commandPort ∧ Pic.BeginsInit value
  | _ => False

instance : DecidablePred Op.BeginsInit
  | .write port value => inferInstanceAs (Decidable (port = commandPort ∧ Pic.BeginsInit value))
  | .raise _ | .acknowledge | .endOfInterrupt _ | .read _ => isFalse id

/-- The byte that an operation writes to the data port. -/
def Op.data? : Op → Option UInt8
  | .write port value => if port = commandPort then none else some value
  | _ => none

def after (p : Pic) (ops : List Op) : Pic := ops.foldl perform p

/-- The vector offset after these bytes at the data port. -/
def offsetAfter (before : UInt8) (data : List UInt8) : UInt8 :=
  (data.head?.map (· &&& 0xF8)).getD before

/-- The mask after these bytes at the data port since an initialisation was begun. -/
def maskAfter (first : UInt8) (data : List UInt8) : UInt8 :=
  (data.drop (initWords first).length).getLastD 0

/-- What the controller is told at the data port, apart from what it is asked to do. -/
def settings (p : Pic) : Pic :=
  { p with request := 0, inService := 0, readInService := false }

/-- The settings, computed from the first word of an initialisation and the bytes after it. -/
def configured (before first : UInt8) (data : List UInt8) : Pic where
  mask := maskAfter first data
  vectorOffset := offsetAfter before data
  stage := (initWords first)[data.length]?.getD .ready
  icw4Needed := first &&& 0x01 != 0
  single := first &&& 0x02 != 0

theorem settings_writeData (p : Pic) (value : UInt8) :
    (p.writeData value).settings = p.settings.writeData value := by
  obtain ⟨request, inService, mask, offset, stage, icw4Needed, single, readInService⟩ := p
  cases stage <;> rfl

theorem settings_writeCommand (p : Pic) {value : UInt8} (goesOn : ¬ BeginsInit value) :
    (p.writeCommand value).settings = p.settings := by
  unfold writeCommand endCommand
  rw [if_neg (by simpa [BeginsInit] using goesOn)]
  repeat' split
  all_goals rfl

/-- Only the data port takes part in an initialisation once it has begun. -/
theorem settings_perform (p : Pic) {op : Op} (goesOn : ¬ op.BeginsInit) :
    (p.perform op).settings = op.data?.elim p.settings p.settings.writeData := by
  cases op with
  | raise | endOfInterrupt | read => rfl
  | acknowledge =>
      change p.acknowledge.2.settings = p.settings
      rw [acknowledge]
      split <;> rfl
  | write port value =>
      change (p.setByte port value).settings = (if port = commandPort then none else some value).elim
        p.settings p.settings.writeData
      rw [setByte]
      split
      next command => exact p.settings_writeCommand fun begins => goesOn ⟨command, begins⟩
      next => exact p.settings_writeData value

theorem settings_beginInit (p : Pic) (first : UInt8) :
    (p.beginInit first).settings = configured p.vectorOffset first [] := by
  rfl

theorem maskAfter_of_le {first : UInt8} {data : List UInt8}
    (early : data.length ≤ (initWords first).length) : maskAfter first data = 0 := by
  rw [maskAfter, List.drop_of_length_le early]
  rfl

theorem maskAfter_append {first : UInt8} {data : List UInt8} (value : UInt8)
    (past : (initWords first).length ≤ data.length) :
    maskAfter first (data ++ [value]) = value := by
  rw [maskAfter, List.drop_append_of_le_length past, List.getLastD_concat]

theorem offsetAfter_append (before value : UInt8) {data : List UInt8} (started : data ≠ []) :
    offsetAfter before (data ++ [value]) = offsetAfter before data := by
  obtain ⟨head, rest, rfl⟩ := List.exists_cons_of_ne_nil started
  rfl

/-- After the vector offset each word that is due leads to the next, and the last to none. -/
theorem initWords_next {first : UInt8} {n : Nat} (later : 0 < n)
    (due : n < (initWords first).length) :
    ((initWords first)[n]? = some .icw3 ∧
        (initWords first)[n + 1]?.getD .ready = if first &&& 0x01 != 0 then .icw4 else .ready) ∨
      ((initWords first)[n]? = some .icw4 ∧ (initWords first)[n + 1]?.getD .ready = .ready) := by
  unfold initWords at due ⊢
  cases single : first &&& 0x02 != 0 <;> cases needed : first &&& 0x01 != 0 <;>
    simp only [single, needed, if_true, if_false, Bool.false_eq_true, List.length_cons,
      List.length_append, List.length_nil] at due ⊢
  case false.false =>
      obtain rfl : n = 1 := by omega
      exact Or.inl ⟨rfl, rfl⟩
  case false.true =>
      obtain rfl | rfl : n = 1 ∨ n = 2 := by omega
      · exact Or.inl ⟨rfl, rfl⟩
      · exact Or.inr ⟨rfl, rfl⟩
  case true.false => omega
  case true.true =>
      obtain rfl : n = 1 := by omega
      exact Or.inr ⟨rfl, rfl⟩

theorem configured_first (before first value : UInt8) :
    (configured before first []).writeData value = configured before first [value] := by
  have stage : (configured before first []).stageAfterOffset =
      (initWords first)[1]?.getD .ready := by
    unfold stageAfterOffset configured initWords
    cases first &&& 0x02 != 0 <;> cases first &&& 0x01 != 0 <;> rfl
  have mask : maskAfter first [value] = 0 := maskAfter_of_le (Nat.succ_le_succ (Nat.zero_le _))
  change { configured before first [] with
    vectorOffset := value &&& 0xF8, stage := (configured before first []).stageAfterOffset } = _
  rw [stage]
  simp only [configured, mask]
  rfl

/-- Each byte at the data port takes the settings one byte further. -/
theorem configured_append (before first value : UInt8) (data : List UInt8) :
    (configured before first data).writeData value =
      configured before first (data ++ [value]) := by
  by_cases started : data = []
  · subst started
    exact configured_first before first value
  have later : 0 < data.length := List.length_pos_iff.2 started
  have offset := offsetAfter_append before value started
  by_cases due : data.length < (initWords first).length
  · have mask : maskAfter first (data ++ [value]) = maskAfter first data := by
      rw [maskAfter_of_le (Nat.le_of_lt due), maskAfter_of_le]
      rwa [List.length_append]
    rcases initWords_next later due with ⟨now, next⟩ | ⟨now, next⟩
    · simp [configured, writeData, now, next, mask, offset]
    · simp [configured, writeData, now, next, mask, offset]
  · have past : (initWords first).length ≤ data.length := Nat.le_of_not_lt due
    have now : (initWords first)[data.length]? = none := List.getElem?_eq_none past
    have next : (initWords first)[data.length + 1]? = none :=
      List.getElem?_eq_none (Nat.le_succ_of_le past)
    simp [configured, writeData, now, next, maskAfter_append value past, offset]

/-- However it came to be there, a controller goes through an initialisation by its data alone. -/
theorem settings_after {p : Pic} {before first : UInt8} {data : List UInt8}
    (h : p.settings = configured before first data) {ops : List Op}
    (goesOn : ∀ op ∈ ops, ¬ op.BeginsInit) :
    (p.after ops).settings = configured before first (data ++ ops.filterMap Op.data?) := by
  induction ops generalizing p data with
  | nil => rwa [List.filterMap_nil, List.append_nil]
  | cons op ops ih =>
      obtain ⟨first, rest⟩ := List.forall_mem_cons.1 goesOn
      have step := p.settings_perform first
      rw [h] at step
      rw [List.filterMap_cons]
      cases written : op.data? with
      | none =>
          rw [written, Option.elim_none] at step
          exact ih step rest
      | some value =>
          rw [written, Option.elim_some, configured_append] at step
          have later := ih step rest
          rwa [List.append_assoc] at later

/-- A controller in or after an initialisation, with the bytes that the data port has got since the
first word. Of what is written next it takes the word that is due, or the mask if none is, and
nothing else changes but how far it is. -/
structure Initialises (before first : UInt8) (data : List UInt8) (p : Pic) : Prop where
  offset : p.vectorOffset = offsetAfter before data
  mask : p.mask = maskAfter first data
  takesOffset : data = [] → ∀ port value, port ≠ commandPort →
    p.perform (.write port value) =
      { p with vectorOffset := value &&& 0xF8, stage := (p.perform (.write port value)).stage }
  takesWord : 0 < data.length → data.length < (initWords first).length →
    ∀ port value, port ≠ commandPort →
      p.perform (.write port value) = { p with stage := (p.perform (.write port value)).stage }
  takesMask : (initWords first).length ≤ data.length → ∀ port value, port ≠ commandPort →
    p.perform (.write port value) = { p with mask := value }

theorem perform_write_data (p : Pic) {port : UInt16} (data : port ≠ commandPort) (value : UInt8) :
    p.perform (.write port value) = p.writeData value :=
  if_neg data

theorem initialises_of_settings {p : Pic} {before first : UInt8} {data : List UInt8}
    (h : p.settings = configured before first data) : p.Initialises before first data := by
  have stage : p.stage = (initWords first)[data.length]?.getD .ready :=
    (congrArg Pic.stage h :)
  refine
    { offset := (congrArg Pic.vectorOffset h :)
      mask := (congrArg Pic.mask h :)
      takesOffset := fun none port value isData => ?_
      takesWord := fun later due port value isData => ?_
      takesMask := fun past port value isData => ?_ }
  · subst none
    have now : p.stage = .icw2 := stage
    rw [p.perform_write_data isData, writeData, now]
  · rw [p.perform_write_data isData, writeData]
    rcases initWords_next later due with ⟨now, -⟩ | ⟨now, -⟩
    · rw [now, Option.getD_some] at stage
      rw [stage]
    · rw [now, Option.getD_some] at stage
      rw [stage]
  · rw [List.getElem?_eq_none past, Option.getD_none] at stage
    rw [p.perform_write_data isData, writeData, stage]

/-- From every state, also in the middle of an initialisation, a first word is followed by exactly
the words that it asks for: the first byte at the data port is the vector offset, then as many are
taken as there are words left, and every other one is the mask, until the next initialisation.
Nothing that happens to the controller in between, and no other command, takes part in this. -/
theorem init_takes_words (p : Pic) {first : UInt8} (begins : BeginsInit first) {ops : List Op}
    (goesOn : ∀ op ∈ ops, ¬ op.BeginsInit) :
    ((p.perform (.write commandPort first)).after ops).Initialises p.vectorOffset first
      (ops.filterMap Op.data?) := by
  have started : p.perform (.write commandPort first) = p.beginInit first := by
    change p.writeCommand first = _
    exact if_pos (bne_iff_ne.2 begins)
  rw [started]
  exact initialises_of_settings (settings_after (p.settings_beginInit first) goesOn)

/-- A controller in the middle of an initialisation, with a request, a line in service and the
offset of another one before. -/
def halfInitialised : Pic :=
  ({} : Pic).after
    [.write commandPort 0x11, .write dataPort 0x70, .raise .com1, .acknowledge, .raise .floppy]

/-- All that may come between the words, and the words themselves. -/
def restOfInit : List Op :=
  [.raise .keyboard, .write dataPort 0x2D, .acknowledge, .write commandPort 0x0B, .read commandPort,
    .write dataPort 0x04, .write commandPort 0x61, .endOfInterrupt 2, .write dataPort 0x01,
    .read dataPort]

theorem init_takes_words_again :
    BeginsInit 0x11 ∧ (∀ op ∈ restOfInit ++ [.write dataPort 0xFE], ¬ op.BeginsInit) ∧
      ((halfInitialised.perform (.write commandPort 0x11)).after restOfInit).mask = 0 ∧
      ((halfInitialised.perform (.write commandPort 0x11)).after
        (restOfInit ++ [.write dataPort 0xFE])).vectorOffset = 0x28 ∧
      ((halfInitialised.perform (.write commandPort 0x11)).after
        (restOfInit ++ [.write dataPort 0xFE])).mask = 0xFE := by
  have begins : BeginsInit 0x11 := by decide
  have goesOn : ∀ op ∈ restOfInit ++ [.write dataPort 0xFE], ¬ op.BeginsInit := by decide
  have early := init_takes_words halfInitialised begins
    fun op member => goesOn op (List.mem_append_left _ member)
  have late := init_takes_words halfInitialised begins goesOn
  exact ⟨begins, goesOn, early.mask.trans (by decide),
    late.offset.trans (by decide), late.mask.trans (by decide)⟩

end Pic
end RealMode
