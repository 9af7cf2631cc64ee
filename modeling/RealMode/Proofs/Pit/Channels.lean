import RealMode.Device.Pit

/-!
The timer as three channels side by side. For each channel an operation on the chip is one event of
that channel or nothing at all, so that a history of the chip is, seen from a channel, a history of
its own.
-/

namespace RealMode

section Runs

variable {σ ε τ δ α : Type}

/-- The answers that a run gives, in order; not every event has one. -/
def answers (step : σ → ε → σ) (answer : σ → ε → Option α) (s : σ) : List ε → List α
  | [] => []
  | e :: es => (answer s e).toList ++ answers step answer (step s e) es

variable {step : σ → ε → σ} {answer : σ → ε → Option α}

theorem answers_append (s : σ) (es fs : List ε) :
    answers step answer s (es ++ fs) =
      answers step answer s es ++ answers step answer (es.foldl step s) fs := by
  induction es generalizing s with
  | nil => rfl
  | cons e es ih =>
      rw [List.cons_append, answers, answers, ih, List.append_assoc]
      rfl

theorem answers_cons_congr {s t : σ} {e : ε} {es fs : List ε} (first : answer s e = answer t e)
    (rest : answers step answer (step s e) es = answers step answer (step t e) fs) :
    answers step answer s (e :: es) = answers step answer t (e :: fs) := by
  rw [answers, answers, first, rest]

theorem answers_cons_of_none {s : σ} {e : ε} (silent : answer s e = none) (es : List ε) :
    answers step answer s (e :: es) = answers step answer (step s e) es := by
  rw [answers, silent]
  rfl

variable {v : σ → τ} {event? : ε → Option δ} {next : τ → δ → τ} {reply : τ → δ → Option α}

/-- A part `v` that each event moves by itself goes its own way along a whole run. -/
theorem view_foldl (steps : ∀ s e, v (step s e) = (event? e).elim (v s) (next (v s)))
    (s : σ) (es : List ε) : v (es.foldl step s) = (es.filterMap event?).foldl next (v s) := by
  induction es generalizing s with
  | nil => rfl
  | cons e es ih =>
      rw [List.foldl_cons, ih, steps, List.filterMap_cons]
      cases event? e <;> rfl

theorem answers_view (steps : ∀ s e, v (step s e) = (event? e).elim (v s) (next (v s)))
    (replies : ∀ s e, answer s e = (event? e).bind (reply (v s))) (s : σ) (es : List ε) :
    answers step answer s es = answers next reply (v s) (es.filterMap event?) := by
  induction es generalizing s with
  | nil => rfl
  | cons e es ih =>
      rw [answers, ih, steps, replies, List.filterMap_cons]
      cases event? e <;> rfl

end Runs

namespace Pit

/-- What can happen to a channel. -/
inductive Channel.Event where
  | tick
  | read
  | latch
  | write (value : UInt8)
  | program (mode : Mode) (access : Access)
  deriving DecidableEq

namespace Channel

def perform (c : Channel) : Event → Channel
  | .tick => c.tick.2
  | .read => c.read.2
  | .latch => c.latch
  | .write value => c.write value
  | .program mode access => c.program mode access

def edge? (c : Channel) : Event → Option Bool
  | .tick => some c.tick.1
  | _ => none

def byte? (c : Channel) : Event → Option UInt8
  | .read => some c.read.1
  | _ => none

def after (c : Channel) (events : List Event) : Channel := events.foldl perform c

/-- What the ticks answer, true for a rising edge of the output. -/
def tickAnswers : Channel → List Event → List Bool := answers perform edge?

def bytesRead : Channel → List Event → List UInt8 := answers perform byte?

theorem after_append (c : Channel) (es fs : List Event) :
    c.after (es ++ fs) = (c.after es).after fs :=
  List.foldl_append

theorem tickAnswers_append (c : Channel) (es fs : List Event) :
    c.tickAnswers (es ++ fs) = c.tickAnswers es ++ (c.after es).tickAnswers fs :=
  answers_append c es fs

theorem tickAnswers_tick (c : Channel) (es : List Event) :
    c.tickAnswers (.tick :: es) = c.tick.1 :: c.tick.2.tickAnswers es :=
  rfl

theorem tickAnswers_of_ne_tick (c : Channel) {e : Event} (h : e ≠ .tick) (es : List Event) :
    c.tickAnswers (e :: es) = (c.perform e).tickAnswers es := by
  cases e with
  | tick => exact absurd rfl h
  | read | latch | write | program => rfl

end Channel

def channel (p : Pit) (i : Fin 3) : Channel := p.channels.get i

/-- What can happen to the chip. -/
inductive Op where
  | tick
  | read (port : UInt16)
  | write (port : UInt16) (value : UInt8)
  deriving DecidableEq

def perform (p : Pit) : Op → Pit
  | .tick => p.tick.2
  | .read port => (PortDevice.getByte p port).2
  | .write port value => PortDevice.setByte p port value

/-- Whether a tick asks for the interrupt. -/
def edge? (p : Pit) : Op → Option Bool
  | .tick => some p.tick.1
  | _ => none

/-- The byte that is read from the port of a channel. -/
def byte? (i : Fin 3) (p : Pit) : Op → Option UInt8
  | .read port => if portChannel? port = some i then some (PortDevice.getByte p port).1 else none
  | _ => none

def after (p : Pit) (ops : List Op) : Pit := ops.foldl perform p

def tickAnswers : Pit → List Op → List Bool := answers perform edge?

def bytesRead (i : Fin 3) : Pit → List Op → List UInt8 := answers perform (byte? i)

/-- What a control word does to the channel that it names. -/
def controlEvent (value : UInt8) : Channel.Event :=
  match Access.ofIndex (lowTwo (value.toNat / 16)) with
  | .latch => .latch
  | access => .program (.ofIndex (lowThree (value.toNat / 2))) access

/-- The channel that an operation is addressed to, with what it does there. A tick is for all
channels; and there are ports and control words for none. -/
def Op.target? : Op → Option (Fin 3 × Channel.Event)
  | .tick => none
  | .read port => (portChannel? port).map (·, .read)
  | .write port value =>
    if port = controlPort then (channelIndex? (value.toNat / 64)).map (·, controlEvent value)
    else (portChannel? port).map (·, .write value)

/-- What an operation is for one of the channels. -/
def Op.event? (i : Fin 3) : Op → Option Channel.Event
  | .tick => some .tick
  | op => op.target?.bind fun (j, e) => if j = i then some e else none

def events (i : Fin 3) (ops : List Op) : List Channel.Event := ops.filterMap (Op.event? i)

theorem events_append (i : Fin 3) (ops more : List Op) :
    events i (ops ++ more) = events i ops ++ events i more :=
  List.filterMap_append

theorem channel_modifyChannel (p : Pit) (j i : Fin 3) (f : Channel → Channel) :
    (p.modifyChannel j f).channel i = if j = i then f (p.channel i) else p.channel i := by
  change (p.channels.set j (f (p.channel j)))[i.val] = _
  simp only [Vector.getElem_set, Fin.val_inj]
  split
  next same => rw [same]
  next => rfl

theorem channel_tick (p : Pit) (i : Fin 3) : p.tick.2.channel i = (p.channel i).tick.2 := by
  change ((p.channels.map Channel.tick).map Prod.snd)[i.val] = _
  rw [Vector.getElem_map, Vector.getElem_map]
  rfl

theorem fst_tick (p : Pit) : p.tick.1 = (p.channel 0).tick.1 := by
  change (p.channels.map Channel.tick)[0].1 = _
  rw [Vector.getElem_map]
  rfl

theorem writeControl_eq (p : Pit) (value : UInt8) :
    p.writeControl value = ((channelIndex? (value.toNat / 64)).map (·, controlEvent value)).elim p
      fun (j, e) => p.modifyChannel j (·.perform e) := by
  unfold writeControl controlEvent
  cases channelIndex? (value.toNat / 64) with
  | none => rfl
  | some j => cases Access.ofIndex (lowTwo (value.toNat / 16)) <;> rfl

theorem perform_of_ne_tick (p : Pit) {op : Op} (h : op ≠ .tick) :
    p.perform op = op.target?.elim p fun (j, e) => p.modifyChannel j (·.perform e) := by
  cases op with
  | tick => exact absurd rfl h
  | read port =>
      change (p.getByte port).2 = ((portChannel? port).map _).elim p _
      rw [getByte]
      cases portChannel? port <;> rfl
  | write port value =>
      change p.setByte port value = _
      rw [setByte, Op.target?]
      split
      · exact p.writeControl_eq value
      · cases portChannel? port <;> rfl

theorem channel_perform (p : Pit) (op : Op) (i : Fin 3) :
    (p.perform op).channel i = (op.event? i).elim (p.channel i) (p.channel i).perform := by
  by_cases h : op = .tick
  · subst h
    exact p.channel_tick i
  · have event : op.event? i = op.target?.bind fun (j, e) => if j = i then some e else none := by
      cases op <;> first | rfl | exact absurd rfl h
    rw [p.perform_of_ne_tick h, event]
    cases op.target? with
    | none => rfl
    | some target =>
        simp only [Option.elim_some, Option.bind_some]
        rw [channel_modifyChannel]
        split <;> rfl

theorem silent_controlEvent (c : Channel) (value : UInt8) :
    c.edge? (controlEvent value) = none ∧ c.byte? (controlEvent value) = none := by
  unfold controlEvent
  cases Access.ofIndex (lowTwo (value.toNat / 16)) <;> exact ⟨rfl, rfl⟩

/-- Writing gives no answer. -/
theorem silent_write (c : Channel) {i : Fin 3} {port : UInt16} {value : UInt8} {e : Channel.Event}
    (h : (Op.write port value).event? i = some e) : c.edge? e = none ∧ c.byte? e = none := by
  simp only [Op.event?, Op.target?, Option.bind_eq_some_iff] at h
  obtain ⟨⟨j, event⟩, addressed, named⟩ := h
  obtain rfl : event = e := Option.some.inj (Option.ite_none_right_eq_some.1 named).2
  split at addressed
  · obtain ⟨_, _, same⟩ := Option.map_eq_some_iff.1 addressed
    cases same
    exact silent_controlEvent c value
  · obtain ⟨_, _, same⟩ := Option.map_eq_some_iff.1 addressed
    cases same
    exact ⟨rfl, rfl⟩

theorem event?_read (i : Fin 3) (port : UInt16) :
    (Op.read port).event? i = if portChannel? port = some i then some .read else none := by
  simp only [Op.event?, Op.target?]
  cases portChannel? port with
  | none => rfl
  | some j => simp

theorem edge?_eq (p : Pit) (op : Op) :
    p.edge? op = (op.event? 0).bind (p.channel 0).edge? := by
  cases op with
  | tick => exact congrArg some p.fst_tick
  | read port =>
      rw [event?_read]
      split <;> rfl
  | write port value =>
      refine (Option.bind_eq_none_iff.2 fun e event => ?_).symm
      exact (silent_write _ event).1

theorem byte?_eq (i : Fin 3) (p : Pit) (op : Op) :
    p.byte? i op = (op.event? i).bind (p.channel i).byte? := by
  cases op with
  | tick => rfl
  | read port =>
      rw [event?_read]
      change (if portChannel? port = some i then some (p.getByte port).1 else none) = _
      split
      next here =>
        rw [getByte, here]
        rfl
      next => rfl
  | write port value =>
      refine (Option.bind_eq_none_iff.2 fun e event => ?_).symm
      exact (silent_write _ event).2

theorem channel_after (p : Pit) (ops : List Op) (i : Fin 3) :
    (p.after ops).channel i = (p.channel i).after (events i ops) :=
  view_foldl (v := fun p : Pit => p.channel i) (fun p op => p.channel_perform op i) p ops

theorem tickAnswers_eq (p : Pit) (ops : List Op) :
    p.tickAnswers ops = (p.channel 0).tickAnswers (events 0 ops) :=
  answers_view (v := fun p : Pit => p.channel 0) (fun p op => p.channel_perform op 0)
    edge?_eq p ops

theorem bytesRead_eq (i : Fin 3) (p : Pit) (ops : List Op) :
    bytesRead i p ops = (p.channel i).bytesRead (events i ops) :=
  answers_view (v := fun p : Pit => p.channel i) (fun p op => p.channel_perform op i)
    (byte?_eq i) p ops

end Pit
end RealMode
