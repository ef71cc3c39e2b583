import MusicMacro.Proofs.Playback.Log

/-!
# Handing events over

What holds of every call that a source or a hook gets holds of handing an event over
(`Adapter.start_leads`, `Adapter.stop_leads`, `tellTones_leads`).

Where calls only answer, starting or stopping an event writes to the log and does nothing else:
first that the event is handed over, then items beside it (`startEvent_notes`, `stopEvent_notes`).
This holds wherever a call fails.  When no call fails and the source has the methods of its shape,
stopping does not fail (`stopEvent_safe`).
-/

namespace MusicMacro

/-! ## Two kinds of calls -/

namespace Call

/-- The call belongs to the start of an event. -/
def IsStarting : Call → Prop
  | tune _ _ | startGenerator _ | startChord _ _ _ | startTrigger _ _ _ | started _ _ => True
  | _ => False

instance : DecidablePred IsStarting
  | tune _ _ | startGenerator _ | startChord _ _ _ | startTrigger _ _ _ | started _ _ =>
    .isTrue trivial
  | stopGenerator _ | stopChord _ _ | stopTrigger _ _ | stopped _ _ | ended | refused _ =>
    .isFalse id

/-- The call belongs to the stop of an event. -/
def IsStopping : Call → Prop
  | stopGenerator _ | stopChord _ _ | stopTrigger _ _ | stopped _ _ => True
  | _ => False

lemma IsStarting.name_ne_ended {c : Call} (h : c.IsStarting) : c.name ≠ .ended := by
  cases c <;> first | exact h.elim | simp [name]

lemma IsStopping.name_ne_ended {c : Call} (h : c.IsStopping) : c.name ≠ .ended := by
  cases c <;> first | exact h.elim | simp [name]

lemma IsStopping.not_isStarting {c : Call} (h : c.IsStopping) : ¬ c.IsStarting := by
  cases c <;> first | exact h.elim | exact id

end Call

/-! ## What calls lead to -/

section

variable {R : Session → Session → Prop} {handle : Handler} {index : Nat}

lemma Adapter.onGenerator_leads (count : Nat) (tone : SoundingTone) {calls : Step}
    (h : calls.Leads R) (hwarn : ∀ w, (Step.change (·.record (.warned w))).Leads R) :
    (onGenerator count tone calls).Leads R := by
  unfold onGenerator
  split
  · exact h
  · exact hwarn _

variable [IsPreorder Session R]

namespace Adapter

lemma misfitCall_leads (shape : SourceShape) (kind method : String) (event : Event) :
    (misfitCall shape kind method event).Leads R := by
  unfold misfitCall
  split
  · exact Step.skip_leads
  · exact Step.fail_leads _

variable (hwarn : ∀ w, (Step.change (·.record (.warned w))).Leads R)

include hwarn

/-- What holds of every call that belongs to a start holds of starting an event on a source. -/
lemma start_leads (hcall : ∀ c : Call, c.IsStarting → (handle index c).Leads R)
    (adapter : Adapter) (event : Event) (routing onProcess : Option String) :
    (adapter.start handle index event routing onProcess).Leads R := by
  cases adapter with
  | generators count =>
      refine Step.Leads.forEach fun tone _ => onGenerator_leads count tone ?_ hwarn
      exact Step.Leads.andThen (hcall _ trivial) (hcall _ trivial)
  | chords => exact hcall _ trivial
  | triggers => exact Step.Leads.forEach fun tone _ => hcall _ trivial
  | misfit shape kind => exact misfitCall_leads shape kind "start" event

/-- What holds of every call that belongs to a stop holds of stopping an event on a source. -/
lemma stop_leads (hcall : ∀ c : Call, c.IsStopping → (handle index c).Leads R)
    (adapter : Adapter) (event : Event) (onProcess : Option String) :
    (adapter.stop handle index event onProcess).Leads R := by
  cases adapter with
  | generators count =>
      exact Step.Leads.forEach fun tone _ => onGenerator_leads count tone (hcall _ trivial) hwarn
  | chords => exact hcall _ trivial
  | triggers => exact Step.Leads.forEach fun tone _ => hcall _ trivial
  | misfit shape kind => exact misfitCall_leads shape kind "stop" event

end Adapter

lemma tellTones_leads (installed : Hooks → Bool) {tell : SoundingTone → Step} (event : Event)
    (h : ∀ tone, (tell tone).Leads R) : (tellTones installed tell event).Leads R := by
  refine Step.Leads.given fun s => ?_
  split
  · refine Step.Leads.forEach fun tone _ => Step.Leads.given fun s => ?_
    split
    · exact h tone
    · exact Step.fail_leads _
  · exact Step.skip_leads

section

variable (hwarn : ∀ w, (Step.change (·.record (.warned w))).Leads R)
  (hcalls : ∀ c, (handle index c).Leads R)

include hwarn hcalls

/-- What holds of the handing over and of every call holds of starting an event of an entry. -/
lemma startEvent_leads_of_calls {adapter : Adapter} {number entry : Nat} {event : Event}
    (hmark : ∀ s, R s (s.record (.dispatched s.clock index entry number true event)))
    (routing onProcess : Option String) :
    (startEvent handle adapter number index entry event routing onProcess).Leads R := by
  refine Step.Leads.andThen hmark (Step.Leads.andThen ?_ ?_)
  · exact adapter.start_leads hwarn (fun c _ => hcalls c) event routing onProcess
  · exact tellTones_leads _ event fun tone => hcalls _

/-- What holds of the handing over and of every call holds of stopping an event of an entry. -/
lemma stopEvent_leads_of_calls {entry : Nat} {event : Event}
    (hmark : ∀ s, R s (s.record (.dispatched s.clock index entry s.adapters false event)))
    (onProcess : Option String) : (stopEvent handle index entry event onProcess).Leads R := by
  refine Step.Leads.given fun s => ?_
  rcases s.adapter with _ | adapter
  · exact Step.fail_leads _
  · refine Step.Leads.andThen hmark (Step.Leads.andThen ?_ ?_)
    · exact adapter.stop_leads hwarn (fun c _ => hcalls c) event onProcess
    · exact tellTones_leads _ event fun tone => hcalls _

end

lemma tellEnded_leads {entry : Nat} (hmark : ∀ s, R s (s.record (.finished s.clock index entry)))
    (hcall : (handle index .ended).Leads R) : (tellEnded handle index entry).Leads R := by
  refine Step.Leads.andThen hmark (Step.Leads.given fun s => ?_)
  split
  · exact hcall
  · exact Step.skip_leads

lemma reportOutcome_leads (hwarn : ∀ w, (Step.change (·.record (.warned w))).Leads R)
    {o : PartOutcome} (hcall : ∀ e, (handle o.index (.refused e)).Leads R) :
    (reportOutcome handle o).Leads R := by
  have hwarns : ∀ (warnings : List Warning) (s : Session),
      R s (warnings.foldl (fun s w => s.record (.warned w)) s) := by
    intro warnings
    induction warnings with
    | nil => exact fun s => refl_of R s
    | cons w rest ih => exact fun s => trans_of R (hwarn w s) (ih _)
  refine Step.Leads.andThen (hwarns o.warnings) ?_
  split
  case h_1 => exact Step.skip_leads
  case h_3 => exact Step.fail_leads _
  case h_2 =>
    refine Step.Leads.given fun s => ?_
    split
    · exact hcall _
    · exact Step.skip_leads

end

/-! ## What is written -/

variable (env : Environment)

lemma warned_isAside (index : Nat) (w : Warning) :
    (Step.change (·.record (.warned w))).Notes (LogItem.IsAside index) :=
  Step.change_record_notes trivial

/-- To start an event is to log that it is handed over, and then items beside it. -/
lemma startEvent_notes (adapter : Adapter) (number index entry : Nat) (event : Event)
    (routing onProcess : Option String) (s : Session) :
    (s.record (.dispatched s.clock index entry number true event)).Notes (LogItem.IsAside index)
      (startEvent (handler env 0) adapter number index entry event routing onProcess s).1 := by
  rw [startEvent, Step.change_andThen]
  have hcall := fun (c : Call) (hc : c.IsStarting) => handler_notes env index hc.name_ne_ended
  exact Step.Leads.andThen
    (adapter.start_leads (warned_isAside index) hcall event routing onProcess)
    (tellTones_leads _ event fun tone => hcall (.started event tone.place) trivial) _

/-- To stop an event is to log that it is handed over, and then items beside it. -/
lemma stopEvent_notes {s : Session} {adapter : Adapter} (h : s.adapter = some adapter)
    (index entry : Nat) (event : Event) (onProcess : Option String) :
    (s.record (.dispatched s.clock index entry s.adapters false event)).Notes
      (LogItem.IsAside index) (stopEvent (handler env 0) index entry event onProcess s).1 := by
  simp only [stopEvent, Step.given_apply, h, Step.change_andThen]
  have hcall := fun (c : Call) (hc : c.IsStopping) => handler_notes env index hc.name_ne_ended
  exact Step.Leads.andThen
    (adapter.stop_leads (warned_isAside index) hcall event onProcess)
    (tellTones_leads _ event fun tone => hcall (.stopped event tone.place) trivial) _

/-! ## Without failures -/

/-- A source that has the methods of its shape. -/
def Adapter.IsFit : Adapter → Prop
  | misfit _ _ => False
  | _ => True

variable {env}

lemma handler_safe (never : env.NeverFails) (hooks : Hooks) (index : Nat) (c : Call) :
    (handler env 0 index c).Safe (·.hooks = hooks) := by
  intro s hs
  refine ⟨?_, hs⟩
  rw [handler_zero_snd, never, if_neg Bool.false_ne_true]

lemma Adapter.onGenerator_safe (hooks : Hooks) (count : Nat) (tone : SoundingTone) {calls : Step}
    (h : calls.Safe (·.hooks = hooks)) :
    (Adapter.onGenerator count tone calls).Safe (·.hooks = hooks) := by
  unfold Adapter.onGenerator
  split
  · exact h
  · exact fun s hs => ⟨rfl, hs⟩

lemma Adapter.stop_safe (never : env.NeverFails) (hooks : Hooks) {adapter : Adapter}
    (fit : adapter.IsFit) (index : Nat) (event : Event) (onProcess : Option String) :
    (adapter.stop (handler env 0) index event onProcess).Safe (·.hooks = hooks) := by
  cases adapter with
  | generators count =>
      exact Step.Safe.forEach fun tone _ =>
        onGenerator_safe hooks count tone (handler_safe never hooks index _)
  | chords => exact handler_safe never hooks index _
  | triggers => exact Step.Safe.forEach fun tone _ => handler_safe never hooks index _
  | misfit shape kind => exact fit.elim

lemma tellTones_safe (hooks : Hooks) (installed : Hooks → Bool) {tell : SoundingTone → Step}
    (event : Event) (h : ∀ tone, (tell tone).Safe (·.hooks = hooks)) :
    (tellTones installed tell event).Safe (·.hooks = hooks) := by
  intro s hs
  rw [tellTones, Step.given_apply]
  split
  case isFalse => exact ⟨rfl, hs⟩
  case isTrue hin =>
    rw [hs] at hin
    -- The hooks stay as they are, so the hook is there for every tone.
    refine Step.Safe.forEach (I := (·.hooks = hooks)) (fun tone _ s' hs' => ?_) s hs
    rw [Step.given_apply, hs', if_pos hin]
    exact h tone s' hs'

lemma stopEvent_safe (never : env.NeverFails) {s : Session} {adapter : Adapter}
    (h : s.adapter = some adapter) (fit : adapter.IsFit) (index entry : Nat) (event : Event)
    (onProcess : Option String) :
    (stopEvent (handler env 0) index entry event onProcess s).2 = none := by
  simp only [stopEvent, Step.given_apply, h, Step.change_andThen]
  have hcalls := Adapter.stop_safe never s.hooks fit index event onProcess
  have htells := tellTones_safe s.hooks (·.stopped) event fun tone =>
    handler_safe never s.hooks index (.stopped event tone.place)
  exact (Step.Safe.andThen hcalls htells (s.record _) rfl).1

end MusicMacro
