import MusicMacro.Proofs.Playback.Generations
import MusicMacro.Proofs.Playback.Matching

/-!
# Halts that are called back

Here the only commands that are given during calls are halts, at any depth of nesting
(`Environment.OnlyHalts`).  A call then does one of two things to the parts and the timers: it
leaves them alone, or a halt was called back in it, and they are as if all parts had been
disarmed just before (`Session.Hushes`, `handler_hushes`).

Nothing of this discards a part that plays, so timers and playing parts belong to each other as
they do where nothing is called back (`after_wellTimed_of_onlyHalts`), and once all parts are
disarmed no timer runs.
-/

namespace MusicMacro

open Session

/-- The only commands that are given during calls are halts. -/
def Environment.OnlyHalts (env : Environment) : Prop :=
  ∀ name n, ∀ c ∈ (env name n).commands, ∃ onProcess, c = .halt onProcess

lemma Environment.giving_onlyHalts (name : CallName) (onProcess : Option String) :
    (giving name [.halt onProcess]).OnlyHalts := by
  intro called n c hc
  rw [giving] at hc
  split at hc
  · exact ⟨onProcess, List.mem_singleton.mp hc⟩
  · exact absurd hc List.not_mem_nil

/-- The command is to halt. -/
def Command.IsHalt : Command → Prop
  | .halt _ => True
  | _ => False

instance : DecidablePred Command.IsHalt
  | .halt _ => .isTrue trivial
  | .prepare _ _ _ | .play _ _ _ | .playAll _ _ | .install _ | .advance _ _ | .run _ | .look _
  | .overview | .wait => .isFalse id

/-- The item tells that a halt that was called back has returned. -/
def LogItem.IsHalt : LogItem → Prop
  | .answered command _ => command.IsHalt
  | _ => False

instance : DecidablePred LogItem.IsHalt
  | .answered command _ => inferInstanceAs (Decidable command.IsHalt)
  | .call _ _ _ | .dispatched _ _ _ _ _ _ | .finished _ _ _ | .warned _ | .fired _ | .escaped _ =>
    .isFalse id

/-- The item tells that an event is started, or of a call that belongs to a start. -/
def LogItem.IsStart : LogItem → Prop
  | .dispatched _ _ _ _ starting _ => starting = true
  | .call _ _ c => c.IsStarting
  | _ => False

instance : DecidablePred LogItem.IsStart
  | .dispatched _ _ _ _ starting _ => inferInstanceAs (Decidable (starting = true))
  | .call _ _ c => inferInstanceAs (Decidable c.IsStarting)
  | .finished _ _ _ | .warned _ | .fired _ | .escaped _ | .answered _ _ => .isFalse id

/-- The item does not tell of a start. -/
abbrev LogItem.IsSilent (item : LogItem) : Prop := ¬ item.IsStart

/-! ## Sessions that differ by what is told -/

/-- The second session has more in its log, all of it with the property; beside that only the
counts, the flag and those who wait may differ. -/
def Session.Tells (P : LogItem → Prop) (s s' : Session) : Prop :=
  ∃ items counts idle waiters,
    s' = { s with log := items ++ s.log, counts := counts, idle := idle, waiters := waiters } ∧
      ∀ item ∈ items, P item

/-- The timers that entries name are taken back, and none is named any more. -/
def Session.hush (s : Session) : Session :=
  { s with
    timers := s.timers.filter fun t => !(s.registry.filterMap (·.timer)).contains t.serial
    registry := s.registry.map fun e => { e with timer := none } }

namespace Session

variable {P Q : LogItem → Prop} {s s' s'' : Session}

lemma Tells.trans (h : s.Tells P s') (h' : s'.Tells P s'') : s.Tells P s'' := by
  obtain ⟨items, counts, idle, waiters, rfl, hitems⟩ := h
  obtain ⟨later, counts', idle', waiters', rfl, hlater⟩ := h'
  refine ⟨later ++ items, counts', idle', waiters', ?_, ?_⟩
  · simp only [List.append_assoc]
  · simpa [or_imp, forall_and] using ⟨hlater, hitems⟩

lemma Tells.mono (h : s.Tells P s') (himp : ∀ item, P item → Q item) : s.Tells Q s' := by
  obtain ⟨items, counts, idle, waiters, hs, hitems⟩ := h
  exact ⟨items, counts, idle, waiters, hs, fun item hi => himp item (hitems item hi)⟩

instance tells_isPreorder (P : LogItem → Prop) : IsPreorder Session (Session.Tells P) where
  refl s := ⟨[], s.counts, s.idle, s.waiters, rfl, fun _ hi => absurd hi List.not_mem_nil⟩
  trans _ _ _ := Tells.trans

lemma Tells.log (h : s.Tells P s') :
    ∃ items, s'.log = items ++ s.log ∧ ∀ item ∈ items, P item := by
  obtain ⟨items, counts, idle, waiters, rfl, hitems⟩ := h
  exact ⟨items, rfl, hitems⟩

lemma Tells.sameParts (h : s.Tells P s') : s.SameParts s' := by
  obtain ⟨items, counts, idle, waiters, rfl, -⟩ := h
  exact ⟨rfl, rfl, rfl, rfl, rfl, rfl⟩

lemma record_tells {item : LogItem} (h : P item) : s.Tells P (s.record item) :=
  ⟨[item], s.counts, s.idle, s.waiters, rfl, by simpa using h⟩

lemma recordCall_tells {index : Nat} {c : Call} (h : P (.call s.clock index c)) :
    s.Tells P (s.recordCall index c) :=
  ⟨[.call s.clock index c], _, s.idle, s.waiters, rfl, by simpa using h⟩

lemma updateIdle_tells (s : Session) : s.Tells P s.updateIdle := by
  obtain ⟨idle, waiters, hs⟩ := s.updateIdle_eq
  exact ⟨[], s.counts, idle, waiters, hs, fun _ hi => absurd hi List.not_mem_nil⟩

/-! ## What halts leave of the parts -/

/-- Once all parts are disarmed there is nothing to take back. -/
lemma hush_hush (s : Session) : s.hush.hush = s.hush := by
  have hnone : (s.registry.map fun e => { e with timer := none }).filterMap (·.timer) = [] := by
    simp [List.filterMap_map]
  simp only [hush, List.map_map, hnone]
  simp

lemma Tells.hush (h : s.Tells P s') : s.hush.Tells P s'.hush := by
  obtain ⟨items, counts, idle, waiters, rfl, hitems⟩ := h
  exact ⟨items, counts, idle, waiters, rfl, hitems⟩

lemma hush_tells_disarm (s : Session) : s.hush.Tells P s.disarm := by
  obtain ⟨idle, waiters, hs⟩ := s.disarm_eq
  exact ⟨[], s.counts, idle, waiters, hs, fun _ hi => absurd hi List.not_mem_nil⟩

/-- What is written has the property.  Either no halt was called back, and the parts are as they
were, or they are as if all of them had been disarmed first. -/
def Hushes (P : LogItem → Prop) (s s' : Session) : Prop :=
  s.Tells (fun item => P item ∧ ¬ item.IsHalt) s' ∨ s.hush.Tells P s'

/-- Whatever is called back once all parts are disarmed, they stay so. -/
lemma Hushes.of_hush (h : s'.Hushes P s'') (hs : s.hush.Tells P s') : s.hush.Tells P s'' := by
  rcases h with h | h
  · exact hs.trans (h.mono fun _ hP => hP.1)
  · have hhushed := hs.hush
    rw [hush_hush] at hhushed
    exact hhushed.trans h

instance hushes_isPreorder (P : LogItem → Prop) : IsPreorder Session (Session.Hushes P) where
  refl s := Or.inl (refl_of _ s)
  trans := by
    rintro a b c (hab | hab) hbc
    · rcases hbc with hbc | hbc
      · exact Or.inl (hab.trans hbc)
      · exact Or.inr ((hab.mono fun _ hP => hP.1).hush.trans hbc)
    · exact Or.inr (hbc.of_hush hab)

lemma recordCall_hushes {index : Nat} {c : Call} (h : P (.call s.clock index c)) :
    s.Hushes P (s.recordCall index c) :=
  Or.inl (recordCall_tells ⟨h, id⟩)

end Session

/-! ## Calls -/

section

variable {handle : Handler} {P : LogItem → Prop}

lemma warned_hushes (hP : ∀ item, item.IsSilent → P item) (w : Warning) :
    (Step.change (·.record (.warned w))).Leads (Hushes P) :=
  fun _ => Or.inl (record_tells ⟨hP _ id, id⟩)

variable (hstops : ∀ index (c : Call), c.IsStopping →
  (handle index c).Leads (Hushes LogItem.IsSilent))

include hstops

lemma stopEvent_hushes (index entry : Nat) (event : Event) (onProcess : Option String) :
    (stopEvent handle index entry event onProcess).Leads (Hushes LogItem.IsSilent) := by
  refine Step.Leads.given fun s => ?_
  rcases s.adapter with _ | adapter
  · exact Step.fail_leads _
  · have hdispatch : ∀ s : Session, s.Hushes LogItem.IsSilent
        (s.record (.dispatched s.clock index entry s.adapters false event)) := fun s =>
      Or.inl (record_tells ⟨Bool.false_ne_true, id⟩)
    refine Step.Leads.andThen hdispatch (Step.Leads.andThen ?_ ?_)
    · exact adapter.stop_leads (warned_hushes fun _ => id) (hstops index) event onProcess
    · exact tellTones_leads _ event fun tone => hstops index (.stopped event tone.place) trivial

/-- A halt disarms all parts first, so what is called back while it stops their events finds no
part that plays. -/
lemma hush_tells_halt (onProcess : Option String) (s : Session) :
    s.hush.Tells LogItem.IsSilent (halt handle onProcess s).1 := by
  have hstop : ∀ e, (stopEntry handle onProcess e).Leads (Hushes LogItem.IsSilent) := by
    intro e
    refine Step.Leads.given fun s => ?_
    split
    · exact stopEvent_hushes hstops _ _ _ onProcess
    · exact Step.skip_leads
  rw [halt_apply]
  exact (Step.Leads.forEach (fun e _ => hstop e) s.disarm).of_hush s.hush_tells_disarm

end

section

variable {env : Environment} (halting : env.OnlyHalts)

include halting

/-- A call leaves the parts as they are, or as a halt leaves them. -/
lemma handler_hushes (depth : Nat) {P : LogItem → Prop} (hP : ∀ item, item.IsSilent → P item)
    (index : Nat) (c : Call) (hc : ∀ time, P (.call time index c)) :
    (handler env depth index c).Leads (Hushes P) := by
  induction depth generalizing P index c with
  | zero => exact fun s => recordCall_hushes (hc s.clock)
  | succ depth ih =>
      have hstops : ∀ index (c : Call), c.IsStopping →
          (handler env depth index c).Leads (Hushes LogItem.IsSilent) := fun index c hstop =>
        ih (fun _ => id) index c fun _ => hstop.not_isStarting
      have hnested : ∀ (onProcess : Option String) (s : Session),
          s.Hushes P (performNested (handler env depth) s (.halt onProcess)) := by
        intro onProcess s
        have hhalt := hush_tells_halt hstops onProcess s
        refine Or.inr ((hhalt.mono hP).trans ?_)
        rw [performNested, perform, ← Step.answering_fst]
        exact record_tells (hP _ id)
      have hcommands : ∀ (commands : List Command),
          (∀ c ∈ commands, ∃ onProcess, c = .halt onProcess) → ∀ s : Session,
            s.Hushes P (commands.foldl (performNested (handler env depth)) s) := by
        intro commands
        induction commands with
        | nil => exact fun _ s => refl_of _ s
        | cons command rest hrest =>
            intro honly s
            obtain ⟨onProcess, rfl⟩ := honly command List.mem_cons_self
            exact trans_of _ (hnested onProcess s)
              (hrest (fun c hc => honly c (List.mem_cons_of_mem _ hc)) _)
      exact fun s => trans_of _ (recordCall_hushes (hc s.clock))
        (hcommands _ (halting c.name (s.countOf c.name)) _)

lemma handler_hushes_silent (depth index : Nat) (c : Call) (hc : ¬ c.IsStarting) :
    (handler env depth index c).Leads (Hushes LogItem.IsSilent) :=
  handler_hushes halting depth (fun _ => id) index c fun _ => hc

lemma handler_hushes_any (depth index : Nat) (c : Call) :
    (handler env depth index c).Leads (Hushes fun _ => True) :=
  handler_hushes halting depth (fun _ _ => trivial) index c fun _ => trivial

lemma handler_hushes_stop (depth index : Nat) (c : Call) (hc : c.IsStopping) :
    (handler env depth index c).Leads (Hushes LogItem.IsSilent) :=
  handler_hushes_silent halting depth index c hc.not_isStarting

/-! ## Playing -/

/-- To play a part is to take its next event and to start it, or else nothing is started. -/
lemma play_hushes (depth index : Nat) (routing onProcess : Option String) (s : Session) :
    (∃ e event rest, s.Takes index e event rest ∧
      ((s.arm e { e.part with queue := rest } event routing onProcess).record
        (.dispatched s.clock e.index e.serial s.adapters true event)).Hushes (fun _ => True)
          (play (handler env depth) index routing onProcess s).1) ∨
      (¬ ∃ e event rest, s.Takes index e event rest) ∧
        s.Hushes LogItem.IsSilent (play (handler env depth) index routing onProcess s).1 := by
  by_cases htakes : ∃ e event rest, s.Takes index e event rest
  · obtain ⟨e, event, rest, h⟩ := htakes
    refine Or.inl ⟨e, event, rest, h, ?_⟩
    obtain ⟨adapter, -, hplay⟩ := h.play_eq (handler env depth) routing onProcess
    rw [hplay, startEvent, Step.change_andThen]
    exact Step.Leads.andThen
      (adapter.start_leads (warned_hushes fun _ _ => trivial)
        (fun c _ => handler_hushes_any halting depth e.index c) event routing onProcess)
      (tellTones_leads _ event fun tone => handler_hushes_any halting depth e.index _) _
  · refine Or.inr ⟨htakes, ?_⟩
    rcases play_of_not_takes (handler env depth) routing onProcess htakes with
      hsame | ⟨e, -, -, hplay⟩
    · rw [hsame]
      exact refl_of _ s
    · have hmark : ∀ s : Session, s.Hushes LogItem.IsSilent
          (s.record (.finished s.clock e.index e.serial)) := fun s => Or.inl (record_tells ⟨id, id⟩)
      have htold : (tellEnded (handler env depth) e.index e.serial).Leads
          (Hushes LogItem.IsSilent) :=
        tellEnded_leads hmark (handler_hushes_silent halting depth e.index .ended id)
      rw [hplay]
      exact Step.Leads.andThen htold (fun s => Or.inl s.updateIdle_tells) s

/-- What is called back while the event of a timer is stopped leaves its part without a timer. -/
lemma ring_hushes_resumed (depth : Nat) (s : Session) (t : Timer) (e : PartEntry) :
    (s.ring t e).Hushes LogItem.IsSilent (s.resumed (handler env depth) t e) :=
  stopEvent_hushes (handler_hushes_stop halting depth) _ _ _ _ _

end

/-! ## Timers and parts -/

namespace Session.WellTimed

variable {s s' : Session}

lemma of_sameParts (h : s.WellTimed) (hsame : s.SameParts s') : s'.WellTimed := by
  refine ⟨h.toTimed.sameParts hsame, ?_⟩
  rw [hsame.discarded]
  exact h.discarded_idle

lemma hush (h : s.WellTimed) : s.hush.WellTimed := by
  obtain ⟨idle, waiters, hs⟩ := s.disarm_eq
  have hsame : s.disarm.SameParts s.hush := by
    rw [hs]
    exact ⟨rfl, rfl, rfl, rfl, rfl, rfl⟩
  exact ⟨h.toTimed.disarm.sameParts hsame, h.discarded_idle⟩

lemma rung (h : s.WellTimed) {t : Timer} {e : PartEntry} (ht : t ∈ s.timers) (he : e ∈ s.registry)
    (howns : e.Owns t) : (s.ring t e).WellTimed :=
  ⟨h.toTimed.ring ht he howns, h.discarded_idle⟩

lemma takes (h : s.WellTimed) {index : Nat} {e : PartEntry} {event : Event} {rest : List Event}
    (htakes : s.Takes index e event rest) (routing onProcess : Option String) :
    (s.arm e { e.part with queue := rest } event routing onProcess).WellTimed :=
  ⟨h.toTimed.arm (mem_of_entryAt? htakes.entry).1 htakes.source htakes.idle _ _ _ _,
    h.discarded_idle⟩

end Session.WellTimed

/-- Timers go with parts, and none of the parts plays. -/
structure Session.Still (s : Session) : Prop extends Session.WellTimed s where
  untimed : ∀ e ∈ s.registry, e.timer = none

namespace Session.Still

variable {P : LogItem → Prop} {s s' : Session}

lemma timers_eq (h : s.Still) : s.timers = [] := by
  refine List.eq_nil_iff_forall_not_mem.mpr fun t ht => ?_
  obtain ⟨e, he, howns⟩ := h.owned_installed ht
  have htimer := howns.timer
  rw [h.untimed e he] at htimer
  cases htimer

lemma of_hush (h : s.WellTimed) (hs : s.hush.Tells P s') : s'.Still := by
  refine ⟨h.hush.of_sameParts hs.sameParts, fun e he => ?_⟩
  rw [hs.sameParts.registry] at he
  obtain ⟨e', -, rfl⟩ := List.mem_map.mp he
  rfl

lemma hushes (h : s.Still) (hs : s.Hushes P s') : s'.Still := by
  rcases hs with hs | hs
  · refine ⟨h.toWellTimed.of_sameParts hs.sameParts, ?_⟩
    rw [hs.sameParts.registry]
    exact h.untimed
  · exact of_hush h.toWellTimed hs

lemma clear (h : s.Still) : s.clear.Still := by
  refine ⟨⟨h.toTimed.clear, fun e he => ?_⟩, fun e he => absurd he List.not_mem_nil⟩
  rcases List.mem_append.mp he with he | he
  · exact h.untimed e he
  · exact h.discarded_idle e he

lemma adopt (h : s.Still) (adapter : Adapter) : (s.adopt adapter).Still :=
  ⟨⟨h.toTimed.adopt adapter, h.discarded_idle⟩, h.untimed⟩

/-- A part that is installed does not play, and one that is put in its place never did. -/
lemma installPart (h : s.Still) (index : Nat) (events : List Event) :
    (s.installPart index events).Still := by
  refine ⟨⟨h.toTimed.installPart index events, ?_⟩, ?_⟩
  · cases hentry : s.entryAt? index with
    | none =>
        rw [installPart_of_none hentry]
        exact h.discarded_idle
    | some old =>
        rw [installPart_of_some hentry]
        exact List.forall_mem_cons.mpr
          ⟨h.untimed old (mem_of_entryAt? hentry).1, h.discarded_idle⟩
  · intro e he
    rcases eq_or_mem_of_installPart he with rfl | he
    · rfl
    · exact h.untimed e he

end Session.Still

end MusicMacro
