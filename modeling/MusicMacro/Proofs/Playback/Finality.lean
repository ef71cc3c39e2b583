import Mathlib.Data.List.Pairwise
import MusicMacro.Proofs.Playback.Hushing

/-!
# When a halt is final

Halts may be called back at any moment, while events are started or stopped or while a hook is
told of an end.  A halt takes back all timers, but it does not keep the step in which it was called
back from going on.  So after a halt has returned something is started still in three cases, and in
these only (`Session.GoesOn`):

* a timer has gone off, a halt is called back while its event is stopped, and its part has an event
  left, which is taken and started;
* parts are played one after another, and after one in which a halt is called back there is one
  that has an event left;
* a halt is called back by a call that belongs to a start and is not the last of its calls.

In all other cases nothing is started and no timer runs until a part is played by a caller
(`halt_final_iff_not_goesOn`).
-/

namespace MusicMacro

open Session

/-! ## Starts after halts -/

/-- Of items that were written one after another, the latest first, none that tells of a start comes
after one that tells of a halt. -/
def HaltsFinal (items : List LogItem) : Prop :=
  items.Pairwise fun later earlier => earlier.IsHalt → later.IsSilent

instance (items : List LogItem) : Decidable (HaltsFinal items) :=
  inferInstanceAs (Decidable (items.Pairwise _))

lemma HaltsFinal.of_silent {items : List LogItem} (h : ∀ item ∈ items, item.IsSilent) :
    HaltsFinal items :=
  List.pairwise_of_forall_mem_list fun _ hlater _ _ _ => h _ hlater

lemma haltsFinal_append {later earlier : List LogItem} :
    HaltsFinal (later ++ earlier) ↔ HaltsFinal later ∧ HaltsFinal earlier ∧
      ((∃ item ∈ earlier, item.IsHalt) → ∀ item ∈ later, item.IsSilent) := by
  rw [HaltsFinal, List.pairwise_append]
  refine and_congr_right fun _ => and_congr_right fun _ => ?_
  exact ⟨fun h ⟨b, hb, hhalt⟩ a ha => h a ha b hb hhalt,
    fun h a ha b hb hhalt => h ⟨b, hb, hhalt⟩ a ha⟩

/-- The log has grown by items that do not tell of a start. -/
def Session.StaysSilent (s s' : Session) : Prop :=
  ∃ items, s'.log = items ++ s.log ∧ ∀ item ∈ items, item.IsSilent

/-- If no part plays, none does afterwards; and nothing is started in any case. -/
def Session.StaysStill (s s' : Session) : Prop := (s.Still → s'.Still) ∧ s.StaysSilent s'

/-- Where timers go with parts they go on doing so.  A timer is set only with a start: where none
runs and nothing is started none runs afterwards, nor where a halt was called back and nothing is
started after it. -/
def Session.Settles (s s' : Session) : Prop :=
  s.WellTimed → s'.WellTimed ∧ ∃ items, s'.log = items ++ s.log ∧
    (s.timers = [] → (∀ item ∈ items, item.IsSilent) → s'.timers = []) ∧
    ((∃ item ∈ items, item.IsHalt) → HaltsFinal items → s'.timers = [])

namespace Session

variable {P : LogItem → Prop} {s u s' : Session}

instance staysSilent_isPreorder : IsPreorder Session Session.StaysSilent where
  refl s := ⟨[], rfl, fun _ hi => absurd hi List.not_mem_nil⟩
  trans := by
    rintro a b c ⟨first, hb, hfirst⟩ ⟨later, hc, hlater⟩
    refine ⟨later ++ first, by rw [hc, hb, List.append_assoc], ?_⟩
    simpa [or_imp, forall_and] using ⟨hlater, hfirst⟩

instance staysStill_isPreorder : IsPreorder Session Session.StaysStill where
  refl s := ⟨id, refl_of StaysSilent s⟩
  trans _ _ _ hab hbc := ⟨fun h => hbc.1 (hab.1 h), trans_of StaysSilent hab.2 hbc.2⟩

instance settles_isPreorder : IsPreorder Session Session.Settles where
  refl s h := by
    refine ⟨h, [], rfl, fun hnil _ => hnil, ?_⟩
    rintro ⟨item, hitem, -⟩
    cases hitem
  trans := by
    intro a b c hab hbc ha
    obtain ⟨hb, first, hblog, hbnil, hbhalt⟩ := hab ha
    obtain ⟨hc, later, hclog, hcnil, hchalt⟩ := hbc hb
    refine ⟨hc, later ++ first, by rw [hclog, hblog, List.append_assoc], ?_, ?_⟩
    · intro hnil hsilent
      have hmid := hbnil hnil fun item hi => hsilent item (List.mem_append_right _ hi)
      exact hcnil hmid fun item hi => hsilent item (List.mem_append_left _ hi)
    · rintro ⟨item, hitem, hhalt⟩ hfinal
      obtain ⟨hlater, hfirst, hsilent⟩ := haltsFinal_append.mp hfinal
      rcases List.mem_append.mp hitem with hi | hi
      · exact hchalt ⟨item, hi, hhalt⟩ hlater
      · exact hcnil (hbhalt ⟨item, hi, hhalt⟩ hfirst) (hsilent ⟨item, hi, hhalt⟩)

lemma Hushes.settles (h : s.Hushes P s') : s.Settles s' := by
  intro hs
  rcases h with htells | htells
  · obtain ⟨items, hlog, hitems⟩ := htells.log
    refine ⟨hs.of_sameParts htells.sameParts, items, hlog, fun hnil _ => ?_, ?_⟩
    · rw [htells.sameParts.timers, hnil]
    · rintro ⟨item, hi, hhalt⟩
      exact absurd hhalt (hitems item hi).2
  · obtain ⟨items, hlog, -⟩ := htells.log
    have hstill := Still.of_hush hs htells
    exact ⟨hstill.toWellTimed, items, hlog, fun _ _ => hstill.timers_eq,
      fun _ _ => hstill.timers_eq⟩

lemma Hushes.staysSilent (h : s.Hushes LogItem.IsSilent s') : s.StaysSilent s' := by
  rcases h with h | h
  · exact (h.mono fun _ hP => hP.1).log
  · exact h.log

lemma Hushes.staysStill (h : s.Hushes LogItem.IsSilent s') : s.StaysStill s' :=
  ⟨fun hs => hs.hushes h, h.staysSilent⟩

/-! ## What is written since -/

lemma StaysSilent.grows (h : s.StaysSilent s') : s.log <:+ s'.log := by
  obtain ⟨items, hlog, -⟩ := h
  exact ⟨items, hlog.symm⟩

lemma StaysSilent.since (h : s.StaysSilent s') : ∀ item ∈ s.since s', item.IsSilent := by
  obtain ⟨items, hlog, hitems⟩ := h
  rw [since_eq hlog]
  exact hitems

/-- What does not tell of a start is of no account for those halts that come before it. -/
lemma StaysSilent.haltsFinal_iff (hgrows : s.log <:+ u.log) (h : u.StaysSilent s') :
    HaltsFinal (s.since s') ↔ HaltsFinal (s.since u) := by
  rw [since_trans hgrows h.grows, haltsFinal_append]
  exact ⟨fun hall => hall.2.1, fun hu => ⟨.of_silent h.since, hu, fun _ => h.since⟩⟩

end Session

/-! ## What each operation leaves -/

section

variable {env : Environment} (halting : env.OnlyHalts) (depth : Nat)

include halting

lemma play_settles (index : Nat) (routing onProcess : Option String) :
    (play (handler env depth) index routing onProcess).Leads Settles := by
  intro s
  rcases play_hushes halting depth index routing onProcess s with
    ⟨e, event, rest, htakes, h⟩ | ⟨-, h⟩
  · refine trans_of Settles (fun hs => ⟨?_, [_], rfl, ?_, ?_⟩) h.settles
    · exact (hs.takes htakes routing onProcess).of_sameParts ⟨rfl, rfl, rfl, rfl, rfl, rfl⟩
    · exact fun _ hsilent => absurd rfl (hsilent _ List.mem_cons_self)
    · rintro ⟨item, hi, hhalt⟩
      rw [List.mem_singleton.mp hi] at hhalt
      exact hhalt.elim
  · exact h.settles

lemma playAll_settles (routing onProcess : Option String) :
    (playAll (handler env depth) routing onProcess).Leads Settles :=
  Step.Leads.given fun _ => Step.Leads.forEach fun index _ =>
    play_settles halting depth index routing onProcess

lemma fire_settles {s : Session} {t : Timer} (ht : t ∈ s.timers) :
    s.Settles (fire (handler env depth) t s) := by
  intro hs
  obtain ⟨e, he, howns⟩ := hs.owned_installed ht
  have hring : s.Settles (s.ring t e) := by
    refine fun hs => ⟨hs.rung ht he howns, [.fired t.due], rfl, fun hnil => ?_, ?_⟩
    · rw [hnil] at ht
      cases ht
    · rintro ⟨item, hi, hhalt⟩
      rw [List.mem_singleton.mp hi] at hhalt
      exact hhalt.elim
  have hresumed := (ring_hushes_resumed halting depth s t e).settles
  have hplayed := play_settles halting depth t.index t.routing t.onProcess
    (s.resumed (handler env depth) t e)
  obtain ⟨error, hfire⟩ := fire_eq_resumed hs.toTimed he howns (handler env depth)
  rw [hfire]
  refine trans_of Settles (trans_of Settles hring (trans_of Settles hresumed hplayed)) ?_ hs
  rcases error with _ | error
  · exact refl_of Settles _
  · exact Hushes.settles (P := fun _ => True) (Or.inl (record_tells ⟨trivial, id⟩))

/-- After a halt no part plays, wherever it fails. -/
lemma halt_still (onProcess : Option String) {s : Session} (hs : s.WellTimed) :
    (halt (handler env depth) onProcess s).1.Still :=
  Still.of_hush hs (hush_tells_halt (handler_hushes_stop halting depth) onProcess s)

lemma halt_staysStill (onProcess : Option String) :
    (halt (handler env depth) onProcess).Leads StaysStill := fun s =>
  ⟨fun hs => halt_still halting depth onProcess hs.toWellTimed,
    (hush_tells_halt (handler_hushes_stop halting depth) onProcess s).log⟩

/-- What follows the halt when a batch is prepared makes no part play. -/
lemma afterHalt_staysStill (source : SoundSource) (shape : Option SourceShape)
    (texts : List String) :
    (match source.adapter shape with
      | .error e => Step.fail (.source e)
      | .ok adapter => (Step.change (·.adopt adapter)).andThen
          (installTexts (handler env depth) texts)).Leads StaysStill := by
  have hsame : ∀ s : Session, s.StaysSilent s := refl_of StaysSilent
  have hinstall (s : Session) (index : Nat) (events : List Event) :
      s.StaysStill (s.installPart index events) := by
    refine ⟨fun hs => hs.installPart index events, [], ?_, fun _ hi => absurd hi List.not_mem_nil⟩
    obtain ⟨registry, discarded, hs⟩ := s.installPart_eq index events
    rw [hs]
    rfl
  have hreports (o : PartOutcome) :
      (reportOutcome (handler env depth) o).Leads StaysStill :=
    reportOutcome_leads (fun w s => (warned_hushes (fun _ => id) w s).staysStill) fun e s =>
      (handler_hushes_silent halting depth o.index (.refused e) id s).staysStill
  rcases source.adapter shape with e | adapter
  · exact Step.fail_leads _
  · exact Step.Leads.andThen (fun s => ⟨fun hs => hs.adopt adapter, hsame s⟩)
      (installTexts_leads hreports hinstall texts)

lemma prepare_staysSilent (source : SoundSource) (shape : Option SourceShape)
    (texts : List String) (s : Session) :
    s.StaysSilent (prepare (handler env depth) source shape texts s).1 := by
  have hclear : (Step.change Session.clear).Leads StaysStill := fun s =>
    ⟨fun hs => hs.clear, refl_of StaysSilent s⟩
  exact (Step.Leads.andThen (Step.Leads.andThen (halt_staysStill halting depth none) hclear)
    (afterHalt_staysStill halting depth source shape texts) s).2

/-- After a batch was prepared no part plays, wherever that fails. -/
lemma prepare_still (source : SoundSource) (shape : Option SourceShape) (texts : List String)
    {s : Session} (hs : s.WellTimed) :
    (prepare (handler env depth) source shape texts s).1.Still := by
  have hhalted := halt_still halting depth none hs
  rcases herror : (halt (handler env depth) none s).2 with _ | e
  · have hclear : ((halt (handler env depth) none).andThen (.change Session.clear)) s =
        ((halt (handler env depth) none s).1.clear, none) := Step.andThen_of_none herror
    rw [prepare, Step.andThen_of_none (by rw [hclear]), hclear]
    exact (afterHalt_staysStill halting depth source shape texts _).1 hhalted.clear
  · have hstop : ((halt (handler env depth) none).andThen (.change Session.clear)) s =
        halt (handler env depth) none s := Step.andThen_of_some herror
    rw [prepare, Step.andThen_of_some (by rw [hstop, herror]), hstop]
    exact hhalted

end

/-! ## What each move leaves -/

/-- A caller plays one part or all of them. -/
def Move.Plays : Move → Prop
  | .play _ _ _ | .playAll _ _ => True
  | _ => False

/-- A timer fires. -/
def Move.Fires : Move → Prop
  | .fire _ => True
  | _ => False

lemma Session.SameDoings.staysSilent {s s' : Session} (h : s.SameDoings s') : s.StaysSilent s' :=
  ⟨[], h.log, fun _ hi => absurd hi List.not_mem_nil⟩

lemma Session.SameDoings.settles {s s' : Session} (h : s.SameDoings s') : s.Settles s' := by
  intro hs
  refine ⟨hs.of_sameParts h.toSameParts, [], h.log, fun hnil _ => h.timers.trans hnil, ?_⟩
  rintro ⟨item, hi, -⟩
  cases hi

/-- After a halt, or where no part plays, all is settled. -/
lemma Session.Still.settles {s s' : Session} (h : s.WellTimed → s'.Still)
    (hgrows : s.log <:+ s'.log) : s.Settles s' := by
  intro hs
  obtain ⟨items, hlog⟩ := hgrows
  exact ⟨(h hs).toWellTimed, items, hlog.symm, fun _ _ => (h hs).timers_eq,
    fun _ _ => (h hs).timers_eq⟩

section

variable {env : Environment} (halting : env.OnlyHalts) (depth : Nat)

include halting

lemma move_settles (m : Move) (s : Session) : s.Settles (s.move env depth m) := by
  have hminor (s' : Session) (hooks : Hooks) (waiters : List Waiter) (clock : Double) :
      s'.Settles { s' with hooks := hooks, waiters := waiters, clock := clock } :=
    SameDoings.settles ⟨⟨rfl, rfl, rfl, rfl, rfl, rfl⟩, rfl, rfl⟩
  refine move_elim env (refl_of Settles s)
    (fun s' hooks waiters clock hs => trans_of Settles hs (hminor s' hooks waiters clock))
    ?prepares ?plays ?playsAll ?halts ?fires
  case prepares =>
    intro source texts shape forced _ _
    exact Still.settles (fun h => prepare_still halting depth source forced texts h)
      (prepare_staysSilent halting depth source forced texts s).grows
  case plays =>
    exact fun _ routing onProcess index _ => play_settles halting depth index routing onProcess s
  case playsAll => exact fun routing onProcess _ => playAll_settles halting depth routing onProcess s
  case halts =>
    exact fun onProcess _ => Still.settles (fun h => halt_still halting depth onProcess h)
      (halt_staysStill halting depth onProcess s).2.grows
  case fires => exact fun t ht _ => fire_settles halting depth ht

/-- Only a caller who plays and a timer that fires start anything. -/
lemma move_staysSilent {m : Move} (hplays : ¬ m.Plays) (hfires : ¬ m.Fires) (s : Session) :
    s.StaysSilent (s.move env depth m) := by
  have hminor (s' : Session) (hooks : Hooks) (waiters : List Waiter) (clock : Double) :
      s'.StaysSilent { s' with hooks := hooks, waiters := waiters, clock := clock } :=
    SameDoings.staysSilent ⟨⟨rfl, rfl, rfl, rfl, rfl, rfl⟩, rfl, rfl⟩
  refine move_elim env (refl_of StaysSilent s)
    (fun s' hooks waiters clock hs => trans_of StaysSilent hs (hminor s' hooks waiters clock))
    ?prepares ?plays ?playsAll ?halts ?fires
  case prepares =>
    exact fun source texts _ forced _ _ => prepare_staysSilent halting depth source forced texts s
  case plays =>
    rintro part routing onProcess - rfl
    exact absurd trivial hplays
  case playsAll =>
    rintro routing onProcess rfl
    exact absurd trivial hplays
  case halts => exact fun onProcess _ => (halt_staysStill halting depth onProcess s).2
  case fires =>
    rintro t - rfl
    exact absurd trivial hfires

/-- Where no timer runs, none is set and nothing is started until a caller plays. -/
lemma after_staysSilent {moves : List Move} (hmoves : ∀ m ∈ moves, ¬ m.Plays) {s : Session}
    (hs : s.WellTimed) (hnil : s.timers = []) :
    (s.after env depth moves).timers = [] ∧ s.StaysSilent (s.after env depth moves) := by
  induction moves generalizing s with
  | nil => exact ⟨hnil, refl_of StaysSilent s⟩
  | cons m rest ih =>
      have hsilent : s.StaysSilent (s.move env depth m) := by
        by_cases hfires : m.Fires
        · obtain ⟨serial, rfl⟩ : ∃ serial, m = .fire serial := by
            cases m <;> first | exact hfires.elim | exact ⟨_, rfl⟩
          have hnone : s.timerOf? serial = none := by rw [timerOf?, hnil]; rfl
          rw [move, hnone]
          exact refl_of StaysSilent s
        · exact move_staysSilent halting depth (hmoves m List.mem_cons_self) hfires s
      obtain ⟨hs', items, hlog, hkept, -⟩ := move_settles halting depth m s hs
      have hitems : ∀ item ∈ items, item.IsSilent := by
        rw [← since_eq hlog]
        exact hsilent.since
      obtain ⟨htimers, hrest⟩ :=
        ih (fun m' hm' => hmoves m' (List.mem_cons_of_mem m hm')) hs' (hkept hnil hitems)
      exact ⟨htimers, trans_of StaysSilent hsilent hrest⟩

/-- Timers go with parts after every run. -/
lemma after_wellTimed_of_onlyHalts (hooks : Hooks) (policy : ErrorPolicy) (moves : List Move) :
    ((Session.initial hooks policy).after env depth moves).WellTimed := by
  refine after_keeps (fun m _ s h => (move_settles halting depth m s h).1) ?_
  exact ⟨after_timed env depth hooks policy [], fun e he => absurd he List.not_mem_nil⟩

end

/-! ## Where a step goes on -/

/-- In the course of a move the part of an index is played, in this session. -/
inductive Session.PlaysIn (handle : Handler) (s : Session) :
    Move → Nat → Option String → Option String → Session → Prop
  | played {name : PartName} {entry : PartEntry} (routing onProcess : Option String) :
    s.entryNamed? name = some entry →
      s.PlaysIn handle (.play name routing onProcess) entry.index routing onProcess s
  | playedAll {before after : List Nat} {index : Nat} (routing onProcess : Option String) :
    (s.registry.map (·.index)).mergeSort (· ≤ ·) = before ++ index :: after →
      (Step.forEach (fun i => play handle i routing onProcess) before s).2 = none →
        s.PlaysIn handle (.playAll routing onProcess) index routing onProcess
          (Step.forEach (fun i => play handle i routing onProcess) before s).1
  | fired {serial : Nat} {t : Timer} {e : PartEntry} :
    s.timerOf? serial = some t → e ∈ s.registry → e.Owns t →
      s.PlaysIn handle (.fire serial) t.index t.routing t.onProcess (s.resumed handle t e)

/-- The part that is played has an event left, although a halt was called back before, or a halt is
called back and the start of the event goes on. -/
def Session.GoesOnAt (handle : Handler) (s u : Session) (index : Nat)
    (routing onProcess : Option String) : Prop :=
  (∃ e event rest, u.Takes index e event rest) ∧
    ((∃ item ∈ s.since u, item.IsHalt) ∨
      ¬ HaltsFinal (u.since (play handle index routing onProcess u).1))

/-- In the course of the move something is started after a halt was called back. -/
def Session.GoesOn (handle : Handler) (s : Session) (m : Move) : Prop :=
  ∃ index routing onProcess u, s.PlaysIn handle m index routing onProcess u ∧
    s.GoesOnAt handle u index routing onProcess

section

variable {env : Environment} (halting : env.OnlyHalts) (depth : Nat) {s : Session}

lemma play_grows (env : Environment) (depth index : Nat) (routing onProcess : Option String)
    (s : Session) : s.log <:+ (play (handler env depth) index routing onProcess s).1.log :=
  play_leads grows_guarantee.toPlayGuarantee (handler_leads grows_guarantee env depth) index
    routing onProcess s

include halting

/-- The halts before and while a part is played are final unless it goes on. -/
lemma play_haltsFinal_iff {u : Session} (hgrows : s.log <:+ u.log) (index : Nat)
    (routing onProcess : Option String) :
    HaltsFinal (s.since (play (handler env depth) index routing onProcess u).1) ↔
      HaltsFinal (s.since u) ∧ ¬ s.GoesOnAt (handler env depth) u index routing onProcess := by
  rcases play_hushes halting depth index routing onProcess u with
    ⟨e, event, rest, htakes, -⟩ | ⟨hnot, hhushes⟩
  · obtain ⟨later, hlog⟩ := htakes.play_log (handler_leads grows_guarantee env depth) routing
      onProcess
    have hsince : u.since (play (handler env depth) index routing onProcess u).1 =
        later ++ [.dispatched u.clock e.index e.serial u.adapters true event] :=
      since_eq (by rw [hlog, List.append_assoc]; rfl)
    rw [since_trans hgrows (play_grows env depth index routing onProcess u), haltsFinal_append]
    constructor
    · rintro ⟨hplayed, hbefore, hsilent⟩
      refine ⟨hbefore, ?_⟩
      rintro ⟨-, hhalt | hnot⟩
      · have hstart :
            LogItem.IsSilent (.dispatched u.clock e.index e.serial u.adapters true event) :=
          hsilent hhalt _ (by rw [hsince]; exact List.mem_append_right _ List.mem_cons_self)
        exact hstart rfl
      · exact hnot hplayed
    · rintro ⟨hbefore, hnot⟩
      refine ⟨?_, hbefore, fun hhalt => ?_⟩
      · by_contra hplayed
        exact hnot ⟨⟨e, event, rest, htakes⟩, Or.inr hplayed⟩
      · exact absurd ⟨⟨e, event, rest, htakes⟩, Or.inl hhalt⟩ hnot
  · rw [hhushes.staysSilent.haltsFinal_iff hgrows]
    exact ⟨fun hbefore => ⟨hbefore, fun hgoes => hnot hgoes.1⟩, fun h => h.1⟩

/-- Where parts are played one after another, the halts are final unless one of the parts goes
on. -/
lemma playEach_haltsFinal_iff (routing onProcess : Option String) (l : List Nat) {u : Session}
    (hgrows : s.log <:+ u.log) :
    HaltsFinal (s.since
        (Step.forEach (fun i => play (handler env depth) i routing onProcess) l u).1) ↔
      HaltsFinal (s.since u) ∧ ∀ before index after, l = before ++ index :: after →
        (Step.forEach (fun i => play (handler env depth) i routing onProcess) before u).2 = none →
          ¬ s.GoesOnAt (handler env depth)
            (Step.forEach (fun i => play (handler env depth) i routing onProcess) before u).1 index
            routing onProcess := by
  induction l generalizing u with
  | nil => exact ⟨fun h => ⟨h, by simp⟩, fun h => h.1⟩
  | cons i l ih =>
      have hfirst := play_haltsFinal_iff halting depth hgrows i routing onProcess
      rcases herror : (play (handler env depth) i routing onProcess u).2 with _ | e
      · have hcons : ∀ l', Step.forEach (fun i => play (handler env depth) i routing onProcess)
            (i :: l') u = Step.forEach (fun i => play (handler env depth) i routing onProcess) l'
              (play (handler env depth) i routing onProcess u).1 := fun l' => by
          rw [Step.forEach, Step.andThen_of_none herror]
        rw [hcons, ih (hgrows.trans (play_grows env depth i routing onProcess u)), hfirst,
          and_assoc]
        refine and_congr_right fun _ => ⟨?_, fun h => ⟨?_, ?_⟩⟩
        · rintro ⟨hnow, hlater⟩ before index after hsplit hnone
          rcases before with _ | ⟨j, before⟩
          · obtain ⟨rfl, rfl⟩ := List.cons.inj hsplit
            exact hnow
          · obtain ⟨rfl, hrest⟩ := List.cons.inj hsplit
            rw [hcons] at hnone ⊢
            exact hlater before index after hrest hnone
        · exact h [] i l rfl rfl
        · intro before index after hsplit hnone
          have hthere := h (i :: before) index after (by rw [hsplit, List.cons_append])
          rw [hcons] at hthere
          exact hthere hnone
      · have hcons : ∀ l', Step.forEach (fun i => play (handler env depth) i routing onProcess)
            (i :: l') u = play (handler env depth) i routing onProcess u := fun l' => by
          rw [Step.forEach, Step.andThen_of_some herror]
        rw [hcons, hfirst]
        refine and_congr_right fun _ => ⟨?_, fun h => h [] i l rfl rfl⟩
        rintro hnow before index after hsplit hnone
        rcases before with _ | ⟨j, before⟩
        · obtain ⟨rfl, rfl⟩ := List.cons.inj hsplit
          exact hnow
        · obtain ⟨rfl, -⟩ := List.cons.inj hsplit
          rw [hcons, herror] at hnone
          cases hnone

/-- What a part whose timer fires has written when it goes on does not tell of a start. -/
lemma resumed_staysSilent (t : Timer) (e : PartEntry) :
    s.StaysSilent (s.resumed (handler env depth) t e) := by
  have hring : s.StaysSilent (s.ring t e) :=
    ⟨[.fired t.due], rfl, fun item hi => by rw [List.mem_singleton.mp hi]; exact id⟩
  exact trans_of StaysSilent hring (ring_hushes_resumed halting depth s t e).staysSilent

lemma fire_haltsFinal_iff (hs : s.WellTimed) {t : Timer} {e : PartEntry} (he : e ∈ s.registry)
    (howns : e.Owns t) :
    HaltsFinal (s.since (fire (handler env depth) t s)) ↔
      ¬ s.GoesOnAt (handler env depth) (s.resumed (handler env depth) t e) t.index t.routing
        t.onProcess := by
  have hresumed := resumed_staysSilent halting depth (s := s) t e
  obtain ⟨error, hfire⟩ := fire_eq_resumed hs.toTimed he howns (handler env depth)
  set u := s.resumed (handler env depth) t e
  set played := (play (handler env depth) t.index t.routing t.onProcess u).1
  have hescape : played.StaysSilent (played.escape error) := by
    rcases error with _ | error
    · exact refl_of StaysSilent played
    · exact ⟨[.escaped error], rfl, fun item hi => by rw [List.mem_singleton.mp hi]; exact id⟩
  have hgrows := hresumed.grows.trans
    (play_grows env depth t.index t.routing t.onProcess u)
  rw [hfire, hescape.haltsFinal_iff hgrows, play_haltsFinal_iff halting depth hresumed.grows]
  exact ⟨fun h => h.2, fun h => ⟨.of_silent hresumed.since, h⟩⟩

omit halting in
/-- Where nothing is done no halt is called back. -/
lemma haltsFinal_self (s : Session) : HaltsFinal (s.since s) := by
  rw [@since_eq s s [] rfl]
  exact List.Pairwise.nil

omit halting in
lemma settleWaiters_haltsFinal_iff {u : Session} (hgrows : s.log <:+ u.log) :
    HaltsFinal (s.since u.settleWaiters) ↔ HaltsFinal (s.since u) :=
  (sameDoings_settleWaiters u).staysSilent.haltsFinal_iff hgrows

/-- A caller plays a part. -/
lemma move_play_haltsFinal_iff (part : PartName) (routing onProcess : Option String) :
    HaltsFinal (s.since (s.move env depth (.play part routing onProcess))) ↔
      ¬ s.GoesOn (handler env depth) (.play part routing onProcess) := by
  rcases move_play env s part routing onProcess with ⟨hnone, hmove⟩ | ⟨e, hsome, hmove⟩
  · rw [hmove, settleWaiters_haltsFinal_iff List.suffix_rfl]
    refine iff_of_true (haltsFinal_self s) ?_
    rintro ⟨index, routing, onProcess, u, hplays, -⟩
    cases hplays with
    | played _ _ hsome => rw [hnone] at hsome; cases hsome
  · rw [hmove, settleWaiters_haltsFinal_iff (play_grows env depth e.index routing onProcess s),
      play_haltsFinal_iff halting depth List.suffix_rfl]
    constructor
    · rintro ⟨-, hnot⟩ ⟨index, routing, onProcess, u, hplays, hgoes⟩
      cases hplays with
      | played _ _ hsome' =>
          rw [hsome] at hsome'
          cases hsome'
          exact hnot hgoes
    · exact fun hnot => ⟨haltsFinal_self s, fun hgoes => hnot
        ⟨_, _, _, _, .played routing onProcess hsome, hgoes⟩⟩

/-- A caller plays all parts. -/
lemma move_playAll_haltsFinal_iff (routing onProcess : Option String) :
    HaltsFinal (s.since (s.move env depth (.playAll routing onProcess))) ↔
      ¬ s.GoesOn (handler env depth) (.playAll routing onProcess) := by
  have hgrows : s.log <:+ (playAll (handler env depth) routing onProcess s).1.log :=
    playAll_leads grows_guarantee.toPlayGuarantee (handler_leads grows_guarantee env depth)
      routing onProcess s
  rw [move_playAll, settleWaiters_haltsFinal_iff hgrows, playAll, Step.given_apply,
    playEach_haltsFinal_iff halting depth routing onProcess _ List.suffix_rfl]
  constructor
  · rintro ⟨-, hnot⟩ ⟨index, routing, onProcess, u, hplays, hgoes⟩
    cases hplays with
    | playedAll _ _ hsplit hnone => exact hnot _ _ _ hsplit hnone hgoes
  · exact fun hnot => ⟨haltsFinal_self s, fun before index after hsplit hnone hgoes => hnot
      ⟨_, _, _, _, .playedAll routing onProcess hsplit hnone, hgoes⟩⟩

/-- A timer fires. -/
lemma move_fire_haltsFinal_iff (hs : s.WellTimed) (serial : Nat) :
    HaltsFinal (s.since (s.move env depth (.fire serial))) ↔
      ¬ s.GoesOn (handler env depth) (.fire serial) := by
  rcases ht : s.timerOf? serial with _ | t
  · have hmove : s.move env depth (.fire serial) = s := by rw [move, ht]; rfl
    rw [hmove]
    refine iff_of_true (haltsFinal_self s) ?_
    rintro ⟨index, routing, onProcess, u, hplays, -⟩
    cases hplays with
    | fired hsome => rw [ht] at hsome; cases hsome
  · have hmove : s.move env depth (.fire serial) = fire (handler env depth) t s := by
      rw [move, ht]
      rfl
    obtain ⟨e, he, howns⟩ := hs.owned_installed (mem_of_timerOf? ht).1
    rw [hmove, fire_haltsFinal_iff halting depth hs he howns, not_iff_not]
    constructor
    · exact fun hgoes => ⟨_, _, _, _, .fired ht he howns, hgoes⟩
    · rintro ⟨index, routing, onProcess, u, hplays, hgoes⟩
      cases hplays with
      | @fired _ t' e' hsome he' howns' =>
          rw [ht] at hsome
          cases hsome
          rw [hs.eq_of_serial (List.mem_append_left _ he) (List.mem_append_left _ he')
            (howns.serial.symm.trans howns'.serial)]
          exact hgoes

/-- In a move every halt that is called back is final unless the move goes on. -/
lemma move_haltsFinal_iff (hs : s.WellTimed) (m : Move) :
    HaltsFinal (s.since (s.move env depth m)) ↔ ¬ s.GoesOn (handler env depth) m := by
  by_cases hsilent : ¬ m.Plays ∧ ¬ m.Fires
  · have hfinal : HaltsFinal (s.since (s.move env depth m)) :=
      .of_silent (move_staysSilent halting depth hsilent.1 hsilent.2 s).since
    refine iff_of_true hfinal ?_
    rintro ⟨index, routing, onProcess, u, hplays, -⟩
    cases hplays with
    | played => exact hsilent.1 trivial
    | playedAll => exact hsilent.1 trivial
    | fired => exact hsilent.2 trivial
  · cases m with
    | play part routing onProcess => exact move_play_haltsFinal_iff halting depth part _ _
    | playAll routing onProcess => exact move_playAll_haltsFinal_iff halting depth _ _
    | fire serial => exact move_fire_haltsFinal_iff halting depth hs serial
    | _ => exact absurd ⟨id, id⟩ hsilent

end

/-- **Halts.**  Take any run in which halts may be called back from calls, at any depth, and one
more move.  In that move nothing is started after a halt has returned exactly if the move does not
go on.  If it does not, and the caller halts in it or a halt is called back, then no timer runs
afterwards, and until a caller plays none is set and nothing is started. -/
theorem halt_final_iff_not_goesOn (env : Environment) (depth : Nat) (halting : env.OnlyHalts)
    (hooks : Hooks) (policy : ErrorPolicy) (moves : List Move) (m : Move) :
    let s := (Session.initial hooks policy).after env depth moves
    let s' := s.move env depth m
    (HaltsFinal (s.since s') ↔ ¬ s.GoesOn (handler env depth) m) ∧
    ((∃ onProcess, m = .halt onProcess) ∨ (∃ item ∈ s.since s', item.IsHalt) →
      ¬ s.GoesOn (handler env depth) m →
        s'.timers = [] ∧ ∀ later : List Move, (∀ m' ∈ later, ¬ m'.Plays) →
          let s'' := s'.after env depth later
          s''.timers = [] ∧ ∀ item ∈ s'.since s'', item.IsSilent) := by
  intro s s'
  have hs : s.WellTimed := after_wellTimed_of_onlyHalts halting depth hooks policy moves
  have hfinal := move_haltsFinal_iff halting depth hs m
  obtain ⟨hs', items, hlog, -, hhalted⟩ := move_settles halting depth m s hs
  refine ⟨hfinal, fun hhalt hnot => ?_⟩
  have hnil : s'.timers = [] := by
    rcases hhalt with ⟨onProcess, rfl⟩ | hhalt
    · have hmove : s' = (halt (handler env depth) onProcess s).1.settleWaiters :=
        move_halt env s onProcess
      rw [hmove]
      exact (halt_still halting depth onProcess hs).timers_eq
    · rw [← since_eq hlog] at hhalted
      exact hhalted hhalt (hfinal.mpr hnot)
  refine ⟨hnil, fun later hlater => ?_⟩
  obtain ⟨htimers, hsilent⟩ := after_staysSilent halting depth hlater hs' hnil
  exact ⟨htimers, hsilent.since⟩

/-- The caller's hook halts while it is told that the first event of a part is stopped.  The part
takes its second event all the same, which is started, and a timer runs for it. -/
theorem part_goes_on_after_halt :
    let env := Environment.giving .stopped [.halt none]
    env.OnlyHalts ∧
      let s := (Session.initial .all .abort).after env 1
        [.prepare (.generators 1 "list") ["T60 O4 C4 D4"] none, .play (.ofIndex 0) none none]
      let s' := s.move env 1 (.fire 1)
      (¬ HaltsFinal (s.since s') ∧ s'.timers.map (·.entry) = [0]) ∧
      (HaltsFinal (s.since s') ↔ ¬ s.GoesOn (handler env 1) (.fire 1)) ∧
      ((∃ onProcess, Move.fire 1 = .halt onProcess) ∨ (∃ item ∈ s.since s', item.IsHalt) →
        ¬ s.GoesOn (handler env 1) (.fire 1) →
          s'.timers = [] ∧ ∀ later : List Move, (∀ m' ∈ later, ¬ m'.Plays) →
            let s'' := s'.after env 1 later
            s''.timers = [] ∧ ∀ item ∈ s'.since s'', item.IsSilent) :=
  ⟨Environment.giving_onlyHalts _ none, by decide +kernel,
    halt_final_iff_not_goesOn _ 1 (Environment.giving_onlyHalts _ none) _ _ _ _⟩

end MusicMacro
