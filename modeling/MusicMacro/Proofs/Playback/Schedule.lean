import MusicMacro.Proofs.Notation.Timeline
import MusicMacro.Proofs.Playback.Cues

/-!
# Events keep their compiled times

A part that is played and not halted starts and stops its events at times that depend on nothing
but the reading of the clock at first and the durations of its events: each event starts where the
one before it was due, and is due one addition later (`schedule`).  The clock itself is moved about
by the timers of other parts in between; it is read only when a timer of the part has fired, and
stands at the due time of that timer then.

The durations are those that the compiler has added up to the times of its events.  So a part that
is played at time zero is on its compiled timeline exactly (`events_keep_compiled_times`).
-/

namespace MusicMacro

open Session

/-! ## Schedules -/

/-- What the clock reads after events have gone by one after another. -/
def reading (start : Double) (events : List Event) : Double :=
  events.foldl (fun time event => time + event.duration.nearest) start

/-- The cues of events that go by one after another from a time on. -/
def schedule (time : Double) : List Event → List Cue
  | [] => []
  | event :: rest =>
    ⟨time, true, event⟩ :: ⟨time + event.duration.nearest, false, event⟩ ::
      schedule (time + event.duration.nearest) rest

lemma reading_concat (start : Double) (events : List Event) (event : Event) :
    reading start (events ++ [event]) = reading start events + event.duration.nearest := by
  rw [reading, List.foldl_concat]
  rfl

lemma schedule_append (start : Double) (events later : List Event) :
    schedule start (events ++ later) =
      schedule start events ++ schedule (reading start events) later := by
  induction events generalizing start with
  | nil => rfl
  | cons event rest ih => rw [List.cons_append, schedule, schedule, ih]; rfl

lemma schedule_concat (start : Double) (events : List Event) (event : Event) :
    schedule start (events ++ [event]) =
      schedule start events ++
        [⟨reading start events, true, event⟩, ⟨reading start (events ++ [event]), false, event⟩] := by
  rw [schedule_append, reading_concat]
  rfl

/-- On a timeline each event is started at its compiled start and stopped at its compiled stop. -/
lemma schedule_of_isTimeline {time : Double} {events : List Event} (h : IsTimeline time events) :
    ∀ cue ∈ schedule time events,
      Number.real cue.time = if cue.starting then cue.event.start else cue.event.stop := by
  induction events generalizing time with
  | nil => exact fun cue hcue => absurd hcue List.not_mem_nil
  | cons event rest ih =>
      obtain ⟨seconds, hstart, hduration, hstop, hrest⟩ := h
      have hnearest : event.duration.nearest = seconds := by rw [hduration]; rfl
      intro cue hcue
      rw [schedule, hnearest] at hcue
      rcases List.mem_cons.mp hcue with rfl | hcue
      · exact hstart.symm
      rcases List.mem_cons.mp hcue with rfl | hcue
      · exact hstop.symm
      · exact ih hrest cue hcue

/-! ## How far a part has come -/

/-- The part has all its events before it, and the clock reads this. -/
structure Session.Unplayed (index entry : Nat) (events : List Event) (start : Double)
    (past : List Cue) (s : Session) : Prop where
  clock : s.clock = start
  tells : (s.outlook index entry).Tells index entry ⟨events, events⟩ none past

/-- The part was played at a reading of the clock, and its events have gone by on schedule since:
it is at one of them, or all have gone by. -/
inductive Session.Played (index entry : Nat) (events : List Event) (start : Double)
    (past : List Cue) (s : Session) : Prop
  | sounding {done : List Event} {now : Event} {rest : List Event}
    (hsplit : events = done ++ now :: rest)
    (tells : (s.outlook index entry).Tells index entry ⟨events, rest⟩
      (some (reading start done + now.duration.nearest, now))
      (past ++ schedule start done ++ [⟨reading start done, true, now⟩]))
  | ended (tells : (s.outlook index entry).Tells index entry ⟨events, []⟩ none
      (past ++ schedule start events))

/-- The move neither halts the parts nor replaces them. -/
def Move.goesOn : Move → Bool
  | .prepare _ _ _ | .halt _ => false
  | _ => true

/-- The move plays parts. -/
def Move.playsParts : Move → Bool
  | .play _ _ _ | .playAll _ _ => true
  | _ => false

section

variable {env : Environment} {index entry : Nat} {events : List Event} {start : Double}
  {past : List Cue} {s s' : Session}

lemma Environment.IsPassive.playsOthers (passive : env.IsPassive) (index : Nat) :
    env.PlaysOthers index := by
  intro name n command hcommand
  rw [passive name n] at hcommand
  exact absurd hcommand List.not_mem_nil

/-- What has the same outlook has come as far. -/
lemma Session.Played.of_tells (h : s.Played index entry events start past)
    (hsame : ∀ {part pending history}, (s.outlook index entry).Tells index entry part pending
      history → (s'.outlook index entry).Tells index entry part pending history) :
    s'.Played index entry events start past := by
  cases h with
  | sounding hsplit tells => exact .sounding hsplit (hsame tells)
  | ended tells => exact .ended (hsame tells)

/-! ### One part is played, or its timer fires -/

lemma play_played (hosts : s.Hosts index entry) (h : s.Played index entry events start past)
    (routing onProcess : Option String) :
    (play (handler env 0) index routing onProcess s).1.Played index entry events start past := by
  cases h with
  | sounding hsplit tells =>
      rw [play_tells_of_playing env hosts tells]
      exact .sounding hsplit tells
  | ended tells =>
      rcases play_tells env hosts tells routing onProcess with htold | ⟨event, rest, hqueue, -⟩
      · exact .ended htold
      · cases hqueue

lemma play_unplayed (passive : env.IsPassive) (hosts : s.Hosts index entry)
    (h : s.Unplayed index entry events start past) (routing onProcess : Option String) :
    let s' := (play (handler env 0) index routing onProcess s).1
    s'.Unplayed index entry events start past ∨ s'.Played index entry events start past := by
  intro s'
  have hsteady : s.Steady index entry s' := play_steady routing onProcess
    (fun c => handler_steady (passive.playsOthers index) 0 index c) s
  rcases play_tells env hosts h.tells routing onProcess with htold | ⟨event, rest, hqueue, htold⟩
  · exact Or.inl ⟨hsteady.clock.trans h.clock, htold⟩
  · right
    have hsplit : events = [] ++ event :: rest := hqueue
    refine .sounding hsplit ?_
    rw [h.clock] at htold
    simpa [schedule, reading] using htold

/-- When the timer of the part fires, its event has gone by, and the next one is at its place. -/
lemma fire_played (hosts : s.Hosts index entry) (h : s.Played index entry events start past)
    {t : Timer} (ht : t ∈ s.timers) (hentry : t.entry = entry) :
    (fire (handler env 0) t s).Played index entry events start past := by
  cases h with
  | @sounding done now queue hsplit tells =>
      obtain ⟨hpending, hrest⟩ := fire_tells env hosts tells ht hentry
      obtain ⟨hdue, rfl⟩ := Prod.mk.inj (Option.some.inj hpending)
      have hreading := reading_concat start done t.event
      have hgone : past ++ schedule start done ++ [⟨reading start done, true, t.event⟩] ++
          [⟨t.due, false, t.event⟩] = past ++ schedule start (done ++ [t.event]) := by
        rw [schedule_concat, hreading, hdue]
        simp
      rcases hrest with ⟨hqueue, htold⟩ | ⟨event, rest, hqueue, htold⟩
      · have hqueue' : queue = [] := hqueue
        subst hqueue' hsplit
        rw [hgone] at htold
        exact .ended htold
      · have hqueue' : queue = event :: rest := hqueue
        have hnext : events = (done ++ [t.event]) ++ event :: rest := by
          rw [hsplit, hqueue', List.append_assoc]
          rfl
        refine .sounding hnext ?_
        rw [← hgone, hreading, hdue]
        simpa using htold
  | ended tells =>
      obtain ⟨hpending, -⟩ := fire_tells env hosts tells ht hentry
      cases hpending

/-! ### Moves -/

/-- To play another part leaves the clock, and what there is for this part, as it is. -/
lemma play_other (passive : env.IsPassive) {i : Nat} (hi : i ≠ index)
    (routing onProcess : Option String) :
    (play (handler env 0) i routing onProcess).Leads (Session.Apart index entry) :=
  play_apart routing onProcess hi fun c => handler_apart (passive.playsOthers index) 0 hi c

lemma play_keeps_hosts (passive : env.IsPassive) (i : Nat) (routing onProcess : Option String) :
    (play (handler env 0) i routing onProcess).Keeps (Session.Hosts index entry) := fun s =>
  (play_steady routing onProcess
    (fun c => handler_steady (passive.playsOthers index) 0 i c) s).hosts

lemma play_keeps_played (passive : env.IsPassive) (i : Nat) (routing onProcess : Option String) :
    (play (handler env 0) i routing onProcess).Keeps fun s =>
      s.Hosts index entry ∧ s.Played index entry events start past := by
  rintro s ⟨hosts, h⟩
  refine ⟨play_keeps_hosts passive i routing onProcess s hosts, ?_⟩
  by_cases hi : i = index
  · subst hi
    exact play_played hosts h routing onProcess
  · refine h.of_tells fun htold => ?_
    rw [(play_other passive hi routing onProcess s).outlook hosts]
    exact htold

lemma play_keeps_unplayed (passive : env.IsPassive) (i : Nat) (routing onProcess : Option String) :
    (play (handler env 0) i routing onProcess).Keeps fun s =>
      s.Hosts index entry ∧
        (s.Unplayed index entry events start past ∨ s.Played index entry events start past) := by
  rintro s ⟨hosts, hunplayed | hplayed⟩
  · refine ⟨play_keeps_hosts passive i routing onProcess s hosts, ?_⟩
    by_cases hi : i = index
    · subst hi
      exact play_unplayed passive hosts hunplayed routing onProcess
    · have hother : s.Apart index entry _ := play_other passive hi routing onProcess s
      left
      refine ⟨hother.clock.trans hunplayed.clock, ?_⟩
      rw [hother.outlook hosts]
      exact hunplayed.tells
  · obtain ⟨hosts', hplayed'⟩ := play_keeps_played passive i routing onProcess s ⟨hosts, hplayed⟩
    exact ⟨hosts', Or.inr hplayed'⟩

/-- What playing parts keeps is kept by the moves that play parts. -/
lemma move_keeps_of_plays {I : Session → Prop}
    (hplay : ∀ i routing onProcess, (play (handler env 0) i routing onProcess).Keeps I)
    (hsettle : ∀ s, I s → I s.settleWaiters) {m : Move} (hm : m.playsParts = true) (hs : I s) :
    I (s.move env 0 m) := by
  cases m with
  | play part routing onProcess =>
      rcases @move_play env 0 s part routing onProcess with ⟨-, hmove⟩ | ⟨e, -, hmove⟩
      · rw [hmove]
        exact hsettle s hs
      · rw [hmove]
        exact hsettle _ (hplay e.index routing onProcess s hs)
  | playAll routing onProcess =>
      have hall : (playAll (handler env 0) routing onProcess).Keeps I :=
        Step.Leads.given fun _ => Step.Leads.forEach fun i _ => hplay i routing onProcess
      rw [move_playAll]
      exact hsettle _ (hall s hs)
  | _ => cases hm

/-- A move that goes on leaves the entry where it is. -/
lemma move_hosts (passive : env.IsPassive) (hosts : s.Hosts index entry) {m : Move}
    (hm : m.goesOn = true) : (s.move env 0 m).Hosts index entry := by
  by_cases hplays : m.playsParts = true
  · exact move_keeps_of_plays (play_keeps_hosts passive)
      (fun s h => h.sameParts ⟨rfl, rfl, rfl, rfl, rfl, rfl⟩) hplays hosts
  cases m with
  | fire serial =>
      rw [move]
      rcases ht : s.timerOf? serial with _ | t
      · exact hosts
      · exact (fire_steady hosts (mem_of_timerOf? ht).1 fun i c =>
          handler_steady (passive.playsOthers index) 0 i c).1
  | pass time =>
      exact hosts.sameParts (s.sameDoings_moveClock time).toSameParts
  | install hooks => exact hosts.sameParts ⟨rfl, rfl, rfl, rfl, rfl, rfl⟩
  | wait => exact hosts.sameParts ⟨rfl, rfl, rfl, rfl, rfl, rfl⟩
  | play => exact absurd rfl hplays
  | playAll => exact absurd rfl hplays
  | _ => cases hm

/-- A move that plays no part, and in which the timer of the part does not fire, leaves all that
there is for it as it is. -/
lemma move_aside (passive : env.IsPassive) (hosts : s.Hosts index entry) {m : Move}
    (hm : m.goesOn = true) (hplays : m.playsParts = false)
    (hfire : ∀ t ∈ s.timers, m = .fire t.serial → t.entry ≠ entry) {part : Part}
    {pending : Option (Double × Event)} {history : List Cue}
    (h : (s.outlook index entry).Tells index entry part pending history) :
    ((s.move env 0 m).outlook index entry).Tells index entry part pending history := by
  cases m with
  | fire serial =>
      rw [move]
      rcases ht : s.timerOf? serial with _ | t
      · exact h
      · obtain ⟨hmem, hserial⟩ := mem_of_timerOf? ht
        have hother := hfire t hmem (by rw [hserial])
        rw [Option.elim_some, fire_outlook_of_ne hosts hmem hother fun i hi c =>
          handler_apart (passive.playsOthers index) 0 hi c]
        exact h
  | pass time =>
      have hsame := s.sameDoings_moveClock time
      exact h.congr hsame.registry hsame.timers hsame.log
  | install hooks => exact h.congr rfl rfl rfl
  | wait => exact h.congr rfl rfl rfl
  | play => cases hplays
  | playAll => cases hplays
  | _ => cases hm

/-- Either the timer of the part fires in a move, or every timer that does is another one. -/
lemma own_or_other (m : Move) (s : Session) :
    (∃ t ∈ s.timers, m = .fire t.serial ∧ t.entry = entry) ∨
      ∀ t ∈ s.timers, m = .fire t.serial → t.entry ≠ entry := by
  by_cases hown : ∃ t ∈ s.timers, m = .fire t.serial ∧ t.entry = entry
  · exact Or.inl hown
  · exact Or.inr fun t ht hm hentry => hown ⟨t, ht, hm, hentry⟩

lemma move_fire_of_mem (hosts : s.Timed) {t : Timer} (ht : t ∈ s.timers) (env : Environment) :
    s.move env 0 (.fire t.serial) = fire (handler env 0) t s := by
  rcases hfound : s.timerOf? t.serial with _ | t'
  · rw [timerOf?, List.find?_eq_none] at hfound
    simpa using hfound t ht
  · obtain ⟨hmem, hserial⟩ := mem_of_timerOf? hfound
    rw [move, hfound, hosts.timer_eq_of_serial hmem ht hserial, Option.elim_some]

/-- In every move that goes on, a part that was played stays on schedule. -/
lemma move_played (passive : env.IsPassive) {m : Move} (hm : m.goesOn = true)
    (hosts : s.Hosts index entry) (h : s.Played index entry events start past) :
    (s.move env 0 m).Played index entry events start past := by
  by_cases hplays : m.playsParts = true
  · have hkept := move_keeps_of_plays
      (I := fun s => s.Hosts index entry ∧ s.Played index entry events start past)
      (play_keeps_played passive) ?_ hplays ⟨hosts, h⟩
    · exact hkept.2
    · exact fun s hs => ⟨hs.1.sameParts ⟨rfl, rfl, rfl, rfl, rfl, rfl⟩,
        hs.2.of_tells fun htold => htold.congr rfl rfl rfl⟩
  · rcases @own_or_other entry m s with ⟨t, ht, rfl, hentry⟩ | hother
    · rw [move_fire_of_mem hosts.toTimed ht]
      exact fire_played hosts h ht hentry
    · exact h.of_tells fun htold =>
        move_aside passive hosts hm (by simpa using hplays) hother htold

/-- If the part plays after a move before which it was unplayed, it was played in this move. -/
lemma move_unplayed (passive : env.IsPassive) {m : Move} (hm : m.goesOn = true)
    (hosts : s.Hosts index entry) (h : s.Unplayed index entry events start past)
    (hplaying : ∃ e ∈ (s.move env 0 m).registry, e.serial = entry ∧ e.isPlaying = true) :
    (s.move env 0 m).Played index entry events start past := by
  -- a part that does not play is not told to
  have hidle : ¬ ((s.move env 0 m).outlook index entry).Tells index entry ⟨events, events⟩ none
      past := by
    intro htold
    have hosts' := move_hosts passive hosts hm
    obtain ⟨e, he, -, hserial, -, -, hstill⟩ := htold.entry_found hosts'
    obtain ⟨e', he', hserial', hplays⟩ := hplaying
    rw [hosts'.eq_of_serial (List.mem_append_left _ he') (List.mem_append_left _ he)
      (hserial'.trans hserial.symm), hstill] at hplays
    cases hplays
  by_cases hplays : m.playsParts = true
  · have hkept := move_keeps_of_plays
      (I := fun s => s.Hosts index entry ∧ (s.Unplayed index entry events start past ∨
        s.Played index entry events start past))
      (play_keeps_unplayed passive) ?_ hplays ⟨hosts, Or.inl h⟩
    · exact hkept.2.resolve_left fun hunplayed => hidle hunplayed.tells
    · rintro s ⟨hs, hunplayed | hplayed⟩
      · exact ⟨hs.sameParts ⟨rfl, rfl, rfl, rfl, rfl, rfl⟩,
          Or.inl ⟨hunplayed.clock, hunplayed.tells.congr rfl rfl rfl⟩⟩
      · exact ⟨hs.sameParts ⟨rfl, rfl, rfl, rfl, rfl, rfl⟩,
          Or.inr (hplayed.of_tells fun htold => htold.congr rfl rfl rfl)⟩
  · rcases @own_or_other entry m s with ⟨t, ht, rfl, hentry⟩ | hother
    · obtain ⟨hpending, -⟩ := fire_tells env hosts h.tells ht hentry
      cases hpending
    · exact absurd (move_aside passive hosts hm (by simpa using hplays) hother h.tells) hidle

/-- A part that was played stays on schedule in every run that goes on. -/
lemma after_played (passive : env.IsPassive) (depth : Nat) {moves : List Move}
    (hgo : ∀ m ∈ moves, m.goesOn = true) (hosts : s.Hosts index entry)
    (h : s.Played index entry events start past) :
    (s.after env depth moves).Hosts index entry ∧
      (s.after env depth moves).Played index entry events start past := by
  refine after_keeps (I := fun s => s.Hosts index entry ∧ s.Played index entry events start past)
    ?_ ⟨hosts, h⟩
  rintro m hm s ⟨hosts, h⟩
  rw [move_depth passive]
  exact ⟨move_hosts passive hosts (hgo m hm), move_played passive (hgo m hm) hosts h⟩

/-- An entry that was never played tells that it has all its events before it. -/
lemma unplayed_of_mem (hs : s.Timed) {e : PartEntry} (he : e ∈ s.registry)
    (hpart : e.part = .ofEvents events) (hidle : e.isPlaying = false) :
    s.Unplayed e.index e.serial events s.clock (cues e.serial s.log) := by
  have hosts : s.Hosts e.index e.serial := ⟨hs, e, he, rfl, rfl⟩
  obtain ⟨e', he', -, hserial, -, hentries⟩ := hosts.entry_found
  have hsame := hs.eq_of_serial (List.mem_append_left _ he') (List.mem_append_left _ he) hserial
  subst hsame
  refine ⟨rfl, ?_, ?_, ?_⟩
  · rw [hentries, hpart, hidle]
    rfl
  · rw [outlook, hs.timers_of_idle he hidle]
    rfl
  · exact cues_doings ..

/-- All cues of a part that was played are on its schedule. -/
lemma Session.Played.exists_cues (h : s.Played index entry events start past) :
    ∃ done later, cues entry s.log = past ++ done ∧ schedule start events = done ++ later := by
  cases h with
  | @sounding done now rest hsplit tells =>
      have hcues := tells.cues
      rw [outlook, cues_doings, List.append_assoc] at hcues
      refine ⟨_, ⟨reading start done + now.duration.nearest, false, now⟩ ::
        schedule (reading start done + now.duration.nearest) rest, hcues, ?_⟩
      rw [hsplit, schedule_append, schedule, List.append_assoc]
      rfl
  | ended tells =>
      have hcues := tells.cues
      rw [outlook, cues_doings] at hcues
      exact ⟨_, [], hcues, (List.append_nil _).symm⟩

end

/-- **Compiled times.**  Take any session that a run leads to, an installed part that holds the
events of a notation string and was never played, and a run that goes on with a move in which it is
played; whichever calls fail and whatever else is played, no command is given during calls and the
parts are neither halted nor replaced.  Let the clock read `t` before.  Then either the part has
ended, and each of its events was started at `t` and the durations of those before it, added one by
one, and stopped at this time and its own duration; or it is at one of its events: those before were
started and stopped so, it was started at such a time, and a timer is set for its stop.

If `t` is zero, each of its events so far was started at its compiled start and stopped at its
compiled stop. -/
theorem events_keep_compiled_times (past env : Environment) (pastDepth depth : Nat)
    (hooks : Hooks) (policy : ErrorPolicy) (earlier : List Move) (m : Move) (later : List Move)
    (text : String) (events : List Event) (e : PartEntry) :
    let s := (Session.initial hooks policy).after past pastDepth earlier
    let s' := s.after env depth (m :: later)
    env.IsPassive → (∀ m' ∈ m :: later, m'.goesOn = true) →
    (compileText text).2 = .ok events →
    e ∈ s.registry → e.part = .ofEvents events → e.isPlaying = false →
    (∃ x ∈ (s.move env depth m).registry, x.serial = e.serial ∧ x.isPlaying = true) →
    (∃ x ∈ s'.registry, x.serial = e.serial ∧
      ((x.isPlaying = false ∧ cues e.serial (s.since s') = schedule s.clock events) ∨
        ∃ done now rest, events = done ++ now :: rest ∧
          cues e.serial (s.since s') =
            schedule s.clock done ++ [⟨reading s.clock done, true, now⟩] ∧
          ∃ t ∈ s'.timers, x.Owns t ∧ t.event = now ∧
            t.due = reading s.clock done + now.duration.nearest)) ∧
      (s.clock = .zero → ∀ cue ∈ cues e.serial (s.since s'),
        Number.real cue.time = if cue.starting then cue.event.start else cue.event.stop) := by
  intro s s' passive hgo hcompiled he hpart hidle hplaying
  have hs : s.Timed := after_timed past pastDepth hooks policy earlier
  have hosts : s.Hosts e.index e.serial := ⟨hs, e, he, rfl, rfl⟩
  have hm := hgo m List.mem_cons_self
  rw [move_depth passive] at hplaying
  have hfirst := move_unplayed passive hm hosts (unplayed_of_mem hs he hpart hidle) hplaying
  obtain ⟨hosts', hplayed⟩ := after_played passive depth
    (fun m' hm' => hgo m' (List.mem_cons_of_mem m hm')) (move_hosts passive hosts hm) hfirst
  rw [← move_depth passive depth, ← after_cons] at hosts' hplayed
  -- what was logged before `s` is on both sides
  have hlog : s'.log = s.since s' ++ s.log :=
    log_eq_since (after_leads grows_guarantee env depth s (m :: later))
  have hcues : ∀ {added}, cues e.serial s'.log = cues e.serial s.log ++ added →
      cues e.serial (s.since s') = added := by
    intro added h
    rw [hlog, cues_append] at h
    exact List.append_cancel_left h
  refine ⟨?_, ?_⟩
  · cases hplayed with
    | @sounding done now rest hsplit tells =>
        obtain ⟨x, hx, -, hserial, -, -, -⟩ := tells.entry_found hosts'
        obtain ⟨t, ht, hentry, hdue, hevent⟩ := tells.timer_found
        have htold := tells.cues
        rw [outlook, cues_doings, List.append_assoc] at htold
        have howns := hosts'.owns_of_serial ht (List.mem_append_left _ hx)
          (hserial.trans hentry.symm)
        exact ⟨x, hx, hserial, Or.inr ⟨done, now, rest, hsplit, hcues htold, t, ht, howns, hevent,
          hdue⟩⟩
    | ended tells =>
        obtain ⟨x, hx, -, hserial, -, -, hstill⟩ := tells.entry_found hosts'
        have htold := tells.cues
        rw [outlook, cues_doings] at htold
        exact ⟨x, hx, hserial, Or.inl ⟨hstill, hcues htold⟩⟩
  · intro hzero cue hcue
    obtain ⟨done, later', htold, hschedule⟩ := hplayed.exists_cues
    rw [hcues htold] at hcue
    rw [hzero] at hschedule
    refine schedule_of_isTimeline (compileText_isTimeline hcompiled) cue ?_
    rw [hschedule]
    exact List.mem_append_left _ hcue

/-- A part of three notes is played at time zero and another one after it.  No event of either can
be started without a failure, and the timers of the two fire in turn.  The part is at its last note
then, which was started at its compiled start. -/
theorem part_keeps_compiled_times_beside_another :
    let env := Environment.failing [.startGenerator]
    let s := (Session.initial .all .abort).after env 0
      [.prepare (.generators 1 "list") ["T70 O4 C8 D16. E4", "T90 O3 C8"] none]
    let m : Move := .play (.ofIndex 0) none none
    let later : List Move :=
      [.pass (.ofFraction 1 10), .play (.ofIndex 1) none none, .fire 3, .fire 2, .fire 4]
    let s' := s.after env 0 (m :: later)
    let events := (compileText "T70 O4 C8 D16. E4").2.toOption.getD []
    s.clock = .zero ∧ events.length = 3 ∧ ∀ e ∈ s.registry, e.index = 0 →
      (cues e.serial (s.since s')).length = 5 ∧
      (∃ x ∈ s'.registry, x.serial = e.serial ∧
        ((x.isPlaying = false ∧ cues e.serial (s.since s') = schedule s.clock events) ∨
          ∃ done now rest, events = done ++ now :: rest ∧
            cues e.serial (s.since s') =
              schedule s.clock done ++ [⟨reading s.clock done, true, now⟩] ∧
            ∃ t ∈ s'.timers, x.Owns t ∧ t.event = now ∧
              t.due = reading s.clock done + now.duration.nearest)) ∧
      (s.clock = .zero → ∀ cue ∈ cues e.serial (s.since s'),
        Number.real cue.time = if cue.starting then cue.event.start else cue.event.stop) := by
  intro env s m later s' events
  refine ⟨by decide +kernel +zetaReduce, by decide +kernel +zetaReduce, fun e he hindex => ⟨?_, ?_⟩⟩
  · revert e
    decide +kernel +zetaReduce
  · have hfacts : ∀ e ∈ s.registry, e.index = 0 → e.part = .ofEvents events ∧
        e.isPlaying = false ∧
        ∃ x ∈ (s.move env 0 m).registry, x.serial = e.serial ∧ x.isPlaying = true := by
      decide +kernel +zetaReduce
    obtain ⟨hpart, hidle, hplaying⟩ := hfacts e he hindex
    have hcompiled : (compileText "T70 O4 C8 D16. E4").2 = .ok events :=
      eq_ok_of_isOk (by decide +kernel) []
    exact events_keep_compiled_times env env 0 0 .all .abort _ m later _ events e
      (Environment.failing_isPassive _) (by decide) hcompiled he hpart hidle hplaying

end MusicMacro
