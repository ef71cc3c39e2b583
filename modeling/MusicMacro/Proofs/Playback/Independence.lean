import MusicMacro.Proofs.Number.Double
import MusicMacro.Proofs.Playback.Comparison

/-!
# Parts do not influence one another

Two runs go on from one session, in which parts are played and timers fire at their due times.  If
one part is played at the same times in both, and the calls that are made for it are answered
alike, then the same is done for it, at the same times, whatever is done for the other parts and
whichever of their calls fail (`parts_are_independent`).

Both runs are cut at the moves that concern the part (`quiet_or_own`).  What lies between these
leaves its outlook as it is.  The moves that concern it come in the same order on both sides, for
they are bound to times: a timer that fires in one run before the part is played would be due in
the other when it is played.
-/

namespace MusicMacro

open Session

/-! ## Runs on an ideal clock -/

namespace Session

/-- A timer of the part of an index is due and has yet to fire. -/
def isDue (index : Nat) (s : Session) : Bool :=
  (s.entryAt? index).any fun e => s.timers.any fun t => t.entry = e.serial && t.due.atMost s.clock

/-- A part is played, time passes, or a timer fires whose due time has not passed: the clock is then
at its due time.  Timers that are due at one time may fire in any order. -/
def admits (s : Session) : Move → Bool
  | .play _ _ _ => true
  | .fire serial => (s.timerOf? serial).all fun t => s.clock.atMost t.due
  | .pass _ => true
  | _ => false

/-- When and how the part of an index is played in a move.  It does not count as played while its
timer is due, for then it is about to go on by itself. -/
def played? (index : Nat) (s : Session) : Move → Option (Double × Option String × Option String)
  | .play part routing onProcess =>
    if part.index? = some index && !s.isDue index then some (s.clock, routing, onProcess) else none
  | _ => none

section

variable (env : Environment) (depth : Nat)

/-- Parts are played and timers fire at their due times, and nothing else is done. -/
def isTimely (s : Session) : List Move → Bool
  | [] => true
  | m :: rest => s.admits m && (s.move env depth m).isTimely rest

/-- When and how the part of an index is played in a run. -/
def plays (index : Nat) (s : Session) : List Move → List (Double × Option String × Option String)
  | [] => []
  | m :: rest => (s.played? index m).toList ++ (s.move env depth m).plays index rest

end

/-- The time of a session is not after the horizon, and all timers that are due up to it have fired,
so that none was passed over. -/
def isRunTo (s : Session) (horizon : Double) : Bool :=
  s.clock.atMost horizon && s.timers.all fun t => !t.due.atMost horizon

end Session

section

variable {env : Environment} {depth index entry : Nat} {s : Session}

/-- The part is due exactly if a timer of its entry is. -/
lemma Session.Hosts.isDue_iff (h : s.Hosts index entry) :
    s.isDue index = true ↔ ∃ t ∈ s.timers, t.entry = entry ∧ t.due.atMost s.clock = true := by
  obtain ⟨e, -, -, rfl, hat, -⟩ := h.entry_found
  simp [isDue, hat]

/-- While its timer is due, to play the part does nothing. -/
lemma play_of_isDue (h : s.Hosts index entry) (hdue : s.isDue index = true) (handle : Handler)
    (routing onProcess : Option String) : (play handle index routing onProcess s).1 = s := by
  obtain ⟨t, ht, hentry, -⟩ := h.isDue_iff.mp hdue
  obtain ⟨e, he, -, hserial, hat, -⟩ := h.entry_found
  have hplaying : e.isPlaying = true :=
    (h.owns_of_serial ht (List.mem_append_left _ he) (hserial.trans hentry.symm)).isPlaying
  rcases hadapter : s.adapter with _ | adapter
  · simp [play, hat, hadapter]
  · simp [play, hat, hadapter, hplaying]

/-- Where the outlook is the same, an entry has timers with the same due times. -/
lemma exists_timer_of_outlook {s' : Session}
    (h : s.outlook index entry = s'.outlook index entry) {t : Timer} (ht : t ∈ s.timers)
    (hentry : t.entry = entry) : ∃ t' ∈ s'.timers, t'.entry = entry ∧ t'.due = t.due := by
  have htimers := congrArg Outlook.timers h
  simp only [Session.outlook] at htimers
  have hin : t ∈ s.timers.filter (·.entry = entry) :=
    List.mem_filter.mpr ⟨ht, decide_eq_true hentry⟩
  have hmem := List.mem_map_of_mem (f := fun t => (t.due, t.event, t.routing, t.onProcess)) hin
  rw [htimers] at hmem
  obtain ⟨t', ht', hsame⟩ := List.mem_map.mp hmem
  obtain ⟨hmem', hentry'⟩ := List.mem_filter.mp ht'
  exact ⟨t', hmem', of_decide_eq_true hentry', congrArg Prod.fst hsame⟩

/-- A part that is played while its timer is not due counts as played. -/
lemma plays_play {part : PartName} (hpart : part.index? = some index)
    (hdue : s.isDue index = false) (routing onProcess : Option String) (rest : List Move) :
    s.plays env depth index (.play part routing onProcess :: rest) =
      (s.clock, routing, onProcess) ::
        (s.move env depth (.play part routing onProcess)).plays env depth index rest := by
  simp [plays, played?, hpart, hdue]

/-! ## What a move does to one part -/

lemma settleWaiters_hosts (h : s.Hosts index entry) : s.settleWaiters.Hosts index entry :=
  h.sameParts ⟨rfl, rfl, rfl, rfl, rfl, rfl⟩

/-- The part of the index is played itself. -/
lemma move_play_self (h : s.Hosts index entry) {part : PartName} (hpart : part.index? = some index)
    (routing onProcess : Option String) :
    s.move env depth (.play part routing onProcess) =
      (play (handler env depth) index routing onProcess s).1.settleWaiters := by
  obtain ⟨e, -, hindex, -, hat, -⟩ := h.entry_found
  have hnamed : s.entryNamed? part = some e := by rw [entryNamed?, hpart]; exact hat
  rcases @move_play env depth s part routing onProcess with
    ⟨hnone, -⟩ | ⟨e', he', hmove⟩
  · rw [hnamed] at hnone
    cases hnone
  · rw [hnamed] at he'
    cases he'
    rw [hmove, hindex]

variable (h : env.PlaysOthers index)

include h

/-- An admitted move leaves the entry installed, and the clock is not moved back. -/
lemma move_steady (hosts : s.Hosts index entry) {m : Move} (hadmits : s.admits m = true) :
    (s.move env depth m).Hosts index entry ∧
      ∀ x : Double, x.atMost s.clock = true → x.atMost (s.move env depth m).clock = true := by
  have hcalls := fun i c => @handler_steady index entry env h depth i c
  cases m with
  | play part routing onProcess =>
      rcases @move_play env depth s part routing onProcess with
        ⟨-, hmove⟩ | ⟨e, -, hmove⟩
      · rw [hmove]
        exact ⟨settleWaiters_hosts hosts, fun x hx => hx⟩
      · have hplayed := play_steady routing onProcess (hcalls e.index) s
        rw [hmove]
        exact ⟨settleWaiters_hosts (hplayed.hosts hosts), fun x hx => hplayed.clock ▸ hx⟩
  | fire serial =>
      rw [move]
      rcases ht : s.timerOf? serial with _ | t
      · exact ⟨hosts, fun x hx => hx⟩
      · have hnotPassed : s.clock.atMost t.due = true := by simpa [admits, ht] using hadmits
        obtain ⟨hhosts, hclock⟩ := fire_steady hosts (mem_of_timerOf? ht).1 hcalls
        refine ⟨hhosts, fun x hx => ?_⟩
        rw [Option.elim_some, hclock]
        exact Double.atMost_trans hx hnotPassed
  | pass time =>
      rw [move, moveClock]
      split
      case isTrue hless =>
        exact ⟨hosts.sameParts ⟨rfl, rfl, rfl, rfl, rfl, rfl⟩, fun x hx =>
          Double.atMost_trans hx (Double.atMost_of_less hless)⟩
      case isFalse => exact ⟨hosts, fun x hx => hx⟩
  | _ => cases hadmits

/-- A timely run leaves the entry installed, and the clock is not moved back. -/
lemma after_steady (hosts : s.Hosts index entry) {run : List Move}
    (htimely : s.isTimely env depth run = true) :
    (s.after env depth run).Hosts index entry ∧
      ∀ x : Double, x.atMost s.clock = true → x.atMost (s.after env depth run).clock = true := by
  induction run generalizing s with
  | nil => exact ⟨hosts, fun x hx => hx⟩
  | cons m rest ih =>
      obtain ⟨hadmits, hrest⟩ := Bool.and_eq_true_iff.mp htimely
      obtain ⟨hhosts, hclock⟩ := move_steady h hosts hadmits
      obtain ⟨hhosts', hclock'⟩ := ih hhosts hrest
      exact ⟨hhosts', fun x hx => hclock' x (hclock x hx)⟩

/-- From a time on the part is played at that time or later. -/
lemma atMost_of_mem_plays (hosts : s.Hosts index entry) {run : List Move}
    (htimely : s.isTimely env depth run = true) {x : Double} (hx : x.atMost s.clock = true) :
    ∀ p ∈ s.plays env depth index run, x.atMost p.1 = true := by
  induction run generalizing s with
  | nil => exact fun p hp => absurd hp List.not_mem_nil
  | cons m rest ih =>
      intro p hp
      obtain ⟨hadmits, hrest⟩ := Bool.and_eq_true_iff.mp htimely
      rcases List.mem_append.mp hp with hp | hp
      · have hclock : p.1 = s.clock := by
          cases m with
          | play part routing onProcess =>
              rw [Option.mem_toList, played?] at hp
              split at hp
              · cases hp
                rfl
              · cases hp
          | _ => cases hp
        rw [hclock]
        exact hx
      · obtain ⟨hhosts, hclock⟩ := move_steady h hosts hadmits
        exact ih hhosts hrest (hclock x hx) p hp

end

/-! ## The moves of one part -/

/-- The move concerns the part: it is played while its timer is not due, or its timer fires. -/
inductive Session.Concerns (index entry : Nat) (s : Session) : Move → Prop
  | play {part : PartName} (routing onProcess : Option String) (hpart : part.index? = some index)
    (hdue : s.isDue index = false) : s.Concerns index entry (.play part routing onProcess)
  | fire {serial : Nat} {t : Timer} (ht : s.timerOf? serial = some t) (hentry : t.entry = entry) :
    s.Concerns index entry (.fire serial)

section

variable {env : Environment} {depth index entry : Nat} {s : Session} (h : env.PlaysOthers index)

include h

/-- A move that does not concern the part leaves its outlook as it is. -/
lemma move_outlook_of_not_concerns (hosts : s.Hosts index entry) {m : Move}
    (hadmits : s.admits m = true) (hother : ¬ s.Concerns index entry m) :
    (s.move env depth m).outlook index entry = s.outlook index entry ∧
      s.played? index m = none := by
  have hcalls := fun i hi c => @handler_apart index entry env h depth i hi c
  cases m with
  | play part routing onProcess =>
      by_cases hpart : part.index? = some index
      · have hdue : s.isDue index = true := by
          by_contra hnot
          exact hother (.play routing onProcess hpart (by simpa using hnot))
        rw [move_play_self hosts hpart, play_of_isDue hosts hdue]
        exact ⟨rfl, by simp [played?, hdue]⟩
      · refine ⟨?_, by simp [played?, hpart]⟩
        rcases @move_play env depth s part routing onProcess with
          ⟨-, hmove⟩ | ⟨e, he, hmove⟩
        · rw [hmove]
          rfl
        · obtain ⟨i, hi, hat⟩ := Option.bind_eq_some_iff.mp he
          have hne : e.index ≠ index := fun heq =>
            hpart (by rw [hi, ← (mem_of_entryAt? hat).2, heq])
          have hplayed := play_apart routing onProcess hne (hcalls e.index hne) s
          rw [hmove, ← hplayed.outlook hosts]
          rfl
  | fire serial =>
      refine ⟨?_, rfl⟩
      rw [move]
      rcases ht : s.timerOf? serial with _ | t
      · rfl
      · have hentry : t.entry ≠ entry := fun heq => hother (.fire ht heq)
        exact fire_outlook_of_ne hosts (mem_of_timerOf? ht).1 hentry hcalls
  | pass time =>
      refine ⟨?_, rfl⟩
      rw [move, moveClock]
      split
      · rfl
      · rfl
  | _ => cases hadmits

/-- A run goes on without the part until a move concerns it, or to its end. -/
lemma quiet_or_own (hosts : s.Hosts index entry) {run : List Move}
    (htimely : s.isTimely env depth run = true) :
    ∃ before later, run = before ++ later ∧
      (s.after env depth before).Hosts index entry ∧
      (s.after env depth before).outlook index entry = s.outlook index entry ∧
      (s.after env depth before).isTimely env depth later = true ∧
      (s.after env depth before).plays env depth index later = s.plays env depth index run ∧
      (later = [] ∨ ∃ m rest, later = m :: rest ∧
        (s.after env depth before).Concerns index entry m) := by
  induction run generalizing s with
  | nil => exact ⟨[], [], rfl, hosts, rfl, rfl, rfl, Or.inl rfl⟩
  | cons m rest ih =>
      by_cases hconcerns : s.Concerns index entry m
      · exact ⟨[], m :: rest, rfl, hosts, rfl, htimely, rfl, Or.inr ⟨m, rest, rfl, hconcerns⟩⟩
      · obtain ⟨hadmits, hrest⟩ := Bool.and_eq_true_iff.mp htimely
        obtain ⟨houtlook, hplayed⟩ :=
          @move_outlook_of_not_concerns env depth index entry s h hosts m hadmits hconcerns
        obtain ⟨before, later, hrun, hhosts, hsame, htimely', hplays, hlater⟩ :=
          ih (move_steady h hosts hadmits).1 hrest
        refine ⟨m :: before, later, by rw [hrun]; rfl, hhosts, hsame.trans houtlook, htimely', ?_,
          hlater⟩
        rw [plays, hplayed]
        exact hplays

/-- After a timer of the part has fired, the part is played at its due time or later. -/
lemma due_atMost_of_fire (hosts : s.Hosts index entry) {serial : Nat} {t : Timer}
    (ht : s.timerOf? serial = some t) {rest : List Move}
    (htimely : s.isTimely env depth (.fire serial :: rest) = true) :
    t.due.atMost (s.after env depth (.fire serial :: rest)).clock = true ∧
      ∀ p ∈ s.plays env depth index (.fire serial :: rest), t.due.atMost p.1 = true := by
  obtain ⟨hadmits, hrest⟩ := Bool.and_eq_true_iff.mp htimely
  have hnotPassed : s.clock.atMost t.due = true := by simpa [admits, ht] using hadmits
  have hmove : s.move env depth (.fire serial) = fire (handler env depth) t s := by
    rw [move, ht, Option.elim_some]
  obtain ⟨hhosts, hclock⟩ := fire_steady hosts (mem_of_timerOf? ht).1 fun i c =>
    @handler_steady index entry env h depth i c
  have hdue : t.due.atMost (fire (handler env depth) t s).clock = true := by
    rw [hclock]
    exact Double.atMost_self hnotPassed
  rw [hmove] at hrest
  rw [after_cons, plays, hmove]
  exact ⟨(after_steady h hhosts hrest).2 _ hdue, atMost_of_mem_plays h hhosts hrest hdue⟩

/-- If the part is played at a time in one run, but only after a timer of it has fired in the other
one, then this timer is due when it is played. -/
lemma isDue_of_fire (hosts : s.Hosts index entry) {serial : Nat} {t : Timer}
    (ht : s.timerOf? serial = some t) (hentry : t.entry = entry) {rest : List Move}
    (htimely : s.isTimely env depth (.fire serial :: rest) = true) {s' : Session}
    (hosts' : s'.Hosts index entry) (hsame : s'.outlook index entry = s.outlook index entry)
    {routing onProcess : Option String}
    (hplayed : (s'.clock, routing, onProcess) ∈ s.plays env depth index (.fire serial :: rest)) :
    s'.isDue index = true := by
  obtain ⟨t', ht', hentry', hdue⟩ :=
    exists_timer_of_outlook hsame.symm (mem_of_timerOf? ht).1 hentry
  refine hosts'.isDue_iff.mpr ⟨t', ht', hentry', ?_⟩
  rw [hdue]
  exact (due_atMost_of_fire h hosts ht htimely).2 _ hplayed

/-- If one of two runs ends before a move that concerns the part in the other one, then this move
is to play the part. -/
lemma plays_ne_nil_of_concerns (hosts : s.Hosts index entry) {s' : Session}
    (hsame : s.outlook index entry = s'.outlook index entry) {m : Move}
    (hconcerns : s.Concerns index entry m) {rest : List Move}
    (htimely : s.isTimely env depth (m :: rest) = true) {horizon : Double}
    (hend : (s.after env depth (m :: rest)).isRunTo horizon = true)
    (hend' : s'.isRunTo horizon = true) : s.plays env depth index (m :: rest) ≠ [] := by
  cases hconcerns with
  | play routing onProcess hpart hdue =>
      rw [plays_play hpart hdue]
      exact List.cons_ne_nil _ _
  | fire ht hentry =>
      obtain ⟨t', ht', -, hdue⟩ := exists_timer_of_outlook hsame (mem_of_timerOf? ht).1 hentry
      have hclock := Double.atMost_trans (due_atMost_of_fire h hosts ht htimely).1
        (Bool.and_eq_true_iff.mp hend).1
      have hlate := List.all_eq_true.mp (Bool.and_eq_true_iff.mp hend').2 t' ht'
      rw [hdue, hclock] at hlate
      cases hlate

end

/-! ## Two runs -/

namespace Comparison

variable {c : Comparison} {u v : Session}

/-- What does not change the outlook is of no account. -/
lemma Alike.of_outlook (h : c.Alike u v) {u' v' : Session} (hu : u.Counted u') (hv : v.Counted v')
    (huOutlook : u'.outlook c.index c.entry = u.outlook c.index c.entry)
    (hvOutlook : v'.outlook c.index c.entry = v.outlook c.index c.entry) : c.Alike u' v' where
  outlook := by rw [huOutlook, hvOutlook, h.outlook]
  left := trans_of Session.Counted h.left hu
  right := trans_of Session.Counted h.right hv

lemma settleWaiters_counted (s : Session) : s.Counted s.settleWaiters :=
  counted_guarantee.same s.sameDoings_settleWaiters

variable (hleft : c.left.PlaysOthers c.index) (hright : c.right.PlaysOthers c.index)

/-- The part is played on both sides at one time. -/
lemma move_play_alike (h : c.Alike u v) (hu : u.Hosts c.index c.entry)
    (hv : v.Hosts c.index c.entry) (hclock : u.clock = v.clock) {part part' : PartName}
    (hpart : part.index? = some c.index) (hpart' : part'.index? = some c.index)
    (routing onProcess : Option String)
    (huAnswers : c.left.AnswersAs c.answer c.index c.start
      (u.move c.left c.leftDepth (.play part routing onProcess)))
    (hvAnswers : c.right.AnswersAs c.answer c.index c.start
      (v.move c.right c.rightDepth (.play part' routing onProcess))) :
    c.Alike (u.move c.left c.leftDepth (.play part routing onProcess))
      (v.move c.right c.rightDepth (.play part' routing onProcess)) := by
  rw [move_play_self hu hpart] at huAnswers ⊢
  rw [move_play_self hv hpart'] at hvAnswers ⊢
  exact (play_twinsAt ⟨h, hclock⟩ hu hv routing onProcess huAnswers hvAnswers).1.toAlike.of_outlook
    (settleWaiters_counted _) (settleWaiters_counted _) rfl rfl

include hleft hright

/-- A move concerns the part on both sides, and from then on the part is played at the same times.
Then the two moves are of one kind, and the sessions after them look alike to the part. -/
lemma concerned_alike (h : c.Alike u v) (hu : u.Hosts c.index c.entry)
    (hv : v.Hosts c.index c.entry) {m m' : Move} (hm : u.Concerns c.index c.entry m)
    (hm' : v.Concerns c.index c.entry m') {rest rest' : List Move}
    (htimely : u.isTimely c.left c.leftDepth (m :: rest) = true)
    (htimely' : v.isTimely c.right c.rightDepth (m' :: rest') = true)
    (hplays : u.plays c.left c.leftDepth c.index (m :: rest) =
      v.plays c.right c.rightDepth c.index (m' :: rest'))
    (huAnswers : c.left.AnswersAs c.answer c.index c.start (u.move c.left c.leftDepth m))
    (hvAnswers : c.right.AnswersAs c.answer c.index c.start (v.move c.right c.rightDepth m')) :
    c.Alike (u.move c.left c.leftDepth m) (v.move c.right c.rightDepth m') ∧
      (u.move c.left c.leftDepth m).plays c.left c.leftDepth c.index rest =
        (v.move c.right c.rightDepth m').plays c.right c.rightDepth c.index rest' := by
  cases hm with
  | play routing onProcess hpart hdue =>
      rw [plays_play hpart hdue] at hplays
      cases hm' with
      | play routing' onProcess' hpart' hdue' =>
          rw [plays_play hpart' hdue'] at hplays
          obtain ⟨hfirst, hrest⟩ := List.cons.inj hplays
          obtain ⟨hclock, rfl, rfl⟩ : u.clock = v.clock ∧ routing = routing' ∧
              onProcess = onProcess' := by simpa using hfirst
          exact ⟨move_play_alike h hu hv hclock hpart hpart' routing onProcess huAnswers hvAnswers,
            hrest⟩
      | fire ht' hentry' =>
          rw [isDue_of_fire hright hv ht' hentry' htimely' hu h.outlook
            (hplays ▸ List.mem_cons_self)] at hdue
          cases hdue
  | fire ht hentry =>
      cases hm' with
      | play routing' onProcess' hpart' hdue' =>
          rw [plays_play hpart' hdue'] at hplays
          rw [isDue_of_fire hleft hu ht hentry htimely hv h.outlook.symm
            (hplays ▸ List.mem_cons_self)] at hdue'
          cases hdue'
      | fire ht' hentry' =>
          refine ⟨?_, hplays⟩
          rw [move, ht, Option.elim_some] at huAnswers ⊢
          rw [move, ht', Option.elim_some] at hvAnswers ⊢
          exact fire_alike hleft hright h hu hv (mem_of_timerOf? ht).1 (mem_of_timerOf? ht').1
            hentry hentry' huAnswers hvAnswers

/-- Two runs to one horizon in which the part is played at the same times look alike to it at their
ends. -/
lemma runs_alike {horizon : Double} {run run' : List Move} (h : c.Alike u v)
    (hu : u.Hosts c.index c.entry) (hv : v.Hosts c.index c.entry)
    (htimely : u.isTimely c.left c.leftDepth run = true)
    (htimely' : v.isTimely c.right c.rightDepth run' = true)
    (hend : (u.after c.left c.leftDepth run).isRunTo horizon = true)
    (hend' : (v.after c.right c.rightDepth run').isRunTo horizon = true)
    (hplays : u.plays c.left c.leftDepth c.index run = v.plays c.right c.rightDepth c.index run')
    (huAnswers : c.left.AnswersAs c.answer c.index c.start (u.after c.left c.leftDepth run))
    (hvAnswers : c.right.AnswersAs c.answer c.index c.start (v.after c.right c.rightDepth run')) :
    c.Alike (u.after c.left c.leftDepth run) (v.after c.right c.rightDepth run') := by
  -- The induction is on the moves on the left; each turn takes all up to the next one that concerns
  -- the part, on both sides.
  induction hlength : run.length using Nat.strongRecOn generalizing run run' u v with
  | _ n ih =>
  obtain ⟨before, later, rfl, hu₁, huOutlook, htimely₁, huPlays, hlater⟩ :=
    quiet_or_own hleft hu htimely
  obtain ⟨before', later', rfl, hv₁, hvOutlook, htimely₁', hvPlays, hlater'⟩ :=
    quiet_or_own hright hv htimely'
  rw [after_append] at hend huAnswers ⊢
  rw [after_append] at hend' hvAnswers ⊢
  have halike := h.of_outlook (after_leads counted_guarantee c.left c.leftDepth u before)
    (after_leads counted_guarantee c.right c.rightDepth v before') huOutlook hvOutlook
  rw [← huPlays, ← hvPlays] at hplays
  set u₁ := u.after c.left c.leftDepth before with hu₁def
  set v₁ := v.after c.right c.rightDepth before' with hv₁def
  rcases hlater with rfl | ⟨m, rest, rfl, hm⟩
  · rcases hlater' with rfl | ⟨m', rest', rfl, hm'⟩
    · exact halike
    · exact absurd hplays.symm
        (plays_ne_nil_of_concerns hright hv₁ halike.outlook.symm hm' htimely₁' hend' hend)
  · rcases hlater' with rfl | ⟨m', rest', rfl, hm'⟩
    · exact absurd hplays
        (plays_ne_nil_of_concerns hleft hu₁ halike.outlook hm htimely₁ hend hend')
    · rw [after_cons] at hend huAnswers ⊢
      rw [after_cons] at hend' hvAnswers ⊢
      -- How the calls of these two moves were answered shows at the ends of the runs.
      have huMoved := move_leads counted_guarantee c.left c.leftDepth m u₁
      have hvMoved := move_leads counted_guarantee c.right c.rightDepth m' v₁
      obtain ⟨hmoved, hrest⟩ := concerned_alike hleft hright halike hu₁ hv₁ hm hm' htimely₁
        htimely₁' hplays
        (huAnswers.back (trans_of Session.Counted halike.left huMoved).grows
          (after_leads counted_guarantee c.left c.leftDepth _ rest).grows)
        (hvAnswers.back (trans_of Session.Counted halike.right hvMoved).grows
          (after_leads counted_guarantee c.right c.rightDepth _ rest').grows)
      obtain ⟨hadmits, htimely₂⟩ := Bool.and_eq_true_iff.mp htimely₁
      obtain ⟨hadmits', htimely₂'⟩ := Bool.and_eq_true_iff.mp htimely₁'
      refine ih rest.length ?_ hmoved (move_steady hleft hu₁ hadmits).1
        (move_steady hright hv₁ hadmits').1 htimely₂ htimely₂' hend hend' hrest huAnswers hvAnswers
        rfl
      rw [← hlength, List.length_append, List.length_cons]
      omega

end Comparison

/-- **Independence.**  Take any session that a run leads to, and two runs that go on from it, in
which parts are played and timers fire at their due times, up to one horizon.  In both one part is
played at the same times and in the same way, no command is given during the calls for it, and
these calls fail alike: the first ones, the second ones, and so on.  During other calls further
parts may be played, but not this one.  Then what is done for the part, and when, is the same in
both runs: what is handed over of its events, every call that is made for it, and that it ends. -/
theorem parts_are_independent (past left right : Environment)
    (pastDepth leftDepth rightDepth : Nat) (hooks : Hooks) (policy : ErrorPolicy)
    (moves leftRun rightRun : List Move) (index : Nat) (horizon : Double) (answer : Nat → Bool) :
    let s := (Session.initial hooks policy).after past pastDepth moves
    let u := s.after left leftDepth leftRun
    let v := s.after right rightDepth rightRun
    left.PlaysOthers index → right.PlaysOthers index →
    s.isTimely left leftDepth leftRun = true → s.isTimely right rightDepth rightRun = true →
    u.isRunTo horizon = true → v.isRunTo horizon = true →
    s.plays left leftDepth index leftRun = s.plays right rightDepth index rightRun →
    left.AnswersAs answer index s u → right.AnswersAs answer index s v →
    ∀ e ∈ s.registry, e.index = index →
      doings index e.serial (s.since u) = doings index e.serial (s.since v) := by
  intro s u v hleft hright htimely htimely' hend hend' hplays huAnswers hvAnswers e he hindex
  have hosts : s.Hosts index e.serial :=
    ⟨after_timed past pastDepth hooks policy moves, e, he, hindex, rfl⟩
  let c : Comparison := ⟨s, index, e.serial, left, right, leftDepth, rightDepth, answer⟩
  have hstart : c.Alike s s := ⟨rfl, refl_of Session.Counted s, refl_of Session.Counted s⟩
  have halike : c.Alike u v := Comparison.runs_alike hleft hright hstart hosts hosts htimely
    htimely' hend hend' hplays huAnswers hvAnswers
  have hdoings : doings index e.serial u.log = doings index e.serial v.log :=
    congrArg Outlook.doings halike.outlook
  rw [log_eq_since halike.left.grows, log_eq_since halike.right.grows, doings_append,
    doings_append] at hdoings
  exact List.append_cancel_right hdoings

/-- Where only parts other than that of the index are played during the calls of one name, the part
of the index is not played during calls. -/
lemma giving_playsOthers {index : Nat} (name : CallName) {commands : List Command}
    (h : ∀ command ∈ commands, ∃ part routing onProcess,
      command = .play part routing onProcess ∧ part.index? ≠ some index)
    (calls : List (CallName × Nat)) :
    ((Environment.giving name commands).alsoFailing calls).PlaysOthers index := by
  intro called n command hcommand
  simp only [Environment.alsoFailing, Environment.giving] at hcommand
  split at hcommand
  · exact h command hcommand
  · exact absurd hcommand List.not_mem_nil

/-- A part of two notes plays by itself, and its first stop fails.  Then it plays beside two others:
playing one of them fails at its start, and during that start the other one is played, which goes on
to its second note before the part does. -/
theorem part_plays_alike_beside_others :
    let left := (Environment.giving .tune []).alsoFailing [(.stopGenerator, 0)]
    let right := (Environment.giving .tune [.play (.ofIndex 2) none none]).alsoFailing
      [(.startGenerator, 1), (.stopGenerator, 1)]
    let s := (Session.initial .all .abort).after (.failing []) 0
      [.prepare (.generators 1 "list") ["T60 O4 C4 D4", "T60 O3 C1", "T120 O2 C4 D1"] none]
    let u := s.after left 0 [.play (.ofIndex 0) none none, .fire 3, .fire 4]
    let v := s.after right 1 [.play (.ofIndex 1) none none, .play (.ofIndex 0) none none, .fire 4,
      .fire 5, .fire 7]
    ((doings 0 0 (s.since u)).length = 15 ∧ (s.since u).length = 18 ∧ (s.since v).length = 34) ∧
      ∀ e ∈ s.registry, e.index = 0 →
        doings 0 e.serial (s.since u) = doings 0 e.serial (s.since v) := by
  intro left right s u v
  have hright : right.PlaysOthers 0 := giving_playsOthers .tune
    (fun command hcommand => ⟨.ofIndex 2, none, none, List.mem_singleton.mp hcommand,
      by decide +kernel⟩) _
  refine ⟨by decide +kernel +zetaReduce, ?_⟩
  exact parts_are_independent (.failing []) left right 0 0 1 .all .abort _ _ _ 0 u.clock
    (fun n => n = 3) (giving_playsOthers .tune (by simp) _) hright (by decide +kernel +zetaReduce)
    (by decide +kernel +zetaReduce) (by decide +kernel +zetaReduce)
    (by decide +kernel +zetaReduce) (by decide +kernel +zetaReduce)
    (by decide +kernel +zetaReduce) (by decide +kernel +zetaReduce)

end MusicMacro
