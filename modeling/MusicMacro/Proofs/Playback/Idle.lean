import Mathlib.Data.List.Induction
import MusicMacro.Proofs.Playback.Matching

/-!
# Those who wait until nothing plays

Whether nothing plays is kept twice: `Session.isPaused` reads it off the parts, and the flag
`Session.idle`, on which those who wait depend, is brought up to date by hand.  The flag is never
set while a part plays, but it can stay unset when nothing plays any more: the last running timer
fires, its part has no event left, and the hook fails when it is told of the end, so the flag is
not looked at again (`Session.Strands`).  Those who wait are then left waiting until a later move
brings the flag up to date (`Session.Refreshes`).  `idle_ne_isPaused_iff_stranded` says that this
is the only way in which the two come apart.

What matters of a session here is its `Watch`; each operation of playback comes down to one of a
few changes of it.
-/

namespace MusicMacro

/-! ## The flag and those who wait -/

/-- The flag, whether in truth nothing plays, and those who wait. -/
structure Watch where
  idle : Bool
  paused : Bool
  waiters : List Waiter

def Session.watch (s : Session) : Watch := ⟨s.idle, s.isPaused, s.waiters⟩

namespace Watch

/-- The flag is brought up to date, and if it is set those who wait go on. -/
def tell (w : Watch) : Watch :=
  if w.paused && !w.idle then
    { w with idle := true, waiters := w.waiters.map fun x => if x = .waiting then .done else x }
  else w

/-- A part plays. -/
def wake (w : Watch) : Watch := { w with idle := false, paused := false }

/-- No part plays. -/
def silence (w : Watch) : Watch := { w with paused := true }

/-- The flag is set only when nothing plays, and whoever waits does so because it is not set. -/
structure Consistent (w : Watch) : Prop where
  paused : w.idle = true → w.paused = true
  waiters : ∀ x ∈ w.waiters, x = .done ∨ x = .waiting ∧ w.idle = false

/-- The flag is set exactly when nothing plays. -/
def Agrees (w : Watch) : Prop := w.idle = w.paused

variable {w w' w'' : Watch}

lemma Consistent.tell (h : w.Consistent) : w.tell.Consistent := by
  unfold Watch.tell
  split
  case isFalse => exact h
  case isTrue htold =>
    refine ⟨fun _ => by simp_all, fun x hx => ?_⟩
    obtain ⟨y, hy, rfl⟩ := List.mem_map.mp hx
    rcases h.waiters y hy with rfl | ⟨rfl, -⟩
    · exact Or.inl rfl
    · exact Or.inl rfl

lemma Consistent.wake (h : w.Consistent) : w.wake.Consistent := by
  refine ⟨fun hidle => absurd hidle Bool.false_ne_true, fun x hx => ?_⟩
  rcases h.waiters x hx with rfl | ⟨rfl, -⟩
  · exact Or.inl rfl
  · exact Or.inr ⟨rfl, rfl⟩

lemma Consistent.silence (h : w.Consistent) : w.silence.Consistent :=
  ⟨fun _ => rfl, h.waiters⟩

/-- Bringing the flag up to date makes it agree. -/
lemma Consistent.tell_agrees (h : w.Consistent) : w.tell.Agrees := by
  have hpaused := h.paused
  rcases w with ⟨_ | _, _ | _, waiters⟩
  · rfl
  · rfl
  · exact absurd (hpaused rfl) Bool.false_ne_true
  · rfl

lemma tell_paused (w : Watch) : w.tell.paused = w.paused := by
  unfold tell
  split
  · rfl
  · rfl

/-- Where no part plays the flag is set when it is brought up to date. -/
lemma silence_tell_idle (w : Watch) : w.silence.tell.idle = true := by
  rcases w with ⟨_ | _, paused, waiters⟩
  · rfl
  · rfl

/-- A flag that does not agree is not set although nothing plays. -/
lemma Consistent.of_not_agrees (h : w.Consistent) (hnot : ¬ w.Agrees) :
    w.idle = false ∧ w.paused = true := by
  have hpaused := h.paused
  rcases w with ⟨_ | _, _ | _, waiters⟩
  · exact absurd rfl hnot
  · exact ⟨rfl, rfl⟩
  · exact absurd (hpaused rfl) Bool.false_ne_true
  · exact absurd rfl hnot

/-! ## What playing does to it -/

/-- What becomes of the flag and of those who wait while parts are played: nothing falls silent,
and whoever goes on does so because nothing played. -/
structure Onward (w w' : Watch) : Prop where
  consistent : w.Consistent → w'.Consistent
  agrees : w.Consistent → w.Agrees → w'.Agrees
  paused : w'.paused = true → w.paused = true
  done : ∀ k : Nat, w.waiters[k]? = some Waiter.done → w'.waiters[k]? = some Waiter.done
  waiting : ∀ k : Nat, w.waiters[k]? = some Waiter.waiting →
    w'.waiters[k]? = some Waiter.waiting ∨ w'.waiters[k]? = some Waiter.done ∧ w.paused = true

lemma Onward.refl (w : Watch) : w.Onward w :=
  ⟨id, fun _ => id, id, fun _ => id, fun _ => Or.inl⟩

lemma Onward.trans (h : w.Onward w') (h' : w'.Onward w'') : w.Onward w'' := by
  refine ⟨fun hw => h'.consistent (h.consistent hw),
    fun hw ha => h'.agrees (h.consistent hw) (h.agrees hw ha),
    fun hp => h.paused (h'.paused hp), fun k hk => h'.done k (h.done k hk), fun k hk => ?_⟩
  rcases h.waiting k hk with hstill | ⟨hdone, hpaused⟩
  · rcases h'.waiting k hstill with hstill' | ⟨hdone, hpaused⟩
    · exact Or.inl hstill'
    · exact Or.inr ⟨hdone, h.paused hpaused⟩
  · exact Or.inr ⟨h'.done k hdone, hpaused⟩

lemma tell_onward (w : Watch) : w.Onward w.tell := by
  refine ⟨Consistent.tell, fun hw _ => hw.tell_agrees, fun hp => w.tell_paused ▸ hp, ?_, ?_⟩
  · intro k hk
    unfold tell
    split
    · simp [hk]
    · exact hk
  · intro k hk
    unfold tell
    split
    case isTrue htold =>
      right
      refine ⟨by simp [hk], ?_⟩
      simp_all
    case isFalse => exact Or.inl hk

lemma wake_onward (w : Watch) : w.Onward w.wake :=
  ⟨Consistent.wake, fun _ _ => rfl, fun hp => absurd hp Bool.false_ne_true, fun _ hk => hk,
    fun _ hk => Or.inl hk⟩

end Watch

instance Session.onward_isPreorder :
    IsPreorder Session fun s s' => s.watch.Onward s'.watch where
  refl s := .refl s.watch
  trans _ _ _ := .trans

/-! ## What each operation does to it -/

namespace Session

variable {s s' : Session}

lemma Notes.watch_eq {P : LogItem → Prop} (h : s.Notes P s') : s'.watch = s.watch := by
  obtain ⟨items, counts, rfl, -⟩ := h
  rfl

lemma updateIdle_watch (s : Session) : s.updateIdle.watch = s.watch.tell := by
  have hsame : (s.watch.paused && !s.watch.idle) = (s.isPaused && !s.idle) := rfl
  by_cases hcond : (s.isPaused && !s.idle) = true
  · rw [updateIdle, if_pos hcond, Watch.tell, hsame, if_pos hcond]
    rfl
  · rw [updateIdle, if_neg hcond, Watch.tell, hsame, if_neg hcond]

lemma isPaused_iff : s.isPaused = true ↔ ∀ e ∈ s.registry, e.timer = none := by
  simp only [isPaused, List.all_eq_true, Bool.not_eq_true', PartEntry.not_isPlaying_iff]

lemma arm_watch {e : PartEntry} (he : e ∈ s.registry) (part : Part) (event : Event)
    (routing onProcess : Option String) :
    (s.arm e part event routing onProcess).watch = s.watch.wake := by
  have hpaused : (s.arm e part event routing onProcess).isPaused = false := by
    rw [Bool.eq_false_iff, Ne, isPaused_iff]
    intro hall
    cases hall _ (mem_replaceEntry.mpr (Or.inl ⟨rfl, e, he, rfl⟩))
  rw [watch, hpaused]
  rfl

lemma disarm_watch (s : Session) : s.disarm.watch = s.watch.silence.tell := by
  rw [disarm, updateIdle_watch]
  congr 1
  refine congrArg (Watch.mk s.idle · s.waiters) (isPaused_iff.mpr fun e he => ?_)
  obtain ⟨e', -, rfl⟩ := List.mem_map.mp he
  rfl

/-- Without newcomers there is nothing to settle. -/
lemma settleWaiters_eq (h : s.watch.Consistent) : s.settleWaiters = s := by
  have hkept : (s.waiters.map fun w =>
      if w = .arrived then (if s.idle then .done else .waiting) else w) = s.waiters := by
    conv_rhs => rw [← List.map_id s.waiters]
    refine List.map_congr_left fun w hw => ?_
    rcases h.waiters w hw with rfl | ⟨rfl, -⟩
    · rfl
    · rfl
  rw [settleWaiters, hkept]

/-- In a session without orphans nothing plays exactly when no timer runs. -/
lemma WellTimed.isPaused_iff_timers (h : s.WellTimed) : s.isPaused = true ↔ s.timers = [] := by
  rw [isPaused_iff]
  constructor
  · intro hidle
    refine List.eq_nil_iff_forall_not_mem.mpr fun t ht => ?_
    obtain ⟨e, he, howns⟩ := h.owned_installed ht
    have htimer := howns.timer
    rw [hidle e he] at htimer
    cases htimer
  · exact fun hnil e he => h.timer_eq_none hnil he

/-- When a timer has gone off nothing plays exactly if it was the only one. -/
lemma WellTimed.ring_isPaused_iff (h : s.WellTimed) {t : Timer} {e : PartEntry}
    (ht : t ∈ s.timers) (he : e ∈ s.registry) (howns : e.Owns t) :
    (s.ring t e).isPaused = true ↔ s.timers = [t] := by
  have hring : (s.ring t e).WellTimed := ⟨h.toTimed.ring ht he howns, h.discarded_idle⟩
  rw [hring.isPaused_iff_timers]
  constructor
  · intro hnil
    have hsame : ∀ t' ∈ s.timers, t' = t := fun t' ht' =>
      h.timer_eq_of_serial ht' ht (by simpa using List.filter_eq_nil_iff.mp hnil t' ht')
    have hall := filter_eq_singleton (p := fun _ => true) h.timers_nodup.of_map ht rfl
      fun t' ht' _ => hsame t' ht'
    rwa [List.filter_true] at hall
  · intro hone
    simp [ring, hone]

end Session

section

variable (env : Environment) {s : Session}

open Session

lemma finish_watch (s : Session) (e : PartEntry) :
    (s.finish env e).watch = if s.endingFails env then s.watch else s.watch.tell := by
  have htold : (s.tellEnd e).watch = s.watch := by
    obtain ⟨counts, hs⟩ := s.tellEnd_eq e
    rw [hs]
    rfl
  by_cases hfails : s.endingFails env = true
  · rw [finish, if_pos hfails, if_pos hfails, htold]
  · rw [finish, if_neg hfails, if_neg hfails, updateIdle_watch, htold]

lemma halt_watch (onProcess : Option String) (s : Session) :
    (halt (handler env 0) onProcess s).1.watch = s.watch.silence.tell := by
  rw [(halt_notes env onProcess s).watch_eq, disarm_watch]

lemma prepare_watch (source : SoundSource) (shape : Option SourceShape) (texts : List String)
    (s : Session) :
    (prepare (handler env 0) source shape texts s).1.watch = s.watch.silence.tell := by
  have hhalted := halt_watch env none s
  have hcleared : (halt (handler env 0) none s).1.clear.watch = s.watch.silence.tell := by
    have hpaused : (halt (handler env 0) none s).1.isPaused = true :=
      (congrArg Watch.paused hhalted).trans (Watch.tell_paused _)
    rw [← hhalted]
    exact congrArg (Watch.mk _ · _) hpaused.symm
  rcases prepare_cases env source shape texts s with
    ⟨-, hs⟩ | ⟨-, e, -, hs⟩ | ⟨-, adapter, s', -, hnotes, ⟨e, hs⟩ | hs⟩
  · rw [hs, hhalted]
  · rw [hs, hcleared]
  · rw [hs, hnotes.watch_eq]
    exact hcleared
  · have hregistry : s'.registry = [] := hnotes.registry_eq
    have hinstalled := installParts_of_nil hregistry (installedParts_nodup s.policy texts)
    have hpaused : (s'.installParts
        (installedParts s.policy (outcomesFrom s.policy 0 texts))).isPaused = true := by
      rw [isPaused_iff, hinstalled]
      exact fun e he => (eq_of_mem_freshEntries he).2.2.1
    have hsame : (s'.installParts
        (installedParts s.policy (outcomesFrom s.policy 0 texts))).watch = s'.watch := by
      have hbefore : s'.isPaused = true := by simp [isPaused_iff, hregistry]
      rw [watch, watch, hpaused, hbefore, hinstalled]
    rw [hs, hsame, hnotes.watch_eq]
    exact hcleared

lemma play_onward (index : Nat) (routing onProcess : Option String) :
    (play (handler env 0) index routing onProcess).Leads fun s s' => s.watch.Onward s'.watch := by
  intro s
  rcases play_cases env index routing onProcess s with
    ⟨-, hs⟩ | ⟨e, -, -, -, -, -, hs⟩ | ⟨e, -, event, rest, hentry, -, -, -, hs⟩
  · rw [hs]
    exact Watch.Onward.refl _
  · rw [hs, finish_watch]
    split
    · exact Watch.Onward.refl _
    · exact Watch.tell_onward _
  · have harm := arm_watch (mem_of_entryAt? hentry).1 { e.part with queue := rest } event routing
      onProcess
    rw [hs.watch_eq]
    exact harm ▸ Watch.wake_onward _

/-! ## How the flag is lost and found -/

namespace Session

/-- The move that leaves those who wait behind: the only timer that runs fires, its part has no
event left, and the hook fails when it is told of the end. -/
def Strands (s : Session) : Move → Prop
  | .fire serial => ∃ t, s.timers = [t] ∧ t.serial = serial ∧ s.endingFails env = true ∧
      ∃ e ∈ s.registry, e.Owns t ∧ e.part.queue = []
  | _ => False

/-- To play an entry gets through to the flag: an event is left, or the hook does not fail. -/
def GetsThrough (s : Session) (e : PartEntry) : Prop :=
  s.adapter ≠ none ∧ (e.part.queue ≠ [] ∨ s.endingFails env = false)

/-- The moves that bring the flag up to date when nothing plays: every halt, also that of a
batch, and playing a part where that gets through to the flag. -/
def Refreshes (s : Session) : Move → Prop
  | .prepare _ _ shape => ∃ forced, forcedShape shape = .ok forced
  | .play part _ _ => ∃ e, s.entryNamed? part = some e ∧ s.GetsThrough env e
  | .playAll _ _ => ∃ e ∈ s.registry, (∀ e' ∈ s.registry, e.index ≤ e'.index) ∧ s.GetsThrough env e
  | .halt _ => True
  | _ => False

end Session

/-- After playing a part the flag agrees exactly if it did before or playing got through to it. -/
lemma play_agrees_iff {index : Nat} {e : PartEntry} (routing onProcess : Option String)
    (h : s.watch.Consistent) (hentry : s.entryAt? index = some e) :
    (play (handler env 0) index routing onProcess s).1.watch.Agrees ↔
      s.watch.Agrees ∨ s.GetsThrough env e := by
  rcases play_cases env index routing onProcess s with
    ⟨hskip, hs⟩ | ⟨e', adapter, hentry', hadapter, -, hqueue, hs⟩ |
    ⟨e', adapter, event, rest, hentry', hadapter, -, hqueue, hs⟩
  · rw [hs]
    refine ⟨Or.inl, fun hor => hor.elim id fun hgets => ?_⟩
    rcases hskip with hnone | hnone | ⟨e', hentry', hplaying⟩
    · rw [hentry] at hnone
      cases hnone
    · exact absurd hnone hgets.1
    · -- A part plays, and then the flag is right not to be set.
      by_contra hnot
      have hidle := isPaused_iff.mp (h.of_not_agrees hnot).2 e' (mem_of_entryAt? hentry').1
      rw [← PartEntry.not_isPlaying_iff, hplaying] at hidle
      cases hidle
  · rw [hentry] at hentry'
    cases hentry'
    rw [hs, finish_watch]
    by_cases hfails : s.endingFails env = true
    · simp [GetsThrough, hqueue, hfails]
    · have hgets : s.GetsThrough env e := ⟨by simp [hadapter], Or.inr (by simpa using hfails)⟩
      rw [if_neg hfails]
      exact ⟨fun _ => Or.inr hgets, fun _ => h.tell_agrees⟩
  · rw [hentry] at hentry'
    cases hentry'
    have hgets : s.GetsThrough env e := ⟨by simp [hadapter], Or.inl (by simp [hqueue])⟩
    have harm := arm_watch (mem_of_entryAt? hentry).1 { e.part with queue := rest } event routing
      onProcess
    rw [hs.watch_eq]
    exact ⟨fun _ => Or.inr hgets, fun _ => harm ▸ rfl⟩

/-- A play that does not get through to the flag ends with an error, if the part does not play. -/
lemma play_error_of_not_getsThrough {index : Nat} {e : PartEntry}
    (routing onProcess : Option String) (hentry : s.entryAt? index = some e)
    (hidle : e.isPlaying = false)
    (hnot : ¬ s.GetsThrough env e) :
    ∃ error, (play (handler env 0) index routing onProcess s).2 = some error := by
  rcases hadapter : s.adapter with _ | adapter
  · exact ⟨.noSource, by simp [play, hentry, hadapter]⟩
  rcases play_cases env index routing onProcess s with
    ⟨hskip, -⟩ | ⟨e', adapter, hentry', -, -, hqueue, hs⟩ |
    ⟨e', adapter, event, rest, hentry', -, -, hqueue, hs⟩
  · exfalso
    rcases hskip with hnone | hnone | ⟨e', hentry', hplaying⟩
    · rw [hentry] at hnone
      cases hnone
    · rw [hadapter] at hnone
      cases hnone
    · rw [hentry] at hentry'
      cases hentry'
      rw [hidle] at hplaying
      cases hplaying
  · rw [hentry] at hentry'
    cases hentry'
    have hfails : s.endingFails env = true := by
      by_contra hfails
      exact hnot ⟨by simp [hadapter], Or.inr (by simpa using hfails)⟩
    rw [hs, endingError?, if_pos hfails]
    exact ⟨_, rfl⟩
  · rw [hentry] at hentry'
    cases hentry'
    exact absurd ⟨by simp [hadapter], Or.inl (by simp [hqueue])⟩ hnot

/-- All parts are played one after another, one of the least index first. -/
lemma playAll_first (handle : Handler) (routing onProcess : Option String) (s : Session) :
    s.registry = [] ∧ playAll handle routing onProcess s = (s, none) ∨
      ∃ e ∈ s.registry, (∀ e' ∈ s.registry, e.index ≤ e'.index) ∧ ∃ rest,
        playAll handle routing onProcess s =
          Step.forEach (fun index => play handle index routing onProcess) (e.index :: rest) s := by
  set indices := (s.registry.map (·.index)).mergeSort (· ≤ ·) with hindices
  have hall : playAll handle routing onProcess s =
      Step.forEach (fun index => play handle index routing onProcess) indices s := rfl
  have hmem : ∀ i, i ∈ indices ↔ ∃ e ∈ s.registry, e.index = i := by
    intro i
    rw [hindices, List.mem_mergeSort, List.mem_map]
  have hsorted : indices.Pairwise (· ≤ ·) := by
    have hpairs : indices.Pairwise fun a b => decide (a ≤ b) = true :=
      List.pairwise_mergeSort (fun a b c => by simpa using Nat.le_trans)
        (fun a b => by simpa using Nat.le_total a b) _
    simpa using hpairs
  rcases indices with _ | ⟨i, rest⟩
  · left
    refine ⟨List.eq_nil_iff_forall_not_mem.mpr fun e he => ?_, hall⟩
    exact absurd ((hmem e.index).mpr ⟨e, he, rfl⟩) List.not_mem_nil
  · right
    obtain ⟨e, he, rfl⟩ := (hmem i).mp List.mem_cons_self
    refine ⟨e, he, fun e' he' => ?_, rest, hall⟩
    rcases List.mem_cons.mp ((hmem e'.index).mpr ⟨e', he', rfl⟩) with heq | hlater
    · exact Nat.le_of_eq heq.symm
    · exact List.rel_of_pairwise_cons hsorted hlater

/-- After playing all parts the flag agrees exactly if it did before or playing the first of them
got through to it. -/
lemma playAll_agrees_iff (routing onProcess : Option String) (h : s.watch.Consistent)
    (hwell : s.WellTimed) :
    (playAll (handler env 0) routing onProcess s).1.watch.Agrees ↔
      s.watch.Agrees ∨ ∃ e ∈ s.registry, (∀ e' ∈ s.registry, e.index ≤ e'.index) ∧
        s.GetsThrough env e := by
  rcases playAll_first (handler env 0) routing onProcess s with
    ⟨hnil, hs⟩ | ⟨e, he, hleast, rest, hs⟩
  · rw [hs]
    simp [hnil]
  · have hentry := hwell.entryAt?_of_mem he
    have hfirst : (∃ e ∈ s.registry, (∀ e' ∈ s.registry, e.index ≤ e'.index) ∧
        s.GetsThrough env e) ↔ s.GetsThrough env e := by
      refine ⟨fun ⟨e', he', hleast', hgets⟩ => ?_, fun hgets => ⟨e, he, hleast, hgets⟩⟩
      have hindex := Nat.le_antisymm (hleast e' he') (hleast' e he)
      rwa [List.inj_on_of_nodup_map hwell.indices he he' hindex]
    have hplay := play_agrees_iff env routing onProcess h hentry
    have honward := play_onward env e.index routing onProcess s
    rw [hfirst, ← hplay, hs, Step.forEach]
    constructor
    · intro hafter
      by_contra hnot
      -- The flag did not agree, so nothing played, and the first part ended it all with an error.
      have hneither := hplay.not.mp hnot
      rw [not_or] at hneither
      have hidle := isPaused_iff.mp (h.of_not_agrees hneither.1).2 e he
      obtain ⟨error, herror⟩ := play_error_of_not_getsThrough env routing onProcess hentry
        (e.not_isPlaying_iff.mpr hidle) hneither.2
      rw [Step.andThen_of_some herror] at hafter
      exact hnot hafter
    · intro hagrees
      rcases herror : (play (handler env 0) e.index routing onProcess s).2 with _ | error
      · rw [Step.andThen_of_none herror]
        have hlater := Step.Leads.forEach (l := rest)
          (fun index _ => play_onward env index routing onProcess)
          (play (handler env 0) e.index routing onProcess s).1
        exact hlater.agrees (honward.consistent h) hagrees
      · rw [Step.andThen_of_some herror]
        exact hagrees

/-! ## One move -/

/-- Whoever waits goes on waiting, or goes on because nothing played before or nothing plays now. -/
def Watch.Serves (w w' : Watch) : Prop :=
  ∀ k : Nat, w.waiters[k]? = some Waiter.waiting →
    w'.waiters[k]? = some Waiter.waiting ∨
      w'.waiters[k]? = some Waiter.done ∧ (w.paused = true ∨ w'.paused = true)

lemma Watch.Onward.serves {w w' : Watch} (h : w.Onward w') : w.Serves w' := by
  intro k hk
  rcases h.waiting k hk with hstill | ⟨hdone, hpaused⟩
  · exact Or.inl hstill
  · exact Or.inr ⟨hdone, Or.inl hpaused⟩

lemma Watch.silence_tell_serves (w : Watch) : w.Serves w.silence.tell := by
  intro k hk
  rcases w.silence.tell_onward.waiting k hk with hstill | ⟨hdone, -⟩
  · exact Or.inl hstill
  · exact Or.inr ⟨hdone, Or.inr (w.silence.tell_paused)⟩

/-- What a firing does: if no event is left the flag is brought up to date unless the hook fails,
and else a part plays. -/
lemma fire_watch (hwell : s.WellTimed) {t : Timer} {e : PartEntry} (ht : t ∈ s.timers)
    (he : e ∈ s.registry) (howns : e.Owns t) :
    (fire (handler env 0) t s).watch =
      if e.part.queue = [] then
        if s.endingFails env then (s.ring t e).watch else (s.ring t e).watch.tell
      else (s.ring t e).watch.wake := by
  obtain ⟨stopped, hstopped, hrest⟩ := fire_cases env hwell.toTimed ht he howns
  have hwatch : stopped.watch = (s.ring t e).watch := hstopped.watch_eq
  have hfails : stopped.endingFails env = s.endingFails env := by
    rw [endingFails, endingFails, hstopped.hooks_eq, hstopped.countOf_ended]
    rfl
  rcases hrest with ⟨hqueue, hfire⟩ | ⟨event, rest, hqueue, hfire⟩
  · rw [if_pos hqueue, hfire.watch_eq, finish_watch, hfails, hwatch]
  · have hmem : { e with timer := none } ∈ stopped.registry := by
      rw [hstopped.registry_eq]
      exact mem_ring he t
    rw [if_neg (by simp [hqueue]), hfire.watch_eq]
    exact (arm_watch hmem _ event t.routing t.onProcess).trans (congrArg Watch.wake hwatch)

lemma ring_consistent (h : s.watch.Consistent) (hplays : s.isPaused = false) (t : Timer)
    (e : PartEntry) : (s.ring t e).watch.Consistent ∧ (s.ring t e).idle = false := by
  have hidle : s.idle = false := by
    by_contra hset
    have hpaused : s.isPaused = true := h.paused (eq_true_of_ne_false hset)
    rw [hplays] at hpaused
    cases hpaused
  exact ⟨⟨fun hset => absurd (hidle.symm.trans hset) Bool.false_ne_true, h.waiters⟩, hidle⟩

/-- A firing strands those who wait if it is the last one, no event is left and the hook fails. -/
lemma strands_fire_iff (hwell : s.WellTimed) {t : Timer} {e : PartEntry} (ht : t ∈ s.timers)
    (he : e ∈ s.registry) (howns : e.Owns t) :
    s.Strands env (.fire t.serial) ↔
      e.part.queue = [] ∧ s.endingFails env = true ∧ s.timers = [t] := by
  constructor
  · rintro ⟨t', hone, -, hfails, e', he', howns', hqueue⟩
    have hsame : t = t' := List.mem_singleton.mp (hone ▸ ht)
    subst hsame
    rw [hwell.eq_of_serial (List.mem_append_left _ he) (List.mem_append_left _ he')
      (howns.serial.symm.trans howns'.serial)]
    exact ⟨hqueue, hfails, hone⟩
  · rintro ⟨hqueue, hfails, hone⟩
    exact ⟨t, hone, rfl, hfails, e, he, howns, hqueue⟩

/-- What a firing does to those who wait, and when it strands them. -/
lemma fire_strands (h : s.watch.Consistent) (hwell : s.WellTimed) {t : Timer} (ht : t ∈ s.timers) :
    (fire (handler env 0) t s).watch.Consistent ∧
      s.watch.Serves (fire (handler env 0) t s).watch ∧
      (¬ (fire (handler env 0) t s).watch.Agrees ↔ s.Strands env (.fire t.serial)) := by
  obtain ⟨e, he, howns⟩ := hwell.owned_installed ht
  have hplays : s.isPaused = false := by
    rw [Bool.eq_false_iff, Ne, hwell.isPaused_iff_timers]
    exact List.ne_nil_of_mem ht
  obtain ⟨hring, hidle⟩ := ring_consistent h hplays t e
  have honly := hwell.ring_isPaused_iff ht he howns
  have hstrands := strands_fire_iff env hwell ht he howns
  have hserves : ∀ w', (s.ring t e).watch.Onward w' → w'.paused = (s.ring t e).isPaused ∨
      w'.waiters = s.waiters → s.watch.Serves w' := by
    intro w' honward hcase k hk
    rcases honward.waiting k hk with hstill | ⟨hdone, hpaused⟩
    · exact Or.inl hstill
    · rcases hcase with heq | heq
      · exact Or.inr ⟨hdone, Or.inr (heq.trans hpaused)⟩
      · rw [heq]
        exact Or.inl hk
  rw [fire_watch env hwell ht he howns, hstrands]
  by_cases hqueue : e.part.queue = []
  · rw [if_pos hqueue]
    by_cases hfails : s.endingFails env = true
    · rw [if_pos hfails]
      refine ⟨hring, hserves _ (Watch.Onward.refl _) (Or.inl rfl), ?_⟩
      rw [← honly]
      simp [hqueue, hfails, Watch.Agrees, watch, hidle]
    · rw [if_neg hfails]
      refine ⟨hring.tell, hserves _ (Watch.tell_onward _) (Or.inl (Watch.tell_paused _)), ?_⟩
      simp [hring.tell_agrees, hfails]
  · rw [if_neg hqueue]
    refine ⟨hring.wake, hserves _ (Watch.wake_onward _) (Or.inr rfl), ?_⟩
    simp [hqueue, Watch.Agrees, Watch.wake]

/-- Whoever comes waits exactly if the flag is not set. -/
lemma move_wait_watch (h : s.watch.Consistent) :
    (s.move env 0 .wait).watch =
      ⟨s.idle, s.isPaused, s.waiters ++ [if s.idle then .done else .waiting]⟩ := by
  have hsettled := congrArg Session.waiters (settleWaiters_eq h)
  have hwaiters : (s.move env 0 .wait).waiters =
      s.waiters ++ [if s.idle then .done else .waiting] := by
    change (s.waiters ++ [Waiter.arrived]).map _ = _
    rw [List.map_append]
    exact congrArg (· ++ [if s.idle then .done else .waiting]) hsettled
  exact congrArg (Watch.mk s.idle s.isPaused) hwaiters

lemma move_pass_watch (time : Double) : (s.move env 0 (.pass time)).watch = s.watch := by
  rw [move, moveClock]
  split
  · rfl
  · rfl

/-- How a move leaves the flag and those who wait. -/
structure Session.KeepsWatch (s : Session) (m : Move) : Prop where
  consistent : (s.move env 0 m).watch.Consistent
  serves : s.watch.Serves (s.move env 0 m).watch
  /-- The flag does not agree after a move that strands those who wait, nor after one that leaves
  it as it was when it did not agree. -/
  strands : ¬ (s.move env 0 m).watch.Agrees ↔
    s.Strands env m ∨ ¬ s.watch.Agrees ∧ ¬ s.Refreshes env m

/-- A move that changes nothing of this, and of which nothing is said, may be made. -/
lemma keepsWatch_of_watch_eq {m : Move} (h : s.watch.Consistent)
    (hwatch : (s.move env 0 m).watch = s.watch) (hstrands : ¬ s.Strands env m)
    (hrefreshes : ¬ s.Refreshes env m) : s.KeepsWatch env m := by
  refine ⟨hwatch ▸ h, hwatch ▸ (Watch.Onward.refl _).serves, ?_⟩
  rw [hwatch]
  simp [hstrands, hrefreshes]

/-- After a halt the flag agrees, since nothing plays. -/
lemma keepsWatch_of_silence {m : Move} (h : s.watch.Consistent)
    (hwatch : (s.move env 0 m).watch = s.watch.silence.tell) (hstrands : ¬ s.Strands env m)
    (hrefreshes : s.Refreshes env m) : s.KeepsWatch env m := by
  refine ⟨hwatch ▸ h.silence.tell, hwatch ▸ Watch.silence_tell_serves _, ?_⟩
  rw [hwatch]
  simp [hstrands, hrefreshes, h.silence.tell_agrees]

/-- Where playing leads onward, the flag agrees if it did before or was brought up to date. -/
lemma keepsWatch_of_onward {m : Move} (h : s.watch.Consistent)
    (honward : s.watch.Onward (s.move env 0 m).watch) (hstrands : ¬ s.Strands env m)
    (hagrees : (s.move env 0 m).watch.Agrees ↔ s.watch.Agrees ∨ s.Refreshes env m) :
    s.KeepsWatch env m := by
  refine ⟨honward.consistent h, honward.serves, ?_⟩
  rw [hagrees]
  simp [hstrands]

lemma prepare_keepsWatch (h : s.watch.Consistent) (source : SoundSource) (texts : List String)
    (shape : Option String) : s.KeepsWatch env (.prepare source texts shape) := by
  rcases move_prepare env s source texts shape with ⟨⟨e, hshape⟩, hs⟩ | ⟨forced, hshape, hs⟩
  · refine keepsWatch_of_watch_eq env h ?_ id (by simp [Refreshes, hshape])
    rw [hs, settleWaiters_eq h]
  · have hwatch := prepare_watch env source forced texts s
    refine keepsWatch_of_silence env h ?_ id ⟨forced, hshape⟩
    rw [hs, settleWaiters_eq (hwatch ▸ h.silence.tell), hwatch]

lemma play_keepsWatch (h : s.watch.Consistent) (hwell : s.WellTimed) (part : PartName)
    (routing onProcess : Option String) : s.KeepsWatch env (.play part routing onProcess) := by
  rcases move_play env s part routing onProcess with ⟨hnone, hs⟩ | ⟨e, hentry, hs⟩
  · refine keepsWatch_of_watch_eq env h ?_ id (by simp [Refreshes, hnone])
    rw [hs, settleWaiters_eq h]
  · have honward := play_onward env e.index routing onProcess s
    have hat : s.entryAt? e.index = some e := by
      obtain ⟨index, -, hfound⟩ := Option.bind_eq_some_iff.mp hentry
      exact hwell.entryAt?_of_mem (mem_of_entryAt? hfound).1
    have hsettled := hs.trans (settleWaiters_eq (honward.consistent h))
    refine keepsWatch_of_onward env h ?_ id ?_
    · rw [hsettled]
      exact honward
    · rw [hsettled, play_agrees_iff env routing onProcess h hat]
      simp [Refreshes, hentry]

lemma playAll_keepsWatch (h : s.watch.Consistent) (hwell : s.WellTimed)
    (routing onProcess : Option String) : s.KeepsWatch env (.playAll routing onProcess) := by
  have honward : s.watch.Onward (playAll (handler env 0) routing onProcess s).1.watch :=
    Step.Leads.forEach (fun index _ => play_onward env index routing onProcess) s
  have hsettled := (move_playAll ..).trans (settleWaiters_eq (honward.consistent h))
  refine keepsWatch_of_onward env h ?_ id ?_
  · rw [hsettled]
    exact honward
  · rw [hsettled, playAll_agrees_iff env routing onProcess h hwell]
    rfl

lemma halt_keepsWatch (h : s.watch.Consistent) (onProcess : Option String) :
    s.KeepsWatch env (.halt onProcess) := by
  have hwatch := halt_watch env onProcess s
  refine keepsWatch_of_silence env h ?_ id trivial
  rw [move_halt, settleWaiters_eq (hwatch ▸ h.silence.tell), hwatch]

/-- Whoever comes does not disturb those who wait. -/
lemma wait_keepsWatch (h : s.watch.Consistent) : s.KeepsWatch env .wait := by
  have hwatch := move_wait_watch env h
  constructor
  case consistent =>
    rw [hwatch]
    refine ⟨h.paused, fun x hx => ?_⟩
    rcases List.mem_append.mp hx with hx | hx
    · exact h.waiters x hx
    · rw [List.mem_singleton.mp hx]
      rcases hidle : s.idle with _ | _
      · exact Or.inr ⟨rfl, rfl⟩
      · exact Or.inl rfl
  case serves =>
    rw [hwatch]
    intro k hk
    exact Or.inl ((List.getElem?_append_left (List.getElem?_eq_some_iff.mp hk).1).trans hk)
  case strands =>
    have hsame : (s.move env 0 .wait).watch.Agrees ↔ s.watch.Agrees := by
      rw [hwatch]
      exact Iff.rfl
    rw [hsame]
    simp [Strands, Refreshes]

/-- Where a timer runs the flag agrees, so only the firing itself can strand those who wait. -/
lemma fire_keepsWatch (h : s.watch.Consistent) (hwell : s.WellTimed) (serial : Nat) :
    s.KeepsWatch env (.fire serial) := by
  rcases ht : s.timerOf? serial with _ | t
  · have hstays : s.move env 0 (.fire serial) = s := by
      rw [move, ht]
      rfl
    refine keepsWatch_of_watch_eq env h (congrArg Session.watch hstays) ?_ id
    rintro ⟨t, hone, rfl, -⟩
    simp [timerOf?, hone] at ht
  · obtain ⟨hmem, rfl⟩ := mem_of_timerOf? ht
    have hmove : s.move env 0 (.fire t.serial) = fire (handler env 0) t s := by
      rw [move, ht]
      rfl
    have hagrees : s.watch.Agrees := by
      by_contra hnot
      have hnone := hwell.isPaused_iff_timers.mp (h.of_not_agrees hnot).2
      rw [hnone] at hmem
      cases hmem
    obtain ⟨hconsistent, hserves, hstrands⟩ := fire_strands env h hwell hmem
    rw [← hmove] at hconsistent hserves hstrands
    exact ⟨hconsistent, hserves, by simp [hstrands, hagrees]⟩

/-- What a move does to those who wait, and after which moves the flag does not agree. -/
lemma move_keepsWatch (h : s.watch.Consistent) (hwell : s.WellTimed) (m : Move) :
    s.KeepsWatch env m := by
  cases m with
  | prepare source texts shape => exact prepare_keepsWatch env h source texts shape
  | play part routing onProcess => exact play_keepsWatch env h hwell part routing onProcess
  | playAll routing onProcess => exact playAll_keepsWatch env h hwell routing onProcess
  | halt onProcess => exact halt_keepsWatch env h onProcess
  | install hooks =>
      have hs : s.move env 0 (.install hooks) = ({ s with hooks := hooks } : Session) :=
        settleWaiters_eq (s := { s with hooks := hooks }) h
      have hwatch : (s.move env 0 (.install hooks)).watch = s.watch := by
        rw [hs]
        rfl
      exact keepsWatch_of_watch_eq env h hwatch id id
  | wait => exact wait_keepsWatch env h
  | fire serial => exact fire_keepsWatch env h hwell serial
  | pass time => exact keepsWatch_of_watch_eq env h (move_pass_watch env time) id id

end

/-! ## Every run -/

/-- A run after which someone who waits is left behind: its last move strands those who wait, or
it went so before and the last move does not bring the flag up to date. -/
inductive Stranded (env : Environment) (depth : Nat) (start : Session) : List Move → Prop
  | strands {moves : List Move} {m : Move} :
    (start.after env depth moves).Strands env m → Stranded env depth start (moves ++ [m])
  | remains {moves : List Move} {m : Move} : Stranded env depth start moves →
    ¬ (start.after env depth moves).Refreshes env m → Stranded env depth start (moves ++ [m])

lemma stranded_concat {env : Environment} {depth : Nat} {start : Session} {moves : List Move}
    {m : Move} : Stranded env depth start (moves ++ [m]) ↔
      (start.after env depth moves).Strands env m ∨
        Stranded env depth start moves ∧ ¬ (start.after env depth moves).Refreshes env m := by
  constructor
  · intro h
    generalize hall : moves ++ [m] = all at h
    cases h with
    | strands h =>
        obtain ⟨rfl, rfl⟩ := List.append_inj' hall rfl |>.imp id (fun h => List.singleton_inj.mp h)
        exact Or.inl h
    | remains h hnot =>
        obtain ⟨rfl, rfl⟩ := List.append_inj' hall rfl |>.imp id (fun h => List.singleton_inj.mp h)
        exact Or.inr ⟨h, hnot⟩
  · rintro (h | ⟨h, hnot⟩)
    · exact .strands h
    · exact .remains h hnot

lemma after_watch {env : Environment} (passive : env.IsPassive) (depth : Nat) (hooks : Hooks)
    (policy : ErrorPolicy) (moves : List Move) :
    ((Session.initial hooks policy).after env depth moves).watch.Consistent ∧
      (¬ ((Session.initial hooks policy).after env depth moves).watch.Agrees ↔
        Stranded env depth (Session.initial hooks policy) moves) := by
  induction moves using List.reverseRecOn with
  | nil =>
      refine ⟨⟨fun _ => rfl, fun x hx => absurd hx List.not_mem_nil⟩, ?_⟩
      refine ⟨fun hnot => absurd rfl hnot, fun h => ?_⟩
      generalize hnil : ([] : List Move) = none at h
      cases h <;> simp at hnil
  | append_singleton moves m ih =>
      have hwell := after_wellTimed passive depth hooks policy moves
      obtain ⟨hconsistent, -, hagrees⟩ := move_keepsWatch env ih.1 hwell m
      rw [Session.after_concat, Session.move_depth passive]
      exact ⟨hconsistent, by rw [hagrees, stranded_concat, ih.2]⟩

/-- **Those who wait.**  After every run, wherever calls failed in it: the flag is not set while a
part plays; it is unset although nothing plays exactly if the run left those who wait behind; and
whoever waits does so because the flag is not set.  With any further move someone who waits goes
on only if nothing played before it or nothing plays after it. -/
theorem idle_ne_isPaused_iff_stranded (env : Environment) (depth : Nat) (passive : env.IsPassive)
    (hooks : Hooks) (policy : ErrorPolicy) (moves : List Move) :
    let start := Session.initial hooks policy
    let s := start.after env depth moves
    (s.idle = true → s.isPaused = true) ∧
    (s.idle ≠ s.isPaused ↔ Stranded env depth start moves) ∧
    (∀ w ∈ s.waiters, w = .done ∨ w = .waiting ∧ s.idle = false) ∧
    ∀ m, ∀ k : Nat, s.waiters[k]? = some Waiter.waiting →
      let s' := s.move env depth m
      s'.waiters[k]? = some Waiter.waiting ∨
        s'.waiters[k]? = some Waiter.done ∧ (s.isPaused = true ∨ s'.isPaused = true) := by
  intro start s
  obtain ⟨hconsistent, hstranded⟩ := after_watch passive depth hooks policy moves
  have hwell := after_wellTimed passive depth hooks policy moves
  refine ⟨hconsistent.paused, hstranded, hconsistent.waiters, fun m => ?_⟩
  rw [Session.move_depth passive]
  exact (move_keepsWatch env hconsistent hwell m).serves

/-- The hook fails when it is told that the only part has ended.  Nothing plays then, and someone
still waits. -/
theorem waiter_stranded_when_hook_fails :
    (Environment.failing [.ended]).IsPassive ∧
      let env := Environment.failing [.ended]
      let start := Session.initial .all .abort
      let moves : List Move :=
        [.prepare (.generators 1 "list") ["T60 O4 C4"] none, .play (.ofIndex 0) none none, .wait,
          .fire 1]
      let s := start.after env 0 moves
      (s.idle, s.isPaused, s.waiters) = (false, true, [.waiting]) ∧
        (s.idle = true → s.isPaused = true) ∧
        (s.idle ≠ s.isPaused ↔ Stranded env 0 start moves) ∧
        (∀ w ∈ s.waiters, w = .done ∨ w = .waiting ∧ s.idle = false) ∧
        ∀ m, ∀ k : Nat, s.waiters[k]? = some Waiter.waiting →
          let s' := s.move env 0 m
          s'.waiters[k]? = some Waiter.waiting ∨
            s'.waiters[k]? = some Waiter.done ∧ (s.isPaused = true ∨ s'.isPaused = true) :=
  ⟨Environment.failing_isPassive _, by decide +kernel,
    idle_ne_isPaused_iff_stranded _ 0 (Environment.failing_isPassive _) _ _ _⟩

end MusicMacro
