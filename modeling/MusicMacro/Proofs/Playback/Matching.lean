import MusicMacro.Proofs.Notation.Batch
import MusicMacro.Proofs.Playback.Timers

/-!
# Timers and playing parts

Where no command is given during a call, the running timers and the installed parts that play
belong to each other, one to one, in every session between two moves and wherever calls fail
(`timers_match_playing_parts`).  Beside what holds in any case (`Session.Timed`) this needs that no
part is discarded while it plays: a batch is halted before it is discarded, and between the two
there are only calls (`prepare_cases`).
-/

namespace MusicMacro

variable (env : Environment)

open Session

/-! ## A timer that fires -/

/-- The timer of a part fires: it goes off, its event is stopped, and then the part is finished, or
it is armed and its next event is started. -/
lemma fire_cases {s : Session} (h : s.Timed) {t : Timer} {e : PartEntry} (ht : t ∈ s.timers)
    (he : e ∈ s.registry) (howns : e.Owns t) :
    ∃ stopped, ((s.ring t e).record (.dispatched t.due e.index e.serial s.adapters false
        t.event)).Notes (LogItem.IsAside e.index) stopped ∧
      ((e.part.queue = [] ∧ (stopped.finish env { e with timer := none }).Notes
          (LogItem.IsAside e.index) (fire (handler env 0) t s)) ∨
        ∃ event rest, e.part.queue = event :: rest ∧
          ((stopped.arm { e with timer := none } { e.part with queue := rest } event t.routing
            t.onProcess).record (.dispatched t.due e.index e.serial s.adapters true event)).Notes
              (LogItem.IsAside e.index) (fire (handler env 0) t s)) := by
  have hring := h.ring ht he howns
  obtain ⟨adapter, hadapter⟩ : ∃ adapter, s.adapter = some adapter :=
    Option.ne_none_iff_exists'.mp (h.sourced (List.ne_nil_of_mem ht))
  have hstopped := stopEvent_notes env (s := s.ring t e) hadapter e.index e.serial t.event
    t.onProcess
  set stopped := (stopEvent (handler env 0) e.index e.serial t.event t.onProcess
    (s.ring t e)).1 with hdef
  refine ⟨stopped, hstopped, ?_⟩
  have hentry := h.entryAt?_of_owns he howns
  have hfire : (play (handler env 0) e.index t.routing t.onProcess stopped).1.Notes
      (LogItem.IsAside e.index) (fire (handler env 0) t s) := by
    rw [fire_eq_ring hentry howns.serial.symm howns.isPlaying]
    exact escape_notes e.index _ _
  -- The entry is found again where it was, now without a timer.
  have hfound : stopped.entryAt? e.index = some { e with timer := none } := by
    rw [hstopped.eq_log]
    exact hring.entryAt?_of_mem (mem_ring he t)
  have hsource : stopped.adapter = some adapter := by rw [hstopped.eq_log]; exact hadapter
  have hnumber : stopped.adapters = s.adapters := by rw [hstopped.eq_log]; rfl
  have hclock : stopped.clock = t.due := by rw [hstopped.eq_log]; rfl
  rcases play_cases env e.index t.routing t.onProcess stopped with
    ⟨hidle, -⟩ | ⟨entry, -, hentry', -, -, hqueue, hs⟩ |
    ⟨entry, -, event, rest, hentry', -, -, hqueue, hs⟩
  · exfalso
    rcases hidle with hnone | hnone | ⟨entry, hentry', hplaying⟩
    · rw [hfound] at hnone
      cases hnone
    · rw [hsource] at hnone
      cases hnone
    · rw [hfound] at hentry'
      cases hentry'
      cases hplaying
  · rw [hfound] at hentry'
    cases hentry'
    rw [hs] at hfire
    exact Or.inl ⟨hqueue, hfire⟩
  · rw [hfound] at hentry'
    cases hentry'
    rw [hclock, hnumber] at hs
    exact Or.inr ⟨event, rest, hqueue, hs.trans hfire⟩

/-! ## Discarded parts do not play -/

/-- Timers go with entries, and discarded entries have none. -/
structure Session.WellTimed (s : Session) : Prop extends Session.Timed s where
  discarded_idle : ∀ e ∈ s.discarded, e.timer = none

/-- Every timer belongs to an installed entry. -/
lemma Session.WellTimed.owned_installed {s : Session} (h : s.WellTimed) {t : Timer}
    (ht : t ∈ s.timers) : ∃ e ∈ s.registry, e.Owns t := by
  obtain ⟨e, he, howns⟩ := h.owned t ht
  rcases List.mem_append.mp he with he | he
  · exact ⟨e, he, howns⟩
  · have hnone := howns.timer
    rw [h.discarded_idle e he] at hnone
    cases hnone

lemma Session.WellTimed.orphans_eq {s : Session} (h : s.WellTimed) : s.orphans = [] := by
  refine List.eq_nil_iff_forall_not_mem.mpr fun t ht => ?_
  obtain ⟨hmem, horphan⟩ := mem_orphans.mp ht
  obtain ⟨e, he, howns⟩ := h.owned_installed hmem
  exact horphan e he howns.serial.symm

lemma play_discarded (index : Nat) (routing onProcess : Option String) (l : List PartEntry) :
    (play (handler env 0) index routing onProcess).Keeps (·.discarded = l) := by
  rintro s rfl
  rcases play_cases env index routing onProcess s with
    ⟨-, hs⟩ | ⟨e, -, -, -, -, -, hs⟩ | ⟨e, -, event, rest, -, -, -, -, hs⟩
  · rw [hs]
  · obtain ⟨counts, idle, waiters, hfinish⟩ := s.finish_eq env e
    rw [hs, hfinish]
  · rw [hs.eq_log]
    rfl

lemma halt_discarded (onProcess : Option String) (s : Session) :
    (halt (handler env 0) onProcess s).1.discarded = s.discarded := by
  obtain ⟨idle, waiters, hdisarm⟩ := s.disarm_eq
  rw [(halt_notes env onProcess s).eq_log, hdisarm]

/-- After a halt no installed entry has a timer. -/
lemma halt_idle (onProcess : Option String) {s : Session} (h : s.Timed) :
    ∀ e ∈ (halt (handler env 0) onProcess s).1.registry, e.timer = none := by
  have hnotes := halt_notes env onProcess s
  obtain ⟨idle, waiters, hdisarm⟩ := h.disarm_eq
  rw [hnotes.registry_eq, hdisarm]
  intro e he
  obtain ⟨e', -, rfl⟩ := List.mem_map.mp he
  rfl

lemma prepare_discarded_idle (source : SoundSource) (shape : Option SourceShape)
    (texts : List String) {s : Session} (h : s.WellTimed) :
    ∀ e ∈ (prepare (handler env 0) source shape texts s).1.discarded, e.timer = none := by
  have hcleared : ∀ e ∈ (halt (handler env 0) none s).1.clear.discarded, e.timer = none := by
    intro e he
    rcases List.mem_append.mp he with he | he
    · exact halt_idle env none h.toTimed e he
    · rw [halt_discarded] at he
      exact h.discarded_idle e he
  rcases prepare_cases env source shape texts s with
    ⟨-, hs⟩ | ⟨-, e, -, hs⟩ | ⟨-, adapter, s', -, hnotes, ⟨e, hs⟩ | hs⟩
  · rw [hs, halt_discarded]
    exact h.discarded_idle
  · rw [hs]
    exact hcleared
  · rw [hs, hnotes.eq_log]
    exact hcleared
  · have hnone : s'.registry = [] := by rw [hnotes.registry_eq]; rfl
    rw [hs, installParts_of_nil hnone (installedParts_nodup s.policy texts), hnotes.eq_log]
    exact hcleared

lemma fire_discarded {s : Session} (h : s.Timed) {t : Timer} (ht : t ∈ s.timers) :
    (fire (handler env 0) t s).discarded = s.discarded := by
  rcases h.orphan_or_owned ht with horphan | ⟨e, he, howns⟩
  · rw [fire_of_isStale ((h.isStale_iff ht).mpr horphan)]
    rfl
  · obtain ⟨stopped, hstopped, hrest⟩ := fire_cases env h ht he howns
    have hsame : stopped.discarded = s.discarded := by rw [hstopped.eq_log]; rfl
    rcases hrest with ⟨-, hfire⟩ | ⟨event, rest, -, hfire⟩
    · obtain ⟨counts, idle, waiters, hfinish⟩ := stopped.finish_eq env { e with timer := none }
      rw [hfire.eq_log, hfinish]
      exact hsame
    · rw [hfire.eq_log]
      exact hsame

lemma move_wellTimed (m : Move) (s : Session) (h : s.WellTimed) : (s.move env 0 m).WellTimed := by
  refine ⟨move_keeps timed_invariant env 0 m h.toTimed, ?_⟩
  refine move_elim env (Q := fun s' => ∀ e ∈ s'.discarded, e.timer = none) h.discarded_idle
    (fun _ _ _ _ hkept => hkept) ?prepares ?plays ?playsAll ?halts ?fires
  case prepares =>
    intro source texts shape forced _ _
    exact prepare_discarded_idle env source forced texts h
  case plays =>
    intro part routing onProcess index _
    rw [play_discarded env index routing onProcess _ s rfl]
    exact h.discarded_idle
  case playsAll =>
    intro routing onProcess _
    have hall : (playAll (handler env 0) routing onProcess).Keeps (·.discarded = s.discarded) :=
      Step.Leads.given fun _ => Step.Leads.forEach fun index _ =>
        play_discarded env index routing onProcess _
    rw [hall s rfl]
    exact h.discarded_idle
  case halts =>
    intro onProcess _
    rw [halt_discarded env onProcess s]
    exact h.discarded_idle
  case fires =>
    intro t ht _
    rw [fire_discarded env h.toTimed ht]
    exact h.discarded_idle

variable {env} in
/-- Timers and playing parts belong to each other after every run. -/
lemma after_wellTimed (passive : env.IsPassive) (depth : Nat) (hooks : Hooks) (policy : ErrorPolicy)
    (moves : List Move) : ((initial hooks policy).after env depth moves).WellTimed := by
  refine after_keeps (fun m _ s h => ?_) ?_
  · rw [move_depth passive]
    exact move_wellTimed env m s h
  · exact ⟨after_timed env depth hooks policy [], fun e he => absurd he List.not_mem_nil⟩

/-! ## One timer for each part that plays -/

/-- A member of a list without repetitions is all that a filter leaves that no other passes. -/
lemma filter_eq_singleton {α : Type} {l : List α} {p : α → Bool} {a : α} (hl : l.Nodup)
    (ha : a ∈ l) (hp : p a = true) (honly : ∀ b ∈ l, p b = true → b = a) : l.filter p = [a] := by
  have hall : ∀ b ∈ l.filter p, b = a := by
    intro b hb
    obtain ⟨hmem, hpb⟩ := List.mem_filter.mp hb
    exact honly b hmem hpb
  have hrep : l.filter p = List.replicate (l.filter p).length a :=
    List.eq_replicate_of_mem hall
  have hle : (l.filter p).length ≤ 1 := by
    rw [← List.nodup_replicate (a := a), ← hrep]
    exact hl.filter p
  have hpos : 0 < (l.filter p).length :=
    List.length_pos_of_mem (List.mem_filter.mpr ⟨ha, hp⟩)
  rw [hrep, Nat.le_antisymm hle hpos]
  rfl

/-- No other timer was set for the entry of a timer. -/
lemma Session.Timed.timers_of_owner {s : Session} (h : s.Timed) {t : Timer} {e : PartEntry}
    (he : e ∈ s.entries) (ht : t ∈ s.timers) (howns : e.Owns t) :
    s.timers.filter (·.entry = e.serial) = [t] := by
  refine filter_eq_singleton h.timers_nodup.of_map ht (by simp [howns.serial]) ?_
  intro t' ht' hentry
  have htimer := (h.owns_of_serial ht' he (of_decide_eq_true hentry).symm).timer
  rw [howns.timer] at htimer
  exact h.timer_eq_of_serial ht' ht (Option.some.inj htimer).symm

namespace Session.Timed

variable {s : Session}

/-- The only timer that was set for an entry that plays is the one it names. -/
lemma timers_of_playing (h : s.Timed) {e : PartEntry} (he : e ∈ s.registry)
    (hplaying : e.isPlaying = true) :
    ∃ t, s.timers.filter (·.entry = e.serial) = [t] ∧ e.Owns t := by
  obtain ⟨t, ht, howns⟩ := h.owner_of_isPlaying he hplaying
  exact ⟨t, h.timers_of_owner (List.mem_append_left _ he) ht howns, howns⟩

/-- No timer was set for an entry that does not play. -/
lemma timers_of_idle (h : s.Timed) {e : PartEntry} (he : e ∈ s.registry)
    (hidle : e.isPlaying = false) : s.timers.filter (·.entry = e.serial) = [] := by
  refine List.filter_eq_nil_iff.mpr fun t ht hentry => ?_
  have howns := h.owns_of_serial ht (List.mem_append_left _ he) (of_decide_eq_true hentry).symm
  have htimer := howns.timer
  rw [e.not_isPlaying_iff.mp hidle] at htimer
  cases htimer

end Session.Timed

namespace Session.WellTimed

variable {s : Session}

/-- The only entry that a timer can have been set for is installed and names it. -/
lemma entries_of_timer (h : s.WellTimed) {t : Timer} (ht : t ∈ s.timers) :
    ∃ e, s.entries.filter (·.serial = t.entry) = [e] ∧ e ∈ s.registry ∧ e.Owns t := by
  obtain ⟨e, he, howns⟩ := h.owned_installed ht
  refine ⟨e, filter_eq_singleton h.serials.of_map (List.mem_append_left _ he)
    (by simp [howns.serial]) ?_, he, howns⟩
  intro e' he' hserial
  exact List.inj_on_of_nodup_map h.serials he' (List.mem_append_left _ he)
    ((of_decide_eq_true hserial).trans howns.serial)

lemma not_isStale (h : s.WellTimed) {t : Timer} (ht : t ∈ s.timers) : ¬ s.IsStale t := by
  rw [h.isStale_iff ht, h.orphans_eq]
  exact List.not_mem_nil

end Session.WellTimed

/-- **Timers and parts.**  After every run, wherever calls failed in it, each part that plays has
exactly one running timer, which was set for it, its index and the event it is at; a part that
does not play has none; and each running timer was set for exactly one entry, which is installed.
So no timer is ever stale. -/
theorem timers_match_playing_parts (env : Environment) (depth : Nat) (passive : env.IsPassive)
    (hooks : Hooks) (policy : ErrorPolicy) (moves : List Move) :
    let s := (Session.initial hooks policy).after env depth moves
    (∀ e ∈ s.registry, e.isPlaying = true →
      ∃ t, s.timers.filter (·.entry = e.serial) = [t] ∧ e.Owns t) ∧
    (∀ e ∈ s.registry, e.isPlaying = false → s.timers.filter (·.entry = e.serial) = []) ∧
    (∀ t ∈ s.timers, ∃ e, s.entries.filter (·.serial = t.entry) = [e] ∧ e ∈ s.registry ∧
      e.Owns t) ∧
    ∀ t ∈ s.timers, ¬ s.IsStale t := by
  intro s
  have h : s.WellTimed := after_wellTimed passive depth hooks policy moves
  exact ⟨fun e he => h.timers_of_playing he, fun e he => h.timers_of_idle he,
    fun t ht => h.entries_of_timer ht, fun t ht => h.not_isStale ht⟩

/-- Two parts, the first of which has gone on to its second event although its stop failed. -/
theorem timers_match_when_stops_fail :
    (Environment.failing [.stopGenerator]).IsPassive ∧
      let s := (Session.initial .all .abort).after (.failing [.stopGenerator]) 0
        [.prepare (.generators 1 "list") ["T60 O4 C4 D4", "T60 O3 C1"] none,
          .play (.ofIndex 0) none none, .play (.ofIndex 1) none none, .fire 2]
      s.registry.map (·.isPlaying) = [true, true] ∧ s.timers.map (·.entry) = [1, 0] ∧
        (∀ e ∈ s.registry, e.isPlaying = true →
          ∃ t, s.timers.filter (·.entry = e.serial) = [t] ∧ e.Owns t) ∧
        (∀ e ∈ s.registry, e.isPlaying = false → s.timers.filter (·.entry = e.serial) = []) ∧
        (∀ t ∈ s.timers, ∃ e, s.entries.filter (·.serial = t.entry) = [e] ∧ e ∈ s.registry ∧
          e.Owns t) ∧
        ∀ t ∈ s.timers, ¬ s.IsStale t :=
  ⟨Environment.failing_isPassive _, by decide +kernel, by decide +kernel,
    timers_match_playing_parts _ 0 (Environment.failing_isPassive _) _ _ _⟩

end MusicMacro
