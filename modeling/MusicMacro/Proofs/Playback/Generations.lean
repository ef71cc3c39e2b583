import MusicMacro.Proofs.Playback.Timers

/-!
# Which part a timer plays on

When the timer of a part fires, the event of the part is stopped, and then the part that stands at
its index goes on.  What is called back while the event is stopped may change the parts, so the
two need not be the same: a batch that is prepared then puts parts of its own in place of the old
ones, and one of these is started by a timer that was never set for it.

`generations_mix_iff_discarded` says that this is the only way.  The event that is taken belongs
to the entry of the timer exactly if that entry is still installed when its event has been
stopped; if it is not, the event belongs to an entry that was made meanwhile, and a batch was
prepared.
-/

namespace MusicMacro

open Session

/-! ## Where a part goes on -/

/-- The timer of the entry has gone off and its event has been stopped, with all that was called
back then.  In this session the part goes on. -/
def Session.resumed (s : Session) (handle : Handler) (t : Timer) (e : PartEntry) : Session :=
  (stopEvent handle e.index e.serial t.event t.onProcess (s.ring t e)).1

/-- When a timer of an installed entry fires, the part at its index is played in the session after
its event was stopped. -/
lemma fire_eq_resumed {s : Session} (h : s.Timed) {t : Timer} {e : PartEntry} (he : e ∈ s.registry)
    (howns : e.Owns t) (handle : Handler) :
    ∃ error, fire handle t s =
      (play handle t.index t.routing t.onProcess (s.resumed handle t e)).1.escape error := by
  rw [fire_eq_ring (h.entryAt?_of_owns he howns) howns.serial.symm howns.isPlaying, playOn,
    Step.andAlways_fst, howns.index]
  exact ⟨_, rfl⟩

/-! ## Where entries come from -/

/-- The later session has only entries that were installed before or were made since. -/
structure Session.Descends (s s' : Session) : Prop where
  created : s.created ≤ s'.created
  installed : ∀ x ∈ s'.registry, s.created ≤ x.serial ∨
    ∃ y ∈ s.registry, y.serial = x.serial ∧ y.index = x.index

instance Session.descends_isPreorder : IsPreorder Session Session.Descends where
  refl s := ⟨Nat.le_refl _, fun x hx => Or.inr ⟨x, hx, rfl, rfl⟩⟩
  trans a b c hab hbc := by
    refine ⟨Nat.le_trans hab.created hbc.created, fun x hx => ?_⟩
    rcases hbc.installed x hx with hnew | ⟨y, hy, hserial, hindex⟩
    · exact Or.inl (Nat.le_trans hab.created hnew)
    · rw [← hserial, ← hindex]
      exact hab.installed y hy

/-- An entry that is changed keeps its number and its index. -/
lemma Session.replaceEntry_descends {s s' : Session} {x y : PartEntry} (hy : y ∈ s.registry)
    (hserial : y.serial = x.serial) (hindex : y.index = x.index)
    (hregistry : s'.registry = (s.replaceEntry x).registry) (hcreated : s.created ≤ s'.created) :
    s.Descends s' := by
  refine ⟨hcreated, fun z hz => Or.inr ?_⟩
  rw [hregistry] at hz
  rcases mem_replaceEntry.mp hz with ⟨rfl, -⟩ | ⟨hz, -⟩
  · exact ⟨y, hy, hserial, hindex⟩
  · exact ⟨z, hz, rfl, rfl⟩

lemma Session.SameParts.descends {s s' : Session} (h : s.SameParts s') : s.Descends s' := by
  refine ⟨Nat.le_of_eq h.created.symm, fun x hx => Or.inr ⟨x, ?_, rfl, rfl⟩⟩
  rwa [h.registry] at hx

/-- No entry comes back once it is discarded, whatever is called back. -/
lemma descends_guarantee : Guarantee Session.Descends where
  same := fun hsame => hsame.toSameParts.descends
  record := fun _ _ _ => SameParts.descends ⟨rfl, rfl, rfl, rfl, rfl, rfl⟩
  call := fun _ _ _ => SameParts.descends ⟨rfl, rfl, rfl, rfl, rfl, rfl⟩
  arm := by
    intro s e event rest _ _ he _ _ _
    exact replaceEntry_descends
      (x := { e with
        part := { e.part with queue := rest }, timer := some s.created, lastEvent := some event })
      he rfl rfl rfl (Nat.le_succ _)
  ring := by
    intro s t e _ he _ _
    exact replaceEntry_descends (x := { e with timer := none }) he rfl rfl rfl (Nat.le_refl _)
  drop := fun _ _ => ⟨Nat.le_refl _, fun x hx => Or.inr ⟨x, hx, rfl, rfl⟩⟩
  disarm := by
    intro s
    obtain ⟨idle, waiters, hs⟩ := s.disarm_eq
    rw [hs]
    refine ⟨Nat.le_refl _, fun x hx => Or.inr ?_⟩
    obtain ⟨y, hy, rfl⟩ := List.mem_map.mp hx
    exact ⟨y, hy, rfl, rfl⟩
  reply := fun _ _ _ => SameParts.descends ⟨rfl, rfl, rfl, rfl, rfl, rfl⟩
  clear := fun _ => ⟨Nat.le_refl _, fun _ hx => absurd hx List.not_mem_nil⟩
  adopt := fun _ _ => ⟨Nat.le_refl _, fun x hx => Or.inr ⟨x, hx, rfl, rfl⟩⟩
  install := by
    intro s index events
    obtain ⟨registry, discarded, hs⟩ := s.installPart_eq index events
    refine ⟨by rw [hs]; exact Nat.le_succ _, fun x hx => ?_⟩
    rcases eq_or_mem_of_installPart hx with rfl | hx
    · exact Or.inl (Nat.le_refl _)
    · exact Or.inr ⟨x, hx, rfl, rfl⟩

/-! ## Parts stay unless a batch is prepared -/

/-- The item tells that a batch was prepared during a call. -/
def LogItem.IsPreparation : LogItem → Prop
  | .answered command _ => command.IsPrepare
  | _ => False

/-- The log has grown, and if no batch was prepared meanwhile the same entries are installed. -/
def Session.Stays (s s' : Session) : Prop :=
  ∃ items, s'.log = items ++ s.log ∧
    ((∀ item ∈ items, ¬ item.IsPreparation) →
      s'.registry.map (·.serial) = s.registry.map (·.serial))

instance Session.stays_isPreorder : IsPreorder Session Session.Stays where
  refl s := ⟨[], rfl, fun _ => rfl⟩
  trans := by
    rintro a b c ⟨first, hb, hfirst⟩ ⟨later, hc, hlater⟩
    refine ⟨later ++ first, by rw [hc, hb, List.append_assoc], fun hnone => ?_⟩
    rw [hlater fun item hi => hnone item (List.mem_append_left _ hi),
      hfirst fun item hi => hnone item (List.mem_append_right _ hi)]

lemma stays_of_append {s s' : Session} (items : List LogItem) (hlog : s'.log = items ++ s.log)
    (hserials : s'.registry.map (·.serial) = s.registry.map (·.serial)) : s.Stays s' :=
  ⟨items, hlog, fun _ => hserials⟩

lemma stays_guarantee : PlayGuarantee Session.Stays where
  same := fun hsame => stays_of_append [] hsame.log (by rw [hsame.registry])
  record := fun _ item _ => stays_of_append [item] rfl rfl
  call := fun s index c => stays_of_append [.call s.clock index c] rfl rfl
  arm := fun _ _ _ _ _ _ => stays_of_append [] rfl (map_serial_replaceEntry _ _)
  ring := fun _ _ _ _ => stays_of_append [_] rfl (map_serial_replaceEntry _ _)
  drop := fun _ _ => stays_of_append [_] rfl rfl
  disarm := by
    intro s
    obtain ⟨idle, waiters, hs⟩ := s.disarm_eq
    rw [hs]
    exact stays_of_append [] rfl (by rw [List.map_map]; rfl)

/-- Preparing a batch during a call is logged, so it need not leave the parts as they are. -/
lemma handler_stays (env : Environment) (depth index : Nat) (c : Call) :
    (handler env depth index c).Leads Session.Stays := by
  refine handler_leads_of_nested stays_guarantee.call (fun handle hcalls command s => ?_) env depth
    index c
  by_cases hprepare : command.IsPrepare
  · have hgrows : ∀ index c, (handle index c).Leads fun s s' => s.log <:+ s'.log := by
      intro index c s
      obtain ⟨items, hlog, -⟩ := hcalls index c s
      exact ⟨items, hlog.symm⟩
    obtain ⟨items, hlog⟩ := perform_leads hgrows grows_guarantee command s
    refine ⟨.answered command (perform handle s command).2 :: items, ?_, fun hnone => ?_⟩
    · rw [List.cons_append, hlog]
      rfl
    · exact absurd hprepare (hnone _ List.mem_cons_self)
  · refine trans_of Session.Stays
      (perform_leads_of_not_isPrepare hcalls stays_guarantee hprepare s) ?_
    exact stays_of_append [.answered command _] rfl rfl

/-! ## The part of a timer -/

section

variable {s : Session} {t : Timer} {e : PartEntry} (env : Environment) (depth : Nat)

lemma resumed_timed (h : s.Timed) (ht : t ∈ s.timers) (he : e ∈ s.registry) (howns : e.Owns t) :
    (s.resumed (handler env depth) t e).Timed :=
  stopEvent_leads timed_invariant.guarantee.toPlayGuarantee
    (handler_leads timed_invariant.guarantee env depth) _ _ _ _ _ (h.ring ht he howns)

lemma ring_descends_resumed (s : Session) (t : Timer) (e : PartEntry) :
    (s.ring t e).Descends (s.resumed (handler env depth) t e) :=
  stopEvent_leads descends_guarantee.toPlayGuarantee (handler_leads descends_guarantee env depth)
    _ _ _ _ _

lemma ring_stays_resumed (s : Session) (t : Timer) (e : PartEntry) :
    (s.ring t e).Stays (s.resumed (handler env depth) t e) :=
  stopEvent_leads stays_guarantee (handler_stays env depth) _ _ _ _ _

/-- An entry of the session that a timer went off in has the index of the timer's entry exactly if
it has its number. -/
lemma ring_serial_eq_iff (h : s.Timed) (he : e ∈ s.registry) {y : PartEntry}
    (hy : y ∈ (s.ring t e).registry) : y.serial = e.serial ↔ y.index = e.index := by
  rcases mem_replaceEntry.mp hy with ⟨rfl, -⟩ | ⟨hy, hserial⟩
  · exact ⟨fun _ => rfl, fun _ => rfl⟩
  · refine ⟨fun heq => absurd heq hserial, fun hindex => ?_⟩
    rw [List.inj_on_of_nodup_map h.indices hy he hindex]

variable (h : s.Timed) (ht : t ∈ s.timers) (he : e ∈ s.registry) (howns : e.Owns t)
  {x : PartEntry} {event : Event} {rest : List Event}
  (htakes : (s.resumed (handler env depth) t e).Takes t.index x event rest)

include h he howns htakes

/-- An entry at the index of a timer that is not the timer's own was made since. -/
lemma taken_serial_ne_iff : x.serial ≠ t.entry ↔ s.created ≤ x.serial := by
  have hold : t.entry < s.created := by
    rw [howns.serial]
    exact h.serials_old e (List.mem_append_left _ he)
  obtain ⟨hx, hindex⟩ := mem_of_entryAt? htakes.entry
  constructor
  · intro hne
    rcases (ring_descends_resumed env depth s t e).installed x hx with hnew | ⟨y, hy, hyx, hyi⟩
    · exact hnew
    · have hserial := (ring_serial_eq_iff h he hy).mpr (by rw [hyi, hindex, howns.index])
      exact absurd (by rw [← hyx, hserial, howns.serial]) hne
  · intro hnew hserial
    exact absurd hold (Nat.not_lt_of_le (hserial ▸ hnew))

include ht

/-- The timer's own entry is the one that goes on, if it is still installed. -/
lemma taken_serial_eq_iff : x.serial = t.entry ↔
    ∃ y ∈ (s.resumed (handler env depth) t e).registry, y.serial = t.entry := by
  obtain ⟨hx, hindex⟩ := mem_of_entryAt? htakes.entry
  refine ⟨fun hserial => ⟨x, hx, hserial⟩, ?_⟩
  rintro ⟨y, hy, hserial⟩
  rcases (ring_descends_resumed env depth s t e).installed y hy with hnew | ⟨z, hz, hzy, hzi⟩
  · have hold := h.serials_old e (List.mem_append_left _ he)
    rw [hserial, howns.serial] at hnew
    exact absurd hold (Nat.not_lt_of_le hnew)
  · have hyindex : y.index = x.index := by
      rw [← hzi, hindex, howns.index, ← ring_serial_eq_iff h he hz, hzy, hserial, howns.serial]
    rw [← hserial, List.inj_on_of_nodup_map (resumed_timed env depth h ht he howns).indices hy hx
      hyindex]

/-- If another entry goes on, a batch was prepared while the event was stopped. -/
lemma prepared_of_taken_serial_ne (hne : x.serial ≠ t.entry) :
    ∃ item ∈ (s.ring t e).since (s.resumed (handler env depth) t e), item.IsPreparation := by
  by_contra hnone
  obtain ⟨items, hlog, hkept⟩ := ring_stays_resumed env depth s t e
  rw [since_eq hlog] at hnone
  have hsame := hkept fun item hi hprepared => hnone ⟨item, hi, hprepared⟩
  have hmem : e.serial ∈ (s.resumed (handler env depth) t e).registry.map (·.serial) := by
    rw [hsame]
    exact List.mem_map.mpr ⟨_, mem_ring he t, rfl⟩
  obtain ⟨y, hy, hserial⟩ := List.mem_map.mp hmem
  exact hne ((taken_serial_eq_iff env depth h ht he howns htakes).mpr
    ⟨y, hy, hserial.trans howns.serial.symm⟩)

end

/-- **Generations.**  Take any session that a run leads to and let one of its timers fire, whatever
is called back before and now.  A timer whose entry is installed no more does nothing.  Otherwise
its event is stopped, and then the part at its index is played: if an event is taken, it is started
at once, and it belongs to the entry of the timer exactly if that entry is installed still.  If it
belongs to another one, then that entry was made meanwhile, while a batch was prepared. -/
theorem generations_mix_iff_discarded (past env : Environment) (pastDepth depth : Nat)
    (hooks : Hooks) (policy : ErrorPolicy) (moves : List Move) (t : Timer) :
    let s := (Session.initial hooks policy).after past pastDepth moves
    let handle := handler env depth
    t ∈ s.timers →
    (t ∈ s.orphans → fire handle t s = s.drop t) ∧
    (t ∉ s.orphans → ∃ e ∈ s.registry, e.Owns t) ∧
    ∀ e ∈ s.registry, e.Owns t →
      let u := s.resumed handle t e
      (∃ error, fire handle t s = (play handle t.index t.routing t.onProcess u).1.escape error) ∧
      ∀ x event rest, u.Takes t.index x event rest →
        (∃ later, (fire handle t s).log =
          later ++ .dispatched u.clock x.index x.serial u.adapters true event :: u.log) ∧
        (x.serial = t.entry ↔ ∃ y ∈ u.registry, y.serial = t.entry) ∧
        (x.serial ≠ t.entry ↔ s.created ≤ x.serial) ∧
        (x.serial ≠ t.entry → ∃ item ∈ (s.ring t e).since u, item.IsPreparation) := by
  intro s handle ht
  have h : s.Timed := after_timed past pastDepth hooks policy moves
  refine ⟨fun horphan => fire_of_isStale ((h.isStale_iff ht).mpr horphan),
    fun hnot => (h.orphan_or_owned ht).resolve_left hnot, ?_⟩
  intro e he howns u
  obtain ⟨error, hfire⟩ := fire_eq_resumed h he howns handle
  refine ⟨⟨error, hfire⟩, fun x event rest htakes => ⟨?_,
    taken_serial_eq_iff env depth h ht he howns htakes,
    taken_serial_ne_iff env depth h he howns htakes,
    prepared_of_taken_serial_ne env depth h ht he howns htakes⟩⟩
  obtain ⟨later, hlater⟩ := htakes.play_log (handler_leads grows_guarantee env depth) t.routing
    t.onProcess
  rw [hfire]
  rcases error with _ | error
  · exact ⟨later, hlater⟩
  · exact ⟨.escaped error :: later, by rw [List.cons_append, ← hlater]; rfl⟩

/-- A batch is prepared while the first event of a part is stopped.  Its only event is then started
by the timer that was set for the part before. -/
theorem earlier_timer_starts_later_batch :
    let env := Environment.giving .stopped [.prepare (.generators 1 "list") ["T60 O4 E4"] none]
    let handle := handler env 1
    let s := (Session.initial .all .abort).after env 1
      [.prepare (.generators 1 "list") ["T60 O4 C4 D4"] none, .play (.ofIndex 0) none none]
    ∃ t ∈ s.timers,
      (t.entry = 0 ∧ s.registry.map (·.serial) = [0] ∧ s.created = 2 ∧
        (fire handle t s).registry.map (·.serial) = [2] ∧
        (starts 2 (fire handle t s).log).length = 1) ∧
      (t ∈ s.orphans → fire handle t s = s.drop t) ∧
      (t ∉ s.orphans → ∃ e ∈ s.registry, e.Owns t) ∧
      ∀ e ∈ s.registry, e.Owns t →
        let u := s.resumed handle t e
        (∃ error, fire handle t s = (play handle t.index t.routing t.onProcess u).1.escape error) ∧
        ∀ x event rest, u.Takes t.index x event rest →
          (∃ later, (fire handle t s).log =
            later ++ .dispatched u.clock x.index x.serial u.adapters true event :: u.log) ∧
          (x.serial = t.entry ↔ ∃ y ∈ u.registry, y.serial = t.entry) ∧
          (x.serial ≠ t.entry ↔ s.created ≤ x.serial) ∧
          (x.serial ≠ t.entry → ∃ item ∈ (s.ring t e).since u, item.IsPreparation) :=
  ⟨_, List.head_mem (by decide +kernel), by decide +kernel,
    generations_mix_iff_discarded _ _ 1 1 _ _ _ _ (List.head_mem (by decide +kernel))⟩

end MusicMacro
