import MusicMacro.Proofs.Playback.Matching

/-!
# What a part sees of a session

All that playback consults on behalf of one part, and all that it does for it, is the `Outlook` of
its entry: the hooks and the source, the entry itself, its timers and what was done for it so far.
What is done for another part leaves the outlook as it is, whether the other part is played
(`play_apart`) or its timer fires (`fire_outlook_of_ne`), whatever fails, and also where further
parts are played during the calls for it.
-/

namespace MusicMacro

open Session

/-! ## The outlook of an entry -/

/-- What there is for an entry; timers are taken without their numbers. -/
structure Outlook where
  hooks : Hooks
  adapter : Option Adapter
  adapters : Nat
  /-- Index and part of the entry, and whether it plays. -/
  entries : List (Nat × Part × Bool)
  timers : List (Double × Event × Option String × Option String)
  doings : List LogItem

/-- What the entry of a number sees that stands at an index. -/
def Session.outlook (index entry : Nat) (s : Session) : Outlook where
  hooks := s.hooks
  adapter := s.adapter
  adapters := s.adapters
  entries := (s.registry.filter (·.serial = entry)).map fun e => (e.index, e.part, e.isPlaying)
  timers := (s.timers.filter (·.entry = entry)).map fun t =>
    (t.due, t.event, t.routing, t.onProcess)
  doings := doings index entry s.log

/-- The entry of a number is installed at an index. -/
structure Session.Hosts (index entry : Nat) (s : Session) : Prop extends Session.Timed s where
  installed : ∃ e ∈ s.registry, e.index = index ∧ e.serial = entry

namespace Session.Hosts

variable {index entry : Nat} {s s' : Session}

/-- The entry is found, and the outlook tells of it. -/
lemma entry_found (h : s.Hosts index entry) :
    ∃ e ∈ s.registry, e.index = index ∧ e.serial = entry ∧ s.entryAt? index = some e ∧
      (s.outlook index entry).entries = [(index, e.part, e.isPlaying)] := by
  obtain ⟨e, he, hindex, hserial⟩ := h.installed
  have hone : s.registry.filter (·.serial = entry) = [e] := by
    refine filter_eq_singleton h.serials_registry.of_map he (by simpa using hserial) ?_
    intro y hy hys
    exact h.eq_of_serial (List.mem_append_left _ hy) (List.mem_append_left _ he)
      ((of_decide_eq_true hys).trans hserial.symm)
  refine ⟨e, he, hindex, hserial, hindex ▸ h.entryAt?_of_mem he, ?_⟩
  simp [outlook, hone, hindex]

/-- An entry at another index is another entry, and the other way round. -/
lemma serial_ne_iff (h : s.Hosts index entry) {e : PartEntry} (he : e ∈ s.registry) :
    e.serial ≠ entry ↔ e.index ≠ index := by
  obtain ⟨y, hy, rfl, rfl⟩ := h.installed
  refine not_congr ⟨fun hserial => ?_, fun hindex => ?_⟩
  · rw [h.eq_of_serial (List.mem_append_left _ he) (List.mem_append_left _ hy) hserial]
  · rw [List.inj_on_of_nodup_map h.indices he hy hindex]

lemma sameParts (h : s.Hosts index entry) (hsame : s.SameParts s') : s'.Hosts index entry := by
  refine ⟨h.toTimed.sameParts hsame, ?_⟩
  rw [hsame.registry]
  exact h.installed

/-- An entry that is changed keeps its number and its index. -/
lemma of_replace (h : s.Hosts index entry) (htimed : s'.Timed) {x y : PartEntry}
    (hy : y ∈ s.registry) (hserial : y.serial = x.serial) (hindex : y.index = x.index)
    (hregistry : s'.registry = (s.replaceEntry x).registry) : s'.Hosts index entry := by
  obtain ⟨e, he, rfl, rfl⟩ := h.installed
  refine ⟨htimed, ?_⟩
  rw [hregistry]
  by_cases hsame : e.serial = x.serial
  · have heq : e = y := h.eq_of_serial (List.mem_append_left _ he) (List.mem_append_left _ hy)
      (hsame.trans hserial.symm)
    exact ⟨x, mem_replaceEntry.mpr (Or.inl ⟨rfl, y, hy, hserial⟩), by rw [heq, hindex],
      by rw [hsame]⟩
  · exact ⟨e, mem_replaceEntry.mpr (Or.inr ⟨he, hsame⟩), rfl, rfl⟩

lemma arm (h : s.Hosts index entry) {e : PartEntry} (he : e ∈ s.registry)
    (hadapter : s.adapter ≠ none) (hidle : e.isPlaying = false) (part : Part) (event : Event)
    (routing onProcess : Option String) :
    (s.arm e part event routing onProcess).Hosts index entry :=
  h.of_replace (h.toTimed.arm he hadapter hidle part event routing onProcess)
    (x := { e with part := part, timer := some s.created, lastEvent := some event }) he rfl rfl rfl

lemma ring (h : s.Hosts index entry) {t : Timer} {e : PartEntry} (ht : t ∈ s.timers)
    (he : e ∈ s.registry) (howns : e.Owns t) : (s.ring t e).Hosts index entry :=
  h.of_replace (h.toTimed.ring ht he howns) (x := { e with timer := none }) he rfl rfl rfl

lemma drop (h : s.Hosts index entry) {t : Timer} (ht : t ∈ s.timers) (hstale : s.IsStale t) :
    (s.drop t).Hosts index entry :=
  ⟨h.toTimed.drop ht hstale, h.installed⟩

end Session.Hosts

/-! ## How an outlook changes -/

/-- The outlook after more has been done. -/
def Outlook.after (o : Outlook) (items : List LogItem) : Outlook :=
  { o with doings := items ++ o.doings }

namespace Session

variable {index entry : Nat} {s : Session}

lemma record_outlook (item : LogItem) :
    (s.record item).outlook index entry =
      (s.outlook index entry).after (MusicMacro.doings index entry [item]) := by
  simp only [outlook, record, Outlook.after, ← doings_append, List.singleton_append]

lemma recordCall_outlook (i : Nat) (c : Call) :
    (s.recordCall i c).outlook index entry =
      (s.outlook index entry).after (MusicMacro.doings index entry [.call s.clock i c]) :=
  record_outlook (s := s) (.call s.clock i c)

lemma updateIdle_outlook : s.updateIdle.outlook index entry = s.outlook index entry := by
  obtain ⟨idle, waiters, hs⟩ := s.updateIdle_eq
  rw [hs]
  rfl

/-- What is done without the entry does not change the outlook. -/
lemma record_outlook_of_not_isFor {item : LogItem} (h : item.isFor index entry = false) :
    (s.record item).outlook index entry = s.outlook index entry := by
  rw [record_outlook, doings, List.filter_cons_of_neg (by simp [h])]
  rfl

lemma escape_outlook (e : Option PlaybackError) :
    (s.escape e).outlook index entry = s.outlook index entry := by
  rcases e with _ | e
  · rfl
  · exact record_outlook_of_not_isFor rfl

/-- Where the entry is replaced, the outlook tells of the new one. -/
lemma replaceEntry_entries {x : PartEntry} (hserial : x.serial = entry) :
    ((s.replaceEntry x).outlook index entry).entries =
      (s.outlook index entry).entries.map fun _ => (x.index, x.part, x.isPlaying) := by
  subst hserial
  have hfilter : ∀ l : List PartEntry,
      ((l.map fun e => if e.serial = x.serial then x else e).filter (·.serial = x.serial)) =
        (l.filter (·.serial = x.serial)).map fun _ => x := by
    intro l
    induction l with
    | nil => rfl
    | cons e rest ih =>
        by_cases he : e.serial = x.serial
        · rw [List.map_cons, if_pos he, List.filter_cons_of_pos (by simp), ih,
            List.filter_cons_of_pos (by simpa using he), List.map_cons]
        · rw [List.map_cons, if_neg he, List.filter_cons_of_neg (by simpa using he), ih,
            List.filter_cons_of_neg (by simpa using he)]
  rw [outlook, replaceEntry, outlook, hfilter, List.map_map, List.map_map]
  rfl

/-- Where another entry is replaced, the outlook tells of the same one. -/
lemma replaceEntry_entries_of_ne {x : PartEntry} (hserial : x.serial ≠ entry) :
    ((s.replaceEntry x).outlook index entry).entries = (s.outlook index entry).entries := by
  have hfilter : ∀ l : List PartEntry,
      ((l.map fun e => if e.serial = x.serial then x else e).filter (·.serial = entry)) =
        l.filter (·.serial = entry) := by
    intro l
    induction l with
    | nil => rfl
    | cons e rest ih =>
        by_cases he : e.serial = x.serial
        · rw [List.map_cons, if_pos he, List.filter_cons_of_neg (by simpa using hserial), ih,
            List.filter_cons_of_neg (by simpa [he] using hserial)]
        · rw [List.map_cons, if_neg he, List.filter_cons, List.filter_cons, ih]
  rw [outlook, replaceEntry, outlook, hfilter]

/-- The timer of another entry is not in view. -/
lemma filter_serial_ne (h : s.Timed) {t : Timer} (ht : t ∈ s.timers) (hentry : t.entry ≠ entry) :
    ((s.timers.filter (·.serial ≠ t.serial)).filter (·.entry = entry)) =
      s.timers.filter (·.entry = entry) := by
  rw [List.filter_filter]
  refine List.filter_congr fun u hu => ?_
  by_cases huentry : u.entry = entry
  · have hne : u.serial ≠ t.serial := fun hsame =>
      hentry (h.timer_eq_of_serial hu ht hsame ▸ huentry)
    simp [huentry, hne]
  · simp [huentry]

end Session

/-! ## What goes on apart from an entry -/

/-- No time has passed, and the entry of a number is installed still if it was. -/
structure Session.Steady (index entry : Nat) (s s' : Session) : Prop where
  clock : s'.clock = s.clock
  hosts : s.Hosts index entry → s'.Hosts index entry

/-- In addition the entry has the same outlook. -/
structure Session.Apart (index entry : Nat) (s s' : Session) : Prop
    extends Session.Steady index entry s s' where
  outlook : s.Hosts index entry → s'.outlook index entry = s.outlook index entry

section

variable {index entry : Nat}

instance Session.steady_isPreorder : IsPreorder Session (Session.Steady index entry) where
  refl _ := ⟨rfl, id⟩
  trans _ _ _ hab hbc := ⟨hbc.clock.trans hab.clock, fun h => hbc.hosts (hab.hosts h)⟩

instance Session.apart_isPreorder : IsPreorder Session (Session.Apart index entry) where
  refl s := ⟨refl_of (Session.Steady index entry) s, fun _ => rfl⟩
  trans _ _ _ hab hbc :=
    ⟨trans_of (Session.Steady index entry) hab.toSteady hbc.toSteady,
      fun h => (hbc.outlook (hab.hosts h)).trans (hab.outlook h)⟩

namespace Session

variable {s : Session}

lemma record_steady (item : LogItem) : s.Steady index entry (s.record item) :=
  ⟨rfl, fun h => h.sameParts ⟨rfl, rfl, rfl, rfl, rfl, rfl⟩⟩

lemma recordCall_steady (i : Nat) (c : Call) : s.Steady index entry (s.recordCall i c) :=
  ⟨rfl, fun h => h.sameParts ⟨rfl, rfl, rfl, rfl, rfl, rfl⟩⟩

lemma updateIdle_steady : s.Steady index entry s.updateIdle := by
  obtain ⟨idle, waiters, hs⟩ := s.updateIdle_eq
  rw [hs]
  exact ⟨rfl, fun h => h.sameParts ⟨rfl, rfl, rfl, rfl, rfl, rfl⟩⟩

lemma Takes.arm_steady {i : Nat} {e : PartEntry} {event : Event} {rest : List Event}
    (h : s.Takes i e event rest) (part : Part) (routing onProcess : Option String) :
    s.Steady index entry (s.arm e part event routing onProcess) :=
  ⟨rfl, fun hosts => hosts.arm (mem_of_entryAt? h.entry).1 h.source h.idle _ _ _ _⟩

lemma record_apart {item : LogItem} (h : item.isFor index entry = false) :
    s.Apart index entry (s.record item) :=
  ⟨record_steady item, fun _ => record_outlook_of_not_isFor h⟩

lemma recordCall_apart {i : Nat} (hi : i ≠ index) (c : Call) :
    s.Apart index entry (s.recordCall i c) :=
  ⟨recordCall_steady i c, fun _ =>
    @record_outlook_of_not_isFor index entry s (.call s.clock i c) (decide_eq_false hi)⟩

lemma updateIdle_apart : s.Apart index entry s.updateIdle :=
  ⟨updateIdle_steady, fun _ => updateIdle_outlook⟩

/-- Another entry is armed. -/
lemma Takes.arm_apart {i : Nat} {e : PartEntry} {event : Event} {rest : List Event}
    (h : s.Takes i e event rest) (hserial : e.serial ≠ entry) (part : Part)
    (routing onProcess : Option String) :
    s.Apart index entry (s.arm e part event routing onProcess) := by
  refine ⟨h.arm_steady part routing onProcess, fun _ => ?_⟩
  have hentries := @replaceEntry_entries_of_ne index entry s
    { e with part := part, timer := some s.created, lastEvent := some event } hserial
  refine Outlook.mk.injEq .. |>.mpr ⟨rfl, rfl, rfl, hentries, ?_, rfl⟩
  simp [Session.arm, List.filter_append, hserial]

end Session

/-! ### Playing other parts -/

section

variable {handle : Handler} {i : Nat} (routing onProcess : Option String)

lemma play_steady (hcalls : ∀ c, (handle i c).Leads (Session.Steady index entry)) :
    (play handle i routing onProcess).Leads (Session.Steady index entry) := by
  intro s
  exact play_leads_of_calls (fun _ _ => record_steady _) hcalls (fun _ => updateIdle_steady)
    routing onProcess (fun _ _ _ _ _ => record_steady _)
    fun _ _ _ h => h.arm_steady _ routing onProcess

/-- What is told of another entry is not for this one. -/
lemma LogItem.IsMark.isFor_eq {n : Nat} {item : LogItem} (h : item.IsMark i n) (hn : n ≠ entry) :
    item.isFor index entry = false := by
  cases item with
  | dispatched time j m adapter starting event => exact decide_eq_false (h.2 ▸ hn)
  | finished time j m => exact decide_eq_false (h.2 ▸ hn)
  | call => exact h.elim
  | _ => rfl

/-- To play another part does not change the outlook. -/
lemma play_apart (hi : i ≠ index) (hcalls : ∀ c, (handle i c).Leads (Session.Apart index entry)) :
    (play handle i routing onProcess).Leads (Session.Apart index entry) := by
  intro s
  refine ⟨play_steady routing onProcess (fun c s => (hcalls c s).toSteady) s, fun hosts => ?_⟩
  have hother : ∀ e, s.entryAt? i = some e → e.serial ≠ entry := by
    intro e he
    obtain ⟨hmem, hindex⟩ := mem_of_entryAt? he
    exact (hosts.serial_ne_iff hmem).mpr (hindex ▸ hi)
  refine (play_leads_of_calls (R := Session.Apart index entry) (fun _ _ => record_apart rfl) hcalls
    (fun _ => updateIdle_apart) routing onProcess ?_ ?_).outlook hosts
  · exact fun e he s' item hmark => record_apart (hmark.isFor_eq (hother e he))
  · exact fun e event rest h => h.arm_apart (hother e h.entry) _ routing onProcess

/-- To play a part during a call is to play it and to log the reply. -/
lemma performNested_play_leads {R : Session → Session → Prop} [IsPreorder Session R]
    (hreply : ∀ s command reply, R s (s.record (.answered command reply))) {part : PartName}
    (hplay : ∀ i, part.index? = some i → (play handle i routing onProcess).Leads R) (s : Session) :
    R s (performNested handle s (.play part routing onProcess)) := by
  refine trans_of R ?_ (hreply _ _ _)
  rcases hentry : s.entryNamed? part with _ | e
  · simpa [perform, hentry] using refl_of R s
  · obtain ⟨i, hi, hat⟩ := Option.bind_eq_some_iff.mp hentry
    have hplayed := hplay e.index (by rw [hi, (mem_of_entryAt? hat).2]) s
    simpa [perform, hentry, Step.answering_fst] using hplayed

end

/-! ### Calls -/

/-- During calls nothing is asked for but to play parts other than that of the index. -/
def Environment.PlaysOthers (env : Environment) (index : Nat) : Prop :=
  ∀ name n, ∀ command ∈ (env name n).commands, ∃ part routing onProcess,
    command = .play part routing onProcess ∧ part.index? ≠ some index

section

variable {env : Environment} (h : env.PlaysOthers index) (depth : Nat)

include h

lemma handler_steady (i : Nat) (c : Call) :
    (handler env depth i c).Leads (Session.Steady index entry) := by
  refine handler_leads_of_given (P := fun _ => True) (fun i _ s c => recordCall_steady i c) ?_
    depth i trivial c
  intro handle hcalls name n command hcommand s
  obtain ⟨part, routing, onProcess, rfl, -⟩ := h name n command hcommand
  exact performNested_play_leads routing onProcess (fun _ _ _ => record_steady _)
    (fun i _ => play_steady routing onProcess (hcalls i trivial)) s

lemma handler_apart {i : Nat} (hi : i ≠ index) (c : Call) :
    (handler env depth i c).Leads (Session.Apart index entry) := by
  refine handler_leads_of_given (P := (· ≠ index)) (fun i hi s c => recordCall_apart hi c) ?_
    depth i hi c
  intro handle hcalls name n command hcommand s
  obtain ⟨part, routing, onProcess, rfl, hother⟩ := h name n command hcommand
  refine performNested_play_leads routing onProcess (fun _ _ _ => record_apart rfl) ?_ s
  intro i hi
  have hne : i ≠ index := fun heq => hother (heq ▸ hi)
  exact play_apart routing onProcess hne (hcalls i hne)

end

/-! ### Timers of other parts -/

section

variable {handle : Handler} {t : Timer} {s : Session}

lemma escape_steady (e : Option PlaybackError) : s.Steady index entry (s.escape e) := by
  rcases e with _ | e
  · exact refl_of (Session.Steady index entry) s
  · exact record_steady _

lemma stopEvent_steady {i n : Nat} (hcalls : ∀ c, (handle i c).Leads (Session.Steady index entry))
    (event : Event) (onProcess : Option String) :
    (stopEvent handle i n event onProcess).Leads (Session.Steady index entry) :=
  stopEvent_leads_of_calls (fun _ _ => record_steady _) hcalls (fun _ => record_steady _) onProcess

lemma playOn_steady {e : PartEntry} (t : Timer)
    (hcalls : ∀ c, (handle e.index c).Leads (Session.Steady index entry)) :
    (playOn handle t e).Leads (Session.Steady index entry) :=
  Step.Leads.andAlways (stopEvent_steady hcalls _ _) (play_steady _ _ hcalls)

lemma playOn_apart {e : PartEntry} (t : Timer) (hi : e.index ≠ index) (hserial : e.serial ≠ entry)
    (hcalls : ∀ c, (handle e.index c).Leads (Session.Apart index entry)) :
    (playOn handle t e).Leads (Session.Apart index entry) :=
  Step.Leads.andAlways
    (stopEvent_leads_of_calls (fun _ _ => record_apart rfl) hcalls
      (fun _ => record_apart (decide_eq_false hserial)) _)
    (play_apart _ _ hi hcalls)

/-- A timer fires at its due time, and the entry stays where it is. -/
lemma fire_steady (hosts : s.Hosts index entry) (ht : t ∈ s.timers)
    (hcalls : ∀ i c, (handle i c).Leads (Session.Steady index entry)) :
    (fire handle t s).Hosts index entry ∧ (fire handle t s).clock = t.due := by
  rcases hosts.orphan_or_owned ht with horphan | ⟨e, he, howns⟩
  · have hstale := (hosts.isStale_iff ht).mpr horphan
    rw [fire_of_isStale hstale]
    exact ⟨hosts.drop ht hstale, rfl⟩
  · rw [fire_eq_ring (hosts.entryAt?_of_owns he howns) howns.serial.symm howns.isPlaying]
    have hafter := trans_of (Session.Steady index entry)
      (playOn_steady t (hcalls e.index) (s.ring t e))
      (escape_steady (playOn handle t e (s.ring t e)).2)
    exact ⟨hafter.hosts (hosts.ring ht he howns), hafter.clock⟩

/-- When the timer of another entry goes off, the outlook is the same. -/
lemma ring_outlook_of_ne (hosts : s.Hosts index entry) (ht : t ∈ s.timers)
    (hentry : t.entry ≠ entry) {e : PartEntry} (howns : e.Owns t) :
    (s.ring t e).outlook index entry = s.outlook index entry := by
  have hserial : e.serial ≠ entry := howns.serial ▸ hentry
  have hentries := @replaceEntry_entries_of_ne index entry s { e with timer := none } hserial
  refine Outlook.mk.injEq .. |>.mpr ⟨rfl, rfl, rfl, hentries, ?_, rfl⟩
  rw [Session.ring, filter_serial_ne hosts.toTimed ht hentry]

/-- When the timer of another entry fires, the outlook is the same. -/
lemma fire_outlook_of_ne (hosts : s.Hosts index entry) (ht : t ∈ s.timers)
    (hentry : t.entry ≠ entry)
    (hcalls : ∀ i, i ≠ index → ∀ c, (handle i c).Leads (Session.Apart index entry)) :
    (fire handle t s).outlook index entry = s.outlook index entry := by
  rcases hosts.orphan_or_owned ht with horphan | ⟨e, he, howns⟩
  · rw [fire_of_isStale ((hosts.isStale_iff ht).mpr horphan), outlook, drop,
      filter_serial_ne hosts.toTimed ht hentry]
    rfl
  · have hserial : e.serial ≠ entry := howns.serial ▸ hentry
    have hi := (hosts.serial_ne_iff he).mp hserial
    rw [fire_eq_ring (hosts.entryAt?_of_owns he howns) howns.serial.symm howns.isPlaying]
    have hplayed := playOn_apart t hi hserial (hcalls e.index hi) (s.ring t e)
    rw [escape_outlook, hplayed.outlook (hosts.ring ht he howns),
      ring_outlook_of_ne hosts ht hentry howns]

end

end

end MusicMacro
