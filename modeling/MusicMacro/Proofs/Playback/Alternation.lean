import MusicMacro.Proofs.Playback.RunOut

/-!
# Events are started and stopped in turn

Where no call fails and none calls back, the events of a part are handed to its source in turn:
each is started and then stopped before the next one is, in the order in which they were compiled,
and always on one and the same wrapped source (`events_alternate`).  The last start is unmatched
exactly while the part plays, and a hook is told of the end of a part only when the last of all
its events has been stopped.

An event is stopped on three ways (its timer fires, a halt, the halt of a new batch) and started
on two.  The invariant is `Session.Ledger`: for each entry it ties the events that are left, the
event taken last and the history in the log to whether an event of the entry sounds.  During a halt
that is not whether the entry plays: all entries are disarmed before the first is stopped.
-/

namespace MusicMacro

/-! ## Histories in turn -/

/-- Events that were started and stopped in turn on one source, and one that was started after
them, if it sounds still. -/
def alternation (number : Nat) (stopped : List Event) (sounding : Option Event) : List Handover :=
  stopped.flatMap (fun event => [⟨number, true, event⟩, ⟨number, false, event⟩]) ++
    (sounding.map fun event => ⟨number, true, event⟩).toList

lemma alternation_start (number : Nat) (stopped : List Event) (event : Event) :
    alternation number stopped none ++ [⟨number, true, event⟩] =
      alternation number stopped (some event) := by
  simp [alternation]

lemma alternation_stop (number : Nat) (stopped : List Event) (event : Event) :
    alternation number stopped (some event) ++ [⟨number, false, event⟩] =
      alternation number (stopped ++ [event]) none := by
  simp [alternation]

/-- The history of an entry accounts for its events: those taken so far were handed to one source in
turn; the last of them sounds still if `sounds`, and is then the event taken last. -/
def PartEntry.Accounted (e : PartEntry) (number : Nat) (sounds : Bool) (log : List LogItem) :
    Prop :=
  ∃ stopped sounding, e.part.events = stopped ++ sounding.toList ++ e.part.queue ∧
    sounding.isSome = sounds ∧ (∀ event, sounding = some event → e.lastEvent = some event) ∧
    handovers e.serial log = alternation number stopped sounding

/-- Neither an event that is handed over nor a call that tells of an end. -/
def LogItem.IsQuiet (item : LogItem) : Prop :=
  (∀ n, item.handover? n = none) ∧ ∀ i, item.isEnding i = false

lemma LogItem.IsAside.isQuiet {index : Nat} {item : LogItem} (h : item.IsAside index) :
    item.IsQuiet := ⟨h.handover?_eq, h.isEnding_eq⟩

lemma LogItem.IsReport.isQuiet {item : LogItem} (h : item.IsReport) : item.IsQuiet := by
  obtain ⟨index, haside⟩ := h
  exact haside.isQuiet

lemma handovers_quiet {items : List LogItem} (h : ∀ item ∈ items, item.IsQuiet) (n : Nat)
    (log : List LogItem) : handovers n (items ++ log) = handovers n log := by
  have hnone : handovers n items = [] := by
    rw [handovers, List.filterMap_eq_nil_iff.mpr fun item hi => (h item hi).1 n, List.reverse_nil]
  rw [handovers_append, hnone, List.append_nil]

/-- A call that tells of an end is not among items that tell of none. -/
lemma suffix_of_append (items : List LogItem) {log earlier : List LogItem} {time : Double}
    {index : Nat} (h : ∀ item ∈ items, ∀ i, item.isEnding i = false)
    (hsuffix : (.call time index .ended :: earlier) <:+ items ++ log) :
    (.call time index .ended :: earlier) <:+ log := by
  induction items with
  | nil => exact hsuffix
  | cons item rest ih =>
      rcases List.suffix_cons_iff.mp hsuffix with heq | hrest
      · obtain ⟨hitem, -⟩ := List.cons.inj heq
        have hending := h item List.mem_cons_self index
        rw [← hitem] at hending
        simp [LogItem.isEnding] at hending
      · exact ih (fun item hi => h item (List.mem_cons_of_mem _ hi)) hrest

/-! ## The invariant -/

namespace Session

/-- Every call that tells of an end stands right after the end of an entry, all of whose events
were started and stopped by then. -/
def TellsEnds (s : Session) : Prop :=
  ∀ time index earlier, (.call time index .ended :: earlier) <:+ s.log →
    ∃ e ∈ s.entries, e.index = index ∧ (∃ rest, earlier = .finished time index e.serial :: rest) ∧
      ∃ number, handovers e.serial earlier = alternation number e.part.events none

/-- Every entry has a history in turn, installed ones on the present source. -/
structure Ledger (P : Nat → List Event → Prop) (policy : ErrorPolicy) (sounds : PartEntry → Bool)
    (s : Session) : Prop where
  policy_eq : s.policy = policy
  fit : ∀ adapter, s.adapter = some adapter → adapter.IsFit
  fresh : ∀ n, s.created ≤ n → handovers n s.log = []
  installed : ∀ e ∈ s.registry, e.Accounted s.adapters (sounds e) s.log
  discarded : ∀ e ∈ s.discarded, ∃ number, e.Accounted number (sounds e) s.log
  compiled : ∀ e ∈ s.entries, P e.index e.part.events
  ends : s.TellsEnds

end Session

/-- The same entry, but for its timer. -/
structure PartEntry.Retimes (x y : PartEntry) : Prop where
  index : x.index = y.index
  serial : x.serial = y.serial
  part : x.part = y.part
  lastEvent : x.lastEvent = y.lastEvent

lemma PartEntry.Retimes.refl (x : PartEntry) : x.Retimes x := ⟨rfl, rfl, rfl, rfl⟩

lemma PartEntry.Retimes.of_timer (x : PartEntry) (timer : Option Nat) :
    { x with timer := timer }.Retimes x := ⟨rfl, rfl, rfl, rfl⟩

lemma PartEntry.Retimes.accounted {x y : PartEntry} (h : x.Retimes y) {number : Nat} {sounds : Bool}
    {log log' : List LogItem} (hlog : handovers y.serial log' = handovers y.serial log)
    (hy : y.Accounted number sounds log) : x.Accounted number sounds log' := by
  obtain ⟨stopped, sounding, hevents, hsome, hlast, hhistory⟩ := hy
  refine ⟨stopped, sounding, ?_, hsome, ?_, ?_⟩
  · rw [h.part]
    exact hevents
  · rw [h.lastEvent]
    exact hlast
  · rw [h.serial, hlog]
    exact hhistory

lemma handovers_dispatched (time : Double) (index entry number : Nat) (starting : Bool)
    (event : Event) (log : List LogItem) :
    handovers entry (.dispatched time index entry number starting event :: log) =
      handovers entry log ++ [⟨number, starting, event⟩] := by
  simp [handovers_cons, LogItem.handover?]

lemma handovers_dispatched_of_ne {n entry : Nat} (hne : n ≠ entry) (time : Double)
    (index number : Nat) (starting : Bool) (event : Event) (log : List LogItem) :
    handovers n (.dispatched time index entry number starting event :: log) = handovers n log := by
  simp [handovers_cons, LogItem.handover?, hne.symm]

namespace Session

variable {P : Nat → List Event → Prop} {policy : ErrorPolicy} {sounds sounds' : PartEntry → Bool}
  {s s' : Session}

lemma TellsEnds.grow (h : s.TellsEnds) (items : List LogItem) (hlog : s'.log = items ++ s.log)
    (hitems : ∀ item ∈ items, ∀ i, item.isEnding i = false)
    (hkept : ∀ y ∈ s.entries, ∃ x ∈ s'.entries,
      x.index = y.index ∧ x.serial = y.serial ∧ x.part.events = y.part.events) :
    s'.TellsEnds := by
  intro time index earlier hsuffix
  rw [hlog] at hsuffix
  obtain ⟨y, hy, hindex, hfinished, number, hhistory⟩ :=
    h time index earlier (suffix_of_append items hitems hsuffix)
  obtain ⟨x, hx, hxindex, hxserial, hxevents⟩ := hkept y hy
  refine ⟨x, hx, hxindex.trans hindex, ?_, number, ?_⟩
  · rw [hxserial]
    exact hfinished
  · rw [hxserial, hxevents]
    exact hhistory

/-! ## What keeps it -/

namespace Ledger

/-- Entries may be retimed and discarded, and quiet items logged. -/
lemma transfer (h : Ledger P policy sounds s) (items : List LogItem)
    (hlog : s'.log = items ++ s.log) (hitems : ∀ item ∈ items, item.IsQuiet)
    (hpolicy : s'.policy = s.policy) (hadapter : s'.adapter = s.adapter)
    (hadapters : s'.adapters = s.adapters) (hcreated : s'.created = s.created)
    (hregistry : ∀ x ∈ s'.registry, ∃ y ∈ s.registry, x.Retimes y ∧ sounds' x = sounds y)
    (hdiscarded : ∀ x ∈ s'.discarded, ∃ y ∈ s.entries, x.Retimes y ∧ sounds' x = sounds y)
    (hkept : ∀ y ∈ s.entries, ∃ x ∈ s'.entries, x.Retimes y) : Ledger P policy sounds' s' := by
  have hsame : ∀ n, handovers n s'.log = handovers n s.log := by
    rw [hlog]
    exact fun n => handovers_quiet hitems n s.log
  have hfrom : ∀ x ∈ s'.entries, ∃ y ∈ s.entries, x.Retimes y := by
    intro x hx
    rcases List.mem_append.mp hx with hx | hx
    · obtain ⟨y, hy, hretimes, -⟩ := hregistry x hx
      exact ⟨y, List.mem_append_left _ hy, hretimes⟩
    · obtain ⟨y, hy, hretimes, -⟩ := hdiscarded x hx
      exact ⟨y, hy, hretimes⟩
  constructor
  case policy_eq => exact hpolicy.trans h.policy_eq
  case fit =>
    rw [hadapter]
    exact h.fit
  case fresh =>
    intro n hn
    rw [hsame]
    exact h.fresh n (hcreated ▸ hn)
  case installed =>
    intro x hx
    obtain ⟨y, hy, hretimes, hsounds⟩ := hregistry x hx
    rw [hsounds, hadapters]
    exact hretimes.accounted (hsame _) (h.installed y hy)
  case discarded =>
    intro x hx
    obtain ⟨y, hy, hretimes, hsounds⟩ := hdiscarded x hx
    rw [hsounds]
    rcases List.mem_append.mp hy with hy | hy
    · exact ⟨s.adapters, hretimes.accounted (hsame _) (h.installed y hy)⟩
    · obtain ⟨number, haccounted⟩ := h.discarded y hy
      exact ⟨number, hretimes.accounted (hsame _) haccounted⟩
  case compiled =>
    intro x hx
    obtain ⟨y, hy, hretimes⟩ := hfrom x hx
    rw [hretimes.index, hretimes.part]
    exact h.compiled y hy
  case ends =>
    refine h.ends.grow items hlog (fun item hi => (hitems item hi).2) fun y hy => ?_
    obtain ⟨x, hx, hretimes⟩ := hkept y hy
    exact ⟨x, hx, hretimes.index, hretimes.serial, congrArg Part.events hretimes.part⟩

/-- Where the entries stay, quiet items may be logged. -/
lemma notes (h : Ledger P policy sounds s) {Q : LogItem → Prop} (hnotes : s.Notes Q s')
    (hquiet : ∀ item, Q item → item.IsQuiet) : Ledger P policy sounds s' := by
  obtain ⟨items, counts, rfl, hitems, -⟩ := hnotes
  exact h.transfer items rfl (fun item hi => hquiet item (hitems item hi)) rfl rfl rfl rfl
    (fun x hx => ⟨x, hx, .refl x, rfl⟩)
    (fun x hx => ⟨x, List.mem_append_right _ hx, .refl x, rfl⟩) fun y hy => ⟨y, hy, .refl y⟩

/-- It matters only which of the entries sound. -/
lemma congr (h : Ledger P policy sounds s) (hsounds : ∀ e ∈ s.entries, sounds' e = sounds e) :
    Ledger P policy sounds' s :=
  h.transfer [] rfl (fun _ hi => absurd hi List.not_mem_nil) rfl rfl rfl rfl
    (fun x hx => ⟨x, hx, .refl x, hsounds x (List.mem_append_left _ hx)⟩)
    (fun x hx => ⟨x, List.mem_append_right _ hx, .refl x, hsounds x (List.mem_append_right _ hx)⟩)
    fun y hy => ⟨y, hy, .refl y⟩

/-- An event of an installed entry may be handed over if the entry, with the queue and the timer
that it has then, accounts for it. -/
lemma dispatch (h : Ledger P policy sounds s) (hs : s.Timed) {e x : PartEntry}
    (he : e ∈ s.registry) (hindex : x.index = e.index) (hserial : x.serial = e.serial)
    (hevents : x.part.events = e.part.events) {time : Double} {index : Nat} {starting : Bool}
    {event : Event}
    (hlog : s'.log = .dispatched time index e.serial s.adapters starting event :: s.log)
    (hpolicy : s'.policy = s.policy) (hadapter : s'.adapter = s.adapter)
    (hadapters : s'.adapters = s.adapters) (hcreated : s.created ≤ s'.created)
    (hregistry : s'.registry = (s.replaceEntry x).registry) (hdiscarded : s'.discarded = s.discarded)
    (hothers : ∀ y ∈ s.entries, y.serial ≠ e.serial → sounds' y = sounds y)
    (haccounted : x.Accounted s.adapters (sounds' x) s'.log) : Ledger P policy sounds' s' := by
  have hold := hs.serials_old e (List.mem_append_left _ he)
  have hsame : ∀ n, n ≠ e.serial → handovers n s'.log = handovers n s.log := by
    intro n hne
    rw [hlog]
    exact handovers_dispatched_of_ne hne ..
  have hinstalled : ∀ y ∈ s'.registry, y = x ∨ y ∈ s.registry ∧ y.serial ≠ e.serial := by
    intro y hy
    rw [hregistry] at hy
    rcases mem_replaceEntry.mp hy with ⟨rfl, -⟩ | ⟨hy, hne⟩
    · exact .inl rfl
    · exact .inr ⟨hy, hserial ▸ hne⟩
  constructor
  case policy_eq => exact hpolicy.trans h.policy_eq
  case fit =>
    rw [hadapter]
    exact h.fit
  case fresh =>
    intro n hn
    have hnew := Nat.le_trans hcreated hn
    have hne : n ≠ e.serial := fun heq => absurd hold (heq ▸ Nat.not_lt_of_le hnew)
    exact (hsame n hne).trans (h.fresh n hnew)
  case installed =>
    intro y hy
    rw [hadapters]
    rcases hinstalled y hy with rfl | ⟨hy, hne⟩
    · exact haccounted
    · rw [hothers y (List.mem_append_left _ hy) hne]
      exact (PartEntry.Retimes.refl y).accounted (hsame _ hne) (h.installed y hy)
  case discarded =>
    intro y hy
    rw [hdiscarded] at hy
    have hne := hs.serial_ne he hy
    obtain ⟨number, hnumber⟩ := h.discarded y hy
    rw [hothers y (List.mem_append_right _ hy) hne]
    exact ⟨number, (PartEntry.Retimes.refl y).accounted (hsame _ hne) hnumber⟩
  case compiled =>
    intro y hy
    rcases List.mem_append.mp hy with hy | hy
    · rcases hinstalled y hy with rfl | ⟨hy, -⟩
      · rw [hindex, hevents]
        exact h.compiled e (List.mem_append_left _ he)
      · exact h.compiled y (List.mem_append_left _ hy)
    · exact h.compiled y (List.mem_append_right _ (hdiscarded ▸ hy))
  case ends =>
    refine h.ends.grow [_] hlog (by simp [LogItem.isEnding]) fun y hy => ?_
    have hentries : s'.entries = (s.replaceEntry x).registry ++ s.discarded := by
      rw [entries, hregistry, hdiscarded]
    rw [hentries]
    by_cases hown : y.serial = e.serial
    · rw [hs.eq_of_serial hy (List.mem_append_left _ he) hown]
      exact ⟨x, List.mem_append_left _ (mem_replaceEntry.mpr (.inl ⟨rfl, e, he, hserial.symm⟩)),
        hindex, hserial, hevents⟩
    · exact ⟨y, Timed.mem_entries_replace hy (hserial ▸ hown), rfl, rfl, rfl⟩

/-- The next event of an entry that is silent can be started. -/
lemma start (h : Ledger P policy sounds s) (sounds' : PartEntry → Bool) (hs : s.Timed)
    {e : PartEntry} {event : Event} {rest : List Event} (he : e ∈ s.registry)
    (hsilent : sounds e = false) (hqueue : e.part.queue = event :: rest)
    (routing onProcess : Option String) (time : Double)
    (hothers : ∀ x ∈ s.entries, x.serial ≠ e.serial → sounds' x = sounds x)
    (hnow : ∀ x, x.serial = e.serial → x.isPlaying = true → sounds' x = true) :
    Ledger P policy sounds'
      ((s.arm e { e.part with queue := rest } event routing onProcess).record
        (.dispatched time e.index e.serial s.adapters true event)) := by
  set armed : PartEntry := { e with
    part := { e.part with queue := rest }, timer := some s.created, lastEvent := some event }
  obtain ⟨stopped, sounding, hevents, hsome, -, hhistory⟩ := h.installed e he
  rw [hsilent, Option.isSome_eq_false_iff, Option.isNone_iff_eq_none] at hsome
  subst hsome
  have haccounted : armed.Accounted s.adapters (sounds' armed)
      (.dispatched time e.index e.serial s.adapters true event :: s.log) := by
    rw [hnow armed rfl rfl]
    refine ⟨stopped, some event, ?_, rfl, fun _ heq => heq, ?_⟩
    · refine hevents.trans ?_
      rw [hqueue, Option.toList_none, List.append_nil, Option.toList_some, List.append_assoc]
      rfl
    · have hthen := congrArg (· ++ [Handover.mk s.adapters true event]) hhistory
      exact (handovers_dispatched ..).trans (hthen.trans (alternation_start ..))
  exact h.dispatch (x := armed) hs he rfl rfl rfl rfl rfl rfl rfl (Nat.le_succ _) rfl rfl hothers
    haccounted

/-- The event of an installed entry that sounds can be stopped. -/
lemma stop (h : Ledger P policy sounds s) (sounds' : PartEntry → Bool) (hs : s.Timed)
    {e : PartEntry} {event : Event} (he : e ∈ s.registry) (hsounding : sounds e = true)
    (hlast : e.lastEvent = some event) (time : Double) (index : Nat)
    (hothers : ∀ x ∈ s.entries, x.serial ≠ e.serial → sounds' x = sounds x)
    (hnow : sounds' e = false) :
    Ledger P policy sounds'
      (s.record (.dispatched time index e.serial s.adapters false event)) := by
  obtain ⟨stopped, sounding, hevents, hsome, hsounded, hhistory⟩ := h.installed e he
  obtain ⟨event', rfl⟩ := Option.isSome_iff_exists.mp (hsome.trans hsounding)
  obtain rfl : event = event' := Option.some.inj (hlast.symm.trans (hsounded event' rfl))
  have haccounted : e.Accounted s.adapters (sounds' e)
      (.dispatched time index e.serial s.adapters false event :: s.log) := by
    rw [hnow]
    refine ⟨stopped ++ [event], none, ?_, rfl, by simp, ?_⟩
    · rw [hevents]
      simp
    · have hthen := congrArg (· ++ [Handover.mk s.adapters false event]) hhistory
      exact (handovers_dispatched ..).trans (hthen.trans (alternation_stop ..))
  have hregistry : s.registry = (s.replaceEntry e).registry := by
    obtain ⟨before, later, hsplit, hreplaced⟩ := hs.replaceEntry_eq he rfl
    rw [hreplaced, hsplit]
  exact h.dispatch hs he rfl rfl rfl rfl rfl rfl rfl (Nat.le_refl _) hregistry rfl hothers haccounted

/-- An entry that is silent and has no event left can end. -/
lemma finish (h : Ledger P policy sounds s) (env : Environment) {e x : PartEntry}
    (he : e ∈ s.registry) (hx : x.Retimes e) (hsilent : sounds e = false)
    (hqueue : e.part.queue = []) : Ledger P policy sounds (s.finish env x) := by
  obtain ⟨counts, idle, waiters, hs⟩ := s.finish_eq env x
  have hhandovers : ∀ n, handovers n (s.endItems x ++ s.log) = handovers n s.log := by
    intro n
    by_cases hhook : s.hooks.ended = true
    · simp [endItems, hhook, handovers_cons, LogItem.handover?]
    · simp [endItems, hhook, handovers_cons, LogItem.handover?]
  rw [hs]
  constructor
  case policy_eq => exact h.policy_eq
  case fit => exact h.fit
  case fresh => exact fun n hn => (hhandovers n).trans (h.fresh n hn)
  case installed =>
    exact fun y hy => (PartEntry.Retimes.refl y).accounted (hhandovers _) (h.installed y hy)
  case discarded =>
    intro y hy
    obtain ⟨number, haccounted⟩ := h.discarded y hy
    exact ⟨number, (PartEntry.Retimes.refl y).accounted (hhandovers _) haccounted⟩
  case compiled => exact h.compiled
  case ends =>
    obtain ⟨stopped, sounding, hevents, hsome, -, hhistory⟩ := h.installed e he
    rw [hsilent, Option.isSome_eq_false_iff, Option.isNone_iff_eq_none] at hsome
    subst hsome
    rw [hqueue, Option.toList_none, List.append_nil, List.append_nil] at hevents
    intro time index earlier hsuffix
    have hrest : ∀ {l : List LogItem}, (.call time index .ended :: earlier) <:+
        (.finished s.clock x.index x.serial :: l) → (.call time index .ended :: earlier) <:+ l :=
      fun hmore => suffix_of_append [_] (by simp [LogItem.isEnding]) hmore
    by_cases hhook : s.hooks.ended = true
    · simp only [endItems, hhook, if_true] at hsuffix
      rcases List.suffix_cons_iff.mp hsuffix with heq | hmore
      · obtain ⟨hcall, rfl⟩ := List.cons.inj heq
        cases hcall
        refine ⟨e, List.mem_append_left _ he, hx.index.symm, ?_, s.adapters, ?_⟩
        · exact ⟨s.log, by rw [hx.serial]; rfl⟩
        · rw [hevents, ← hhistory]
          simp [handovers_cons, LogItem.handover?]
      · exact h.ends time index earlier (hrest hmore)
    · simp only [endItems, hhook] at hsuffix
      exact h.ends time index earlier (hrest hsuffix)

/-- Another source can be adopted when no part is installed. -/
lemma adopt (h : Ledger P policy sounds s) (hnone : s.registry = []) {adapter : Adapter}
    (hfit : adapter.IsFit) : Ledger P policy sounds (s.adopt adapter) where
  policy_eq := h.policy_eq
  fit := by
    intro adapter' heq
    cases heq
    exact hfit
  fresh := h.fresh
  installed := by
    intro e he
    rw [show (s.adopt adapter).registry = [] from hnone] at he
    cases he
  discarded := h.discarded
  compiled := h.compiled
  ends := h.ends

/-- Parts can be installed where there are none. -/
lemma install (h : Ledger P policy (·.isPlaying) s) (hnone : s.registry = [])
    {parts : List (Nat × List Event)} (hindices : (parts.map (·.1)).Nodup)
    (hparts : ∀ p ∈ parts, P p.1 p.2) : Ledger P policy (·.isPlaying) (s.installParts parts) := by
  rw [installParts_of_nil hnone hindices]
  constructor
  case policy_eq => exact h.policy_eq
  case fit => exact h.fit
  case fresh => exact fun n hn => h.fresh n (Nat.le_of_add_right_le hn)
  case installed =>
    intro e he
    obtain ⟨-, hqueue, htimer, -⟩ := eq_of_mem_freshEntries he
    have hserial := List.mem_map_of_mem (f := (·.serial)) he
    rw [map_serial_freshEntries, List.mem_range'_1] at hserial
    rw [e.not_isPlaying_iff.mpr htimer]
    refine ⟨[], none, hqueue.symm, rfl, by simp, ?_⟩
    exact h.fresh e.serial hserial.1
  case discarded => exact h.discarded
  case compiled =>
    intro e he
    rcases List.mem_append.mp he with he | he
    · exact hparts _ (eq_of_mem_freshEntries he).1
    · exact h.compiled e (List.mem_append_right _ he)
  case ends =>
    refine h.ends.grow [] rfl (fun _ hi => absurd hi List.not_mem_nil) fun y hy => ?_
    rw [entries, hnone] at hy
    exact ⟨y, List.mem_append_right _ hy, rfl, rfl, rfl⟩

end Ledger

end Session

/-! ## What each operation does -/

section

open Session

variable {P : Nat → List Event → Prop} {policy : ErrorPolicy} {env : Environment}

/-- The entries that sound are those of a list. -/
def soundIn (l : List PartEntry) (e : PartEntry) : Bool := (l.map (·.serial)).contains e.serial

/-- When no call fails, the events of all entries that sound can be stopped one after another. -/
lemma stopEntries_ledger (never : env.NeverFails) (onProcess : Option String) (l : List PartEntry)
    {s : Session} (hs : s.Timed) (hadapter : l ≠ [] → s.adapter ≠ none)
    (hl : ∀ y ∈ l, y.lastEvent ≠ none ∧ ∃ x ∈ s.registry, x.Retimes y)
    (hnodup : (l.map (·.serial)).Nodup) (h : Ledger P policy (soundIn l) s) :
    (Step.forEach (stopEntry (handler env 0) onProcess) l s).2 = none ∧
      Ledger P policy (soundIn []) (Step.forEach (stopEntry (handler env 0) onProcess) l s).1 := by
  induction l generalizing s with
  | nil => exact ⟨rfl, h⟩
  | cons y rest ih =>
      obtain ⟨hevent, x, hx, hretimes⟩ := hl y List.mem_cons_self
      obtain ⟨event, hevent⟩ := Option.ne_none_iff_exists'.mp hevent
      obtain ⟨adapter, hadapter⟩ :=
        Option.ne_none_iff_exists'.mp (hadapter (List.cons_ne_nil y rest))
      obtain ⟨hnot, hrest⟩ := List.nodup_cons.mp hnodup
      have hstep : stopEntry (handler env 0) onProcess y s =
          stopEvent (handler env 0) y.index y.serial event onProcess s := by
        have hfound := hs.entryOf?_of_mem (List.mem_append_left _ hx)
        rw [hretimes.serial] at hfound
        simp [stopEntry, hfound, hretimes.lastEvent, hevent, hadapter]
      have hsafe := stopEvent_safe never hadapter (h.fit adapter hadapter) y.index y.serial event
        onProcess
      have hnotes := stopEvent_notes env hadapter y.index y.serial event onProcess
      have hstopped : Ledger P policy (soundIn rest)
          (s.record (.dispatched s.clock y.index y.serial s.adapters false event)) := by
        have hstop := h.stop (soundIn rest) hs hx (by simp [soundIn, hretimes.serial])
          (hretimes.lastEvent.trans hevent) s.clock y.index
        rw [hretimes.serial] at hstop
        refine hstop (fun z _ hne => ?_) ?_
        · simp [soundIn, hne]
        · rw [soundIn, hretimes.serial, ← Bool.not_eq_true, List.contains_iff_mem]
          exact hnot
      rw [Step.forEach, Step.andThen_of_none (by rw [hstep]; exact hsafe), hstep]
      have hregistry := hnotes.registry_eq
      have hsame : (s.record (.dispatched s.clock y.index y.serial s.adapters false event)).Timed :=
        hs.sameParts ⟨rfl, rfl, rfl, rfl, rfl, rfl⟩
      refine ih (hsame.sameParts hnotes.sameParts) ?_ ?_ hrest
        (hstopped.notes hnotes fun item hitem => hitem.isQuiet)
      · intro _
        rw [hnotes.eq_log]
        exact hadapter ▸ Option.some_ne_none adapter
      · intro z hz
        obtain ⟨hzevent, x', hx', hretimes'⟩ := hl z (List.mem_cons_of_mem y hz)
        exact ⟨hzevent, x', hregistry ▸ hx', hretimes'⟩

/-- The installed entries that play are all that play. -/
lemma soundIn_playing {s : Session} (hs : s.WellTimed) {y : PartEntry} (hy : y ∈ s.entries) :
    soundIn (s.registry.filter (·.isPlaying)) y = y.isPlaying := by
  rcases hplays : y.isPlaying with _ | _
  · rw [soundIn, ← Bool.not_eq_true, List.contains_iff_mem, List.mem_map]
    rintro ⟨z, hz, hserial⟩
    obtain ⟨hzmem, hzplays⟩ := List.mem_filter.mp hz
    rw [hs.eq_of_serial (List.mem_append_left _ hzmem) hy hserial, hplays] at hzplays
    cases hzplays
  · rw [soundIn, List.contains_iff_mem]
    rcases List.mem_append.mp hy with hy | hy
    · exact List.mem_map_of_mem (List.mem_filter.mpr ⟨hy, hplays⟩)
    · rw [y.not_isPlaying_iff.mpr (hs.discarded_idle y hy)] at hplays
      cases hplays

/-- Once all are disarmed the entries that played still sound. -/
lemma disarm_ledger {s : Session} (hs : s.WellTimed) (h : Ledger P policy (·.isPlaying) s) :
    Ledger P policy (soundIn (s.registry.filter (·.isPlaying))) s.disarm := by
  set playing := s.registry.filter (·.isPlaying)
  obtain ⟨idle, waiters, heq⟩ := hs.disarm_eq
  have hretimed : ∀ y : PartEntry, soundIn playing { y with timer := none } = soundIn playing y :=
    fun _ => rfl
  rw [heq]
  refine h.transfer [] rfl (fun _ hi => absurd hi List.not_mem_nil) rfl rfl rfl rfl
    (fun x hx => ?_) (fun x hx => ?_) fun y hy => ?_
  · obtain ⟨y, hy, rfl⟩ := List.mem_map.mp hx
    have hsounds := soundIn_playing hs (List.mem_append_left _ hy)
    exact ⟨y, hy, .of_timer y none, (hretimed y).trans hsounds⟩
  · have hin := List.mem_append_right s.registry hx
    exact ⟨x, hin, .refl x, soundIn_playing hs hin⟩
  · rcases List.mem_append.mp hy with hy | hy
    · exact ⟨{ y with timer := none }, List.mem_append_left _ (List.mem_map_of_mem hy),
        .of_timer y none⟩
    · exact ⟨y, List.mem_append_right _ hy, .refl y⟩

/-- When no call fails a halt succeeds, and all that was sounding is stopped. -/
lemma halt_ledger (never : env.NeverFails) (onProcess : Option String) {s : Session}
    (hs : s.WellTimed) (h : Ledger P policy (·.isPlaying) s) :
    (halt (handler env 0) onProcess s).2 = none ∧
      Ledger P policy (·.isPlaying) (halt (handler env 0) onProcess s).1 := by
  have hdisarmed := disarm_ledger hs h
  obtain ⟨idle, waiters, heq⟩ := hs.disarm_eq
  set playing := s.registry.filter (·.isPlaying)
  have hadapter : playing ≠ [] → s.disarm.adapter ≠ none := by
    intro hne
    obtain ⟨y, hy⟩ := List.exists_mem_of_ne_nil playing hne
    obtain ⟨hymem, hyplays⟩ := List.mem_filter.mp hy
    obtain ⟨t, ht, -⟩ := hs.owner_of_isPlaying hymem hyplays
    rw [heq]
    exact hs.sourced (List.ne_nil_of_mem ht)
  have hl : ∀ y ∈ playing, y.lastEvent ≠ none ∧ ∃ x ∈ s.disarm.registry, x.Retimes y := by
    intro y hy
    obtain ⟨hymem, hyplays⟩ := List.mem_filter.mp hy
    obtain ⟨t, -, howns⟩ := hs.owner_of_isPlaying hymem hyplays
    refine ⟨howns.event ▸ Option.some_ne_none _, { y with timer := none }, ?_, .of_timer y none⟩
    rw [heq]
    exact List.mem_map_of_mem hymem
  have hnodup : (playing.map (·.serial)).Nodup :=
    hs.serials_registry.sublist (List.filter_sublist.map _)
  obtain ⟨hnone, hstopped⟩ := stopEntries_ledger never onProcess playing hs.toTimed.disarm hadapter
    hl hnodup hdisarmed
  rw [halt_apply]
  refine ⟨hnone, hstopped.congr fun e he => ?_⟩
  have hidle := halt_idle env onProcess hs.toTimed
  have hkept := halt_discarded env onProcess s
  rw [halt_apply] at hidle hkept
  have htimer : e.timer = none := by
    rcases List.mem_append.mp he with he | he
    · exact hidle e he
    · exact hs.discarded_idle e (hkept ▸ he)
  rw [e.not_isPlaying_iff.mpr htimer]
  rfl

lemma prepare_ledger (never : env.NeverFails) {source : SoundSource} {shape : Option SourceShape}
    {texts : List String} {s : Session} (hs : s.WellTimed) (h : Ledger P policy (·.isPlaying) s)
    (hfit : ∀ adapter, source.adapter shape = .ok adapter → adapter.IsFit)
    (hparts : ∀ p ∈ installedParts policy (outcomesFrom policy 0 texts), P p.1 p.2) :
    Ledger P policy (·.isPlaying) (prepare (handler env 0) source shape texts s).1 := by
  obtain ⟨hnone, hhalted⟩ := halt_ledger never none hs h
  have hcleared : Ledger P policy (·.isPlaying) (halt (handler env 0) none s).1.clear := by
    refine hhalted.transfer [] rfl (fun _ hi => absurd hi List.not_mem_nil) rfl rfl rfl
      rfl (fun x hx => absurd hx List.not_mem_nil) (fun x hx => ⟨x, hx, .refl x, rfl⟩)
      fun y hy => ⟨y, hy, .refl y⟩
  rcases prepare_cases env source shape texts s with
    ⟨hfails, -⟩ | ⟨-, e, -, heq⟩ | ⟨-, adapter, s', hsource, hnotes, ⟨e, heq⟩ | heq⟩
  · exact absurd hnone hfails
  · rw [heq]
    exact hcleared
  · rw [heq]
    exact (hcleared.adopt rfl (hfit adapter hsource)).notes hnotes fun item hi => hi.isQuiet
  · have hreported := (hcleared.adopt rfl (hfit adapter hsource)).notes hnotes
      fun item hi => hi.isQuiet
    rw [heq, h.policy_eq]
    exact hreported.install hnotes.registry_eq (installedParts_nodup policy texts) hparts

lemma play_ledger (index : Nat) (routing onProcess : Option String) {s : Session} (hs : s.Timed)
    (h : Ledger P policy (·.isPlaying) s) :
    Ledger P policy (·.isPlaying) (play (handler env 0) index routing onProcess s).1 := by
  rcases play_cases env index routing onProcess s with
    ⟨-, heq⟩ | ⟨e, -, hentry, -, hidle, hqueue, heq⟩ |
    ⟨e, -, event, rest, hentry, -, hidle, hqueue, hnotes⟩
  · rw [heq]
    exact h
  · rw [heq]
    exact h.finish env (mem_of_entryAt? hentry).1 (.refl e) hidle hqueue
  · have hstarted := h.start (·.isPlaying) hs (mem_of_entryAt? hentry).1 hidle hqueue
      routing onProcess s.clock (fun _ _ _ => rfl) fun _ _ hplays => hplays
    exact hstarted.notes hnotes fun item hi => hi.isQuiet

lemma playAll_ledger (routing onProcess : Option String) {s : Session} (hs : s.Timed)
    (h : Ledger P policy (·.isPlaying) s) :
    Ledger P policy (·.isPlaying) (playAll (handler env 0) routing onProcess s).1 := by
  have hkeeps : (playAll (handler env 0) routing onProcess).Keeps fun s =>
      s.Timed ∧ Ledger P policy (·.isPlaying) s :=
    Step.Leads.given fun _ => Step.Leads.forEach fun index _ s hboth =>
      ⟨play_keeps timed_invariant env 0 index routing onProcess s hboth.1,
        play_ledger index routing onProcess hboth.1 hboth.2⟩
  exact (hkeeps s ⟨hs, h⟩).2

lemma fire_ledger {s : Session} (hs : s.WellTimed) (h : Ledger P policy (·.isPlaying) s)
    {t : Timer} (ht : t ∈ s.timers) :
    Ledger P policy (·.isPlaying) (fire (handler env 0) t s) := by
  obtain ⟨e, he, howns⟩ := hs.owned_installed ht
  have hplays := howns.isPlaying
  have htimed := hs.toTimed.ring ht he howns
  obtain ⟨stopped, hstopped, hrest⟩ := fire_cases env hs.toTimed ht he howns
  -- The entry that rings sounds although it has no timer.
  let sounds : PartEntry → Bool := fun x => x.isPlaying || x.serial = e.serial
  have hmem := mem_ring he t
  have hother : ∀ x : PartEntry, x.serial ≠ e.serial → sounds x = x.isPlaying := by
    intro x hne
    simp [sounds, hne]
  have hrung : Ledger P policy sounds (s.ring t e) := by
    refine h.transfer [.fired t.due] rfl ?_ rfl rfl rfl rfl (fun x hx => ?_)
      (fun x hx => ?_) fun y hy => ?_
    · intro item hi
      rw [List.mem_singleton.mp hi]
      exact ⟨fun _ => rfl, fun _ => rfl⟩
    · rcases mem_replaceEntry.mp hx with ⟨rfl, -⟩ | ⟨hx, hne⟩
      · exact ⟨e, he, .of_timer e none, by simp [sounds, hplays]⟩
      · exact ⟨x, hx, .refl x, hother x hne⟩
    · exact ⟨x, List.mem_append_right _ hx, .refl x, hother x (hs.serial_ne he hx)⟩
    · by_cases hserial : y.serial = e.serial
      · rw [hs.eq_of_serial hy (List.mem_append_left _ he) hserial]
        exact ⟨_, List.mem_append_left _ hmem, .of_timer e none⟩
      · exact ⟨y, Timed.mem_entries_replace hy hserial, .refl y⟩
  have hsilent : Ledger P policy (·.isPlaying) stopped := by
    have hstop := hrung.stop (·.isPlaying) htimed hmem (by simp [sounds])
      howns.event t.due e.index (fun x _ hne => (hother x hne).symm) rfl
    exact hstop.notes hstopped fun item hi => hi.isQuiet
  have hmem' : { e with timer := none } ∈ stopped.registry := hstopped.registry_eq ▸ hmem
  rcases hrest with ⟨hqueue, hfire⟩ | ⟨event, rest, hqueue, hfire⟩
  · have hfinished := hsilent.finish env hmem' (.refl _) rfl hqueue
    exact hfinished.notes hfire fun item hi => hi.isQuiet
  · have hdispatched : ((s.ring t e).record (.dispatched t.due e.index e.serial s.adapters false
        t.event)).Timed := htimed.sameParts ⟨rfl, rfl, rfl, rfl, rfl, rfl⟩
    have hsame : stopped.Timed := hdispatched.sameParts hstopped.sameParts
    have hstarted := hsilent.start (·.isPlaying) hsame hmem' rfl hqueue t.routing
      t.onProcess t.due (fun _ _ _ => rfl) fun _ _ hplays => hplays
    have hnumber : stopped.adapters = s.adapters := by
      rw [hstopped.eq_log]
      rfl
    rw [hnumber] at hstarted
    exact hstarted.notes hfire fun item hi => hi.isQuiet

end

/-! ## Every run -/

/-- A source that is prepared has the methods of its shape. -/
def Move.Fits : Move → Prop
  | .prepare source _ shape => ∀ forced adapter, forcedShape shape = .ok forced →
      source.adapter forced = .ok adapter → adapter.IsFit
  | _ => True

/-- A source has the methods of the shape that it is seen to have. -/
lemma Move.fits_of_detected {source : SoundSource} (h : ∀ adapter, source ≠ .adapted adapter)
    (texts : List String) : (Move.prepare source texts none).Fits := by
  intro forced adapter hshape hadapter
  cases hshape
  cases source with
  | generators count kind =>
      cases hadapter
      trivial
  | device shape declared kind =>
      cases declared <;> cases shape <;> cases hadapter <;> trivial
  | adapted a => exact absurd rfl (h a)
  | other kind => cases hadapter

open Session in
lemma move_ledger {P : Nat → List Event → Prop} {policy : ErrorPolicy} {env : Environment}
    (never : env.NeverFails) {m : Move} (hfit : m.Fits)
    (hparts : ∀ source texts shape, m = .prepare source texts shape →
      ∀ p ∈ installedParts policy (outcomesFrom policy 0 texts), P p.1 p.2)
    {s : Session} (hs : s.WellTimed) (h : Ledger P policy (·.isPlaying) s) :
    Ledger P policy (·.isPlaying) (s.move env 0 m) := by
  refine move_elim env h (fun _ _ _ _ h' => { h' with }) ?prepares ?plays ?playsAll ?halts ?fires
  case prepares =>
    intro source texts shape forced hm hshape
    subst hm
    exact prepare_ledger never hs h (fun adapter => hfit forced adapter hshape)
      (hparts source texts shape rfl)
  case plays => exact fun _ routing onProcess index _ => play_ledger index routing onProcess hs.toTimed h
  case playsAll => exact fun routing onProcess _ => playAll_ledger routing onProcess hs.toTimed h
  case halts => exact fun onProcess _ => (halt_ledger never onProcess hs h).2
  case fires => exact fun t ht _ => fire_ledger hs h ht

/-- **Start and stop in turn.**  After every run in which no call fails or calls back and sources
have the methods of their shapes, every entry that was ever installed holds a compiled part of some
batch, and the events handed over for it are the first of its events, in order, each started and
then stopped, all on one wrapped source.  The last of them is started and not yet stopped exactly
if the entry has a timer, and then it is the event taken last.  A hook was told of the end of an
entry only once all events of this entry had been started and stopped. -/
theorem events_alternate (env : Environment) (depth : Nat) (passive : env.IsPassive)
    (never : env.NeverFails) (hooks : Hooks) (policy : ErrorPolicy) (moves : List Move)
    (fits : ∀ m ∈ moves, m.Fits) :
    let s := (Session.initial hooks policy).after env depth moves
    (∀ e ∈ s.entries,
      (∃ source texts shape, Move.prepare source texts shape ∈ moves ∧
        (e.index, e.part.events) ∈ installedParts policy (outcomesFrom policy 0 texts)) ∧
      ∃ number, e.Accounted number e.timer.isSome s.log) ∧
    s.TellsEnds := by
  intro s
  set P : Nat → List Event → Prop := fun index events => ∃ source texts shape,
    Move.prepare source texts shape ∈ moves ∧
      (index, events) ∈ installedParts policy (outcomesFrom policy 0 texts) with hP
  have hledger : s.WellTimed ∧ Session.Ledger P policy (·.isPlaying) s := by
    refine Session.after_keeps (I := fun s => s.WellTimed ∧ Session.Ledger P policy (·.isPlaying) s)
      (fun m hm s ⟨hs, h⟩ => ?_) ⟨after_wellTimed passive depth hooks policy [], ?_⟩
    · rw [Session.move_depth passive]
      refine ⟨move_wellTimed env m s hs, move_ledger never (fits m hm) ?_ hs h⟩
      rintro source texts shape rfl p hp
      exact ⟨source, texts, shape, hm, hp⟩
    · constructor <;> simp [Session.initial, Session.entries, handovers, Session.TellsEnds]
  obtain ⟨-, h⟩ := hledger
  refine ⟨fun e he => ⟨h.compiled e he, ?_⟩, h.ends⟩
  rcases List.mem_append.mp he with he | he
  · exact ⟨s.adapters, h.installed e he⟩
  · exact h.discarded e he

/-- A part is halted at its second event and played on to its end; then a batch for another source
is prepared and played. -/
theorem events_alternate_across_sources :
    let env := Environment.failing []
    let moves : List Move :=
      [.prepare (.generators 1 "list") ["T60 O4 C4 D4"] none, .play (.ofIndex 0) none none,
        .fire 1, .halt none, .play (.ofIndex 0) none none,
        .prepare (.device .chords true "Device") ["T60 O3 C1"] none,
        .play (.ofIndex 0) none none]
    let s := (Session.initial .all .abort).after env 0 moves
    (env.IsPassive ∧ env.NeverFails ∧ ∀ m ∈ moves, m.Fits) ∧
      (s.entries.map fun e => (handovers e.serial s.log).map fun h => (h.adapter, h.starting)) =
        [[(2, true)], [(1, true), (1, false), (1, true), (1, false)]] ∧
      (∀ e ∈ s.entries,
        (∃ source texts shape, Move.prepare source texts shape ∈ moves ∧
          (e.index, e.part.events) ∈ installedParts .abort (outcomesFrom .abort 0 texts)) ∧
        ∃ number, e.Accounted number e.timer.isSome s.log) ∧
      s.TellsEnds := by
  intro env moves s
  have hpassive : env.IsPassive := Environment.failing_isPassive []
  have hnever : env.NeverFails := fun _ _ => rfl
  have hfits : ∀ m ∈ moves, m.Fits := by
    simp only [moves, List.forall_mem_cons, List.not_mem_nil, false_imp_iff, implies_true, and_true]
    exact ⟨Move.fits_of_detected (by simp) _, trivial, trivial, trivial, trivial,
      Move.fits_of_detected (by simp) _, trivial⟩
  exact ⟨⟨hpassive, hnever, hfits⟩, by decide +kernel,
    events_alternate env 0 hpassive hnever .all .abort moves hfits⟩

end MusicMacro
