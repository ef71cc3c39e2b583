import MusicMacro.Playback.Command
import MusicMacro.Proofs.Playback.Step

/-!
# What is written to the log

Most of what playback does is to hand events over and to make calls; both only write to the log
and count calls.  `Session.Notes P` relates a session to one that differs from it by log items
with a property and by the counts, and `LogItem.IsAside` is the property of the items that tell
of a call, a warning or an error on the way of one event.

What the log says of one entry is read off it in order: `handovers` are the events that were
handed to a source, `starts` those of them that began, and `endings` counts the calls that told
that a part had ended.
-/

namespace MusicMacro

/-! ## Environments that only answer -/

/-- No command is given during a call; calls may still fail. -/
def Environment.IsPassive (env : Environment) : Prop := ∀ name n, (env name n).commands = []

/-- No call fails. -/
def Environment.NeverFails (env : Environment) : Prop := ∀ name n, (env name n).fails = false

/-- The environment that only answers and lets every call of these names fail. -/
def Environment.failing (names : List CallName) : Environment := fun name _ =>
  ⟨[], names.contains name⟩

lemma Environment.failing_isPassive (names : List CallName) : (failing names).IsPassive :=
  fun _ _ => rfl

/-- The environment in which no call fails and commands are given during the first call of a
name. -/
def Environment.giving (name : CallName) (commands : List Command) : Environment := fun called n =>
  ⟨if called = name ∧ n = 0 then commands else [], false⟩

/-- The environment that lets certain calls fail in addition, each told by its name and by how many
calls of that name were made before. -/
def Environment.alsoFailing (env : Environment) (calls : List (CallName × Nat)) : Environment :=
  fun name n => ⟨(env name n).commands, (env name n).fails || calls.contains (name, n)⟩

/-- Where no command is given during a call, the depth to which commands may nest is of no
account. -/
lemma handler_of_no_commands {env : Environment} {s : Session} {c : Call}
    (h : (env c.name (s.countOf c.name)).commands = []) (depth index : Nat) :
    handler env depth index c s = handler env 0 index c s := by
  cases depth with
  | zero => rfl
  | succ depth => simp only [handler, h, List.foldl_nil]

lemma handler_eq_zero {env : Environment} (h : env.IsPassive) (depth : Nat) :
    handler env depth = handler env 0 := by
  funext index c s
  exact handler_of_no_commands (h c.name (s.countOf c.name)) depth index

@[simp] lemma handler_zero_fst (env : Environment) (index : Nat) (c : Call) (s : Session) :
    (handler env 0 index c s).1 = s.recordCall index c := rfl

lemma handler_zero_snd (env : Environment) (index : Nat) (c : Call) (s : Session) :
    (handler env 0 index c s).2 =
      if (env c.name (s.countOf c.name)).fails then some (.raised c.name (s.countOf c.name))
      else none := rfl

/-! ## Sessions that differ by their log -/

/-- The second session has more in its log, all of it with the property, and other counts, but not
of the calls that tell of an end. -/
def Session.Notes (P : LogItem → Prop) (s s' : Session) : Prop :=
  ∃ items counts, s' = { s with log := items ++ s.log, counts := counts } ∧
    (∀ item ∈ items, P item) ∧ counts.lookup .ended = s.counts.lookup .ended

namespace Session

variable {P Q : LogItem → Prop} {s s' s'' : Session}

lemma Notes.refl (s : Session) : s.Notes P s := ⟨[], s.counts, rfl, by simp, rfl⟩

lemma Notes.trans (h : s.Notes P s') (h' : s'.Notes P s'') : s.Notes P s'' := by
  obtain ⟨items, counts, rfl, hP, hcounts⟩ := h
  obtain ⟨items', counts', rfl, hP', hcounts'⟩ := h'
  refine ⟨items' ++ items, counts', by simp only [List.append_assoc], ?_, hcounts'.trans hcounts⟩
  intro item hitem
  rcases List.mem_append.mp hitem with hi | hi
  · exact hP' item hi
  · exact hP item hi

lemma Notes.mono (h : s.Notes P s') (imp : ∀ item, P item → Q item) : s.Notes Q s' := by
  obtain ⟨items, counts, rfl, hP, hcounts⟩ := h
  exact ⟨items, counts, rfl, fun item hitem => imp item (hP item hitem), hcounts⟩

lemma Notes.log (h : s.Notes P s') :
    ∃ items, s'.log = items ++ s.log ∧ ∀ item ∈ items, P item := by
  obtain ⟨items, counts, rfl, hP, -⟩ := h
  exact ⟨items, rfl, hP⟩

lemma Notes.countOf_ended (h : s.Notes P s') : s'.countOf .ended = s.countOf .ended := by
  obtain ⟨items, counts, rfl, -, hcounts⟩ := h
  rw [countOf, countOf, hcounts]

/-- All but the log and the counts is as it was. -/
lemma Notes.eq_log (h : s.Notes P s') : s' = { s with log := s'.log, counts := s'.counts } := by
  obtain ⟨items, counts, rfl, -⟩ := h
  rfl

lemma Notes.registry_eq (h : s.Notes P s') : s'.registry = s.registry := by rw [h.eq_log]

lemma Notes.hooks_eq (h : s.Notes P s') : s'.hooks = s.hooks := by rw [h.eq_log]

lemma Notes.clock_eq (h : s.Notes P s') : s'.clock = s.clock := by rw [h.eq_log]

lemma record_notes {item : LogItem} (h : P item) : s.Notes P (s.record item) :=
  ⟨[item], s.counts, rfl, by simpa using h, rfl⟩

lemma lookup_filter_of_ne {a b : CallName} (hne : a ≠ b) (counts : List (CallName × Nat)) :
    (counts.filter (·.1 ≠ b)).lookup a = counts.lookup a := by
  induction counts with
  | nil => rfl
  | cons c rest ih =>
      obtain ⟨name, n⟩ := c
      by_cases hname : name = b
      · have hmiss : (a == name) = false := by simp [hname, hne]
        rw [List.filter_cons_of_neg (by simp [hname]), ih, List.lookup_cons, hmiss]
      · rw [List.filter_cons_of_pos (by simp [hname]), List.lookup_cons, List.lookup_cons, ih]

lemma recordCall_notes {index : Nat} {c : Call} (h : P (.call s.clock index c))
    (hname : c.name ≠ .ended) : s.Notes P (s.recordCall index c) := by
  refine ⟨[.call s.clock index c], _, rfl, by simpa using h, ?_⟩
  have hmiss : (CallName.ended == c.name) = false := by simpa using hname.symm
  rw [List.lookup_cons, hmiss]
  exact lookup_filter_of_ne hname.symm s.counts

end Session

instance Session.notes_isPreorder (P : LogItem → Prop) : IsPreorder Session (Session.Notes P) where
  refl := Session.Notes.refl
  trans _ _ _ := Session.Notes.trans

/-- Every session differs from the one after the step by its log. -/
abbrev Step.Notes (P : LogItem → Prop) (step : Step) : Prop := step.Leads (Session.Notes P)

lemma Step.change_record_notes {P : LogItem → Prop} {item : LogItem} (h : P item) :
    (Step.change (·.record item)).Notes P :=
  fun _ => Session.record_notes h

/-! ## Items beside the events -/

/-- An item that tells of a call for a part, other than that the part has ended, of a warning, or
of an error that came out of a timer. -/
def LogItem.IsAside (index : Nat) : LogItem → Prop
  | .call _ i c => i = index ∧ c.name ≠ .ended
  | .warned _ => True
  | .escaped _ => True
  | _ => False

lemma handler_notes (env : Environment) (index : Nat) {c : Call} (h : c.name ≠ .ended) :
    (handler env 0 index c).Notes (LogItem.IsAside index) :=
  fun _ => Session.recordCall_notes ⟨rfl, h⟩ h

/-! ## Reading the log -/

/-- An event was handed to the wrapped source of a number, to be started or to be stopped. -/
structure Handover where
  adapter : Nat
  starting : Bool
  event : Event

/-- The handing over that an item tells of, if it is one for the entry. -/
def LogItem.handover? (entry : Nat) : LogItem → Option Handover
  | .dispatched _ _ n adapter starting event =>
    if n = entry then some ⟨adapter, starting, event⟩ else none
  | _ => none

/-- The events of an entry that were handed over, the earliest first. -/
def handovers (entry : Nat) (log : List LogItem) : List Handover :=
  (log.filterMap (·.handover? entry)).reverse

/-- The events of an entry that a source was told to start, the earliest first. -/
def starts (entry : Nat) (log : List LogItem) : List Event :=
  ((handovers entry log).filter (·.starting)).map (·.event)

/-- Whether the item tells of the call that the part of an index has ended. -/
def LogItem.isEnding (index : Nat) : LogItem → Bool
  | .call _ i .ended => i = index
  | _ => false

/-- How often a hook was told that the part of an index had ended. -/
def endings (index : Nat) (log : List LogItem) : Nat := log.countP (·.isEnding index)

/-- Whether the item tells of a call for the part of an index, or of an entry. -/
def LogItem.isFor (index entry : Nat) : LogItem → Bool
  | .call _ i _ => i = index
  | .dispatched _ _ n _ _ _ => n = entry
  | .finished _ _ n => n = entry
  | _ => false

/-- What was written to the log from a session to a later one, the latest first. -/
def Session.since (s s' : Session) : List LogItem := s'.log.take (s'.log.length - s.log.length)

lemma Session.since_eq {s s' : Session} {items : List LogItem} (h : s'.log = items ++ s.log) :
    s.since s' = items := by
  simp [since, h]

lemma Session.log_eq_since {s s' : Session} (h : s.log <:+ s'.log) :
    s'.log = s.since s' ++ s.log := by
  obtain ⟨items, hitems⟩ := h
  rw [since_eq hitems.symm, hitems]

lemma Session.since_trans {s s' s'' : Session} (h : s.log <:+ s'.log) (h' : s'.log <:+ s''.log) :
    s.since s'' = s'.since s'' ++ s.since s' := by
  refine since_eq ?_
  rw [List.append_assoc, ← log_eq_since h, ← log_eq_since h']

/-- What was done for an entry and for the part of an index, the latest first. -/
def doings (index entry : Nat) (log : List LogItem) : List LogItem :=
  log.filter (·.isFor index entry)

lemma handovers_append (entry : Nat) (items log : List LogItem) :
    handovers entry (items ++ log) = handovers entry log ++ handovers entry items := by
  simp only [handovers, List.filterMap_append, List.reverse_append]

lemma handovers_cons (entry : Nat) (item : LogItem) (log : List LogItem) :
    handovers entry (item :: log) = handovers entry log ++ (item.handover? entry).toList := by
  cases h : item.handover? entry <;> simp [handovers, h]

lemma endings_append (index : Nat) (items log : List LogItem) :
    endings index (items ++ log) = endings index log + endings index items := by
  rw [endings, List.countP_append, Nat.add_comm]
  rfl

lemma doings_append (index entry : Nat) (items log : List LogItem) :
    doings index entry (items ++ log) = doings index entry items ++ doings index entry log :=
  List.filter_append ..

lemma LogItem.IsAside.handover?_eq {index : Nat} {item : LogItem} (h : item.IsAside index)
    (entry : Nat) : item.handover? entry = none := by
  cases item with
  | dispatched => exact h.elim
  | _ => rfl

lemma LogItem.IsAside.isEnding_eq {index : Nat} {item : LogItem} (h : item.IsAside index)
    (i : Nat) : item.isEnding i = false := by
  cases item with
  | call time j c =>
      cases c with
      | ended => exact absurd rfl h.2
      | _ => rfl
  | _ => rfl

lemma LogItem.IsAside.isFor_eq {index i : Nat} {item : LogItem} (h : item.IsAside index)
    (hi : i ≠ index) (entry : Nat) : item.isFor i entry = false := by
  cases item with
  | call time j c =>
      rw [LogItem.isFor, h.1]
      exact decide_eq_false hi.symm
  | dispatched => exact h.elim
  | finished => exact h.elim
  | _ => rfl

section

variable {index : Nat} {items : List LogItem} (h : ∀ item ∈ items, item.IsAside index)

include h

lemma handovers_asides (entry : Nat) : handovers entry items = [] := by
  rw [handovers, List.filterMap_eq_nil_iff.mpr fun item hi => (h item hi).handover?_eq entry,
    List.reverse_nil]

lemma endings_asides (i : Nat) : endings i items = 0 :=
  List.countP_eq_zero.mpr fun item hi => by simp [(h item hi).isEnding_eq i]

lemma doings_asides {i : Nat} (hi : i ≠ index) (entry : Nat) : doings i entry items = [] :=
  List.filter_eq_nil_iff.mpr fun item hitem => by simp [(h item hitem).isFor_eq hi entry]

end

/-- What was handed over is among what was done. -/
lemma handovers_doings (index entry : Nat) (log : List LogItem) :
    handovers entry (doings index entry log) = handovers entry log := by
  rw [handovers, handovers, doings, List.filterMap_filter]
  congr 2
  funext item
  cases item with
  | dispatched time i n adapter starting event =>
      by_cases hn : n = entry
      · simp [LogItem.isFor, hn]
      · simp [LogItem.isFor, LogItem.handover?, hn]
  | _ => simp [LogItem.handover?]

/-- That a part had ended is told among what was done for it. -/
lemma endings_doings (index entry : Nat) (log : List LogItem) :
    endings index (doings index entry log) = endings index log := by
  rw [endings, endings, doings, List.countP_filter]
  congr 1
  funext item
  cases item with
  | call time i c =>
      cases c with
      | ended => simp [LogItem.isEnding, LogItem.isFor]
      | _ => rfl
  | _ => rfl

end MusicMacro
