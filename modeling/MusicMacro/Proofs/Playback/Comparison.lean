import MusicMacro.Proofs.Playback.Generations
import MusicMacro.Proofs.Playback.Outlook

/-!
# Two sessions compared by one part

Two sessions may look alike to a part though all sorts of things were done for other parts in them
(`Comparison.Alike`).  If the part is then played at the same time in both, or its timer fires in
both, they look alike afterwards, as long as the calls that are made for the part are answered
alike (`Comparison.play_twinsAt`, `Comparison.fire_alike`).

Answers are compared call by call of the part (`answersTo`), not by the numbers by which failures
tell of calls: these count the calls for the other parts as well.
-/

namespace MusicMacro

open Session

/-! ## Counting calls -/

/-- The item tells of a call of this name. -/
def LogItem.isCallOf (name : CallName) : LogItem → Bool
  | .call _ _ c => c.name = name
  | _ => false

/-- The item tells of a call for the part of this index. -/
def LogItem.isCallFor (index : Nat) : LogItem → Bool
  | .call _ i _ => i = index
  | _ => false

/-- The log has grown, and the calls it tells of were counted. -/
def Session.Counted (s s' : Session) : Prop :=
  ∃ items, s'.log = items ++ s.log ∧
    ∀ name, s'.countOf name = s.countOf name + items.countP (·.isCallOf name)

namespace Session

lemma Counted.grows {s s' : Session} (h : s.Counted s') : s.log <:+ s'.log := by
  obtain ⟨items, hlog, -⟩ := h
  exact ⟨items, hlog.symm⟩

lemma Counted.since {s s' : Session} (h : s.Counted s') (name : CallName) :
    s'.countOf name = s.countOf name + (s.since s').countP (·.isCallOf name) := by
  obtain ⟨items, hlog, hcounts⟩ := h
  rw [since_eq hlog, hcounts]

instance counted_isPreorder : IsPreorder Session Session.Counted where
  refl s := ⟨[], rfl, fun _ => rfl⟩
  trans := by
    rintro a b c ⟨first, hb, hfirst⟩ ⟨later, hc, hlater⟩
    refine ⟨later ++ first, by rw [hc, hb, List.append_assoc], fun name => ?_⟩
    rw [hlater, hfirst, List.countP_append]
    omega

lemma counted_of_counts {s s' : Session} (items : List LogItem) (hlog : s'.log = items ++ s.log)
    (hcounts : s'.counts = s.counts) (hitems : ∀ item ∈ items, ∀ name, item.isCallOf name = false) :
    s.Counted s' := by
  refine ⟨items, hlog, fun name => ?_⟩
  rw [countOf, hcounts, List.countP_eq_zero.mpr fun item hi => by simp [hitems item hi name]]
  rfl

lemma recordCall_counted (s : Session) (index : Nat) (c : Call) :
    s.Counted (s.recordCall index c) := by
  refine ⟨[.call s.clock index c], rfl, fun name => ?_⟩
  by_cases hname : name = c.name
  · subst hname
    simp [countOf, recordCall, LogItem.isCallOf]
  · have hmiss : (name == c.name) = false := by simpa using hname
    have hlookup : (s.recordCall index c).counts.lookup name = s.counts.lookup name := by
      rw [recordCall, List.lookup_cons, hmiss]
      exact lookup_filter_of_ne hname s.counts
    rw [countOf, hlookup]
    simp [LogItem.isCallOf, countOf, Ne.symm hname]

/-- Calls are counted in everything that playback does. -/
lemma counted_guarantee : Guarantee Session.Counted where
  same := fun hsame => counted_of_counts [] hsame.log hsame.counts (by simp)
  record := by
    intro s item hremark
    refine counted_of_counts [item] rfl rfl fun i hi name => ?_
    rw [List.mem_singleton.mp hi]
    cases item with
    | call time index c => exact hremark.elim
    | _ => rfl
  call := recordCall_counted
  arm := fun _ _ _ _ _ _ => counted_of_counts [] rfl rfl (by simp)
  ring := fun _ _ _ _ => counted_of_counts [_] rfl rfl (by simp [LogItem.isCallOf])
  drop := fun _ _ => counted_of_counts [_] rfl rfl (by simp [LogItem.isCallOf])
  disarm := by
    intro s
    obtain ⟨idle, waiters, hs⟩ := s.disarm_eq
    rw [hs]
    exact counted_of_counts [] rfl rfl (by simp)
  reply := fun _ command reply =>
    counted_of_counts [.answered command reply] rfl rfl (by simp [LogItem.isCallOf])
  clear := fun _ => counted_of_counts [] rfl rfl (by simp)
  adopt := fun _ _ => counted_of_counts [] rfl rfl (by simp)
  install := by
    intro s index events
    obtain ⟨registry, discarded, hs⟩ := s.installPart_eq index events
    rw [hs]
    exact counted_of_counts [] rfl rfl (by simp)

lemma updateIdle_counted : (Step.change updateIdle).Leads Session.Counted :=
  updateIdle_leads counted_guarantee.toPlayGuarantee

lemma escape_counted (s : Session) (e : Option PlaybackError) : s.Counted (s.escape e) := by
  rcases e with _ | e
  · exact refl_of Session.Counted s
  · exact counted_guarantee.record s (.escaped e) trivial

section

variable (env : Environment) (depth index : Nat)

lemma handler_counted (c : Call) : (handler env depth index c).Leads Session.Counted :=
  handler_leads counted_guarantee env depth index c

lemma stopEvent_counted (entry : Nat) (event : Event) (onProcess : Option String) :
    (stopEvent (handler env depth) index entry event onProcess).Leads Session.Counted :=
  stopEvent_leads counted_guarantee.toPlayGuarantee (handler_counted env depth) _ _ _ _

lemma play_counted (routing onProcess : Option String) :
    (play (handler env depth) index routing onProcess).Leads Session.Counted :=
  play_leads counted_guarantee.toPlayGuarantee (handler_counted env depth) _ _ _

variable {env depth index} in
lemma Counted.resume {s u : Session} (h : s.Counted u) {entry : Nat} {event : Event}
    {routing onProcess : Option String} :
    s.Counted (play (handler env depth) index routing onProcess
      (stopEvent (handler env depth) index entry event onProcess u).1).1 :=
  trans_of Session.Counted (trans_of Session.Counted h (stopEvent_counted env depth _ _ _ _ u))
    (play_counted env depth index routing onProcess _)

end

end Session

/-! ## Answers -/

/-- Whether the outside lets the call fail, if it gives no command. -/
def Reaction.answer? (r : Reaction) : Option Bool :=
  if r.commands.isEmpty then some r.fails else none

/-- How the calls for the part of an index were answered, the earliest first, where the calls of
each name had been counted up to `base` before. -/
def answersTo (env : Environment) (base : CallName → Nat) (index : Nat) :
    List LogItem → List (Option Bool)
  | [] => []
  | .call _ i c :: earlier =>
    answersTo env base index earlier ++
      if i = index then
        [(env c.name (base c.name + earlier.countP (·.isCallOf c.name))).answer?]
      else []
  | _ :: earlier => answersTo env base index earlier

lemma length_answersTo (env : Environment) (base : CallName → Nat) (index : Nat)
    (items : List LogItem) :
    (answersTo env base index items).length = items.countP (·.isCallFor index) := by
  induction items with
  | nil => rfl
  | cons item earlier ih =>
      cases item with
      | call time i c =>
          by_cases hi : i = index
          · simp [answersTo, LogItem.isCallFor, hi, ih]
          · simp [answersTo, LogItem.isCallFor, hi, ih]
      | _ => simp [answersTo, LogItem.isCallFor, ih]

/-- Later calls do not change how earlier ones were answered. -/
lemma answersTo_append (env : Environment) (base : CallName → Nat) (index : Nat)
    (later earlier : List LogItem) :
    answersTo env base index earlier <+: answersTo env base index (later ++ earlier) := by
  induction later with
  | nil => exact List.prefix_rfl
  | cons item later ih =>
      cases item with
      | call time i c => exact ih.trans (List.prefix_append _ _)
      | _ => exact ih

/-- From a session to a later one no command was given during the calls for the part of an index,
and these failed as the sequence says: whether the first of them did, the second, and so on. -/
def Environment.AnswersAs (env : Environment) (answer : Nat → Bool) (index : Nat)
    (s s' : Session) : Prop :=
  answersTo env s.countOf index (s.since s') =
    (List.range (answersTo env s.countOf index (s.since s')).length).map fun n => some (answer n)

instance (env : Environment) (answer : Nat → Bool) (index : Nat) (s s' : Session) :
    Decidable (env.AnswersAs answer index s s') :=
  inferInstanceAs (Decidable (_ = _))

/-- A sequence that tells all answers tells the first ones. -/
lemma eq_map_range_of_prefix {α : Type} {l l' : List α} {f : Nat → α} (hfirst : l <+: l')
    (h : l' = (List.range l'.length).map f) : l = (List.range l.length).map f := by
  rw [List.prefix_iff_eq_take.mp hfirst, h, ← List.map_take, List.take_range]
  simp

lemma Environment.AnswersAs.back {env : Environment} {answer : Nat → Bool} {index : Nat}
    {s u u' : Session} (hs : s.log <:+ u.log) (hu : u.log <:+ u'.log)
    (h : env.AnswersAs answer index s u') : env.AnswersAs answer index s u := by
  refine eq_map_range_of_prefix ?_ h
  rw [since_trans hs hu]
  exact answersTo_append ..

/-- The calls for a part are among what is done for it. -/
lemma countP_isCallFor_doings (index entry : Nat) (log : List LogItem) :
    (doings index entry log).countP (·.isCallFor index) = log.countP (·.isCallFor index) := by
  rw [doings, List.countP_filter]
  congr 1
  funext item
  cases item <;> simp [LogItem.isCallFor, LogItem.isFor]

/-! ## Two environments compared -/

/-- Two environments are compared from a session on by what becomes of one entry, when the calls
that are made for it are answered by both as one sequence says. -/
structure Comparison where
  start : Session
  index : Nat
  entry : Nat
  left : Environment
  right : Environment
  leftDepth : Nat
  rightDepth : Nat
  answer : Nat → Bool

namespace Comparison

variable (c : Comparison)

/-- How calls are made on the left. -/
def callLeft : Handler := handler c.left c.leftDepth

/-- How calls are made on the right. -/
def callRight : Handler := handler c.right c.rightDepth

/-- Two later sessions look alike to the entry. -/
structure Alike (u v : Session) : Prop where
  outlook : u.outlook c.index c.entry = v.outlook c.index c.entry
  left : c.start.Counted u
  right : c.start.Counted v

/-- Two later sessions look alike to the entry, and it is the same time in both. -/
structure Twin (u v : Session) : Prop extends c.Alike u v where
  clock : u.clock = v.clock

/-- If all calls for the entry are answered as the sequence says, then the sessions after the two
steps look alike to the entry, and one step fails exactly if the other one does. -/
def TwinsAt (f g : Step) (u v : Session) : Prop :=
  c.left.AnswersAs c.answer c.index c.start (f u).1 →
    c.right.AnswersAs c.answer c.index c.start (g v).1 →
      c.Twin (f u).1 (g v).1 ∧ ((f u).2 = none ↔ (g v).2 = none)

/-- Two steps that go the same way wherever sessions look alike. -/
structure Twins (f g : Step) : Prop where
  left : f.Leads Session.Counted
  right : g.Leads Session.Counted
  twins : ∀ u v, c.Twin u v → c.TwinsAt f g u v

variable {c} {f g f' g' : Step} {u v : Session}

lemma Alike.hooks_eq (h : c.Alike u v) : u.hooks = v.hooks := congrArg Outlook.hooks h.outlook

lemma Alike.adapter_eq (h : c.Alike u v) : u.adapter = v.adapter :=
  congrArg Outlook.adapter h.outlook

lemma Alike.adapters_eq (h : c.Alike u v) : u.adapters = v.adapters :=
  congrArg Outlook.adapters h.outlook

/-- Calls for the entry were made equally often. -/
lemma Alike.countP_eq (h : c.Alike u v) :
    (c.start.since u).countP (·.isCallFor c.index) =
      (c.start.since v).countP (·.isCallFor c.index) := by
  have hdoings : doings c.index c.entry u.log = doings c.index c.entry v.log :=
    congrArg Outlook.doings h.outlook
  have hcounts := congrArg (List.countP (·.isCallFor c.index)) hdoings
  rw [countP_isCallFor_doings, countP_isCallFor_doings, log_eq_since h.left.grows,
    log_eq_since h.right.grows, List.countP_append, List.countP_append] at hcounts
  omega

lemma Twin.record (h : c.Twin u v) {item : LogItem} (hremark : item.IsRemark) :
    c.Twin (u.record item) (v.record item) where
  outlook := by rw [record_outlook, record_outlook, h.outlook]
  clock := h.clock
  left := trans_of Session.Counted h.left (counted_guarantee.record u item hremark)
  right := trans_of Session.Counted h.right (counted_guarantee.record v item hremark)

/-! ### How they compose -/

lemma skip_twins : c.Twins .skip .skip where
  left := Step.skip_leads
  right := Step.skip_leads
  twins := fun _ _ h _ _ => ⟨h, Iff.rfl⟩

lemma fail_twins (e : PlaybackError) : c.Twins (.fail e) (.fail e) where
  left := Step.fail_leads e
  right := Step.fail_leads e
  twins := fun _ _ h _ _ => ⟨h, Iff.rfl⟩

/-- What the second steps add to the log does not change what was answered before. -/
lemma TwinsAt.andThen (h : c.Twin u v) (hf : f.Leads Session.Counted) (hg : g.Leads Session.Counted)
    (hfirst : c.TwinsAt f g u v) (hsecond : c.Twins f' g') :
    c.TwinsAt (f.andThen f') (g.andThen g') u v := by
  intro hu hv
  have hfu := trans_of Session.Counted h.left (hf u)
  have hgv := trans_of Session.Counted h.right (hg v)
  obtain ⟨hmid, herror⟩ := hfirst (hu.back hfu.grows (hsecond.left.from_first f u).grows)
    (hv.back hgv.grows (hsecond.right.from_first g v).grows)
  rcases hfu' : (f u).2 with _ | e
  · rw [Step.andThen_of_none hfu'] at hu ⊢
    rw [Step.andThen_of_none (herror.mp hfu')] at hv ⊢
    exact hsecond.twins _ _ hmid hu hv
  · obtain ⟨e', hgv'⟩ := Option.ne_none_iff_exists'.mp fun hnone => by
      rw [herror.mpr hnone] at hfu'
      cases hfu'
    rw [Step.andThen_of_some hfu', Step.andThen_of_some hgv']
    exact ⟨hmid, herror⟩

lemma Twins.andThen (hfirst : c.Twins f g) (hsecond : c.Twins f' g') :
    c.Twins (f.andThen f') (g.andThen g') where
  left := Step.Leads.andThen hfirst.left hsecond.left
  right := Step.Leads.andThen hfirst.right hsecond.right
  twins := fun u v h => TwinsAt.andThen h hfirst.left hfirst.right (hfirst.twins u v h) hsecond

lemma Twins.forEach {α : Type} {a b : α → Step} (h : ∀ x, c.Twins (a x) (b x)) (l : List α) :
    c.Twins (Step.forEach a l) (Step.forEach b l) := by
  induction l with
  | nil => exact skip_twins
  | cons x rest ih => exact Twins.andThen (h x) ih

/-- A question that is asked of the hooks has the same answer on both sides. -/
lemma Twins.ask (test : Hooks → Bool) (hyes : c.Twins f g) (hno : c.Twins f' g') :
    c.Twins (.given fun s => if test s.hooks then f else f')
      (.given fun s => if test s.hooks then g else g') where
  left := Step.Leads.given fun s => by split <;> first | exact hyes.left | exact hno.left
  right := Step.Leads.given fun s => by split <;> first | exact hyes.right | exact hno.right
  twins := by
    intro u v h
    simp only [TwinsAt, Step.given_apply, h.hooks_eq]
    split
    · exact hyes.twins u v h
    · exact hno.twins u v h

lemma record_twins {item : Session → LogItem} (hremark : ∀ s, (item s).IsRemark)
    (hitem : ∀ u v, c.Twin u v → item u = item v) :
    c.Twins (.change fun s => s.record (item s)) (.change fun s => s.record (item s)) where
  left := fun s => counted_guarantee.record s _ (hremark s)
  right := fun s => counted_guarantee.record s _ (hremark s)
  twins := by
    intro u v h _ _
    refine ⟨?_, Iff.rfl⟩
    simp only [Step.change_apply, hitem u v h]
    exact h.record (hremark v)

/-! ### Calls -/

/-- The last answer that is told is the one to the call that was just made. -/
lemma answer?_eq {env : Environment} {answer : Nat → Bool} {index : Nat} {s u : Session}
    (h : s.Counted u) (call : Call)
    (hanswers : env.AnswersAs answer index s (u.recordCall index call)) :
    (env call.name (u.countOf call.name)).answer? =
      some (answer ((s.since u).countP (·.isCallFor index))) := by
  have hsince : s.since (u.recordCall index call) = .call u.clock index call :: s.since u := by
    rw [since_trans h.grows (recordCall_counted u index call).grows,
      @since_eq u (u.recordCall index call) [.call u.clock index call] rfl]
    rfl
  rw [Environment.AnswersAs, hsince, answersTo, if_pos rfl, List.length_append,
    List.length_singleton, List.range_succ, List.map_append, ← h.since, length_answersTo]
    at hanswers
  exact List.singleton_inj.mp (List.append_inj' hanswers rfl).2

/-- A call that is answered as the sequence says makes no command, and fails as it says. -/
lemma call_eq {env : Environment} {answer : Nat → Bool} {depth index : Nat} {s u : Session}
    (h : s.Counted u) {call : Call}
    (hanswers : env.AnswersAs answer index s (handler env depth index call u).1) :
    (handler env depth index call u).1 = u.recordCall index call ∧
      ((handler env depth index call u).2 = none ↔
        answer ((s.since u).countP (·.isCallFor index)) = false) := by
  have hcalled := trans_of Session.Counted h (recordCall_counted u index call)
  have hanswer := answer?_eq h call (hanswers.back hcalled.grows (recordCall_grows_handler ..))
  rw [Reaction.answer?] at hanswer
  split at hanswer
  case isFalse => cases hanswer
  case isTrue hnone =>
    rw [handler_of_no_commands (List.isEmpty_iff.mp hnone), handler_zero_snd,
      Option.some.inj hanswer]
    refine ⟨rfl, ?_⟩
    split <;> simp_all

lemma call_twins (call : Call) :
    c.Twins (c.callLeft c.index call) (c.callRight c.index call) where
  left := handler_counted c.left c.leftDepth c.index call
  right := handler_counted c.right c.rightDepth c.index call
  twins := by
    intro u v h hu hv
    obtain ⟨hleft, hleftFails⟩ := call_eq h.left hu
    obtain ⟨hright, hrightFails⟩ := call_eq h.right hv
    refine ⟨⟨⟨?_, ?_, ?_⟩, ?_⟩, ?_⟩
    · rw [callLeft, callRight, hleft, hright, recordCall_outlook, recordCall_outlook, h.outlook,
        h.clock]
    · exact trans_of Session.Counted h.left (handler_counted c.left c.leftDepth c.index call u)
    · exact trans_of Session.Counted h.right (handler_counted c.right c.rightDepth c.index call v)
    · rw [callLeft, callRight, hleft, hright]
      exact h.clock
    · rw [callLeft, callRight, hleftFails, hrightFails, h.countP_eq]

/-! ### Events -/

lemma warned_twins (w : Warning) :
    c.Twins (.change (·.record (.warned w))) (.change (·.record (.warned w))) :=
  record_twins (fun _ => trivial) fun _ _ _ => rfl

lemma onGenerator_twins (count : Nat) (tone : SoundingTone) (h : c.Twins f g) :
    c.Twins (Adapter.onGenerator count tone f) (Adapter.onGenerator count tone g) := by
  unfold Adapter.onGenerator
  split
  · exact h
  · exact warned_twins _

lemma misfitCall_twins (shape : SourceShape) (kind method : String) (event : Event) :
    c.Twins (Adapter.misfitCall shape kind method event)
      (Adapter.misfitCall shape kind method event) := by
  unfold Adapter.misfitCall
  split
  · exact skip_twins
  · exact fail_twins _

lemma start_twins (adapter : Adapter) (event : Event) (routing onProcess : Option String) :
    c.Twins (adapter.start c.callLeft c.index event routing onProcess)
      (adapter.start c.callRight c.index event routing onProcess) := by
  cases adapter with
  | generators count =>
      exact Twins.forEach (fun tone => onGenerator_twins count tone
        (Twins.andThen (call_twins _) (call_twins _))) event.tones
  | chords => exact call_twins _
  | triggers => exact Twins.forEach (fun tone => call_twins _) event.tones
  | misfit shape kind => exact misfitCall_twins shape kind "start" event

lemma stop_twins (adapter : Adapter) (event : Event) (onProcess : Option String) :
    c.Twins (adapter.stop c.callLeft c.index event onProcess)
      (adapter.stop c.callRight c.index event onProcess) := by
  cases adapter with
  | generators count =>
      exact Twins.forEach (fun tone => onGenerator_twins count tone (call_twins _)) event.tones
  | chords => exact call_twins _
  | triggers => exact Twins.forEach (fun tone => call_twins _) event.tones
  | misfit shape kind => exact misfitCall_twins shape kind "stop" event

lemma tellTones_twins (installed : Hooks → Bool) {tell tell' : SoundingTone → Step} (event : Event)
    (h : ∀ tone, c.Twins (tell tone) (tell' tone)) :
    c.Twins (tellTones installed tell event) (tellTones installed tell' event) := by
  refine Twins.ask installed (Twins.forEach (fun tone => ?_) event.tones) skip_twins
  exact Twins.ask installed (h tone) (fail_twins _)

lemma startEvent_twins (adapter : Adapter) (number : Nat) (event : Event)
    (routing onProcess : Option String) :
    c.Twins
      (startEvent c.callLeft adapter number c.index c.entry event routing onProcess)
      (startEvent c.callRight adapter number c.index c.entry event routing onProcess) := by
  refine Twins.andThen ?_ (Twins.andThen (start_twins adapter event routing onProcess)
    (tellTones_twins _ event fun tone => call_twins _))
  exact record_twins (fun _ => trivial) fun u v h => by rw [h.clock]

lemma stopEvent_twins (event : Event) (onProcess : Option String) :
    c.Twins (stopEvent c.callLeft c.index c.entry event onProcess)
      (stopEvent c.callRight c.index c.entry event onProcess) where
  left := stopEvent_counted c.left c.leftDepth _ _ _ _
  right := stopEvent_counted c.right c.rightDepth _ _ _ _
  twins := by
    intro u v h
    rcases hv : v.adapter with _ | adapter
    · simp only [TwinsAt, stopEvent, Step.given_apply, h.adapter_eq, hv]
      exact (fail_twins _).twins u v h
    · simp only [TwinsAt, stopEvent, Step.given_apply, h.adapter_eq, hv]
      refine Twins.twins (Twins.andThen ?_ (Twins.andThen (stop_twins adapter event onProcess)
        (tellTones_twins _ event fun tone => call_twins _))) u v h
      exact record_twins (fun _ => trivial) fun u v h => by rw [h.clock, h.adapters_eq]

lemma tellEnded_twins :
    c.Twins (tellEnded c.callLeft c.index c.entry) (tellEnded c.callRight c.index c.entry) := by
  refine Twins.andThen (record_twins (fun _ => trivial) fun u v h => by rw [h.clock]) ?_
  exact Twins.ask (·.ended) (call_twins .ended) skip_twins

lemma updateIdle_twins : c.Twins (.change Session.updateIdle) (.change Session.updateIdle) where
  left := updateIdle_counted
  right := updateIdle_counted
  twins := by
    intro u v h _ _
    refine ⟨⟨⟨?_, ?_, ?_⟩, ?_⟩, Iff.rfl⟩
    · simp only [Step.change_apply, updateIdle_outlook, h.outlook]
    · exact trans_of Session.Counted h.left (updateIdle_counted u)
    · exact trans_of Session.Counted h.right (updateIdle_counted v)
    · have hclock : ∀ s : Session, s.updateIdle.clock = s.clock := fun s =>
        (@updateIdle_steady c.index c.entry s).clock
      rw [Step.change_apply, Step.change_apply, hclock, hclock, h.clock]

/-! ### Playing -/

section

variable {x y : PartEntry}

/-- The entry is armed on both sides for the same event. -/
lemma Twin.arm (h : c.Twin u v) (hx : x.serial = c.entry) (hy : y.serial = c.entry)
    (hindex : x.index = y.index) (part : Part) (event : Event)
    (routing onProcess : Option String) :
    c.Twin (u.arm x part event routing onProcess) (v.arm y part event routing onProcess) := by
  have hentries : ∀ (s : Session) (z : PartEntry), z.serial = c.entry →
      ((s.arm z part event routing onProcess).outlook c.index c.entry).entries =
        (s.outlook c.index c.entry).entries.map fun _ => (z.index, part, true) :=
    fun s z hz => @replaceEntry_entries c.index c.entry s
      { z with part := part, timer := some s.created, lastEvent := some event } hz
  have htimers : ∀ (s : Session) (z : PartEntry), z.serial = c.entry →
      ((s.arm z part event routing onProcess).outlook c.index c.entry).timers =
        (s.outlook c.index c.entry).timers ++
          [(s.clock + event.duration.nearest, event, routing, onProcess)] := by
    intro s z hz
    simp [Session.outlook, Session.arm, List.filter_append, hz]
  have hentriesSame := hentries u x hx
  rw [h.outlook, hindex, ← hentries v y hy] at hentriesSame
  have htimersSame := htimers u x hx
  rw [h.outlook, h.clock, ← htimers v y hy] at htimersSame
  refine ⟨⟨?_, ?_, ?_⟩, h.clock⟩
  · exact Outlook.mk.injEq .. |>.mpr ⟨h.hooks_eq, h.adapter_eq, h.adapters_eq, hentriesSame,
      htimersSame, congrArg Outlook.doings h.outlook⟩
  · exact trans_of Session.Counted h.left (counted_of_counts [] rfl rfl (by simp))
  · exact trans_of Session.Counted h.right (counted_of_counts [] rfl rfl (by simp))

/-- The entry is found on both sides, with the same part, and plays on both or on neither. -/
lemma Alike.entries_eq (h : c.Alike u v) (hu : u.Hosts c.index c.entry)
    (hv : v.Hosts c.index c.entry) :
    ∃ x ∈ u.registry, ∃ y ∈ v.registry, u.entryAt? c.index = some x ∧
      v.entryAt? c.index = some y ∧ (x.index = c.index ∧ x.serial = c.entry) ∧
      (y.index = c.index ∧ y.serial = c.entry) ∧ x.part = y.part ∧ x.isPlaying = y.isPlaying := by
  obtain ⟨x, hx, hxi, hxs, hxat, hxentries⟩ := hu.entry_found
  obtain ⟨y, hy, hyi, hys, hyat, hyentries⟩ := hv.entry_found
  have hsame := congrArg Outlook.entries h.outlook
  rw [hxentries, hyentries] at hsame
  have hparts : x.part = y.part ∧ x.isPlaying = y.isPlaying := by simpa using hsame
  exact ⟨x, hx, y, hy, hxat, hyat, ⟨hxi, hxs⟩, ⟨hyi, hys⟩, hparts⟩

/-- The part is played on both sides. -/
lemma play_twinsAt (h : c.Twin u v) (hu : u.Hosts c.index c.entry) (hv : v.Hosts c.index c.entry)
    (routing onProcess : Option String) :
    c.TwinsAt (play c.callLeft c.index routing onProcess)
      (play c.callRight c.index routing onProcess) u v := by
  obtain ⟨x, -, y, -, hxat, hyat, ⟨hxi, hxs⟩, ⟨hyi, hys⟩, hpart, hplaying⟩ := h.entries_eq hu hv
  rcases hadapter : v.adapter with _ | adapter
  · simp only [TwinsAt, play, Step.given_apply, hxat, hyat, h.adapter_eq, hadapter]
    exact (fail_twins _).twins u v h
  by_cases hplays : y.isPlaying = true
  · simp only [TwinsAt, play, Step.given_apply, hxat, hyat, h.adapter_eq, hadapter, hplaying,
      hplays, if_true]
    exact skip_twins.twins u v h
  rcases htake : y.part.take? with _ | ⟨event, rest⟩
  · simp only [TwinsAt, play, Step.given_apply, hxat, hyat, h.adapter_eq, hadapter, hplaying,
      hplays, hpart, htake, hxi, hxs, hyi, hys]
    exact (Twins.andThen tellEnded_twins updateIdle_twins).twins u v h
  · simp only [TwinsAt, play, Step.given_apply, hxat, hyat, h.adapter_eq, hadapter, hplaying,
      hplays, hpart, htake, hxi, hxs, hyi, hys, h.adapters_eq]
    exact (startEvent_twins adapter v.adapters event routing onProcess).twins _ _
      (h.arm hxs hys (hxi.trans hyi.symm) rest event routing onProcess)

end

/-! ### Firing -/

section

variable {t t' : Timer}

/-- The timers of the entry were set alike. -/
lemma Alike.timers_eq (h : c.Alike u v) (hu : u.Timed) (hv : v.Timed) (ht : t ∈ u.timers)
    (ht' : t' ∈ v.timers) (hentry : t.entry = c.entry) (hentry' : t'.entry = c.entry) :
    t.due = t'.due ∧ t.event = t'.event ∧ t.routing = t'.routing ∧ t.onProcess = t'.onProcess := by
  obtain ⟨x, hx, hxowns⟩ := hu.owned t ht
  obtain ⟨y, hy, hyowns⟩ := hv.owned t' ht'
  have hsame := congrArg Outlook.timers h.outlook
  simp only [Session.outlook] at hsame
  rw [← hentry, hxowns.serial, hu.timers_of_owner hx ht hxowns, ← hxowns.serial, hentry, ← hentry',
    hyowns.serial, hv.timers_of_owner hy ht' hyowns] at hsame
  simpa using hsame

/-- The timer of the entry goes off on both sides. -/
lemma Alike.ring (h : c.Alike u v) (hu : u.Timed) (hv : v.Timed) (ht : t ∈ u.timers)
    (ht' : t' ∈ v.timers) {x y : PartEntry} (hx : x ∈ u.registry) (hy : y ∈ v.registry)
    (howns : x.Owns t) (howns' : y.Owns t') (hxs : x.serial = c.entry) (hys : y.serial = c.entry)
    (hindex : x.index = y.index) (hpart : x.part = y.part) :
    c.Twin (u.ring t x) (v.ring t' y) := by
  have hentries : ∀ (s : Session) (r : Timer) (z : PartEntry), z.serial = c.entry →
      ((s.ring r z).outlook c.index c.entry).entries =
        (s.outlook c.index c.entry).entries.map fun _ => (z.index, z.part, false) :=
    fun s r z hz => @replaceEntry_entries c.index c.entry s { z with timer := none } hz
  -- The timer that goes off is the only one the entry has.
  have htimers : ∀ (s : Session) (r : Timer) (z : PartEntry), s.Timed → r ∈ s.timers →
      z ∈ s.registry → z.Owns r → z.serial = c.entry →
        ((s.ring r z).outlook c.index c.entry).timers = [] := by
    intro s r z hs hr hz hzowns hzs
    have hnone : (s.timers.filter (·.serial ≠ r.serial)).filter (·.entry = c.entry) = [] := by
      rw [List.filter_comm, ← hzs,
        hs.timers_of_owner (List.mem_append_left _ hz) hr hzowns]
      simp
    rw [Session.outlook, Session.ring, hnone]
    rfl
  have hentriesSame := hentries u t x hxs
  rw [h.outlook, hindex, hpart, ← hentries v t' y hys] at hentriesSame
  have htimersSame := htimers u t x hu ht hx howns hxs
  rw [← htimers v t' y hv ht' hy howns' hys] at htimersSame
  have hdue := h.timers_eq hu hv ht ht' (howns.serial.trans hxs) (howns'.serial.trans hys)
  refine ⟨⟨?_, ?_, ?_⟩, hdue.1⟩
  · exact Outlook.mk.injEq .. |>.mpr ⟨h.hooks_eq, h.adapter_eq, h.adapters_eq, hentriesSame,
      htimersSame, congrArg Outlook.doings h.outlook⟩
  · exact trans_of Session.Counted h.left
      (counted_guarantee.ring ht hx howns.serial.symm howns.isPlaying)
  · exact trans_of Session.Counted h.right
      (counted_guarantee.ring ht' hy howns'.serial.symm howns'.isPlaying)

lemma Alike.escape (h : c.Alike u v) (e e' : Option PlaybackError) :
    c.Alike (u.escape e) (v.escape e') where
  outlook := by rw [escape_outlook, escape_outlook, h.outlook]
  left := trans_of Session.Counted h.left (escape_counted u e)
  right := trans_of Session.Counted h.right (escape_counted v e')

section

variable (hleft : c.left.PlaysOthers c.index) (hright : c.right.PlaysOthers c.index)

include hleft hright

/-- The event of the entry is stopped on both sides, and the part goes on. -/
lemma resume_twin (h : c.Twin u v) (hu : u.Hosts c.index c.entry) (hv : v.Hosts c.index c.entry)
    {event : Event} {routing onProcess : Option String}
    (huAnswers : c.left.AnswersAs c.answer c.index c.start
      (play c.callLeft c.index routing onProcess
        (stopEvent c.callLeft c.index c.entry event onProcess u).1).1)
    (hvAnswers : c.right.AnswersAs c.answer c.index c.start
      (play c.callRight c.index routing onProcess
        (stopEvent c.callRight c.index c.entry event onProcess v).1).1) :
    c.Twin
      (play c.callLeft c.index routing onProcess
        (stopEvent c.callLeft c.index c.entry event onProcess u).1).1
      (play c.callRight c.index routing onProcess
        (stopEvent c.callRight c.index c.entry event onProcess v).1).1 := by
  have hstops := @stopEvent_twins c event onProcess
  have huStopped := trans_of Session.Counted h.left (hstops.left u)
  have hvStopped := trans_of Session.Counted h.right (hstops.right v)
  -- What is logged later does not change how the calls before were answered.
  have hstopped := (hstops.twins u v h
    (huAnswers.back huStopped.grows (play_counted c.left c.leftDepth c.index _ _ _).grows)
    (hvAnswers.back hvStopped.grows (play_counted c.right c.rightDepth c.index _ _ _).grows)).1
  have huHosts := (stopEvent_steady (n := c.entry) (handler_steady hleft c.leftDepth c.index) event
    onProcess u).hosts hu
  have hvHosts := (stopEvent_steady (n := c.entry) (handler_steady hright c.rightDepth c.index)
    event onProcess v).hosts hv
  exact (play_twinsAt hstopped huHosts hvHosts routing onProcess huAnswers hvAnswers).1

/-- The timer of the entry fires on both sides. -/
lemma fire_alike (h : c.Alike u v) (hu : u.Hosts c.index c.entry)
    (hv : v.Hosts c.index c.entry) (ht : t ∈ u.timers) (ht' : t' ∈ v.timers)
    (hentry : t.entry = c.entry) (hentry' : t'.entry = c.entry)
    (huAnswers : c.left.AnswersAs c.answer c.index c.start (fire c.callLeft t u))
    (hvAnswers : c.right.AnswersAs c.answer c.index c.start (fire c.callRight t' v)) :
    c.Alike (fire c.callLeft t u) (fire c.callRight t' v) := by
  obtain ⟨x, hx, y, hy, -, -, ⟨hxi, hxs⟩, ⟨hyi, hys⟩, hpart, -⟩ := h.entries_eq hu hv
  have howns := hu.owns_of_serial ht (List.mem_append_left _ hx) (hxs.trans hentry.symm)
  have howns' := hv.owns_of_serial ht' (List.mem_append_left _ hy) (hys.trans hentry'.symm)
  obtain ⟨-, hevent, hrouting, honProcess⟩ :=
    h.timers_eq hu.toTimed hv.toTimed ht ht' hentry hentry'
  have hrung := h.ring hu.toTimed hv.toTimed ht ht' hx hy howns howns' hxs hys (hxi.trans hyi.symm)
    hpart
  obtain ⟨e, hfire⟩ := fire_eq_resumed hu.toTimed hx howns c.callLeft
  obtain ⟨e', hfire'⟩ := fire_eq_resumed hv.toTimed hy howns' c.callRight
  rw [howns.index, Session.resumed, hxi, hxs] at hfire
  rw [howns'.index, Session.resumed, hyi, hys, ← hevent, ← hrouting, ← honProcess] at hfire'
  rw [hfire] at huAnswers ⊢
  rw [hfire'] at hvAnswers ⊢
  -- That an error comes out of a timer is logged after all calls.
  have hresumed := resume_twin hleft hright hrung (hu.ring ht hx howns) (hv.ring ht' hy howns')
    (huAnswers.back hrung.left.resume.grows (escape_counted _ e).grows)
    (hvAnswers.back hrung.right.resume.grows (escape_counted _ e').grows)
  exact hresumed.toAlike.escape e e'

end

end

end Comparison

end MusicMacro
