import MusicMacro.Proofs.Notation.Policy
import MusicMacro.Proofs.Playback.Pause

/-!
# How preparing a batch ends

To prepare a batch is to halt, to discard the parts, to wrap the source and to compile and install
the strings, and after each of these but the last preparing can end early.  `Preparation` lists the
ways in which it ends, with what has changed by then, and `prepare_is_all_or_nothing` says that
there are no others: either all parts that the policy keeps are installed, or none is, and the
parts from before are all there or all gone.

Strings that are refused are reported before anything is installed, so a hook that fails there
leaves no part behind.  Whatever the ending, nothing plays afterwards.
-/

namespace MusicMacro

open Session

/-- The part does not play, was never played and has all its events before it. -/
structure PartEntry.IsFresh (e : PartEntry) : Prop where
  idle : e.isPlaying = false
  unplayed : e.lastEvent = none
  queue : e.part.queue = e.part.events

/-- No timer runs, nothing plays, and this was told. -/
structure Session.AtRest (s : Session) : Prop where
  timers : s.timers = []
  paused : s.isPaused = true
  idle : s.idle = true

/-- How preparing a batch ends, with the session after it and the answer. -/
inductive Preparation (env : Environment) (depth : Nat) (source : SoundSource)
    (shape : Option SourceShape) (texts : List String) (s : Session) :
    Session × Except PlaybackError Reply → Prop
  /-- A stop fails while what plays is halted.  The parts and the source are those from before. -/
  | unhalted {s' : Session} {e : PlaybackError}
      (fails : (halt (handler env depth) none s).2 = some e) (pauses : s.Pauses s') :
      Preparation env depth source shape texts s (s', .error e)
  /-- The source cannot be wrapped.  The parts are gone, the source is that from before. -/
  | unwrapped {s' : Session} {e : SourceError} (wraps : source.adapter shape = .error e)
      (registry : s'.registry = []) (adapter_eq : s'.adapter = s.adapter) :
      Preparation env depth source shape texts s (s', .error (.source e))
  /-- A hook fails when it is told of a string that is refused.  The parts are gone, and the source
  is the new one. -/
  | unreported {s' : Session} {adapter : Adapter} {count : Nat}
      (wraps : source.adapter shape = .ok adapter) (hook : s.hooks.refused = true)
      (fails : (env .refused count).fails = true) (registry : s'.registry = [])
      (adapter_eq : s'.adapter = some adapter) :
      Preparation env depth source shape texts s (s', .error (.raised .refused count))
  /-- The parts are those of the batch, none of them played yet, and the answer has their indices
  in order. -/
  | installed {s' : Session} {adapter : Adapter} {batch : Batch}
      (wraps : source.adapter shape = .ok adapter)
      (compiled : compileBatch s.policy texts = .ok batch) (follows : batch.Follows s.policy texts)
      (registry : s'.registry.map (fun e => (e.index, e.part.events)) = batch.parts)
      (fresh : ∀ e ∈ s'.registry, e.IsFresh)
      (ordered : (batch.parts.map (·.1)).Pairwise (· < ·))
      (adapter_eq : s'.adapter = some adapter) :
      Preparation env depth source shape texts s (s', .ok (.indices (batch.parts.map (·.1))))

/-! ## Reporting -/

section

variable (env : Environment) {s : Session} {texts : List String}

/-- A report of a string that is answered can fail only when the hook is told of a refusal. -/
lemma reportOutcome_error {text : String} (h : IsAnswered text) (index : Nat) {e : PlaybackError}
    (herror : (reportOutcome (handler env 0) (.ofText index text) s).2 = some e) :
    s.hooks.refused = true ∧
      ∃ count, e = .raised .refused count ∧ (env .refused count).fails = true := by
  have hhooks : ∀ (warnings : List Warning) (s : Session),
      (warnings.foldl (fun s w => s.record (.warned w)) s).hooks = s.hooks := by
    intro warnings
    induction warnings with
    | nil => exact fun s => rfl
    | cons w rest ih => exact fun s => ih _
  rw [reportOutcome, Step.change_andThen] at herror
  generalize hwarned : (PartOutcome.ofText index text).warnings.foldl
    (fun s w => s.record (.warned w)) s = s' at herror
  have hsame : s'.hooks = s.hooks := hwarned ▸ hhooks _ s
  rcases h with ⟨events, hok⟩ | ⟨e', hrefused⟩
  · simp only [PartOutcome.ofText, hok] at herror
    cases herror
  · simp only [PartOutcome.ofText, compileText_of_refusalOf? hrefused, Step.given_apply, hsame]
      at herror
    split at herror
    case isFalse => cases herror
    case isTrue hhook =>
      rw [handler_zero_snd] at herror
      split at herror
      case isFalse => cases herror
      case isTrue hfails => exact ⟨hhook, _, (Option.some.inj herror).symm, hfails⟩

/-- Strings that are answered are all installed unless a report of a refusal fails. -/
lemma installTexts_error (h : ∀ text ∈ texts, IsAnswered text) {e : PlaybackError}
    (herror : (installTexts (handler env 0) texts s).2 = some e) :
    s.hooks.refused = true ∧
      ∃ count, e = .raised .refused count ∧ (env .refused count).fails = true := by
  set outcomes := outcomesFrom s.policy 0 texts with houtcomes
  simp only [installTexts, Step.given_apply, ← houtcomes] at herror
  rcases Step.forEach_none_or_fails (reportOutcome (handler env 0)) outcomes s with
    hnone | ⟨before, o, after, hsplit, hnone, hfails⟩
  · rw [Step.andThen_of_none hnone] at herror
    cases herror
  · have hnotes : s.Notes LogItem.IsReport
        (Step.forEach (reportOutcome (handler env 0)) before s).1 :=
      Step.Leads.forEach (fun o _ => reportOutcome_notes env o) s
    have hreports := Step.forEach_of_fails hnone hfails after
    obtain ⟨e', he'⟩ := Option.ne_none_iff_exists'.mp hfails
    rw [hsplit, Step.andThen_of_some (by rw [hreports, he']), hreports] at herror
    have ho : o ∈ outcomes := hsplit ▸ List.mem_append_right before List.mem_cons_self
    obtain ⟨text, htext, index, rfl⟩ := exists_text_of_mem_outcomesFrom ho
    rw [← hnotes.hooks_eq]
    exact reportOutcome_error env (h text htext) index herror

/-- After a halt and with a source that can be wrapped, to prepare is to install. -/
lemma prepare_of_wraps {handle : Handler} {source : SoundSource} {shape : Option SourceShape}
    {adapter : Adapter} (hhalt : (halt handle none s).2 = none)
    (hwraps : source.adapter shape = .ok adapter) :
    prepare handle source shape texts s =
      installTexts handle texts ((halt handle none s).1.clear.adopt adapter) := by
  have hcleared : ((halt handle none).andThen (.change Session.clear)) s =
      ((halt handle none s).1.clear, none) := by
    rw [Step.andThen_of_none hhalt, Step.change_apply]
  rw [prepare, Step.andThen_of_none (by rw [hcleared]), hcleared]
  simp only [hwraps, Step.change_andThen]

end

/-! ## Installing -/

lemma map_freshEntries (serial : Nat) (parts : List (Nat × List Event)) :
    (freshEntries serial parts).map (fun e => (e.index, e.part.events)) = parts := by
  induction parts generalizing serial with
  | nil => rfl
  | cons p rest ih => rw [freshEntries, List.map_cons, ih]; rfl

/-- Where no part is installed, parts in order become entries that were never played, in order. -/
lemma installParts_fresh {s : Session} (hnone : s.registry = []) {parts : List (Nat × List Event)}
    (hordered : (parts.map (·.1)).Pairwise (· < ·)) :
    (s.installParts parts).registry.map (fun e => (e.index, e.part.events)) = parts ∧
      ((s.installParts parts).registry.map (·.index)).mergeSort (· ≤ ·) = parts.map (·.1) ∧
      ∀ e ∈ (s.installParts parts).registry, e.IsFresh := by
  have hparts := map_freshEntries s.created parts
  have hindices : (freshEntries s.created parts).map (·.index) = parts.map (·.1) := by
    conv_rhs => rw [← hparts, List.map_map]
    rfl
  rw [installParts_of_nil hnone (hordered.imp Nat.ne_of_lt)]
  refine ⟨hparts, ?_, fun e he => ?_⟩
  · rw [hindices]
    exact List.mergeSort_of_pairwise (hordered.imp fun hlt => decide_eq_true (Nat.le_of_lt hlt))
  · obtain ⟨-, hqueue, htimer, hlast⟩ := eq_of_mem_freshEntries he
    exact ⟨e.not_isPlaying_iff.mpr htimer, hlast, hqueue⟩

/-- A session without timers in which no part plays is at rest once this was told. -/
lemma Session.AtRest.of_fresh {s : Session} (htimers : s.timers = []) (hidle : s.idle = true)
    (hfresh : ∀ e ∈ s.registry, e.IsFresh) : s.AtRest :=
  ⟨htimers, isPaused_iff.mpr fun e he => e.not_isPlaying_iff.mp (hfresh e he).idle, hidle⟩

lemma Session.Pauses.atRest {s s' : Session} (h : s.Pauses s') : s'.AtRest := by
  rw [h.frame]
  refine ⟨rfl, isPaused_iff.mpr fun e he => ?_, rfl⟩
  obtain ⟨e', -, rfl⟩ := List.mem_map.mp he
  rfl

/-! ## Endings -/

/-- To install the parts of a batch where there are none is an ending of its preparation. -/
lemma installed_ending (env : Environment) (depth : Nat) {source : SoundSource}
    {shape : Option SourceShape} {adapter : Adapter} {texts : List String}
    (hanswered : ∀ text ∈ texts, IsAnswered text) {s s' : Session}
    (hwraps : source.adapter shape = .ok adapter) (hregistry : s'.registry = [])
    (hadapter : s'.adapter = some adapter) (htimers : s'.timers = []) (hidle : s'.idle = true) :
    let s'' := s'.installParts (installedParts s.policy (outcomesFrom s.policy 0 texts))
    Preparation env depth source shape texts s
        (s'', .ok (.indices ((s''.registry.map (·.index)).mergeSort (· ≤ ·)))) ∧ s''.AtRest := by
  intro s''
  obtain ⟨log, hbatch⟩ := compileBatch_of_answered hanswered s.policy
  have hfollows := follows_of_answered hanswered s.policy log
  have hordered := installedParts_pairwise s.policy texts
  have hinstalled : s'' = _ :=
    installParts_of_nil hregistry (installedParts_nodup s.policy texts)
  obtain ⟨hparts, hindices, hfresh⟩ := installParts_fresh hregistry hordered
  have hframe : s''.adapter = s'.adapter ∧ s''.timers = s'.timers ∧ s''.idle = s'.idle := by
    rw [hinstalled]
    exact ⟨rfl, rfl, rfl⟩
  obtain ⟨hadapter', htimers', hidle'⟩ := hframe
  have hanswer : (s''.registry.map (·.index)).mergeSort (· ≤ ·) = _ := hindices
  rw [hanswer]
  exact ⟨.installed hwraps hbatch hfollows hparts hfresh hordered (hadapter'.trans hadapter),
    .of_fresh (htimers'.trans htimers) (hidle'.trans hidle) hfresh⟩

/-- **Preparing is all or nothing.**  Take any session that a run leads to, wherever calls failed in
it, and prepare a batch, wherever calls fail now.  If there is an answer, the parts are exactly those
that the policy keeps of the batch, none of them played, and the answer has their indices in order.
If not, either a stop failed, and parts and source are those from before; or the source cannot be
wrapped, and there are no parts and the source from before; or a hook failed that was told of a
refusal, and there are no parts and the new source.  In any case nothing plays, and this was told. -/
theorem prepare_is_all_or_nothing (past env : Environment) (pastDepth depth : Nat)
    (pastPassive : past.IsPassive) (passive : env.IsPassive) (hooks : Hooks) (policy : ErrorPolicy)
    (moves : List Move) (source : SoundSource) {name : Option String} {shape : Option SourceShape}
    (hshape : forcedShape name = .ok shape) {texts : List String}
    (htexts : ∀ text ∈ texts, text.length < 2 ^ 63) :
    let s := (Session.initial hooks policy).after past pastDepth moves
    let ending := perform (handler env depth) s (.prepare source texts name)
    Preparation env depth source shape texts s ending ∧ ending.1.AtRest := by
  intro s ending
  have hs : s.WellTimed := after_wellTimed pastPassive pastDepth hooks policy moves
  have hanswered : ∀ text ∈ texts, IsAnswered text :=
    fun text hmem => isAnswered_of_length (htexts text hmem)
  have hpauses := halt_pauses env none hs
  have hending : ending = (prepare (handler env 0) source shape texts).answering
      (fun s => .indices ((s.registry.map (·.index)).mergeSort (· ≤ ·))) s := by
    simp only [ending, perform, hshape, handler_eq_zero passive depth]
  rw [hending, Step.answering]
  rcases prepare_cases env source shape texts s with
    ⟨hfails, hs'⟩ | ⟨-, e, hwraps, hs'⟩ | ⟨hhalt, adapter, s', hwraps, hnotes, hcase⟩
  · obtain ⟨e, he⟩ := Option.ne_none_iff_exists'.mp hfails
    rw [hs', ← Prod.mk.eta (p := halt (handler env 0) none s), he]
    refine ⟨.unhalted ?_ hpauses, hpauses.atRest⟩
    rw [handler_eq_zero passive depth, he]
  · have hrest : (halt (handler env 0) none s).1.clear.AtRest :=
      ⟨hpauses.atRest.timers, rfl, hpauses.atRest.idle⟩
    rw [hs']
    refine ⟨.unwrapped hwraps rfl ?_, hrest⟩
    rw [hpauses.frame]
    rfl
  · have hregistry : s'.registry = [] := hnotes.registry_eq
    have hadapter : s'.adapter = some adapter := by rw [hnotes.eq_log]; rfl
    have htimers : s'.timers = [] := by
      rw [hnotes.eq_log]
      exact hpauses.atRest.timers
    have hidle : s'.idle = true := by
      rw [hnotes.eq_log]
      exact hpauses.atRest.idle
    rcases hcase with ⟨e, hs'⟩ | hs'
    · have herror := congrArg Prod.snd hs'
      rw [prepare_of_wraps hhalt hwraps] at herror
      obtain ⟨hhook, count, rfl, hfails⟩ := installTexts_error env hanswered herror
      have hhooks : s.hooks.refused = true := by
        rw [hpauses.frame] at hhook
        exact hhook
      rw [hs']
      refine ⟨.unreported hwraps hhooks hfails hregistry hadapter, ?_⟩
      exact .of_fresh htimers hidle fun e he => absurd he (hregistry ▸ List.not_mem_nil)
    · rw [hs']
      exact installed_ending env depth hanswered hwraps hregistry hadapter htimers hidle

/-- A part plays when a batch is prepared, the second of its strings is refused and the hook fails
when it is told: the first string is not installed either. -/
theorem nothing_installed_when_report_fails :
    (Environment.failing [.refused]).IsPassive ∧
      let env := Environment.failing [.refused]
      let source : SoundSource := .generators 1 "list"
      let texts := ["T60 O4 C4", "T60 C4"]
      let s := (Session.initial .all .skip).after env 0
        [.prepare source ["T60 O4 C4 D4", "T60 O4 E4"] none, .play (.ofIndex 0) none none]
      let ending := perform (handler env 0) s (.prepare source texts none)
      forcedShape none = .ok none ∧ (∀ text ∈ texts, text.length < 2 ^ 63) ∧
        (s.registry.map (·.isPlaying) = [true, false] ∧ ending.1.registry.length = 0 ∧
          ending.1.adapters = 2) ∧
        Preparation env 0 source none texts s ending ∧ ending.1.AtRest := by
  have hpassive := Environment.failing_isPassive [.refused]
  have htexts : ∀ text ∈ ["T60 O4 C4", "T60 C4"], text.length < 2 ^ 63 := by
    intro text htext
    simp only [List.mem_cons, List.not_mem_nil, or_false] at htext
    rcases htext with rfl | rfl <;> decide
  exact ⟨hpassive, rfl, htexts, by decide +kernel,
    prepare_is_all_or_nothing _ _ 0 0 hpassive hpassive .all .skip _ _ rfl htexts⟩

end MusicMacro
