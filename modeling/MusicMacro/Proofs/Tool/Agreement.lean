import MusicMacro.Proofs.Notation.Policy
import MusicMacro.Proofs.Tool.Midi

/-!
# The tools agree on a list of strings

Three tools compile strings: one tells of a single string whether it is valid, one gives the score
of a list, and one writes the list as a MIDI file.  Each makes its answer for itself.  `tools_agree`
says that the answers are about the same outcome of the same strings: what is valid is compiled,
with the events and the length that are told of it, and what is not is listed as failed and reported
with the refusal that is told of it (`AgreesWithValidation`); and the MIDI tool reports what the
score's tool reports, writes a file exactly if the score has a part, and switches a note on for
every index that sounds in the score (`AgreesWithScore`).

All three stand on the batch (`compileBatch_of_answered`), whose parts and refusals are those of its
strings.
-/

namespace MusicMacro

/-! ## Reading answers -/

/-- What stands in a document under keys, one after the other. -/
def Document.path? (d : Document) (keys : List String) : Option Document :=
  keys.foldlM (fun d key => (d.require key).toOption) d

lemma Document.path?_cons {d d' : Document} {key : String} (h : d.path? [key] = some d')
    (keys : List String) : d.path? (key :: keys) = d'.path? keys := by
  rw [path?, List.foldlM_cons] at h ⊢
  cases hd : (d.require key).toOption with
  | none =>
      rw [hd] at h
      cases h
  | some found =>
      rw [hd] at h
      obtain rfl : found = d' := Option.some.inj h
      rfl

/-- The validation tool says that the text compiles. -/
def IsValid (text : String) : Prop := (validateAnswer text).path? ["valid"] = some (.bool true)

/-- The validation tool says that the text does not compile. -/
def IsInvalid (text : String) : Prop := (validateAnswer text).path? ["valid"] = some (.bool false)

/-- The refusal that an answer of the validation tool tells, as reports have it. -/
def toldRefusal? (answer : Document) : Option Document :=
  match answer.path? ["error", "kind"], answer.path? ["error", "token"] with
  | some kind, some token => some (.map [("kind", kind), ("token", token)])
  | _, _ => none

/-- Whether an entry among indices is the mark of a rest. -/
def Document.isRestMark : Document → Bool
  | .text s => s == restMark
  | _ => false

/-- The indices that sound in a part of a score's document. -/
def soundingEntries (part : Document) : List Document :=
  match part.path? ["events"] with
  | some (.list events) => events.flatMap fun event =>
      match event.path? ["indices"] with
      | some (.list indices) => indices.filter (!·.isRestMark)
      | _ => []
  | _ => []

/-! ## Single strings -/

section

variable {text : String} {events : List Event} {e : NotationError}

lemma validateAnswer_of_ok (h : (compileText text).2 = .ok events) :
    validateAnswer text = success [("valid", .bool true), ("events", .whole events.length),
      ("duration", .ofNumber ((events.getLast?.map (·.stop)).getD (.real .zero)))] := by
  rw [validateAnswer, h]

lemma validateAnswer_of_refusalOf? (h : refusalOf? text = some e) :
    validateAnswer text = success [("valid", .bool false),
      ("error", .map [("kind", .text e.kind.name), ("token", .text e.token),
        ("message", .text e.message)])] := by
  rw [validateAnswer, compileText_of_refusalOf? h]

/-- The validation tool says of a text that compiles or is refused which of the two it is. -/
lemma exists_valid_eq (h : IsAnswered text) :
    ∃ valid, (validateAnswer text).path? ["valid"] = some (.bool valid) ∧
      (valid = true ↔ Compiles text) := by
  rcases h with ⟨events, hevents⟩ | ⟨e, he⟩
  · rw [validateAnswer_of_ok hevents]
    exact ⟨true, rfl, iff_of_true rfl ⟨events, hevents⟩⟩
  · rw [validateAnswer_of_refusalOf? he]
    refine ⟨false, rfl, iff_of_false Bool.false_ne_true fun hcompiles => ?_⟩
    rw [refusalOf?_of_compiles hcompiles] at he
    cases he

lemma isValid_iff (h : IsAnswered text) : IsValid text ↔ Compiles text := by
  obtain ⟨valid, hvalid, hcompiles⟩ := exists_valid_eq h
  rw [IsValid, hvalid, Option.some_inj, Document.bool.injEq, hcompiles]

lemma isInvalid_iff (h : IsAnswered text) : IsInvalid text ↔ ¬ Compiles text := by
  obtain ⟨valid, hvalid, hcompiles⟩ := exists_valid_eq h
  rw [IsInvalid, hvalid, Option.some_inj, Document.bool.injEq, ← hcompiles, Bool.not_eq_true]

/-- A refusal as reports have it. -/
def refusalDocument (e : NotationError) : Document :=
  .map [("kind", .text e.kind.name), ("token", .text e.token)]

lemma toldRefusal?_validateAnswer (h : IsAnswered text) :
    toldRefusal? (validateAnswer text) = (refusalOf? text).map refusalDocument := by
  rcases h with ⟨events, hevents⟩ | ⟨e, he⟩
  · rw [validateAnswer_of_ok hevents, refusalOf?_of_compiles ⟨events, hevents⟩]
    rfl
  · rw [validateAnswer_of_refusalOf? he, he]
    rfl

end

/-! ## The score of a list -/

/-- The answer of the score's tool is about the outcome of each string that the validation tool
tells. -/
structure AgreesWithValidation (texts : List String) (compiled : Document) : Prop where
  /-- What is not valid is reported, in order, and nothing else. -/
  errors : compiled.path? ["errors"] =
    some (.list (texts.filterMap fun text => toldRefusal? (validateAnswer text)))
  /-- What is not valid is listed as failed, and nothing else. -/
  failed : ∃ failed, compiled.path? ["score", "failed"] = some (.list failed) ∧
    ∀ d, d ∈ failed ↔
      ∃ (i : Nat) (text : String), texts[i]? = some text ∧ IsInvalid text ∧ d = .whole i
  /-- Every other string has one part, with the events and the length that are told of it. -/
  parts : ∃ parts, compiled.path? ["score", "parts"] = some (.list parts) ∧
    ∀ (i : Nat) text, texts[i]? = some text → ¬ IsInvalid text →
      ∃ part events, (∀ d, d ∈ parts ∧ d.path? ["index"] = some (.whole i) ↔ d = part) ∧
        part.path? ["events"] = some (.list events) ∧
        (validateAnswer text).path? ["events"] = some (.whole events.length) ∧
        part.path? ["duration"] = (validateAnswer text).path? ["duration"]

/-- The answer of the score's tool when a batch is compiled. -/
lemma compileAnswer_of_ok {standing policy : ErrorPolicy} {named : Option String}
    {texts : List String} {batch : Batch} (hpolicy : policyOr standing named = .ok policy)
    (hbatch : compileBatch policy texts = .ok batch) :
    compileAnswer standing texts named =
      .map [("status", .text (if batch.errors.isEmpty then "success" else "error")),
        ("policy", .text policy.name),
        ("score", (Score.ofCompiled texts batch.parts "").toDocument),
        ("errors", refusals batch.errors)] := by
  rw [compileAnswer, hpolicy, answered, hbatch, answered]

section

variable {texts : List String} {batch : Batch} {s : Score}

/-- A pointwise batch has a part for each string that compiles. -/
lemma Score.Covers.mem_parts_iff (h : s.Covers texts batch) (hpointwise : batch.IsPointwise texts)
    (p : ScorePart) : p ∈ s.parts ↔ ∃ (i : Nat) (text : String) (events : List Event),
      texts[i]? = some text ∧ (compileText text).2 = .ok events ∧ p = ⟨i, .text text, events⟩ := by
  rw [h.parts]
  constructor
  · rintro ⟨i, text, events, hmem, htext, rfl⟩
    obtain ⟨text', htext', hevents⟩ := (hpointwise.parts i events).mp hmem
    obtain rfl := Option.some.inj (htext.symm.trans htext')
    exact ⟨i, text, events, htext, hevents, rfl⟩
  · rintro ⟨i, text, events, htext, hevents, rfl⟩
    exact ⟨i, text, events, (hpointwise.parts i events).mpr ⟨text, htext, hevents⟩, htext, rfl⟩

/-- A pointwise batch lists each string as failed that does not compile. -/
lemma Score.Covers.mem_failed_iff (h : s.Covers texts batch) (hpointwise : batch.IsPointwise texts)
    (index : Int) : index ∈ s.failed ↔
      ∃ (i : Nat) (text : String), texts[i]? = some text ∧ ¬ Compiles text ∧ index = i := by
  have hnodup : (s.parts.map (·.index) ++ s.failed).Nodup :=
    h.partition.nodup_iff.mpr (List.nodup_range.map fun _ _ => Int.ofNat.inj)
  have hcompiled {i : Nat} {text : String} (htext : texts[i]? = some text) :
      (i : Int) ∈ s.parts.map (·.index) ↔ Compiles text := by
    rw [List.mem_map]
    constructor
    · rintro ⟨p, hp, hindex⟩
      obtain ⟨j, text', events, htext', hevents, rfl⟩ := (h.mem_parts_iff hpointwise p).mp hp
      obtain rfl := Int.ofNat_inj.mp hindex
      obtain rfl := Option.some.inj (htext.symm.trans htext')
      exact ⟨events, hevents⟩
    · rintro ⟨events, hevents⟩
      exact ⟨_, (h.mem_parts_iff hpointwise _).mpr ⟨i, text, events, htext, hevents, rfl⟩, rfl⟩
  constructor
  · intro hmem
    obtain ⟨i, hi, rfl⟩ := List.mem_map.mp (h.partition.mem_iff.mp (List.mem_append_right _ hmem))
    obtain ⟨text, htext⟩ : ∃ text, texts[i]? = some text :=
      ⟨_, List.getElem?_eq_getElem (List.mem_range.mp hi)⟩
    refine ⟨i, text, htext, fun hcompiles => ?_, rfl⟩
    exact (List.nodup_append.mp hnodup).2.2 _ ((hcompiled htext).mpr hcompiles) _ hmem rfl
  · rintro ⟨i, text, htext, hnot, rfl⟩
    have hrange : (i : Int) ∈ (List.range texts.length).map Int.ofNat :=
      List.mem_map_of_mem (List.mem_range.mpr (List.getElem?_eq_some_iff.mp htext).1)
    exact (List.mem_append.mp (h.partition.mem_iff.mpr hrange)).resolve_left
      fun hpart => hnot ((hcompiled htext).mp hpart)

/-- A pointwise batch agrees with what its strings are by themselves. -/
lemma agreesWithValidation_of_pointwise {compiled : Document}
    (hanswered : ∀ text ∈ texts, IsAnswered text) (hpointwise : batch.IsPointwise texts)
    (hcovers : s.Covers texts batch)
    (herrors : compiled.path? ["errors"] = some (refusals batch.errors))
    (hscore : compiled.path? ["score"] = some s.toDocument) :
    AgreesWithValidation texts compiled where
  errors := by
    have htold : texts.filterMap (fun text => toldRefusal? (validateAnswer text)) =
        texts.filterMap fun text => (refusalOf? text).map refusalDocument :=
      List.filterMap_congr fun text hmem => toldRefusal?_validateAnswer (hanswered text hmem)
    rw [herrors, htold, hpointwise.errors, refusals, ← List.map_filterMap]
    rfl
  failed := by
    have hinvalid {i : Nat} {text : String} (htext : texts[i]? = some text) :=
      isInvalid_iff (hanswered text (List.mem_of_getElem? htext))
    refine ⟨s.sortedFailed.map .whole, by rw [Document.path?_cons hscore]; rfl, fun d => ?_⟩
    constructor
    · intro hd
      obtain ⟨j, hj, rfl⟩ := List.mem_map.mp hd
      obtain ⟨i, text, htext, hnot, rfl⟩ :=
        (hcovers.mem_failed_iff hpointwise j).mp (List.mem_mergeSort.mp hj)
      exact ⟨i, text, htext, (hinvalid htext).mpr hnot, rfl⟩
    · rintro ⟨i, text, htext, hnot, rfl⟩
      have hfailed := (hcovers.mem_failed_iff hpointwise i).mpr
        ⟨i, text, htext, (hinvalid htext).mp hnot, rfl⟩
      exact List.mem_map_of_mem (List.mem_mergeSort.mpr hfailed)
  parts := by
    refine ⟨s.sortedParts.map (·.toDocument), by rw [Document.path?_cons hscore]; rfl, ?_⟩
    intro i text htext hvalid
    rw [isInvalid_iff (hanswered _ (List.mem_of_getElem? htext)), not_not] at hvalid
    obtain ⟨events, hevents⟩ := hvalid
    let part : ScorePart := ⟨i, .text text, events⟩
    have hindex (p : ScorePart) : p.toDocument.path? ["index"] = some (.whole p.index) := rfl
    have hdocuments : part.toDocument.path? ["events"] = some (.list (part.events.map fun e =>
        .map (e.entries ++
          [("names", .list (e.indices.map fun i => .text (ScorePart.indexName i)))]))) := rfl
    refine ⟨part.toDocument, _, fun d => ⟨?_, ?_⟩, hdocuments, ?_, ?_⟩
    · rintro ⟨hd, hi⟩
      obtain ⟨p, hp, rfl⟩ := List.mem_map.mp hd
      obtain ⟨j, text', events', htext', hevents', rfl⟩ :=
        (hcovers.mem_parts_iff hpointwise p).mp (List.mem_mergeSort.mp hp)
      rw [hindex] at hi
      obtain rfl := Int.ofNat_inj.mp (Document.whole.inj (Option.some.inj hi))
      obtain rfl := Option.some.inj (htext.symm.trans htext')
      obtain rfl := Except.ok.inj (hevents.symm.trans hevents')
      rfl
    · rintro rfl
      have hpart := (hcovers.mem_parts_iff hpointwise part).mpr
        ⟨i, text, events, htext, hevents, rfl⟩
      exact ⟨List.mem_map_of_mem (List.mem_mergeSort.mpr hpart), hindex part⟩
    · rw [validateAnswer_of_ok hevents, List.length_map]
      rfl
    · rw [validateAnswer_of_ok hevents]
      rfl

end

/-! ## What is kept and what sounds -/

/-- Under the policy something is kept of strings. -/
def KeepsSome (policy : ErrorPolicy) (texts : List String) : Prop :=
  match policy with
  | .skip => ∃ text ∈ texts, IsValid text
  | .abort => texts ≠ [] ∧ ∀ text ∈ texts, IsValid text

section

variable {texts : List String} {batch : Batch}

lemma Batch.IsPointwise.parts_ne_nil_iff (h : batch.IsPointwise texts) :
    batch.parts ≠ [] ↔ ∃ text ∈ texts, Compiles text := by
  constructor
  · intro hne
    obtain ⟨⟨i, events⟩, hmem⟩ := List.exists_mem_of_ne_nil _ hne
    obtain ⟨text, htext, hevents⟩ := (h.parts i events).mp hmem
    exact ⟨text, List.mem_of_getElem? htext, events, hevents⟩
  · rintro ⟨text, hmem, events, hevents⟩
    obtain ⟨i, htext⟩ := List.getElem?_of_mem hmem
    exact List.ne_nil_of_mem ((h.parts i events).mpr ⟨text, htext, hevents⟩)

lemma Batch.Follows.parts_ne_nil_iff {policy : ErrorPolicy}
    (hanswered : ∀ text ∈ texts, IsAnswered text) (h : batch.Follows policy texts) :
    batch.parts ≠ [] ↔ KeepsSome policy texts := by
  cases policy with
  | skip =>
      have hpointwise : batch.IsPointwise texts := h
      rw [hpointwise.parts_ne_nil_iff]
      exact exists_congr fun text => and_congr_right fun hmem =>
        (isValid_iff (hanswered text hmem)).symm
  | abort =>
      rcases h with ⟨hall, hpointwise, -⟩ | ⟨front, text, rest, e, haborted⟩
      · rw [hpointwise.parts_ne_nil_iff]
        constructor
        · rintro ⟨text, hmem, -⟩
          exact ⟨List.ne_nil_of_mem hmem,
            fun text hmem => (isValid_iff (hanswered text hmem)).mpr (hall text hmem)⟩
        · rintro ⟨hne, -⟩
          obtain ⟨text, hmem⟩ := List.exists_mem_of_ne_nil _ hne
          exact ⟨text, hmem, hall text hmem⟩
      · refine iff_of_false (not_not_intro haborted.parts) fun ⟨_, hvalid⟩ => ?_
        have hmem : text ∈ texts := by
          rw [haborted.texts_eq]
          exact List.mem_append_right _ List.mem_cons_self
        have hcompiles := (isValid_iff (hanswered text hmem)).mp (hvalid text hmem)
        have hrefused := haborted.refused
        rw [refusalOf?_of_compiles hcompiles] at hrefused
        cases hrefused

end

/-- An event has a tone for every index that sounds. -/
lemma Event.length_tones (e : Event) : e.tones.length = (e.indices.filter (·.isSome)).length := by
  have hfrom (place : Nat) (positions : List Position) : (soundingFrom place positions).length =
      ((positions.map (·.index)).filter (·.isSome)).length := by
    induction positions generalizing place with
    | nil => rfl
    | cons p rest ih =>
        rw [soundingFrom, List.map_cons]
        cases p.index with
        | none => exact ih (place + 1)
        | some index => exact congrArg Nat.succ (ih (place + 1))
  exact hfrom 0 e.positions

lemma isRestMark_indexDocument (index? : Option Nat) :
    (Event.indexDocument index?).isRestMark = index?.isNone := by
  cases index? with
  | none => decide
  | some index => rfl

/-- In the document of a part as many indices sound as its events have tones. -/
lemma length_soundingEntries (p : ScorePart) :
    (soundingEntries p.toDocument).length = (p.events.flatMap (·.tones)).length := by
  have hentries : soundingEntries p.toDocument = p.events.flatMap fun e =>
      (e.indices.map Event.indexDocument).filter (!·.isRestMark) := by
    change List.flatMap _ (p.events.map _) = _
    rw [List.flatMap_map]
    rfl
  rw [hentries, List.length_flatMap, List.length_flatMap]
  refine congrArg List.sum (List.map_congr_left fun e _ => ?_)
  rw [e.length_tones, List.filter_map, List.length_map]
  congr 2
  funext index?
  rw [Function.comp_apply, isRestMark_indexDocument, Option.not_isNone]

/-- Parts make a note for every tone. -/
lemma length_notesOfParts {grid : TickGrid} {velocity : Int} {parts : List (Int × List Event)}
    {notes : List MidiNote} (h : notesOfParts grid velocity parts = .ok notes) :
    notes.length = (parts.flatMap fun p => p.2.flatMap (·.tones)).length := by
  have hvalues := (values_of_notesOfParts h).2.length_eq
  rw [List.length_map] at hvalues
  simpa only [List.length_flatMap, partValues, eventValues, List.length_map] using hvalues

/-- A track starts every note once. -/
lemma MidiTrack.countP_isOn {bpm : Number} {notes : List MidiNote} {track : MidiTrack}
    (h : MidiTrack.ofNotes bpm notes = .ok track) :
    track.messages.countP (·.message.isOn) = notes.length := by
  have hmessages : track.messages.countP (·.message.isOn) =
      (orderedMessages notes).countP (·.message.isOn) := by
    rw [messages_of_ofNotes h]
    calc (deltas 0 (orderedMessages notes)).countP (·.message.isOn)
        = ((deltas 0 (orderedMessages notes)).map (·.message)).countP (·.isOn) :=
          List.countP_map.symm
      _ = ((orderedMessages notes).map (·.message)).countP (·.isOn) := by rw [map_message_deltas]
      _ = (orderedMessages notes).countP (·.message.isOn) := List.countP_map
  have hon : notes.countP (fun n => n.onMessage.message.isOn) = notes.length :=
    List.countP_eq_length.mpr fun _ _ => rfl
  have hoff : notes.countP (fun n => n.offMessage.message.isOn) = 0 :=
    List.countP_eq_zero.mpr fun _ _ => nofun
  rw [hmessages, (orderedMessages_perm notes).countP_eq, countP_messagesOf, hon, hoff,
    Nat.add_zero]

/-- The file of a batch starts a note for every index that sounds in the score of the batch. -/
lemma countP_isOn_of_ofParts {grid : TickGrid} {batch : Batch} {file : MidiFile}
    (h : MidiFile.ofParts grid standardVelocity batch.numberedParts = .ok file)
    (texts : List String) (name : String) :
    file.track.messages.countP (·.message.isOn) =
      (((Score.ofCompiled texts batch.parts name).sortedParts.map (·.toDocument)).flatMap
        soundingEntries).length := by
  obtain ⟨notes, hnotes, htrack⟩ := MidiFile.exists_notes_of_ofParts h
  have hparts : ((Score.ofCompiled texts batch.parts name).sortedParts.map (·.events)).Perm
      (batch.parts.map (·.2)) := by
    refine ((List.mergeSort_perm _ _).map _).trans ?_
    rw [Score.ofCompiled, List.map_map]
    exact (List.mergeSort_perm _ _).map _
  rw [MidiTrack.countP_isOn htrack, length_notesOfParts hnotes, Batch.numberedParts,
    List.flatMap_map, List.flatMap_map, List.length_flatMap, List.length_flatMap]
  simp only [length_soundingEntries]
  have hsum := ((hparts.map fun events => (events.flatMap (·.tones)).length).sum_eq).symm
  rwa [List.map_map, List.map_map] at hsum

/-! ## The MIDI file of a list -/

namespace Workspace

/-- If a part of the song is kept, its file is made and written without an error. -/
def SavesMidi (w : Workspace) (song : Song) (output : Option String) : Prop :=
  ∀ batch, compileBatch w.settings.policy song.parts = .ok batch → batch.parts ≠ [] →
    ∃ file, MidiFile.ofParts w.settings.grid standardVelocity batch.numberedParts = .ok file ∧
      (w.writeMidi (w.midiPath (midiName song output)) file).2 = .ok ()

/-- The MIDI tool, with the files that it leaves and its answer, is about the score that the score's
tool answers with. -/
structure AgreesWithScore (w : Workspace) (song : Song) (output : Option String)
    (compiled : Document) (ending : Workspace × Document) : Prop where
  errors : ∃ errors, compiled.path? ["errors"] = some errors ∧
    ending.2.path? ["errors"] = some errors
  /-- A file is written exactly if the score has a part, and then it has a start for every index
  that sounds in the score. -/
  file : ∃ parts, compiled.path? ["score", "parts"] = some (.list parts) ∧
    (parts ≠ [] ↔ KeepsSome w.settings.policy song.parts) ∧
    (parts = [] → ∀ q, ending.1.library.tree.fileAt? q = w.library.tree.fileAt? q) ∧
    (parts ≠ [] → ∃ (q : Place) (file : MidiFile) (bytes : Bytes),
      w.Opens (w.midiPath (midiName song output)) q ∧
      w.library.tree.Puts ending.1.library.tree q (.bytes bytes) ∧ file.bytes = .ok bytes ∧
      file.track.messages.countP (·.message.isOn) = (parts.flatMap soundingEntries).length)

/-- A file is written without an error exactly if it can be opened and its bytes fit. -/
lemma writeMidi_eq_ok_iff {w : Workspace} {path : Path} {file : MidiFile} :
    (w.writeMidi path file).2 = .ok () ↔ ∃ q bytes, w.Opens path q ∧ file.bytes = .ok bytes := by
  by_cases hopens : ∃ q, w.Opens path q
  · obtain ⟨q, hopens⟩ := hopens
    rw [(writeMidi_of_opens hopens file).2]
    cases file.bytes with
    | error e => exact iff_of_false nofun nofun
    | ok bytes => exact iff_of_true rfl ⟨q, bytes, hopens, rfl⟩
  · obtain ⟨-, e, he⟩ := writeMidi_of_not_opens (not_exists.mp hopens) file
    rw [he]
    exact iff_of_false nofun fun ⟨q, _, hq, _⟩ => hopens ⟨q, hq⟩

variable {w : Workspace} {song : Song} {output : Option String}

/-- Working copies do not matter for what can be saved. -/
lemma SavesMidi.of_reopened {library : SongLibrary}
    (hlibrary : library.reopened = w.library.reopened) (h : w.SavesMidi song output) :
    SavesMidi { w with library } song output := by
  intro batch hbatch hne
  obtain ⟨file, hfile, hwritten⟩ := h batch hbatch hne
  refine ⟨file, hfile, ?_⟩
  obtain ⟨q, bytes, hopens, hbytes⟩ := writeMidi_eq_ok_iff.mp hwritten
  exact writeMidi_eq_ok_iff.mpr ⟨q, bytes, (opens_of_reopened hlibrary).mpr hopens, hbytes⟩

lemma AgreesWithScore.of_reopened {library : SongLibrary} {compiled : Document}
    {ending : Workspace × Document} (hlibrary : library.reopened = w.library.reopened)
    (h : AgreesWithScore { w with library } song output compiled ending) :
    AgreesWithScore w song output compiled ending := by
  obtain ⟨herrors, parts, hparts, hkeeps, hnone, hsome⟩ := h
  simp only [SongLibrary.tree_of_reopened hlibrary, opens_of_reopened hlibrary] at hnone hsome
  exact ⟨herrors, parts, hparts, hkeeps, hnone, hsome⟩

/-- Every ending of a song whose file can be saved agrees with the score of its batch. -/
lemma MidiEnding.agreesWithScore {compiled : Document} {ending : Workspace × Document}
    {batch : Batch} (hbatch : compileBatch w.settings.policy song.parts = .ok batch)
    (hkeeps : batch.parts ≠ [] ↔ KeepsSome w.settings.policy song.parts)
    (herrors : compiled.path? ["errors"] = some (refusals batch.errors))
    (hscore : compiled.path? ["score"] =
      some (Score.ofCompiled song.parts batch.parts "").toDocument)
    (hsaves : w.SavesMidi song output) (h : MidiEnding w song output ending) :
    AgreesWithScore w song output compiled ending := by
  have hparts : compiled.path? ["score", "parts"] = some (.list
      ((Score.ofCompiled song.parts batch.parts "").sortedParts.map (·.toDocument))) := by
    rw [Document.path?_cons hscore]
    rfl
  have hnil : (Score.ofCompiled song.parts batch.parts "").sortedParts.map (·.toDocument) = [] ↔
      batch.parts = [] := by
    rw [← List.length_eq_zero_iff, ← List.length_eq_zero_iff, List.length_map, Score.sortedParts,
      List.length_mergeSort, Score.ofCompiled, List.length_map, List.length_mergeSort]
  cases h with
  | failed compiled => cases compiled.symm.trans hbatch
  | nothing compiled parts_eq =>
      obtain rfl := Except.ok.inj (compiled.symm.trans hbatch)
      refine ⟨⟨_, herrors, rfl⟩, _, hparts, hnil.not.trans hkeeps, fun _ _ => rfl, fun hne => ?_⟩
      exact absurd parts_eq (hnil.not.mp hne)
  | unmade compiled parts_ne made =>
      obtain ⟨file, hfile, -⟩ := hsaves _ compiled parts_ne
      cases made.symm.trans hfile
  | unopened makes opens tree =>
      obtain ⟨file, -, hwritten⟩ := hsaves _ makes.compiled makes.parts_ne
      obtain ⟨q, -, hopens, -⟩ := writeMidi_eq_ok_iff.mp hwritten
      exact absurd hopens (opens q)
  | unwritten makes opens unfit tree =>
      obtain ⟨file, hfile, hwritten⟩ := hsaves _ makes.compiled makes.parts_ne
      obtain rfl := Except.ok.inj (makes.made.symm.trans hfile)
      obtain ⟨-, bytes, -, hbytes⟩ := writeMidi_eq_ok_iff.mp hwritten
      cases unfit.symm.trans hbytes
  | written makes opens fit tree =>
      obtain rfl := Except.ok.inj (makes.compiled.symm.trans hbatch)
      refine ⟨⟨_, herrors, rfl⟩, _, hparts, hnil.not.trans hkeeps, fun hempty => ?_, fun _ => ?_⟩
      · exact absurd (hnil.mp hempty) makes.parts_ne
      · exact ⟨_, _, _, opens, tree, fit, countP_isOn_of_ofParts makes.made song.parts ""⟩

/-- **The validation, score and MIDI tools agree.**  For strings of any number, none of them of
`2^63` characters or more,

* under the policy that skips, the score's tool reports the refusals that the validation tool tells,
  in order, lists as failed the indices of the strings that are not valid, and has for every other
  string one part with the number of events and the length that are told of it;
* of a song that is found with these strings, under either policy of the settings and if a file that
  is to be written can be made and written, the MIDI tool reports what the score's tool reports
  under that policy, writes a file exactly if a string is kept under it, and switches on exactly as
  many notes as indices sound in the parts of the score. -/
theorem tools_agree (w : Workspace) (now : Timestamp) {texts : List String}
    (hlength : ∀ text ∈ texts, text.length < 2 ^ 63) :
    AgreesWithValidation texts (w.answer now (.compile texts (some "continue"))).2 ∧
      ∀ (name : String) (song : Song) (output named : Option String),
        (w.library.find now name).2 = .ok (some song) → song.parts = texts →
        policyOr w.settings.policy named = .ok w.settings.policy → w.SavesMidi song output →
        AgreesWithScore w song output (w.answer now (.compile texts named)).2
          (w.answer now (.compileMidi name output)) := by
  have hanswered : ∀ text ∈ texts, IsAnswered text :=
    fun text hmem => isAnswered_of_length (hlength text hmem)
  constructor
  · obtain ⟨log, hbatch⟩ := compileBatch_of_answered hanswered .skip
    have hpointwise : Batch.IsPointwise _ texts := follows_of_answered hanswered .skip log
    have hcovers := covers_ofCompiled (installedParts_pairwise .skip texts) (fun i events hmem =>
      have ⟨text, htext, _⟩ := (hpointwise.parts i events).mp hmem
      ⟨text, htext⟩) ""
    have hpolicy : policyOr w.settings.policy (some "continue") = .ok .skip := rfl
    rw [answer, compileAnswer_of_ok hpolicy hbatch]
    exact agreesWithValidation_of_pointwise hanswered hpointwise hcovers rfl rfl
  · rintro name song output named hfound rfl hpolicy hsaves
    obtain ⟨log, hbatch⟩ := compileBatch_of_answered hanswered w.settings.policy
    have hkeeps := (follows_of_answered hanswered w.settings.policy log).parts_ne_nil_iff hanswered
    obtain ⟨library, message, hlibrary, hnone, -⟩ | ⟨library, song', hlibrary, hfound', hending⟩ :=
      w.answer_compileMidi_cases now name output
    · exact absurd hfound (hnone song)
    · obtain rfl := Option.some.inj (Except.ok.inj (hfound.symm.trans hfound'))
      rw [hending, answer, compileAnswer_of_ok hpolicy hbatch]
      have hending := compileSong_ending { w with library } song output
      have hsaves' := hsaves.of_reopened hlibrary
      exact .of_reopened hlibrary (hending.agreesWithScore hbatch hkeeps rfl rfl hsaves')

/-- A chord with a rest, and a string that is refused and left out. -/
theorem tools_agree_on_refused_string :
    let noon : Timestamp := ⟨2024, 2, 29, 12, 0, 0, 0, some 0⟩
    let settings : Settings :=
      ⟨.skip, 480, 120, .ofText "songs", .ofText "output", by decide, by decide⟩
    let texts := ["T60 O4 CRE4", "T60 C4"]
    let w := (ofSettings settings (.ofDirectories [["root"]] ["root"])).after
      [(noon, .createSong "a" texts "")]
    ∃ song : Song, (∀ text ∈ texts, text.length < 2 ^ 63) ∧
      (w.library.find noon "a").2 = .ok (some song) ∧ song.parts = texts ∧
      policyOr w.settings.policy none = .ok w.settings.policy ∧ w.SavesMidi song none ∧
      AgreesWithValidation texts (w.answer noon (.compile texts (some "continue"))).2 ∧
      AgreesWithScore w song none (w.answer noon (.compile texts none)).2
        (w.answer noon (.compileMidi "a" none)) := by
  intro noon settings texts w
  let song : Song := ⟨Song.schemaVersion, "a", "", noon, noon, texts, by decide +kernel⟩
  have hlength : ∀ text ∈ texts, text.length < 2 ^ 63 := by decide +kernel
  have hfind := eq_ok_of_isOk (x := (w.library.find noon "a").2) (by decide +kernel) none
  have hsong : (w.library.find noon "a").2.toOption.getD none = some song := by decide +kernel
  have hfound := hfind.trans (congrArg _ hsong)
  have hsaves : w.SavesMidi song none := by
    intro batch hbatch hne
    have hcompiled := eq_ok_of_isOk (x := compileBatch .skip texts) (by decide +kernel) ⟨[], [], []⟩
    obtain rfl := Except.ok.inj (hbatch.symm.trans hcompiled)
    have hfile := eq_ok_of_isOk
      (x := MidiFile.ofParts settings.grid standardVelocity
        ((compileBatch .skip texts).toOption.getD ⟨[], [], []⟩).numberedParts)
      (by decide +kernel) ⟨0, ⟨0, by decide⟩, []⟩
    have hbytes := eq_ok_of_isOk
      (x := (w.writeMidi (w.midiPath (midiName song none)) ((MidiFile.ofParts settings.grid
        standardVelocity ((compileBatch .skip texts).toOption.getD ⟨[], [], []⟩).numberedParts
        ).toOption.getD ⟨0, ⟨0, by decide⟩, []⟩)).2) (by decide +kernel) ()
    exact ⟨_, hfile, hbytes⟩
  obtain ⟨hvalidation, hscore⟩ := tools_agree w noon hlength
  exact ⟨song, hlength, hfound, rfl, rfl, hsaves, hvalidation,
    hscore "a" song none none hfound rfl rfl hsaves⟩

end Workspace

end MusicMacro
