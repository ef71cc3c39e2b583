import MusicMacro.Proofs.Computation
import MusicMacro.Proofs.Timestamp
import MusicMacro.Song

/-!
# Songs read back

The fields of a new song are refused only for a name that no song may have (`Song.ofFields_new`).
A song whose moments came from the clock is the song that its document describes
(`Song.ofDocument_toDocument`), whatever the time at which it is read.
-/

namespace MusicMacro

lemma checkTexts_texts (place : List String) (texts : List String) :
    checkTexts place (.list (texts.map .text)) = .ok texts := by
  have hall : ∀ (k : Nat), Checked.all (((texts.map Document.text).zipIdx k).map fun entry =>
      checkText (place ++ [toString entry.2]) entry.1) = .ok texts := by
    induction texts with
    | nil => exact fun _ => rfl
    | cons text rest ih =>
        intro k
        rw [List.map_cons, List.zipIdx_cons, List.map_cons, Checked.all, ih]
        rfl
  exact hall 0

namespace Song

variable {now : Timestamp} {fields : Fields} {schema name description : String}
  {parts : List String}

/-- What is told of a name that no song may have. -/
def invalidName (name : String) : ValidationError :=
  ⟨"Song", [⟨["name"], .songName name, .text name⟩]⟩

/-- A song of checked texts is refused for its name and for nothing else. -/
lemma ofFields_of_texts
    (hschema : fieldD fields "schema_version" schemaVersion checkText = .ok schema)
    (hname : Document.lookup? "name" fields = some (.text name))
    (hdescription : Document.lookup? "description" fields = some (.text description))
    (hcreated : Document.lookup? "created" fields = none)
    (hmodified : Document.lookup? "modified" fields = none)
    (hparts : Document.lookup? "parts" fields = some (.list (parts.map .text))) :
    ofFields now fields =
      if valid : isSongName name then .ok ⟨schema, name, description, now, now, parts, valid⟩
      else .error (invalidName name) := by
  unfold ofFields
  rw [hschema]
  simp only [field, fieldD, hname, hdescription, hcreated, hmodified, hparts, checkTexts_texts,
    checkName, checkText]
  split <;> rfl

/-- A song made now. -/
def new (now : Timestamp) (name description : String) (parts : List String)
    (valid : isSongName name = true) : Song :=
  ⟨schemaVersion, name, description, now, now, parts, valid⟩

/-- A new song is refused for its name and for nothing else. -/
lemma ofFields_new (now : Timestamp) (name description : String) (parts : List String) :
    ofFields now [("name", .text name), ("parts", .list (parts.map .text)),
        ("description", .text description)] =
      if valid : isSongName name then .ok (new now name description parts valid)
      else .error (invalidName name) :=
  ofFields_of_texts rfl rfl rfl rfl rfl rfl

/-- The moments of a song are readings of the clock. -/
structure IsClocked (song : Song) : Prop where
  created : song.created.IsReading
  modified : song.modified.IsReading

variable {song : Song}

lemma momentD_text {entries : Fields} {key : String} {t : Timestamp} (ht : t.IsReading)
    (hkey : Document.lookup? key entries = some (.text t.isoText)) (now : Timestamp) :
    momentD entries key now = .ok t := by
  have hmoment : moment (.text t.isoText) = .ok t := by
    rw [moment, Document.asText, Timestamp.read_isoText ht]
    nofun
  simp only [momentD, hkey, hmoment, mapError_ok]

lemma items_parts (song : Song) :
    ((song.toDocument.entryD "parts" (.list [])).bind Document.items).mapError SongError.form =
      .ok (song.parts.map .text) := by
  rfl

lemma map_asText_texts (texts : List String) :
    (texts.map Document.text).map (fun part => Document.text part.asText) = texts.map .text := by
  simp [Document.asText]

lemma exists_entries_toDocument (song : Song) :
    ∃ entries, song.toDocument = .map entries ∧
      Document.lookup? "created" entries = some (.text song.created.isoText) ∧
      Document.lookup? "modified" entries = some (.text song.modified.isoText) :=
  ⟨_, rfl, rfl, rfl⟩

/-- A song is read back from its document, whatever the time. -/
theorem ofDocument_toDocument (h : song.IsClocked) (now : Timestamp) :
    ofDocument now song.toDocument = .ok song := by
  have hfields : ofFields now [("schema_version", .text song.schema), ("name", .text song.name),
      ("description", .text song.description), ("parts", .list (song.parts.map .text))] =
        .ok ⟨song.schema, song.name, song.description, now, now, song.parts, song.name_valid⟩ :=
    (ofFields_of_texts rfl rfl rfl rfl rfl rfl).trans (dif_pos song.name_valid)
  have hschema : song.toDocument.entryD "schema" (.text schemaVersion) = .ok (.text song.schema) :=
    rfl
  have hname : song.toDocument.require "name" = .ok (.text song.name) := rfl
  have hdescription : song.toDocument.entryD "description" (.text "") =
      .ok (.text song.description) := rfl
  simp only [ofDocument, hschema, hname, hdescription, items_parts, mapError_ok, ok_bind,
    map_asText_texts, hfields]
  obtain ⟨entries, hentries, hcreated, hmodified⟩ := exists_entries_toDocument song
  rw [hentries]
  simp only [momentD_text h.created hcreated, momentD_text h.modified hmodified, ok_bind]
  rfl

end Song

end MusicMacro
