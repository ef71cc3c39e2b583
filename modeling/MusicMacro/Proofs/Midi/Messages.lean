import MusicMacro.Midi.File
import MusicMacro.Proofs.Notation.Timeline

/-!
# The messages of a track

A track holds the messages of its notes in time order, each with the ticks since the one before
it.  Adding the ticks up gives the ordered messages back (`MidiTrack.timed_of_ofNotes`), and these
are the messages that start and end the notes, in another order (`orderedMessages_perm`), of which
none has to stand before an earlier one (`orderedMessages_pairwise`).
-/

namespace MusicMacro

/-! ## The order of messages -/

namespace TimedMessage

lemma precedes_iff {a b : TimedMessage} :
    a.precedes b = true ↔
      a.time < b.time ∨ a.time = b.time ∧ (a.message.isOn = true → b.message.isOn = true) := by
  simp only [precedes, Bool.or_eq_true, Bool.and_eq_true, decide_eq_true_eq]
  cases a.message.isOn <;> simp

lemma precedes_trans (a b c : TimedMessage) (hab : a.precedes b = true) (hbc : b.precedes c = true) :
    a.precedes c = true := by
  rw [precedes_iff] at *
  rcases hab with hab | ⟨hab, hon⟩
  · left
    omega
  · rcases hbc with hbc | ⟨hbc, hon'⟩
    · left
      omega
    · exact .inr ⟨hab.trans hbc, fun h => hon' (hon h)⟩

lemma precedes_total (a b : TimedMessage) : (a.precedes b || b.precedes a) = true := by
  rw [Bool.or_eq_true, precedes_iff, precedes_iff]
  rcases Nat.lt_trichotomy a.time b.time with h | h | h
  · exact .inl (.inl h)
  · cases ha : a.message.isOn with
    | false => exact .inl (.inr ⟨h, nofun⟩)
    | true => exact .inr (.inr ⟨h.symm, fun _ => rfl⟩)
  · exact .inr (.inl h)

lemma time_le_of_precedes {a b : TimedMessage} (h : a.precedes b = true) : a.time ≤ b.time := by
  rw [precedes_iff] at h
  omega

end TimedMessage

/-! ## Ordered messages -/

/-- The messages that start and end notes, note by note. -/
def messagesOf (notes : List MidiNote) : List TimedMessage :=
  notes.flatMap fun n => [n.onMessage, n.offMessage]

lemma orderedMessages_perm (notes : List MidiNote) :
    (orderedMessages notes).Perm (messagesOf notes) :=
  List.mergeSort_perm _ _

/-- No message of the ordered ones has to stand before an earlier one. -/
lemma orderedMessages_pairwise (notes : List MidiNote) :
    (orderedMessages notes).Pairwise fun a b => a.precedes b = true :=
  List.pairwise_mergeSort TimedMessage.precedes_trans TimedMessage.precedes_total _

lemma countP_messagesOf (p : TimedMessage → Bool) (notes : List MidiNote) :
    (messagesOf notes).countP p =
      notes.countP (fun n => p n.onMessage) + notes.countP fun n => p n.offMessage := by
  induction notes with
  | nil => rfl
  | cons n rest ih =>
      rw [messagesOf] at ih ⊢
      simp only [List.flatMap_cons, List.countP_append, List.countP_cons, List.countP_nil, ih]
      omega

/-! ## Adding up the ticks -/

/-- Messages with the ticks since the start, of which `time` have passed before them. -/
def sinceStart (time : Nat) : List TimedMessage → List TimedMessage
  | [] => []
  | m :: rest => ⟨time + m.time, m.message⟩ :: sinceStart (time + m.time) rest

lemma sinceStart_deltas {time : Nat} {messages : List TimedMessage}
    (h : messages.Pairwise fun a b => a.precedes b = true) (hfirst : ∀ m ∈ messages, time ≤ m.time) :
    sinceStart time (deltas time messages) = messages := by
  induction messages generalizing time with
  | nil => rfl
  | cons m rest ih =>
      obtain ⟨hm, hrest⟩ := List.pairwise_cons.mp h
      have htime : time + (m.time - time) = m.time := by
        have := hfirst m List.mem_cons_self
        omega
      rw [deltas, sinceStart, htime, ih hrest fun m' hm' => TimedMessage.time_le_of_precedes (hm m' hm')]

lemma map_message_deltas (time : Nat) (messages : List TimedMessage) :
    (deltas time messages).map (·.message) = messages.map (·.message) := by
  induction messages generalizing time with
  | nil => rfl
  | cons m rest ih => simp [deltas, ih]

/-! ## Tracks and files -/

/-- The messages of a track with the ticks since its start. -/
def MidiTrack.timed (t : MidiTrack) : List TimedMessage := sinceStart 0 t.messages

section

variable {bpm : Number} {notes : List MidiNote} {track : MidiTrack}

lemma MidiTrack.messages_of_ofNotes (h : MidiTrack.ofNotes bpm notes = .ok track) :
    track.messages = deltas 0 (orderedMessages notes) := by
  unfold ofNotes at h
  split at h
  · cases h
  · split at h
    · cases h
    · obtain rfl := Except.ok.inj h
      rfl

lemma MidiTrack.timed_of_ofNotes (h : MidiTrack.ofNotes bpm notes = .ok track) :
    track.timed = orderedMessages notes := by
  rw [timed, messages_of_ofNotes h]
  exact sinceStart_deltas (orderedMessages_pairwise notes) fun _ _ => Nat.zero_le _

end

/-- A file of parts holds the track of their notes. -/
lemma MidiFile.exists_notes_of_ofParts {grid : TickGrid} {velocity : Int}
    {parts : List (Int × List Event)} {file : MidiFile}
    (h : MidiFile.ofParts grid velocity parts = .ok file) :
    ∃ notes, notesOfParts grid velocity parts = .ok notes ∧
      MidiTrack.ofNotes (.whole grid.bpm) notes = .ok file.track := by
  obtain ⟨notes, hnotes, h⟩ := bind_eq_ok h
  obtain ⟨track, htrack, h⟩ := bind_eq_ok h
  obtain rfl := Except.ok.inj h
  exact ⟨notes, hnotes, htrack⟩

end MusicMacro
