import Mathlib.Data.List.Permutation
import MusicMacro.Proofs.Midi.Decoding

/-!
# Tracks as bytes

The bytes of a track are read item by item: the ticks since the item before, in groups of seven
bits (`readVariable`), and then a tempo, a message or the end (`readItem`), where a message without
a status byte has the status of the one before it.  `Tells` relates bytes to all the items that
they hold, and relates no bytes to two lists of items (`Tells.unique`).

What a track of notes tells is the tempo, its messages and the end
(`MidiTrack.tells_bytes`).  The messages are those that start and end the notes, none lost and
none doubled, sorted without exchanging two that could stand in either order
(`filter_orderedMessages`), so that at one tick ends come before starts and both stand in the order
of the notes (`notes_encoded_losslessly`).
-/

namespace MusicMacro

/-! ## Reading bytes -/

/-- What a track tells at a time. -/
inductive TrackItem where
  /-- The microseconds of a quarter note. -/
  | tempo (length : Nat)
  | note (message : NoteMessage)
  | ends
deriving DecidableEq

/-- A number in groups of seven bits after those that hold `high`, and the bytes behind its last
group. -/
def readVariable (high : Nat) : Bytes → Option (Nat × Bytes)
  | [] => none
  | b :: rest =>
    if b.toNat < 128 then some (high * 128 + b.toNat, rest)
    else readVariable (high * 128 + (b.toNat - 128)) rest

/-- A byte below the status bytes. -/
def dataByte? (b : UInt8) : Option (Fin 128) :=
  if h : b.toNat < 128 then some ⟨b.toNat, h⟩ else none

/-- Whether a status byte starts notes or ends them. -/
def noteKind? (status : UInt8) : Option Bool :=
  if status.toNat / 16 = 9 then some true
  else if status.toNat / 16 = 8 then some false
  else none

/-- A message of a status from its key and velocity, and the bytes behind it. -/
def readMessage (status : UInt8) : Bytes → Option (NoteMessage × Bytes)
  | key :: velocity :: rest => do
    let isOn ← noteKind? status
    let key ← dataByte? key
    let velocity ← dataByte? velocity
    return (⟨isOn, Fin.ofNat 16 status.toNat, key, velocity⟩, rest)
  | _ => none

/-- A tempo or the end of a track, and the bytes behind it. -/
def readMeta : Bytes → Option (TrackItem × Bytes)
  | 0x51 :: 0x03 :: a :: b :: c :: rest =>
    some (.tempo ((a.toNat * 256 + b.toNat) * 256 + c.toNat), rest)
  | 0x2F :: 0x00 :: rest => some (.ends, rest)
  | _ => none

/-- An item after one of the status `running`, the status that it has itself, and the bytes behind
it. -/
def readItem (running : Option UInt8) : Bytes → Option (TrackItem × Option UInt8 × Bytes)
  | [] => none
  | b :: rest =>
    if b = 0xFF then do
      let (item, rest) ← readMeta rest
      return (item, none, rest)
    else if 128 ≤ b.toNat then do
      let (m, rest) ← readMessage b rest
      return (.note m, some b, rest)
    else do
      let status ← running
      let (m, rest) ← readMessage status (b :: rest)
      return (.note m, some status, rest)

/-- Bytes after an item of the status `running` hold these items and nothing else, each with the
ticks since the one before it. -/
inductive Tells : Option UInt8 → Bytes → List (Nat × TrackItem) → Prop
  | nil {running : Option UInt8} : Tells running [] []
  | cons {running running' : Option UInt8} {bytes rest rest' : Bytes} {time : Nat}
      {item : TrackItem} {items : List (Nat × TrackItem)}
      (htime : readVariable 0 bytes = some (time, rest))
      (hitem : readItem running rest = some (item, running', rest'))
      (hitems : Tells running' rest' items) : Tells running bytes ((time, item) :: items)

/-- Bytes hold one list of items at most. -/
lemma Tells.unique {running : Option UInt8} {bytes : Bytes} {items items' : List (Nat × TrackItem)}
    (h : Tells running bytes items) (h' : Tells running bytes items') : items = items' := by
  induction h generalizing items' with
  | nil =>
      cases h' with
      | nil => rfl
      | cons htime => cases htime
  | cons htime hitem _ ih =>
      cases h' with
      | nil => cases htime
      | cons htime' hitem' hitems' =>
          cases htime.symm.trans htime'
          cases hitem.symm.trans hitem'
          rw [ih hitems']

/-! ## Written bytes -/

lemma toNat_ofNat_of_lt {n : Nat} (h : n < 256) : (UInt8.ofNat n).toNat = n :=
  UInt8.toNat_ofNat_of_lt' h

/-- The groups of a number count up to it, whatever comes behind them. -/
lemma readVariable_continuedGroups (n : Nat) (bytes : Bytes) :
    readVariable 0 (continuedGroups n ++ bytes) = readVariable n bytes := by
  induction n using Nat.strongRecOn generalizing bytes with
  | ind n ih =>
      unfold continuedGroups
      split
      · subst n
        rfl
      · have hgroup : (UInt8.ofNat (128 + n % 128)).toNat = 128 + n % 128 :=
          toNat_ofNat_of_lt (by omega)
        have hn : n / 128 * 128 + (128 + n % 128 - 128) = n := by omega
        rw [List.append_assoc, ih (n / 128) (by omega), List.singleton_append, readVariable, hgroup,
          if_neg (by omega), hn]

/-- A written number is read back, whatever comes behind it. -/
lemma readVariable_variableLength (n : Nat) (rest : Bytes) :
    readVariable 0 (variableLength n ++ rest) = some (n, rest) := by
  have hgroup : (UInt8.ofNat (n % 128)).toNat = n % 128 := toNat_ofNat_of_lt (by omega)
  have hn : n / 128 * 128 + n % 128 = n := by omega
  rw [variableLength, List.append_assoc, readVariable_continuedGroups, List.singleton_append,
    readVariable, hgroup, if_pos (by omega), hn]

lemma dataByte?_ofNat (i : Fin 128) : dataByte? (UInt8.ofNat i) = some i := by
  have hi : (UInt8.ofNat i).toNat = i := toNat_ofNat_of_lt (by omega)
  rw [dataByte?, dif_pos (by omega)]
  exact congrArg some (Fin.ext hi)

lemma NoteMessage.toNat_status (m : NoteMessage) :
    m.status.toNat = (if m.isOn then 0x90 else 0x80) + m.channel :=
  toNat_ofNat_of_lt (by split <;> omega)

/-- A written message is read back, whatever comes behind it. -/
lemma readMessage_status (m : NoteMessage) (rest : Bytes) :
    readMessage m.status (UInt8.ofNat m.key :: UInt8.ofNat m.velocity :: rest) =
      some (m, rest) := by
  have hkind : noteKind? m.status = some m.isOn := by
    rw [noteKind?, m.toNat_status]
    cases m.isOn
    · rw [if_neg (by simp; omega), if_pos (by simp; omega)]
    · rw [if_pos (by simp; omega)]
  have hchannel : Fin.ofNat 16 m.status.toNat = m.channel := by
    refine Fin.ext ?_
    rw [Fin.val_ofNat, m.toNat_status]
    split <;> omega
  rw [readMessage, hkind, dataByte?_ofNat, dataByte?_ofNat, hchannel]
  rfl

/-- A message is read back with its status, which stands before it or is that of the item before. -/
lemma readItem_message {running : Option UInt8} (m : NoteMessage) (rest : Bytes) :
    readItem running ((if running = some m.status then [] else [m.status]) ++
      UInt8.ofNat m.key :: UInt8.ofNat m.velocity :: rest) =
        some (.note m, some m.status, rest) := by
  have hstatus := m.toNat_status
  have hmeta (b : UInt8) (hb : b.toNat < 160) : b ≠ 0xFF := by
    rintro rfl
    exact absurd hb (by decide)
  split
  · rename_i hrunning
    have hkey : (UInt8.ofNat m.key).toNat = m.key := toNat_ofNat_of_lt (by omega)
    rw [hrunning, List.nil_append, readItem, if_neg (hmeta _ (by omega)), if_neg (by omega)]
    change (readMessage m.status _ >>= _) = _
    rw [readMessage_status]
    rfl
  · rw [List.singleton_append, readItem, if_neg (hmeta _ (by rw [hstatus]; split <;> omega)),
      if_pos (by rw [hstatus]; split <;> omega), readMessage_status]
    rfl

/-- The items of messages. -/
def noteItems (messages : List TimedMessage) : List (Nat × TrackItem) :=
  messages.map fun m => (m.time, .note m.message)

/-- Written messages are read back as themselves, before whatever is read behind them. -/
lemma tells_noteBytes {bytes : Bytes} {items : List (Nat × TrackItem)}
    (h : ∀ running, Tells running bytes items) (running : Option UInt8)
    (messages : List TimedMessage) :
    Tells running (noteBytes running messages ++ bytes) (noteItems messages ++ items) := by
  induction messages generalizing running with
  | nil => exact h running
  | cons m rest ih =>
      obtain ⟨time, m⟩ := m
      rw [noteBytes, List.append_assoc, List.append_assoc, List.append_assoc]
      exact .cons (readVariable_variableLength time _) (readItem_message m _) (ih _)

/-- Three bytes hold what they were written for. -/
lemma readMeta_tempo (tempo : Fin tempoLimit) (rest : Bytes) :
    readMeta ([0x51, 0x03] ++ bigEndian 3 tempo ++ rest) = some (.tempo tempo, rest) := by
  have hlow : (UInt8.ofNat (tempo % 256)).toNat = tempo % 256 := toNat_ofNat_of_lt (by omega)
  have hmiddle : (UInt8.ofNat (tempo / 256 % 256)).toNat = tempo / 256 % 256 :=
    toNat_ofNat_of_lt (by omega)
  have hhigh : (UInt8.ofNat (tempo / 256 / 256 % 256)).toNat = tempo / 256 / 256 % 256 :=
    toNat_ofNat_of_lt (by omega)
  have htempo : (tempo / 256 / 256 % 256 * 256 + tempo / 256 % 256) * 256 + tempo % 256 =
      (tempo : Nat) := by
    have hlt : (tempo : Nat) < 16777216 := tempo.isLt
    omega
  have hread : readMeta ([0x51, 0x03] ++ bigEndian 3 tempo ++ rest) =
      some (.tempo (((UInt8.ofNat (tempo / 256 / 256 % 256)).toNat * 256 +
        (UInt8.ofNat (tempo / 256 % 256)).toNat) * 256 +
          (UInt8.ofNat (tempo % 256)).toNat), rest) := rfl
  rw [hread, hlow, hmiddle, hhigh, htempo]

/-- The items of a track: its tempo, its messages and the end. -/
def MidiTrack.items (t : MidiTrack) : List (Nat × TrackItem) :=
  (0, .tempo t.tempo) :: noteItems t.messages ++ [(0, .ends)]

/-- The bytes of a track tell its items. -/
lemma MidiTrack.tells_bytes (t : MidiTrack) : Tells none t.bytes t.items := by
  have hend (running : Option UInt8) :
      Tells running (variableLength 0 ++ [0xFF, 0x2F, 0x00]) [(0, .ends)] :=
    .cons (readVariable_variableLength 0 _) rfl .nil
  have hmessages := tells_noteBytes hend none t.messages
  have htempo : readItem none ([0xFF, 0x51, 0x03] ++ bigEndian 3 t.tempo ++
      (noteBytes none t.messages ++ (variableLength 0 ++ [0xFF, 0x2F, 0x00]))) =
        some (.tempo t.tempo, none,
          noteBytes none t.messages ++ (variableLength 0 ++ [0xFF, 0x2F, 0x00])) := by
    change (readMeta ([0x51, 0x03] ++ bigEndian 3 t.tempo ++ _) >>= _) = _
    rw [readMeta_tempo]
    rfl
  rw [bytes]
  simp only [List.append_assoc] at htempo hmessages ⊢
  exact .cons (readVariable_variableLength 0 _) htempo hmessages

/-! ## Messages at one tick -/

/-- Sorting messages does not exchange those that could stand in either order. -/
lemma filter_orderedMessages {p : TimedMessage → Bool} (notes : List MidiNote)
    (h : ∀ a b, p a = true → p b = true → a.precedes b = true) :
    (orderedMessages notes).filter p = (messagesOf notes).filter p := by
  have hpairwise : ((messagesOf notes).filter p).Pairwise fun a b => a.precedes b = true :=
    List.pairwise_of_forall_mem_list fun a ha b hb =>
      h a b (List.mem_filter.mp ha).2 (List.mem_filter.mp hb).2
  have hsublist : ((messagesOf notes).filter p).Sublist (orderedMessages notes) :=
    List.sublist_mergeSort TimedMessage.precedes_trans TimedMessage.precedes_total hpairwise
      List.filter_sublist
  have hfilter := hsublist.filter p
  simp only [List.filter_filter, Bool.and_self] at hfilter
  exact (hfilter.eq_of_length ((orderedMessages_perm notes).filter p).length_eq.symm).symm

/-- Messages that are picked by note: of the two of a note one, or none. -/
lemma filter_messagesOf {p : TimedMessage → Bool} {q : MidiNote → Bool}
    {message : MidiNote → TimedMessage} (notes : List MidiNote)
    (h : ∀ n, [n.onMessage, n.offMessage].filter p = if q n then [message n] else []) :
    (messagesOf notes).filter p = (notes.filter q).map message := by
  induction notes with
  | nil => rfl
  | cons n rest ih =>
      rw [messagesOf] at ih ⊢
      rw [List.flatMap_cons, List.filter_append, ih, h, List.filter_cons]
      split <;> rfl

lemma filter_starts (tick : Nat) (notes : List MidiNote) :
    (messagesOf notes).filter (fun m => m.time = tick && m.message.isOn) =
      (notes.filter fun n => n.start = tick).map (·.onMessage) :=
  filter_messagesOf notes fun n => by
    by_cases htick : n.start = tick <;> simp [MidiNote.onMessage, MidiNote.offMessage, htick]

lemma filter_ends (tick : Nat) (notes : List MidiNote) :
    (messagesOf notes).filter (fun m => m.time = tick && !m.message.isOn) =
      (notes.filter fun n => n.start + n.duration = tick).map (·.offMessage) :=
  filter_messagesOf notes fun n => by
    by_cases htick : n.start + n.duration = tick <;>
      simp [MidiNote.onMessage, MidiNote.offMessage, htick]

/-! ## Tracks of notes -/

/-- What a track holds of notes at a tempo. -/
structure MidiTrack.Encodes (t : MidiTrack) (bpm : Number) (notes : List MidiNote) : Prop where
  /-- The bytes tell the tempo, then the messages and the end, and nothing else. -/
  told : ∀ items, Tells none t.bytes items ↔
    items = (0, .tempo t.tempo) :: noteItems t.messages ++ [(0, .ends)]
  tempo : microseconds bpm = .ok t.tempo
  /-- The ticks of the messages, added up, never fall. -/
  rises : t.timed.Pairwise fun a b => a.time ≤ b.time
  /-- With the ticks added up, every note has its start and its end, and there is nothing else. -/
  lossless : t.timed.Perm (notes.flatMap fun n => [n.onMessage, n.offMessage])
  ends_first : t.timed.Pairwise fun a b =>
    a.time = b.time → a.message.isOn = true → b.message.isOn = true
  starts_in_order : ∀ tick, t.timed.filter (fun m => m.time = tick && m.message.isOn) =
    (notes.filter fun n => n.start = tick).map (·.onMessage)
  ends_in_order : ∀ tick, t.timed.filter (fun m => m.time = tick && !m.message.isOn) =
    (notes.filter fun n => n.start + n.duration = tick).map (·.offMessage)

/-- The tempo of a track of notes. -/
lemma MidiTrack.microseconds_of_ofNotes {bpm : Number} {notes : List MidiNote} {track : MidiTrack}
    (h : MidiTrack.ofNotes bpm notes = .ok track) : microseconds bpm = .ok track.tempo := by
  unfold ofNotes at h
  split at h
  · cases h
  · rename_i length hlength
    split at h
    · cases h
    · rename_i tempo htempo
      obtain rfl := Except.ok.inj h
      rw [hlength, finOfInt?_eq_some htempo]

/-- **A track is a lossless encoding of its notes**: its bytes are read as one tempo, the messages
and the end; the ticks between the messages add up to times that never fall; at these times every
note is started once and ended once and nothing else is; and at one tick all ends come before all
starts, each kind in the order of the notes. -/
theorem notes_encoded_losslessly {bpm : Number} {notes : List MidiNote} {track : MidiTrack}
    (h : MidiTrack.ofNotes bpm notes = .ok track) : track.Encodes bpm notes where
  told items := by
    constructor
    · exact fun hitems => hitems.unique track.tells_bytes
    · rintro rfl
      exact track.tells_bytes
  tempo := MidiTrack.microseconds_of_ofNotes h
  rises := by
    rw [MidiTrack.timed_of_ofNotes h]
    exact (orderedMessages_pairwise notes).imp TimedMessage.time_le_of_precedes
  lossless := by
    rw [MidiTrack.timed_of_ofNotes h]
    exact orderedMessages_perm notes
  ends_first := by
    rw [MidiTrack.timed_of_ofNotes h]
    refine (orderedMessages_pairwise notes).imp fun {a b} hprecedes htime => ?_
    rcases TimedMessage.precedes_iff.mp hprecedes with hlt | ⟨-, hon⟩
    · exact absurd htime (Nat.ne_of_lt hlt)
    · exact hon
  starts_in_order tick := by
    rw [MidiTrack.timed_of_ofNotes h, filter_orderedMessages, filter_starts]
    intro a b ha hb
    simp only [Bool.and_eq_true, decide_eq_true_eq] at ha hb
    exact TimedMessage.precedes_iff.mpr (.inr ⟨ha.1.trans hb.1.symm, fun _ => hb.2⟩)
  ends_in_order tick := by
    rw [MidiTrack.timed_of_ofNotes h, filter_orderedMessages, filter_ends]
    intro a b ha hb
    simp only [Bool.and_eq_true, decide_eq_true_eq, Bool.not_eq_true'] at ha hb
    refine TimedMessage.precedes_iff.mpr (.inr ⟨ha.1.trans hb.1.symm, fun hon => ?_⟩)
    rw [ha.2] at hon
    cases hon

/-- Notes out of order, of which one has no length, one ends where two others start and two are
equal. -/
theorem crossing_notes_encoded_losslessly :
    ∃ notes track,
      notes = [⟨64, 480, 960, 100, 1⟩, ⟨60, 0, 480, 100, 0⟩, ⟨60, 480, 0, 90, 0⟩,
        ⟨67, 240, 1200, 80, 1⟩, ⟨60, 0, 480, 100, 0⟩] ∧
      MidiTrack.ofNotes (.whole 120) notes = .ok track ∧ track.Encodes (.whole 120) notes ∧
      track.messages.map (·.time) = [0, 0, 240, 240, 0, 0, 0, 0, 960, 0] := by
  obtain ⟨notes, hnotes⟩ : ∃ notes : List MidiNote, notes =
      [⟨64, 480, 960, 100, 1⟩, ⟨60, 0, 480, 100, 0⟩, ⟨60, 480, 0, 90, 0⟩,
        ⟨67, 240, 1200, 80, 1⟩, ⟨60, 0, 480, 100, 0⟩] := ⟨_, rfl⟩
  have htrack := eq_ok_of_isOk (x := MidiTrack.ofNotes (.whole 120) notes)
    (by rw [hnotes]; decide +kernel) ⟨⟨0, by decide⟩, []⟩
  refine ⟨notes, _, hnotes, htrack, notes_encoded_losslessly htrack, ?_⟩
  rw [MidiTrack.messages_of_ofNotes htrack, hnotes]
  cbv

end MusicMacro
