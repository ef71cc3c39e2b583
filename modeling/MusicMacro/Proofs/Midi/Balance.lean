import MusicMacro.Proofs.Midi.Messages

/-!
# Notes that are released

Read in order, the messages of a track should never end a note more often than they have started
it, and at the end every note should have been ended as often as it was started
(`MidiTrack.ReleasesAll`).  The totals always agree.  But at one tick all notes are ended before any
is started, and a note without length ends where it starts: its end comes first, and unless the same
key sounds across that tick there is nothing to end, and the note that starts behind it is never
released.

`releases_all_iff_not_pinched` says when this happens, for the tracks of notes and for the files of
parts: at some tick more notes without length stand on a key than notes that sound across it
(`IsPinched`).  Ticks are rounded, so a compiled event that is much shorter than a tick is a note
without length (`short_note_is_not_released`).
-/

namespace MusicMacro

/-! ## Balances -/

/-- Whether the message starts, or ends, a note of a key on a channel. -/
def TimedMessage.switches (isOn : Bool) (channel : Fin 16) (key : Fin 128) (m : TimedMessage) : Bool :=
  m.message.isOn = isOn && m.message.channel = channel && m.message.key = key

/-- How much more often messages start the notes of a key than they end them. -/
def balance (channel : Fin 16) (key : Fin 128) (messages : List TimedMessage) : Int :=
  messages.countP (·.switches true channel key) - messages.countP (·.switches false channel key)

/-- Read in order the messages never end more notes of a key than they have started, and in the end
they have ended all of them. -/
structure MidiTrack.ReleasesAll (t : MidiTrack) : Prop where
  never_below : ∀ channel key n, 0 ≤ balance channel key (t.messages.take n)
  ends : ∀ channel key, balance channel key t.messages = 0

namespace MidiNote

def isOn (channel : Fin 16) (key : Fin 128) (n : MidiNote) : Bool := n.channel = channel && n.key = key

/-- The note starts before the tick and ends after it. -/
def soundsAcross (channel : Fin 16) (key : Fin 128) (tick : Nat) (n : MidiNote) : Bool :=
  n.isOn channel key && n.start < tick && tick < n.start + n.duration

/-- The note ends where it starts, at the tick. -/
def isPointAt (channel : Fin 16) (key : Fin 128) (tick : Nat) (n : MidiNote) : Bool :=
  n.isOn channel key && n.start = tick && n.duration = 0

end MidiNote

/-- At some tick more notes without length stand on a key than notes that sound across it. -/
def IsPinched (notes : List MidiNote) : Prop :=
  ∃ channel key tick, notes.countP (·.soundsAcross channel key tick) <
    notes.countP (·.isPointAt channel key tick)

section

variable {channel : Fin 16} {key : Fin 128} {notes : List MidiNote}

/-- The balance of messages does not depend on their times. -/
lemma balance_congr {messages messages' : List TimedMessage}
    (h : messages.map (·.message) = messages'.map (·.message)) :
    balance channel key messages = balance channel key messages' := by
  have hcount (isOn : Bool) (messages : List TimedMessage) :
      messages.countP (·.switches isOn channel key) =
        (messages.map (·.message)).countP fun m => (⟨0, m⟩ : TimedMessage).switches isOn channel key := by
    rw [List.countP_map]
    rfl
  rw [balance, hcount, hcount, h, ← hcount, ← hcount, balance]

@[simp] lemma switches_onMessage (isOn : Bool) (n : MidiNote) :
    n.onMessage.switches isOn channel key = (isOn && n.isOn channel key) := by
  cases isOn <;> simp only [TimedMessage.switches, MidiNote.onMessage, MidiNote.isOn] <;> rfl

@[simp] lemma switches_offMessage (isOn : Bool) (n : MidiNote) :
    n.offMessage.switches isOn channel key = (!isOn && n.isOn channel key) := by
  cases isOn <;> simp only [TimedMessage.switches, MidiNote.offMessage, MidiNote.isOn] <;> rfl

lemma onMessage_time (n : MidiNote) : n.onMessage.time = n.start := rfl

lemma offMessage_time (n : MidiNote) : n.offMessage.time = n.start + n.duration := rfl

/-- In the end every note has been ended as often as it was started. -/
lemma balance_orderedMessages : balance channel key (orderedMessages notes) = 0 := by
  rw [balance, (orderedMessages_perm notes).countP_eq, (orderedMessages_perm notes).countP_eq,
    countP_messagesOf, countP_messagesOf]
  simp

/-! ## The balance before a tick's starts -/

/-- The balance once everything before a tick and the ends at the tick are read. -/
def balanceAt (channel : Fin 16) (key : Fin 128) (tick : Nat) (messages : List TimedMessage) : Int :=
  messages.countP (fun m => m.switches true channel key && m.time < tick) -
    messages.countP fun m => m.switches false channel key && m.time ≤ tick

/-- What sounds across a tick is what started before it and has not ended by then; a note without
length has ended but not started. -/
lemma balanceAt_orderedMessages (tick : Nat) :
    balanceAt channel key tick (orderedMessages notes) =
      notes.countP (·.soundsAcross channel key tick) - notes.countP (·.isPointAt channel key tick) := by
  have hnotes : notes.countP (fun n => n.isOn channel key && n.onMessage.time < tick) +
        notes.countP (·.isPointAt channel key tick) =
      notes.countP (·.soundsAcross channel key tick) +
        notes.countP fun n => n.isOn channel key && n.offMessage.time ≤ tick := by
    induction notes with
    | nil => rfl
    | cons n rest ih =>
        simp only [List.countP_cons, MidiNote.isPointAt, MidiNote.soundsAcross, onMessage_time,
          offMessage_time] at ih ⊢
        cases n.isOn channel key with
        | false => simpa using ih
        | true =>
            simp only [Bool.true_and, Bool.and_eq_true, decide_eq_true_eq]
            grind
  rw [balanceAt, (orderedMessages_perm notes).countP_eq, (orderedMessages_perm notes).countP_eq,
    countP_messagesOf, countP_messagesOf]
  simp only [switches_onMessage, switches_offMessage, Bool.true_and, Bool.false_and, Bool.not_true,
    Bool.not_false, List.countP_false, Function.const_apply]
  omega

/-- A front of ordered messages reaches up to some tick, where the others begin. -/
lemma exists_tick_between {front back : List TimedMessage}
    (h : (front ++ back).Pairwise fun a b => a.precedes b = true) (hne : front ≠ []) :
    ∃ tick, (∀ m ∈ front, m.time ≤ tick) ∧ ∀ m ∈ back, tick ≤ m.time := by
  obtain ⟨before, last, hlast⟩ := front.eq_nil_or_concat.resolve_left hne
  rw [List.concat_eq_append] at hlast
  subst hlast
  obtain ⟨hfront, -, hback⟩ := List.pairwise_append.mp h
  refine ⟨last.time, fun m hm => ?_, fun m hm => ?_⟩
  · rcases List.mem_append.mp hm with hm | hm
    · exact TimedMessage.time_le_of_precedes
        ((List.pairwise_append.mp hfront).2.2 m hm last List.mem_cons_self)
    · obtain rfl := List.mem_singleton.mp hm
      exact Nat.le_refl _
  · exact TimedMessage.time_le_of_precedes (hback last (by simp) m hm)

/-- At no point is the balance below what it is before the starts of the tick that is reached. -/
lemma exists_balanceAt_le (channel : Fin 16) (key : Fin 128) {front back : List TimedMessage}
    (h : (front ++ back).Pairwise fun a b => a.precedes b = true) (hne : front ≠ []) :
    ∃ tick, balanceAt channel key tick (front ++ back) ≤ balance channel key front := by
  obtain ⟨tick, hfront, hback⟩ := exists_tick_between h hne
  refine ⟨tick, ?_⟩
  -- what is still to come starts nothing before the tick that is reached
  have hcoming : back.countP (fun m => m.switches true channel key && m.time < tick) = 0 := by
    refine List.countP_eq_zero.mpr fun m hm => ?_
    have := hback m hm
    simp [this]
  have hstarted : front.countP (fun m => m.switches true channel key && m.time < tick) ≤
      front.countP (·.switches true channel key) :=
    List.countP_mono_left fun m _ hm => (Bool.and_eq_true_iff.mp hm).1
  have hended : front.countP (·.switches false channel key) =
      front.countP fun m => m.switches false channel key && m.time ≤ tick := by
    refine List.countP_congr fun m hm => ?_
    simp [hfront m hm]
  rw [balanceAt, balance, List.countP_append, List.countP_append, hcoming, hended]
  omega

/-- Whether the message stands before the starts of a tick. -/
def TimedMessage.isBeforeStarts (tick : Nat) (m : TimedMessage) : Bool :=
  m.time < tick || (m.time = tick && !m.message.isOn)

lemma isBeforeStarts_of_precedes {tick : Nat} {a b : TimedMessage} (h : a.precedes b = true)
    (hb : b.isBeforeStarts tick = true) : a.isBeforeStarts tick = true := by
  rw [TimedMessage.precedes_iff] at h
  simp only [TimedMessage.isBeforeStarts, Bool.or_eq_true, Bool.and_eq_true, decide_eq_true_eq,
    Bool.not_eq_true'] at hb ⊢
  grind

/-- Ordered messages are cut at the starts of a tick. -/
lemma exists_cut_at {messages : List TimedMessage}
    (h : messages.Pairwise fun a b => a.precedes b = true) (tick : Nat) :
    ∃ front back, messages = front ++ back ∧ (∀ m ∈ front, m.isBeforeStarts tick = true) ∧
      ∀ m ∈ back, m.isBeforeStarts tick = false := by
  induction messages with
  | nil => exact ⟨[], [], rfl, nofun, nofun⟩
  | cons m rest ih =>
      obtain ⟨hm, hrest⟩ := List.pairwise_cons.mp h
      cases hread : m.isBeforeStarts tick with
      | true =>
          obtain ⟨front, back, rfl, hfront, hback⟩ := ih hrest
          exact ⟨m :: front, back, rfl, List.forall_mem_cons.mpr ⟨hread, hfront⟩, hback⟩
      | false =>
          refine ⟨[], m :: rest, rfl, nofun, List.forall_mem_cons.mpr ⟨hread, fun m' hm' => ?_⟩⟩
          refine Bool.eq_false_iff.mpr fun hlater => ?_
          simp [isBeforeStarts_of_precedes (hm m' hm') hlater] at hread

/-- There is a point at which the balance is what it is before the starts of a tick. -/
lemma exists_balance_eq (channel : Fin 16) (key : Fin 128) {messages : List TimedMessage}
    (h : messages.Pairwise fun a b => a.precedes b = true) (tick : Nat) :
    ∃ n, balance channel key (messages.take n) = balanceAt channel key tick messages := by
  obtain ⟨front, back, rfl, hfront, hback⟩ := exists_cut_at h tick
  have hcut (isOn : Bool) (p : TimedMessage → Bool)
      (hp : ∀ m, m.message.isOn = isOn → p m = m.isBeforeStarts tick) :
      (front ++ back).countP (fun m => m.switches isOn channel key && p m) =
        front.countP (·.switches isOn channel key) := by
    have hnone : back.countP (fun m => m.switches isOn channel key && p m) = 0 := by
      refine List.countP_eq_zero.mpr fun m hm => ?_
      have := hback m hm
      have := hp m
      simp only [TimedMessage.switches, Bool.and_eq_true, decide_eq_true_eq]
      grind
    rw [List.countP_append, hnone]
    refine List.countP_congr fun m hm => ?_
    have := hfront m hm
    have := hp m
    simp only [TimedMessage.switches, Bool.and_eq_true, decide_eq_true_eq]
    grind
  refine ⟨front.length, ?_⟩
  rw [List.take_left, balanceAt, hcut true _ fun m hm => by simp [TimedMessage.isBeforeStarts, hm],
    hcut false _ fun m hm => by simp [TimedMessage.isBeforeStarts, hm, Nat.le_iff_lt_or_eq], balance]

end

/-! ## Hanging notes -/

/-- The messages of a track are those of notes: every note is ended as often as it is started, and
all are released unless the notes are pinched. -/
structure MidiTrack.Plays (t : MidiTrack) (notes : List MidiNote) : Prop where
  ends : ∀ channel key, balance channel key t.messages = 0
  releasesAll_iff : t.ReleasesAll ↔ ¬IsPinched notes

lemma plays_of_ofNotes {bpm : Number} {notes : List MidiNote} {track : MidiTrack}
    (h : MidiTrack.ofNotes bpm notes = .ok track) : track.Plays notes := by
  have hmessages := MidiTrack.messages_of_ofNotes h
  have hbalance (channel : Fin 16) (key : Fin 128) (n : Nat) :
      balance channel key (track.messages.take n) =
        balance channel key ((orderedMessages notes).take n) := by
    refine balance_congr ?_
    rw [hmessages, List.map_take, map_message_deltas, List.map_take]
  have hends (channel : Fin 16) (key : Fin 128) : balance channel key track.messages = 0 := by
    rw [balance_congr (hmessages ▸ map_message_deltas 0 _), balance_orderedMessages]
  refine ⟨hends, ⟨fun hreleases => ?_, fun hpinched => ⟨fun channel key n => ?_, hends⟩⟩⟩
  · rintro ⟨channel, key, tick, hlt⟩
    obtain ⟨n, hn⟩ := exists_balance_eq channel key (orderedMessages_pairwise notes) tick
    have := hreleases.never_below channel key n
    rw [hbalance, hn, balanceAt_orderedMessages] at this
    omega
  · rw [hbalance]
    by_cases hne : (orderedMessages notes).take n = []
    · rw [hne]
      exact Int.le_refl 0
    · have hsplit := List.take_append_drop n (orderedMessages notes)
      obtain ⟨tick, htick⟩ := exists_balanceAt_le channel key
        (hsplit.symm ▸ orderedMessages_pairwise notes) hne
      rw [hsplit, balanceAt_orderedMessages] at htick
      have hle := Nat.le_of_not_lt fun hlt => hpinched ⟨channel, key, tick, hlt⟩
      omega

/-- Every track of notes ends each key as often as it starts it.  It never ends a key before it has
started it unless a note without length stands on that key where no other note of it sounds on, and
then it does; the same holds for the file of parts, whose notes' ticks are rounded. -/
theorem releases_all_iff_not_pinched (bpm : Number) (notes : List MidiNote) (grid : TickGrid)
    (velocity : Int) (parts : List (Int × List Event)) :
    (∀ track, MidiTrack.ofNotes bpm notes = .ok track → track.Plays notes) ∧
      ∀ file, MidiFile.ofParts grid velocity parts = .ok file →
        ∃ notes, notesOfParts grid velocity parts = .ok notes ∧ file.track.Plays notes := by
  refine ⟨fun _ h => plays_of_ofNotes h, fun _ h => ?_⟩
  obtain ⟨notes, hnotes, htrack⟩ := MidiFile.exists_notes_of_ofParts h
  exact ⟨notes, hnotes, plays_of_ofNotes htrack⟩

/-- A compiled note of an eighth of a tick ends where it starts and sounds on after the last
message. -/
theorem short_note_is_not_released :
    ∃ events file notes, (compileText "T30000 O4 C64").2 = .ok events ∧
      MidiFile.ofParts .standard standardVelocity [(0, events)] = .ok file ∧
      notesOfParts .standard standardVelocity [(0, events)] = .ok notes ∧
      file.track.Plays notes ∧ IsPinched notes ∧ ¬file.track.ReleasesAll := by
  have hevents := eq_ok_of_isOk (x := (compileText "T30000 O4 C64").2) (by decide +kernel) []
  generalize hmade : (compileText "T30000 O4 C64").2.toOption.getD [] = events at hevents
  have hpoint : (notesOfParts .standard standardVelocity [(0, events)]).toOption =
      some [⟨60, 0, 0, 100, 0⟩] := by
    rw [← hmade]
    decide +kernel
  have hfile := eq_ok_of_isOk (x := MidiFile.ofParts .standard standardVelocity [(0, events)])
    (by rw [← hmade]; decide +kernel) ⟨0, ⟨0, by decide⟩, []⟩
  obtain ⟨notes, hnotes, hplays⟩ :=
    (releases_all_iff_not_pinched (.whole 120) [] .standard standardVelocity _).2 _ hfile
  rw [hnotes] at hpoint
  obtain rfl := Option.some.inj hpoint
  have hpinched : IsPinched [⟨60, 0, 0, 100, 0⟩] := ⟨0, 60, 0, by decide⟩
  exact ⟨events, _, _, hevents, hfile, hnotes, hplays, hpinched,
    fun h => hplays.releasesAll_iff.mp h hpinched⟩

end MusicMacro
