import Mathlib.Data.List.Perm.Basic
import MusicMacro.Proofs.Midi.Messages

/-!
# Notes read off messages

Messages in time order can be read back as notes: each message that starts a note lasts to the
first later one that ends a note of its channel and key and that no earlier start has taken
(`pairNotes`).

This gives the notes that the messages were made of back, in some order, if every note has a length
and the notes of one key never overlap in part (`MidiNote.IsApart`): two of them last over the same
ticks, as doubled tones do, or one of them ends before the other starts
(`pairNotes_of_perm`).  The ends of a tick stand before its starts, so a repeated key that follows
without a gap ends before it starts again.
-/

namespace MusicMacro

/-! ## Pairing starts with ends -/

/-- Whether the message ends a note of the channel and key that another one starts. -/
def TimedMessage.isEndOf (m start : TimedMessage) : Bool :=
  !m.message.isOn && m.message.channel = start.message.channel && m.message.key = start.message.key

/-- The note that lasts from one message to another. -/
def TimedMessage.noteTo (start stop : TimedMessage) : MidiNote :=
  ⟨start.message.key, start.time, stop.time - start.time, start.message.velocity,
    start.message.channel⟩

/-- The notes of messages, if every message has its partner. -/
def pairNotes : List TimedMessage → Option (List MidiNote)
  | [] => some []
  | m :: rest =>
    if m.message.isOn then do
      let stop ← rest.find? (·.isEndOf m)
      let notes ← pairNotes (rest.eraseP (·.isEndOf m))
      return m.noteTo stop :: notes
    else none
termination_by messages => messages.length
decreasing_by
  have := (List.eraseP_sublist (p := (·.isEndOf m)) (l := rest)).length_le
  simp only [List.length_cons]
  omega

/-- Notes of one key last over the same ticks, or one of them ends before the other starts. -/
def MidiNote.IsApart (a b : MidiNote) : Prop :=
  a.channel = b.channel → a.key = b.key →
    (a.start = b.start ∧ a.duration = b.duration) ∨ a.start + a.duration ≤ b.start ∨
      b.start + b.duration ≤ a.start

section

variable {notes : List MidiNote} {m : TimedMessage} {rest : List TimedMessage}

lemma isEndOf_iff {stop start : TimedMessage} :
    stop.isEndOf start = true ↔ stop.message.isOn = false ∧
      stop.message.channel = start.message.channel ∧ stop.message.key = start.message.key := by
  simp [TimedMessage.isEndOf, and_assoc]

lemma pairNotes_cons {stop : TimedMessage} (hon : m.message.isOn = true)
    (hstop : rest.find? (·.isEndOf m) = some stop)
    (hrest : pairNotes (rest.eraseP (·.isEndOf m)) = some notes) :
    pairNotes (m :: rest) = some (m.noteTo stop :: notes) := by
  rw [pairNotes, if_pos hon, hstop, hrest]
  rfl

lemma noteTo_offMessage (n : MidiNote) : n.onMessage.noteTo n.offMessage = n := by
  simp [TimedMessage.noteTo, MidiNote.onMessage, MidiNote.offMessage]

lemma mem_messagesOf : m ∈ messagesOf notes ↔ ∃ n ∈ notes, m = n.onMessage ∨ m = n.offMessage := by
  simp [messagesOf]

lemma messagesOf_perm_of_mem {n : MidiNote} (h : n ∈ notes) :
    (messagesOf notes).Perm (n.onMessage :: n.offMessage :: messagesOf (notes.erase n)) :=
  (List.perm_cons_erase h).flatMap_right _

/-! ## The first message -/

/-- The first of the messages starts a note, for the end of a note stands behind its start. -/
lemma exists_start_of_head (hsorted : (m :: rest).Pairwise fun a b => a.precedes b = true)
    (hperm : (m :: rest).Perm (messagesOf notes)) (hpos : ∀ n ∈ notes, 0 < n.duration) :
    ∃ n ∈ notes, m = n.onMessage := by
  obtain ⟨n, hn, hm | hm⟩ := mem_messagesOf.mp (hperm.mem_iff.mp List.mem_cons_self)
  · exact ⟨n, hn, hm⟩
  · have hstart : n.onMessage ∈ m :: rest :=
      hperm.mem_iff.mpr (mem_messagesOf.mpr ⟨n, hn, .inl rfl⟩)
    have hne : n.onMessage ≠ m := by
      rw [hm]
      exact fun h => Bool.noConfusion (congrArg (·.message.isOn) h)
    have hle := TimedMessage.time_le_of_precedes
      ((List.pairwise_cons.mp hsorted).1 _ ((List.mem_cons.mp hstart).resolve_left hne))
    have hlength := hpos n hn
    rw [hm] at hle
    simp only [MidiNote.onMessage, MidiNote.offMessage] at hle
    omega

/-- The first end of the note's key behind its start is an end of the note, for a note of that key
which ends earlier would have to start earlier. -/
lemma first_end_eq {n : MidiNote} {stop : TimedMessage} {front back : List TimedMessage}
    (hsorted : (n.onMessage :: (front ++ stop :: back)).Pairwise fun a b => a.precedes b = true)
    (hperm : (n.onMessage :: (front ++ stop :: back)).Perm (messagesOf notes)) (hn : n ∈ notes)
    (hpos : ∀ n ∈ notes, 0 < n.duration) (hapart : ∀ a ∈ notes, ∀ b ∈ notes, a.IsApart b)
    (hstop : stop.isEndOf n.onMessage = true)
    (hfront : ∀ a ∈ front, a.isEndOf n.onMessage = false) : stop = n.offMessage := by
  obtain ⟨hhead, hrest⟩ := List.pairwise_cons.mp hsorted
  obtain ⟨hoff, hchannel, hkey⟩ := isEndOf_iff.mp hstop
  -- the message that is found ends some note of the key
  have hmem : stop ∈ n.onMessage :: (front ++ stop :: back) := by simp
  obtain ⟨n', hn', hon | hend⟩ := mem_messagesOf.mp (hperm.mem_iff.mp hmem)
  · rw [hon] at hoff
    cases hoff
  subst hend
  -- which ends no later than the note that is started, and starts no earlier
  have hfirst : n'.offMessage.time ≤ n.offMessage.time := by
    have hown : n.offMessage ∈ n.onMessage :: (front ++ n'.offMessage :: back) :=
      hperm.mem_iff.mpr (mem_messagesOf.mpr ⟨n, hn, .inr rfl⟩)
    have hnot : n.offMessage ∉ front := fun h => by
      have := hfront _ h
      simp [TimedMessage.isEndOf, MidiNote.offMessage, MidiNote.onMessage] at this
    simp only [List.mem_cons, List.mem_append, hnot, false_or] at hown
    rcases hown with hon | heq | hback
    · exact absurd (congrArg (·.message.isOn) hon) Bool.false_ne_true
    · exact Nat.le_of_eq (congrArg (·.time) heq.symm)
    · exact TimedMessage.time_le_of_precedes
        ((List.pairwise_cons.mp (List.pairwise_append.mp hrest).2.1).1 _ hback)
  have hstart : n.onMessage.time ≤ n'.onMessage.time := by
    have hown : n'.onMessage ∈ n.onMessage :: (front ++ n'.offMessage :: back) :=
      hperm.mem_iff.mpr (mem_messagesOf.mpr ⟨n', hn', .inl rfl⟩)
    rcases List.mem_cons.mp hown with heq | hlater
    · exact Nat.le_of_eq (congrArg (·.time) heq.symm)
    · exact TimedMessage.time_le_of_precedes (hhead _ hlater)
  have hlength := hpos n hn
  have hlength' := hpos n' hn'
  have happart := hapart n hn n' hn' hchannel.symm hkey.symm
  simp only [MidiNote.onMessage, MidiNote.offMessage] at hfirst hstart hchannel hkey ⊢
  rw [hchannel, hkey]
  have : n'.start + n'.duration = n.start + n.duration := by omega
  rw [this]

end

/-! ## All messages -/

/-- Messages in time order are paired to the notes that they were made of. -/
theorem pairNotes_of_perm {notes : List MidiNote} {messages : List TimedMessage}
    (hsorted : messages.Pairwise fun a b => a.precedes b = true)
    (hperm : messages.Perm (messagesOf notes)) (hpos : ∀ n ∈ notes, 0 < n.duration)
    (hapart : ∀ a ∈ notes, ∀ b ∈ notes, a.IsApart b) :
    ∃ read, pairNotes messages = some read ∧ read.Perm notes := by
  induction hcount : notes.length generalizing notes messages with
  | zero =>
      obtain rfl := List.length_eq_zero_iff.mp hcount
      obtain rfl := hperm.eq_nil
      exact ⟨[], by rw [pairNotes], .nil⟩
  | succ count ih =>
      cases messages with
      | nil =>
          obtain ⟨n, hn⟩ := List.exists_mem_of_length_pos (by omega : 0 < notes.length)
          have hstart := hperm.mem_iff.mpr (mem_messagesOf.mpr ⟨n, hn, .inl rfl⟩)
          exact absurd hstart List.not_mem_nil
      | cons m rest =>
          obtain ⟨n, hn, rfl⟩ := exists_start_of_head hsorted hperm hpos
          have hrest : rest.Perm (n.offMessage :: messagesOf (notes.erase n)) :=
            (hperm.trans (messagesOf_perm_of_mem hn)).cons_inv
          have hend : n.offMessage.isEndOf n.onMessage = true := isEndOf_iff.mpr ⟨rfl, rfl, rfl⟩
          obtain ⟨stop, front, back, hfront, hstop, rfl, herase⟩ :=
            List.exists_of_eraseP (p := (·.isEndOf n.onMessage))
              (hrest.mem_iff.mpr List.mem_cons_self) hend
          have hfront' : ∀ a ∈ front, a.isEndOf n.onMessage = false := fun a ha =>
            Bool.eq_false_iff.mpr (hfront a ha)
          obtain rfl := first_end_eq hsorted hperm hn hpos hapart hstop hfront'
          -- what is left are the messages of the other notes
          have hothers : (front ++ back).Perm (messagesOf (notes.erase n)) :=
            (List.perm_middle.symm.trans hrest).cons_inv
          have hsub : (front ++ back).Sublist (n.onMessage :: (front ++ n.offMessage :: back)) :=
            ((List.sublist_cons_self _ _).append_left front).cons _
          obtain ⟨read, hread, hsame⟩ := ih (hsorted.sublist hsub) hothers
            (fun a ha => hpos a (List.mem_of_mem_erase ha))
            (fun a ha b hb => hapart a (List.mem_of_mem_erase ha) b (List.mem_of_mem_erase hb))
            (by rw [List.length_erase_of_mem hn, hcount, Nat.add_sub_cancel])
          have hfind : (front ++ n.offMessage :: back).find? (·.isEndOf n.onMessage) =
              some n.offMessage :=
            List.find?_eq_some_iff_append.mpr
              ⟨hend, front, back, rfl, fun a ha => by rw [hfront' a ha]; rfl⟩
          refine ⟨n :: read, ?_, (hsame.cons n).trans (List.perm_cons_erase hn).symm⟩
          rw [pairNotes_cons rfl hfind (herase ▸ hread), noteTo_offMessage]

end MusicMacro
