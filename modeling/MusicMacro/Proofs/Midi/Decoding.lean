import Mathlib.Data.List.Perm.Basic
import MusicMacro.Proofs.Midi.Pairing
import MusicMacro.Proofs.Midi.Ticks
import MusicMacro.Proofs.Notation.Events
import MusicMacro.Proofs.Notation.Policy

/-!
# Parts read back from a file

The track of a file mixes the notes of all parts.  Parts whose indices differ modulo fifteen have
channels of their own (`channelOfPart_ne`), and the ticks of a part's events follow one another, so
its notes of one key never overlap in part (`isApart_of_parts`).  Pairing starts with ends
therefore reads every part back from its channel (`parts_read_back`), as long as no event that
sounds is rounded to no ticks at all.
-/

namespace MusicMacro

/-- The tick of a time, zero where it has none. -/
def TickGrid.tickAt (grid : TickGrid) (seconds : Number) : Int :=
  (grid.ticks seconds).toOption.getD 0

/-- Channel, key, start, duration and velocity of a note. -/
def MidiNote.values (n : MidiNote) : Int × Int × Int × Int × Int :=
  (n.channel, n.key, n.start, n.duration, n.velocity)

/-- The values of the notes that an event's tones make on a channel. -/
def eventValues (grid : TickGrid) (velocity channel : Int) (e : Event) :
    List (Int × Int × Int × Int × Int) :=
  e.tones.map fun t =>
    (channel, t.index + 21, grid.tickAt e.start, grid.tickAt e.stop - grid.tickAt e.start, velocity)

/-- Both times of the event have ticks. -/
def Event.HasTicks (grid : TickGrid) (e : Event) : Prop :=
  grid.ticks e.start = .ok (grid.tickAt e.start) ∧ grid.ticks e.stop = .ok (grid.tickAt e.stop)

section

variable {grid : TickGrid} {velocity channel : Int} {notes : List MidiNote}

lemma ticks_eq_tickAt {seconds : Number} {n : Int} (h : grid.ticks seconds = .ok n) :
    grid.ticks seconds = .ok (grid.tickAt seconds) := by
  rw [TickGrid.tickAt, h]
  rfl

/-! ## The notes of parts -/

lemma finOfInt?_eq_some {bound : Nat} {value : Int} {i : Fin bound}
    (h : finOfInt? bound value = some i) : ((i : Nat) : Int) = value := by
  unfold finOfInt? at h
  split at h
  · cases h
    exact Int.toNat_of_nonneg (by omega)
  · cases h

lemma natOfInt?_eq_some {value : Int} {n : Nat} (h : natOfInt? value = some n) :
    (n : Int) = value := by
  unfold natOfInt? at h
  split at h
  · cases h
    exact Int.toNat_of_nonneg ‹_›
  · cases h

/-- A note has the values that it is made of. -/
lemma values_of_make {key start duration velocity channel : Int} {n : MidiNote}
    (h : MidiNote.make key start duration velocity channel = .ok n) :
    n.values = (channel, key, start, duration, velocity) := by
  unfold MidiNote.make at h
  split at h <;> try cases h
  rename_i hkey hvelocity hchannel hstart hduration
  rw [MidiNote.values, finOfInt?_eq_some hkey, finOfInt?_eq_some hvelocity,
    finOfInt?_eq_some hchannel, natOfInt?_eq_some hstart, natOfInt?_eq_some hduration]

lemma values_of_notesOfEvent {e : Event} (h : notesOfEvent grid velocity channel e = .ok notes) :
    e.HasTicks grid ∧ notes.map (·.values) = eventValues grid velocity channel e := by
  obtain ⟨start, hstart, h⟩ := bind_eq_ok h
  obtain ⟨stop, hstop, h⟩ := bind_eq_ok h
  have hstart := mapError_eq_ok hstart
  have hstop := mapError_eq_ok hstop
  refine ⟨⟨ticks_eq_tickAt hstart, ticks_eq_tickAt hstop⟩, ?_⟩
  obtain rfl := Except.ok.inj ((ticks_eq_tickAt hstart).symm.trans hstart)
  obtain rfl := Except.ok.inj ((ticks_eq_tickAt hstop).symm.trans hstop)
  exact map_eq_of_mapM (fun t n hn => values_of_make hn) h

lemma values_of_notesOfPart {events : List Event}
    (h : notesOfPart grid velocity channel events = .ok notes) :
    (∀ e ∈ events, e.HasTicks grid) ∧
      notes.map (·.values) = events.flatMap (eventValues grid velocity channel) := by
  induction events generalizing notes with
  | nil =>
      cases h
      exact ⟨fun e he => absurd he List.not_mem_nil, rfl⟩
  | cons e rest ih =>
      obtain ⟨first, hfirst, h⟩ := bind_eq_ok h
      obtain ⟨more, hmore, h⟩ := bind_eq_ok h
      obtain rfl := Except.ok.inj h
      obtain ⟨hticks, hvalues⟩ := values_of_notesOfEvent hfirst
      obtain ⟨hticks', hvalues'⟩ := ih hmore
      exact ⟨List.forall_mem_cons.mpr ⟨hticks, hticks'⟩, by
        rw [List.map_append, hvalues, hvalues', List.flatMap_cons]⟩

end

/-- The values of the notes that a part's tones make on its channel. -/
def partValues (grid : TickGrid) (velocity : Int) (p : Int × List Event) :
    List (Int × Int × Int × Int × Int) :=
  p.2.flatMap (eventValues grid velocity (channelOfPart p.1))

section

variable {grid : TickGrid} {velocity : Int} {parts : List (Int × List Event)}
  {notes : List MidiNote}

lemma values_of_notesOfParts (h : notesOfParts grid velocity parts = .ok notes) :
    (∀ p ∈ parts, ∀ e ∈ p.2, e.HasTicks grid) ∧
      (notes.map (·.values)).Perm (parts.flatMap (partValues grid velocity)) := by
  obtain ⟨lists, hlists, h⟩ := bind_eq_ok h
  obtain rfl := Except.ok.inj h
  have hordered : (parts.mergeSort fun a b => a.1 ≤ b.1).Perm parts := List.mergeSort_perm _ _
  constructor
  · intro p hp
    obtain ⟨made, hmade⟩ := exists_ok_of_mapM hlists (hordered.mem_iff.mpr hp)
    exact (values_of_notesOfPart hmade).1
  · have hvalues := map_eq_of_mapM (g := List.map (·.values)) (k := partValues grid velocity)
      (fun p made hmade => (values_of_notesOfPart hmade).2) hlists
    rw [List.map_flatten, hvalues]
    exact hordered.flatMap_right _

/-! ## Channels -/

lemma channelOfPart_eq (index : Int) :
    channelOfPart index = (melodicChannels[(index % 15).toNat]?).getD 0 := by
  have hlength : melodicChannels.length = 15 := by decide
  rw [channelOfPart, hlength, Int.fmod_eq_emod_of_nonneg _ (by decide)]
  rfl

/-- Parts whose indices differ modulo fifteen have different channels. -/
lemma channelOfPart_ne {i j : Int} (h : i % 15 ≠ j % 15) : channelOfPart i ≠ channelOfPart j := by
  have hchannels : ∀ a b : Fin 15,
      (melodicChannels[a.val]?).getD 0 = (melodicChannels[b.val]?).getD 0 → a = b := by decide
  rw [channelOfPart_eq, channelOfPart_eq]
  intro heq
  have hsame := congrArg Fin.val
    (hchannels ⟨(i % 15).toNat, by omega⟩ ⟨(j % 15).toNat, by omega⟩ heq)
  simp only at hsame
  omega

/-- No part is on the drum channel. -/
lemma channelOfPart_ne_drumChannel (index : Int) : channelOfPart index ≠ drumChannel := by
  have hchannels : ∀ a : Fin 15, (melodicChannels[a.val]?).getD 0 ≠ drumChannel := by decide
  rw [channelOfPart_eq]
  exact hchannels ⟨(index % 15).toNat, by omega⟩

lemma channel_of_mem_partValues {p : Int × List Event} {v : Int × Int × Int × Int × Int}
    (h : v ∈ partValues grid velocity p) : v.1 = channelOfPart p.1 := by
  obtain ⟨e, -, hv⟩ := List.mem_flatMap.mp h
  obtain ⟨t, -, rfl⟩ := List.mem_map.mp hv
  rfl

/-- The values on a part's channel are those of the part. -/
lemma filter_flatMap_partValues {p : Int × List Event}
    (hchannels : parts.Pairwise fun p q => p.1 % 15 ≠ q.1 % 15) (hp : p ∈ parts) :
    (parts.flatMap (partValues grid velocity)).filter (·.1 = (channelOfPart p.1 : Int)) =
      partValues grid velocity p := by
  obtain ⟨front, back, rfl⟩ := List.append_of_mem hp
  obtain ⟨-, hback, hfront⟩ := List.pairwise_append.mp hchannels
  have hnone (others : List (Int × List Event)) (hne : ∀ q ∈ others, q.1 % 15 ≠ p.1 % 15) :
      (others.flatMap (partValues grid velocity)).filter (·.1 = (channelOfPart p.1 : Int)) = [] := by
    refine List.filter_eq_nil_iff.mpr fun v hv => ?_
    obtain ⟨q, hq, hv⟩ := List.mem_flatMap.mp hv
    rw [channel_of_mem_partValues hv, decide_eq_true_eq, Int.ofNat_inj]
    exact channelOfPart_ne (hne q hq)
  have hall : (partValues grid velocity p).filter (·.1 = (channelOfPart p.1 : Int)) =
      partValues grid velocity p :=
    List.filter_eq_self.mpr fun v hv => decide_eq_true (channel_of_mem_partValues hv)
  rw [List.flatMap_append, List.flatMap_cons, List.filter_append, List.filter_append, hall,
    hnone front fun q hq => hfront q hq p List.mem_cons_self,
    hnone back fun q hq => ((List.pairwise_cons.mp hback).1 q hq).symm]
  simp

/-! ## Notes of one key -/

lemma isRest_of_mem_tones {e : Event} {t : SoundingTone} (h : t ∈ e.tones) : e.isRest = false := by
  have hfrom (positions : List Position) (place : Nat) (h : t ∈ Event.soundingFrom place positions) :
      positions.all (·.index.isNone) = false := by
    induction positions generalizing place with
    | nil => exact absurd h List.not_mem_nil
    | cons p rest ih =>
        rw [Event.soundingFrom] at h
        rw [List.all_cons]
        cases hindex : p.index with
        | none =>
            rw [hindex] at h
            exact ih _ h
        | some i => rfl
  exact hfrom e.positions 0 h

/-- A note comes from a tone of an event. -/
lemma exists_origin (h : notesOfParts grid velocity parts = .ok notes) {n : MidiNote}
    (hn : n ∈ notes) :
    ∃ p ∈ parts, ∃ e ∈ p.2, e.isRest = false ∧ (n.channel : Nat) = channelOfPart p.1 ∧
      (n.start : Int) = grid.tickAt e.start ∧
      (n.duration : Int) = grid.tickAt e.stop - grid.tickAt e.start := by
  have hmem := (values_of_notesOfParts h).2.mem_iff.mp (List.mem_map_of_mem hn)
  obtain ⟨p, hp, hvalues⟩ := List.mem_flatMap.mp hmem
  obtain ⟨e, he, hvalues⟩ := List.mem_flatMap.mp hvalues
  obtain ⟨t, ht, hvalues⟩ := List.mem_map.mp hvalues
  simp only [MidiNote.values, Prod.mk.injEq] at hvalues
  obtain ⟨hchannel, -, hstart, hduration, -⟩ := hvalues
  exact ⟨p, hp, e, he, isRest_of_mem_tones ht, Int.ofNat_inj.mp hchannel.symm, hstart.symm,
    hduration.symm⟩

end

/-! ## Compiled parts -/

/-- The events of a part of some batch. -/
def IsBatchPart (events : List Event) : Prop :=
  ∃ policy texts batch index, compileBatch policy texts = .ok batch ∧ (index, events) ∈ batch.parts

lemma IsBatchPart.exists_directives {events : List Event} (h : IsBatchPart events) :
    ∃ directives, compileDirectives directives = .ok events := by
  obtain ⟨policy, texts, batch, index, hbatch, hmem⟩ := h
  unfold compileBatch at hbatch
  dsimp only at hbatch
  split at hbatch
  · cases hbatch
  · obtain rfl := Except.ok.inj hbatch
    dsimp only [installedParts] at hmem
    split at hmem
    · cases hmem
    · obtain ⟨o, ho, hpart⟩ := List.mem_filterMap.mp hmem
      obtain ⟨events', hevents, hpair⟩ := Option.map_eq_some_iff.mp hpart
      obtain ⟨-, rfl⟩ := Prod.mk.inj hpair
      obtain ⟨text, -, i, rfl⟩ := exists_text_of_mem_outcomesFrom ho
      exact exists_directives_of_compileText ((PartOutcome.events?_eq_some_iff i).mp hevents)

lemma eq_or_rel_of_pairwise {α : Type} {R : α → α → Prop} {xs : List α} (h : xs.Pairwise R) {a b : α}
    (ha : a ∈ xs) (hb : b ∈ xs) : a = b ∨ R a b ∨ R b a := by
  induction xs with
  | nil => exact absurd ha List.not_mem_nil
  | cons x rest ih =>
      obtain ⟨hx, hrest⟩ := List.pairwise_cons.mp h
      rcases List.mem_cons.mp ha with rfl | hlater
      · rcases List.mem_cons.mp hb with rfl | hlater'
        · exact .inl rfl
        · exact .inr (.inl (hx b hlater'))
      · rcases List.mem_cons.mp hb with rfl | hlater'
        · exact .inr (.inr (hx a hlater))
        · exact ih hrest hlater hlater'

/-- An event that does not stop after another one starts has no larger tick there, for a grid that
gives some stop a tick above zero. -/
lemma tickAt_le {grid : TickGrid} {e e' : Event} (he : e.IsRegular) (he' : e'.IsRegular)
    (hticks : e.HasTicks grid) (hticks' : e'.HasTicks grid) (hpos : 0 < grid.tickAt e.stop)
    (h : e.stop.size ≤ e'.start.size) : grid.tickAt e.stop ≤ grid.tickAt e'.start := by
  obtain ⟨x, hx, hstop⟩ := he.stop
  obtain ⟨y, hy, hstart⟩ := he'.start
  have hxtick := hticks.2
  have hytick := hticks'.1
  rw [hstop] at hxtick hpos h ⊢
  rw [hstart] at hytick h ⊢
  rcases grid.ticks_mono_or_nonpos with hnonpos | hmono
  · have := hnonpos x _ hx hxtick
    omega
  · exact hmono x y _ _ hx hy h hxtick hytick

/-- What parts of batches are made of, for a file with a grid. -/
structure AreReadable (grid : TickGrid) (parts : List (Int × List Event)) : Prop where
  compiled : ∀ p ∈ parts, IsBatchPart p.2
  channels : parts.Pairwise fun p q => p.1 % 15 ≠ q.1 % 15
  lasts : ∀ p ∈ parts, ∀ e ∈ p.2, e.isRest = false → grid.tickAt e.start < grid.tickAt e.stop

section

variable {grid : TickGrid} {velocity : Int} {parts : List (Int × List Event)}
  {notes : List MidiNote}

lemma duration_pos (hparts : AreReadable grid parts)
    (h : notesOfParts grid velocity parts = .ok notes) : ∀ n ∈ notes, 0 < n.duration := by
  intro n hn
  obtain ⟨p, hp, e, he, hrest, -, -, hduration⟩ := exists_origin h hn
  have := hparts.lasts p hp e he hrest
  omega

/-- Notes of one key on one channel come from one part, and there from one event or from events
that follow one another. -/
lemma isApart_of_parts (hparts : AreReadable grid parts)
    (h : notesOfParts grid velocity parts = .ok notes) :
    ∀ a ∈ notes, ∀ b ∈ notes, a.IsApart b := by
  intro a ha b hb hchannel hkey
  obtain ⟨p, hp, e, he, hrest, hachannel, hastart, haduration⟩ := exists_origin h ha
  obtain ⟨q, hq, e', he', hrest', hbchannel, hbstart, hbduration⟩ := exists_origin h hb
  obtain rfl : p = q := by
    rcases eq_or_rel_of_pairwise hparts.channels hp hq with heq | hpq | hqp
    · exact heq
    · exact absurd (hachannel.symm.trans ((congrArg Fin.val hchannel).trans hbchannel))
        (channelOfPart_ne hpq)
    · exact absurd (hachannel.symm.trans ((congrArg Fin.val hchannel).trans hbchannel))
        (channelOfPart_ne hqp).symm
  obtain ⟨directives, hdirectives⟩ := (hparts.compiled p hp).exists_directives
  have hregular := compileDirectives_isRegular hdirectives
  have hticks := (values_of_notesOfParts h).1 p hp
  have hlasts := hparts.lasts p hp e he hrest
  have hlasts' := hparts.lasts p hp e' he' hrest'
  rcases eq_or_rel_of_pairwise (compileDirectives_pairwise hdirectives) he he' with rfl | hle | hle
  · left
    omega
  · have := tickAt_le (hregular e he) (hregular e' he') (hticks e he) (hticks e' he') (by omega) hle
    right
    left
    omega
  · have := tickAt_le (hregular e' he') (hregular e he) (hticks e' he') (hticks e he) (by omega) hle
    right
    right
    omega

end

/-! ## Files -/

/-- **Every part is read back from its channel**: for parts of batches, under indices that differ
modulo fifteen, whose sounding events all last for some ticks, all messages of the file's track find
their partner.  The parts are on channels of their own, none of them on the drum channel; no note is
on another channel, and those of a part's channel are the part's tones, with their keys, their ticks
and the velocity of the file, doubled tones included. -/
theorem parts_read_back {grid : TickGrid} {velocity : Int} {parts : List (Int × List Event)}
    {file : MidiFile} (hparts : AreReadable grid parts)
    (hfile : MidiFile.ofParts grid velocity parts = .ok file) :
    (∀ p ∈ parts, ∀ e ∈ p.2, e.HasTicks grid) ∧
      (parts.Pairwise fun p q => channelOfPart p.1 ≠ channelOfPart q.1) ∧
      ∃ notes, pairNotes file.track.timed = some notes ∧
        (∀ n ∈ notes, ∃ p ∈ parts, (n.channel : Nat) = channelOfPart p.1) ∧
        ∀ p ∈ parts, channelOfPart p.1 ≠ drumChannel ∧
          ((notes.filter fun n => (n.channel : Nat) = channelOfPart p.1).map (·.values)).Perm
            (partValues grid velocity p) := by
  obtain ⟨made, hmade, htrack⟩ := MidiFile.exists_notes_of_ofParts hfile
  obtain ⟨hticks, hvalues⟩ := values_of_notesOfParts hmade
  refine ⟨hticks, hparts.channels.imp fun hne => channelOfPart_ne hne, ?_⟩
  obtain ⟨notes, hnotes, hsame⟩ := pairNotes_of_perm (orderedMessages_pairwise made)
    (orderedMessages_perm made) (duration_pos hparts hmade) (isApart_of_parts hparts hmade)
  refine ⟨notes, by rw [MidiTrack.timed_of_ofNotes htrack, hnotes], fun n hn => ?_, fun p hp => ?_⟩
  · obtain ⟨p, hp, e, -, -, hchannel, -⟩ := exists_origin hmade (hsame.mem_iff.mp hn)
    exact ⟨p, hp, hchannel⟩
  · refine ⟨channelOfPart_ne_drumChannel p.1, ?_⟩
    have hchannel : (notes.filter fun n => (n.channel : Nat) = channelOfPart p.1).map (·.values) =
        (notes.map (·.values)).filter (·.1 = (channelOfPart p.1 : Int)) := by
      rw [List.filter_map]
      refine congrArg _ (List.filter_congr fun n _ => ?_)
      simp [MidiNote.values]
    rw [hchannel, ← filter_flatMap_partValues hparts.channels hp]
    exact ((hsame.map _).trans hvalues).filter _

/-- A chord with a doubled tone that is struck again without a gap, beside a part on the channel
behind the drums. -/
theorem doubled_tones_read_back :
    ∃ batch first second file,
      compileBatch .skip ["T60 O4 CEE4 CEE8", "T90 O3 G8 R8 G8"] = .ok batch ∧
        (0, first) ∈ batch.parts ∧ (1, second) ∈ batch.parts ∧
        AreReadable .standard [(0, first), (9, second)] ∧
        MidiFile.ofParts .standard standardVelocity [(0, first), (9, second)] = .ok file ∧
        ∃ notes, pairNotes file.track.timed = some notes ∧
          ∀ p ∈ [((0 : Int), first), (9, second)],
            ((notes.filter fun n => (n.channel : Nat) = channelOfPart p.1).map (·.values)).Perm
              (partValues .standard standardVelocity p) := by
  have hbatch := eq_ok_of_isOk
    (x := compileBatch .skip ["T60 O4 CEE4 CEE8", "T90 O3 G8 R8 G8"]) (by decide +kernel) ⟨[], [], []⟩
  generalize hmade : (compileBatch .skip ["T60 O4 CEE4 CEE8", "T90 O3 G8 R8 G8"]).toOption.getD
    ⟨[], [], []⟩ = batch at hbatch
  have hfirst : (0, (batch.parts.lookup 0).getD []) ∈ batch.parts := by
    rw [← hmade]
    decide +kernel
  have hsecond : (1, (batch.parts.lookup 1).getD []) ∈ batch.parts := by
    rw [← hmade]
    decide +kernel
  have hlasts : ∀ p ∈ [((0 : Int), (batch.parts.lookup 0).getD []), (9, (batch.parts.lookup 1).getD [])],
      ∀ e ∈ p.2, e.isRest = false →
        TickGrid.standard.tickAt e.start < TickGrid.standard.tickAt e.stop := by
    rw [← hmade]
    decide +kernel
  have hwritten : (MidiFile.ofParts .standard standardVelocity
      [(0, (batch.parts.lookup 0).getD []), (9, (batch.parts.lookup 1).getD [])]).isOk = true := by
    rw [MidiFile.ofParts, notesOfParts, List.mergeSort_of_pairwise (by simp), ← hmade]
    decide +kernel
  have hfile := eq_ok_of_isOk hwritten ⟨0, ⟨0, by decide⟩, []⟩
  generalize (batch.parts.lookup 0).getD [] = first at *
  generalize (batch.parts.lookup 1).getD [] = second at *
  have hcompiled : ∀ p ∈ [((0 : Int), first), (9, second)], IsBatchPart p.2 := by
    simp only [List.forall_mem_cons, List.not_mem_nil, false_implies, implies_true, and_true]
    exact ⟨⟨_, _, batch, 0, hbatch, hfirst⟩, ⟨_, _, batch, 1, hbatch, hsecond⟩⟩
  have hparts : AreReadable .standard [(0, first), (9, second)] :=
    ⟨hcompiled, by simp, hlasts⟩
  obtain ⟨-, -, notes, hnotes, -, hread⟩ := parts_read_back hparts hfile
  exact ⟨batch, first, second, _, hbatch, hfirst, hsecond, hparts, hfile, notes, hnotes,
    fun p hp => (hread p hp).2⟩

end MusicMacro
