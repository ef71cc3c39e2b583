import MusicMacro.Proofs.Midi.Decoding
import MusicMacro.Settings

/-!
# Files that can be written

Settings take every resolution and every tempo above zero, and a file does not: the length of a
quarter note has three bytes, too few for a tempo below four, and the resolution has two with a
sign.  The tempo is refused when the file is made and the resolution only when its bytes are
written.

Nothing else stands in the way.  Strings that compile to tones within the keys, up to an end that
has a tick, make a file that can be written if and only if the settings fit the format
(`compiled_parts_written_iff`): earlier times have ticks because the end has one, and on a grid with
ticks and a tempo no event ends before it starts.
-/

namespace MusicMacro

/-- The highest index of a tone that is a key: the keys are the indices from `A0` on. -/
def highestIndex : Nat := 106

/-- The text compiles, no tone is above the highest key and the end of the last event has a
tick. -/
def FitsGrid (grid : TickGrid) (text : String) : Prop :=
  ∃ events, (compileText text).2 = .ok events ∧
    (∀ e ∈ events, ∀ t ∈ e.tones, t.index ≤ highestIndex) ∧
    ∀ e ∈ events.getLast?, ∃ tick, grid.ticks e.stop = .ok tick

/-- The tempo and the resolution fit the fields of a file. -/
def Settings.FitsFormat (s : Settings) : Prop := 4 ≤ s.bpm ∧ s.ticksPerBeat ≤ 32767

/-- The parts of a batch with their indices as channels take them. -/
def Batch.numberedParts (b : Batch) : List (Int × List Event) :=
  b.parts.map fun p => ((p.1 : Int), p.2)

/-- Parts can be made into a file on a grid, and its bytes can be written. -/
def CanBeWritten (grid : TickGrid) (parts : List (Int × List Event)) : Prop :=
  ∃ file bytes, MidiFile.ofParts grid standardVelocity parts = .ok file ∧ file.bytes = .ok bytes

/-! ## Times of compiled events -/

section

variable {text : String} {events : List Event}

/-- When the last event ends at a tick, every event has ticks, and on a grid with ticks and a tempo
they are not negative and in order. -/
lemma ticks_of_last {grid : TickGrid} (hresolution : 0 < grid.ticksPerBeat) (hbpm : 0 < grid.bpm)
    (h : (compileText text).2 = .ok events)
    (hlast : ∀ e ∈ events.getLast?, ∃ tick, grid.ticks e.stop = .ok tick) {e : Event}
    (he : e ∈ events) :
    ∃ start stop, grid.ticks e.start = .ok start ∧ grid.ticks e.stop = .ok stop ∧ 0 ≤ start ∧
      start ≤ stop := by
  obtain ⟨directives, hdirectives⟩ := exists_directives_of_compileText h
  have hregular := compileDirectives_isRegular hdirectives
  have hlastmem := List.getLast?_eq_some_getLast (List.ne_nil_of_mem he)
  obtain ⟨tick, htick⟩ := hlast _ hlastmem
  obtain ⟨z, hz, hend⟩ := (hregular _ (List.mem_of_getLast? hlastmem)).stop
  obtain ⟨x, hx, hstart⟩ := (hregular e he).start
  obtain ⟨y, hy, hstop⟩ := (hregular e he).stop
  have hxy := start_size_le_stop h he
  have hyz := stop_size_le_last h he hlastmem
  rw [hend] at htick hyz
  rw [hstart, hstop] at hxy
  rw [hstop] at hyz
  obtain ⟨stop, hystop⟩ := TickGrid.exists_tick_of_size_le hy hz hyz htick
  obtain ⟨start, hxstart⟩ := TickGrid.exists_tick_of_size_le hx hy hxy hystop
  refine ⟨start, stop, hstart ▸ hxstart, hstop ▸ hystop, ?_⟩
  exact TickGrid.ticks_le_of_pos hresolution hbpm hx hy hxy hxstart hystop

end

/-! ## Notes -/

lemma exists_finOfInt? {bound : Nat} {value : Int} (h : 0 ≤ value ∧ value < bound) :
    ∃ i, finOfInt? bound value = some i :=
  ⟨_, dif_pos h⟩

lemma exists_natOfInt? {value : Int} (h : 0 ≤ value) : ∃ n, natOfInt? value = some n :=
  ⟨_, if_pos h⟩

lemma exists_make_eq_ok {key start duration velocity channel : Int} (hkey : 0 ≤ key ∧ key < 128)
    (hvelocity : 0 ≤ velocity ∧ velocity < 128) (hchannel : 0 ≤ channel ∧ channel < 16)
    (hstart : 0 ≤ start) (hduration : 0 ≤ duration) :
    ∃ n, MidiNote.make key start duration velocity channel = .ok n := by
  obtain ⟨k, hk⟩ := exists_finOfInt? hkey
  obtain ⟨v, hv⟩ := exists_finOfInt? hvelocity
  obtain ⟨c, hc⟩ := exists_finOfInt? hchannel
  obtain ⟨s, hs⟩ := exists_natOfInt? hstart
  obtain ⟨d, hd⟩ := exists_natOfInt? hduration
  rw [MidiNote.make, hk, hv, hc, hs, hd]
  exact ⟨_, rfl⟩

lemma channelOfPart_lt (index : Int) : channelOfPart index < 16 := by
  have hchannels : ∀ a : Fin 15, (melodicChannels[a.val]?).getD 0 < 16 := by decide
  rw [channelOfPart_eq]
  exact hchannels ⟨(index % 15).toNat, by omega⟩

section

variable {grid : TickGrid} {velocity channel : Int}

lemma exists_notesOfEvent {e : Event} {start stop : Int} (hstart : grid.ticks e.start = .ok start)
    (hstop : grid.ticks e.stop = .ok stop) (hpos : 0 ≤ start) (hle : start ≤ stop)
    (hindices : ∀ t ∈ e.tones, t.index ≤ highestIndex)
    (hvelocity : 0 ≤ velocity ∧ velocity < 128) (hchannel : 0 ≤ channel ∧ channel < 16) :
    ∃ notes, notesOfEvent grid velocity channel e = .ok notes := by
  rw [notesOfEvent, hstart, hstop]
  refine exists_mapM_eq_ok fun t ht => ?_
  have hkey := hindices t ht
  rw [highestIndex] at hkey
  refine exists_make_eq_ok ?_ hvelocity hchannel hpos (Int.sub_nonneg_of_le hle)
  rw [midiKey, midiKeyOffset]
  omega

lemma exists_notesOfPart {events : List Event}
    (h : ∀ e ∈ events, ∃ notes, notesOfEvent grid velocity channel e = .ok notes) :
    ∃ notes, notesOfPart grid velocity channel events = .ok notes := by
  induction events with
  | nil => exact ⟨[], rfl⟩
  | cons e rest ih =>
      obtain ⟨⟨first, hfirst⟩, hrest⟩ := List.forall_mem_cons.mp h
      obtain ⟨more, hmore⟩ := ih hrest
      refine ⟨first ++ more, ?_⟩
      rw [notesOfPart, hfirst, ok_bind, hmore]
      rfl

/-- Texts that fit a grid with ticks and a tempo give the notes of their parts. -/
lemma exists_notesOfParts {parts : List (Int × List Event)} (hresolution : 0 < grid.ticksPerBeat)
    (hbpm : 0 < grid.bpm)
    (h : ∀ p ∈ parts, ∃ text, (compileText text).2 = .ok p.2 ∧ FitsGrid grid text) :
    ∃ notes, notesOfParts grid standardVelocity parts = .ok notes := by
  have hparts : ∀ p ∈ parts.mergeSort fun a b => a.1 ≤ b.1,
      ∃ notes, notesOfPart grid standardVelocity (channelOfPart p.1) p.2 = .ok notes := by
    intro p hp
    obtain ⟨text, hevents, events, hevents', hindices, hlast⟩ := h p (List.mem_mergeSort.mp hp)
    obtain rfl := Except.ok.inj (hevents.symm.trans hevents')
    refine exists_notesOfPart fun e he => ?_
    obtain ⟨start, stop, hstart, hstop, hpos, hle⟩ :=
      ticks_of_last hresolution hbpm hevents hlast he
    refine exists_notesOfEvent hstart hstop hpos hle (hindices e he) (by decide) ?_
    have := channelOfPart_lt p.1
    omega
  obtain ⟨lists, hlists⟩ := exists_mapM_eq_ok hparts
  refine ⟨lists.flatten, ?_⟩
  change (List.mapM (fun p : Int × List Event =>
    notesOfPart grid standardVelocity (channelOfPart p.1) p.2) _ >>= _) = _
  rw [hlists, ok_bind]
  rfl

end

/-! ## The fields of a file -/

/-- A quarter note of a tempo has as many whole microseconds as its nearest double. -/
lemma microseconds_eq {bpm : Int} (hbpm : 0 < bpm) :
    MidiTrack.microseconds (.whole bpm) =
      .ok (Magnitude.nearestUnits (60000000 * Magnitude.unitsPerWhole) bpm.natAbs /
        Magnitude.unitsPerWhole : Nat) := by
  have hsmall : (60000000 : Int).natAbs < 2 ^ 100 * bpm.natAbs := by
    have : 0 < bpm.natAbs := by omega
    omega
  obtain ⟨m, hm⟩ := Double.isFinite_ofFraction hsmall
  have hsize : (60000000 : Int).natAbs = 60000000 := rfl
  obtain ⟨-, hunits⟩ := Double.ofUnits_eq_finite_iff.mp hm
  rw [hsize] at hunits
  have hdivide : (Number.whole 60000000).divide (.whole bpm) = .ok (.finite false m) := by
    have hsign : (decide ((60000000 : Int) < 0) != decide (bpm < 0)) =
        decide ((60000000 : Int) < 0) := by
      rw [decide_eq_false (Int.not_lt.mpr (Int.le_of_lt hbpm))]
      rfl
    rw [Number.divide, doubleOfQuotient, if_neg (by omega), hsign]
    have hvalue : Double.ofUnits (decide ((60000000 : Int) < 0))
      ((60000000 : Int).natAbs * Magnitude.unitsPerWhole) bpm.natAbs = .finite false m := hm
    simp only [hvalue]
    rfl
  have htruncate : (Double.finite false m).truncate =
      .ok (m.units / Magnitude.unitsPerWhole : Nat) := rfl
  unfold MidiTrack.microseconds
  simp only [hdivide, ok_bind, htruncate, hunits, mapError_ok]

/-- Whole numbers of units that doubles hold exactly are their own nearest ones. -/
lemma nearestUnits_whole {n : Nat} (h : n ≤ 2 ^ 53) :
    Magnitude.nearestUnits (n * Magnitude.unitsPerWhole) 1 = n * Magnitude.unitsPerWhole := by
  refine Magnitude.nearestUnits_of_dvd ?_
  unfold Magnitude.unitsPerWhole
  generalize 1074 = k
  exact Magnitude.spacing_dvd_mul k h

/-- The length of a quarter note has three bytes exactly from a tempo of four on. -/
lemma microseconds_lt_tempoLimit_iff {bpm : Nat} (hbpm : 0 < bpm) :
    Magnitude.nearestUnits (60000000 * Magnitude.unitsPerWhole) bpm / Magnitude.unitsPerWhole <
      tempoLimit ↔ 4 ≤ bpm := by
  have hfast := nearestUnits_whole (n := 15000000) (by decide)
  have hslow := nearestUnits_whole (n := 20000000) (by decide)
  have hwhole := Double.unitsPerWhole_pos
  rw [tempoLimit]
  generalize Magnitude.unitsPerWhole = whole at hfast hslow hwhole ⊢
  constructor
  · intro hlt
    by_contra hbelow
    have hle : 20000000 * whole * bpm ≤ 60000000 * whole * 1 := by
      calc 20000000 * whole * bpm ≤ 20000000 * whole * 3 := Nat.mul_le_mul_left _ (by omega)
        _ = 60000000 * whole * 1 := by omega
    have hnearest := Magnitude.nearestUnits_mono Nat.one_pos hbpm hle
    rw [hslow, ← Nat.le_div_iff_mul_le hwhole] at hnearest
    omega
  · intro hle
    have hle' : 60000000 * whole * 1 ≤ 15000000 * whole * bpm := by
      calc 60000000 * whole * 1 = 15000000 * whole * 4 := by omega
        _ ≤ 15000000 * whole * bpm := Nat.mul_le_mul_left _ hle
    have hnearest := Magnitude.nearestUnits_mono hbpm Nat.one_pos hle'
    rw [hfast] at hnearest
    have hquotient := Nat.div_le_of_le_mul (hnearest.trans_eq (Nat.mul_comm _ _))
    omega

lemma finOfInt?_natCast_eq_none_iff {bound n : Nat} :
    finOfInt? bound (n : Int) = none ↔ bound ≤ n := by
  unfold finOfInt?
  split
  · simp only [reduceCtorEq, false_iff]
    omega
  · simp only [true_iff]
    omega

/-- A track can be made if the length of a quarter note has three bytes. -/
lemma ofNotes_isOk_iff {bpm : Number} {length : Nat}
    (h : MidiTrack.microseconds bpm = .ok (length : Int)) (notes : List MidiNote) :
    (∃ track, MidiTrack.ofNotes bpm notes = .ok track) ↔ length < tempoLimit := by
  unfold MidiTrack.ofNotes
  split
  · rename_i e he
    cases h.symm.trans he
  · rename_i found hfound
    obtain rfl := Except.ok.inj (h.symm.trans hfound)
    split
    · rename_i hnone
      exact iff_of_false nofun (Nat.not_lt.mpr (finOfInt?_natCast_eq_none_iff.mp hnone))
    · rename_i tempo hsome
      have htempo : (tempo : Nat) = length := Int.ofNat_inj.mp (finOfInt?_eq_some hsome)
      exact iff_of_true ⟨_, rfl⟩ (htempo ▸ tempo.isLt)

lemma ofNotes_isOk_iff_le {bpm : Int} (hbpm : 0 < bpm) (notes : List MidiNote) :
    (∃ track, MidiTrack.ofNotes (.whole bpm) notes = .ok track) ↔ 4 ≤ bpm := by
  rw [ofNotes_isOk_iff (microseconds_eq hbpm), microseconds_lt_tempoLimit_iff (by omega)]
  omega

lemma bytes_isOk_iff (file : MidiFile) :
    (∃ bytes, file.bytes = .ok bytes) ↔ -32768 ≤ file.ticksPerBeat ∧ file.ticksPerBeat ≤ 32767 := by
  rw [MidiFile.bytes]
  split
  · exact ⟨fun _ => ‹_›, fun _ => ⟨_, rfl⟩⟩
  · exact ⟨nofun, fun h => absurd h ‹_›⟩

lemma ticksPerBeat_of_ofParts {grid : TickGrid} {velocity : Int} {parts : List (Int × List Event)}
    {file : MidiFile} (h : MidiFile.ofParts grid velocity parts = .ok file) :
    file.ticksPerBeat = grid.ticksPerBeat := by
  obtain ⟨notes, -, h⟩ := bind_eq_ok h
  obtain ⟨track, -, h⟩ := bind_eq_ok h
  obtain rfl := Except.ok.inj h
  rfl

/-! ## Written parts -/

/-- **Compiled strings can be written exactly if the settings fit the format**: for strings that
compile to tones within the keys and end where the grid has a tick, and for settings with any
resolution and tempo above zero, the batch has the events of every string, and its file can be made
and its bytes written if and only if the tempo is at least four and the resolution at most
`32767`. -/
theorem compiled_parts_written_iff (settings : Settings) {texts : List String}
    (h : ∀ text ∈ texts, FitsGrid settings.grid text) :
    ∃ batch, compileBatch settings.policy texts = .ok batch ∧ batch.IsPointwise texts ∧
      (CanBeWritten settings.grid batch.numberedParts ↔ settings.FitsFormat) := by
  have hcompiles : ∀ text ∈ texts, Compiles text := fun text hmem =>
    have ⟨events, hevents, _⟩ := h text hmem
    ⟨events, hevents⟩
  obtain ⟨log, hbatch⟩ :=
    compileBatch_of_answered (fun text hmem => .inl (hcompiles text hmem)) settings.policy
  have hpointwise := isPointwise_of_stops
    (fun text hmem => PartOutcome.stops_of_compiles 0 (hcompiles text hmem) settings.policy) log
  refine ⟨_, hbatch, hpointwise, ?_⟩
  have hnotes : ∃ notes, notesOfParts settings.grid standardVelocity
      (Batch.numberedParts ⟨installedParts settings.policy (outcomesFrom settings.policy 0 texts),
        (outcomesFrom settings.policy 0 texts).filterMap (·.refusal?), log⟩) = .ok notes := by
    refine exists_notesOfParts settings.ticksPerBeat_pos settings.bpm_pos fun p hp => ?_
    obtain ⟨⟨i, events⟩, hmem, rfl⟩ := List.mem_map.mp hp
    obtain ⟨text, htext, hevents⟩ := (hpointwise.parts i events).mp hmem
    exact ⟨text, hevents, h text (List.mem_of_getElem? htext)⟩
  obtain ⟨notes, hnotes⟩ := hnotes
  constructor
  · rintro ⟨file, bytes, hfile, hbytes⟩
    obtain ⟨notes', -, htrack⟩ := MidiFile.exists_notes_of_ofParts hfile
    have hresolution := ((bytes_isOk_iff file).mp ⟨bytes, hbytes⟩).2
    rw [ticksPerBeat_of_ofParts hfile] at hresolution
    exact ⟨(ofNotes_isOk_iff_le settings.bpm_pos notes').mp ⟨file.track, htrack⟩, hresolution⟩
  · rintro ⟨hbpm, hresolution⟩
    obtain ⟨track, htrack⟩ := (ofNotes_isOk_iff_le settings.bpm_pos notes).mpr hbpm
    have hpos := settings.ticksPerBeat_pos
    obtain ⟨bytes, hbytes⟩ := (bytes_isOk_iff ⟨settings.ticksPerBeat, track⟩).mpr
      ⟨by dsimp only; omega, hresolution⟩
    refine ⟨⟨settings.ticksPerBeat, track⟩, bytes, ?_, hbytes⟩
    rw [MidiFile.ofParts, hnotes, ok_bind]
    exact congrArg (· >>= fun track => .ok (⟨settings.ticksPerBeat, track⟩ : MidiFile)) htrack

/-- Settings take a resolution of `40000`, and with them no sound can be written; with the standard
ones the same sound can. -/
theorem large_resolution_is_not_written :
    ∃ large standard : Settings,
      Settings.ofFields [("ticks_per_beat", .whole 40000)] = .ok large ∧
        Settings.ofFields [] = .ok standard ∧
        (∀ text ∈ ["T60 O4 C4"], FitsGrid large.grid text) ∧
        (∃ batch, compileBatch large.policy ["T60 O4 C4"] = .ok batch ∧
          ¬CanBeWritten large.grid batch.numberedParts) ∧
        ∃ batch, compileBatch standard.policy ["T60 O4 C4"] = .ok batch ∧
          CanBeWritten standard.grid batch.numberedParts := by
  have hevents := eq_ok_of_isOk (x := (compileText "T60 O4 C4").2) (by decide +kernel) []
  have hfits (grid : TickGrid)
      (htick : ∀ e ∈ ((compileText "T60 O4 C4").2.toOption.getD []).getLast?,
        (grid.ticks e.stop).isOk = true) :
      ∀ text ∈ ["T60 O4 C4"], FitsGrid grid text := by
    intro text htext
    obtain rfl := List.mem_singleton.mp htext
    refine ⟨_, hevents, by decide +kernel, fun e he => ?_⟩
    exact ⟨_, eq_ok_of_isOk (htick e he) 0⟩
  let large : Settings :=
    ⟨.abort, 40000, 120, .ofText "songs", .ofText "output", by decide, by decide⟩
  let standard : Settings :=
    ⟨.abort, 480, 120, .ofText "songs", .ofText "output", by decide, by decide⟩
  have hlarge := hfits large.grid (by decide +kernel)
  have hstandard := hfits standard.grid (by decide +kernel)
  obtain ⟨batch, hbatch, -, hwritten⟩ := compiled_parts_written_iff large hlarge
  obtain ⟨batch', hbatch', -, hwritten'⟩ := compiled_parts_written_iff standard hstandard
  exact ⟨large, standard, rfl, rfl, hlarge,
    ⟨batch, hbatch, fun h => absurd (hwritten.mp h).2 (by decide)⟩,
    batch', hbatch', hwritten'.mpr ⟨by decide, by decide⟩⟩

end MusicMacro
