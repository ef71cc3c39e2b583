import MusicMacro.Proofs.Notation.Batch
import MusicMacro.Proofs.Notation.Refusals
import MusicMacro.Score

/-!
# A batch is its strings, one by one

Nothing is carried from one string of a batch to the next, and no failure of a string is anything
but a refusal.  So a batch can be told from what each of its strings compiles to by itself
(`compileBatch_follows_policy`):

* under the policy that skips, the parts are those of the strings that compile, each at the index
  of its string, and every refusal is reported in order (`Batch.IsPointwise`);
* under the policy that aborts it is the same as long as every string compiles; otherwise nothing
  is kept, the first refusal alone is reported and no string after it is compiled
  (`Batch.IsAborted`).

The score of a batch has its parts in index order, and the indices of its parts and of the strings
that failed are all the indices there are (`Score.Covers`).
-/

namespace MusicMacro

/-! ## One string -/

/-- The text compiles. -/
def Compiles (text : String) : Prop := ∃ events, (compileText text).2 = .ok events

/-- What the text is refused for. -/
def refusalOf? (text : String) : Option NotationError :=
  match (compileText text).2 with
  | .error (.refused e) => some e
  | _ => none

/-- The text compiles or is refused. -/
def IsAnswered (text : String) : Prop := Compiles text ∨ ∃ e, refusalOf? text = some e

lemma isAnswered_of_length {text : String} (h : text.length < 2 ^ 63) : IsAnswered text := by
  rcases compileText_outcome h with hok | ⟨e, herror, -⟩
  · exact .inl hok
  · exact .inr ⟨e, by rw [refusalOf?, herror]⟩

lemma compileText_of_refusalOf? {text : String} {e : NotationError} (h : refusalOf? text = some e) :
    (compileText text).2 = .error (.refused e) := by
  unfold refusalOf? at h
  split at h
  · rename_i e' he'
    rw [he', Option.some.inj h]
  · cases h

lemma refusalOf?_of_compiles {text : String} (h : Compiles text) : refusalOf? text = none := by
  obtain ⟨events, hok⟩ := h
  rw [refusalOf?, hok]

namespace PartOutcome

variable (index : Nat) {text : String}

lemma stops_of_compiles (h : Compiles text) (policy : ErrorPolicy) :
    (ofText index text).stops policy = false := by
  obtain ⟨events, hok⟩ := h
  simp only [stops, ofText, hok]

lemma stops_of_refusalOf? {e : NotationError} (h : refusalOf? text = some e) (policy : ErrorPolicy) :
    (ofText index text).stops policy = (policy == .abort) := by
  simp only [stops, ofText, compileText_of_refusalOf? h]

lemma events?_eq_some_iff {events : List Event} :
    (ofText index text).events? = some events ↔ (compileText text).2 = .ok events := by
  change (compileText text).2.toOption = some events ↔ _
  cases (compileText text).2 <;> simp [Except.toOption]

end PartOutcome

/-! ## The strings that are compiled -/

/-- The outcomes of all strings, numbered from an index on. -/
def outcomesOf (index : Nat) (texts : List String) : List PartOutcome :=
  (texts.zipIdx index).map fun p => .ofText p.2 p.1

lemma outcomesFrom_eq {policy : ErrorPolicy} {texts : List String} (index : Nat)
    (h : ∀ text ∈ texts, (PartOutcome.ofText 0 text).stops policy = false) :
    outcomesFrom policy index texts = outcomesOf index texts := by
  induction texts generalizing index with
  | nil => rfl
  | cons text rest ih =>
      obtain ⟨hfirst, hrest⟩ := List.forall_mem_cons.mp h
      have hfirst' : (PartOutcome.ofText index text).stops policy = false := hfirst
      rw [outcomesFrom, if_neg (by rw [hfirst']; decide), ih (index + 1) hrest]
      rfl

/-- The string that stops a batch is the last one that is compiled. -/
lemma outcomesFrom_stop {policy : ErrorPolicy} {front rest : List String} {text : String}
    (index : Nat) (hfront : ∀ text ∈ front, (PartOutcome.ofText 0 text).stops policy = false)
    (hstop : (PartOutcome.ofText 0 text).stops policy = true) :
    outcomesFrom policy index (front ++ text :: rest) = outcomesOf index (front ++ [text]) := by
  induction front generalizing index with
  | nil =>
      have hstop' : (PartOutcome.ofText index text).stops policy = true := hstop
      rw [List.nil_append, outcomesFrom, if_pos hstop']
      rfl
  | cons first front ih =>
      obtain ⟨hfirst, hmore⟩ := List.forall_mem_cons.mp hfront
      have hfirst' : (PartOutcome.ofText index first).stops policy = false := hfirst
      rw [List.cons_append, outcomesFrom, if_neg (by rw [hfirst']; decide), ih (index + 1) hmore]
      rfl

lemma exists_text_of_mem_outcomesFrom {policy : ErrorPolicy} {index : Nat} {texts : List String}
    {o : PartOutcome} (h : o ∈ outcomesFrom policy index texts) :
    ∃ text ∈ texts, ∃ i, o = .ofText i text := by
  induction texts generalizing index with
  | nil => cases h
  | cons text rest ih =>
      simp only [outcomesFrom] at h
      split at h
      · exact ⟨text, List.mem_cons_self, index, List.mem_singleton.mp h⟩
      · rcases List.mem_cons.mp h with rfl | hrest
        · exact ⟨text, List.mem_cons_self, index, rfl⟩
        · obtain ⟨text', hmem, i, rfl⟩ := ih hrest
          exact ⟨text', List.mem_cons_of_mem _ hmem, i, rfl⟩

/-- The refusals of numbered outcomes are those of the strings. -/
lemma filterMap_refusal?_outcomesOf (index : Nat) (texts : List String) :
    (outcomesOf index texts).filterMap (·.refusal?) = texts.filterMap refusalOf? := by
  have hfst := List.zipIdx_map_fst index texts
  conv_rhs => rw [← hfst]
  rw [outcomesOf, List.filterMap_map, List.filterMap_map]
  rfl

/-- A batch of strings that are answered ends with the parts and refusals of the strings that
were compiled. -/
lemma compileBatch_of_answered {texts : List String} (h : ∀ text ∈ texts, IsAnswered text)
    (policy : ErrorPolicy) :
    ∃ log, compileBatch policy texts =
      .ok ⟨installedParts policy (outcomesFrom policy 0 texts),
        (outcomesFrom policy 0 texts).filterMap (·.refusal?), log⟩ := by
  refine ⟨(outcomesFrom policy 0 texts).flatMap (·.warnings), ?_⟩
  rw [compileBatch, List.findSome?_eq_none_iff.mpr]
  intro o ho
  obtain ⟨text, hmem, i, rfl⟩ := exists_text_of_mem_outcomesFrom ho
  rcases h text hmem with ⟨events, hok⟩ | ⟨e, he⟩
  · simp only [PartOutcome.ofText, hok]
  · simp only [PartOutcome.ofText, compileText_of_refusalOf? he]

/-! ## Batches -/

/-- The batch has the parts of the strings that compile and reports those that do not, all of them
in order. -/
structure Batch.IsPointwise (b : Batch) (texts : List String) : Prop where
  parts : ∀ i events, (i, events) ∈ b.parts ↔
    ∃ text, texts[i]? = some text ∧ (compileText text).2 = .ok events
  errors : b.errors = texts.filterMap refusalOf?

/-- The batch ends at its first string that is refused: nothing is kept, only that refusal is
reported, and the strings that are compiled are the ones before it and itself. -/
structure Batch.IsAborted (b : Batch) (texts front : List String) (text : String)
    (rest : List String) (e : NotationError) : Prop where
  texts_eq : texts = front ++ text :: rest
  before : ∀ t ∈ front, Compiles t
  refused : refusalOf? text = some e
  parts : b.parts = []
  errors : b.errors = [e]
  compiled : outcomesFrom .abort 0 texts = outcomesOf 0 (front ++ [text])

/-- The batch is what the policy makes of its strings. -/
def Batch.Follows (policy : ErrorPolicy) (texts : List String) (b : Batch) : Prop :=
  match policy with
  | .skip => b.IsPointwise texts
  | .abort =>
    (∀ text ∈ texts, Compiles text) ∧ b.IsPointwise texts ∧ b.errors = [] ∨
      ∃ front text rest e, b.IsAborted texts front text rest e

/-- The score has the parts of the batch with their strings, in index order, and their indices
together with the failed ones are those of all strings. -/
structure Score.Covers (s : Score) (texts : List String) (b : Batch) : Prop where
  parts : ∀ p, p ∈ s.parts ↔ ∃ i text events, (i, events) ∈ b.parts ∧ texts[i]? = some text ∧
    p = ⟨i, .text text, events⟩
  ordered : (s.parts.map (·.index)).Pairwise (· < ·)
  partition : (s.parts.map (·.index) ++ s.failed).Perm ((List.range texts.length).map Int.ofNat)

lemma mem_installedParts {policy : ErrorPolicy} {texts : List String}
    (hstops : ∀ text ∈ texts, (PartOutcome.ofText 0 text).stops policy = false) (i : Nat)
    (events : List Event) :
    (i, events) ∈ installedParts policy (outcomesOf 0 texts) ↔
      ∃ text, texts[i]? = some text ∧ (compileText text).2 = .ok events := by
  have hany : (outcomesOf 0 texts).any (·.stops policy) = false := by
    rw [List.any_eq_false]
    intro o ho
    obtain ⟨⟨text, j⟩, hmem, rfl⟩ := List.mem_map.mp ho
    have hstop : (PartOutcome.ofText j text).stops policy = false :=
      hstops text (List.mem_of_getElem? (List.mk_mem_zipIdx_iff_getElem?.mp hmem))
    rw [hstop]
    decide
  rw [installedParts, hany, if_neg Bool.false_ne_true, outcomesOf, List.filterMap_map,
    List.mem_filterMap]
  constructor
  · rintro ⟨⟨text, j⟩, hmem, hpart⟩
    obtain ⟨events', hevents, hpair⟩ := Option.map_eq_some_iff.mp hpart
    obtain ⟨rfl, rfl⟩ := Prod.mk.inj hpair
    exact ⟨text, List.mk_mem_zipIdx_iff_getElem?.mp hmem,
      (PartOutcome.events?_eq_some_iff j).mp hevents⟩
  · rintro ⟨text, htext, hok⟩
    exact ⟨(text, i), List.mk_mem_zipIdx_iff_getElem?.mpr htext,
      Option.map_eq_some_iff.mpr ⟨events, (PartOutcome.events?_eq_some_iff i).mpr hok, rfl⟩⟩

/-- A batch that nothing stops is pointwise. -/
lemma isPointwise_of_stops {policy : ErrorPolicy} {texts : List String}
    (hstops : ∀ text ∈ texts, (PartOutcome.ofText 0 text).stops policy = false)
    (log : List Warning) :
    Batch.IsPointwise ⟨installedParts policy (outcomesFrom policy 0 texts),
      (outcomesFrom policy 0 texts).filterMap (·.refusal?), log⟩ texts := by
  rw [outcomesFrom_eq 0 hstops]
  exact ⟨mem_installedParts hstops, filterMap_refusal?_outcomesOf 0 texts⟩

/-- A batch that aborts at a string keeps nothing and reports that string. -/
lemma isAborted_of_refusalOf? {front rest : List String} {text : String} {e : NotationError}
    (hfront : ∀ t ∈ front, Compiles t) (hrefused : refusalOf? text = some e)
    (log : List Warning) :
    Batch.IsAborted ⟨installedParts .abort (outcomesFrom .abort 0 (front ++ text :: rest)),
      (outcomesFrom .abort 0 (front ++ text :: rest)).filterMap (·.refusal?), log⟩
      (front ++ text :: rest) front text rest e := by
  have hstop : (PartOutcome.ofText 0 text).stops .abort = true :=
    PartOutcome.stops_of_refusalOf? 0 hrefused .abort
  have houtcomes : outcomesFrom .abort 0 (front ++ text :: rest) = outcomesOf 0 (front ++ [text]) :=
    outcomesFrom_stop 0 (fun t ht => PartOutcome.stops_of_compiles 0 (hfront t ht) .abort) hstop
  refine ⟨rfl, hfront, hrefused, ?_, ?_, houtcomes⟩
  · have hlast : (text, front.length) ∈ (front ++ [text]).zipIdx := by
      rw [List.mk_mem_zipIdx_iff_getElem?, List.getElem?_concat_length]
    have hany : (outcomesOf 0 (front ++ [text])).any (·.stops .abort) = true :=
      List.any_eq_true.mpr ⟨_, List.mem_map_of_mem hlast, hstop⟩
    rw [houtcomes, installedParts, if_pos hany]
  · have hnone : front.filterMap refusalOf? = [] :=
      List.filterMap_eq_nil_iff.mpr fun t ht => refusalOf?_of_compiles (hfront t ht)
    rw [houtcomes, filterMap_refusal?_outcomesOf, List.filterMap_append, hnone,
      List.filterMap_cons_some hrefused, List.filterMap_nil, List.nil_append]

lemma follows_of_answered {texts : List String} (h : ∀ text ∈ texts, IsAnswered text)
    (policy : ErrorPolicy) (log : List Warning) :
    Batch.Follows policy texts ⟨installedParts policy (outcomesFrom policy 0 texts),
      (outcomesFrom policy 0 texts).filterMap (·.refusal?), log⟩ := by
  cases policy with
  | skip =>
      refine isPointwise_of_stops (fun text hmem => ?_) log
      rcases h text hmem with hok | ⟨e, he⟩
      · exact PartOutcome.stops_of_compiles 0 hok .skip
      · exact PartOutcome.stops_of_refusalOf? 0 he .skip
  | abort =>
      cases hfind : texts.find? fun text => (refusalOf? text).isSome with
      | none =>
          have hall : ∀ text ∈ texts, Compiles text := by
            intro text hmem
            refine (h text hmem).resolve_right fun ⟨e, he⟩ => ?_
            exact List.find?_eq_none.mp hfind text hmem (by rw [he]; rfl)
          have hpointwise := isPointwise_of_stops
            (fun text hmem => PartOutcome.stops_of_compiles 0 (hall text hmem) .abort) log
          refine .inl ⟨hall, hpointwise, hpointwise.errors.trans ?_⟩
          exact List.filterMap_eq_nil_iff.mpr fun text hmem => refusalOf?_of_compiles (hall text hmem)
      | some text =>
          obtain ⟨hsome, front, rest, rfl, hnone⟩ := List.find?_eq_some_iff_append.mp hfind
          obtain ⟨e, he⟩ := Option.isSome_iff_exists.mp hsome
          refine .inr ⟨front, text, rest, e, isAborted_of_refusalOf? (fun t ht => ?_) he log⟩
          refine (h t (List.mem_append_left _ ht)).resolve_right fun ⟨e', he'⟩ => ?_
          have := hnone t ht
          rw [he'] at this
          cases this

lemma Batch.Follows.exists_text {policy : ErrorPolicy} {texts : List String} {b : Batch}
    (h : b.Follows policy texts) {i : Nat} {events : List Event} (hmem : (i, events) ∈ b.parts) :
    ∃ text, texts[i]? = some text ∧ (compileText text).2 = .ok events := by
  cases policy with
  | skip => exact (h.parts i events).mp hmem
  | abort =>
      rcases h with ⟨-, hpointwise, -⟩ | ⟨front, text, rest, e, haborted⟩
      · exact (hpointwise.parts i events).mp hmem
      · rw [haborted.parts] at hmem
        cases hmem

/-! ## Scores of batches -/

/-- Increasing indices and the other ones of a range make up the range. -/
lemma perm_range_of_ordered {parts : List (Nat × List Event)} {n : Nat}
    (hordered : (parts.map (·.1)).Pairwise (· < ·)) (hrange : ∀ i ∈ parts.map (·.1), i < n) :
    (parts.map (·.1) ++ (List.range n).filter fun i => (parts.lookup i).isNone).Perm
      (List.range n) := by
  have hlookup (i : Nat) : (parts.lookup i).isNone = false ↔ i ∈ parts.map (·.1) := by
    rw [Bool.eq_false_iff, Ne, Option.isNone_iff_eq_none, List.lookup_eq_none_iff]
    constructor
    · intro hfound
      by_contra hmem
      exact hfound fun p hp => bne_iff_ne.mpr fun heq =>
        hmem (List.mem_map.mpr ⟨p, hp, heq.symm⟩)
    · intro hmem hnone
      obtain ⟨p, hp, rfl⟩ := List.mem_map.mp hmem
      exact bne_iff_ne.mp (hnone p hp) rfl
  have hkeys : (parts.map (·.1)).Perm
      ((List.range n).filter fun i => !(parts.lookup i).isNone) := by
    refine (List.perm_ext_iff_of_nodup (hordered.imp Nat.ne_of_lt)
      (List.nodup_range.filter _)).mpr fun i => ?_
    rw [List.mem_filter, List.mem_range, Bool.not_eq_true', hlookup]
    exact ⟨fun hi => ⟨hrange i hi, hi⟩, fun hi => hi.2⟩
  have hsplit := List.filter_append_perm (fun i => !(parts.lookup i).isNone) (List.range n)
  simp only [Bool.not_not] at hsplit
  exact (hkeys.append_right _).trans hsplit

lemma covers_ofCompiled {texts : List String} {b : Batch}
    (hordered : (b.parts.map (·.1)).Pairwise (· < ·))
    (htexts : ∀ i events, (i, events) ∈ b.parts → ∃ text, texts[i]? = some text) (name : String) :
    (Score.ofCompiled texts b.parts name).Covers texts b := by
  have hsorted : (b.parts.mergeSort fun a b => a.1 ≤ b.1) = b.parts :=
    List.mergeSort_of_pairwise
      ((List.pairwise_map.mp hordered).imp fun hlt => decide_eq_true (Nat.le_of_lt hlt))
  have hindices : (Score.ofCompiled texts b.parts name).parts.map (·.index) =
      (b.parts.map (·.1)).map Int.ofNat := by
    rw [Score.ofCompiled, hsorted, List.map_map, List.map_map]
    rfl
  refine ⟨fun p => ?_, ?_, ?_⟩
  · rw [Score.ofCompiled, hsorted, List.mem_map]
    constructor
    · rintro ⟨⟨i, events⟩, hmem, rfl⟩
      obtain ⟨text, htext⟩ := htexts i events hmem
      exact ⟨i, text, events, hmem, htext, by dsimp only; rw [htext]; rfl⟩
    · rintro ⟨i, text, events, hmem, htext, rfl⟩
      exact ⟨(i, events), hmem, by dsimp only; rw [htext]; rfl⟩
  · rw [hindices]
    exact List.pairwise_map.mpr (hordered.imp Int.ofNat_lt.mpr)
  · rw [hindices]
    have hperm := perm_range_of_ordered (n := texts.length) hordered fun i hi => by
      obtain ⟨⟨i, events⟩, hmem, rfl⟩ := List.mem_map.mp hi
      obtain ⟨text, htext⟩ := htexts i events hmem
      exact (List.getElem?_eq_some_iff.mp htext).1
    have hcast := hperm.map Int.ofNat
    rwa [List.map_append] at hcast

/-- **A batch is its strings, one by one, under the policy**, and its score has all of them: for
strings of any number, none of them of `2^63` characters or more, the batch is compiled, no two of
its parts have one index, its parts and its reports are what the policy makes of the strings, and
its score has the parts in order and the other indices as failed. -/
theorem compileBatch_follows_policy {texts : List String}
    (h : ∀ text ∈ texts, text.length < 2 ^ 63) (policy : ErrorPolicy) (name : String) :
    ∃ batch, compileBatch policy texts = .ok batch ∧ (batch.parts.map (·.1)).Nodup ∧
      batch.Follows policy texts ∧ (Score.ofCompiled texts batch.parts name).Covers texts batch := by
  have hanswered : ∀ text ∈ texts, IsAnswered text :=
    fun text hmem => isAnswered_of_length (h text hmem)
  obtain ⟨log, hbatch⟩ := compileBatch_of_answered hanswered policy
  have hfollows := follows_of_answered hanswered policy log
  refine ⟨_, hbatch, installedParts_nodup policy texts, hfollows,
    covers_ofCompiled (installedParts_pairwise policy texts) (fun i events hmem => ?_) name⟩
  obtain ⟨text, htext, -⟩ := hfollows.exists_text hmem
  exact ⟨text, htext⟩

/-- A string that is refused between two that compile. -/
theorem refused_string_follows_policy :
    (∀ text ∈ ["T60 O4 C4", "T60 C4", "T60 O4 E8"], text.length < 2 ^ 63) ∧
      ∃ batch, compileBatch .skip ["T60 O4 C4", "T60 C4", "T60 O4 E8"] = .ok batch ∧
        (batch.parts.map (·.1)).Nodup ∧
        batch.Follows .skip ["T60 O4 C4", "T60 C4", "T60 O4 E8"] ∧
        (Score.ofCompiled ["T60 O4 C4", "T60 C4", "T60 O4 E8"] batch.parts "").Covers
          ["T60 O4 C4", "T60 C4", "T60 O4 E8"] batch := by
  have h : ∀ text ∈ ["T60 O4 C4", "T60 C4", "T60 O4 E8"], text.length < 2 ^ 63 := by
    intro text htext
    simp only [List.mem_cons, List.not_mem_nil, or_false] at htext
    rcases htext with rfl | rfl | rfl <;> decide
  exact ⟨h, compileBatch_follows_policy h .skip ""⟩

end MusicMacro
