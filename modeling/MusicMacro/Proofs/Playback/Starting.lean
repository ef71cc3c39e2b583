import MusicMacro.Proofs.Playback.Pause
import MusicMacro.Proofs.Playback.Schedule

/-!
# Which parts get started

All parts are played one after another, in the order of their indices, up to the first one for
which this fails.  A part that cannot be started plays nevertheless, for it is armed before, and a
hook that fails has been told by then.  So every part that is reached is served, the one that fails
included; those after it are left as they are.  `playAll_serves_all_iff` says that all parts are
served exactly if nothing is owed to a part after the one that fails.

That there is a source wherever there are parts holds whatever is called back
(`after_sourced`): a source is adopted before parts are installed, and no source is ever lost.
-/

namespace MusicMacro

open Session

/-! ## Parts have a source -/

/-- There is a source if there are parts. -/
def Session.Sourced (s : Session) : Prop := s.registry ≠ [] → s.adapter ≠ none

/-- No source is lost, and none is lacking for parts unless it was before. -/
structure Session.KeepsSource (s s' : Session) : Prop where
  source : s.adapter ≠ none → s'.adapter ≠ none
  sourced : s.Sourced → s'.Sourced

instance Session.keepsSource_isPreorder : IsPreorder Session Session.KeepsSource where
  refl _ := ⟨id, id⟩
  trans _ _ _ hab hbc := ⟨hbc.source ∘ hab.source, hbc.sourced ∘ hab.sourced⟩

section

variable {s s' : Session}

lemma keepsSource_of_adapter (h : s'.adapter ≠ none) : s.KeepsSource s' := ⟨fun _ => h, fun _ _ => h⟩

/-- Where the source stays and as many parts are installed, no source is lost. -/
lemma keepsSource_of_length (hadapter : s'.adapter = s.adapter)
    (hlength : s'.registry.length = s.registry.length) : s.KeepsSource s' := by
  refine ⟨fun h => hadapter ▸ h, fun h hparts => hadapter ▸ h fun hnil => hparts ?_⟩
  rw [← List.length_eq_zero_iff, hlength, hnil, List.length_nil]

lemma keepsSource_guarantee : PlayGuarantee Session.KeepsSource where
  same := fun hsame => keepsSource_of_length hsame.adapter (by rw [hsame.registry])
  record := fun _ _ _ => keepsSource_of_length rfl rfl
  call := fun _ _ _ => keepsSource_of_length rfl rfl
  arm := fun _ _ _ _ _ _ => keepsSource_of_length rfl (List.length_map _)
  ring := fun _ _ _ _ => keepsSource_of_length rfl (List.length_map _)
  drop := fun _ _ => keepsSource_of_length rfl rfl
  disarm := by
    intro s
    obtain ⟨idle, waiters, hs⟩ := s.disarm_eq
    rw [hs]
    exact keepsSource_of_length rfl (List.length_map _)

lemma installParts_adapter (s : Session) (parts : List (Nat × List Event)) :
    (s.installParts parts).adapter = s.adapter := by
  induction parts generalizing s with
  | nil => rfl
  | cons p rest ih =>
      obtain ⟨registry, discarded, hs⟩ := s.installPart_eq p.1 p.2
      refine (ih (s.installPart p.1 p.2)).trans ?_
      rw [hs]

section

variable {handle : Handler} (hcalls : ∀ index c, (handle index c).Leads Session.KeepsSource)

include hcalls

/-- Strings are installed without losing the source. -/
lemma installTexts_keeps_adapter (texts : List String) :
    (installTexts handle texts).Keeps (·.adapter ≠ none) := by
  refine Step.Leads.given fun s => Step.Leads.andThen ?_ fun s h => ?_
  · have hreports : (Step.forEach (reportOutcome handle) (outcomesFrom s.policy 0 texts)).Leads
        Session.KeepsSource :=
      Step.Leads.forEach fun o _ =>
        reportOutcome_leads (fun w s => keepsSource_guarantee.record s _ trivial)
          fun e => hcalls o.index _
    exact fun s => (hreports s).source
  · exact (installParts_adapter s _).trans_ne h

/-- Parts are installed only once a source was adopted. -/
lemma prepare_keepsSource (source : SoundSource) (shape : Option SourceShape)
    (texts : List String) : (prepare handle source shape texts).Leads Session.KeepsSource := by
  have hclear : (Step.change Session.clear).Leads Session.KeepsSource :=
    fun s => ⟨id, fun _ hparts => absurd rfl hparts⟩
  refine Step.Leads.andThen
    (Step.Leads.andThen (halt_leads keepsSource_guarantee hcalls none) hclear) ?_
  rcases source.adapter shape with e | adapter
  · exact Step.fail_leads _
  · have hadopted (s : Session) : (s.adopt adapter).adapter ≠ none := Option.some_ne_none adapter
    exact fun s => keepsSource_of_adapter
      (installTexts_keeps_adapter hcalls texts (s.adopt adapter) (hadopted s))

lemma perform_keepsSource (c : Command) (s : Session) :
    s.KeepsSource (perform handle s c).1 := by
  by_cases hprepare : c.IsPrepare
  · cases c with
    | prepare source texts shape =>
        rcases hshape : forcedShape shape with e | forced
        · simpa [perform, hshape] using refl_of Session.KeepsSource s
        · have hprepared := prepare_keepsSource hcalls source forced texts s
          simpa [perform, hshape, Step.answering_fst] using hprepared
    | _ => exact hprepare.elim
  · exact perform_leads_of_not_isPrepare hcalls keepsSource_guarantee hprepare s

end

section

variable (env : Environment) (depth : Nat)

lemma handler_keepsSource (index : Nat) (c : Call) :
    (handler env depth index c).Leads Session.KeepsSource :=
  handler_leads_of_nested keepsSource_guarantee.call
    (fun handle hcalls command s =>
      trans_of Session.KeepsSource (perform_keepsSource hcalls command s)
        (@keepsSource_of_length (perform handle s command).1 (performNested handle s command)
          rfl rfl)) env depth index c

lemma move_keepsSource (m : Move) (s : Session) : s.KeepsSource (s.move env depth m) := by
  have hcalls := handler_keepsSource env depth
  have hcommand : ∀ c, s.KeepsSource (s.step env depth c).1 := fun c =>
    trans_of Session.KeepsSource (perform_keepsSource hcalls c s)
      (keepsSource_guarantee.same (sameDoings_settleWaiters _))
  cases m with
  | fire serial =>
      rw [move]
      rcases ht : s.timerOf? serial with _ | t
      · exact refl_of Session.KeepsSource s
      · exact fire_leads keepsSource_guarantee hcalls (mem_of_timerOf? ht).1
  | pass time => exact keepsSource_guarantee.same (s.sameDoings_moveClock time)
  | _ => exact hcommand _

/-- After every run there is a source if there are parts, whatever was called back. -/
theorem after_sourced (hooks : Hooks) (policy : ErrorPolicy) (moves : List Move) :
    ((Session.initial hooks policy).after env depth moves).Sourced :=
  after_keeps (fun m _ s hs => (move_keepsSource env depth m s).sourced hs)
    fun hparts => absurd rfl hparts

end

end

/-! ## Entries in index order -/

/-- The installed entries in the order of their indices. -/
def Session.inIndexOrder (s : Session) : List PartEntry :=
  s.registry.mergeSort fun a b => a.index ≤ b.index

/-- Plays these entries one after another, up to the first one for which this fails. -/
def playEntries (handle : Handler) (routing onProcess : Option String) (l : List PartEntry) :
    Step :=
  .forEach (fun e => play handle e.index routing onProcess) l

lemma Session.mem_inIndexOrder {s : Session} {e : PartEntry} :
    e ∈ s.inIndexOrder ↔ e ∈ s.registry := List.mem_mergeSort

/-- Other entries in the order stand at other indices. -/
lemma index_ne_of_split {s : Session} (hs : s.Timed) {before after : List PartEntry}
    {e : PartEntry} (hsplit : s.inIndexOrder = before ++ e :: after) :
    ∀ y ∈ before ++ after, y.index ≠ e.index := by
  have hnodup : (s.inIndexOrder.map (·.index)).Nodup :=
    ((List.mergeSort_perm _ _).map _).nodup_iff.mpr hs.indices
  rw [hsplit, List.map_append, List.map_cons, List.nodup_middle, List.nodup_cons,
    ← List.map_append] at hnodup
  exact fun y hy heq => hnodup.1 (heq ▸ List.mem_map_of_mem hy)

lemma playAll_eq_playEntries (handle : Handler) (routing onProcess : Option String) (s : Session) :
    playAll handle routing onProcess s = playEntries handle routing onProcess s.inIndexOrder s := by
  have horder : (s.registry.map (·.index)).mergeSort (· ≤ ·) = s.inIndexOrder.map (·.index) :=
    (List.map_mergeSort (f := fun e : PartEntry => e.index) fun _ _ _ _ => rfl).symm
  rw [playAll, Step.given_apply, horder, Step.forEach_map]
  rfl

/-- Entries that are installed in the order of their indices are played as they are installed. -/
lemma playAll_of_ordered {s : Session} (h : (s.registry.map (·.index)).Pairwise (· ≤ ·))
    (handle : Handler) (routing onProcess : Option String) :
    playAll handle routing onProcess s = playEntries handle routing onProcess s.registry s := by
  have horder : s.inIndexOrder = s.registry := List.mergeSort_of_pairwise
    ((List.pairwise_map.mp h).imp fun hle => decide_eq_true hle)
  rw [playAll_eq_playEntries, horder]

/-! ## What is owed to a part -/

/-- The entry does not play, and it has events left or there is a hook to be told that it has
none. -/
def Session.Owes (s : Session) (e : PartEntry) : Prop :=
  e.isPlaying = false ∧ (e.part.queue = [] → s.hooks.ended = true)

/-- All parts were played from one session to a later one, and this entry was not left out. -/
structure PartEntry.Served (s s' : Session) (e : PartEntry) : Prop where
  /-- If it played or had events left, it plays, and its timer runs. -/
  plays : e.isPlaying = true ∨ e.part.queue ≠ [] →
    ∃ e' ∈ s'.registry, e'.serial = e.serial ∧ ∃ t ∈ s'.timers, e'.Owns t
  /-- If it neither played nor had events left, the hook was told, where there is one. -/
  told : e.isPlaying = false → e.part.queue = [] → s.hooks.ended = true →
    .call s.clock e.index .ended ∈ s.since s'

/-- Playing all parts gets through the entries before this one, and then this one cannot be
played. -/
def Session.FailsToPlay (handle : Handler) (routing onProcess : Option String) (s : Session)
    (before : List PartEntry) (e : PartEntry) : Prop :=
  (playEntries handle routing onProcess before s).2 = none ∧
    (play handle e.index routing onProcess
      (playEntries handle routing onProcess before s).1).2 ≠ none

/-! ## One part is played -/

section

variable (env : Environment) {s s' : Session} {e : PartEntry} (routing onProcess : Option String)

/-- The part that is played is served, whether or not this fails. -/
lemma play_serves (hs : s.Timed) (hsource : s.adapter ≠ none) (he : e ∈ s.registry) :
    e.Served s (play (handler env 0) e.index routing onProcess s).1 := by
  have htimed := play_keeps timed_invariant env 0 e.index routing onProcess s hs
  by_cases hplays : e.isPlaying = true
  · obtain ⟨adapter, hadapter⟩ := Option.ne_none_iff_exists'.mp hsource
    have hsame : play (handler env 0) e.index routing onProcess s = (s, none) := by
      simp [play, hs.entryAt?_of_mem he, hadapter, hplays]
    rw [hsame]
    exact ⟨fun _ => ⟨e, he, rfl, hs.owner_of_isPlaying he hplays⟩,
      fun hidle => absurd hplays (by simp [hidle])⟩
  · have htimer : e.timer = none := e.not_isPlaying_iff.mp (by simpa using hplays)
    have hpaused : s.HasPaused e s.adapters := ⟨hs, he, htimer, hsource, rfl⟩
    obtain ⟨hmem, asides, -, hlog⟩ := play_rung env hpaused routing onProcess
    constructor
    case plays =>
      intro hleft
      obtain ⟨event, rest, hqueue⟩ := List.exists_cons_of_ne_nil (hleft.resolve_left hplays)
      have hrung : (e.rung s.created).isPlaying = true := by
        rw [PartEntry.rung, hqueue]
        rfl
      exact ⟨_, hmem, e.rung_serial _, htimed.owner_of_isPlaying hmem hrung⟩
    case told =>
      intro _ hqueue hhook
      rw [since_eq hlog, nextItems, hqueue, endItems, if_pos hhook]
      simp

/-- An entry with the same outlook in a later session is the same part and plays if it did. -/
lemma exists_entry_of_outlook {index entry : Nat} (hosts : s.Hosts index entry)
    (hosts' : s'.Hosts index entry) (h : s'.outlook index entry = s.outlook index entry)
    (he : e ∈ s.registry) (hserial : e.serial = entry) :
    ∃ e' ∈ s'.registry, e'.index = index ∧ e'.serial = entry ∧ e'.part = e.part ∧
      e'.isPlaying = e.isPlaying := by
  obtain ⟨x, hx, -, hxserial, -, hentries⟩ := hosts.entry_found
  obtain ⟨e', he', hindex', hserial', -, hentries'⟩ := hosts'.entry_found
  have hsame : x = e := hosts.eq_of_serial (List.mem_append_left _ hx) (List.mem_append_left _ he)
    (hxserial.trans hserial.symm)
  rw [h, hentries, hsame] at hentries'
  simp only [List.cons.injEq, Prod.mk.injEq, true_and, and_true] at hentries'
  exact ⟨e', he', hindex', hserial', hentries'.1.symm, hentries'.2.symm⟩

/-- An entry that has the same outlook still is served if nothing was owed to it. -/
lemma served_iff_not_owes (hosts : s.Hosts e.index e.serial) (hosts' : s'.Hosts e.index e.serial)
    (h : s'.outlook e.index e.serial = s.outlook e.index e.serial) (hlog : s.log <:+ s'.log)
    (he : e ∈ s.registry) : e.Served s s' ↔ ¬ s.Owes e := by
  obtain ⟨e', he', -, hserial', -, hplaying⟩ := exists_entry_of_outlook hosts hosts' h he rfl
  constructor
  · rintro hserved ⟨hidle, howes⟩
    by_cases hqueue : e.part.queue = []
    · -- Nothing was done for the entry, so the hook was not told.
      have hdoings : doings e.index e.serial s'.log = doings e.index e.serial s.log :=
        congrArg Outlook.doings h
      rw [log_eq_since hlog, doings_append, List.append_left_eq_self] at hdoings
      have htold := hserved.told hidle hqueue (howes hqueue)
      have hmem : LogItem.call s.clock e.index .ended ∈ doings e.index e.serial (s.since s') :=
        List.mem_filter.mpr ⟨htold, decide_eq_true rfl⟩
      rw [hdoings] at hmem
      exact List.not_mem_nil hmem
    · obtain ⟨y, hy, hserial, t, -, howns⟩ := hserved.plays (Or.inr hqueue)
      have hsame : y = e' := hosts'.eq_of_serial (List.mem_append_left _ hy)
        (List.mem_append_left _ he') (hserial.trans hserial'.symm)
      rw [← hsame, howns.isPlaying, hidle] at hplaying
      cases hplaying
  · intro hnothing
    by_cases hplays : e.isPlaying = true
    · exact ⟨fun _ => ⟨e', he', hserial', hosts'.owner_of_isPlaying he' (hplaying.trans hplays)⟩,
        fun hidle => absurd hplays (by simp [hidle])⟩
    · have hidle : e.isPlaying = false := by simpa using hplays
      obtain ⟨hqueue, hhook⟩ : e.part.queue = [] ∧ s.hooks.ended = false := by
        simpa [Owes, hidle] using hnothing
      exact ⟨fun hleft => absurd hqueue (hleft.resolve_left hplays),
        fun _ _ htrue => absurd htrue (by simp [hhook])⟩

end

/-! ## All parts are played -/

section

variable {env : Environment} (passive : env.IsPassive) {s : Session} {e : PartEntry}
  (routing onProcess : Option String) {before after : List PartEntry}

lemma playEntries_grows (env : Environment) (l : List PartEntry) (s : Session) :
    s.log <:+ (playEntries (handler env 0) routing onProcess l s).1.log :=
  Step.Leads.forEach (R := fun s s' => s.log <:+ s'.log) (fun e _ =>
    play_leads grows_guarantee.toPlayGuarantee (handler_leads grows_guarantee env 0) e.index routing
      onProcess) s

include passive

/-- To play entries at other indices leaves all that there is for this one as it is. -/
lemma playEntries_apart {index : Nat} (entry : Nat) {l : List PartEntry}
    (h : ∀ y ∈ l, y.index ≠ index) :
    (playEntries (handler env 0) routing onProcess l).Leads (Session.Apart index entry) :=
  Step.Leads.forEach fun y hy => play_other passive (h y hy) routing onProcess

/-- An entry is served if all before it can be played, whatever becomes of those after it. -/
lemma served_of_reached (hs : s.Timed) (hsource : s.Sourced)
    (hsplit : s.inIndexOrder = before ++ e :: after)
    (hreached : (playEntries (handler env 0) routing onProcess before s).2 = none) :
    e.Served s (playAll (handler env 0) routing onProcess s).1 := by
  set u := (playEntries (handler env 0) routing onProcess before s).1 with hu
  set v := (play (handler env 0) e.index routing onProcess u).1 with hv
  set w := (playAll (handler env 0) routing onProcess s).1 with hw
  have hrun : w = ((play (handler env 0) e.index routing onProcess).andThen
      (playEntries (handler env 0) routing onProcess after) u).1 := by
    rw [hw, playAll_eq_playEntries, hsplit]
    exact congrArg Prod.fst (Step.forEach_append_of_none hreached _)
  have he : e ∈ s.registry := mem_inIndexOrder.mp (by simp [hsplit])
  have hother := index_ne_of_split hs hsplit
  have hfirst : s.Apart e.index e.serial u := playEntries_apart passive routing onProcess _
    (fun y hy => hother y (List.mem_append_left _ hy)) s
  have hrest : v.Apart e.index e.serial w := by
    rw [hrun]
    exact Step.Leads.from_first (playEntries_apart passive routing onProcess _
      fun y hy => hother y (List.mem_append_right _ hy)) _ u
  have hosts : s.Hosts e.index e.serial := ⟨hs, e, he, rfl, rfl⟩
  have hosts' : v.Hosts e.index e.serial :=
    play_keeps_hosts passive e.index routing onProcess u (hfirst.hosts hosts)
  -- When its turn comes the entry is as it was at first.
  obtain ⟨x, hx, hindex, hserial, hpart, hplaying⟩ :=
    exists_entry_of_outlook hosts (hfirst.hosts hosts) (hfirst.outlook hosts) he rfl
  have hadapter : u.adapter = s.adapter := congrArg Outlook.adapter (hfirst.outlook hosts)
  have hhooks : u.hooks = s.hooks := congrArg Outlook.hooks (hfirst.outlook hosts)
  have hserved : x.Served u v := by
    rw [hv, ← hindex]
    exact play_serves env routing onProcess (hfirst.hosts hosts).toTimed
      (hadapter ▸ hsource (List.ne_nil_of_mem he)) hx
  constructor
  case plays =>
    intro hleft
    rw [← hplaying, ← hpart] at hleft
    obtain ⟨y, hy, hyserial, t, -, howns⟩ := hserved.plays hleft
    obtain ⟨y', hy', -, hyserial', -, hplays⟩ := exists_entry_of_outlook hosts'
      (hrest.hosts hosts') (hrest.outlook hosts') hy (hyserial.trans hserial)
    rw [howns.isPlaying] at hplays
    exact ⟨y', hy', hyserial', (hrest.hosts hosts').owner_of_isPlaying hy' hplays⟩
  case told =>
    intro hidle hqueue hhook
    have htold := hserved.told (hplaying.trans hidle) (by rw [hpart, hqueue]) (hhooks ▸ hhook)
    rw [hfirst.clock, hindex] at htold
    have hgrows : u.log <:+ v.log := play_leads grows_guarantee.toPlayGuarantee
      (handler_leads grows_guarantee env 0) e.index routing onProcess u
    have hgrows' : v.log <:+ w.log := by
      rw [hrun]
      exact Step.Leads.from_first (R := fun s s' => s.log <:+ s'.log)
        (playEntries_grows routing onProcess env after) _ u
    rw [since_trans (playEntries_grows routing onProcess env before s) (hgrows.trans hgrows'),
      since_trans hgrows hgrows']
    exact List.mem_append_left _ (List.mem_append_right _ htold)

/-- Entries that can all be played are served. -/
lemma served_of_none (hs : s.Timed) (hsource : s.Sourced) {l : List PartEntry}
    (horder : s.inIndexOrder = l ++ after)
    (hnone : (playEntries (handler env 0) routing onProcess l s).2 = none) :
    ∀ y ∈ l, y.Served s (playAll (handler env 0) routing onProcess s).1 := by
  intro y hy
  obtain ⟨first, later, rfl⟩ := List.append_of_mem hy
  rw [List.append_assoc, List.cons_append] at horder
  exact served_of_reached passive routing onProcess hs hsource horder
    (Step.forEach_none_of_append hnone)

/-- After the first entry that cannot be played nothing is done. -/
lemma apart_of_fails (hsplit : s.inIndexOrder = before ++ e :: after)
    (hfails : s.FailsToPlay (handler env 0) routing onProcess before e) {index : Nat} (entry : Nat)
    (hother : ∀ y ∈ before ++ [e], y.index ≠ index) :
    s.Apart index entry (playAll (handler env 0) routing onProcess s).1 := by
  have hbefore := playEntries_apart passive routing onProcess entry
    (fun y hy => hother y (List.mem_append_left _ hy)) s
  have hlast : (play (handler env 0) e.index routing onProcess).Leads (Session.Apart index entry) :=
    play_other passive (hother e (List.mem_append_right _ List.mem_cons_self)) routing onProcess
  have hstops : playAll (handler env 0) routing onProcess s =
      play (handler env 0) e.index routing onProcess
        (playEntries (handler env 0) routing onProcess before s).1 := by
    rw [playAll_eq_playEntries, hsplit]
    exact Step.forEach_of_fails hfails.1 hfails.2 after
  rw [hstops]
  exact trans_of (Session.Apart index entry) hbefore (hlast _)

section

variable (hs : s.Timed) (hsplit : s.inIndexOrder = before ++ e :: after)
  (hfails : s.FailsToPlay (handler env 0) routing onProcess before e)

include hs hsplit hfails

/-- The entry that cannot be played is served, and so are those before it. -/
lemma served_to_failure (hsource : s.Sourced) :
    ∀ y ∈ before ++ [e], y.Served s (playAll (handler env 0) routing onProcess s).1 := by
  intro y hy
  rcases List.mem_append.mp hy with hy | hy
  · exact served_of_none passive routing onProcess hs hsource hsplit hfails.1 y hy
  · rw [List.mem_singleton.mp hy]
    exact served_of_reached passive routing onProcess hs hsource hsplit hfails.1

/-- Nothing becomes of the entries after the one that cannot be played. -/
lemma apart_after_failure :
    ∀ y ∈ after, s.Apart y.index y.serial (playAll (handler env 0) routing onProcess s).1 := by
  intro y hy
  refine apart_of_fails passive routing onProcess hsplit hfails y.serial fun z hz => ?_
  obtain ⟨first, later, rfl⟩ := List.append_of_mem hy
  have hsplit' : s.inIndexOrder = (before ++ e :: first) ++ y :: later := by
    rw [hsplit, List.append_assoc, List.cons_append]
  have hmem : z ∈ (before ++ e :: first) ++ later := by
    simp only [List.mem_append, List.mem_cons, List.not_mem_nil, or_false] at hz ⊢
    tauto
  exact index_ne_of_split hs hsplit' z hmem

lemma outlook_after_failure {y : PartEntry} (hy : y ∈ after) :
    y ∈ s.registry ∧ s.Hosts y.index y.serial ∧
      (playAll (handler env 0) routing onProcess s).1.Hosts y.index y.serial ∧
      (playAll (handler env 0) routing onProcess s).1.outlook y.index y.serial =
        s.outlook y.index y.serial := by
  have hmem : y ∈ s.registry := mem_inIndexOrder.mp (by simp [hsplit, hy])
  have hosts : s.Hosts y.index y.serial := ⟨hs, y, hmem, rfl, rfl⟩
  have hapart := apart_after_failure passive routing onProcess hs hsplit hfails y hy
  exact ⟨hmem, hosts, hapart.hosts hosts, hapart.outlook hosts⟩

/-- An entry after the one that cannot be played is served if it had nothing to wait for. -/
lemma served_after_failure_iff {y : PartEntry} (hy : y ∈ after) :
    y.Served s (playAll (handler env 0) routing onProcess s).1 ↔ ¬ s.Owes y := by
  obtain ⟨hmem, hosts, hosts', houtlook⟩ :=
    outlook_after_failure passive routing onProcess hs hsplit hfails hy
  have hgrows := playEntries_grows routing onProcess env s.inIndexOrder s
  rw [← playAll_eq_playEntries] at hgrows
  exact served_iff_not_owes hosts hosts' houtlook hgrows hmem

end

/-- All entries are served if nothing is owed to any after one that cannot be played. -/
lemma serves_all_of_nothing_owed (hs : s.Timed) (hsource : s.Sourced)
    (hnothing : ∀ before e after, s.inIndexOrder = before ++ e :: after →
      s.FailsToPlay (handler env 0) routing onProcess before e → ∀ y ∈ after, ¬ s.Owes y) :
    ∀ e ∈ s.registry, e.Served s (playAll (handler env 0) routing onProcess s).1 := by
  intro e he
  rcases Step.forEach_none_or_fails (fun e : PartEntry =>
      play (handler env 0) e.index routing onProcess) s.inIndexOrder s with
    hnone | ⟨before, x, after, hsplit, hreached, hfails⟩
  · exact served_of_none passive routing onProcess hs hsource (List.append_nil _).symm hnone e
      (mem_inIndexOrder.mpr he)
  · have hfails' : s.FailsToPlay (handler env 0) routing onProcess before x := ⟨hreached, hfails⟩
    have hmem : e ∈ (before ++ [x]) ++ after := by
      rw [List.append_assoc, List.singleton_append, ← hsplit]
      exact mem_inIndexOrder.mpr he
    rcases List.mem_append.mp hmem with hreached | hleft
    · exact served_to_failure passive routing onProcess hs hsplit hfails' hsource e hreached
    · exact (served_after_failure_iff passive routing onProcess hs hsplit hfails' hleft).mpr
        (hnothing before x after hsplit hfails' e hleft)

end

/-- **All parts are served up to the first that cannot be played.**  Take any session that a run
leads to, whatever was called back in it, and play all parts, wherever calls fail.  Every part is
served exactly if nothing is owed to a part after one that fails to play.  If a part fails to play,
it and those before it are served, and nothing becomes of those after it. -/
theorem playAll_serves_all_iff (past env : Environment) (pastDepth depth : Nat)
    (passive : env.IsPassive) (hooks : Hooks) (policy : ErrorPolicy) (moves : List Move)
    (routing onProcess : Option String) :
    let s := (Session.initial hooks policy).after past pastDepth moves
    let s' := (playAll (handler env depth) routing onProcess s).1
    ((∀ e ∈ s.registry, e.Served s s') ↔
      ∀ before e after, s.inIndexOrder = before ++ e :: after →
        s.FailsToPlay (handler env depth) routing onProcess before e → ∀ y ∈ after, ¬ s.Owes y) ∧
    ∀ before e after, s.inIndexOrder = before ++ e :: after →
      s.FailsToPlay (handler env depth) routing onProcess before e →
        (∀ y ∈ before ++ [e], y.Served s s') ∧
        ∀ y ∈ after, s'.outlook y.index y.serial = s.outlook y.index y.serial := by
  intro s s'
  have hs : s.Timed := after_timed past pastDepth hooks policy moves
  have hsource : s.Sourced := after_sourced past pastDepth hooks policy moves
  have hs' : s' = (playAll (handler env 0) routing onProcess s).1 := by
    rw [← handler_eq_zero passive depth]
  rw [handler_eq_zero passive depth, hs']
  constructor
  case left =>
    refine ⟨fun hall before e after hsplit hfails y hy => ?_,
      serves_all_of_nothing_owed passive routing onProcess hs hsource⟩
    have hmem : y ∈ s.registry := mem_inIndexOrder.mp (by simp [hsplit, hy])
    exact (served_after_failure_iff passive routing onProcess hs hsplit hfails hy).mp (hall y hmem)
  case right =>
    intro before e after hsplit hfails
    refine ⟨served_to_failure passive routing onProcess hs hsplit hfails hsource, fun y hy => ?_⟩
    obtain ⟨-, -, -, houtlook⟩ :=
      outlook_after_failure passive routing onProcess hs hsplit hfails hy
    exact houtlook

/-- Three parts are prepared, the second of them is played to its end, and then the source fails
when it is to start the first one: nothing is told of the second, and the third is not started. -/
theorem later_parts_not_played_after_failed_start :
    (Environment.failing [.startGenerator]).IsPassive ∧
      let handle := handler (Environment.failing [.startGenerator]) 0
      let s := (Session.initial .all .abort).after (.failing []) 0
        [.prepare (.generators 1 "list") ["T60 O4 C4", "T60 O4 E4", "T60 O4 G4"] none,
          .play (.ofIndex 1) none none, .fire 3]
      let s' := (playAll handle none none s).1
      ((s.registry.map fun e => (e.isPlaying, e.part.remaining)) =
          [(false, 1), (false, 0), (false, 1)] ∧
        (s'.registry.map fun e => (e.isPlaying, endings e.index (s.since s'))) =
          [(true, 0), (false, 0), (false, 0)]) ∧
      ((∀ e ∈ s.registry, e.Served s s') ↔
        ∀ before e after, s.inIndexOrder = before ++ e :: after →
          s.FailsToPlay handle none none before e → ∀ y ∈ after, ¬ s.Owes y) ∧
      ∀ before e after, s.inIndexOrder = before ++ e :: after →
        s.FailsToPlay handle none none before e →
          (∀ y ∈ before ++ [e], y.Served s s') ∧
          ∀ y ∈ after, s'.outlook y.index y.serial = s.outlook y.index y.serial := by
  refine ⟨Environment.failing_isPassive _, ⟨by decide +kernel, ?_⟩,
    playAll_serves_all_iff _ _ 0 0 (Environment.failing_isPassive _) _ _ _ none none⟩
  rw [playAll_of_ordered (by decide +kernel)]
  decide +kernel

end MusicMacro
