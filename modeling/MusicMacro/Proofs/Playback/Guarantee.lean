import MusicMacro.Proofs.Playback.Run

/-!
# What playback guarantees

Whatever the outside does during calls, also when it gives commands of its own, everything that
becomes of a session comes from a few changes: something is logged, a call is counted, a part is
armed, a timer goes off or is dropped, all parts are disarmed; and, when a batch is prepared,
parts are discarded, a source is adopted and parts are installed.

A relation between an earlier and a later session that each of these changes respects is a
`Session.Guarantee`.  Where the relation is reflexive and transitive it holds from before to after
every step of playback, at every depth of nesting (`handler_leads`).  A `Session.PlayGuarantee`
does without the changes of a batch; it holds of everything but preparing.
-/

namespace MusicMacro

/-- The source, the parts and the timers are the same. -/
structure Session.SameParts (s s' : Session) : Prop where
  adapter : s'.adapter = s.adapter
  adapters : s'.adapters = s.adapters
  registry : s'.registry = s.registry
  discarded : s'.discarded = s.discarded
  timers : s'.timers = s.timers
  created : s'.created = s.created

lemma Session.Notes.sameParts {P : LogItem → Prop} {s s' : Session} (h : s.Notes P s') :
    s.SameParts s' := by
  rw [h.eq_log]
  exact ⟨rfl, rfl, rfl, rfl, rfl, rfl⟩

/-- What becomes of hooks, the flag, those who wait and the clock is of no account. -/
structure Session.SameDoings (s s' : Session) : Prop extends s.SameParts s' where
  counts : s'.counts = s.counts
  log : s'.log = s.log

lemma Session.sameDoings_settleWaiters (s : Session) : s.SameDoings s.settleWaiters :=
  ⟨⟨rfl, rfl, rfl, rfl, rfl, rfl⟩, rfl, rfl⟩

lemma Session.sameDoings_moveClock (s : Session) (time : Double) :
    s.SameDoings (s.moveClock time) := by
  unfold moveClock
  split
  · exact ⟨⟨rfl, rfl, rfl, rfl, rfl, rfl⟩, rfl, rfl⟩
  · exact ⟨⟨rfl, rfl, rfl, rfl, rfl, rfl⟩, rfl, rfl⟩

/-- The item is neither a call nor the reply to a command. -/
def LogItem.IsRemark : LogItem → Prop
  | .call _ _ _ | .answered _ _ => False
  | _ => True

/-- The item tells that an event of an entry was handed over, or that the entry has ended. -/
def LogItem.IsMark (index entry : Nat) : LogItem → Prop
  | .dispatched _ i n _ _ _ => i = index ∧ n = entry
  | .finished _ i n => i = index ∧ n = entry
  | _ => False

lemma LogItem.IsMark.isRemark {index entry : Nat} {item : LogItem} (h : item.IsMark index entry) :
    item.IsRemark := by
  cases item with
  | call => exact h.elim
  | answered => exact h.elim
  | _ => trivial

/-- A relation that every change respects which is made while parts play, are halted and elapse. -/
structure Session.PlayGuarantee (R : Session → Session → Prop) : Prop where
  same : ∀ {s s' : Session}, s.SameDoings s' → R s s'
  record : ∀ (s : Session) (item : LogItem), item.IsRemark → R s (s.record item)
  call : ∀ (s : Session) (index : Nat) (c : Call), R s (s.recordCall index c)
  arm : ∀ {s : Session} {e : PartEntry} {event : Event} {rest : List Event}
    (routing onProcess : Option String), e ∈ s.registry → s.adapter ≠ none →
      e.isPlaying = false → e.part.queue = event :: rest →
      R s (s.arm e { e.part with queue := rest } event routing onProcess)
  ring : ∀ {s : Session} {t : Timer} {e : PartEntry}, t ∈ s.timers → e ∈ s.registry →
    e.serial = t.entry → e.isPlaying = true → R s (s.ring t e)
  drop : ∀ {s : Session} {t : Timer}, t ∈ s.timers → s.IsStale t → R s (s.drop t)
  disarm : ∀ s : Session, R s s.disarm

/-- A relation that every change respects. -/
structure Session.Guarantee (R : Session → Session → Prop) : Prop
    extends Session.PlayGuarantee R where
  reply : ∀ (s : Session) (command : Command) (reply : Except PlaybackError Reply),
    R s (s.record (.answered command reply))
  clear : ∀ s : Session, R s s.clear
  adopt : ∀ (s : Session) (adapter : Adapter), R s (s.adopt adapter)
  install : ∀ (s : Session) (index : Nat) (events : List Event),
    R s (s.installPart index events)

section

open Session

variable {R : Session → Session → Prop} [IsPreorder Session R] {handle : Handler}

/-! ## Steps that make calls -/

/-- What holds of every change that playing the part of an index can make in a session, and of the
calls for it, holds of playing it there. -/
lemma play_leads_of_calls {s : Session} {index : Nat}
    (hwarn : ∀ w, (Step.change (·.record (.warned w))).Leads R)
    (hcalls : ∀ c, (handle index c).Leads R) (hidle : (Step.change Session.updateIdle).Leads R)
    (routing onProcess : Option String)
    (hmark : ∀ e, s.entryAt? index = some e → ∀ s' item, LogItem.IsMark e.index e.serial item →
      R s' (s'.record item))
    (harm : ∀ e event rest, s.Takes index e event rest →
      R s (s.arm e { e.part with queue := rest } event routing onProcess)) :
    R s (play handle index routing onProcess s).1 := by
  have hfound : ∀ e, s.entryAt? index = some e → e.index = index := fun e he => by
    simpa using List.find?_some he
  by_cases htakes : ∃ e event rest, s.Takes index e event rest
  · obtain ⟨e, event, rest, h⟩ := htakes
    obtain ⟨adapter, -, hplay⟩ := h.play_eq handle routing onProcess
    have hmarked := hmark e h.entry
    rw [hplay]
    refine trans_of R (harm e event rest h) (startEvent_leads_of_calls hwarn ?_ ?_ _ _ _)
    · rw [hfound e h.entry]
      exact hcalls
    · exact fun s' => hmarked s' _ ⟨rfl, rfl⟩
  · rcases play_of_not_takes handle routing onProcess htakes with hsame | ⟨e, he, -, hplay⟩
    · rw [hsame]
      exact refl_of R s
    · have hmarked := hmark e he
      rw [hplay]
      refine Step.Leads.andThen (tellEnded_leads ?_ ?_) hidle s
      · exact fun s' => hmarked s' _ ⟨rfl, rfl⟩
      · rw [hfound e he]
        exact hcalls .ended

section

variable (g : PlayGuarantee R) (hcalls : ∀ index c, (handle index c).Leads R)

include g

omit [IsPreorder Session R] in
lemma updateIdle_leads : (Step.change Session.updateIdle).Leads R := by
  intro s
  obtain ⟨idle, waiters, hs⟩ := s.updateIdle_eq
  rw [Step.change_apply, hs]
  exact g.same ⟨⟨rfl, rfl, rfl, rfl, rfl, rfl⟩, rfl, rfl⟩

include hcalls

lemma stopEvent_leads (index entry : Nat) (event : Event) (onProcess : Option String) :
    (stopEvent handle index entry event onProcess).Leads R :=
  stopEvent_leads_of_calls (fun _ s => g.record s _ trivial) (hcalls index)
    (fun s => g.record s _ trivial) onProcess

lemma play_leads (index : Nat) (routing onProcess : Option String) :
    (play handle index routing onProcess).Leads R := by
  intro s
  refine play_leads_of_calls (fun _ s => g.record s _ trivial) (hcalls index) (updateIdle_leads g)
    routing onProcess (fun _ _ s' item hmark => g.record s' item hmark.isRemark) ?_
  intro e event rest h
  exact g.arm routing onProcess (List.mem_of_find?_eq_some h.entry) h.source h.idle h.queue

lemma playAll_leads (routing onProcess : Option String) :
    (playAll handle routing onProcess).Leads R :=
  Step.Leads.given fun _ => Step.Leads.forEach fun index _ =>
    play_leads g hcalls index routing onProcess

lemma stopEntry_leads (onProcess : Option String) (e : PartEntry) :
    (stopEntry handle onProcess e).Leads R := by
  refine Step.Leads.given fun s => ?_
  split
  · exact stopEvent_leads g hcalls _ _ _ onProcess
  · exact Step.skip_leads

lemma halt_leads (onProcess : Option String) : (halt handle onProcess).Leads R := by
  intro s
  rw [halt_apply]
  have hstops := Step.Leads.forEach (l := s.registry.filter (·.isPlaying)) fun e _ =>
    stopEntry_leads g hcalls onProcess e
  exact trans_of R (g.disarm s) (hstops s.disarm)

/-! ## Timers -/

lemma fire_leads {s : Session} {t : Timer} (ht : t ∈ s.timers) : R s (fire handle t s) := by
  by_cases hstale : s.IsStale t
  · rw [fire_of_isStale hstale]
    exact g.drop ht hstale
  · obtain ⟨e, hentry, hserial, hplaying⟩ : ∃ e, s.entryAt? t.index = some e ∧
        e.serial = t.entry ∧ e.isPlaying = true := by
      simpa [IsStale] using hstale
    have hmem : e ∈ s.registry := List.mem_of_find?_eq_some hentry
    have hplaysOn : (playOn handle t e).Leads R :=
      Step.Leads.andAlways (stopEvent_leads g hcalls _ _ _ _) (play_leads g hcalls _ _ _)
    have hrest := trans_of R (g.ring ht hmem hserial hplaying) (hplaysOn _)
    rw [fire_eq_ring hentry hserial hplaying, escape]
    rcases (playOn handle t e (s.ring t e)).2 with _ | error
    · exact hrest
    · exact trans_of R hrest (g.record _ (.escaped error) trivial)

lemma fireWhile_leads (isDue : Timer → Bool) (limit : Nat) (s : Session) :
    R s (fireWhile handle isDue limit s).1 := by
  induction limit generalizing s with
  | zero => exact refl_of R s
  | succ limit ih =>
      rcases hfirst : firstTimer? isDue s.timers with _ | t
      · simpa [fireWhile, hfirst] using refl_of R s
      · have hrest := trans_of R (fire_leads g hcalls (mem_of_firstTimer? hfirst)) (ih _)
        simpa [fireWhile, hfirst] using hrest

end

/-! ## Preparing -/

section

variable (g : Guarantee R) (hcalls : ∀ index c, (handle index c).Leads R)

include g hcalls

lemma prepare_leads (source : SoundSource) (shape : Option SourceShape) (texts : List String) :
    (prepare handle source shape texts).Leads R := by
  refine Step.Leads.andThen
    (Step.Leads.andThen (halt_leads g.toPlayGuarantee hcalls none) g.clear) ?_
  rcases source.adapter shape with e | adapter
  · exact Step.fail_leads _
  · have hreports (o : PartOutcome) : (reportOutcome handle o).Leads R :=
      reportOutcome_leads (fun w s => g.record s _ trivial) fun e => hcalls o.index _
    exact Step.Leads.andThen (fun s => g.adopt s adapter)
      (installTexts_leads hreports g.install texts)

end

/-! ## Commands -/

/-- The command is to prepare a batch. -/
def Command.IsPrepare : Command → Prop
  | .prepare _ _ _ => True
  | _ => False

section

variable (hcalls : ∀ index c, (handle index c).Leads R)

include hcalls

/-- What holds of everything but preparing holds of every command but that. -/
lemma perform_leads_of_not_isPrepare (g : PlayGuarantee R) {c : Command} (hc : ¬ c.IsPrepare)
    (s : Session) : R s (perform handle s c).1 := by
  cases c with
  | prepare source texts shape => exact absurd trivial hc
  | play name routing onProcess =>
      rcases hentry : s.entryNamed? name with _ | e
      · simpa [perform, hentry] using refl_of R s
      · have hplayed := play_leads g hcalls e.index routing onProcess s
        simpa [perform, hentry, Step.answering_fst] using hplayed
  | playAll routing onProcess =>
      rw [perform, Step.answering_fst]
      exact playAll_leads g hcalls routing onProcess s
  | halt onProcess =>
      rw [perform, Step.answering_fst]
      exact halt_leads g hcalls onProcess s
  | install hooks => exact g.same ⟨⟨rfl, rfl, rfl, rfl, rfl, rfl⟩, rfl, rfl⟩
  | advance seconds limit =>
      have hfired := fireWhile_leads g hcalls
        (fun t => t.due.atMost (s.clock + seconds)) limit s
      exact trans_of R hfired (g.same (sameDoings_moveClock _ _))
  | run limit => exact fireWhile_leads g hcalls _ limit s
  | look name =>
      rcases hentry : s.entryNamed? name with _ | e
      · simpa [perform, hentry] using refl_of R s
      · simpa [perform, hentry] using refl_of R s
  | overview => exact refl_of R s
  | wait => exact g.same ⟨⟨rfl, rfl, rfl, rfl, rfl, rfl⟩, rfl, rfl⟩

lemma perform_leads (g : Guarantee R) (c : Command) (s : Session) :
    R s (perform handle s c).1 := by
  cases c with
  | prepare source texts shape =>
      rcases hshape : forcedShape shape with e | forced
      · simpa [perform, hshape] using refl_of R s
      · have hprepared := prepare_leads g hcalls source forced texts s
        simpa [perform, hshape, Step.answering_fst] using hprepared
  | _ => exact perform_leads_of_not_isPrepare hcalls g.toPlayGuarantee id s

lemma performNested_leads (g : Guarantee R) (c : Command) (s : Session) :
    R s (performNested handle s c) :=
  trans_of R (perform_leads hcalls g c s) (g.reply _ c _)

end

/-! ## Calls -/

lemma foldl_performNested_leads {commands : List Command}
    (h : ∀ command ∈ commands, ∀ s, R s (performNested handle s command)) (s : Session) :
    R s (commands.foldl (performNested handle) s) := by
  induction commands generalizing s with
  | nil => exact refl_of R s
  | cons command rest ih =>
      exact trans_of R (h command List.mem_cons_self s)
        (ih (fun c hc => h c (List.mem_cons_of_mem command hc)) _)

/-- What holds of the calls for certain parts, and of every command that the environment gives
during calls, holds of calls for these parts at any depth. -/
theorem handler_leads_of_given {env : Environment} {P : Nat → Prop}
    (hcall : ∀ index, P index → ∀ s c, R s (Session.recordCall s index c))
    (hnested : ∀ handle : Handler, (∀ index, P index → ∀ c, (handle index c).Leads R) →
      ∀ name n, ∀ command ∈ (env name n).commands, ∀ s, R s (performNested handle s command))
    (depth : Nat) : ∀ index, P index → ∀ c, (handler env depth index c).Leads R := by
  induction depth with
  | zero => exact fun index hindex c s => hcall index hindex s c
  | succ depth ih =>
      intro index hindex c s
      exact trans_of R (hcall index hindex s c)
        (foldl_performNested_leads (hnested _ ih c.name (s.countOf c.name)) _)

/-- What holds of a call and of every command given during calls holds of calls at any depth. -/
theorem handler_leads_of_nested (hcall : ∀ s index c, R s (Session.recordCall s index c))
    (hnested : ∀ handle : Handler, (∀ index c, (handle index c).Leads R) →
      ∀ command s, R s (performNested handle s command))
    (env : Environment) (depth index : Nat) (c : Call) : (handler env depth index c).Leads R :=
  handler_leads_of_given (P := fun _ => True) (fun index _ s c => hcall s index c)
    (fun handle hcalls _ _ command _ s =>
      hnested handle (fun index c => hcalls index trivial c) command s) depth index trivial c

/-- A guarantee holds of every call, whatever commands are given during it. -/
theorem handler_leads (g : Guarantee R) (env : Environment) (depth index : Nat) (c : Call) :
    (handler env depth index c).Leads R :=
  handler_leads_of_nested g.call (fun _ hcalls command s => performNested_leads hcalls g command s)
    env depth index c

/-! ## Moves -/

lemma move_leads (g : Guarantee R) (env : Environment) (depth : Nat) (m : Move) (s : Session) :
    R s (s.move env depth m) := by
  have hcalls := handler_leads g env depth
  have hcommand : ∀ c, R s (s.step env depth c).1 := fun c =>
    trans_of R (perform_leads hcalls g c s) (g.same (sameDoings_settleWaiters _))
  cases m with
  | fire serial =>
      rw [move]
      rcases ht : s.timerOf? serial with _ | t
      · exact refl_of R s
      · exact fire_leads g.toPlayGuarantee hcalls (mem_of_timerOf? ht).1
  | pass time => exact g.same (s.sameDoings_moveClock time)
  | _ => exact hcommand _

lemma after_leads (g : Guarantee R) (env : Environment) (depth : Nat) (s : Session)
    (moves : List Move) : R s (s.after env depth moves) := by
  induction moves generalizing s with
  | nil => exact refl_of R s
  | cons m rest ih => exact trans_of R (move_leads g env depth m s) (ih _)

end

/-! ## The log -/

instance Session.grows_isPreorder : IsPreorder Session fun s s' => s.log <:+ s'.log where
  refl _ := List.suffix_rfl
  trans _ _ _ hab hbc := hab.trans hbc

/-- The log only grows, whatever is called back. -/
lemma grows_guarantee : Session.Guarantee fun s s' => s.log <:+ s'.log where
  same := fun hsame => hsame.log ▸ List.suffix_rfl
  record := fun _ _ _ => List.suffix_cons _ _
  call := fun _ _ _ => List.suffix_cons _ _
  arm := fun _ _ _ _ _ _ => List.suffix_rfl
  ring := fun _ _ _ _ => List.suffix_cons _ _
  drop := fun _ _ => List.suffix_cons _ _
  disarm := fun s => s.disarm_log ▸ List.suffix_rfl
  reply := fun _ _ _ => List.suffix_cons _ _
  clear := fun _ => List.suffix_rfl
  adopt := fun _ _ => List.suffix_rfl
  install := by
    intro s index events
    obtain ⟨registry, discarded, hs⟩ := s.installPart_eq index events
    exact hs ▸ List.suffix_rfl

/-- A call is logged before commands are given during it. -/
lemma recordCall_grows_handler (env : Environment) (depth index : Nat) (c : Call) (s : Session) :
    (s.recordCall index c).log <:+ (handler env depth index c s).1.log := by
  cases depth with
  | zero => exact List.suffix_rfl
  | succ depth =>
      exact foldl_performNested_leads (R := fun s s' => s.log <:+ s'.log)
        (fun command _ s => performNested_leads (handler_leads grows_guarantee env depth)
          grows_guarantee command s) _

/-- That an event is started is the first thing that is logged when its part is played. -/
lemma Session.Takes.play_log {s : Session} {index : Nat} {e : PartEntry} {event : Event}
    {rest : List Event} (h : s.Takes index e event rest) {handle : Handler}
    (hcalls : ∀ index c, (handle index c).Leads fun s s' => s.log <:+ s'.log)
    (routing onProcess : Option String) :
    ∃ later, (play handle index routing onProcess s).1.log =
      later ++ .dispatched s.clock e.index e.serial s.adapters true event :: s.log := by
  obtain ⟨adapter, -, hplay⟩ := h.play_eq handle routing onProcess
  have hgrows := Step.Leads.andThen
    (adapter.start_leads (R := fun s s' => s.log <:+ s'.log) (fun w s => List.suffix_cons _ _)
      (fun c _ => hcalls e.index c) event routing onProcess)
    (tellTones_leads (·.started) event fun tone => hcalls e.index (.started event tone.place))
  obtain ⟨later, hlater⟩ := hgrows _
  exact ⟨later, by rw [hplay, startEvent, Step.change_andThen, ← hlater]; rfl⟩

end MusicMacro
