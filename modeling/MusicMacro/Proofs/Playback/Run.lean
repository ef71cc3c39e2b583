import MusicMacro.Proofs.Playback.Outcome

/-!
# Runs of playback

A run is any finite sequence of moves: a caller prepares, plays, halts, installs hooks or waits,
one of the running timers fires, or time passes.  Timers may fire in any order and at any moment,
so what holds of all runs holds in particular of those in which they fire when they are due.

`Session.after` is the session that a run leads to; properties that every move keeps hold after
every run (`Session.after_keeps`).
-/

namespace MusicMacro

/-- What can happen to playback between two moments at which nothing goes on. -/
inductive Move where
  | prepare (source : SoundSource) (texts : List String) (shape : Option String)
  | play (part : PartName) (routing onProcess : Option String)
  | playAll (routing onProcess : Option String)
  | halt (onProcess : Option String)
  | install (hooks : Hooks)
  /-- Someone begins to wait until nothing plays. -/
  | wait
  /-- The running timer of this number fires, if there is one. -/
  | fire (timer : Nat)
  /-- Time passes. -/
  | pass (time : Double)

namespace Session

variable (env : Environment) (depth : Nat)

/-- The running timer of a number. -/
def timerOf? (s : Session) (serial : Nat) : Option Timer := s.timers.find? (·.serial = serial)

/-- The session after a move, whether or not the move fails. -/
def move (s : Session) : Move → Session
  | .prepare source texts shape => (s.step env depth (.prepare source texts shape)).1
  | .play part routing onProcess => (s.step env depth (.play part routing onProcess)).1
  | .playAll routing onProcess => (s.step env depth (.playAll routing onProcess)).1
  | .halt onProcess => (s.step env depth (.halt onProcess)).1
  | .install hooks => (s.step env depth (.install hooks)).1
  | .wait => (s.step env depth .wait).1
  | .fire serial => (s.timerOf? serial).elim s fun t => MusicMacro.fire (handler env depth) t s
  | .pass time => s.moveClock time

/-- The session after a run. -/
def after (s : Session) (moves : List Move) : Session := moves.foldl (move env depth) s

lemma after_cons (s : Session) (m : Move) (moves : List Move) :
    s.after env depth (m :: moves) = (s.move env depth m).after env depth moves := rfl

lemma after_append (s : Session) (moves later : List Move) :
    s.after env depth (moves ++ later) = (s.after env depth moves).after env depth later :=
  List.foldl_append

lemma after_concat (s : Session) (moves : List Move) (m : Move) :
    s.after env depth (moves ++ [m]) = (s.after env depth moves).move env depth m :=
  after_append env depth s moves [m]

variable {env depth}

/-- In an environment that only answers, the depth to which commands may nest is of no account. -/
lemma move_depth (passive : env.IsPassive) (depth : Nat) : move env depth = move env 0 := by
  funext s m
  cases m <;> simp only [move, step, handler_eq_zero passive depth]

/-- What every move of a run keeps is kept by the run. -/
lemma after_keeps {I : Session → Prop} {s : Session} {moves : List Move}
    (h : ∀ m ∈ moves, ∀ s, I s → I (s.move env depth m)) (hs : I s) :
    I (s.after env depth moves) := by
  induction moves generalizing s with
  | nil => exact hs
  | cons m rest ih =>
      rw [after_cons]
      exact ih (fun m' hm' => h m' (List.mem_cons_of_mem m hm')) (h m List.mem_cons_self s hs)

end Session

/-! ## Which timer fires first -/

/-- A timer is first exactly if some timer passes the test, and it is one of these. -/
lemma firstTimer?_cases (isDue : Timer → Bool) (timers : List Timer) :
    (timers.filter isDue = [] ∧ firstTimer? isDue timers = none) ∨
      ∃ t ∈ timers.filter isDue, firstTimer? isDue timers = some t := by
  have hfold : ∀ (l : List Timer) (first : Timer),
      l.foldl (fun first u => if u.due.less first.due then u else first) first ∈ first :: l := by
    intro l
    induction l with
    | nil => exact fun first => List.mem_cons_self
    | cons u l ih =>
        intro first
        rw [List.foldl_cons]
        split
        · exact List.mem_cons_of_mem _ (ih u)
        · rcases List.mem_cons.mp (ih first) with heq | hmem
          · rw [heq]
            exact List.mem_cons_self
          · exact List.mem_cons_of_mem _ (List.mem_cons_of_mem u hmem)
  rcases hdue : timers.filter isDue with _ | ⟨t, rest⟩
  · exact Or.inl ⟨rfl, by rw [firstTimer?, hdue]⟩
  · exact Or.inr ⟨_, hfold rest t, by rw [firstTimer?, hdue]⟩

lemma mem_of_firstTimer? {isDue : Timer → Bool} {timers : List Timer} {t : Timer}
    (h : firstTimer? isDue timers = some t) : t ∈ timers := by
  rcases firstTimer?_cases isDue timers with ⟨-, hnone⟩ | ⟨t', ht', hsome⟩
  · rw [hnone] at h
    cases h
  · rw [hsome] at h
    cases h
    exact (List.mem_filter.mp ht').1

/-! ## What a move comes down to -/

section

variable (env : Environment) {depth : Nat}

lemma Step.answering_fst (step : Step) (reply : Session → Reply) (s : Session) :
    (step.answering reply s).1 = (step s).1 := by
  rcases h : step s with ⟨s', _ | e⟩
  · simp only [Step.answering, h]
  · simp only [Step.answering, h]

namespace Session

lemma move_prepare (s : Session) (source : SoundSource) (texts : List String)
    (shape : Option String) :
    ((∃ e, forcedShape shape = .error e) ∧
        s.move env depth (.prepare source texts shape) = s.settleWaiters) ∨
      ∃ forced, forcedShape shape = .ok forced ∧
        s.move env depth (.prepare source texts shape) =
          (MusicMacro.prepare (handler env depth) source forced texts s).1.settleWaiters := by
  rcases hshape : forcedShape shape with e | forced
  · left
    exact ⟨⟨e, rfl⟩, by simp [move, step, perform, hshape]⟩
  · right
    exact ⟨forced, rfl, by simp [move, step, perform, hshape, Step.answering_fst]⟩

lemma move_play (s : Session) (part : PartName) (routing onProcess : Option String) :
    (s.entryNamed? part = none ∧ s.move env depth (.play part routing onProcess) = s.settleWaiters) ∨
      ∃ entry, s.entryNamed? part = some entry ∧
        s.move env depth (.play part routing onProcess) =
          (MusicMacro.play (handler env depth) entry.index routing onProcess s).1.settleWaiters := by
  rcases hentry : s.entryNamed? part with _ | entry
  · left
    simp [move, step, perform, hentry]
  · right
    exact ⟨entry, rfl, by simp [move, step, perform, hentry, Step.answering_fst]⟩

lemma move_playAll (s : Session) (routing onProcess : Option String) :
    s.move env depth (.playAll routing onProcess) =
      (MusicMacro.playAll (handler env depth) routing onProcess s).1.settleWaiters := by
  simp [move, step, perform, Step.answering_fst]

lemma move_halt (s : Session) (onProcess : Option String) :
    s.move env depth (.halt onProcess) =
      (MusicMacro.halt (handler env depth) onProcess s).1.settleWaiters := by
  simp [move, step, perform, Step.answering_fst]

lemma mem_of_timerOf? {s : Session} {serial : Nat} {t : Timer} (h : s.timerOf? serial = some t) :
    t ∈ s.timers ∧ t.serial = serial :=
  ⟨List.mem_of_find?_eq_some h, by simpa using List.find?_some h⟩

/-- **What a move comes down to.**  It carries out one operation as it is, or none; besides, it
changes at most the hooks, those who wait and the clock. -/
lemma move_elim {Q : Session → Prop} {s : Session} {m : Move} (stays : Q s)
    (minor : ∀ s' hooks waiters clock, Q s' →
      Q { s' with hooks := hooks, waiters := waiters, clock := clock })
    (prepares : ∀ source texts shape forced, m = .prepare source texts shape →
      forcedShape shape = .ok forced →
      Q (MusicMacro.prepare (handler env depth) source forced texts s).1)
    (plays : ∀ part routing onProcess index, m = .play part routing onProcess →
      Q (MusicMacro.play (handler env depth) index routing onProcess s).1)
    (playsAll : ∀ routing onProcess, m = .playAll routing onProcess →
      Q (MusicMacro.playAll (handler env depth) routing onProcess s).1)
    (halts : ∀ onProcess, m = .halt onProcess →
      Q (MusicMacro.halt (handler env depth) onProcess s).1)
    (fires : ∀ t ∈ s.timers, m = .fire t.serial → Q (MusicMacro.fire (handler env depth) t s)) :
    Q (s.move env depth m) := by
  have hsettled {s' : Session} (h : Q s') : Q s'.settleWaiters := minor s' s'.hooks _ s'.clock h
  cases m with
  | prepare source texts shape =>
      rcases move_prepare env s source texts shape with ⟨-, heq⟩ | ⟨forced, hshape, heq⟩
      · rw [heq]
        exact hsettled stays
      · rw [heq]
        exact hsettled (prepares source texts shape forced rfl hshape)
  | play part routing onProcess =>
      rcases move_play env s part routing onProcess with ⟨-, heq⟩ | ⟨entry, -, heq⟩
      · rw [heq]
        exact hsettled stays
      · rw [heq]
        exact hsettled (plays part routing onProcess entry.index rfl)
  | playAll routing onProcess =>
      rw [move_playAll]
      exact hsettled (playsAll routing onProcess rfl)
  | halt onProcess =>
      rw [move_halt]
      exact hsettled (halts onProcess rfl)
  | install hooks => exact hsettled (minor s hooks s.waiters s.clock stays)
  | wait => exact hsettled (minor s s.hooks _ s.clock stays)
  | fire serial =>
      rw [move]
      cases ht : s.timerOf? serial with
      | none => exact stays
      | some t =>
          obtain ⟨hmem, rfl⟩ := mem_of_timerOf? ht
          exact fires t hmem rfl
  | pass time =>
      rw [move, moveClock]
      split
      · exact minor s s.hooks s.waiters time stays
      · exact stays

end Session

end

end MusicMacro
