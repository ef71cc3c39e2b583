import MusicMacro.Playback.Control

/-!
# Commands and the outside

`perform` carries out one command and gives its reply.  The outside takes part through its calls
(`Environment`): for each call it may give commands of its own, which are carried out before the
call returns, and it may let the call fail.  `handler` bounds how deep such commands may nest.
-/

namespace MusicMacro

/-- A step and what it answers when it succeeds. -/
def Step.answering (step : Step) (reply : Session → Reply) (s : Session) :
    Session × Except PlaybackError Reply :=
  match step s with
  | (s, none) => (s, .ok (reply s))
  | (s, some e) => (s, .error e)

/-- The shape that a caller forces by name. -/
def forcedShape (name : Option String) : Except UnknownName (Option SourceShape) :=
  match name with
  | none => .ok none
  | some name => (SourceShape.ofName name).map some

/-- Carries out a command. -/
def perform (handle : Handler) (s : Session) : Command → Session × Except PlaybackError Reply
  | .prepare source texts shape =>
    match forcedShape shape with
    | .error e => (s, .error (.unknownShape e))
    | .ok shape => (prepare handle source shape texts).answering
        (fun s => .indices ((s.registry.map (·.index)).mergeSort (· ≤ ·))) s
  | .play name routing onProcess =>
    match s.entryNamed? name with
    | none => (s, .error (.noPart name))
    | some entry => (play handle entry.index routing onProcess).answering (fun _ => .done) s
  | .playAll routing onProcess => (playAll handle routing onProcess).answering (fun _ => .done) s
  | .halt onProcess => (halt handle onProcess).answering (fun _ => .done) s
  | .install hooks => ({ s with hooks := hooks }, .ok .accepted)
  | .advance seconds limit =>
    let target := s.clock + seconds
    let (s, fired) := fireWhile handle (·.due.atMost target) limit s
    (s.moveClock target, .ok (.count fired))
  | .run limit =>
    let (s, fired) := fireWhile handle (fun _ => true) limit s
    (s, .ok (.count fired))
  | .look name =>
    match s.entryNamed? name with
    | none => (s, .error (.noPart name))
    | some entry => (s, .ok (.entry entry))
  | .overview => (s, .ok (.overview s.adapter s.policy s.registry))
  | .wait => ({ s with waiters := s.waiters ++ [.arrived] }, .ok (.count s.waiters.length))

/-! ## The outside -/

/-- What the outside does during a call. -/
structure Reaction where
  commands : List Command
  fails : Bool

/-- What the outside does during each call, told by the name of the call and the number of calls
of that name before it. -/
abbrev Environment := CallName → Nat → Reaction

/-- Carries out a command that is given during a call, and logs its reply. -/
def performNested (handle : Handler) (s : Session) (c : Command) : Session :=
  let (s, reply) := perform handle s c
  s.record (.answered c reply)

/-- Makes calls to the outside.  Commands given during a call may lead to calls in turn, down to
the given depth. -/
def handler (env : Environment) : Nat → Handler
  | 0, index, c => fun s =>
    let n := s.countOf c.name
    (s.recordCall index c, if (env c.name n).fails then some (.raised c.name n) else none)
  | depth + 1, index, c => fun s =>
    let n := s.countOf c.name
    let reaction := env c.name n
    let s := reaction.commands.foldl (performNested (handler env depth)) (s.recordCall index c)
    (s, if reaction.fails then some (.raised c.name n) else none)

/-- Carries out a command, after which all who wait and have been told go on. -/
def Session.step (env : Environment) (depth : Nat) (s : Session) (c : Command) :
    Session × Except PlaybackError Reply :=
  let (s, reply) := perform (handler env depth) s c
  (s.settleWaiters, reply)

end MusicMacro
