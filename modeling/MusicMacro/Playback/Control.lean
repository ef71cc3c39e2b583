import MusicMacro.Playback.Dispatch

/-!
# Playing, halting and preparing

A part that plays has a timer for the event it is at.  When the timer fires the event is stopped
and the part takes its next one (`elapse`), until none is left.  `halt` stops what plays, and a
later `play` goes on with the event after the one that was stopped.  `prepare` halts, takes a
new source and installs the compiled parts of a batch in place of the old ones.

A timer is set before its event is started, so an error from a source never leaves a part without
one; and all timers are taken back before the first event is stopped.
-/

namespace MusicMacro

/-! ## Playing -/

namespace Session

/-- Sets a timer for an event that an entry has taken. -/
def arm (s : Session) (entry : PartEntry) (part : Part) (event : Event)
    (routing onProcess : Option String) : Session :=
  let timer : Timer :=
    { serial := s.created
      due := s.clock + event.duration.nearest
      index := entry.index
      entry := entry.serial
      event := event
      routing := routing
      onProcess := onProcess }
  let playing := { entry with part := part, timer := some s.created, lastEvent := some event }
  { s.replaceEntry playing with
    timers := s.timers ++ [timer]
    created := s.created + 1
    idle := false }

end Session

/-- Logs that an entry has ended and tells the hook, if it is installed. -/
def tellEnded (handle : Handler) (index entry : Nat) : Step :=
  (Step.change fun s => s.record (.finished s.clock index entry)).andThen
    (.given fun s => if s.hooks.ended then handle index .ended else .skip)

/-- Starts the next event of a part that does not play, or tells that there is none. -/
def play (handle : Handler) (index : Nat) (routing onProcess : Option String) : Step :=
  .given fun s =>
    match s.entryAt? index, s.adapter with
    | none, _ => .fail (.noPart (.ofIndex index))
    | some _, none => .fail .noSource
    | some entry, some adapter =>
      if entry.isPlaying then .skip
      else
        match entry.part.take? with
        | none =>
          (tellEnded handle entry.index entry.serial).andThen (.change Session.updateIdle)
        | some (event, part) =>
          (Step.change fun s => s.arm entry part event routing onProcess).andThen
            (startEvent handle adapter s.adapters entry.index entry.serial event routing onProcess)

/-- Plays every installed part, in index order, up to the first error. -/
def playAll (handle : Handler) (routing onProcess : Option String) : Step :=
  .given fun s =>
    .forEach (fun index => play handle index routing onProcess)
      ((s.registry.map (·.index)).mergeSort (· ≤ ·))

/-! ## Halting -/

namespace Session

/-- Takes back the timers of all installed parts. -/
def disarm (s : Session) : Session :=
  let named := s.registry.filterMap (·.timer)
  updateIdle
    { s with
      timers := s.timers.filter fun t => !named.contains t.serial
      registry := s.registry.map fun e => { e with timer := none } }

end Session

/-- Stops the event that an entry took last. -/
def stopEntry (handle : Handler) (onProcess : Option String) (entry : PartEntry) : Step :=
  .given fun s =>
    match ((s.entryOf? entry.serial).getD entry).lastEvent, s.adapter with
    | some event, some _ => stopEvent handle entry.index entry.serial event onProcess
    | _, _ => .skip

/-- Takes back every timer and then stops what was playing, up to the first error. -/
def halt (handle : Handler) (onProcess : Option String) : Step :=
  .given fun s =>
    (Step.change Session.disarm).andThen
      (.forEach (stopEntry handle onProcess) (s.registry.filter (·.isPlaying)))

/-! ## Preparing -/

namespace Session

/-- Discards all installed parts. -/
def clear (s : Session) : Session :=
  { s with registry := [], discarded := s.registry ++ s.discarded }

/-- Installs a part, in the place of one that has its index or else after the others. -/
def installPart (s : Session) (index : Nat) (events : List Event) : Session :=
  let entry : PartEntry := ⟨index, s.created, .ofEvents events, none, none⟩
  let s := { s with created := s.created + 1 }
  match s.entryAt? index with
  | none => { s with registry := s.registry ++ [entry] }
  | some old =>
    { s with
      registry := s.registry.map fun e => if e.index = index then entry else e
      discarded := old :: s.discarded }

/-- Takes a new source. -/
def adopt (s : Session) (adapter : Adapter) : Session :=
  { s with adapter := some adapter, adapters := s.adapters + 1 }

end Session

/-- Logs what became of a notation string and tells the hook if it was refused. -/
def reportOutcome (handle : Handler) (o : PartOutcome) : Step :=
  (Step.change fun s => o.warnings.foldl (fun s w => s.record (.warned w)) s).andThen
    (match o.result with
      | .ok _ => .skip
      | .error (.refused e) =>
        .given fun s => if s.hooks.refused then handle o.index (.refused e) else .skip
      | .error e => .fail (.compile e))

/-- Compiles notation strings and installs the parts that the policy keeps. -/
def installTexts (handle : Handler) (texts : List String) : Step :=
  .given fun s =>
    let outcomes := outcomesFrom s.policy 0 texts
    (Step.forEach (reportOutcome handle) outcomes).andThen
      (.change fun s =>
        (installedParts s.policy outcomes).foldl (fun s p => s.installPart p.1 p.2) s)

/-- Halts, discards the installed parts, wraps a source and installs the parts of a batch. -/
def prepare (handle : Handler) (source : SoundSource) (shape : Option SourceShape)
    (texts : List String) : Step :=
  ((halt handle none).andThen (.change Session.clear)).andThen
    (match source.adapter shape with
      | .error e => .fail (.source e)
      | .ok adapter => (Step.change (·.adopt adapter)).andThen (installTexts handle texts))

/-! ## Timers -/

/-- Ends the event of a timer: its entry, if it is still installed and has a timer, stops the
event and plays on, even when stopping fails. -/
def elapse (handle : Handler) (t : Timer) : Step :=
  .given fun s =>
    match s.entryAt? t.index with
    | none => .skip
    | some entry =>
      if entry.serial ≠ t.entry || !entry.isPlaying then .skip
      else
        (Step.change fun s => s.replaceEntry { entry with timer := none }).andThen
          ((stopEvent handle entry.index entry.serial t.event t.onProcess).andAlways
            (play handle entry.index t.routing t.onProcess))

/-- Lets a timer fire at its due time.  An error that comes out of it is logged. -/
def fire (handle : Handler) (t : Timer) (s : Session) : Session :=
  let started :=
    { s with timers := s.timers.filter (·.serial ≠ t.serial), clock := t.due }.record (.fired t.due)
  match elapse handle t started with
  | (s, none) => s
  | (s, some e) => s.record (.escaped e)

/-- The timer that is due first among those for which a test holds; of two with one due time the
one created first. -/
def firstTimer? (isDue : Timer → Bool) (timers : List Timer) : Option Timer :=
  match timers.filter isDue with
  | [] => none
  | t :: rest => some (rest.foldl (fun first u => if u.due.less first.due then u else first) t)

/-- Lets timers for which a test holds fire, the first due first and at most `limit` of them; tells
how many did. -/
def fireWhile (handle : Handler) (isDue : Timer → Bool) : Nat → Session → Session × Nat
  | 0, s => (s, 0)
  | limit + 1, s =>
    match firstTimer? isDue s.timers with
    | none => (s, 0)
    | some t =>
      let (s, fired) := fireWhile handle isDue limit (fire handle t s)
      (s, fired + 1)

/-- Moves the clock on to a time; it is never moved back. -/
def Session.moveClock (s : Session) (time : Double) : Session :=
  if s.clock.less time then { s with clock := time } else s

end MusicMacro
