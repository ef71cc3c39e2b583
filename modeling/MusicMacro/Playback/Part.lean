import MusicMacro.Event

/-!
# Parts

A `Part` is a compiled voice on its way through playback: all its events, and those that have not
been taken yet.  Events are taken in order and never put back (`Part.take?`).
-/

namespace MusicMacro

/-- The events of a voice and the ones still to come. -/
structure Part where
  events : List Event
  queue : List Event
deriving DecidableEq

namespace Part

def ofEvents (events : List Event) : Part := ⟨events, events⟩

/-- The next event, and the part without it. -/
def take? (p : Part) : Option (Event × Part) :=
  match p.queue with
  | [] => none
  | e :: rest => some (e, { p with queue := rest })

def size (p : Part) : Nat := p.events.length

def remaining (p : Part) : Nat := p.queue.length

/-- Length of the whole part in seconds: where its last event stops. -/
def duration (p : Part) : Number := (p.events.getLast?.map (·.stop)).getD (.real .zero)

def text (p : Part) : String :=
  "Part(" ++ toString p.size ++ " events, " ++ toString p.remaining ++ " remaining)"

end Part

end MusicMacro
