import MusicMacro.Event
import MusicMacro.Notation.Error

/-!
# Sound sources

A source makes the sound of events in one of three ways (`SourceShape`): a list of tone
generators takes one tone of a chord each, a multi-pitch device takes all frequencies of an event
at once, and an indexed trigger takes one index at a time.  `SoundSource.adapter?` wraps a source
for its shape, which is detected unless a caller forces one.

A `Call` is one call that playback makes to a source or to a hook of the caller.
-/

namespace MusicMacro

/-! ## Shapes -/

/-- The ways in which a source takes events. -/
inductive SourceShape where
  /-- A list of tone generators. -/
  | generators
  /-- A device that sounds a whole chord. -/
  | chords
  /-- A device addressed by index. -/
  | triggers
deriving DecidableEq, Repr

namespace SourceShape

def name : SourceShape → String
  | generators => "raw_generators"
  | chords => "multi_pitch"
  | triggers => "indexed_trigger"

def ofName (name : String) : Except UnknownName SourceShape :=
  match [generators, chords, triggers].find? (·.name = name) with
  | some shape => .ok shape
  | none => .error ⟨name, "SourceShape"⟩

end SourceShape

/-! ## Adapters -/

/-- A source wrapped for its shape. -/
inductive Adapter where
  | generators (count : Nat)
  | chords
  | triggers
  /-- A source of this kind forced to a shape whose methods it does not have. -/
  | misfit (shape : SourceShape) (kind : String)
deriving DecidableEq

/-- The shape of the wrapped source. -/
def Adapter.shape : Adapter → SourceShape
  | generators _ => .generators
  | chords => .chords
  | triggers => .triggers
  | misfit shape _ => shape

/-- What a caller gives to make the sound. -/
inductive SoundSource where
  /-- A collection of tone generators. -/
  | generators (count : Nat) (kind : String)
  /-- A device with the methods of a shape, which it may declare or not. -/
  | device (shape : SourceShape) (declared : Bool) (kind : String)
  /-- A source that is wrapped already. -/
  | adapted (adapter : Adapter)
  | other (kind : String)

/-- Why a source cannot be wrapped. -/
inductive SourceError where
  | unsupported (kind : String)
  /-- Generators are taken from a source that holds nothing. -/
  | notIterable (kind : String)
deriving DecidableEq

def SourceError.message : SourceError → String
  | unsupported kind => "Unsupported sound source: " ++ kind
  | notIterable kind => "'" ++ kind ++ "' object is not iterable"

namespace SoundSource

/-- The shape that a source is seen to have. -/
def shape : SoundSource → Except SourceError SourceShape
  | generators _ _ => .ok .generators
  | device shape declared kind => if declared then .ok shape else .error (.unsupported kind)
  | adapted a => .ok a.shape
  | other kind => .error (.unsupported kind)

/-- A source of some kind in a shape whose methods it lacks. -/
def misfit (kind : String) (shape : SourceShape) : Except SourceError Adapter :=
  match shape with
  | .generators => .error (.notIterable kind)
  | _ => .ok (.misfit shape kind)

/-- The source wrapped in a shape; one that is wrapped already stays as it is. -/
def wrap (source : SoundSource) (shape : SourceShape) : Except SourceError Adapter :=
  match source with
  | adapted a => .ok a
  | generators count kind =>
    if shape = .generators then .ok (.generators count) else misfit kind shape
  | device own _ kind =>
    match own, shape with
    | .chords, .chords => .ok .chords
    | .triggers, .triggers => .ok .triggers
    | _, _ => misfit kind shape
  | other kind => misfit kind shape

/-- The source wrapped in the given shape, or in its own. -/
def adapter (source : SoundSource) (forced : Option SourceShape) : Except SourceError Adapter := do
  match forced with
  | some shape => source.wrap shape
  | none => source.wrap (← source.shape)

end SoundSource

/-! ## Calls -/

/-- A call to a source or to a hook.  What to route to and what to call on the way are handed
through as they are. -/
inductive Call where
  /-- Tunes the generator at a place of the chord. -/
  | tune (place : Nat) (frequency : Double)
  | startGenerator (place : Nat)
  | stopGenerator (place : Nat)
  | startChord (frequencies : List Double) (routing onProcess : Option String)
  | stopChord (frequencies : List Double) (onProcess : Option String)
  | startTrigger (index : Nat) (routing onProcess : Option String)
  | stopTrigger (index : Nat) (onProcess : Option String)
  /-- A tone of an event was started. -/
  | started (event : Event) (place : Nat)
  /-- A tone of an event was stopped. -/
  | stopped (event : Event) (place : Nat)
  /-- A part has no more events. -/
  | ended
  /-- A notation string was refused. -/
  | refused (error : NotationError)

/-- The calls that are counted together. -/
inductive CallName where
  | tune | startGenerator | stopGenerator | startChord | stopChord | startTrigger | stopTrigger
  | started | stopped | ended | refused
deriving DecidableEq, Repr

def Call.name : Call → CallName
  | tune .. => .tune
  | startGenerator _ => .startGenerator
  | stopGenerator _ => .stopGenerator
  | startChord .. => .startChord
  | stopChord .. => .stopChord
  | startTrigger .. => .startTrigger
  | stopTrigger .. => .stopTrigger
  | started .. => .started
  | stopped .. => .stopped
  | ended => .ended
  | refused _ => .refused

namespace CallName

/-- The name by which failures tell of a call. -/
def text : CallName → String
  | tune => "gen_set"
  | startGenerator => "gen_start"
  | stopGenerator => "gen_stop"
  | startChord => "multi_start"
  | stopChord => "multi_stop"
  | startTrigger => "trigger_start"
  | stopTrigger => "trigger_stop"
  | started => "cb_start"
  | stopped => "cb_stop"
  | ended => "cb_ended"
  | refused => "cb_error"

end CallName

end MusicMacro
