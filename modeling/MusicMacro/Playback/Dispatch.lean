import MusicMacro.Playback.Session

/-!
# Handing events to a source

An event is started and stopped through the wrapped source (`Adapter.start`, `Adapter.stop`) and
then told to the hook, once for each tone that sounds.  Rests take part in no call, except that a
multi-pitch device gets the frequencies of all positions.  A tone without a generator is dropped
with a warning.
-/

namespace MusicMacro

namespace Adapter

/-- Makes the calls for a tone on its generator, or warns that there is none. -/
def onGenerator (count : Nat) (tone : SoundingTone) (calls : Step) : Step :=
  if tone.place < count then calls
  else .change (·.record (.warned (.noGenerator tone.place count)))

/-- The failure of a source that lacks a method; one addressed by index fails at the first tone
only. -/
def misfitCall (shape : SourceShape) (kind method : String) (event : Event) : Step :=
  if shape = .triggers && event.isRest then .skip else .fail (.missingMethod kind method)

def start (handle : Handler) (index : Nat) (event : Event) (routing onProcess : Option String) :
    Adapter → Step
  | generators count => .forEach (fun tone => onGenerator count tone
      ((handle index (.tune tone.place tone.frequency)).andThen
        (handle index (.startGenerator tone.place)))) event.tones
  | chords => handle index (.startChord event.frequencies routing onProcess)
  | triggers =>
    .forEach (fun tone => handle index (.startTrigger tone.index routing onProcess)) event.tones
  | misfit shape kind => misfitCall shape kind "start" event

def stop (handle : Handler) (index : Nat) (event : Event) (onProcess : Option String) :
    Adapter → Step
  | generators count => .forEach (fun tone => onGenerator count tone
      (handle index (.stopGenerator tone.place))) event.tones
  | chords => handle index (.stopChord event.frequencies onProcess)
  | triggers => .forEach (fun tone => handle index (.stopTrigger tone.index onProcess)) event.tones
  | misfit shape kind => misfitCall shape kind "stop" event

end Adapter

/-- Tells a hook of every tone of an event, if it is installed; it must stay so until the last. -/
def tellTones (installed : Hooks → Bool) (tell : SoundingTone → Step) (event : Event) : Step :=
  .given fun s =>
    if installed s.hooks then
      .forEach (fun tone => .given fun s =>
        if installed s.hooks then tell tone else .fail .missingHook) event.tones
    else .skip

/-- Starts an event of an entry on a wrapped source of the given number, and tells of it. -/
def startEvent (handle : Handler) (adapter : Adapter) (number : Nat) (index entry : Nat)
    (event : Event) (routing onProcess : Option String) : Step :=
  (Step.change fun s => s.record (.dispatched s.clock index entry number true event)).andThen
    ((adapter.start handle index event routing onProcess).andThen
      (tellTones (·.started) (fun tone => handle index (.started event tone.place)) event))

/-- Stops an event of an entry on the present source, and tells of it. -/
def stopEvent (handle : Handler) (index entry : Nat) (event : Event) (onProcess : Option String) :
    Step :=
  .given fun s =>
    match s.adapter with
    | none => .fail .noSource
    | some adapter =>
      let record := Step.change fun s =>
        s.record (.dispatched s.clock index entry s.adapters false event)
      record.andThen
        ((adapter.stop handle index event onProcess).andThen
          (tellTones (·.stopped) (fun tone => handle index (.stopped event tone.place)) event))

end MusicMacro
