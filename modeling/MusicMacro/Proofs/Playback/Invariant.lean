import MusicMacro.Proofs.Playback.Guarantee

/-!
# Invariants of playback

A property of the source, the parts and the timers that each change of these keeps is an
`Invariant`.  That it is carried along is then something that playback guarantees
(`Invariant.guarantee`), so it is kept by every step, at every depth of nesting, and holds after
every run (`after_of_invariant`).
-/

namespace MusicMacro

/-- A property of the source, the parts and the timers that every change of these keeps. -/
structure Session.Invariant (I : Session → Prop) : Prop where
  sameParts : ∀ {s s' : Session}, I s → s.SameParts s' → I s'
  arm : ∀ {s : Session} {e : PartEntry} {event : Event} {rest : List Event}
    (routing onProcess : Option String), I s → e ∈ s.registry → s.adapter ≠ none →
      e.isPlaying = false → e.part.queue = event :: rest →
      I (s.arm e { e.part with queue := rest } event routing onProcess)
  ring : ∀ {s : Session} {t : Timer} {e : PartEntry}, I s → t ∈ s.timers → e ∈ s.registry →
    e.serial = t.entry → e.isPlaying = true → I (s.ring t e)
  drop : ∀ {s : Session} {t : Timer}, I s → t ∈ s.timers → s.IsStale t → I (s.drop t)
  disarm : ∀ {s : Session}, I s → I s.disarm
  clear : ∀ {s : Session}, I s → I s.clear
  adopt : ∀ {s : Session} (adapter : Adapter), I s → I (s.adopt adapter)
  install : ∀ {s : Session} (index : Nat) (events : List Event), I s →
    I (s.installPart index events)

open Session

variable {I : Session → Prop}

/-- Playback guarantees that an invariant is carried along. -/
lemma Session.Invariant.guarantee (inv : Invariant I) : Guarantee fun s s' => I s → I s' where
  same := fun hsame h => inv.sameParts h hsame.toSameParts
  record := fun _ _ _ h => inv.sameParts h ⟨rfl, rfl, rfl, rfl, rfl, rfl⟩
  call := fun _ _ _ h => inv.sameParts h ⟨rfl, rfl, rfl, rfl, rfl, rfl⟩
  arm := fun routing onProcess he hadapter hidle hqueue h =>
    inv.arm routing onProcess h he hadapter hidle hqueue
  ring := fun ht he hserial hplaying h => inv.ring h ht he hserial hplaying
  drop := fun ht hstale h => inv.drop h ht hstale
  disarm := fun _ => inv.disarm
  reply := fun _ _ _ h => inv.sameParts h ⟨rfl, rfl, rfl, rfl, rfl, rfl⟩
  clear := fun _ => inv.clear
  adopt := fun _ adapter => inv.adopt adapter
  install := fun _ index events => inv.install index events

section

variable (inv : Invariant I)

include inv

lemma play_keeps (env : Environment) (depth index : Nat) (routing onProcess : Option String) :
    (play (handler env depth) index routing onProcess).Keeps I :=
  play_leads inv.guarantee.toPlayGuarantee (handler_leads inv.guarantee env depth) index routing
    onProcess

lemma fire_keeps (env : Environment) (depth : Nat) {s : Session} {t : Timer} (h : I s)
    (ht : t ∈ s.timers) : I (fire (handler env depth) t s) :=
  fire_leads inv.guarantee.toPlayGuarantee (handler_leads inv.guarantee env depth) ht h

lemma move_keeps (env : Environment) (depth : Nat) (m : Move) {s : Session} (h : I s) :
    I (s.move env depth m) :=
  move_leads inv.guarantee env depth m s h

/-- An invariant holds after every run. -/
theorem after_of_invariant (env : Environment) (depth : Nat) {s : Session} (h : I s)
    (moves : List Move) : I (s.after env depth moves) :=
  after_leads inv.guarantee env depth s moves h

end

end MusicMacro
