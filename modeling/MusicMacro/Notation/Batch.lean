import MusicMacro.Notation.Compile

/-!
# Batches

Several notation strings compiled together, one part each.  A string that is refused is reported;
then, by policy, either nothing of the batch is kept and the strings after it are not compiled,
or the string is left out and the others keep their index (`compileBatch`).
-/

namespace MusicMacro

/-- What becomes of a batch when one of its strings is refused. -/
inductive ErrorPolicy where
  /-- Nothing of the batch is kept. -/
  | abort
  /-- The refused string is left out. -/
  | skip
deriving DecidableEq, Repr

namespace ErrorPolicy

def name : ErrorPolicy → String
  | abort => "abort"
  | skip => "continue"

def ofName? (name : String) : Option ErrorPolicy := [abort, skip].find? (·.name = name)

def ofName (name : String) : Except UnknownName ErrorPolicy :=
  (ofName? name).elim (.error ⟨name, "ErrorPolicy"⟩) .ok

end ErrorPolicy

/-- What became of one string of a batch. -/
structure PartOutcome where
  index : Nat
  log : List Warning
  result : Except CompileError (List Event)

namespace PartOutcome

def ofText (index : Nat) (text : String) : PartOutcome :=
  let (log, result) := compileText text
  ⟨index, log, result⟩

/-- The events of the part, if it compiled. -/
def events? (o : PartOutcome) : Option (List Event) := o.result.toOption

/-- The error that refused the string. -/
def refusal? (o : PartOutcome) : Option NotationError :=
  match o.result with
  | .error (.refused e) => some e
  | _ => none

/-- Whether the batch stops here: by policy at a refusal, and always at any other failure. -/
def stops (policy : ErrorPolicy) (o : PartOutcome) : Bool :=
  match o.result with
  | .ok _ => false
  | .error (.refused _) => policy == .abort
  | .error _ => true

/-- Warnings of the part, the last one for a refusal. -/
def warnings (o : PartOutcome) : List Warning :=
  o.log ++ (o.refusal?.map fun e => Warning.partFailed o.index e.message).toList

end PartOutcome

/-- The outcomes of the strings from an index on, up to the one that stops the batch. -/
def outcomesFrom (policy : ErrorPolicy) (index : Nat) : List String → List PartOutcome
  | [] => []
  | text :: rest =>
    let outcome := PartOutcome.ofText index text
    if outcome.stops policy then [outcome]
    else outcome :: outcomesFrom policy (index + 1) rest

/-- The compiled parts of outcomes: none under the policy that aborts once a string is
refused. -/
def installedParts (policy : ErrorPolicy) (outcomes : List PartOutcome) :
    List (Nat × List Event) :=
  if outcomes.any (·.stops policy) then []
  else outcomes.filterMap fun o => o.events?.map (o.index, ·)

/-- A compiled batch: its parts by index, the refusals in order and the warnings. -/
structure Batch where
  parts : List (Nat × List Event)
  errors : List NotationError
  log : List Warning

/-- Compiles strings under a policy.  Failures other than refusals end the batch. -/
def compileBatch (policy : ErrorPolicy) (texts : List String) : Except CompileError Batch :=
  let outcomes := outcomesFrom policy 0 texts
  match outcomes.findSome? fun o =>
    match o.result with
    | .error (.refused _) => none
    | .error e => some e
    | .ok _ => none
  with
  | some e => .error e
  | none =>
    .ok ⟨installedParts policy outcomes, outcomes.filterMap (·.refusal?),
      outcomes.flatMap (·.warnings)⟩

end MusicMacro
