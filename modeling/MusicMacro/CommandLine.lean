import MusicMacro.Number.Literal
import MusicMacro.Settings

/-!
# The command line

The options that a server of the tools is started with (`Options`).  Arguments are first told
apart (`Argument.ofText`): options by their name or by the start of just one long name, with a
value after `=` if there is one, and words.  Options then take their values from the word after
them, and the last of several settings of an option stands (`Options.read`).

Words that no option takes and options that there are not are refused together at the end.
-/

namespace MusicMacro

/-! ## Options -/

/-- How the server is reached. -/
inductive Transport where
  | stdio
  | http
deriving DecidableEq, Repr

namespace Transport

def name : Transport → String
  | stdio => "stdio"
  | http => "http"

end Transport

/-- An option of the command line. -/
inductive CommandOption where
  | help
  | transport
  | port
  | config
  | errorPolicy
  | songsDirectory
  | outputDirectory
  | debug
deriving DecidableEq, Repr

namespace CommandOption

/-- The short names and then the long names of an option. -/
def names : CommandOption → List String
  | help => ["-h", "--help"]
  | transport => ["--transport"]
  | port => ["--port"]
  | config => ["--config"]
  | errorPolicy => ["--error-policy"]
  | songsDirectory => ["--songs-dir"]
  | outputDirectory => ["--output-dir"]
  | debug => ["--debug"]

def all : List CommandOption :=
  [help, transport, port, config, errorPolicy, songsDirectory, outputDirectory, debug]

/-- Each name with its option. -/
def named : List (String × CommandOption) := all.flatMap fun o => o.names.map (·, o)

def ofName? (name : String) : Option CommandOption := named.lookup name

/-- Whether the option needs a value; the others take none. -/
def takesValue (o : CommandOption) : Bool := o ≠ help && o ≠ debug

end CommandOption

/-- Why the arguments are refused. -/
inductive UsageError where
  /-- The start of several option names. -/
  | ambiguous (text : String) (candidates : List String)
  | expectedValue (option : CommandOption)
  /-- A value for an option that takes none. -/
  | ignoredValue (option : CommandOption) (value : String)
  | invalidNumber (option : CommandOption) (value : String)
  | invalidChoice (option : CommandOption) (value : String) (choices : List String)
  | unrecognized (texts : List String)
deriving DecidableEq

namespace UsageError

/-- A complaint about an option. -/
def about (option : CommandOption) (text : String) : String :=
  "argument " ++ String.intercalate "/" option.names ++ ": " ++ text

def message : UsageError → String
  | ambiguous text candidates =>
    "ambiguous option: " ++ text ++ " could match " ++ String.intercalate ", " candidates
  | expectedValue option => about option "expected one argument"
  | ignoredValue option value => about option ("ignored explicit argument " ++ quoted value)
  | invalidNumber option value => about option ("invalid int value: " ++ quoted value)
  | invalidChoice option value choices =>
    about option ("invalid choice: " ++ quoted value ++ " (choose from " ++
      String.intercalate ", " (choices.map quoted) ++ ")")
  | unrecognized texts => "unrecognized arguments: " ++ String.intercalate " " texts

end UsageError

/-! ## Telling arguments apart -/

/-- What is written in one argument with the name of an option. -/
inductive Attached where
  | nothing
  /-- A value after `=`. -/
  | value (text : String)
  /-- More text right behind a short name. -/
  | tail (text : String)
deriving DecidableEq

/-- What an argument is taken for. -/
inductive Argument where
  /-- An option under one of its names. -/
  | option (option : CommandOption) (name : String) (attached : Attached)
  /-- An option that there is not. -/
  | unknown (text : String)
  | word (text : String)
  /-- Two dashes, after which all arguments are words. -/
  | separator
deriving DecidableEq

namespace Argument

def text : Argument → String
  | option _ name _ => name
  | unknown text => text
  | word text => text
  | separator => "--"

/-- A text before its first `=`, and what stands after that. -/
def splitValue (text : String) : String × Attached :=
  let (before, after) := text.toList.span (· ≠ '=')
  match after with
  | [] => (text, .nothing)
  | _ :: value => (String.ofList before, .value (String.ofList value))

/-- Whether a text looks like a number below zero.  A line feed may end it. -/
def looksNegative (text : List Char) : Bool :=
  match text with
  | '-' :: rest =>
    let body := if rest.getLast? = some '\n' then rest.dropLast else rest
    let whole := body.takeWhile isDecimalDigit
    match body.drop whole.length with
    | [] => !whole.isEmpty
    | '.' :: fraction => !fraction.isEmpty && fraction.all isDecimalDigit
    | _ => false
  | _ => false

/-- The long options whose names start with that of a text, which may have a value. -/
def longCandidates (text : String) : List Argument :=
  let (start, attached) := splitValue text
  (CommandOption.named.filter fun (name, _) => start.toList.isPrefixOf name.toList).map
    fun (name, o) => option o name attached

/-- The short option that a text with one dash starts with. -/
def shortCandidates (text : String) : List Argument :=
  let name := String.ofList (text.toList.take 2)
  ((CommandOption.ofName? name).map fun o =>
    option o name (.tail (String.ofList (text.toList.drop 2)))).toList

/-- An argument with a dash in front that is no name of an option. -/
def ofCandidates (text : String) (candidates : List Argument) : Except UsageError Argument :=
  match candidates with
  | [candidate] => .ok candidate
  | [] =>
    if looksNegative text.toList || text.toList.contains ' ' then .ok (word text)
    else .ok (unknown text)
  | several => .error (.ambiguous text (several.map (·.text)))

/-- What a text before any separator is taken for. -/
def ofText (text : String) : Except UsageError Argument :=
  if text = "--" then .ok separator
  else if text.toList.head? ≠ some '-' then .ok (word text)
  else
    match CommandOption.ofName? text with
    | some o => .ok (option o text .nothing)
    | none =>
      if text = "-" then .ok (word text)
      else
        let (name, attached) := splitValue text
        match CommandOption.ofName? name with
        | some o => .ok (option o name attached)
        | none =>
          ofCandidates text
            (if text.toList.take 2 = ['-', '-'] then longCandidates text
              else shortCandidates text)

/-- What arguments are taken for. -/
def ofTexts : List String → Except UsageError (List Argument)
  | [] => .ok []
  | text :: rest => do
    let first ← ofText text
    if first = separator then return separator :: rest.map word
    else return first :: (← ofTexts rest)

end Argument

/-! ## Reading -/

/-- What the server is started with.  Settings that are not given stay as the settings file has
them. -/
structure Options where
  transport : Transport
  port : Int
  config : Option Path
  policy : Option ErrorPolicy
  songsDirectory : Option Path
  outputDirectory : Option Path
  debug : Bool
deriving DecidableEq

/-- Why the server is not started. -/
inductive CommandExit where
  /-- Help was asked for. -/
  | help
  | usage (error : UsageError)
deriving DecidableEq

namespace CommandExit

/-- The exit code: 0 after help and 2 after a complaint. -/
def code : CommandExit → Nat
  | help => 0
  | usage _ => 2

def message : CommandExit → String
  | help => ""
  | usage e => e.message

end CommandExit

namespace Options

def initial : Options := ⟨.stdio, 8000, none, none, none, none, false⟩

/-- The choice of a name among several. -/
def choose {α : Type} (o : CommandOption) (nameOf : α → String) (choices : List α)
    (value : String) : Except UsageError α :=
  (choices.find? (nameOf · = value)).elim (.error (.invalidChoice o value (choices.map nameOf)))
    .ok

/-- Sets an option to a value; those without one stay. -/
def set (options : Options) (o : CommandOption) (value : String) : Except UsageError Options :=
  match o with
  | .transport => do
    return { options with transport := ← choose o Transport.name [.stdio, .http] value }
  | .port => do
    return { options with
      port := ← (readWhole value).mapError fun _ => .invalidNumber o value }
  | .config => .ok { options with config := some (.ofText value) }
  | .errorPolicy => do
    return { options with policy := some (← choose o ErrorPolicy.name [.abort, .skip] value) }
  | .songsDirectory => .ok { options with songsDirectory := some (.ofText value) }
  | .outputDirectory => .ok { options with outputDirectory := some (.ofText value) }
  | .help | .debug => .ok options

/-- Takes an option without a value. -/
def setFlag (options : Options) (o : CommandOption) : Except CommandExit Options :=
  if o = .help then .error .help else .ok { options with debug := true }

/-- What is refused of the text behind a short option, which may be more short options: a value,
or a dash and all behind it.  Any other character ends the options. -/
def refusedTail? : List Char → Option (List Char)
  | [] => none
  | c :: rest =>
    if c = '=' then some rest
    else if c = '-' then some (c :: rest)
    else if (CommandOption.ofName? (String.ofList ['-', c])).isSome then refusedTail? rest
    else none

/-- Takes an option that has no value, though something may be attached to it. -/
def takeFlag (options : Options) (o : CommandOption) : Attached → Except CommandExit Options
  | .nothing => setFlag options o
  | .value value => .error (.usage (.ignoredValue o value))
  | .tail text =>
    match refusedTail? text.toList with
    | some refused => .error (.usage (.ignoredValue o (String.ofList refused)))
    | none => setFlag options o

/-- Reads arguments into options; the texts that nothing takes are gathered. -/
def readArguments (options : Options) (left : List String) :
    List Argument → Except CommandExit Options
  | [] => if left.isEmpty then .ok options else .error (.usage (.unrecognized left))
  | .option o _ attached :: rest =>
    if o.takesValue then
      match attached, rest with
      | .value value, rest | .tail value, rest | .nothing, .word value :: rest => do
        readArguments (← (options.set o value).mapError .usage) left rest
      | .nothing, _ => .error (.usage (.expectedValue o))
    else do readArguments (← options.takeFlag o attached) left rest
  | other :: rest => readArguments options (left ++ [other.text]) rest

/-- The options that arguments give. -/
def read (arguments : List String) : Except CommandExit Options := do
  initial.readArguments [] (← (Argument.ofTexts arguments).mapError .usage)

/-- The settings of a settings file with those that the options give in their stead. -/
def override (options : Options) (s : Settings) : Settings :=
  { s with
    policy := options.policy.getD s.policy
    songsDirectory := options.songsDirectory.getD s.songsDirectory
    outputDirectory := options.outputDirectory.getD s.outputDirectory }

/-- The settings that the server is started with. -/
def settings (options : Options) (tree : FileTree) : Except SettingsError Settings :=
  (Settings.loadDefault tree options.config).map options.override

end Options

end MusicMacro
