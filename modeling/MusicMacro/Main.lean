import MusicMacro.CommandLine
import MusicMacro.Document.JsonReader
import MusicMacro.Tool.Workspace

/-!
# The program

Serves the tools over standard input and output.  Each line is a JSON map with the name of a
tool, its arguments and the moment of the call; each answer is a line of JSON.  Songs and files
last as long as the program runs.
-/

namespace MusicMacro

/-- The moment of calls that do not tell theirs. -/
def firstMoment : Timestamp := ⟨1970, 1, 1, 0, 0, 0, 0, some 0⟩

/-- The answer to a line. -/
def answerLine (w : Workspace) (line : String) : Workspace × Document :=
  match Document.ofJson line with
  | .error e => (w, failure e.message)
  | .ok d =>
    let entries : Fields := match d with | .map entries => entries | _ => []
    let arguments : Fields :=
      match Document.lookup? "args" entries with
      | some (.map arguments) => arguments
      | _ => []
    let now := ((Document.lookup? "now" entries).bind fun d => (Song.moment d).toOption).getD
      firstMoment
    match ToolCall.ofArguments? ((ToolCall.textArgument? entries "tool").getD "") arguments with
    | none => (w, failure "There is no such tool with these arguments.")
    | some call => w.answer now call

/-- Answers lines until they end. -/
partial def serve (input output : IO.FS.Stream) (w : Workspace) : IO Unit := do
  let line ← input.getLine
  if line.isEmpty then return
  let (w, d) := answerLine w line
  output.putStrLn (d.jsonText .line)
  output.flush
  serve input output w

end MusicMacro

open MusicMacro in
def main (arguments : List String) : IO UInt32 := do
  let complain (text : String) (code : UInt32) : IO UInt32 := do
    (← IO.getStderr).putStrLn text
    return code
  match Options.read arguments with
  | .error exit => complain exit.message (UInt32.ofNat exit.code)
  | .ok options =>
    let tree := FileTree.ofDirectories [] []
    match options.settings tree with
    | .error e => complain e.message 1
    | .ok settings =>
      if options.transport = .stdio then
        serve (← IO.getStdin) (← IO.getStdout) (.ofSettings settings tree)
        return 0
      else complain "Only the transport stdio is served." 1
