import ChainQuery.Service.Message
import ChainQuery.Settings.Loading

/-!
# The program

Loads the settings – from the file that is named on the command line, if one is, and from the
environment – and serves requests. Connections are somebody else's business: requests arrive
on the standard input, responses leave on the standard output, and the address at which the
service is to be found is only announced.
-/

namespace ChainQuery

namespace Program

/-- Writes a line for whoever runs the program. -/
def announce (line : Text) : IO Unit := do
  (← IO.getStderr).putStrLn (String.ofList line)

/-- The content of a file, if it is there. -/
def contentOf (name : Text) : IO (Option Text) :=
  try
    let content ← IO.FS.readFile (String.ofList name)
    pure (some content.toList)
  catch _ => pure none

/-- The contents of those files that are there. -/
def filesOf (names : List Text) : IO (List (Text × Text)) :=
  names.filterMapM fun name => do
    pure ((← contentOf name).map fun content => (name, content))

/-- The values of those variables that are set. -/
def variablesOf (names : List Text) : IO (List (Text × Text)) :=
  names.filterMapM fun name => do
    pure ((← IO.getEnv (String.ofList name)).map fun value => (name, value.toList))

/-- The settings. -/
def settings (file : Option Text) : IO (Except Settings.Problem Settings) := do
  let files ← filesOf (Settings.candidates file)
  let environment ← variablesOf Settings.variableNames
  let disk (name : Text) : Option Text := (files.find? fun f => f.1 == name).map Prod.snd
  pure (Settings.load disk file environment)

/-- The lines of a head. -/
partial def headLines (input : IO.FS.Stream) (before : List Text) : IO (List Text) := do
  let line := Text.trimEnd (← input.getLine).toList
  if line.isEmpty then pure before.reverse else headLines input (line :: before)

/-- As many bytes as are asked for, or as many as there are. -/
partial def bytes (input : IO.FS.Stream) (count : Nat) (before : ByteArray) : IO ByteArray := do
  let more ← input.read (count - before.size).toUSize
  let all := before ++ more
  if more.isEmpty || count ≤ all.size then pure all else bytes input count all

/-- Serves requests until there are no more. -/
partial def serveAll (input output : IO.FS.Stream) : IO Unit := do
  let lines ← headLines input []
  unless lines.isEmpty do
    match Service.Head.ofLines? lines with
    | none => output.putStr (String.ofList Service.noRequest.message)
    | some head =>
      let content ← bytes input (head.length?.getD 0) ByteArray.empty
      let body := ((String.fromUTF8? content).map String.toList).getD []
      let response := ((head.toRequest? body).map Service.serve).getD Service.noRequest
      output.putStr (String.ofList response.message)
      output.flush
      serveAll input output

end Program

end ChainQuery

open ChainQuery in
/-- Runs the service with the settings of the file that is named, if one is. -/
def main (arguments : List String) : IO UInt32 := do
  match ← Program.settings (arguments.head?.map String.toList) with
  | .error problem =>
    Program.announce problem.failure.message
    pure 1
  | .ok settings =>
    Program.announce ("listening on ".toList ++ settings.address)
    Program.serveAll (← IO.getStdin) (← IO.getStdout)
    pure 0
