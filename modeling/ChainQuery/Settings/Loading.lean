import ChainQuery.Failure
import ChainQuery.Settings.Environment
import ChainQuery.Settings.Toml.Document

/-!
# Loading settings

The settings of the service, and where they come from. There is a default for each of them,
which a file may replace, and a variable of the environment may replace either.

A file that is asked for has to be there; when none is asked for, `eql.toml` is read if it is
there. The name of a file may be given without its ending. A file that is read has to be well
written, and the settings that come out have to be usable: a port that can be listened on and
an address that is not blank.
-/

namespace ChainQuery

/-- The settings of the service. -/
structure Settings where
  /-- The address at which the service listens. -/
  bindAddress : Text
  /-- The port at which the service listens, below 65536. -/
  port : Nat
  /-- What is written to the log. -/
  logFilter : Text
  deriving DecidableEq, Repr

namespace Settings

/-- An address and a port, as they are written together. -/
def joinAddress (bindAddress : Text) (port : Nat) : Text :=
  bindAddress ++ ':' :: Digits.ofInt port

/-- Where the service listens. -/
def address (s : Settings) : Text := joinAddress s.bindAddress s.port

/-- Why settings cannot be loaded. -/
inductive Problem
  /-- The file that was asked for is not there, or is none that can be read. -/
  | noFile (name : Text)
  /-- The file is not well written. -/
  | malformedFile (name : Text)
  /-- A setting is missing, or has a value that it cannot have. -/
  | unfit
  /-- The port is zero. -/
  | zeroPort
  /-- There is nothing in the address but white space. -/
  | blankAddress
  deriving DecidableEq, Repr

/-- What a problem is put down to. -/
def Problem.reason : Problem → Text
  | noFile name => "no settings file ".toList ++ name
  | malformedFile name => "malformed settings file ".toList ++ name
  | unfit => "a setting is missing or has an unfit value".toList
  | zeroPort => "server.port must be > 0".toList
  | blankAddress => "server.bind_address must not be empty".toList

/-- A problem with the settings as a failure of the library. -/
def Problem.failure (problem : Problem) : Failure := .config problem.reason

/-! ### Layers -/

/-- The settings that are not given otherwise. -/
def defaults : List (Text × Value) :=
  [("server.bind_address".toList, .text "127.0.0.1".toList),
   ("server.port".toList, .integer 3000),
   ("log.filter".toList, .text "info".toList)]

/-- A tree of values with the entries of one more layer put into it. -/
def putLayer (tree : Value) (layer : List (Text × Value)) : Value :=
  layer.foldl (fun tree entry => tree.put entry.1 entry.2) tree

/-- The tree that some layers make, each put upon those before it. -/
def treeOf (layers : List (List (Text × Value))) : Value := layers.foldl putLayer (.table [])

/-- The defaults with what is given put upon them. The layers that are given are put together
first, so what one of them replaces in another never meets a default. -/
def settle (given : List (List (Text × Value))) : Value :=
  treeOf [defaults, (treeOf given).entries]

/-! ### Files -/

/-- The file that is read when none is asked for. -/
def defaultFile : Text := "eql.toml".toList

/-- The ending of the files that can be read. -/
def fileEnding : Text := ".toml".toList

/-- Whether a file has the ending, after a name of its own. -/
def hasFileEnding (name : Text) : Bool :=
  let base := (Text.pieces '/' name).getLastD []
  Text.endsIn fileEnding base && base != fileEnding

/-- A name, written from its end, without what only a directory can have at the end of its name:
slashes, and points between them. -/
def dropSlashes : (reversed : Text) → Text
  | '/' :: s => dropSlashes s
  | '.' :: '/' :: s => dropSlashes s
  | s => s

/-- A name to which the ending can be added. The directory itself and the one above it have
none. -/
def stem? (name : Text) : Option Text :=
  let stem := (dropSlashes name.reverse).reverse
  if (texts ["", ".", ".."]).contains ((Text.pieces '/' stem).getLastD []) then none
  else some stem

/-- The files that may be read for the name of one. -/
def candidates (file : Option Text) : List Text :=
  let name := file.getD defaultFile
  name :: ((stem? name).map (· ++ fileEnding)).toList

/-- The entries of a file, where `disk` gives the content of the files that are there. A file of
the very name goes before one with the ending added. -/
def fileLayer (disk : Text → Option Text) (name : Text) :
    Except Problem (List (Text × Value)) :=
  let content :=
    match disk name with
    | some content => if hasFileEnding name then some content else none
    | none => (stem? name).bind fun stem => disk (stem ++ fileEnding)
  match content with
  | none => .error (.noFile name)
  | some content =>
    match Toml.read? (Text.dropMark content) with
    | some entries => .ok entries
    | none => .error (.malformedFile name)

/-- The layer of the file that is asked for, or of the default file. That one may be
missing. -/
def chosenLayer (disk : Text → Option Text) (file : Option Text) :
    Except Problem (List (Text × Value)) :=
  match file with
  | some name => fileLayer disk name
  | none =>
    match fileLayer disk defaultFile with
    | .error (.noFile _) => .ok []
    | layer => layer

/-! ### Settings from a tree -/

/-- A value as a port. -/
def portOf? (v : Value) : Option Nat := v.natural?.filter (· < 0x10000)

/-- The settings that a tree of values holds. -/
def ofValue? (tree : Value) : Option Settings :=
  match tree.record? ["server".toList, "log".toList] with
  | some [server, log] =>
    match server.record? ["bind_address".toList, "port".toList],
      log.record? ["filter".toList] with
    | some [bindAddress, port], some [filter] => do
      let bindAddress ← bindAddress.text?
      let port ← portOf? port
      let filter ← filter.text?
      some ⟨bindAddress, port, filter⟩
    | _, _ => none
  | _ => none

/-- Settings that can be used, and otherwise what is wrong with them: with the port first. -/
def check (s : Settings) : Except Problem Settings :=
  if s.port = 0 then .error .zeroPort
  else if (Text.trim s.bindAddress).isEmpty then .error .blankAddress
  else .ok s

/-- **Loads the settings** from the file that is asked for and from the environment. -/
def load (disk : Text → Option Text) (file : Option Text) (environment : List (Text × Text)) :
    Except Problem Settings :=
  match chosenLayer disk file with
  | .error problem => .error problem
  | .ok layer =>
    match ofValue? (settle [layer, Environment.entries environment]) with
    | some s => s.check
    | none => .error .unfit

/-! ### Variables -/

/-- The names of the variables that give the settings one by one. -/
def variableNames : List Text :=
  texts ["EQL__SERVER__BIND_ADDRESS", "EQL__SERVER__PORT", "EQL__LOG__FILTER"]

end Settings

end ChainQuery
