import ChainQuery.Settings.Toml.Statement

/-!
# TOML: documents

The tables that the statements of a file make. A table may be mentioned before it is written,
and its parts may be written in several places, but **nothing is written twice**; how a table
came into being decides what may still happen to it:

| form | how the table came into being | what may still happen |
|---|---|---|
| `implicit` | on the way to a table with a header | a header of its own, or keys with points |
| `dotted` | on the way of a key with points | more keys with points |
| `explicit` | by its header | nothing but the entries below its header |

A value is finished where it is written, and so is a table that is written as one.
-/

namespace ChainQuery

namespace Settings

namespace Toml

/-- How a table came into being. -/
inductive Form
  /-- On the way to a table that has a header. -/
  | implicit
  /-- On the way of a key with points. -/
  | dotted
  /-- By its own header. -/
  | explicit
  deriving DecidableEq, Repr

/-- What a name stands for while a file is read. -/
inductive Node
  /-- A value. -/
  | value (v : Value)
  /-- A table. -/
  | table (form : Form) (entries : List (Text × Node))
  /-- A list of tables, each written below a header of its own, the last one first. -/
  | tables (last : List (Text × Node)) (before : List (List (Text × Node)))

/-- What the names of a table stand for. -/
abbrev Nodes := List (Text × Node)

/-! ### Changing tables -/

/-- Changes what one name stands for, or gives it something to stand for; unless the change
is not possible. -/
def changeNode? (name : Text) (change : Option Node → Option Node) : Nodes → Option Nodes
  | [] => (change none).map fun node => [(name, node)]
  | (other, node) :: rest =>
    if other = name then (change (some node)).map fun node => (name, node) :: rest
    else (changeNode? name change rest).map ((other, node) :: ·)

/-- Changes the table to which a key leads, creating the tables on the way. Headers go through
every table, and in a list through the last; keys with points only through tables that have no
header. -/
def within? (dotted : Bool) (change : Form → Nodes → Option Nodes) :
    Key → Form → Nodes → Option Nodes
  | [], form, nodes => change form nodes
  | name :: key, _, nodes =>
    changeNode? name
      (fun
        | none =>
          let form := if dotted then .dotted else .implicit
          (within? dotted change key form []).map (.table form)
        | some (.table form nodes) =>
          if dotted ∧ form = .explicit then none
          else (within? dotted change key form nodes).map (.table form)
        | some (.tables last before) =>
          (within? dotted change key .explicit last).map fun last => .tables last before
        | some (.value _) => none)
      nodes

/-- Puts a header's table where nothing was, or makes one explicit that was only passed
through. -/
def openTable? : Option Node → Option Node
  | none => some (.table .explicit [])
  | some (.table .implicit nodes) => some (.table .explicit nodes)
  | some _ => none

/-- Begins one more table in a list of tables. -/
def openItem? : Option Node → Option Node
  | none => some (.tables [] [])
  | some (.tables last before) => some (.tables [] (last :: before))
  | some _ => none

/-- Puts a value where nothing was. -/
def place? (v : Value) : Option Node → Option Node
  | none => some (.value v)
  | some _ => none

/-- Gives a value to a key within a table. A key with points must not end in a table that has a
header of its own. -/
def assign? (key : Key) (v : Value) (nodes : Nodes) : Option Nodes :=
  match key.reverse with
  | [] => none
  | name :: way =>
    within? true
      (fun form nodes =>
        if way.isEmpty ∨ form ≠ .explicit then changeNode? name (place? v) nodes else none)
      way.reverse .explicit nodes

/-- Applies a header: the change that it makes at the end of its key. -/
def applyHeader? (change : Option Node → Option Node) (key : Key) (nodes : Nodes) :
    Option Nodes :=
  match key.reverse with
  | [] => none
  | name :: way =>
    within? false (fun _ nodes => changeNode? name change nodes) way.reverse .explicit nodes

/-! ### Values -/

mutual

/-- The value of a node. -/
def Node.value' : Node → Value
  | .value v => v
  | .table _ nodes => .table (valuesOf nodes)
  | .tables last before => .list (tablesOf before [.table (valuesOf last)])

/-- The values of the names of a table. -/
def valuesOf : List (Text × Node) → List (Text × Value)
  | [] => []
  | (name, node) :: rest => (name, node.value') :: valuesOf rest

/-- The tables of a list, in the order in which they were written, before some others. -/
def tablesOf : List (List (Text × Node)) → List Value → List Value
  | [], later => later
  | nodes :: before, later => tablesOf before (.table (valuesOf nodes) :: later)

end

mutual

/-- The value that a written value stands for, if the tables in it agree with themselves. -/
def Term.value? : Term → Option Value
  | .scalar v => some v
  | .array items => (itemValues? items).map Value.list
  | .inline entries => (inlineNodes? entries []).map fun nodes => .table (valuesOf nodes)

/-- The values of the items of an array. -/
def itemValues? : List Term → Option (List Value)
  | [] => some []
  | item :: rest => do
    let v ← item.value?
    let values ← itemValues? rest
    some (v :: values)

/-- The table that the entries of a written table make, after some others. -/
def inlineNodes? : List (Key × Term) → Nodes → Option Nodes
  | [], nodes => some nodes
  | (key, term) :: rest, nodes => do
    let v ← term.value?
    let nodes ← assign? key v nodes
    inlineNodes? rest nodes

end

/-! ### Documents -/

/-- A document as far as it has been read. -/
structure Document where
  /-- What its names stand for. -/
  nodes : Nodes := []
  /-- The table to which entries belong. -/
  current : Key := []

/-- A document after one more statement, if that agrees with it. -/
def Document.step? (doc : Document) : Statement → Option Document
  | .header key => (applyHeader? openTable? key doc.nodes).map fun nodes => ⟨nodes, key⟩
  | .listHeader key => (applyHeader? openItem? key doc.nodes).map fun nodes => ⟨nodes, key⟩
  | .entry key term => do
    let v ← term.value?
    let nodes ← within? false (fun _ nodes => assign? key v nodes) doc.current .explicit doc.nodes
    some { doc with nodes := nodes }

/-- **The entries of a file**, if it is written as it should be. -/
def read? (file : Text) : Option (List (Text × Value)) := do
  let statements ← statements? file
  let doc ← statements.foldlM Document.step? {}
  some (valuesOf doc.nodes)

end Toml

end Settings

end ChainQuery
