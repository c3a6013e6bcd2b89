import Worksite.Toml

/-!
Documents while they are put together. A table remembers how it came to be, since a table that was
opened by its header, or written between braces, is not opened again.
-/
namespace Worksite.Toml

/-- How a table came to be. -/
inductive Origin where
  /-- By a header of its own, or as the root. -/
  | header
  /-- On the way to a table below it. -/
  | onTheWay
  /-- By a dotted key. -/
  | dotted
  deriving DecidableEq

inductive Node where
  | leaf (v : Toml)
  | table (origin : Origin) (members : List (String × Node))
  | tables (items : List (List (String × Node)))

abbrev Members := List (String × Node)

namespace Members

def replace (k : String) (n : Node) (m : Members) : Members :=
  m.map fun (k', n') => if k' = k then (k, n) else (k', n')

/-- Edits the table at the end of a path; tables that are missing are made in passing. -/
def edit (dotted : Bool) (change : Origin → Members → Option Members) :
    List String → Origin → Members → Option Members
  | [], origin, m => change origin m
  | k :: path, _, m =>
    match m.lookup k with
    | none => do
      let origin := if dotted then .dotted else .onTheWay
      let below ← edit dotted change path origin []
      some (m ++ [(k, .table origin below)])
    | some (.table origin below) =>
      if dotted && origin = .header then none
      else do
        let below ← edit dotted change path origin below
        some (replace k (.table origin below) m)
    | some (.tables items) => do
      let last ← items.getLast?
      let below ← edit dotted change path .header last
      some (replace k (.tables (items.dropLast ++ [below])) m)
    | some (.leaf _) => none

/-- Adds a value under a dotted key. A dotted key neither extends a table that another form made,
nor does another form extend one that a dotted key made. -/
def assign (path : List String) (key : String) (v : Toml) : Origin → Members → Option Members :=
  edit true (fun origin m =>
    if (origin = .dotted) = path.isEmpty || (m.lookup key).isSome then none
    else some (m ++ [(key, .leaf v)])) path

/-- Opens the table of a header. -/
def openTable (path : List String) (key : String) : Members → Option Members :=
  edit false (fun _ m =>
    match m.lookup key with
    | none => some (m ++ [(key, .table .header [])])
    | some (.table .onTheWay below) => some (replace key (.table .header below) m)
    | some _ => none) path .header

/-- Adds a table to the list of tables of a header. -/
def addTable (path : List String) (key : String) : Members → Option Members :=
  edit false (fun _ m =>
    match m.lookup key with
    | none => some (m ++ [(key, .tables [[]])])
    | some (.tables items) => some (replace key (.tables (items ++ [[]])) m)
    | some _ => none) path .header

end Members

mutual

def Node.value : Node → Toml
  | .leaf v => v
  | .table _ members => .table (Node.values members)
  | .tables items => .array (Node.tableValues items)

def Node.values : List (String × Node) → List (String × Toml)
  | [] => []
  | (k, n) :: rest => (k, n.value) :: Node.values rest

def Node.tableValues : List (List (String × Node)) → List Toml
  | [] => []
  | m :: rest => .table (Node.values m) :: Node.tableValues rest

end

/-- A line of a document. -/
inductive Statement where
  | openTable (path : List String) (key : String)
  | addTable (path : List String) (key : String)
  | assign (path : List String) (key : String) (v : Toml)

/-- Puts the lines together, each in the table of the last header. -/
def assemble : List String → Members → List Statement → Option Members
  | _, m, [] => some m
  | _, m, .openTable path key :: rest => do
    assemble (path ++ [key]) (← m.openTable path key) rest
  | _, m, .addTable path key :: rest => do
    assemble (path ++ [key]) (← m.addTable path key) rest
  | here, m, .assign path key v :: rest => do
    let m ← m.edit false (Members.assign path key v) here .header
    assemble here m rest

/-- The value of a table written between braces. -/
def inline? (pairs : List (List String × String × Toml)) : Option Toml := do
  let m ← pairs.foldlM (fun m (path, key, v) => Members.assign path key v .header m) []
  some (.table (Node.values m))

end Worksite.Toml
