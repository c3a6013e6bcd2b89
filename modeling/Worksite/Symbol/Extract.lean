import Worksite.Symbol.Declaration
import Worksite.Python.Statement

/-!
The symbols of a file. Python is parsed, and a file with an error has none; JavaScript and
TypeScript are searched line by line.
-/
namespace Worksite

namespace Python

def Construct.symbolKind? : Construct → Option SymbolKind
  | .functionDefinition => some .function
  | .classDefinition => some .class
  | _ => none

/-- The definition a node makes by itself, if it has a name. -/
def Tree.symbol? (file : String) : Tree → Option Symbol
  | .node construct name row _ => do
    let kind ← construct.symbolKind?
    let name ← name
    some { name, kind, language := .python, file, line := UInt32.ofNat (row + 1) }

def Tree.children : Tree → List Tree
  | .node _ _ _ children => children

mutual

def Tree.size : Tree → Nat
  | .node _ _ _ children => 1 + Tree.sizes children

def Tree.sizes : List Tree → Nat
  | [] => 0
  | t :: rest => t.size + Tree.sizes rest

end

theorem Tree.size_eq (t : Tree) : t.size = 1 + Tree.sizes t.children := by
  cases t
  rfl

theorem Tree.sizes_append (a b : List Tree) : Tree.sizes (a ++ b) = Tree.sizes a + Tree.sizes b := by
  induction a with
  | nil => simp [Tree.sizes]
  | cons t rest ih => simp [Tree.sizes, ih, Nat.add_assoc]

/-- Visits the trees of a stack, each before the trees inside it. -/
def Tree.collect (file : String) : List Tree → List Symbol
  | [] => []
  | t :: stack => (t.symbol? file).toList ++ Tree.collect file (t.children ++ stack)
termination_by stack => Tree.sizes stack
decreasing_by
  rw [Tree.sizes_append]
  simp [Tree.sizes, Tree.size_eq t]

end Python

/-- The symbols of a text, in the order they are written. -/
def extractSymbols (file text : String) (language : Language) : List Symbol :=
  match language.extraction with
  | .parsed =>
    match Python.Tree.ofText text with
    | some tree => Python.Tree.collect file [tree]
    | none => []
  | .pattern =>
    (Declaration.ofText text.toList).map fun (kind, name, line) =>
      { name := String.ofList name, kind, language, file, line := UInt32.ofNat line }
  | .unsupported => []

end Worksite
