import Worksite.Language
import Worksite.Text

/-!
Symbols: the functions and classes of source files, and tables of them. A table is searched by
kind, by language, and by a part of the name in which case does not matter.
-/
namespace Worksite

inductive SymbolKind where
  | function
  | «class»
  deriving DecidableEq, Repr

def SymbolKind.tag : SymbolKind → String
  | .function => "function"
  | .class => "class"

def SymbolKind.ofTag? : String → Option SymbolKind
  | "function" => some .function
  | "class" => some .class
  | _ => none

/-- What is said of a tag that is no kind. -/
def SymbolKind.unknown (tag : String) : String :=
  "unknown symbol kind " ++ Text.quoted tag ++ ", expected \"function\" or \"class\""

/-- A definition, the file it stands in, and its line, counted from one. -/
structure Symbol where
  name : String
  kind : SymbolKind
  language : Language
  file : String
  line : UInt32
  deriving DecidableEq, Repr

/-- What is not set matches everything. -/
structure SymbolQuery where
  kind : Option SymbolKind := none
  name : Option String := none
  language : Option Language := none
  deriving DecidableEq, Repr

/-- Whether a name contains `part`, whatever the case of either. -/
def nameContains (name part : String) : Bool :=
  Text.isInfixOf (Text.lower part.toList) (Text.lower name.toList)

def SymbolQuery.admits (q : SymbolQuery) (s : Symbol) : Bool :=
  q.kind.all (· = s.kind) && q.language.all (· = s.language) &&
    q.name.all (nameContains s.name ·)

/-- Symbols in the order they came, and for each file the places of its symbols among them. -/
structure SymbolTable where
  symbols : List Symbol := []
  places : List (String × List Nat) := []
  deriving DecidableEq, Repr

namespace SymbolTable

/-- Notes the place `i` under `file`. -/
def note (file : String) (i : Nat) : List (String × List Nat) → List (String × List Nat)
  | [] => [(file, [i])]
  | (f, is) :: rest => if f = file then (f, is ++ [i]) :: rest else (f, is) :: note file i rest

def push (t : SymbolTable) (s : Symbol) : SymbolTable where
  symbols := t.symbols ++ [s]
  places := note s.file t.symbols.length t.places

def insert (t : SymbolTable) (symbols : List Symbol) : SymbolTable := symbols.foldl push t

def search (t : SymbolTable) (q : SymbolQuery) : List Symbol := t.symbols.filter q.admits

def inFile (t : SymbolTable) (file : String) : List Symbol :=
  match t.places.lookup file with
  | some is => is.filterMap (t.symbols[·]?)
  | none => []

def size (t : SymbolTable) : Nat := t.symbols.length

def isEmpty (t : SymbolTable) : Bool := t.symbols.isEmpty

def fileCount (t : SymbolTable) : Nat := t.places.length

def countOf (t : SymbolTable) (k : SymbolKind) : Nat := t.symbols.countP (·.kind = k)

def summary (t : SymbolTable) : String :=
  toString t.size ++ " symbols in " ++ toString t.fileCount ++ " files (" ++
    toString (t.countOf .function) ++ " functions, " ++ toString (t.countOf .class) ++ " classes)"

end SymbolTable

end Worksite
