import Worksite.Symbol.Declaration

/-!
Dependencies: the modules that a file imports, as written. They are found line by line, and each
is kept where it occurs first. A graph holds the files of a scan with their dependencies.
-/
namespace Worksite

structure DependencyEdge where
  source : String
  target : String
  deriving DecidableEq, Repr

structure DependencyGraph where
  nodes : List String := []
  edges : List DependencyEdge := []
  deriving DecidableEq, Repr

namespace DependencyGraph

def add (g : DependencyGraph) (file : String) (targets : List String) : DependencyGraph where
  nodes := g.nodes ++ [file]
  edges := g.edges ++ targets.map fun target => { source := file, target }

def targetsOf (g : DependencyGraph) (file : String) : List String :=
  (g.edges.filter (·.source = file)).map (·.target)

end DependencyGraph

namespace Dependency

open Text (Chars)

/-- The elements of a list, each where it occurs first. -/
def distinct {α : Type} [DecidableEq α] (l : List α) : List α :=
  l.foldl (fun kept a => if a ∈ kept then kept else kept ++ [a]) []

/-! Python. -/

def uncommented (s : Chars) : Chars := s.takeWhile (· ≠ '#')

def isParenthesis (c : Char) : Bool := c = '(' || c = ')'

def trimParentheses (s : Chars) : Chars :=
  ((s.dropWhile isParenthesis).reverse.dropWhile isParenthesis).reverse

/-- The modules of a Python line that opens with `import` or `from`. -/
def pythonLine (line : Chars) : List Chars :=
  let line := Text.trim line
  match Text.afterLead? "import ".toList line with
  | some rest =>
    let firsts := ((uncommented rest).splitOnP (· = ',')).filterMap fun part =>
      (Text.words part).head?
    (firsts.map trimParentheses).filter (· ≠ [])
  | none =>
    match (Text.afterLead? "from ".toList line).map fun rest => Text.words (uncommented rest) with
    | some (name :: word :: _) => if word = "import".toList then [name] else []
    | _ => []

/-! JavaScript and TypeScript. -/

def isQuote (c : Char) : Bool := c = '\'' || c = '"'

/-- A quoted text that is not blank, and what follows; either quote closes either. -/
def specifier? : Chars → Option (Chars × Chars)
  | c :: rest =>
    if isQuote c then
      let name := rest.takeWhile (!isQuote ·)
      match rest.dropWhile (!isQuote ·) with
      | _ :: rest => if name.isEmpty then none else some (name, rest)
      | [] => none
    else none
  | [] => none

/-- The specifier behind `import … from` or `export … from`. -/
def fromLine? (line : Chars) : Option Chars := do
  let s := Text.trimStart line
  let rest ← (Text.afterLead? "import".toList s).or (Text.afterLead? "export".toList s)
  guard (!rest.head?.any Unicode.isWord)
  let clause := Text.trimEnd (rest.takeWhile (!isQuote ·))
  let before ← Text.afterLead? "morf".toList clause.reverse
  guard (!before.head?.any Unicode.isWord)
  let (name, _) ← specifier? (rest.dropWhile (!isQuote ·))
  some name

/-- The specifier right behind `import`. -/
def importLine? (line : Chars) : Option Chars := do
  let rest ← Text.afterLead? "import".toList (Text.trimStart line)
  let (name, _) ← specifier? (Text.trimStart rest)
  some name

/-- A call of `require` or `import` with one quoted argument, and what follows. -/
def call? (s : Chars) : Option (Chars × Chars) := do
  let rest ← (Text.afterLead? "require".toList s).or (Text.afterLead? "import".toList s)
  match Text.trimStart rest with
  | '(' :: rest =>
    let (name, rest) ← specifier? (Text.trimStart rest)
    match Text.trimStart rest with
    | ')' :: rest => some (name, rest)
    | _ => none
  | _ => none

/-- The arguments of all such calls, left to right; `skip` characters belong to the last one. -/
def calls : Option Char → Nat → Chars → List Chars
  | _, _, [] => []
  | _, skip + 1, c :: rest => calls (some c) skip rest
  | before, 0, c :: rest =>
    match if before.any Unicode.isWord then none else call? (c :: rest) with
    | some (name, after) => name :: calls (some c) (rest.length - after.length) rest
    | none => calls (some c) 0 rest

def scriptLine (line : Chars) : List Chars :=
  if "//".toList.isPrefixOf (Text.trimStart line) then []
  else ((fromLine? line).or (importLine? line)).toList ++ calls none 0 line

end Dependency

/-- The modules a text imports, as written, each once. -/
def extractDependencies (text : String) (language : Language) : List String :=
  let perLine (f : List Char → List (List Char)) :=
    Dependency.distinct (((Text.lines text.toList).flatMap f).map String.ofList)
  match language.extraction with
  | .parsed => perLine Dependency.pythonLine
  | .pattern => perLine Dependency.scriptLine
  | .unsupported => []

end Worksite
