import Worksite.Symbol

/-!
Declarations told by the form of a line, in JavaScript and TypeScript: functions, functions and
arrows bound to a name, and classes. At most one is found on a line.
-/
namespace Worksite.Declaration

open Text (Chars)

def isNameStart (c : Char) : Bool := c.isAlpha || c = '_' || c = '$'

def isNameRest (c : Char) : Bool := Unicode.isWord c || c = '$'

/-- The longest name at the start, and what follows. -/
def name? : Chars → Option (Chars × Chars)
  | c :: rest =>
    if isNameStart c then some (c :: rest.takeWhile isNameRest, rest.dropWhile isNameRest)
    else none
  | [] => none

/-- What follows a word and the white space behind it. -/
def afterWord? (word : String) (s : Chars) : Option Chars := do
  let rest ← Text.afterLead? word.toList s
  if rest.head?.any Unicode.isSpace then some (Text.trimStart rest) else none

def passWord (word : String) (s : Chars) : Chars := (afterWord? word s).getD s

def passChar (c : Char) : Chars → Chars
  | d :: rest => if d = c then rest else d :: rest
  | [] => []

/-- `export default async function* name` with all but `function name` left to choice. -/
def function? (s : Chars) : Option Chars := do
  let s := passWord "async" (passWord "default" (passWord "export" s))
  let rest ← Text.afterLead? "function".toList s
  let (name, _) ← name? (Text.trimStart (passChar '*' (Text.trimStart rest)))
  some name

/-- What follows a type behind a colon, if there is one, up to an equals sign. -/
def afterType? (s : Chars) : Option Chars :=
  match s with
  | ':' :: rest =>
    if (rest.takeWhile (· ≠ '=')).isEmpty then none else some (rest.dropWhile (· ≠ '='))
  | s => some s

/-- Parameters and an arrow, with a type between them left to choice. -/
def isArrow (s : Chars) : Bool :=
  let rest? : Option Chars :=
    match s with
    | '(' :: rest =>
      match rest.dropWhile (· ≠ ')') with
      | _ :: rest => some rest
      | [] => none
    | s => (name? s).map (·.2)
  match rest?.bind fun rest => afterType? (Text.trimStart rest) with
  | some ('=' :: '>' :: _) => true
  | _ => false

/-- The keyword `function`, or an arrow function. -/
def isFunctionValue (s : Chars) : Bool :=
  match Text.afterLead? "function".toList s with
  | some rest => !rest.head?.any Unicode.isWord || isArrow s
  | none => isArrow s

/-- `const name = function` or `const name = … =>`. -/
def bound? (s : Chars) : Option Chars := do
  let s := passWord "export" s
  let s ← (afterWord? "const" s).or ((afterWord? "let" s).or (afterWord? "var" s))
  let (name, rest) ← name? s
  match afterType? (Text.trimStart rest) with
  | some ('=' :: value) =>
    let value := Text.trimStart value
    if (afterWord? "async" value).any isFunctionValue || isFunctionValue value then some name
    else none
  | _ => none

/-- `export default abstract class name` with all but `class name` left to choice. -/
def class? (s : Chars) : Option Chars := do
  let s := passWord "abstract" (passWord "default" (passWord "export" s))
  let rest ← afterWord? "class" s
  let (name, _) ← name? rest
  some name

/-- The kind and name of what a line declares. -/
def ofLine (line : Chars) : Option (SymbolKind × Chars) :=
  let s := Text.trim line
  match (function? s).or (bound? s) with
  | some name => some (.function, name)
  | none => (class? s).map fun name => (.class, name)

/-- The declarations of a text, with their lines counted from one. -/
def ofText (text : Chars) : List (SymbolKind × Chars × Nat) :=
  (Text.lines text).zipIdx.filterMap fun (line, i) =>
    (ofLine line).map fun (kind, name) => (kind, name, i + 1)

end Worksite.Declaration
