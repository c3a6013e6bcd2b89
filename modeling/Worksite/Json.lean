import Worksite.Text

/-!
JSON values and their text. Members of an object keep their order; numbers are whole.
-/
namespace Worksite

inductive Json where
  | null
  | bool (b : Bool)
  | int (n : Int)
  | text (s : String)
  | array (items : List Json)
  | object (members : List (String × Json))
  deriving Repr, Inhabited

namespace Json

def nat (n : Nat) : Json := int n

def texts (l : List String) : Json := array (l.map text)

def option {α : Type} (f : α → Json) : Option α → Json
  | some a => f a
  | none => null

def hex4 (n : Nat) : List Char :=
  [Text.hexDigit (n / 4096 % 16), Text.hexDigit (n / 256 % 16), Text.hexDigit (n / 16 % 16),
   Text.hexDigit (n % 16)]

/-- Escapes for quote marks, backslashes and control characters; all else stands for itself. -/
def escapeChar (c : Char) : List Char :=
  match c with
  | '"' => ['\\', '"']
  | '\\' => ['\\', '\\']
  | '\x08' => ['\\', 'b']
  | '\x0c' => ['\\', 'f']
  | '\n' => ['\\', 'n']
  | '\r' => ['\\', 'r']
  | '\t' => ['\\', 't']
  | c => if c.toNat < 32 then '\\' :: 'u' :: hex4 c.toNat else [c]

def renderText (s : String) : List Char := '"' :: (s.toList.flatMap escapeChar ++ ['"'])

mutual

/-- The shortest text of a value. -/
def chars : Json → List Char
  | null => ['n', 'u', 'l', 'l']
  | bool true => ['t', 'r', 'u', 'e']
  | bool false => ['f', 'a', 'l', 's', 'e']
  | int n => (toString n).toList
  | text s => renderText s
  | array items => '[' :: charsOfItems items
  | object members => '{' :: charsOfMembers members

def charsOfItems : List Json → List Char
  | [] => [']']
  | [v] => chars v ++ [']']
  | v :: rest => chars v ++ ',' :: charsOfItems rest

def charsOfMembers : List (String × Json) → List Char
  | [] => ['}']
  | [(k, v)] => renderText k ++ ':' :: chars v ++ ['}']
  | (k, v) :: rest => renderText k ++ ':' :: chars v ++ ',' :: charsOfMembers rest

end

def render (v : Json) : String := String.ofList v.chars

def lineStart (depth : Nat) : List Char := '\n' :: List.replicate (2 * depth) ' '

mutual

/-- A value over several lines, two blanks deeper at each level. -/
def prettyChars (depth : Nat) : Json → List Char
  | array [] => ['[', ']']
  | array items => '[' :: prettyItems depth items
  | object [] => ['{', '}']
  | object members => '{' :: prettyMembers depth members
  | v => chars v

def prettyItems (depth : Nat) : List Json → List Char
  | [] => lineStart depth ++ [']']
  | [v] => lineStart (depth + 1) ++ prettyChars (depth + 1) v ++ lineStart depth ++ [']']
  | v :: rest => lineStart (depth + 1) ++ prettyChars (depth + 1) v ++ ',' :: prettyItems depth rest

def prettyMembers (depth : Nat) : List (String × Json) → List Char
  | [] => lineStart depth ++ ['}']
  | [(k, v)] =>
    lineStart (depth + 1) ++ renderText k ++ ':' :: ' ' :: prettyChars (depth + 1) v ++
      lineStart depth ++ ['}']
  | (k, v) :: rest =>
    lineStart (depth + 1) ++ renderText k ++ ':' :: ' ' :: prettyChars (depth + 1) v ++
      ',' :: prettyMembers depth rest

end

def pretty (v : Json) : String := String.ofList (v.prettyChars 0)

end Json

end Worksite
