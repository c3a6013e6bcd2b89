import Worksite.Text

/-!
Writing TOML: texts in the plainest form that holds them, and documents as sections of one line
for each key.
-/
namespace Worksite.Toml.Printer

abbrev Chars := List Char

/-- What decides how a text is written. -/
structure Traits where
  /-- The longest run of single quote marks. -/
  singles : Nat := 0
  /-- The longest run of double quote marks. -/
  doubles : Nat := 0
  backslash : Bool := false
  lineEnd : Bool := false
  control : Bool := false

def longestRun (quote : Char) : Nat → Nat → Chars → Nat
  | longest, _, [] => longest
  | longest, run, c :: rest =>
    if c = quote then longestRun quote (max longest (run + 1)) (run + 1) rest
    else longestRun quote longest 0 rest

def isControl (c : Char) : Bool := c ≠ '\t' && c ≠ '\n' && (c.toNat < 32 || c.toNat = 127)

def traits (s : Chars) : Traits where
  singles := longestRun '\'' 0 0 s
  doubles := longestRun '"' 0 0 s
  backslash := s.contains '\\'
  lineEnd := s.contains '\n'
  control := s.any isControl

inductive Form where
  | basic
  | literal
  | multiBasic
  | multiLiteral
  deriving DecidableEq, Repr

/-- The first form, in this order, that needs no escapes; if there is none, one with escapes. -/
def Form.of (t : Traits) : Form :=
  if !t.control && !t.backslash && t.doubles = 0 && !t.lineEnd then .basic
  else if !t.control && t.singles = 0 && !t.lineEnd then .literal
  else if !t.control && !t.backslash && t.doubles ≤ 2 then .multiBasic
  else if !t.control && t.singles ≤ 2 then .multiLiteral
  else if t.lineEnd then .multiBasic
  else .basic

def hexUpper (n : Nat) : Char := if n < 10 then Char.ofNat (48 + n) else Char.ofNat (55 + n)

def escapeCode (c : Char) : Chars :=
  let n := c.toNat
  ['\\', 'u', hexUpper (n / 4096 % 16), hexUpper (n / 256 % 16), hexUpper (n / 16 % 16),
    hexUpper (n % 16)]

/-- A character other than a quote mark, in a text of one line or of several. -/
def shown (several : Bool) (c : Char) : Chars :=
  if c = '\x08' then ['\\', 'b']
  else if c = '\t' then ['\\', 't']
  else if c = '\n' then (if several then ['\n'] else ['\\', 'n'])
  else if c = '\x0c' then ['\\', 'f']
  else if c = '\r' then ['\\', 'r']
  else if c = '\\' then ['\\', '\\']
  else if isControl c then escapeCode c
  else [c]

/-- The characters between the quote marks, where up to `most` double quote marks may follow one
another. -/
def escaped (several : Bool) (most : Nat) : Nat → Chars → Chars
  | _, [] => []
  | run, c :: rest =>
    if c = '"' then
      if run < most then '"' :: escaped several most (run + 1) rest
      else '\\' :: '"' :: escaped several most 0 rest
    else shown several c ++ escaped several most 0 rest

def text (s : Chars) : Chars :=
  let t := traits s
  let opening : Chars := if t.lineEnd then ['\n'] else []
  match Form.of t with
  | .basic => '"' :: (escaped false 0 0 s ++ ['"'])
  | .literal => '\'' :: (s ++ ['\''])
  | .multiBasic => ['"', '"', '"'] ++ opening ++ escaped true 2 0 s ++ ['"', '"', '"']
  | .multiLiteral => ['\'', '\'', '\''] ++ opening ++ s ++ ['\'', '\'', '\'']

/-- A value that a line can hold. -/
inductive Scalar where
  | text (s : String)
  | bool (b : Bool)
  | nat (n : Nat)

def Scalar.chars : Scalar → Chars
  | .text s => Printer.text s.toList
  | .bool b => (if b then "true" else "false").toList
  | .nat n => (toString n).toList

structure Section where
  name : String
  lines : List (String × Scalar)

def Section.chars (x : Section) : Chars :=
  '[' :: (x.name.toList ++ [']', '\n'] ++
    x.lines.flatMap fun (k, v) => k.toList ++ " = ".toList ++ v.chars ++ ['\n'])

/-- Sections with a blank line between them. -/
def document (sections : List Section) : String :=
  String.ofList (['\n'].intercalate (sections.map Section.chars))

end Worksite.Toml.Printer
