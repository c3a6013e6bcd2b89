import Worksite.Unicode.Class
import Worksite.Unicode.Case

/-!
Text: lines, white space, lower case and quoting. A line ends at a line feed, and a carriage
return right before it belongs to the end.
-/
namespace Worksite.Text

abbrev Chars := List Char

/-- Lines with their line feeds; nothing is lost and no line is blank. -/
def splitLines : Chars → List Chars
  | [] => []
  | c :: rest =>
    if c = '\n' then [c] :: splitLines rest
    else
      match splitLines rest with
      | [] => [[c]]
      | line :: more => (c :: line) :: more

/-- A line without its end. -/
def dropLineEnd (line : Chars) : Chars :=
  if line.getLast? = some '\n' then
    let line := line.dropLast
    if line.getLast? = some '\r' then line.dropLast else line
  else line

def lines (text : Chars) : List Chars := (splitLines text).map dropLineEnd

def trimStart (s : Chars) : Chars := s.dropWhile Unicode.isSpace

def trimEnd (s : Chars) : Chars := (s.reverse.dropWhile Unicode.isSpace).reverse

def trim (s : Chars) : Chars := trimEnd (trimStart s)

/-- The words between white space. -/
def words (s : Chars) : List Chars := (s.splitOnP Unicode.isSpace).filter (· ≠ [])

/-- The rest of `s` behind `lead`. -/
def afterLead? (lead s : Chars) : Option Chars :=
  if lead.isPrefixOf s then some (s.drop lead.length) else none

def isInfixOf (part : Chars) : Chars → Bool
  | [] => part.isEmpty
  | c :: rest => part.isPrefixOf (c :: rest) || isInfixOf part rest

/-- Whether the nearest character that is not passed over is cased. -/
def nearCased (s : Chars) : Bool :=
  match s.dropWhile Unicode.isCaseIgnorable with
  | c :: _ => Unicode.isCased c
  | [] => false

/-- Lower case; `before` holds what has been read, nearest first. A capital sigma at the end of a
word becomes a final one, and the dotted capital i two characters. -/
def lowerFrom (before : Chars) : Chars → Chars
  | [] => []
  | c :: rest =>
    let low :=
      if c = 'Σ' then [if nearCased before && !nearCased rest then 'ς' else 'σ']
      else if c = 'İ' then ['i', '\u0307']
      else [Unicode.lowerChar c]
    low ++ lowerFrom (c :: before) rest

def lower (s : Chars) : Chars := lowerFrom [] s

def lowerText (s : String) : String := String.ofList (lower s.toList)

def trimText (s : String) : String := String.ofList (trim s.toList)

/-! Quoting. -/

/-- Marks that join the character before them, besides those of their category. -/
def joiningMarks : Unicode.Ranges :=
  [(0x9BE, 0x9BE), (0x9D7, 0x9D7), (0xB3E, 0xB3E), (0xB57, 0xB57), (0xBBE, 0xBBE),
   (0xBD7, 0xBD7), (0xCC2, 0xCC2), (0xCD5, 0xCD6), (0xD3E, 0xD3E), (0xD57, 0xD57),
   (0xDCF, 0xDCF), (0xDDF, 0xDDF), (0x1B35, 0x1B35), (0x200C, 0x200C), (0x302E, 0x302F),
   (0xFF9E, 0xFF9F), (0x1133E, 0x1133E), (0x11357, 0x11357), (0x114B0, 0x114B0),
   (0x114BD, 0x114BD), (0x115AF, 0x115AF), (0x11930, 0x11930), (0x1D165, 0x1D165),
   (0x1D16E, 0x1D172), (0xE0020, 0xE007F)]

/-- Whether the character can be shown as it is. -/
def isPrintable (c : Char) : Bool :=
  if c.toNat < 128 then ' ' ≤ c && c ≤ '~'
  else
    match Unicode.Category.of c with
    | .Cc | .Cf | .Cs | .Co | .Cn | .Zl | .Zp | .Zs | .Mn | .Me => false
    | _ => !joiningMarks.has c

def hexDigit (n : Nat) : Char := if n < 10 then Char.ofNat (48 + n) else Char.ofNat (87 + n)

def hexText (n : Nat) : Chars := Nat.toDigits 16 n

def quoteChar (c : Char) : Chars :=
  match c with
  | '\x00' => ['\\', '0']
  | '\t' => ['\\', 't']
  | '\r' => ['\\', 'r']
  | '\n' => ['\\', 'n']
  | '"' => ['\\', '"']
  | '\\' => ['\\', '\\']
  | c => if isPrintable c then [c] else '\\' :: 'u' :: '{' :: (hexText c.toNat ++ ['}'])

/-- The text between quote marks, with escapes for what cannot be shown. -/
def quoted (s : String) : String :=
  String.ofList ('"' :: (s.toList.flatMap quoteChar ++ ['"']))

end Worksite.Text
