import Worksite.Unicode.Class

/-!
Tokens of Python text, read on demand. Where a line ends and how far the next one is indented
only matters where the reader can use a line end or a change of indentation, so each request
says what is expected and a line end that is not expected is blank space.
-/
namespace Worksite.Python

/-- The place of the reader: the text ahead, its row, and the open indentations, innermost first. -/
structure Cursor where
  rest : List Char
  row : Nat := 0
  indents : List Nat := [0]

/-- What the reader can use next. -/
structure Expect where
  newline : Bool := false
  indent : Bool := false
  dedent : Bool := false
  string : Bool := false
  close : Bool := false
  handler : Bool := false

structure Quote where
  mark : Char
  triple : Bool := false
  raw : Bool := false
  bytes : Bool := false
  format : Bool := false

inductive Token where
  | newline
  | indent
  | dedent
  | quote (q : Quote)
  | word (text : String)
  | number
  | sign (text : String)
  | conversion
  | finish

namespace Cursor

def column (c : Cursor) : Nat := c.indents.headD 0

/-- Passes over `n` characters. -/
def skip (c : Cursor) : Nat → Cursor
  | 0 => c
  | n + 1 =>
    match c.rest with
    | [] => c
    | x :: rest => skip { c with rest, row := if x = '\n' then c.row + 1 else c.row } n

def skipTo (c : Cursor) (rest : List Char) : Cursor := c.skip (c.rest.length - rest.length)

end Cursor

/-- The blank space and comments before the next token. -/
structure Margin where
  rest : List Char
  endsLine : Bool := false
  indent : Nat := 0
  /-- Indentation of the first comment that stands on a line of its own. -/
  comment : Option Nat := none

/-- Reads the margin; none when a comment ends the line or a backslash does not. With
`comments`, comments on lines of their own are passed over. -/
def Margin.read (comments : Bool) : List Char → Bool → Margin → Option Margin
  | [], _, m => some { m with rest := [], indent := 0, endsLine := true }
  | c :: rest, true, m =>
    if c = '\n' || c = '\x00' then Margin.read comments rest false { m with indent := 0 }
    else Margin.read comments rest true m
  | '\n' :: rest, false, m => Margin.read comments rest false { m with endsLine := true, indent := 0 }
  | ' ' :: rest, false, m => Margin.read comments rest false { m with indent := m.indent + 1 }
  | '\t' :: rest, false, m => Margin.read comments rest false { m with indent := m.indent + 8 }
  | '\r' :: rest, false, m => Margin.read comments rest false { m with indent := 0 }
  | '\x0c' :: rest, false, m => Margin.read comments rest false { m with indent := 0 }
  | '\\' :: '\r' :: '\n' :: rest, false, m => Margin.read comments rest false m
  | '\\' :: '\n' :: rest, false, m => Margin.read comments rest false m
  | ['\\', '\r'], false, m => some { m with rest := [], indent := 0, endsLine := true }
  | ['\\'], false, m => some { m with rest := [], indent := 0, endsLine := true }
  | '\\' :: _, false, _ => none
  | c :: rest, false, m =>
    if c = '#' && comments then
      if m.endsLine then
        Margin.read comments rest true { m with comment := m.comment.or (some m.indent) }
      else none
    else some { m with rest := c :: rest }

/-- The opening of a string: letters in any order, then a quote mark, single or triple. -/
def Quote.read (q : Quote) : List Char → Option (Quote × List Char)
  | [] => none
  | c :: rest =>
    if c = 'f' || c = 'F' then Quote.read { q with format := true } rest
    else if c = 'r' || c = 'R' then Quote.read { q with raw := true } rest
    else if c = 'b' || c = 'B' then Quote.read { q with bytes := true } rest
    else if c = 'u' || c = 'U' then Quote.read q rest
    else if c = '`' then some ({ q with mark := c }, rest)
    else if c = '\'' || c = '"' then
      match rest with
      | d :: e :: more =>
        if d = c && e = c then some ({ q with mark := c, triple := true }, more)
        else some ({ q with mark := c }, rest)
      | _ => some ({ q with mark := c }, rest)
    else none

def isQuoteMark (c : Char) : Bool := c = '\'' || c = '"' || c = '`'

/-- The tokens that lines and strings make. -/
def Token.layout (e : Expect) (c : Cursor) : Option (Token × Cursor) := do
  let comments := e.newline || e.indent || e.dedent || e.handler
  let m ← Margin.read comments c.rest false { rest := c.rest }
  let deeper := m.endsLine && m.indent > c.column
  let shallower := m.endsLine && m.indent < c.column && m.comment.all (· < c.column)
  let beforeString := e.string && m.rest.head?.any isQuoteMark
  if e.indent && deeper then
    return (.indent, { c with indents := m.indent :: c.indents })
  if (e.dedent || !(e.newline || beforeString || e.close)) && shallower then
    return (.dedent, { c with indents := c.indents.drop 1 })
  if e.newline && m.endsLine then
    return (.newline, c)
  if e.string && m.comment.isNone then
    let (q, rest) ← Quote.read { mark := ' ' } m.rest
    return (.quote q, c.skipTo rest)
  none

def isBlank (c : Char) : Bool :=
  c = ' ' || ('\t' ≤ c && c ≤ '\r') || c = '\ufeff' || c = '\u2060' || c = '\u200b'

/-- Digits, with single underscores between and perhaps one behind. -/
def digitsRest (isDigit : Char → Bool) : List Char → Option (List Char)
  | [] => none
  | d :: '_' :: rest => if isDigit d then some ((digitsRest isDigit rest).getD rest) else none
  | d :: rest => if isDigit d then some ((digitsRest isDigit rest).getD rest) else none

/-- Digits of another base, an underscore only before a digit. -/
def radixRest (isDigit : Char → Bool) : List Char → Option (List Char)
  | '_' :: d :: rest => if isDigit d then some ((radixRest isDigit rest).getD rest) else none
  | d :: rest => if isDigit d then some ((radixRest isDigit rest).getD rest) else none
  | [] => none

def isHex (c : Char) : Bool :=
  c.isDigit || ('a' ≤ c && c ≤ 'f') || ('A' ≤ c && c ≤ 'F')

def dropOne (p : Char → Bool) : List Char → List Char
  | c :: rest => if p c then rest else c :: rest
  | [] => []

def exponentRest : List Char → Option (List Char)
  | c :: rest =>
    if c = 'e' || c = 'E' then digitsRest Char.isDigit (dropOne (fun s => s = '+' || s = '-') rest)
    else none
  | [] => none

def isImaginary (c : Char) : Bool := c = 'j' || c = 'J'

def isLong (c : Char) : Bool := c = 'l' || c = 'L'

/-- What follows the fraction and exponent of a number. -/
def fractionRest (s : List Char) : List Char :=
  let s := (digitsRest Char.isDigit s).getD s
  dropOne isImaginary ((exponentRest s).getD s)

def decimalRest (s : List Char) : Option (List Char) :=
  match digitsRest Char.isDigit s with
  | some ('.' :: rest) => some (fractionRest rest)
  | some rest =>
    match exponentRest rest with
    | some rest => some (dropOne isImaginary rest)
    | none => some (dropOne (fun c => isLong c || isImaginary c) rest)
  | none =>
    match s with
    | '.' :: rest => if (digitsRest Char.isDigit rest).isSome then some (fractionRest rest) else none
    | _ => none

/-- What follows the longest number at the start of the text. -/
def numberRest (s : List Char) : Option (List Char) :=
  let radix :=
    match s with
    | '0' :: x :: rest =>
      if x = 'x' || x = 'X' then radixRest isHex rest
      else if x = 'o' || x = 'O' then radixRest (fun c => '0' ≤ c && c ≤ '7') rest
      else if x = 'b' || x = 'B' then radixRest (fun c => c = '0' || c = '1') rest
      else none
    | _ => none
  (radix.map (dropOne isLong)).or (decimalRest s)

/-- Operators and punctuation; of two that fit the longer one stands first. -/
def signs : List String :=
  ["**=", "//=", ">>=", "<<=", "...", "**", "//", ">>", "<<", "<=", ">=", "==", "!=", "<>", "->",
   ":=", "+=", "-=", "*=", "/=", "@=", "%=", "&=", "^=", "|=", "+", "-", "*", "/", "@", "%", "&",
   "|", "^", "~", "<", ">", "=", "(", ")", "[", "]", "\x7b", "\x7d", ",", ":", ".", ";"]

def isWordStart (c : Char) : Bool := c = '_' || Unicode.isIdentifierStart c

def isWordContinue (c : Char) : Bool := c = '_' || Unicode.isIdentifierContinue c

/-- The token at the start of the text, which is not blank. -/
def Token.plain (c : Cursor) : Option (Token × Cursor) :=
  match c.rest with
  | [] => some (.finish, c)
  | x :: rest =>
    if isWordStart x then
      let word := x :: rest.takeWhile isWordContinue
      some (.word (String.ofList word), c.skip word.length)
    else
      match numberRest c.rest with
      | some rest => some (.number, c.skipTo rest)
      | none =>
        match signs.find? (fun s => s.toList.isPrefixOf c.rest) with
        | some s => some (.sign s, c.skip s.length)
        | none =>
          match rest with
          | y :: _ => if x = '!' && y.isLower then some (.conversion, c.skip 2) else none
          | [] => none

/-- What is left behind a comment or a joined line at the start of the text. -/
def extraRest : List Char → Option (List Char)
  | '#' :: rest => some (rest.dropWhile fun c => c ≠ '\n' && c ≠ '\x00')
  | '\\' :: '\r' :: '\n' :: rest => some rest
  | '\\' :: '\n' :: rest => some rest
  | '\\' :: '\x00' :: rest => some rest
  | ['\\'] => some []
  | _ => none

def Token.nextWithin (e : Expect) : Nat → Cursor → Option (Token × Cursor)
  | 0, _ => none
  | fuel + 1, c =>
    match Token.layout e c with
    | some found => some found
    | none =>
      let here := c.skip (c.rest.takeWhile isBlank).length
      match extraRest here.rest with
      | some rest => nextWithin e fuel (here.skipTo rest)
      | none => Token.plain here

/-- The next token and the place behind it. -/
def Token.next (e : Expect) (c : Cursor) : Option (Token × Cursor) :=
  Token.nextWithin e (c.rest.length + 1) c

end Worksite.Python
