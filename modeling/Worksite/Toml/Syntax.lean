import Worksite.Toml.Scalar
import Worksite.Toml.Document

/-!
The text of TOML documents. Each reader takes what it reads from the front of the text, and gives
the rest.
-/
namespace Worksite.Toml.Syntax

abbrev Chars := List Char

def isBlank (c : Char) : Bool := c = ' ' || c = '\t'

def skipBlank (s : Chars) : Chars := s.dropWhile isBlank

/-- A character that may stand in a comment or a text as it is. -/
def isPlain (c : Char) : Bool := c = '\t' || (32 ≤ c.toNat && c.toNat ≠ 127)

/-- Passes over blanks, line ends and comments, from inside of a comment or not. -/
def skipGap : Bool → Chars → Option Chars
  | _, [] => some []
  | _, '\r' :: '\n' :: rest => skipGap false rest
  | false, c :: rest =>
    if isBlank c || c = '\n' then skipGap false rest
    else if c = '#' then skipGap true rest
    else some (c :: rest)
  | true, c :: rest =>
    if c = '\n' then skipGap false rest
    else if isPlain c then skipGap true rest
    else none

/-- Passes over what may end a line: blanks, a comment, and the line end itself. -/
def lineEnd? (s : Chars) : Option Chars :=
  let rest := match skipBlank s with
    | '#' :: rest => rest.dropWhile isPlain
    | rest => rest
  match rest with
  | [] => some []
  | '\n' :: rest => some rest
  | '\r' :: '\n' :: rest => some rest
  | _ => none

/-! Texts. -/

def codePoint? (n : Nat) (s : Chars) : Option (Char × Chars) :=
  let ds := s.take n
  if ds.length = n && ds.all Scalar.isHex then
    let code := Scalar.valueIn 16 ds
    if h : code.isValidChar then some (Char.ofNatAux code h, s.drop n) else none
  else none

def escape? : Chars → Option (Char × Chars)
  | 'b' :: rest => some ('\x08', rest)
  | 't' :: rest => some ('\t', rest)
  | 'n' :: rest => some ('\n', rest)
  | 'f' :: rest => some ('\x0c', rest)
  | 'r' :: rest => some ('\r', rest)
  | 'e' :: rest => some ('\x1b', rest)
  | '"' :: rest => some ('"', rest)
  | '\\' :: rest => some ('\\', rest)
  | 'x' :: rest => codePoint? 2 rest
  | 'u' :: rest => codePoint? 4 rest
  | 'U' :: rest => codePoint? 8 rest
  | _ => none

/-- A text behind its quote mark, up to the closing one. -/
def basicWithin : Nat → Chars → Option (Chars × Chars)
  | 0, _ => none
  | fuel + 1, s =>
    match s with
    | '"' :: rest => some ([], rest)
    | '\\' :: rest => do
      let (c, rest) ← escape? rest
      let (tail, rest) ← basicWithin fuel rest
      some (c :: tail, rest)
    | c :: rest =>
      if isPlain c then do
        let (tail, rest) ← basicWithin fuel rest
        some (c :: tail, rest)
      else none
    | [] => none

def literal? (s : Chars) : Option (Chars × Chars) :=
  let body := s.takeWhile fun c => c ≠ '\'' && isPlain c
  match s.drop body.length with
  | '\'' :: rest => some (body, rest)
  | _ => none

/-- The rest behind a backslash that ends a line, and all blanks and line ends after it. -/
def joinedLine? (s : Chars) : Option Chars :=
  let skip (s : Chars) := s.dropWhile fun c => isBlank c || c = '\n' || c = '\r'
  match skipBlank s with
  | '\n' :: rest => some (skip rest)
  | '\r' :: '\n' :: rest => some (skip rest)
  | _ => none

/-- A run of quote marks in a text of several lines: some of them belong to the text, and three
close it. -/
def closing (quote : Char) (s : Chars) : Nat × Bool :=
  let n := (s.takeWhile (· = quote)).length
  if n < 3 then (n, false) else (min (n - 3) 2, true)

/-- A text of several lines behind its quote marks. -/
def multiWithin (quote : Char) : Nat → Chars → Option (Chars × Chars)
  | 0, _ => none
  | fuel + 1, s =>
    match s with
    | [] => none
    | '\r' :: '\n' :: rest => do
      let (tail, rest) ← multiWithin quote fuel rest
      some ('\r' :: '\n' :: tail, rest)
    | c :: rest =>
      if c = quote then
        let (kept, closes) := closing quote s
        if closes then some (List.replicate kept quote, s.drop (kept + 3))
        else do
          let (tail, rest) ← multiWithin quote fuel (s.drop kept)
          some (List.replicate kept quote ++ tail, rest)
      else if c = '\\' && quote = '"' then
        match joinedLine? rest with
        | some rest => multiWithin quote fuel rest
        | none => do
          let (c, rest) ← escape? rest
          let (tail, rest) ← multiWithin quote fuel rest
          some (c :: tail, rest)
      else if isPlain c || c = '\n' then do
        let (tail, rest) ← multiWithin quote fuel rest
        some (c :: tail, rest)
      else none

def dropLineEnd : Chars → Chars
  | '\n' :: rest => rest
  | '\r' :: '\n' :: rest => rest
  | s => s

def multi? (quote : Char) (s : Chars) : Option (Chars × Chars) :=
  let s := dropLineEnd s
  multiWithin quote (s.length + 1) s

def basic? (s : Chars) : Option (Chars × Chars) := basicWithin (s.length + 1) s

/-! Keys. -/

def isBare (c : Char) : Bool := c.isAlphanum || c = '_' || c = '-'

def simpleKey? : Chars → Option (Chars × Chars)
  | '"' :: '"' :: '"' :: _ => none
  | '\'' :: '\'' :: '\'' :: _ => none
  | '"' :: rest => basic? rest
  | '\'' :: rest => literal? rest
  | s =>
    let name := s.takeWhile isBare
    if name.isEmpty then none else some (name, s.dropWhile isBare)

/-- A dotted key as the names on the way and the last one. -/
def keyWithin : Nat → Chars → Option ((List String × String) × Chars)
  | 0, _ => none
  | fuel + 1, s => do
    let (name, rest) ← simpleKey? (skipBlank s)
    match skipBlank rest with
    | '.' :: rest => do
      let ((path, last), rest) ← keyWithin fuel rest
      some ((String.ofList name :: path, last), rest)
    | rest => some (([], String.ofList name), rest)

def key? (s : Chars) : Option ((List String × String) × Chars) := keyWithin (s.length + 1) s

/-! Values. -/

def isScalar (c : Char) : Bool := c.isAlphanum || c = '_' || c = '+' || c = '-' || c = ':' || c = '.'

/-- A scalar without quotes; a blank may stand between a date and a time. -/
def scalar? (s : Chars) : Option (Toml × Chars) :=
  let word := s.takeWhile isScalar
  let rest := s.dropWhile isScalar
  match rest with
  | ' ' :: more =>
    let time := more.takeWhile isScalar
    if Scalar.date? word = some [] && (Scalar.time? time).isSome then
      (Scalar.ofChars? (word ++ ' ' :: time)).map (·, more.dropWhile isScalar)
    else (Scalar.ofChars? word).map (·, rest)
  | rest => (Scalar.ofChars? word).map (·, rest)

def ofText (t : Chars × Chars) : Toml × Chars := (.text (String.ofList t.1), t.2)

mutual

/-- A value; lists and tables nest at most `depth` levels deep. -/
def valueWithin : Nat → Nat → Chars → Option (Toml × Chars)
  | 0, _, _ => none
  | fuel + 1, depth, s =>
    match s with
    | '"' :: '"' :: '"' :: rest => (multi? '"' rest).map ofText
    | '\'' :: '\'' :: '\'' :: rest => (multi? '\'' rest).map ofText
    | '"' :: rest => (basic? rest).map ofText
    | '\'' :: rest => (literal? rest).map ofText
    | '[' :: rest =>
      match depth with
      | 0 => none
      | depth + 1 => do
        let (items, rest) ← itemsWithin fuel depth rest
        some (.array items, rest)
    | '{' :: rest =>
      match depth with
      | 0 => none
      | depth + 1 => do
        let (pairs, rest) ← pairsWithin fuel depth rest
        some (← inline? pairs, rest)
    | s => scalar? s

def itemsWithin : Nat → Nat → Chars → Option (List Toml × Chars)
  | 0, _, _ => none
  | fuel + 1, depth, s => do
    match ← skipGap false s with
    | ']' :: rest => some ([], rest)
    | s =>
      let (v, rest) ← valueWithin fuel depth s
      match ← skipGap false rest with
      | ',' :: rest =>
        let (more, rest) ← itemsWithin fuel depth rest
        some (v :: more, rest)
      | ']' :: rest => some ([v], rest)
      | _ => none

def pairsWithin : Nat → Nat → Chars → Option (List (List String × String × Toml) × Chars)
  | 0, _, _ => none
  | fuel + 1, depth, s => do
    match ← skipGap false s with
    | '}' :: rest => some ([], rest)
    | s =>
      let ((path, key), rest) ← key? s
      match skipBlank rest with
      | '=' :: rest =>
        let (v, rest) ← valueWithin fuel depth (skipBlank rest)
        match ← skipGap false rest with
        | ',' :: rest =>
          let (more, rest) ← pairsWithin fuel depth rest
          some ((path, key, v) :: more, rest)
        | '}' :: rest => some ([(path, key, v)], rest)
        | _ => none
      | _ => none

end

def maxDepth : Nat := 80

def value? (s : Chars) : Option (Toml × Chars) := valueWithin (2 * s.length + 2) maxDepth s

/-! Documents. -/

def statement? : Chars → Option (Statement × Chars)
  | '[' :: '[' :: rest => do
    let ((path, key), rest) ← key? rest
    match rest with
    | ']' :: ']' :: rest => some (.addTable path key, rest)
    | _ => none
  | '[' :: rest => do
    let ((path, key), rest) ← key? rest
    match rest with
    | ']' :: rest => some (.openTable path key, rest)
    | _ => none
  | s => do
    let ((path, key), rest) ← key? s
    match rest with
    | '=' :: rest => do
      let (v, rest) ← value? (skipBlank rest)
      some (.assign path key v, rest)
    | _ => none

def statementsWithin : Nat → Chars → Option (List Statement)
  | 0, _ => none
  | fuel + 1, s => do
    match ← skipGap false s with
    | [] => some []
    | s =>
      let (statement, rest) ← statement? s
      let rest ← lineEnd? rest
      return statement :: (← statementsWithin fuel rest)

/-- A mark of byte order at the start means nothing. -/
def dropMark : Chars → Chars
  | '\ufeff' :: rest => rest
  | s => s

end Syntax

open Syntax in
/-- The root table of a document. -/
def ofText? (text : String) : Option Toml := do
  let s := dropMark text.toList
  let m ← assemble [] [] (← statementsWithin (s.length + 1) s)
  some (.table (Node.values m))

end Worksite.Toml
