import Worksite.Toml
import Worksite.Decimal

/-!
Scalars without quotes: numbers, truth values and moments.
-/
namespace Worksite.Toml.Scalar

abbrev Chars := List Char

def isHex (c : Char) : Bool := c.isDigit || ('a' ≤ c && c ≤ 'f') || ('A' ≤ c && c ≤ 'F')

def hexValue (c : Char) : Nat :=
  if c.isDigit then c.toNat - 48 else if 'a' ≤ c then c.toNat - 87 else c.toNat - 55

/-- The digits of a numeral, in groups between underscores. -/
def digits? (isDigit : Char → Bool) (s : Chars) : Option Chars :=
  let groups := s.splitOnP (· = '_')
  if groups.all fun g => !g.isEmpty && g.all isDigit then some groups.flatten else none

/-- Decimal digits that do not open with a needless zero. -/
def whole? (s : Chars) : Option Chars := do
  let ds ← digits? Char.isDigit s
  if ds.head? = some '0' && ds.length > 1 then none else some ds

def valueIn (base : Nat) (ds : Chars) : Nat := ds.foldl (fun n d => base * n + hexValue d) 0

/-- A whole number, if 128 bits hold it. -/
def ofInt (n : Int) : Toml := 
  if -(1 <<< 127 : Nat) ≤ n ∧ n < (1 <<< 128 : Nat) then .int n else .huge

def sign (s : Chars) : Bool × Chars :=
  match s with
  | '-' :: rest => (true, rest)
  | '+' :: rest => (false, rest)
  | s => (false, s)

def integer? (s : Chars) : Option Toml :=
  match s with
  | '0' :: 'x' :: rest => (digits? isHex rest).map fun ds => ofInt (valueIn 16 ds)
  | '0' :: 'o' :: rest =>
    (digits? (fun c => '0' ≤ c && c ≤ '7') rest).map fun ds => ofInt (valueIn 8 ds)
  | '0' :: 'b' :: rest =>
    (digits? (fun c => c = '0' || c = '1') rest).map fun ds => ofInt (valueIn 2 ds)
  | s =>
    let (negative, s) := sign s
    (whole? s).map fun ds =>
      let n : Int := Decimal.value ds
      ofInt (if negative then -n else n)

/-- What stands before and after the first character that satisfies `p`. -/
def splitAt? (p : Char → Bool) (s : Chars) : Option (Chars × Chars) :=
  match s.dropWhile (!p ·) with
  | _ :: rest => some (s.takeWhile (!p ·), rest)
  | [] => none

def float? (s : Chars) : Option Toml :=
  let (_, s) := sign s
  if s = ['i', 'n', 'f'] || s = ['n', 'a', 'n'] then some .float
  else do
    let (mantissa, power) := match splitAt? (fun c => c = 'e' || c = 'E') s with
      | some (m, e) => (m, some e)
      | none => (s, none)
    let (whole, fraction) := match splitAt? (· = '.') mantissa with
      | some (w, f) => (w, some f)
      | none => (mantissa, none)
    if power.isNone && fraction.isNone then none
    let whole ← whole? whole
    let fraction ← match fraction with
      | some f => digits? Char.isDigit f
      | none => some []
    let power ← match power with
      | some e => do
        let (negative, e) := sign e
        let n : Int := Decimal.value (← digits? Char.isDigit e)
        some (if negative then -n else n)
      | none => some 0
    some (if Decimal.isHuge (whole ++ fraction) (power - fraction.length) then .huge else .float)

/-! Moments. -/

def pair? (a b : Char) : Option Nat :=
  if a.isDigit && b.isDigit then some (Decimal.value [a, b]) else none

def daysIn (year month : Nat) : Nat :=
  if month = 2 then
    if year % 4 = 0 && (year % 100 ≠ 0 || year % 400 = 0) then 29 else 28
  else if month ∈ [4, 6, 9, 11] then 30
  else 31

/-- The rest behind a date. -/
def date? : Chars → Option Chars
  | a :: b :: c :: d :: '-' :: e :: f :: '-' :: g :: h :: rest => do
    let year := 100 * (← pair? a b) + (← pair? c d)
    let month ← pair? e f
    let day ← pair? g h
    if 1 ≤ month && month ≤ 12 && 1 ≤ day && day ≤ daysIn year month then some rest else none
  | _ => none

/-- The rest behind a time of day; seconds may be missing. -/
def time? : Chars → Option Chars
  | a :: b :: ':' :: c :: d :: rest => do
    let hour ← pair? a b
    let minute ← pair? c d
    if hour > 23 || minute > 59 then none
    match rest with
    | ':' :: e :: f :: rest => do
      let second ← pair? e f
      if second > 60 then none
      match rest with
      | '.' :: rest =>
        if (rest.takeWhile Char.isDigit).isEmpty then none else some (rest.dropWhile Char.isDigit)
      | rest => some rest
    | rest => some rest
  | _ => none

def isOffset : Chars → Bool
  | [] => true
  | ['Z'] | ['z'] => true
  | [s, a, b, ':', c, d] =>
    (s = '+' || s = '-') &&
      ((pair? a b).bind fun h => (pair? c d).map fun m => decide (60 * h + m ≤ 24 * 60)).getD false
  | _ => false

def isMoment (s : Chars) : Bool :=
  match date? s with
  | some [] => true
  | some (c :: rest) => (c = 'T' || c = 't' || c = ' ') && (time? rest).any isOffset
  | none => (time? s).any (·.isEmpty)

/-- The value of a scalar without quotes. -/
def ofChars? (s : Chars) : Option Toml :=
  if s = "true".toList then some (.bool true)
  else if s = "false".toList then some (.bool false)
  else if isMoment s then some .moment
  else (integer? s).or (float? s)

end Worksite.Toml.Scalar
