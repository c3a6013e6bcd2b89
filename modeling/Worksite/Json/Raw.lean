import Worksite.Json
import Worksite.Decimal

/-!
JSON text as it is met from left to right. Reading never fails: what is not JSON ends the tree
where it stands, so that a typed reader can tell whether it met a wrong type before that.
-/
namespace Worksite

/-- A value as written. `whole` tells whether the closing sign of a list or an object was met in
its place. -/
inductive Raw where
  | null
  | bool (b : Bool)
  | int (n : Int)
  /-- A number that is not whole, or outside of 64 bits. -/
  | float
  /-- A number too large for any type. -/
  | huge
  | text (s : String)
  /-- A text that escapes half of a character. -/
  | half
  | array (items : List Raw) (whole : Bool)
  | object (members : List (Option String × Raw)) (whole : Bool)
  | broken
  deriving Inhabited

namespace Raw

def isBlank (c : Char) : Bool := c = ' ' || c = '\n' || c = '\t' || c = '\r'

def skipBlank (s : List Char) : List Char := s.dropWhile isBlank

def hexValue? (c : Char) : Option Nat :=
  if c.isDigit then some (c.toNat - 48)
  else if 'a' ≤ c && c ≤ 'f' then some (c.toNat - 87)
  else if 'A' ≤ c && c ≤ 'F' then some (c.toNat - 55)
  else none

def hex4? : List Char → Option (Nat × List Char)
  | a :: b :: c :: d :: rest => do
    let n := 4096 * (← hexValue? a) + 256 * (← hexValue? b) + 16 * (← hexValue? c)
    some (n + (← hexValue? d), rest)
  | _ => none

/-- The character of an escape, none for half of one, and what follows. -/
def escape? : List Char → Option (Option Char × List Char)
  | '"' :: rest => some (some '"', rest)
  | '\\' :: rest => some (some '\\', rest)
  | '/' :: rest => some (some '/', rest)
  | 'b' :: rest => some (some '\x08', rest)
  | 'f' :: rest => some (some '\x0c', rest)
  | 'n' :: rest => some (some '\n', rest)
  | 'r' :: rest => some (some '\r', rest)
  | 't' :: rest => some (some '\t', rest)
  | 'u' :: rest => do
    let (n, rest) ← hex4? rest
    if 0xD800 ≤ n && n < 0xDC00 then
      match rest with
      | '\\' :: 'u' :: low =>
        let (m, after) ← hex4? low
        if 0xDC00 ≤ m && m < 0xE000 then
          some (some (Char.ofNat (0x10000 + (n - 0xD800) * 0x400 + (m - 0xDC00))), after)
        else some (none, rest)
      | _ => some (none, rest)
    else if 0xDC00 ≤ n && n < 0xE000 then some (none, rest)
    else some (some (Char.ofNat n), rest)
  | _ => none

/-- A text behind its opening quote mark; its content is none if it escapes half a character. -/
def stringWithin : Nat → List Char → Option (Option (List Char) × List Char)
  | 0, _ => none
  | fuel + 1, s =>
    match s with
    | [] => none
    | '"' :: rest => some (some [], rest)
    | '\\' :: rest => do
      let (c, rest) ← escape? rest
      let (tail, rest) ← stringWithin fuel rest
      some (c.bind fun c => tail.map (c :: ·), rest)
    | c :: rest =>
      if c.toNat < 32 then none
      else do
        let (tail, rest) ← stringWithin fuel rest
        some (tail.map (c :: ·), rest)

def string? (s : List Char) : Option (Option String × List Char) :=
  (stringWithin (s.length + 1) s).map fun (t, rest) => (t.map String.ofList, rest)

/-- Whether a number opens with a minus, and what follows it. -/
def sign : List Char → Bool × List Char
  | '-' :: rest => (true, rest)
  | s => (false, s)

/-- The digits behind a point, if there is one. -/
def fraction : List Char → Option (List Char) × List Char
  | '.' :: rest => (some (rest.takeWhile Char.isDigit), rest.dropWhile Char.isDigit)
  | s => (none, s)

/-- Whether a power opens with a minus, and what follows its sign. -/
def powerSign : List Char → Bool × List Char
  | '-' :: rest => (true, rest)
  | '+' :: rest => (false, rest)
  | s => (false, s)

/-- The power of ten of a number, if it has one; none if its digits are missing. -/
def power? : List Char → Option (Option Int × List Char)
  | e :: s =>
    if e = 'e' || e = 'E' then
      let (minus, s) := powerSign s
      let digits := s.takeWhile Char.isDigit
      if digits.isEmpty then none
      else
        let n : Int := Decimal.value digits
        some (some (if minus then -n else n), s.dropWhile Char.isDigit)
    else some (none, e :: s)
  | [] => some (none, [])

/-- What a number of these parts is. -/
def ofParts (negative : Bool) (whole : List Char) (fraction : Option (List Char))
    (power : Option Int) : Raw :=
  let value : Int := Decimal.value whole
  let digits := fraction.getD []
  if fraction.isNone && power.isNone && (if negative then 0 < value && value ≤ -Int64.minValue.toInt
      else value < UInt64.size) then
    .int (if negative then -value else value)
  else if Decimal.isHuge (whole ++ digits) (power.getD 0 - digits.length) then .huge
  else .float

/-- The longest number at the start of the text. -/
def number (s : List Char) : Raw × List Char :=
  let (negative, s) := sign s
  let whole := s.takeWhile Char.isDigit
  let rest := s.dropWhile Char.isDigit
  if whole.isEmpty || (whole.head? = some '0' && whole.length > 1) then (.broken, rest)
  else
    let (fraction, rest) := fraction rest
    if fraction = some [] then (.broken, rest)
    else
      match power? rest with
      | none => (.broken, rest)
      | some (power, rest) => (ofParts negative whole fraction power, rest)

mutual

/-- The value at the start of the text. After a broken value nothing more is read. -/
def valueWithin : Nat → List Char → Raw × List Char
  | 0, s => (.broken, s)
  | fuel + 1, s =>
    match skipBlank s with
    | 'n' :: 'u' :: 'l' :: 'l' :: rest => (.null, rest)
    | 't' :: 'r' :: 'u' :: 'e' :: rest => (.bool true, rest)
    | 'f' :: 'a' :: 'l' :: 's' :: 'e' :: rest => (.bool false, rest)
    | '"' :: rest =>
      match string? rest with
      | some (some t, rest) => (.text t, rest)
      | some (none, rest) => (.half, rest)
      | none => (.broken, rest)
    | '[' :: rest =>
      match skipBlank rest with
      | ']' :: rest => (.array [] true, rest)
      | _ =>
        let (items, whole, rest) := itemsWithin fuel rest
        (.array items whole, rest)
    | '{' :: rest =>
      match skipBlank rest with
      | '}' :: rest => (.object [] true, rest)
      | _ =>
        let (members, whole, rest) := membersWithin fuel rest
        (.object members whole, rest)
    | c :: rest => if c = '-' || c.isDigit then number (c :: rest) else (.broken, rest)
    | [] => (.broken, [])

def itemsWithin : Nat → List Char → List Raw × Bool × List Char
  | 0, s => ([], false, s)
  | fuel + 1, s =>
    let (v, rest) := valueWithin fuel s
    match skipBlank rest with
    | ']' :: rest => ([v], true, rest)
    | ',' :: rest =>
      match skipBlank rest with
      | ']' :: _ => ([v], false, rest)
      | _ =>
        let (more, whole, rest) := itemsWithin fuel rest
        (v :: more, whole, rest)
    | rest => ([v], false, rest)

def membersWithin : Nat → List Char → List (Option String × Raw) × Bool × List Char
  | 0, s => ([], false, s)
  | fuel + 1, s =>
    match skipBlank s with
    | '"' :: rest =>
      match string? rest with
      | none => ([], false, rest)
      | some (key, rest) =>
        match skipBlank rest with
        | ':' :: rest =>
          let (v, rest) := valueWithin fuel rest
          match skipBlank rest with
          | '}' :: rest => ([(key, v)], true, rest)
          | ',' :: rest =>
            match skipBlank rest with
            | '}' :: _ => ([(key, v)], false, rest)
            | _ =>
              let (more, whole, rest) := membersWithin fuel rest
              ((key, v) :: more, whole, rest)
          | rest => ([(key, v)], false, rest)
        | rest => ([(key, .broken)], false, rest)
    | rest => ([], false, rest)

end

/-- The value of a text, and what follows it. -/
def ofText (s : List Char) : Raw × List Char := valueWithin (2 * s.length + 2) s

mutual

/-- Whether the value, read only to be passed over, is written right. -/
def isSound : Raw → Bool
  | broken => false
  | array items whole => areSound items && whole
  | object members whole => membersAreSound members && whole
  | _ => true

def areSound : List Raw → Bool
  | [] => true
  | v :: rest => isSound v && areSound rest

def membersAreSound : List (Option String × Raw) → Bool
  | [] => true
  | (_, v) :: rest => isSound v && membersAreSound rest

end

mutual

/-- Whether the value can be kept whole: it is sound, its texts and numbers mean something, and it
is not nested `depth` levels deep. -/
def isKept : Nat → Raw → Bool
  | _, broken => false
  | _, half => false
  | _, huge => false
  | 0, array _ _ => false
  | 0, object _ _ => false
  | depth + 1, array items whole => areKept depth items && whole
  | depth + 1, object members whole => membersAreKept depth members && whole
  | _, _ => true

def areKept : Nat → List Raw → Bool
  | _, [] => true
  | depth, v :: rest => isKept depth v && areKept depth rest

def membersAreKept : Nat → List (Option String × Raw) → Bool
  | _, [] => true
  | depth, (k, v) :: rest => k.isSome && isKept depth v && membersAreKept depth rest

end

end Raw

end Worksite
