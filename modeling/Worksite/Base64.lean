/-!
Base 64 of bytes, in quads with padding. Decoding accepts exactly what encoding writes: padding
is required, and the bits that a last symbol leaves over are zero.
-/
namespace Worksite.Base64

/-- Why a text is no base 64, with the place and the byte that shows it. -/
inductive DecodeError where
  | symbol (offset : Nat) (byte : UInt8)
  | lastSymbol (offset : Nat) (byte : UInt8)
  | length (n : Nat)
  | padding
  deriving DecidableEq, Repr

def DecodeError.message : DecodeError → String
  | .symbol offset byte =>
    "Invalid symbol " ++ toString byte.toNat ++ ", offset " ++ toString offset ++ "."
  | .lastSymbol offset byte =>
    "Invalid last symbol " ++ toString byte.toNat ++ ", offset " ++ toString offset ++ "."
  | .length n => "Invalid input length: " ++ toString n
  | .padding => "Invalid padding"

def pad : UInt8 := 61

/-- The symbol of a number below 64. -/
def symbol (n : Nat) : UInt8 :=
  if n < 26 then UInt8.ofNat (65 + n)
  else if n < 52 then UInt8.ofNat (97 + (n - 26))
  else if n < 62 then UInt8.ofNat (48 + (n - 52))
  else if n = 62 then 43
  else 47

/-- The number of a symbol. -/
def value? (b : UInt8) : Option Nat :=
  let n := b.toNat
  if 65 ≤ n ∧ n ≤ 90 then some (n - 65)
  else if 97 ≤ n ∧ n ≤ 122 then some (n - 97 + 26)
  else if 48 ≤ n ∧ n ≤ 57 then some (n - 48 + 52)
  else if n = 43 then some 62
  else if n = 47 then some 63
  else none

def encode : List UInt8 → List UInt8
  | [] => []
  | [a] =>
    let n := a.toNat
    [symbol (n / 4), symbol (n % 4 * 16), pad, pad]
  | [a, b] =>
    let n := a.toNat * 256 + b.toNat
    [symbol (n / 1024), symbol (n / 16 % 64), symbol (n % 16 * 4), pad]
  | a :: b :: c :: rest =>
    let n := (a.toNat * 256 + b.toNat) * 256 + c.toNat
    symbol (n / 262144) :: symbol (n / 4096 % 64) :: symbol (n / 64 % 64) :: symbol (n % 64) ::
      encode rest

def valueAt (offset : Nat) (b : UInt8) : Except DecodeError Nat :=
  match value? b with
  | some n => .ok n
  | none => .error (.symbol offset b)

/-- What the last symbols hold: their numbers and the last symbol, and how many pads follow. -/
structure Tail where
  numbers : List Nat := []
  last : UInt8 := 0
  pads : Nat := 0
  firstPad : Nat := 0

/-- Reads the last four symbols or fewer, the `i`th of them first. -/
def readTail (offset i : Nat) (t : Tail) : List UInt8 → Except DecodeError Tail
  | [] => .ok t
  | b :: rest =>
    if b = pad then
      if i < 2 then .error (.symbol (offset + i) b)
      else
        readTail offset (i + 1)
          { t with pads := t.pads + 1, firstPad := if t.pads = 0 then i else t.firstPad } rest
    else if t.pads > 0 then .error (.symbol (offset + t.firstPad) pad)
    else
      match value? b with
      | some n => readTail offset (i + 1) { t with numbers := t.numbers ++ [n], last := b } rest
      | none => .error (.symbol (offset + i) b)

/-- The bytes of the last symbols. -/
def decodeTail (offset : Nat) (bytes : List UInt8) : Except DecodeError (List UInt8) := do
  let t ← readTail offset 0 {} bytes
  let count := t.numbers.length
  if count < 2 then .error (.length (offset + count))
  else if (t.pads + count) % 4 ≠ 0 then .error .padding
  else
    match t.numbers with
    | [a, b] =>
      if b % 16 ≠ 0 then .error (.lastSymbol (offset + 1) t.last)
      else .ok [UInt8.ofNat (a * 4 + b / 16)]
    | [a, b, c] =>
      if c % 4 ≠ 0 then .error (.lastSymbol (offset + 2) t.last)
      else
        let n := (a * 64 + b) * 16 + c / 4
        .ok [UInt8.ofNat (n / 256), UInt8.ofNat (n % 256)]
    | a :: b :: c :: d :: _ =>
      let n := ((a * 64 + b) * 64 + c) * 64 + d
      .ok [UInt8.ofNat (n / 65536), UInt8.ofNat (n / 256 % 256), UInt8.ofNat (n % 256)]
    | _ => .ok []

def decodeFrom (offset : Nat) : List UInt8 → Except DecodeError (List UInt8)
  | a :: b :: c :: d :: e :: rest => do
    let n := ((← valueAt offset a) * 64 + (← valueAt (offset + 1) b)) * 64
    let n := (n + (← valueAt (offset + 2) c)) * 64 + (← valueAt (offset + 3) d)
    let more ← decodeFrom (offset + 4) (e :: rest)
    .ok (UInt8.ofNat (n / 65536) :: UInt8.ofNat (n / 256 % 256) :: UInt8.ofNat (n % 256) :: more)
  | tail => decodeTail offset tail

/-- A symbol left over at the end that is none is reported before all others. -/
def decode (bytes : List UInt8) : Except DecodeError (List UInt8) :=
  match bytes.getLast? with
  | none => .ok []
  | some b =>
    if bytes.length % 4 = 1 ∧ b ≠ pad ∧ (value? b).isNone then
      .error (.symbol (bytes.length - 1) b)
    else decodeFrom 0 bytes

def encodeText (bytes : List UInt8) : String :=
  String.ofList ((encode bytes).map fun b => Char.ofNat b.toNat)

def decodeText (s : String) : Except DecodeError (List UInt8) := decode s.toUTF8.toList

end Worksite.Base64
