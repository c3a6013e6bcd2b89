/-!
The digest SHA-256 of bytes, in hexadecimal digits.
-/
namespace Worksite.Sha256

def constants : Array UInt32 := #[
  0x428a2f98, 0x71374491, 0xb5c0fbcf, 0xe9b5dba5, 0x3956c25b, 0x59f111f1, 0x923f82a4, 0xab1c5ed5,
  0xd807aa98, 0x12835b01, 0x243185be, 0x550c7dc3, 0x72be5d74, 0x80deb1fe, 0x9bdc06a7, 0xc19bf174,
  0xe49b69c1, 0xefbe4786, 0x0fc19dc6, 0x240ca1cc, 0x2de92c6f, 0x4a7484aa, 0x5cb0a9dc, 0x76f988da,
  0x983e5152, 0xa831c66d, 0xb00327c8, 0xbf597fc7, 0xc6e00bf3, 0xd5a79147, 0x06ca6351, 0x14292967,
  0x27b70a85, 0x2e1b2138, 0x4d2c6dfc, 0x53380d13, 0x650a7354, 0x766a0abb, 0x81c2c92e, 0x92722c85,
  0xa2bfe8a1, 0xa81a664b, 0xc24b8b70, 0xc76c51a3, 0xd192e819, 0xd6990624, 0xf40e3585, 0x106aa070,
  0x19a4c116, 0x1e376c08, 0x2748774c, 0x34b0bcb5, 0x391c0cb3, 0x4ed8aa4a, 0x5b9cca4f, 0x682e6ff3,
  0x748f82ee, 0x78a5636f, 0x84c87814, 0x8cc70208, 0x90befffa, 0xa4506ceb, 0xbef9a3f7, 0xc67178f2]

structure State where
  a : UInt32 := 0x6a09e667
  b : UInt32 := 0xbb67ae85
  c : UInt32 := 0x3c6ef372
  d : UInt32 := 0xa54ff53a
  e : UInt32 := 0x510e527f
  f : UInt32 := 0x9b05688c
  g : UInt32 := 0x1f83d9ab
  h : UInt32 := 0x5be0cd19

def rotate (x : UInt32) (n : UInt32) : UInt32 := (x >>> n) ||| (x <<< (32 - n))

/-- The bytes, a one bit, zeros, and the length in bits, in blocks of 64 bytes. -/
def padded (bytes : ByteArray) : ByteArray :=
  let bits := 8 * bytes.size
  let zeros := (119 - bytes.size % 64) % 64
  let length := (List.range 8).map fun i => UInt8.ofNat ((bits >>> (8 * (7 - i))) % 256)
  (0x80 :: List.replicate zeros 0 ++ length).foldl ByteArray.push bytes

def byteAt (bytes : ByteArray) (i : Nat) : UInt32 := (bytes[i]?.getD 0).toUInt32

def word (bytes : ByteArray) (i : Nat) : UInt32 :=
  (byteAt bytes i <<< 24) ||| (byteAt bytes (i + 1) <<< 16) ||| (byteAt bytes (i + 2) <<< 8) |||
    byteAt bytes (i + 3)

/-- The sixteen words of a block and the forty-eight made from them. -/
def schedule (bytes : ByteArray) (start : Nat) : Array UInt32 :=
  let first := ((List.range 16).map fun i => word bytes (start + 4 * i)).toArray
  (List.range 48).foldl (fun w i =>
    let wordAt (k : Nat) := w.getD k 0
    let x := wordAt (i + 1)
    let y := wordAt (i + 14)
    let s0 := rotate x 7 ^^^ rotate x 18 ^^^ (x >>> 3)
    let s1 := rotate y 17 ^^^ rotate y 19 ^^^ (y >>> 10)
    w.push (wordAt i + s0 + wordAt (i + 9) + s1)) first

def round (w : Array UInt32) (s : State) (i : Nat) : State :=
  let s1 := rotate s.e 6 ^^^ rotate s.e 11 ^^^ rotate s.e 25
  let choice := (s.e &&& s.f) ^^^ (~~~s.e &&& s.g)
  let t1 := s.h + s1 + choice + constants.getD i 0 + w.getD i 0
  let s0 := rotate s.a 2 ^^^ rotate s.a 13 ^^^ rotate s.a 22
  let majority := (s.a &&& s.b) ^^^ (s.a &&& s.c) ^^^ (s.b &&& s.c)
  { a := t1 + s0 + majority, b := s.a, c := s.b, d := s.c, e := s.d + t1, f := s.e, g := s.f,
    h := s.g }

def block (bytes : ByteArray) (s : State) (i : Nat) : State :=
  let w := schedule bytes (64 * i)
  let t := (List.range 64).foldl (round w) s
  { a := s.a + t.a, b := s.b + t.b, c := s.c + t.c, d := s.d + t.d, e := s.e + t.e, f := s.f + t.f,
    g := s.g + t.g, h := s.h + t.h }

def hexDigit (n : Nat) : Char := if n < 10 then Char.ofNat (48 + n) else Char.ofNat (87 + n)

def hexWord (w : UInt32) : List Char :=
  (List.range 8).map fun i => hexDigit ((w.toNat >>> (4 * (7 - i))) % 16)

def digest (bytes : ByteArray) : String :=
  let p := padded bytes
  let s := (List.range (p.size / 64)).foldl (block p) {}
  String.ofList ([s.a, s.b, s.c, s.d, s.e, s.f, s.g, s.h].flatMap hexWord)

end Worksite.Sha256
