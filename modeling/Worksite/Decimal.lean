/-!
Decimal digits: their value, and whether a decimal number is beyond every float of 64 bits.
-/
namespace Worksite.Decimal

def value (ds : List Char) : Nat := ds.foldl (fun n d => 10 * n + (d.toNat - 48)) 0

/-- Whether a number of these digits, with the point `shift` places to the right of the last one,
is beyond the largest float of 64 bits. -/
def isHuge (digits : List Char) (shift : Int) : Bool :=
  let n := value digits
  let limit := (1 <<< 1024) - (1 <<< 970)
  if n = 0 then false
  else if shift > 400 then true
  else if shift < -(digits.length : Int) - 400 then false
  else if 0 ≤ shift then n * Nat.pow 10 shift.toNat ≥ limit
  else n ≥ limit * Nat.pow 10 (-shift).toNat

end Worksite.Decimal
