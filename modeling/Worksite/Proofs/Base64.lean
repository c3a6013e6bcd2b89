import Worksite.Base64
import Worksite.Proofs.ByteOrder
import Worksite.Proofs.Outcome

/-!
Base 64 both ways. A text is decoded exactly where it is what some bytes are encoded to, and to
these bytes.
-/
namespace Worksite.Base64

variable {a b : UInt8} {n i offset : Nat} {bytes rest l : List UInt8} {t t' : Tail}

/-! ## Symbols -/

section Groups

variable {x y z u : Nat}

end Groups

end Worksite.Base64
