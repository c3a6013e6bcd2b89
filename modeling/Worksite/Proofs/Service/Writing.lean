import Worksite.Proofs.Sandbox.Stability
import Worksite.Proofs.Service.Effect

/-!
What a write that succeeds leaves in the whole file system: the new bytes at the place of its path,
the directories above it, the file that it replaced as its backup, and all else as it was. What the
answer names can be read back.
-/
namespace Worksite

open FileTree Writing

variable {s : Service} {w w' : Workspace} {t t' : FileTree} {p : Place} {l d : Location}
  {content : ByteArray}

/-! ## The files after a write -/

namespace Place

end Place

/-! ## The request -/

namespace Service

end Service

end Worksite
