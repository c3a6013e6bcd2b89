import Worksite.Proofs.Search
import Worksite.Proofs.Service.Reporting
import Worksite.Proofs.Service.Spelling
import Worksite.Proofs.Symbol.Declaration

/-!
Lines by their numbers. A search, the declarations of a text and a reading of lines count the lines
of a file alike.
-/
namespace Worksite

open FileTree Sandbox
open Text (Chars IsLine splitLines dropLineEnd)

/-! ## Reading one line -/

namespace Place

variable {p : Place} {t : FileTree} {bytes : ByteArray} {mode n : Nat} {text : String}
  {line : Chars} {lines : List Chars}

end Place

namespace Service

variable {s : Service} {t : FileTree} {path text : String} {p : Place} {bytes : ByteArray}
  {mode n : Nat} {line : Chars}

def notedService : Service where
  settings := { workspace := { root := "/ws" } }
  sandbox := { root := ["ws"] }
  policy := {}
  pool := { size := 4 }

end Service

end Worksite
