import Worksite.Proofs.Request
import Worksite.Proofs.Response

/-!
The formats of requests and responses. Each value is read back from its text, and from the text of
every rearranged tree; where a content is spread among the members, only members that can be kept
may be added.
-/
namespace Worksite

open Raw Reading

section

open Request

end

section

open Response

end

namespace Format

variable {f : Format}

end Format

section

open Request Format

end

section

open Response Format

end

/-- Lists in one another. -/
def nested : Nat → Json
  | 0 => .array []
  | depth + 1 => .array [nested depth]

end Worksite
