/-!
Time budgets. A long job asks now and then whether its time is over, and once it is over it stays
so. Only the answers count, so a deadline is the number of times that the answer is still no.
-/
namespace Worksite

/-- How many checks pass before the time is over; none if it never is. -/
abbrev Deadline := Option Nat

namespace Deadline

def unbounded : Deadline := none

/-- A budget of zero is over at once; any other is taken to be plenty. -/
def ofMilliseconds (n : Nat) : Deadline := if n = 0 then some 0 else none

def expired : Deadline → Bool
  | some 0 => true
  | _ => false

/-- The deadline after one more check. -/
def next : Deadline → Deadline
  | some (n + 1) => some n
  | d => d

@[simp] theorem expired_unbounded : unbounded.expired = false := rfl

@[simp] theorem next_unbounded : unbounded.next = unbounded := rfl

end Deadline

end Worksite
