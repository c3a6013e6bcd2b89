import Worksite.Path

/-!
File trees: what a file system holds at each location. The root is always a directory. A change at
one location leaves all others alone.
-/
namespace Worksite

/-- What stands at a location. -/
inductive Entry where
  | file (bytes : ByteArray) (mode : Nat)
  | link (target : String)
  | directory
  /-- A door to the daemon of a number. -/
  | socket (daemon : Nat)

/-- The entries below the root, one for each location that is taken. -/
structure FileTree where
  entries : List (Location × Entry) := []
  distinct : (entries.map Prod.fst).Nodup := by simp

namespace FileTree

/-- The entry at a location. -/
def entry? (t : FileTree) : Location → Option Entry
  | [] => some .directory
  | l => t.entries.lookup l

def isDirectory (t : FileTree) (l : Location) : Bool :=
  match t.entry? l with
  | some .directory => true
  | _ => false

/-- The entries whose location passes a test. -/
def restrict (t : FileTree) (keep : Location → Bool) : FileTree where
  entries := t.entries.filter fun e => keep e.1
  distinct := (List.filter_sublist.map Prod.fst).nodup t.distinct

/-- Places an entry; what stood at the location is replaced. -/
def put (t : FileTree) (l : Location) (e : Entry) : FileTree where
  entries := (l, e) :: (t.restrict (· ≠ l)).entries
  distinct := by
    have absent : l ∉ (t.restrict (· ≠ l)).entries.map Prod.fst := by
      simp [restrict]
    exact List.nodup_cons.2 ⟨absent, (t.restrict (· ≠ l)).distinct⟩

def erase (t : FileTree) (l : Location) : FileTree := t.restrict (· ≠ l)

/-- Drops a location with everything below it. -/
def eraseTree (t : FileTree) (l : Location) : FileTree := t.restrict (!l.isPrefixOf ·)

/-- The locations strictly below `root`, in the order of their names. -/
def below (t : FileTree) (root : Location) : List Location :=
  ((t.entries.map Prod.fst).filter fun l => root.isPrefixOf l && l ≠ root).mergeSort
    Location.comesBefore

/-- The names in a directory, in order. -/
def names (t : FileTree) (directory : Location) : List String :=
  (t.entries.filterMap fun e => if e.1.dropLast = directory then e.1.getLast? else none).mergeSort
    fun a b => decide (a ≤ b)

end FileTree

end Worksite
