import Worksite.Place

/-!
The sandbox: every path of a caller is resolved here first. Dots and climbs are folded by the text
alone, then links are followed as far as the path exists; the outcome of either has to be below the
root.
-/
namespace Worksite

/-- The boundary of a workspace: its root, with all links followed. -/
structure Sandbox where
  root : Location
  deriving DecidableEq, Repr

namespace Sandbox

/-- A root must be there and be a directory. -/
def ofRoot (t : FileTree) (here : Location) (root : String) : Except WorkspaceError Sandbox :=
  match t.canonicalText here root with
  | .error e => .error (.ofSystem root e)
  | .ok l =>
    if t.isDirectory l then .ok { root := l }
    else .error (.notFound root "workspace root is not a directory")

/-- The place of the longest part of a path that exists, with the other names behind it. The names
come last one first. -/
def existingPrefix (t : FileTree) : List String → Except SystemError Location
  | [] => t.canonical []
  | name :: above =>
    match t.canonical (name :: above).reverse with
    | .ok l => .ok l
    | .error .noEntry => (existingPrefix t above).map (· ++ [name])
    | .error e => .error e

/-- Resolves folded names; `shown` is how the path is called in errors. -/
def resolveNames (s : Sandbox) (t : FileTree) (shown : String) (names : Location) :
    Except WorkspaceError Place :=
  if !names.isWithin s.root then .error (.pathEscape shown)
  else
    match existingPrefix t names.reverse with
    | .error e => .error (.ofSystem shown e)
    | .ok l =>
      match l.relativeTo? s.root with
      | some relative => .ok { absolute := l, relative }
      | none => .error (.pathEscape shown)

/-- Resolves the path of a caller. It need not exist. -/
def resolve (s : Sandbox) (t : FileTree) (path : String) : Except WorkspaceError Place :=
  match Path.locate s.root path with
  | none => .error (.pathEscape path)
  | some names => s.resolveNames t path names

/-- Resolves the path of a caller, but keeps its last name: a link stands for itself. -/
def resolveEntry (s : Sandbox) (t : FileTree) (path : String) : Except WorkspaceError Place :=
  match Path.locate s.root path with
  | none => .error (.pathEscape path)
  | some names =>
    if !names.isWithin s.root then .error (.pathEscape path)
    else if names = s.root then s.resolveNames t path names
    else do
      let above ← s.resolveNames t names.parent.absoluteText names.dropLast
      let name := names.getLast?.toList
      return { absolute := above.absolute ++ name, relative := above.relative ++ name }

/-- Whether an absolute path is there and leads below the root. -/
def contains (s : Sandbox) (t : FileTree) (path : String) : Bool :=
  match t.canonicalText [] path with
  | .ok l => l.isWithin s.root
  | .error _ => false

/-- The part of an absolute path below the root, by its text alone. -/
def relativize? (s : Sandbox) (path : String) : Option String :=
  if Path.isAbsolute path then Path.stripNames? s.root (Path.segments path) else none

end Sandbox

end Worksite
