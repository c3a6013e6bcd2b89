/-!
Paths as written, and locations. A path is read as a list of steps: blank names and inner dots
carry no meaning. A location is a list of names from the root of the file system, or from the
workspace root when it is relative.
-/
namespace Worksite

/-- Names from a root downwards. -/
abbrev Location := List String

namespace Location

/-- A location below the workspace root, as it is shown; the root itself is blank. -/
def relativeText (l : Location) : String := "/".intercalate l

def absoluteText (l : Location) : String := "/" ++ "/".intercalate l

/-- Shown with a dot for the root. -/
def display (l : Location) : String := if l.isEmpty then "." else l.relativeText

/-- Whether `l` is `root` or below it. -/
def isWithin (l root : Location) : Bool := root.isPrefixOf l

/-- The names below `root`, when `l` is at or below it. -/
def relativeTo? (l root : Location) : Option Location :=
  if root.isPrefixOf l then some (l.drop root.length) else none

def parent (l : Location) : Location := l.dropLast

/-- The order of the names, from the root down: a location is before all below it. -/
def comesBefore : Location → Location → Bool
  | [], _ => true
  | _ :: _, [] => false
  | a :: l, b :: m => a < b || a = b && comesBefore l m

end Location

namespace Path

inductive Step where
  | here
  | up
  | name (text : String)
  deriving DecidableEq, Repr

def isAbsolute (path : String) : Bool := path.toList.head? = some '/'

def segments (path : String) : List String := (path.toList.splitOn '/').map String.ofList

def Step.ofSegment (s : String) : Step :=
  if s = "." then .here else if s = ".." then .up else .name s

/-- The steps of a path. A dot counts only where it opens a relative path. -/
def steps (path : String) : List Step :=
  let all := (segments path).filter (· ≠ "") |>.map Step.ofSegment
  match all with
  | .here :: rest =>
    let rest := rest.filter (· ≠ .here)
    if (segments path).head? = some "." then .here :: rest else rest
  | all => all.filter (· ≠ .here)

def Step.text : Step → String
  | .here => "."
  | .up => ".."
  | .name s => s

/-- The last step, if it is a name. -/
def fileName? (path : String) : Option String :=
  match (steps path).getLast? with
  | some (.name s) => some s
  | _ => none

/-- What follows the last dot of a name that does not open with it. -/
def extensionOf? (name : String) : Option String :=
  match (name.toList.reverse.span (· ≠ '.')) with
  | (after, '.' :: before) => if before.isEmpty then none else some (String.ofList after.reverse)
  | _ => none

def extension? (path : String) : Option String := (fileName? path).bind extensionOf?

/-- Takes the steps from a location; none when they climb above the root. -/
def fold : Location → List Step → Option Location
  | l, [] => some l
  | l, .here :: rest => fold l rest
  | l, .up :: rest => if l.isEmpty then none else fold l.dropLast rest
  | l, .name s :: rest => fold (l ++ [s]) rest

/-- The location a path names from `root`, by its text alone. -/
def locate (root : Location) (path : String) : Option Location :=
  if isAbsolute path then fold [] (steps path) else fold root (steps path)

/-- The steps of a path between slashes; the empty path is a dot. -/
def slashed (path : String) : String :=
  if path = "" then "."
  else
    let names := (steps path).map Step.text
    "/".intercalate (if isAbsolute path then "/" :: names else names)

/-- A path with `name` behind it. -/
def push (path name : String) : String :=
  if isAbsolute name then name
  else if path = "" || path.endsWith "/" then path ++ name
  else path ++ "/" ++ name

/-- Drops blank segments and inner dots from the end of reversed segments. -/
def dropSilent : List String → List String
  | s :: rest =>
    if s = "" || (s = "." && !rest.isEmpty) then dropSilent rest else s :: rest
  | [] => []

/-- The path of the directory that holds the last name, spelled as in `path`. -/
def parentText (path : String) : String :=
  let kept := dropSilent ((dropSilent (segments path).reverse).drop 1)
  if kept.isEmpty then (if isAbsolute path then "/" else "") else "/".intercalate kept.reverse

def isSilent (segment : String) : Bool := segment = "" || segment = "."

/-- The rest of a path, spelled as in the path, once names are taken from its front. -/
def stripNames? : Location → List String → Option String
  | [], segments => some ("/".intercalate (dropSilent (segments.dropWhile isSilent).reverse).reverse)
  | name :: names, segments =>
    match segments.dropWhile isSilent with
    | s :: rest => if s = name then stripNames? names rest else none
    | [] => none

/-- The path of the backup beside a file: its name with `.bak` behind. -/
def backupSibling (path : String) : String :=
  match fileName? path with
  | some name => push (parentText path) (name ++ ".bak")
  | none => push path ".bak"

end Path

end Worksite
