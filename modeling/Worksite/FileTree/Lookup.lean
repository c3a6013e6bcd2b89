import Worksite.FileTree
import Worksite.Error

/-!
Finding entries by their paths. Links on the way are followed, up to a number that no honest path
needs; the link at the end is followed or kept.
-/
namespace Worksite

/-- The bytes of the file that an entry is. -/
def Entry.bytes : Entry → Except SystemError ByteArray
  | .file bytes _ => .ok bytes
  | .directory => .error .isDirectory
  | .link _ => .error .tooManyLinks
  | .socket _ => .error .noDevice

namespace FileTree

/-- The most links that one path may lead through. -/
def maxLinks : Nat := 40

/-- The most bytes of one name. -/
def maxName : Nat := 255

/-- A path of so many bytes is refused. -/
def maxPath : Nat := 4096

/-- Where names lead, up to the first link that has to be followed. -/
inductive Course where
  | arrived (l : Location)
  | led (directory : Location) (target : String) (rest : List String)
  | refused (e : SystemError)
  deriving DecidableEq, Repr

/-- Walks names from `l`. A blank name and a dot stay, and all but a last link need a directory. -/
def course (t : FileTree) (last : Bool) : Location → List String → Course
  | l, [] => .arrived l
  | l, s :: rest =>
    if !t.isDirectory l then .refused .notDirectory
    else if s = "" || s = "." then course t last l rest
    else if s = ".." then course t last l.dropLast rest
    else if maxName < s.utf8ByteSize then .refused .nameTooLong
    else
      match t.entry? (l ++ [s]) with
      | none => .refused .noEntry
      | some (.link target) =>
        if rest.isEmpty && !last then .arrived (l ++ [s]) else .led l target rest
      | some _ => course t last (l ++ [s]) rest

/-- Walks names from a location and follows up to `links` links. -/
def follow (t : FileTree) (last : Bool) (links : Nat) (l : Location) (names : List String) :
    Except SystemError Location :=
  match t.course last l names with
  | .arrived l => .ok l
  | .refused e => .error e
  | .led directory target rest =>
    match links with
    | 0 => .error .tooManyLinks
    | links + 1 =>
      t.follow last links (if Path.isAbsolute target then [] else directory)
        (Path.segments target ++ rest)

/-- The place of an existing path, with every link followed. -/
def canonical (t : FileTree) (l : Location) : Except SystemError Location :=
  if l.any (·.contains '\x00') then .error .nul else t.follow true maxLinks [] l

/-- The place of an existing path, as it is written; `here` is where a relative path starts. -/
def canonicalText (t : FileTree) (here : Location) (path : String) :
    Except SystemError Location :=
  if path = "" then .error .noEntry
  else if path.contains '\x00' then .error .nul
  else t.follow true maxLinks (if Path.isAbsolute path then [] else here) (Path.segments path)

/-- What a path may not be for the system to look at it. -/
def checkPath (l : Location) : Except SystemError Unit :=
  if l.any (·.contains '\x00') then .error .nul
  else if maxPath ≤ l.absoluteText.utf8ByteSize then .error .nameTooLong
  else .ok ()

/-- The entry that a path leads to; a link at its end is followed if `last`. -/
def find (t : FileTree) (last : Bool) (l : Location) : Except SystemError Entry := do
  checkPath l
  let found ← t.follow last maxLinks [] l
  match t.entry? found with
  | some e => .ok e
  | none => .error .noEntry

/-- The bytes of the file that a path leads to, as it is written. -/
def readBytes (t : FileTree) (here : Location) (path : String) :
    Except SystemError ByteArray := do
  if maxPath ≤ path.utf8ByteSize && !path.contains '\x00' then .error .nameTooLong
  else
    match t.entry? (← t.canonicalText here path) with
    | some e => e.bytes
    | none => .error .noEntry

/-- The text of the file that a path leads to, as it is written. -/
def readText (t : FileTree) (here : Location) (path : String) : Except SystemError String := do
  match String.fromUTF8? (← t.readBytes here path) with
  | some s => return s
  | none => .error (.other "stream did not contain valid UTF-8")

/-- Whether a path leads to a directory. -/
def leadsToDirectory (t : FileTree) (l : Location) : Bool :=
  match t.find true l with
  | .ok .directory => true
  | _ => false

/-- The seat of a change of `l`: its directory is followed, its own name is kept. -/
def seat (t : FileTree) (l : Location) : Except SystemError Location := do
  checkPath l
  let directory ← t.follow true maxLinks [] l.dropLast
  if !t.isDirectory directory then .error .notDirectory
  else if (l.getLast?.map String.utf8ByteSize).any (maxName < ·) then .error .nameTooLong
  else .ok (directory ++ l.getLast?.toList)

end FileTree

end Worksite
