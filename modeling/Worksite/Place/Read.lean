import Worksite.Place
import Worksite.Response
import Worksite.Sha256

/-!
Looking at places: directories are listed by name, files are read whole or by lines. A place that
is not of the kind asked for is not found.
-/
namespace Worksite

/-- The text of a file that is fit for scanning: not over a size, in UTF-8, and without NUL. -/
def FileTree.loadText (t : FileTree) (l : Location) (maxBytes : Nat) : Option String :=
  match t.find true l with
  | .ok (.file bytes _) =>
    if maxBytes < bytes.size || bytes.toList.contains 0 then none else String.fromUTF8? bytes
  | _ => none

def Entry.kind : Entry → EntryKind
  | .file _ _ => .file
  | .link _ => .symlink
  | .directory => .directory
  | .socket _ => .other

/-- The size that is shown: only files have one. -/
def Entry.size : Entry → Nat
  | .file bytes _ => bytes.size
  | _ => 0

namespace Place

def list (p : Place) (t : FileTree) : Except WorkspaceError (List DirectoryEntry) :=
  match t.find true p.absolute with
  | .error e => .error (p.systemError e)
  | .ok .directory =>
    .ok ((t.names p.absolute).filterMap fun name =>
      match t.find false (p.absolute ++ [name]) with
      | .error _ => none
      | .ok e =>
        let path := Location.display (p.relative ++ [name])
        some { name, path, kind := e.kind, size := e.size })
  | .ok _ => .error (p.notFound "not a directory")

def bytes (p : Place) (t : FileTree) : Except WorkspaceError ByteArray :=
  match t.find true p.absolute with
  | .error e => .error (p.systemError e)
  | .ok .directory => .error (p.notFound "is a directory")
  | .ok e => e.bytes.mapError p.systemError

def read (p : Place) (t : FileTree) (asBinary : Bool) : Except WorkspaceError FileContent :=
  (p.bytes t).map (FileContent.ofBytes · asBinary)

/-- The lines from `first` to `last` with their ends, where given; what is past the end is cut. -/
def sliceLines (lines : List Text.Chars) (first last : Option Nat) : Text.Chars :=
  let start := min (first.getD 1) (lines.length + 1) - 1
  let stop := min (last.getD lines.length) lines.length
  ((lines.drop start).take (stop - start)).flatten

/-- What is wrong with a range of lines. -/
def checkRange (first last : Option Nat) : Except WorkspaceError Unit :=
  if first = some 0 || last = some 0 then .error (.invalidArgument "line numbers are 1-based")
  else
    match first, last with
    | some a, some b =>
      if b < a then
        .error (.invalidArgument
          ("start_line " ++ toString a ++ " is after end_line " ++ toString b))
      else .ok ()
    | _, _ => .ok ()

/-- Reads lines of a text; the digest is that of the whole file. A file that is no text is read
whole and has no lines. -/
def readLines (p : Place) (t : FileTree) (first last : Option Nat) :
    Except WorkspaceError Response.ReadLines := do
  checkRange first last
  let bytes ← p.bytes t
  let answer (content : FileContent) (totalLines : Nat) : Response.ReadLines :=
    { path := p.relative.display, content, contentHash := Sha256.digest bytes, totalLines }
  match FileContent.ofBytes bytes false with
  | .text s =>
    let lines := Text.splitLines s.toList
    return answer (.text (String.ofList (sliceLines lines first last))) lines.length
  | content => return answer content 0

end Place

end Worksite
