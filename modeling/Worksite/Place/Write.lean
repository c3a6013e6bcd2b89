import Worksite.Place
import Worksite.Response
import Worksite.FileTree.Change

/-!
Writing a file, step by step. The new bytes go to a passing file beside the target, which is then
renamed over it, so that the target holds either the old or the new bytes at every step. A backup
of an existing file is made the same way before. The steps of several writers may interleave.
-/
namespace Worksite

/-- A write on its way. -/
structure Writing where
  target : Place
  content : ByteArray
  createParents : Bool
  backup : Bool
  /-- The mode of the file that stood at the target. -/
  mode : Option Nat := none
  /-- The passing file. -/
  passing : Option Location := none
  /-- The names of the backup below the root, once it is in place. -/
  kept : Option Location := none

namespace Writing

/-- What is done to the file tree, one after the other. -/
inductive Step where
  | makeParents
  | inspect
  | openBackup
  | copy
  | placeBackup
  | openNew
  | fill
  | place
  deriving DecidableEq, Repr

def steps : List Step :=
  [.makeParents, .inspect, .openBackup, .copy, .placeBackup, .openNew, .fill, .place]

abbrev Outcome := Except WorkspaceError Writing × FileTree

def directory (w : Writing) : Location := w.target.absolute.parent

/-- The name of a file with `.bak` behind. -/
def backupOf (l : Location) : Location := l.parent ++ (l.getLast?.map (· ++ ".bak")).toList

/-- Whether there is something to keep. -/
def keeps (w : Writing) : Bool := w.backup && w.mode.isSome

/-- Carries on with a changed tree, or fails with the tree as it is. -/
def proceed (w : Writing) (t : FileTree) (changed : Except SystemError FileTree)
    (next : Writing) : Outcome :=
  match changed with
  | .ok t => (.ok next, t)
  | .error e => (.error (w.target.systemError e), t)

def makeParents (w : Writing) (t : FileTree) : Outcome :=
  if t.leadsToDirectory w.directory then (.ok w, t)
  else if !w.createParents then
    (.error (w.target.notFound "parent directory does not exist"), t)
  else
    match t.makeDirectories w.directory.reverse with
    | (.ok (), t) => (.ok w, t)
    | (.error e, t) => (.error (w.target.systemError e), t)

def inspect (w : Writing) (t : FileTree) : Outcome :=
  match t.find true w.target.absolute with
  | .ok .directory =>
    (.error (.invalidArgument (w.target.relative.display ++ " is a directory")), t)
  | .ok (.file _ mode) => (.ok { w with mode := some mode }, t)
  | .ok _ => (.ok { w with mode := some 0o755 }, t)
  | .error _ => (.ok w, t)

/-- Makes a passing file beside the target. -/
def openPassing (w : Writing) (t : FileTree) : Outcome :=
  let l := w.directory ++ [t.freshName w.directory]
  w.proceed t (t.create l 0o600) { w with passing := some l }

/-- Fills the passing file, and gives it the mode of the file that it will replace. -/
def fillPassing (w : Writing) (t : FileTree) (bytes : ByteArray) : FileTree :=
  match w.passing with
  | some l => t.put l (.file bytes (w.mode.getD 0o600))
  | none => t

def copy (w : Writing) (t : FileTree) : Outcome :=
  match (t.find true w.target.absolute).bind Entry.bytes with
  | .ok bytes => (.ok w, w.fillPassing t bytes)
  | .error e => (.error (w.target.systemError e), t)

/-- Renames the passing file. -/
def settle (w : Writing) (t : FileTree) (l : Location) : Outcome :=
  match w.passing with
  | some passing => w.proceed t (t.rename passing l) { w with passing := none }
  | none => (.ok w, t)

def placeBackup (w : Writing) (t : FileTree) : Outcome :=
  match w.settle t (backupOf w.target.absolute) with
  | (.ok w, t) => (.ok { w with kept := some (backupOf w.target.relative) }, t)
  | failed => failed

/-- Does one step. The steps of the backup do nothing where there is nothing to keep. -/
def step (w : Writing) (t : FileTree) : Step → Outcome
  | .makeParents => w.makeParents t
  | .inspect => w.inspect t
  | .openBackup => if w.keeps then w.openPassing t else (.ok w, t)
  | .copy => if w.keeps then w.copy t else (.ok w, t)
  | .placeBackup => if w.keeps then w.placeBackup t else (.ok w, t)
  | .openNew => w.openPassing t
  | .fill => (.ok w, w.fillPassing t w.content)
  | .place => w.settle t w.target.absolute

/-- Takes the passing file away. -/
def discard (w : Writing) (t : FileTree) : FileTree :=
  match w.passing with
  | some l => t.erase l
  | none => t

/-- Does steps until one fails, which takes the passing file away. -/
def run (w : Writing) (t : FileTree) : List Step → Outcome
  | [] => (.ok w, t)
  | s :: rest =>
    match w.step t s with
    | (.ok w, t) => w.run t rest
    | (.error e, t) => (.error e, w.discard t)

def outcome (w : Writing) : Response.WriteOutcome where
  ok := true
  path := w.target.relative.display
  bytesWritten := w.content.size
  backup := w.kept.map Location.display

end Writing

/-- Writes a file, with a backup of the one that it replaces if asked. -/
def Place.write (p : Place) (t : FileTree) (content : ByteArray) (createParents backup : Bool) :
    Except WorkspaceError Response.WriteOutcome × FileTree :=
  if p.isRoot then (.error (.invalidArgument "cannot write to the workspace root"), t)
  else
    match Writing.run { target := p, content, createParents, backup } t Writing.steps with
    | (.ok w, t) => (.ok w.outcome, t)
    | (.error e, t) => (.error e, t)

end Worksite
