import Worksite.Router

/-!
A machine: a file tree with the daemons that run on it. A daemon answers at a socket, which is a
name in the file tree. It takes the name when it starts, whoever held it before, and removes what
is at the name when it stops. A daemon that did not get its name runs all the same, but nobody
reaches it.
-/
namespace Worksite

/-- A running daemon. -/
structure Daemon where
  number : Nat
  service : Service
  /-- Whether it got its name. -/
  bound : Bool
  index : IndexSnapshot := {}

structure Machine where
  tree : FileTree
  /-- Where relative paths start. -/
  here : Location
  daemons : List Daemon := []
  /-- How many daemons were started. -/
  started : Nat := 0

namespace Machine

/-- The path of a socket is shorter than this, in bytes. -/
def maxSocketPath : Nat := 108

/-- Removes what is at the name `l`, if there is anything. -/
def vacate (t : FileTree) (l : Location) : Except SystemError FileTree :=
  if (t.find true l).isOk then t.remove l else .ok t

/-- Puts the socket of a daemon at the name `l`, written as `path`, and whether that went well. -/
def bindSocket (t : FileTree) (l : Location) (path : String) (number : Nat) : Bool × FileTree :=
  /- Where its directory cannot be made, there is no seat. -/
  let (_, t) := t.makeDirectories l.dropLast.reverse
  if maxSocketPath ≤ path.utf8ByteSize then (false, t)
  else
    match t.seat l with
    | .error _ => (false, t)
    | .ok p => if (t.entry? p).isSome then (false, t) else (true, t.put p (.socket number))

/-- Gives a name to a daemon, whatever was there, and whether the daemon got it. -/
def openSocket (t : FileTree) (l : Location) (path : String) (number : Nat) : Bool × FileTree :=
  match vacate t l with
  | .error _ => (false, t)
  | .ok t => bindSocket t l path number

def socketPath (d : Daemon) : String := d.service.settings.daemon.socketPath

/-- The location of a socket. -/
def socketAt (m : Machine) (path : String) : Location := (Path.locate m.here path).getD []

/-- Starts a daemon with settings. -/
def start (m : Machine) (settings : Settings) : Except StartError Machine := do
  let service ← Service.ofSettings settings m.tree m.here
  let number := m.started
  let path := settings.daemon.socketPath
  let (bound, tree) := openSocket m.tree (m.socketAt path) path number
  return { m with
    tree
    daemons := m.daemons ++ [{ number, service, bound }]
    started := number + 1 }

/-- Stops a daemon, which removes what is at its socket if it got one. -/
def stop (m : Machine) (d : Daemon) : Machine :=
  let left :=
    if d.bound then (m.tree.remove (m.socketAt (socketPath d))).toOption.getD m.tree else m.tree
  { m with
    tree := left
    daemons := m.daemons.filter (·.number ≠ d.number) }

/-- The daemon that answers at a socket. -/
def reached? (m : Machine) (path : String) : Option Daemon :=
  match m.tree.find true (m.socketAt path) with
  | .ok (.socket number) => m.daemons.find? (·.number = number)
  | _ => none

/-- Lets a daemon answer a request, and stop if that is what is asked. -/
def handle (m : Machine) (d : Daemon) (build : BuildInfo) (q : HttpRequest) :
    HttpResponse × Machine :=
  let (a, w) := Router.handle d.service build { tree := m.tree, index := d.index } q
  let d := { d with index := w.index }
  let m := { m with
    tree := w.tree
    daemons := m.daemons.map fun other => if other.number = d.number then d else other }
  (a, if Router.stops q then m.stop d else m)

end Machine

end Worksite
