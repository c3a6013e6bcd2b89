import Worksite.Program

/-!
The command line program. Its machine holds the file of settings that the arguments name, and a
daemon keeps its workspace in memory: it takes requests from standard input, one to a line with
method, path and body. Everything else is decided by `Program.run`.
-/
namespace Worksite

/-- What is known about the build. -/
def buildInfo : BuildInfo :=
  { version := CommandLine.version, revision := "unknown", profile := "release", builtAt := 0,
    grammarVersion := 15 }

/-- A machine that holds a file. -/
def Machine.withFile (path : String) (bytes : ByteArray) : Machine :=
  let l := (Path.locate [] path).getD []
  let (_, tree) := FileTree.makeDirectories {} l.dropLast.reverse
  { tree := tree.put l (.file bytes 0o644), here := [] }

/-- The machine of arguments: the file of settings is read if it is there. -/
def loadMachine (arguments : List String) : IO Machine := do
  match CommandLine.parse arguments with
  | .error _ => return { tree := {}, here := [] }
  | .ok i =>
    try return Machine.withFile i.settings (← IO.FS.readBinFile i.settings)
    catch _ => return { tree := {}, here := [] }

/-- The request of a line. -/
def HttpRequest.ofLine (line : String) : HttpRequest :=
  let line := Text.trimText line
  let method := line.takeWhile (· ≠ ' ')
  let rest := (line.drop method.toString.length).trimAsciiStart
  let path := rest.takeWhile (· ≠ ' ')
  { method := method.toString, path := path.toString, contentType := some "application/json"
    body := (rest.drop path.toString.length).trimAsciiStart.toString }

/-- Serves lines until one stops the daemon or there are no more. -/
partial def serveLines (m : Machine) (input : IO.FS.Stream) : IO Unit := do
  match m.daemons with
  | [] => return
  | d :: _ =>
    let line ← input.getLine
    if line.isEmpty then return
    let (a, m) := m.handle d buildInfo (HttpRequest.ofLine line)
    IO.println (toString a.status ++ " " ++ (a.body.map Json.render).getD "")
    serveLines m input

end Worksite

open Worksite in
def main (arguments : List String) : IO UInt32 := do
  match Program.run (← loadMachine arguments) buildInfo arguments with
  | (some f, _) =>
    IO.print f.output
    IO.eprint f.errors
    return UInt32.ofNat f.code
  | (none, m) =>
    serveLines m (← IO.getStdin)
    return 0
