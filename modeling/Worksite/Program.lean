import Worksite.CommandLine
import Worksite.Client

/-!
The program: what a command does on a machine, and what it prints. An error is printed with its
causes below it.
-/
namespace Worksite

/-- How a command ends. -/
structure Finish where
  code : Nat := 0
  output : String := ""
  errors : String := ""
  deriving DecidableEq, Repr

/-- The errors that an error comes from, nearest first. -/
def SettingsError.causes : SettingsError → List String
  | unreadable cause => [cause.message]
  | malformed => ["TOML parse error"]
  | invalid _ => []

def WorkspaceError.causes : WorkspaceError → List String
  | io _ cause => [cause.message]
  | _ => []

namespace StartError

def message : StartError → String
  | settings e => "configuration error: " ++ e.message
  | workspace e => "workspace error: " ++ e.message
  | tooManyWorkers => "too many workers"

def causes : StartError → List String
  | settings e => e.message :: e.causes
  | workspace e => e.message :: e.causes
  | tooManyWorkers => []

end StartError

namespace Finish

/-- A cause, whose later lines are indented like its first. -/
def causeLine (mark indent cause : String) : String :=
  "\n" ++ mark ++ ("\n" ++ indent).intercalate (cause.splitOn "\n")

/-- An error with its causes, numbered if there are several. -/
def report (message : String) (causes : List String) : String :=
  let lines :=
    match causes with
    | [] => []
    | [cause] => ["\n\nCaused by:", causeLine "    " "    " cause]
    | causes =>
      "\n\nCaused by:" :: causes.zipIdx.map fun (cause, n) =>
        let digits := toString n
        causeLine (String.ofList (List.replicate (5 - digits.length) ' ') ++ digits ++ ": ")
          "       " cause
  "Error: " ++ message ++ String.join lines ++ "\n"

def failure (message : String) (causes : List String) : Finish :=
  { code := 1, errors := report message causes }

def line (output : String) : Finish := { output := output ++ "\n" }

/-- The end of a command that talks to a daemon. -/
def ofAnswer {α : Type} (json : α → Json) : Except ClientError α → Finish
  | .ok a => line (json a).pretty
  | .error e => failure e.message e.causes

end Finish

namespace Program

/-- Settings from a file; without it, the defaults. -/
def loadSettings (m : Machine) (path : String) : Except SettingsError Settings :=
  match m.tree.canonicalText m.here path with
  | .error _ => .ok {}
  | .ok _ =>
    match m.tree.readText m.here path with
    | .ok text => Settings.parse text
    | .error e => .error (.unreadable e)

/-- Carries out a command; one that serves does not end. -/
def perform (m : Machine) (build : BuildInfo) (path : String) (settings : Settings) :
    Command → Option Finish × Machine
  | .serve =>
    match m.start settings with
    | .ok m => (none, m)
    | .error e =>
      (some (.failure "daemon exited with an error" (e.message :: e.causes)), m)
  | .config true => (some (.line settings.render), m)
  | .config false => (some (.line ("Configuration at '" ++ path ++ "' is valid.")), m)
  | .stop =>
    let (a, m) := Client.stop m build settings.daemon.socketPath
    (some (.ofAnswer Response.Stopping.json a), m)
  | .health =>
    let (a, m) := Client.health m build settings.daemon.socketPath
    (some (.ofAnswer Response.Health.json a), m)
  | .ask request =>
    let (a, m) := Client.perform m build settings.daemon.socketPath request
    (some (.ofAnswer Response.json a), m)

/-- Runs the program with arguments. -/
def run (m : Machine) (build : BuildInfo) (arguments : List String) : Option Finish × Machine :=
  match CommandLine.parse arguments with
  | .error .usage => (some { code := 2 }, m)
  | .error (.shown text) => (some { output := text }, m)
  | .ok i =>
    match loadSettings m i.settings with
    | .error e =>
      (some (.failure ("invalid configuration at '" ++ i.settings ++ "'")
        (e.message :: e.causes)), m)
    | .ok settings => perform m build i.settings settings i.command

end Program

end Worksite
