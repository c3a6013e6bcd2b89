import Worksite.Machine

/-!
The client of a daemon: it finds the daemon by its socket, asks one thing, and reads the answer.
-/
namespace Worksite

inductive ClientError where
  | notRunning (socket : String)
  /-- There is something at the socket, but nobody answers. -/
  | refused (socket : String)
  | failed (f : Response.Failure)
  | unexpectedStatus (status : Nat)
  | unreadable (path : String)
  deriving DecidableEq, Repr

namespace ClientError

def message : ClientError → String
  | notRunning socket => "daemon is not running (socket not found at " ++ socket ++ ")"
  | refused socket => "failed to connect to daemon socket at " ++ socket ++
      ": Connection refused (os error 111)"
  | failed f => f.operation ++ " failed (" ++ f.kind.tag ++ "): " ++ f.message
  | unexpectedStatus status => "request failed: unexpected status: " ++ toString status
  | unreadable path => "failed to parse response: " ++ path

def causes : ClientError → List String
  | refused _ => ["Connection refused (os error 111)"]
  | _ => []

end ClientError

namespace Client

/-- Asks the daemon at a socket; an answer is the text of its body. -/
def exchange (m : Machine) (build : BuildInfo) (socket : String) (q : HttpRequest) :
    Except ClientError String × Machine :=
  if !(m.tree.find true (m.socketAt socket)).isOk then (.error (.notRunning socket), m)
  else
    match m.reached? socket with
    | none => (.error (.refused socket), m)
    | some d =>
      let (a, m) := m.handle d build q
      let body := (a.body.map Json.render).getD ""
      if 200 ≤ a.status && a.status < 300 then (.ok body, m)
      else
        match Reading.ofText Response.Failure.read body with
        | .ok f => (.error (.failed f), m)
        | .error _ => (.error (.unexpectedStatus a.status), m)

/-- Asks for something and reads the answer as a type. -/
def ask {α : Type} (m : Machine) (build : BuildInfo) (socket : String) (q : HttpRequest)
    (read : Reading α) : Except ClientError α × Machine :=
  let (body, m) := exchange m build socket q
  (body.bind fun text => (Reading.ofText read text).mapError fun _ => .unreadable q.path, m)

def perform (m : Machine) (build : BuildInfo) (socket : String) (request : Request) :
    Except ClientError Response × Machine :=
  ask m build socket {
    method := "POST"
    path := Router.pathOf request.operation
    contentType := some "application/json"
    body := request.json.render } (Response.readerFor request)

def health (m : Machine) (build : BuildInfo) (socket : String) :
    Except ClientError Response.Health × Machine :=
  ask m build socket { method := "GET", path := "/health" } Response.Health.read

def stop (m : Machine) (build : BuildInfo) (socket : String) :
    Except ClientError Response.Stopping × Machine :=
  ask m build socket { method := "POST", path := "/stop" } Response.Stopping.read

end Client

end Worksite
