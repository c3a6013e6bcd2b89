import Worksite.Service
import Worksite.MediaType

/-!
The router: the operations of a service behind paths. A request is posted as JSON to the path of its
operation; what does not read as one is refused under the name of that operation, and changes
nothing.
-/
namespace Worksite

structure HttpRequest where
  method : String
  path : String
  contentType : Option String := none
  body : String := ""
  deriving DecidableEq, Repr

structure HttpResponse where
  status : Nat
  body : Option Json := none

namespace Router

/-- What a path is for. -/
inductive Route where
  | health
  | stop
  | operation (name : String) (read : Reading Request)

/-- The path of an operation: a slash for each dot. -/
def pathOf (operation : String) : String :=
  String.ofList ('/' :: operation.toList.map fun c => if c = '.' then '/' else c)

def route? (path : String) : Option Route :=
  if path = "/health" then some .health
  else if path = "/stop" then some .stop
  else (Request.readers.find? (pathOf ·.1 = path)).map fun (name, read) => .operation name read

/-- The most bytes of a body. -/
def maxBody : Nat := 2097152

/-- A request of a body, or what is wrong with the body. -/
def readBody (q : HttpRequest) (read : Reading Request) : Except String Request :=
  if !(q.contentType.bind MediaType.ofText?).any MediaType.isJson then
    .error "Expected request with \x60Content-Type: application/json\x60"
  else if maxBody < q.body.utf8ByteSize then
    .error "Failed to buffer the request body: length limit exceeded"
  else
    (Reading.ofText read q.body).mapError fun
      | .notJson => "Failed to parse the request body as JSON"
      | .wrongType => "Failed to deserialize the JSON body into the target type"

def failed (f : Response.Failure) : HttpResponse :=
  { status := f.kind.status, body := some f.json }

def answered : Except ServiceError Response → HttpResponse
  | .ok a => { status := 200, body := some a.json }
  | .error e => failed e.failure

/-- Whether a request asks for the end of the service. -/
def stops (q : HttpRequest) : Bool := q.path = "/stop" && q.method = "POST"

def stopping : Response.Stopping := { acknowledged := true, message := "Shutdown initiated" }

def handle (s : Service) (build : BuildInfo) (w : Workspace) (q : HttpRequest) :
    HttpResponse × Workspace :=
  match route? q.path with
  | none => ({ status := 404 }, w)
  | some .health =>
    if q.method = "GET" then
      ({ status := 200, body := some (s.health build w.index).json }, w)
    else if q.method = "HEAD" then ({ status := 200 }, w)
    else ({ status := 405 }, w)
  | some .stop =>
    if q.method = "POST" then ({ status := 200, body := some stopping.json }, w)
    else ({ status := 405 }, w)
  | some (.operation name read) =>
    if q.method ≠ "POST" then ({ status := 405 }, w)
    else
      match readBody q read with
      | .error message => (failed { kind := .invalidArgument, operation := name, message }, w)
      | .ok request =>
        let (a, w) := s.answer w request
        (answered a, w)

end Router

end Worksite
