import Worksite.Proofs.Service.Effect
import Worksite.Proofs.Json.Reading
import Worksite.Router

/-!
The router beside the service. A body that is posted to the path of an operation is read as a
request of that operation, and what is answered is what the service answers to the request. So the
router leaves a workspace as the service leaves it after the requests that could be read.
-/
namespace Worksite

variable {s : Service} {w : Workspace} {operation : String} {read : Reading Request} {r : Raw}
  {q : Request}

namespace Request

/-- What is read for an operation is a request of that operation. -/
theorem operation_of_read (h : (operation, read) ∈ readers) (hq : read r = .ok q) :
    q.operation = operation := by
  have hmap {α : Type} {x : Except ReadError α} {f : α → Request}
      (hf : ∀ a, (f a).operation = operation) (hx : x.map f = .ok q) : q.operation = operation := by
    cases x with
    | error e => simp [Except.map] at hx
    | ok a =>
      obtain rfl : f a = q := Except.ok.inj hx
      exact hf a
  simp only [readers, List.mem_cons, List.not_mem_nil, or_false, Prod.mk.injEq] at h
  rcases h with ⟨rfl, rfl⟩ | ⟨rfl, rfl⟩ | ⟨rfl, rfl⟩ | ⟨rfl, rfl⟩ | ⟨rfl, rfl⟩ | ⟨rfl, rfl⟩ |
    ⟨rfl, rfl⟩ | ⟨rfl, rfl⟩ | ⟨rfl, rfl⟩ | ⟨rfl, rfl⟩ <;> exact hmap (fun _ => rfl) hq

end Request

namespace Router

/-! ## Paths -/

theorem pathOf_injective {a b : String} (ha : a ∈ Request.readers.map Prod.fst)
    (hb : b ∈ Request.readers.map Prod.fst) (h : pathOf a = pathOf b) : a = b := by
  have hall : ∀ a ∈ Request.readers.map Prod.fst, ∀ b ∈ Request.readers.map Prod.fst,
      pathOf a = pathOf b → a = b := by decide
  exact hall a ha b hb h

theorem eq_of_mem_readers {read' : Reading Request} (h : (operation, read) ∈ Request.readers)
    (h' : (operation, read') ∈ Request.readers) : read = read' := by
  have hnodup : (Request.readers.map Prod.fst).Nodup := by decide
  exact congrArg Prod.snd (List.inj_on_of_nodup_map hnodup h h' rfl)

/-- The path of an operation leads to the reading of its requests. -/
theorem route?_pathOf (h : (operation, read) ∈ Request.readers) :
    route? (pathOf operation) = some (.operation operation read) := by
  have hname : operation ∈ Request.readers.map Prod.fst := List.mem_map.mpr ⟨_, h, rfl⟩
  have hother : ∀ a ∈ Request.readers.map Prod.fst, pathOf a ≠ "/health" ∧ pathOf a ≠ "/stop" := by
    decide
  obtain ⟨hhealth, hstop⟩ := hother operation hname
  rw [route?, if_neg hhealth, if_neg hstop]
  cases hfind : Request.readers.find? (pathOf ·.1 = pathOf operation) with
  | none =>
    have hnone := List.find?_eq_none.mp hfind _ h
    exact absurd (decide_eq_true rfl) hnone
  | some found =>
    obtain ⟨name, read'⟩ := found
    have hmem := List.mem_of_find?_eq_some hfind
    have hsame : pathOf name = pathOf operation := by simpa using List.find?_some hfind
    obtain rfl : name = operation :=
      pathOf_injective (List.mem_map.mpr ⟨_, hmem, rfl⟩) hname hsame
    rw [eq_of_mem_readers h hmem]
    rfl

/-! ## Posts -/

/-- A body of JSON that is posted to the path of an operation. -/
structure Post where
  operation : String
  read : Reading Request
  served : (operation, read) ∈ Request.readers
  contentType : String
  isJson : (MediaType.ofText? contentType).any MediaType.isJson
  body : String
  fits : body.utf8ByteSize ≤ maxBody

namespace Post

def http (p : Post) : HttpRequest :=
  { method := "POST", path := pathOf p.operation, contentType := some p.contentType
    body := p.body }

/-- What the body says. -/
def request (p : Post) : Except ReadError Request := Reading.ofText p.read p.body

theorem operation_of_request {p : Post} (h : p.request = .ok q) : q.operation = p.operation :=
  Request.operation_of_read p.served (Reading.ofText_eq_ok.mp h).1

end Post

/-- The requests among the posts. -/
def requests (posts : List Post) : List Request := posts.filterMap fun p => p.request.toOption

/-- The body of a refusal. -/
def refusal (kind operation message : String) : Json :=
  .object [("error", .object [("kind", .text kind), ("operation", .text operation),
    ("message", .text message)])]

def unreadable : ReadError → String
  | .notJson => "Failed to parse the request body as JSON"
  | .wrongType => "Failed to deserialize the JSON body into the target type"

/-- How a post is answered in a workspace: by what the service makes of the request, and by a
refusal where there is none. -/
inductive Answers (s : Service) (w : Workspace) (p : Post) : HttpResponse → Prop
  | done {q : Request} {a : Response} (hq : p.request = .ok q) (ha : (s.perform w q).1 = .ok a) :
    Answers s w p { status := 200, body := some a.json }
  | failed {q : Request} {e : WorkspaceError} (hq : p.request = .ok q)
    (he : (s.perform w q).1 = .error e) :
    Answers s w p {
      status := e.kind.status, body := some (refusal e.kind.tag p.operation e.message) }
  | unread {e : ReadError} (he : p.request = .error e) :
    Answers s w p {
      status := 400, body := some (refusal "invalid_argument" p.operation (unreadable e)) }

theorem readBody_http (p : Post) : readBody p.http p.read = p.request.mapError unreadable := by
  have hfits : ¬ maxBody < p.http.body.utf8ByteSize := Nat.not_lt.mpr p.fits
  have hjson : (p.http.contentType.bind MediaType.ofText?).any MediaType.isJson = true := p.isJson
  rw [readBody, if_neg hfits, hjson]
  rfl

/-- One post is answered as the service answers its request, and leaves what this leaves; without a
request nothing changes. -/
theorem handle_post (s : Service) (build : BuildInfo) (w : Workspace) (p : Post) :
    Answers s w p (handle s build w p.http).1 ∧
      (handle s build w p.http).2 = s.run w (requests [p]) := by
  have hroute : route? p.http.path = some (.operation p.operation p.read) :=
    route?_pathOf p.served
  have hpost : ¬ p.http.method ≠ "POST" := not_not.mpr rfl
  simp only [handle, hroute, if_neg hpost, readBody_http]
  cases hq : p.request with
  | error e =>
    have hnone : requests [p] = [] := by simp [requests, hq, Except.toOption]
    rw [hnone]
    exact ⟨.unread hq, rfl⟩
  | ok q =>
    have hone : requests [p] = [q] := by simp [requests, hq, Except.toOption]
    rw [hone]
    refine ⟨?_, rfl⟩
    show Answers s w p (answered (s.answer w q).1)
    have hanswer : (s.answer w q).1 = (s.perform w q).1.mapError fun error =>
        { operation := q.operation, error } := rfl
    rw [hanswer, Post.operation_of_request hq]
    cases ha : (s.perform w q).1 with
    | ok a => exact .done hq ha
    | error e => exact .failed hq ha

/-! ## Runs -/

/-- Handles requests one after the other. -/
def run (s : Service) (build : BuildInfo) :
    Workspace → List HttpRequest → List HttpResponse × Workspace
  | w, [] => ([], w)
  | w, q :: rest =>
    let (a, w) := handle s build w q
    let (answers, w) := run s build w rest
    (a :: answers, w)

theorem run_cons (s : Service) (build : BuildInfo) (w : Workspace) (q : HttpRequest)
    (rest : List HttpRequest) : run s build w (q :: rest) =
      ((handle s build w q).1 :: (run s build (handle s build w q).2 rest).1,
        (run s build (handle s build w q).2 rest).2) := rfl

theorem requests_cons (p : Post) (posts : List Post) :
    requests (p :: posts) = requests [p] ++ requests posts :=
  List.filterMap_append (l := [p])

theorem service_run_append (s : Service) (w : Workspace) (first rest : List Request) :
    s.run w (first ++ rest) = s.run (s.run w first) rest :=
  List.foldl_append

/-- The router refines the service. Whatever is posted to the operations, the workspace becomes
what the service makes of it when it is asked the requests directly, and each post is answered, in
turn, as the service answers its request in the workspace that the requests before it leave. -/
theorem run_refines (s : Service) (build : BuildInfo) (w : Workspace) (posts : List Post) :
    (run s build w (posts.map Post.http)).2 = s.run w (requests posts) ∧
      (run s build w (posts.map Post.http)).1.length = posts.length ∧
      ∀ before p after, posts = before ++ p :: after →
        ∃ a, (run s build w (posts.map Post.http)).1[before.length]? = some a ∧
          Answers s (s.run w (requests before)) p a := by
  induction posts generalizing w with
  | nil => exact ⟨rfl, rfl, fun before p after h => by simp at h⟩
  | cons p posts ih =>
    obtain ⟨hanswer, hafter⟩ := handle_post s build w p
    obtain ⟨hlast, hlength, hanswers⟩ := ih (handle s build w p.http).2
    rw [List.map_cons, run_cons]
    refine ⟨?_, congrArg (· + 1) hlength, ?_⟩
    · rw [requests_cons, service_run_append, ← hafter]
      exact hlast
    · intro before p' after hsplit
      cases before with
      | nil =>
        obtain ⟨rfl, -⟩ := List.cons.inj hsplit
        exact ⟨_, rfl, hanswer⟩
      | cons first before =>
        obtain ⟨rfl, hrest⟩ := List.cons.inj hsplit
        obtain ⟨a, ha, hp⟩ := hanswers before p' after hrest
        rw [requests_cons, service_run_append, ← hafter]
        exact ⟨a, ha, hp⟩

end Router

end Worksite
