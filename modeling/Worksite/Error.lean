import Worksite.Text

/-!
Errors of workspace operations. Each has a kind, which is stable, and a message. A failed request
also names its operation.
-/
namespace Worksite

/-- What the file system answers when it refuses. -/
inductive SystemError where
  | noEntry
  | exists
  | notDirectory
  | isDirectory
  | notEmpty
  | nameTooLong
  | tooManyLinks
  | noDevice
  /-- A path holds the character NUL. -/
  | nul
  | other (text : String)
  deriving DecidableEq, Repr

def SystemError.message : SystemError → String
  | .noEntry => "No such file or directory (os error 2)"
  | .exists => "File exists (os error 17)"
  | .notDirectory => "Not a directory (os error 20)"
  | .isDirectory => "Is a directory (os error 21)"
  | .notEmpty => "Directory not empty (os error 39)"
  | .nameTooLong => "File name too long (os error 36)"
  | .tooManyLinks => "Too many levels of symbolic links (os error 40)"
  | .noDevice => "No such device or address (os error 6)"
  | .nul => "file name contained an unexpected NUL byte"
  | .other text => text

inductive ErrorKind where
  | pathEscape
  | policyDenied
  | readOnly
  | notFound
  | invalidPattern
  | invalidArgument
  | io
  | internal
  | timeout
  deriving DecidableEq, Repr

namespace ErrorKind

def tag : ErrorKind → String
  | pathEscape => "path_escape"
  | policyDenied => "policy_denied"
  | readOnly => "read_only"
  | notFound => "not_found"
  | invalidPattern => "invalid_pattern"
  | invalidArgument => "invalid_argument"
  | io => "io"
  | internal => "internal"
  | timeout => "timeout"

def all : List ErrorKind :=
  [pathEscape, policyDenied, readOnly, notFound, invalidPattern, invalidArgument, io, internal,
   timeout]

def ofTag? (s : String) : Option ErrorKind := all.find? (·.tag = s)

/-- Violations of the sandbox or the policy, which are never retried. -/
def isSecurity : ErrorKind → Bool
  | pathEscape | policyDenied | readOnly => true
  | _ => false

def status : ErrorKind → Nat
  | pathEscape | policyDenied | readOnly => 403
  | notFound => 404
  | invalidPattern | invalidArgument => 400
  | timeout => 504
  | io | internal => 500

end ErrorKind

inductive WorkspaceError where
  | pathEscape (path : String)
  | policyDenied (path reason : String)
  | readOnly
  | notFound (path reason : String)
  | invalidPattern (pattern reason : String)
  | invalidArgument (reason : String)
  | io (path : String) (cause : SystemError)
  | internal (reason : String)
  deriving DecidableEq, Repr

namespace WorkspaceError

/-- The error of a refusal at `path`: what is not there is not found. -/
def ofSystem (path : String) : SystemError → WorkspaceError
  | .noEntry => notFound path "no such file or directory"
  | e => io path e

def kind : WorkspaceError → ErrorKind
  | pathEscape _ => .pathEscape
  | policyDenied _ _ => .policyDenied
  | readOnly => .readOnly
  | notFound _ _ => .notFound
  | invalidPattern _ _ => .invalidPattern
  | invalidArgument _ => .invalidArgument
  | io _ _ => .io
  | internal _ => .internal

def message : WorkspaceError → String
  | pathEscape path => "path escapes the workspace: " ++ path
  | policyDenied path reason => "write policy denied " ++ path ++ ": " ++ reason
  | readOnly => "workspace is read-only"
  | notFound path reason => "not found: " ++ path ++ " (" ++ reason ++ ")"
  | invalidPattern pattern reason => "invalid pattern " ++ Text.quoted pattern ++ ": " ++ reason
  | invalidArgument reason => "invalid argument: " ++ reason
  | io path cause => "I/O error on " ++ path ++ ": " ++ cause.message
  | internal reason => "internal error: " ++ reason

end WorkspaceError

/-- A failed request. -/
structure ServiceError where
  operation : String
  error : WorkspaceError
  deriving DecidableEq, Repr

def ServiceError.message (e : ServiceError) : String := e.operation ++ ": " ++ e.error.message

end Worksite
