import Worksite.Path
import Worksite.Text

/-!
Write policies: which paths of the workspace may be written or deleted. A path under a denied
prefix is refused, also when a prefix lies below what would be deleted; where prefixes are allowed,
a path must be under one of them. Prefixes are compared name by name.
-/
namespace Worksite

inductive WriteOperation where
  | write
  | delete
  deriving DecidableEq, Repr

def WriteOperation.tag : WriteOperation → String
  | .write => "write"
  | .delete => "delete"

structure WritePolicy where
  allowed : List Location := []
  denied : List Location := []
  backupOnWrite : Bool := false
  deriving DecidableEq, Repr

/-- Why a change is refused. -/
inductive Denial where
  | underDenied (operation : WriteOperation) (path denied : Location)
  | aboveDenied (operation : WriteOperation) (path denied : Location)
  | outsideAllowed (operation : WriteOperation) (path : Location)
  deriving DecidableEq, Repr

def Denial.message : Denial → String
  | underDenied operation path denied =>
    operation.tag ++ " of '" ++ path.relativeText ++ "' matches denied prefix '" ++
      denied.display ++ "'"
  | aboveDenied operation path denied =>
    operation.tag ++ " of '" ++ path.display ++ "' would remove denied path '" ++
      denied.display ++ "'"
  | outsideAllowed operation path =>
    operation.tag ++ " of '" ++ path.relativeText ++ "' is outside every allowed prefix"

namespace WritePolicy

/-- The names of a path, with its climbs. Dots and the root are dropped. -/
def namesOf (path : String) : Location :=
  ((Path.steps path).filter (· ≠ .here)).map Path.Step.text

/-- A prefix as it is configured: `./src/`, `/src` and `src` are the same. -/
def prefixOf (text : String) : Location := namesOf (Text.trimText text)

def ofPrefixes (allowed denied : List String) (backupOnWrite : Bool) : WritePolicy where
  allowed := allowed.map prefixOf
  denied := denied.map prefixOf
  backupOnWrite := backupOnWrite

/-- Denies one more prefix. -/
def deny (p : WritePolicy) (names : Location) : WritePolicy :=
  if names ∈ p.denied then p else { p with denied := p.denied ++ [names] }

def authorize (p : WritePolicy) (path : Location) (operation : WriteOperation) :
    Except Denial Unit :=
  match p.denied.find? (·.isPrefixOf path) with
  | some denied => .error (.underDenied operation path denied)
  | none =>
    match if operation = .delete then p.denied.find? (path.isPrefixOf ·) else none with
    | some denied => .error (.aboveDenied operation path denied)
    | none =>
      if p.allowed.isEmpty || p.allowed.any (·.isPrefixOf path) then .ok ()
      else .error (.outsideAllowed operation path)

end WritePolicy

end Worksite
