import Worksite.Text

/-!
Media types, as in the header that tells what a body is: a type, a subtype that may end in a suffix
behind its last plus, and parameters.
-/
namespace Worksite

structure MediaType where
  type : String
  subtype : String
  suffix : Option String
  deriving DecidableEq, Repr

namespace MediaType

open Text (Chars)

def isToken (c : Char) : Bool := c.isAlphanum || "!#$%&'*+-.^_\x60|~".toList.contains c

/-- A character that may stand between quote marks. -/
def isQuotable (c : Char) : Bool := c = '\t' || (' ' ≤ c && c ≠ '\x7f' && c ≠ '"')

/-- Whether parameters are well formed: names with values, divided by semicolons. They need at
most `fuel` steps. -/
def areParameters : (fuel : Nat) → Chars → Bool
  | _, [] => true
  | 0, _ => false
  | fuel + 1, ' ' :: rest => areParameters fuel rest
  | fuel + 1, s =>
    let name := s.takeWhile isToken
    match s.drop name.length with
    | '=' :: '"' :: value =>
      let quoted := value.takeWhile isQuotable
      match value.drop quoted.length with
      | '"' :: rest =>
        match rest.dropWhile (· = ' ') with
        | [] => !name.isEmpty && !quoted.isEmpty
        | ';' :: rest => !name.isEmpty && !quoted.isEmpty && areParameters fuel rest
        | _ => false
      | _ => false
    | '=' :: value =>
      let token := value.takeWhile isToken
      match value.drop token.length with
      | [] => !name.isEmpty
      | ';' :: rest => !name.isEmpty && !token.isEmpty && areParameters fuel rest
      | _ => false
    | _ => false

/-- A subtype and its suffix. -/
def splitSuffix (s : Chars) : Chars × Option Chars :=
  match s.reverse.span (· ≠ '+') with
  | (suffix, _ :: before) =>
    if before.isEmpty then (s, none) else (before.reverse, some suffix.reverse)
  | _ => (s, none)

def ofText? (text : String) : Option MediaType := do
  let s := text.toLower.toList
  let type := s.takeWhile isToken
  guard !type.isEmpty
  match s.drop type.length with
  | '/' :: rest =>
    let subtype := rest.takeWhile isToken
    guard !subtype.isEmpty
    let parameters ←
      match rest.drop subtype.length with
      | [] => some []
      | ';' :: more | ' ' :: more => some more
      | _ => none
    guard (areParameters parameters.length parameters)
    let (subtype, suffix) := splitSuffix subtype
    return {
      type := String.ofList type
      subtype := String.ofList subtype
      suffix := suffix.map String.ofList }
  | _ => none

/-- Whether a body of the type is read as JSON. -/
def isJson (m : MediaType) : Bool :=
  m.type = "application" && (m.subtype = "json" || m.suffix = some "json")

end MediaType

end Worksite
