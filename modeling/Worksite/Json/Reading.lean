import Worksite.Json.Raw

/-!
Typed reading of JSON text. Of a wrong type and text that is not JSON, the one that is met first
from left to right is reported. A record may be written as an object, where unknown members are
passed over and no known one may come twice, or as a list of its fields in their order.
-/
namespace Worksite

/-- Why a text does not read as a type: it is not JSON, or it is of another type. -/
inductive ReadError where
  | notJson
  | wrongType
  deriving DecidableEq, Repr

abbrev Reading (α : Type) := Raw → Except ReadError α

namespace Reading

/-- The error of a value of the wrong type: its own text comes before its type. -/
def mismatch {α : Type} : Reading α
  | .broken | .half | .huge => .error .notJson
  | _ => .error .wrongType

def text : Reading String
  | .text s => .ok s
  | r => mismatch r

def bool : Reading Bool
  | .bool b => .ok b
  | r => mismatch r

def int (low high : Int) : Reading Int
  | .int n => if low ≤ n && n ≤ high then .ok n else .error .wrongType
  | r => mismatch r

def nat64 : Reading Nat := fun r => (int 0 (UInt64.size - 1) r).map Int.toNat

def nat32 : Reading UInt32 := fun r => (int 0 (UInt32.size - 1) r).map fun n => UInt32.ofNat n.toNat

def int64 : Reading Int := int Int64.minValue.toInt Int64.maxValue.toInt

def option {α : Type} (read : Reading α) : Reading (Option α)
  | .null => .ok none
  | r => (read r).map some

/-- The items of a list, then its end. -/
def items {α : Type} (read : Reading α) (whole : Bool) : List Raw → Except ReadError (List α)
  | [] => if whole then .ok [] else .error .notJson
  | r :: rest => do
    let a ← read r
    return a :: (← items read whole rest)

def list {α : Type} (read : Reading α) : Reading (List α)
  | .array rs whole => items read whole rs
  | r => mismatch r

/-- A name out of several, alone or as the only member of an object with nothing in it. -/
def tag {α : Type} (ofTag? : String → Option α) : Reading α
  | .text s => (ofTag? s).elim (.error .wrongType) .ok
  | .object [] _ => .error .notJson
  | .object ((none, _) :: _) _ => .error .notJson
  | .object [(some s, .null)] true => (ofTag? s).elim (.error .wrongType) .ok
  | .object ((some s, v) :: _) _ =>
    match ofTag? s, v with
    | none, _ => .error .wrongType
    | some _, .null => .error .notJson
    | some _, v => mismatch v
  | _ => .error .notJson

/-! Records. -/

/-- How a field that is missing is taken. -/
inductive Absence where
  | isError
  /-- An object may leave it out, a list may not. -/
  | inObject
  | isDefault
  deriving DecidableEq

structure Field where
  name : String
  absence : Absence
  check : Raw → Except ReadError Unit

def Field.required {α : Type} (name : String) (read : Reading α) : Field :=
  ⟨name, .isError, fun r => (read r).map fun _ => ()⟩

def Field.optional {α : Type} (name : String) (read : Reading α) : Field :=
  ⟨name, .inObject, fun r => (option read r).map fun _ => ()⟩

def Field.defaulted {α : Type} (name : String) (read : Reading α) : Field :=
  ⟨name, .isDefault, fun r => (read r).map fun _ => ()⟩

/-- The fields that were met, each once. -/
abbrev Members := List (String × Raw)

/-- Goes through the members of an object; `pass` tells whether an unknown one may stand there. -/
def members (fields : List Field) (pass : Raw → Bool) (whole : Bool) :
    Members → List (Option String × Raw) → Except ReadError Members
  | met, [] => if whole then .ok met else .error .notJson
  | _, (none, _) :: _ => .error .notJson
  | met, (some k, v) :: rest =>
    match fields.find? (·.name = k) with
    | some f => do
      if (met.lookup k).isSome then .error .wrongType
      f.check v
      members fields pass whole (met ++ [(k, v)]) rest
    | none => if pass v then members fields pass whole met rest else .error .notJson

/-- Goes through the items of a list that stands for a record. -/
def positions (whole : Bool) : Members → List Field → List Raw → Except ReadError Members
  | met, [], [] => if whole then .ok met else .error .notJson
  | _, [], _ :: _ => .error .notJson
  | met, fields, [] =>
    if !whole then .error .notJson
    else if fields.all (·.absence = .isDefault) then .ok met
    else .error .wrongType
  | met, f :: fields, r :: rest => do
    f.check r
    positions whole (met ++ [(f.name, r)]) fields rest

def missing (fields : List Field) (met : Members) : Bool :=
  fields.any fun f => f.absence = .isError && (met.lookup f.name).isNone

def fieldsOf (fields : List Field) : Reading Members
  | .object ms whole => do
    let met ← members fields Raw.isSound whole [] ms
    if missing fields met then .error .wrongType else .ok met
  | .array rs whole => positions whole [] fields rs
  | r => mismatch r

/-- The members with a name that is of no field. -/
def besides (fields : List Field) (ms : List (Option String × Raw)) : Members :=
  ms.filterMap fun (k, v) => k.bind fun k =>
    if fields.any (·.name = k) then none else some (k, v)

/-- The fields of a record whose other members are kept for a part of it that is spread among
them; such a record is never written as a list. -/
def spreadFieldsOf (fields : List Field) : Reading (Members × Members)
  | .object ms whole => do
    let met ← members fields (Raw.isKept 126) whole [] ms
    if missing fields met then .error .wrongType
    else .ok (met, besides fields ms)
  | r => mismatch r

def required {α : Type} (met : Members) (name : String) (read : Reading α) :
    Except ReadError α :=
  match met.lookup name with
  | some r => read r
  | none => .error .wrongType

def optional {α : Type} (met : Members) (name : String) (read : Reading α) :
    Except ReadError (Option α) :=
  match met.lookup name with
  | some r => option read r
  | none => .ok none

def defaulted {α : Type} (met : Members) (name : String) (default : α) (read : Reading α) :
    Except ReadError α :=
  match met.lookup name with
  | some r => read r
  | none => .ok default

/-- Reads a whole text. -/
def ofText {α : Type} (read : Reading α) (s : String) : Except ReadError α := do
  let (r, rest) := Raw.ofText s.toList
  let a ← read r
  if (Raw.skipBlank rest).isEmpty then .ok a else .error .notJson

end Reading

end Worksite
