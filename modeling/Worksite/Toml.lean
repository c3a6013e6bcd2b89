/-!
TOML values. Of floats and moments only their kind is kept.
-/
namespace Worksite

inductive Toml where
  | text (s : String)
  | int (n : Int)
  | bool (b : Bool)
  | float
  | moment
  /-- A number beyond the widest type. -/
  | huge
  | array (items : List Toml)
  | table (members : List (String × Toml))
  deriving Repr, Inhabited

namespace Toml

mutual

/-- Whether every number in the value is within the widest type. -/
def isBounded : Toml → Bool
  | huge => false
  | array items => areBounded items
  | table members => membersAreBounded members
  | _ => true

def areBounded : List Toml → Bool
  | [] => true
  | v :: rest => isBounded v && areBounded rest

def membersAreBounded : List (String × Toml) → Bool
  | [] => true
  | (_, v) :: rest => isBounded v && membersAreBounded rest

end

/-! Typed reading. -/

def text? : Toml → Option String
  | text s => some s
  | _ => none

def bool? : Toml → Option Bool
  | bool b => some b
  | _ => none

/-- A natural number below `bound`. -/
def nat? (bound : Nat) : Toml → Option Nat
  | int n => if 0 ≤ n ∧ n < bound then some n.toNat else none
  | _ => none

def nat32? (v : Toml) : Option UInt32 := (nat? (UInt32.size) v).map UInt32.ofNat

def nat64? (v : Toml) : Option UInt64 := (nat? (UInt64.size) v).map UInt64.ofNat

def texts? : Toml → Option (List String)
  | array items => items.mapM text?
  | _ => none

/-- The fields of a record by name. A list gives them in their order, and a moment gives none. -/
def fields? (names : List String) : Toml → Option (List (String × Toml))
  | table members =>
    if members.all fun (k, v) => k ∈ names || isBounded v then some members else none
  | array items => some (names.zip items)
  | moment => some []
  | _ => none

/-- A field, or what stands for it when it is missing. -/
def field? {α : Type} (members : List (String × Toml)) (name : String) (default : α)
    (read : Toml → Option α) : Option α :=
  match members.lookup name with
  | some v => read v
  | none => some default

end Toml

end Worksite
