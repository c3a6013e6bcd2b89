import Worksite.Proofs.Json.Reading
import Worksite.Proofs.Json.Tree

/-!
Objects with their members in another order and with more of them. `Rearranged` relates a value
with such trees, at every depth that its `Shape` describes; a reader that restores a value takes it
from all of them. A record is restored once each of its fields is.
-/
namespace Worksite

open Raw Reading

/-- What is known of the objects in a value: which names a record has for its members, and what
stands behind these. -/
inductive Shape where
  | leaf
  | list (item : Shape)
  | record (names : List String) (inner : String → Shape)

/-- A record of values that are not looked into. -/
def Shape.flat (names : List String) : Shape := .record names fun _ => .leaf

/-- A record with one member that is looked into. -/
def Shape.nested (names : List String) (name : String) (shape : Shape) : Shape :=
  .record names fun k => if k = name then shape else .leaf

mutual

/-- The trees of a value: its own, or that of the items or members in turn. The members of a record
stand in any order, among any others of names that the record does not have. -/
inductive Rearranged : Shape → Json → Raw → Prop
  | same (shape : Shape) (v : Json) : Rearranged shape v v.tree
  | list {shape : Shape} {vs : List Json} {rs : List Raw} (h : RearrangedItems shape vs rs) :
    Rearranged (.list shape) (.array vs) (.array rs true)
  | record {names : List String} {inner : String → Shape} {js : List (String × Json)}
    {own others ms : Members} (h : RearrangedMembers inner js own)
    (hothers : ∀ m ∈ others, m.1 ∉ names) (hperm : ms.Perm (own ++ others)) :
    Rearranged (.record names inner) (.object js) (.object (ms.map member) true)

inductive RearrangedItems : Shape → List Json → List Raw → Prop
  | nil (shape : Shape) : RearrangedItems shape [] []
  | cons {shape : Shape} {v : Json} {r : Raw} {vs : List Json} {rs : List Raw}
    (hv : Rearranged shape v r) (h : RearrangedItems shape vs rs) :
    RearrangedItems shape (v :: vs) (r :: rs)

inductive RearrangedMembers : (String → Shape) → List (String × Json) → Members → Prop
  | nil (inner : String → Shape) : RearrangedMembers inner [] []
  | cons {inner : String → Shape} {k : String} {v : Json} {r : Raw} {js : List (String × Json)}
    {own : Members} (hv : Rearranged (inner k) v r) (h : RearrangedMembers inner js own) :
    RearrangedMembers inner ((k, v) :: js) ((k, r) :: own)

end

variable {α β : Type} {read : Reading α} {shape : Shape} {inner : String → Shape}
  {names : List String} {v : Json} {vs : List Json} {js : List (String × Json)} {r : Raw}
  {rs : List Raw} {own others met ms : Members} {fields : List Field} {a : α} {b : β} {k : String}

theorem rearrangedItems_trees (shape : Shape) (vs : List Json) :
    RearrangedItems shape vs (Json.trees vs) := by
  induction vs with
  | nil => exact .nil shape
  | cons v vs ih => exact .cons (.same shape v) ih

theorem Rearranged.items (h : Rearranged (.list shape) (.array vs) r) :
    ∃ rs, r = .array rs true ∧ RearrangedItems shape vs rs := by
  cases h with
  | same => exact ⟨_, rfl, rearrangedItems_trees shape vs⟩
  | list h => exact ⟨_, rfl, h⟩

theorem exists_memberTrees (inner : String → Shape) (js : List (String × Json)) :
    ∃ own, RearrangedMembers inner js own ∧ Json.memberTrees js = own.map member := by
  induction js with
  | nil => exact ⟨[], .nil inner, rfl⟩
  | cons m js ih =>
    obtain ⟨own, hown, heq⟩ := ih
    obtain ⟨k, v⟩ := m
    refine ⟨(k, v.tree) :: own, .cons (.same _ v) hown, ?_⟩
    rw [Json.memberTrees, heq]
    rfl

theorem Rearranged.members (h : Rearranged (.record names inner) (.object js) r) :
    ∃ own others ms : Members, RearrangedMembers inner js own ∧ (∀ m ∈ others, m.1 ∉ names) ∧
      ms.Perm (own ++ others) ∧ r = .object (ms.map member) true := by
  cases h with
  | same =>
    obtain ⟨own, hown, heq⟩ := exists_memberTrees inner js
    refine ⟨own, [], own, hown, by simp, by simp, ?_⟩
    rw [Json.tree, heq]
  | record h hothers hperm => exact ⟨_, _, _, h, hothers, hperm, rfl⟩

namespace RearrangedMembers

theorem map_fst (h : RearrangedMembers inner js own) : own.map Prod.fst = js.map Prod.fst := by
  induction js generalizing own with
  | nil =>
    cases h
    rfl
  | cons m js ih =>
    cases h with
    | cons _ h => simp [ih h]

theorem singleton {v : Json} (h : RearrangedMembers inner [(k, v)] own) :
    ∃ r, own = [(k, r)] ∧ Rearranged (inner k) v r := by
  cases h with
  | cons hv h =>
    cases h
    exact ⟨_, rfl, hv⟩

theorem exists_own (h : RearrangedMembers inner js own) {m : String × Json} (hm : m ∈ js) :
    ∃ r, (m.1, r) ∈ own ∧ Rearranged (inner m.1) m.2 r := by
  induction js generalizing own with
  | nil => exact absurd hm List.not_mem_nil
  | cons j js ih =>
    cases h with
    | @cons _ k v r js own hv h =>
      rcases List.mem_cons.mp hm with rfl | hm
      · exact ⟨r, List.mem_cons_self, hv⟩
      · obtain ⟨r, hmem, hr⟩ := ih h hm
        exact ⟨r, List.mem_cons_of_mem _ hmem, hr⟩

theorem exists_of_mem (h : RearrangedMembers inner js own) {m : String × Raw} (hm : m ∈ own) :
    ∃ v, (m.1, v) ∈ js ∧ Rearranged (inner m.1) v m.2 := by
  induction js generalizing own with
  | nil =>
    cases h
    exact absurd hm List.not_mem_nil
  | cons j js ih =>
    cases h with
    | @cons _ k v r js own hv h =>
      rcases List.mem_cons.mp hm with rfl | hm
      · exact ⟨v, List.mem_cons_self, hv⟩
      · obtain ⟨v, hmem, hv⟩ := ih h hm
        exact ⟨v, List.mem_cons_of_mem _ hmem, hv⟩

theorem filter (h : RearrangedMembers inner js own) (p : String → Bool) :
    RearrangedMembers inner (js.filter (p ·.1)) (own.filter (p ·.1)) := by
  induction js generalizing own with
  | nil =>
    cases h
    exact .nil inner
  | cons m js ih =>
    cases h with
    | @cons _ k v r js own hv h =>
      cases hp : p k with
      | true =>
        rw [List.filter_cons_of_pos (by simpa using hp),
          List.filter_cons_of_pos (by simpa using hp)]
        exact .cons hv (ih h)
      | false =>
        rw [List.filter_cons_of_neg (by simpa using hp),
          List.filter_cons_of_neg (by simpa using hp)]
        exact ih h

end RearrangedMembers

theorem isSound_of_mem (h : (Raw.object (ms.map member) true).isSound) :
    ∀ m ∈ ms, m.2.isSound := by
  have hall : membersAreSound (ms.map member) := by simpa [isSound] using h
  intro m hm
  exact membersAreSound_iff.mp hall (member m) (List.mem_map_of_mem hm)

/-! ## Readers -/

/-- Whether a reader takes the value from all its trees. -/
def Restores (read : Reading α) (shape : Shape) (v : Json) (a : α) : Prop :=
  ∀ r, Rearranged shape v r → r.isSound → read r = .ok a

theorem Rearranged.text {s : String} (h : Rearranged shape (.text s) r) : r = .text s := by
  cases h
  rfl

theorem restores_text (shape : Shape) (s : String) : Restores text shape (.text s) s := by
  intro r hr _
  rw [hr.text]
  rfl

theorem restores_bool (shape : Shape) (b : Bool) : Restores bool shape (.bool b) b := by
  intro r hr _
  cases hr
  rfl

theorem restores_int {low high n : Int} (hfits : Fits n) (h : low ≤ n ∧ n ≤ high)
    (shape : Shape) : Restores (int low high) shape (.int n) n := by
  intro r hr _
  cases hr
  rw [Json.tree, value_ofInt hfits, Reading.int, if_pos (by simpa using h)]

theorem restores_nat64 {n : Nat} (h : n < UInt64.size) (shape : Shape) :
    Restores nat64 shape (.nat n) n := by
  have hmin : Int64.minValue.toInt = -9223372036854775808 := by decide
  have hfits : Fits (n : Int) := ⟨by omega, by exact_mod_cast h⟩
  intro r hr hsound
  have hint : int 0 (UInt64.size - 1) r = .ok (n : Int) :=
    restores_int hfits ⟨by omega, by omega⟩ shape r hr hsound
  rw [nat64, hint]
  rfl

theorem restores_nat32 (shape : Shape) (n : UInt32) :
    Restores nat32 shape (.nat n.toNat) n := by
  have hlt := n.toNat_lt
  have hmin : Int64.minValue.toInt = -9223372036854775808 := by decide
  have hsize : (UInt32.size : Int) = 4294967296 := rfl
  have hsize' : (UInt64.size : Int) = 18446744073709551616 := rfl
  have hfits : Fits (n.toNat : Int) := ⟨by omega, by omega⟩
  intro r hr hsound
  have hint : int 0 (UInt32.size - 1) r = .ok (n.toNat : Int) :=
    restores_int hfits ⟨by omega, by omega⟩ shape r hr hsound
  rw [nat32, hint]
  exact congrArg Except.ok (by simp)

/-- The whole numbers of 64 bits with a sign. -/
def Int64Fits (n : Int) : Prop := Int64.minValue.toInt ≤ n ∧ n ≤ Int64.maxValue.toInt

theorem restores_int64 {n : Int} (h : Int64Fits n) (shape : Shape) :
    Restores int64 shape (.int n) n := by
  have hmax : Int64.maxValue.toInt = 9223372036854775807 := by decide
  have hsize : (UInt64.size : Int) = 18446744073709551616 := rfl
  exact restores_int ⟨h.1, by have := h.2; omega⟩ h shape

theorem restores_tag {ofTag? : String → Option α} {t : String} (h : ofTag? t = some a)
    (shape : Shape) : Restores (tag ofTag?) shape (.text t) a := by
  intro r hr _
  rw [hr.text, tag, h]
  rfl

theorem restores_option {f : α → Json} {o : Option α} (hnull : read .null = .error .wrongType)
    (h : ∀ a ∈ o, Restores read shape (f a) a) :
    Restores (option read) shape (.option f o) o := by
  intro r hr hsound
  cases o with
  | none =>
    cases hr
    rfl
  | some a =>
    have hok : read r = .ok a := h a rfl r hr hsound
    cases r with
    | null => exact absurd (hnull.symm.trans hok) (by simp)
    | _ => rw [option, hok] <;> simp [Except.map]

theorem items_restored {f : α → Json} {as : List α} (h : ∀ a ∈ as, Restores read shape (f a) a)
    (hitems : RearrangedItems shape (as.map f) rs) (hsound : areSound rs) :
    items read true rs = .ok as := by
  induction as generalizing rs with
  | nil =>
    cases hitems
    rfl
  | cons a as ih =>
    cases hitems with
    | @cons _ _ r _ rs hv hitems =>
      rw [areSound, Bool.and_eq_true] at hsound
      have hhead : read r = .ok a := h a List.mem_cons_self r hv hsound.1
      have htail := ih (fun b hb => h b (List.mem_cons_of_mem _ hb)) hitems hsound.2
      rw [items, hhead, ok_bind, htail]
      rfl

theorem restores_list {f : α → Json} {as : List α} (h : ∀ a ∈ as, Restores read shape (f a) a) :
    Restores (list read) (.list shape) (.array (as.map f)) as := by
  intro r hr hsound
  obtain ⟨rs, rfl, hitems⟩ := hr.items
  have hall : areSound rs := by simpa [isSound] using hsound
  exact items_restored h hitems hall

/-- Texts are not looked into. -/
theorem restores_texts (l : List String) : Restores (list text) .leaf (.texts l) l := by
  intro r hr hsound
  cases hr
  exact restores_list (fun s _ => restores_text .leaf s) _ (.same _ _) hsound

/-! ## Records -/

/-- Whether a member passes the check of its field. -/
def Accepts (inner : String → Shape) (f : Field) (v : Json) : Prop :=
  ∀ r, Rearranged (inner f.name) v r → r.isSound → f.check r = .ok ()

theorem accepts_cons {f : Field} (hnew : f.name ∉ fields.map (·.name))
    (hsub : (js.map Prod.fst).Sublist (fields.map (·.name))) (hf : Accepts inner f v)
    (hrest : ∀ g ∈ fields, ∀ w, (g.name, w) ∈ js → Accepts inner g w) :
    ∀ g ∈ f :: fields, ∀ w, (g.name, w) ∈ (f.name, v) :: js → Accepts inner g w := by
  have hjs (w : Json) : (f.name, w) ∉ js := fun hw =>
    hnew (hsub.subset (List.mem_map_of_mem (f := Prod.fst) hw))
  intro g hg w hw
  rcases List.mem_cons.mp hg with rfl | hg
  · rcases List.mem_cons.mp hw with heq | hw
    · obtain ⟨-, rfl⟩ := Prod.mk.inj heq
      exact hf
    · exact absurd hw (hjs w)
  · rcases List.mem_cons.mp hw with heq | hw
    · have hname : g.name ∈ fields.map (·.name) := List.mem_map_of_mem hg
      exact absurd ((Prod.mk.inj heq).1 ▸ hname) hnew
    · exact hrest g hg w hw

theorem unmet_of_cons {name : String} (hnew : name ∉ fields.map (·.name))
    (h : ∀ f ∈ fields, f.name ∉ ((name, v) :: js).map Prod.fst → met.lookup f.name = none) :
    ∀ f ∈ fields, f.name ∉ js.map Prod.fst → met.lookup f.name = none := by
  intro f hf hnot
  apply h f hf
  rw [List.map_cons, List.mem_cons, not_or]
  refine ⟨?_, hnot⟩
  rintro rfl
  exact hnew (List.mem_map_of_mem hf)

/-- How the rest of a record is made out of the fields, one after the other, whose members are
given. -/
inductive Assembles (inner : String → Shape) :
    List Field → List (String × Json) → (Members → Except ReadError β) → β → Prop
  | done {b : β} : Assembles inner [] [] (fun _ => pure b) b
  | required {α : Type} {read : Reading α} {name : String} {v : Json} {a : α} {b : β}
    {fields : List Field} {js : List (String × Json)} {k : α → Members → Except ReadError β}
    (h : Restores read (inner name) v a) (hrest : Assembles inner fields js (k a) b) :
    Assembles inner (.required name read :: fields) ((name, v) :: js)
      (fun met => Reading.required met name read >>= fun a => k a met) b
  | defaulted {α : Type} {read : Reading α} {name : String} {v : Json} {a d : α} {b : β}
    {fields : List Field} {js : List (String × Json)} {k : α → Members → Except ReadError β}
    (h : Restores read (inner name) v a) (hrest : Assembles inner fields js (k a) b) :
    Assembles inner (.defaulted name read :: fields) ((name, v) :: js)
      (fun met => Reading.defaulted met name d read >>= fun a => k a met) b
  | optional {α : Type} {read : Reading α} {name : String} {o : Option α} {f : α → Json} {b : β}
    {fields : List Field} {js : List (String × Json)}
    {k : Option α → Members → Except ReadError β}
    (h : ∀ a ∈ o, Restores (option read) (inner name) (f a) (some a))
    (hrest : Assembles inner fields js (k o) b) :
    Assembles inner (.optional name read :: fields) ((o.toList.map fun a => (name, f a)) ++ js)
      (fun met => Reading.optional met name read >>= fun a => k a met) b

namespace Assembles

variable {k : Members → Except ReadError β}

theorem sublist (h : Assembles inner fields js k b) :
    (js.map Prod.fst).Sublist (fields.map (·.name)) := by
  induction h with
  | done => exact .slnil
  | required _ _ ih | defaulted _ _ ih => exact ih.cons_cons _
  | @optional _ _ name o _ _ _ _ _ _ _ ih =>
    cases o with
    | none => exact ih.cons _
    | some a => exact ih.cons_cons _

theorem mem_of_isError (h : Assembles inner fields js k b) :
    ∀ f ∈ fields, f.absence = .isError → f.name ∈ js.map Prod.fst := by
  induction h with
  | done => simp
  | required _ _ ih =>
    rw [List.forall_mem_cons]
    exact ⟨fun _ => List.mem_cons_self, fun f hf herror => List.mem_cons_of_mem _ (ih f hf herror)⟩
  | defaulted _ _ ih =>
    rw [List.forall_mem_cons]
    exact ⟨fun herror => absurd herror (by simp [Field.defaulted]),
      fun f hf herror => List.mem_cons_of_mem _ (ih f hf herror)⟩
  | optional _ _ ih =>
    rw [List.forall_mem_cons]
    refine ⟨fun herror => absurd herror (by simp [Field.optional]), fun f hf herror => ?_⟩
    rw [List.map_append]
    exact List.mem_append_right _ (ih f hf herror)

/-- Each member passes the check of its field. -/
theorem accepts (h : Assembles inner fields js k b) (hnodup : (fields.map (·.name)).Nodup) :
    ∀ f ∈ fields, ∀ v, (f.name, v) ∈ js → Accepts inner f v := by
  induction h with
  | done => simp
  | required h hrest ih =>
    obtain ⟨hnew, hnodup⟩ := List.nodup_cons.mp hnodup
    exact accepts_cons hnew hrest.sublist (fun r hr hsound => check_eq_ok (h r hr hsound))
      (ih hnodup)
  | defaulted h hrest ih =>
    obtain ⟨hnew, hnodup⟩ := List.nodup_cons.mp hnodup
    exact accepts_cons hnew hrest.sublist (fun r hr hsound => check_eq_ok (h r hr hsound))
      (ih hnodup)
  | @optional _ _ _ o _ _ _ _ _ h hrest ih =>
    obtain ⟨hnew, hnodup⟩ := List.nodup_cons.mp hnodup
    cases o with
    | none =>
      rw [List.forall_mem_cons]
      refine ⟨fun v hv => ?_, ih hnodup⟩
      exact absurd (hrest.sublist.subset (List.mem_map_of_mem hv)) hnew
    | some a =>
      exact accepts_cons hnew hrest.sublist
        (fun r hr hsound => check_eq_ok (h a rfl r hr hsound)) (ih hnodup)

/-- What is made of the fields that were met. -/
theorem eq_ok (h : Assembles inner fields js k b) (hnodup : (fields.map (·.name)).Nodup)
    (hmet : ∀ m ∈ js, ∃ r, met.lookup m.1 = some r ∧ Rearranged (inner m.1) m.2 r ∧ r.isSound)
    (hunmet : ∀ f ∈ fields, f.name ∉ js.map Prod.fst → met.lookup f.name = none) :
    k met = .ok b := by
  induction h with
  | done => rfl
  | @required _ _ name v _ _ _ _ _ h hrest ih =>
    obtain ⟨hnew, hnodup⟩ := List.nodup_cons.mp hnodup
    rw [List.forall_mem_cons] at hmet hunmet
    obtain ⟨⟨r, hlookup, hr, hsound⟩, hmet⟩ := hmet
    have hread := (required_of_lookup hlookup).trans (h r hr hsound)
    refine (congrArg (· >>= _) hread).trans ?_
    exact ih hnodup hmet (unmet_of_cons hnew hunmet.2)
  | @defaulted _ _ name v _ d _ _ _ _ h hrest ih =>
    obtain ⟨hnew, hnodup⟩ := List.nodup_cons.mp hnodup
    rw [List.forall_mem_cons] at hmet hunmet
    obtain ⟨⟨r, hlookup, hr, hsound⟩, hmet⟩ := hmet
    have hread := (defaulted_of_lookup (a := d) hlookup).trans (h r hr hsound)
    refine (congrArg (· >>= _) hread).trans ?_
    exact ih hnodup hmet (unmet_of_cons hnew hunmet.2)
  | @optional _ _ name o _ _ _ _ _ h hrest ih =>
    obtain ⟨hnew, hnodup⟩ := List.nodup_cons.mp hnodup
    rw [List.forall_mem_cons] at hunmet
    cases o with
    | none =>
      have hnone : met.lookup name = none :=
        hunmet.1 fun hmem => hnew (hrest.sublist.subset hmem)
      refine (congrArg (· >>= _) (optional_of_none hnone)).trans ?_
      exact ih hnodup hmet hunmet.2
    | some a =>
      rw [Option.toList_some, List.map_singleton, List.singleton_append,
        List.forall_mem_cons] at hmet
      obtain ⟨⟨r, hlookup, hr, hsound⟩, hmet⟩ := hmet
      have hread := (optional_of_lookup hlookup).trans (h a rfl r hr hsound)
      refine (congrArg (· >>= _) hread).trans ?_
      exact ih hnodup hmet (unmet_of_cons hnew hunmet.2)

/-- What is met of an object whose own members are assembled: each field in order, with nothing
missing. -/
theorem eq_ok_filter (h : Assembles inner fields (js.filter (isField fields ·.1)) k b)
    (hnodup : (fields.map (·.name)).Nodup) (hown : RearrangedMembers inner js own)
    (hothers : ∀ m ∈ others, isField fields m.1 = false) (hperm : ms.Perm (own ++ others))
    (hsound : ∀ m ∈ ms, m.2.isSound) :
    Checked fields ms ∧ ((ms.filter (isField fields ·.1)).map Prod.fst).Nodup ∧
      missing fields (ms.filter (isField fields ·.1)) = false ∧
        k (ms.filter (isField fields ·.1)) = .ok b := by
  have hmine := hown.filter (isField fields)
  have hsame : (ms.filter (isField fields ·.1)).Perm (own.filter (isField fields ·.1)) := by
    have hnone : others.filter (isField fields ·.1) = [] := by
      rw [List.filter_eq_nil_iff]
      intro m hm
      simp [hothers m hm]
    have hfilter := hperm.filter (isField fields ·.1)
    rwa [List.filter_append, hnone, List.append_nil] at hfilter
  have hnames : ((ms.filter (isField fields ·.1)).map Prod.fst).Nodup := by
    rw [(hsame.map Prod.fst).nodup_iff, hmine.map_fst]
    exact hnodup.sublist h.sublist
  have hkeys (k : String) : k ∈ (ms.filter (isField fields ·.1)).map Prod.fst ↔
      k ∈ (js.filter (isField fields ·.1)).map Prod.fst := by
    rw [(hsame.map Prod.fst).mem_iff, hmine.map_fst]
  refine ⟨?_, hnames, ?_, h.eq_ok hnodup ?_ ?_⟩
  · intro m hm f hf hname
    have hfield : isField fields m.1 = true := isField_iff.mpr (hname ▸ List.mem_map_of_mem hf)
    obtain ⟨v, hv, hr⟩ :=
      hmine.exists_of_mem (hsame.mem_iff.mp (List.mem_filter.mpr ⟨hm, hfield⟩))
    rw [← hname] at hv hr
    exact h.accepts hnodup f hf v hv m.2 hr (hsound m hm)
  · rw [missing, List.any_eq_false]
    intro f hf hmissing
    simp only [Bool.and_eq_true, decide_eq_true_eq, Option.isNone_iff_eq_none] at hmissing
    have hmem := (hkeys f.name).mpr (h.mem_of_isError f hf hmissing.1)
    obtain ⟨m, hm, hname⟩ := List.mem_map.mp hmem
    have hne := List.lookup_eq_none_iff.mp hmissing.2 m hm
    simp [hname] at hne
  · intro j hj
    obtain ⟨r, hr, hrearranged⟩ := hmine.exists_own hj
    have hmem := hsame.mem_iff.mpr hr
    exact ⟨r, (lookup_eq_some_iff_mem hnames).mpr hmem, hrearranged,
      hsound _ (List.mem_filter.mp hmem).1⟩
  · intro f _ hnot
    rw [List.lookup_eq_none_iff]
    intro m hm
    have hne : f.name ≠ m.1 := by
      intro heq
      exact hnot ((hkeys f.name).mp (heq ▸ List.mem_map_of_mem hm))
    simpa using hne

/-- A record is restored once it is assembled from its fields. -/
theorem restores (h : Assembles inner fields js k b) (hnodup : (fields.map (·.name)).Nodup) :
    Restores (fun r => fieldsOf fields r >>= k) (.record (fields.map (·.name)) inner)
      (.object js) b := by
  intro r hr hsound
  obtain ⟨own, others, ms, hown, hothers, hperm, rfl⟩ := hr.members
  have hall := isSound_of_mem hsound
  have hfields : js.filter (isField fields ·.1) = js := by
    rw [List.filter_eq_self]
    intro m hm
    exact isField_iff.mpr (h.sublist.subset (List.mem_map_of_mem hm))
  have hunknown : ∀ m ∈ others, isField fields m.1 = false := by
    intro m hm
    exact Bool.eq_false_iff.mpr (mt isField_iff.mp (hothers m hm))
  obtain ⟨hchecked, hnames, hmissing, hk⟩ :=
    eq_ok_filter (hfields.symm ▸ h) hnodup hown hunknown hperm hall
  show (fieldsOf fields (.object (ms.map member) true) >>= k) = _
  rw [fieldsOf_object hchecked hnames hmissing hall, ok_bind, hk]

end Assembles

end Worksite
