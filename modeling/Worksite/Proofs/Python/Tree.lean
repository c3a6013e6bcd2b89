import Mathlib
import Worksite.Symbol.Extract

/-!
The nodes of a syntax tree in the order in which they are written: each node before the nodes
inside it, and those from first to last. A stack visits them in this order.
-/
namespace Worksite.Python

namespace Tree

def construct : Tree → Construct
  | .node construct _ _ _ => construct

def name : Tree → Option String
  | .node _ name _ _ => name

def row : Tree → Nat
  | .node _ _ row _ => row

mutual

/-- A node, then the nodes inside it. -/
def preorder : Tree → List Tree
  | .node construct name row children => .node construct name row children :: preorders children

def preorders : List Tree → List Tree
  | [] => []
  | t :: rest => t.preorder ++ preorders rest

end

theorem preorder_eq (t : Tree) : t.preorder = t :: preorders t.children := by
  cases t
  rfl

@[simp] theorem preorders_nil : preorders [] = [] := rfl

@[simp] theorem preorders_cons (t : Tree) (ts : List Tree) :
    preorders (t :: ts) = t.preorder ++ preorders ts := rfl

@[simp] theorem preorders_append (ts us : List Tree) :
    preorders (ts ++ us) = preorders ts ++ preorders us := by
  induction ts with
  | nil => rfl
  | cons t rest ih => simp [ih]

theorem mem_preorders {x : Tree} {ts : List Tree} :
    x ∈ preorders ts ↔ ∃ t ∈ ts, x ∈ t.preorder := by
  induction ts with
  | nil => simp
  | cons t rest ih => simp [ih]

theorem preorders_singleton (t : Tree) : preorders [t] = t.preorder := by simp

/-! ## The stack -/

/-- The nodes that a stack visits, in turn. -/
def visits : List Tree → List Tree
  | [] => []
  | t :: stack => t :: visits (t.children ++ stack)
termination_by stack => sizes stack
decreasing_by
  rw [sizes_append]
  simp [sizes, size_eq t]

/-- What waits on the stack is visited tree by tree, whatever the stack holds. -/
theorem visits_eq (stack : List Tree) : visits stack = preorders stack := by
  induction stack using visits.induct with
  | case1 => rw [visits, preorders_nil]
  | case2 t stack ih => rw [visits, ih, preorders_append, preorders_cons, preorder_eq t]; rfl

theorem collect_eq (file : String) (stack : List Tree) :
    collect file stack = (visits stack).filterMap (symbol? file) := by
  induction stack using visits.induct with
  | case1 => rw [collect, visits, List.filterMap_nil]
  | case2 t stack ih =>
    rw [collect, visits, ih, List.filterMap_cons]
    cases t.symbol? file <;> rfl

/-! ## Places -/

/-- The node at the end of a way down: at each step, the number of the child to take. -/
def at? (t : Tree) : List Nat → Option Tree
  | [] => some t
  | i :: way => t.children[i]?.bind (·.at? way)

mutual

/-- The ways down to the nodes of a tree, in the order of the nodes. -/
def places : Tree → List (List Nat)
  | .node _ _ _ children => [] :: placesFrom 0 children

/-- The ways down through children, the first of which has number `i`. -/
def placesFrom (i : Nat) : List Tree → List (List Nat)
  | [] => []
  | t :: rest => t.places.map (i :: ·) ++ placesFrom (i + 1) rest

end

theorem places_eq (t : Tree) : t.places = [] :: placesFrom 0 t.children := by
  cases t
  rfl

theorem exists_of_mem_placesFrom {i : Nat} {ts : List Tree} {way : List Nat}
    (h : way ∈ placesFrom i ts) : ∃ j rest, way = j :: rest ∧ i ≤ j := by
  induction ts generalizing i with
  | nil => simp [placesFrom] at h
  | cons t ts ih =>
    rw [placesFrom, List.mem_append] at h
    obtain h | h := h
    · obtain ⟨rest, -, rfl⟩ := List.mem_map.mp h
      exact ⟨i, rest, rfl, le_rfl⟩
    · obtain ⟨j, rest, rfl, hj⟩ := ih h
      exact ⟨j, rest, rfl, by omega⟩

theorem cons_mem_placesFrom {i j : Nat} {ts : List Tree} {way : List Nat} :
    (i + j) :: way ∈ placesFrom i ts ↔ ∃ t, ts[j]? = some t ∧ way ∈ t.places := by
  induction ts generalizing i j with
  | nil => simp [placesFrom]
  | cons t ts ih =>
    rw [placesFrom, List.mem_append, List.mem_map]
    cases j with
    | zero =>
      have hnot : i :: way ∉ placesFrom (i + 1) ts := by
        intro h
        obtain ⟨j, rest, heq, hj⟩ := exists_of_mem_placesFrom h
        obtain ⟨rfl, -⟩ := List.cons.inj heq
        omega
      simp [hnot]
    | succ j =>
      have hnot : (i + (j + 1)) :: way ∉ t.places.map (i :: ·) := by
        intro h
        obtain ⟨rest, -, heq⟩ := List.mem_map.mp h
        obtain ⟨hi, -⟩ := List.cons.inj heq
        omega
      have hadd : i + (j + 1) = i + 1 + j := by omega
      rw [← List.mem_map, or_iff_right hnot, hadd, ih, List.getElem?_cons_succ]

/-- The ways are those that end at a node. -/
theorem mem_places {t : Tree} {way : List Nat} : way ∈ t.places ↔ (t.at? way).isSome := by
  induction way generalizing t with
  | nil => simp [places_eq, at?]
  | cons i way ih =>
    rw [places_eq, List.mem_cons, at?]
    have hmem := @cons_mem_placesFrom 0 i t.children way
    rw [Nat.zero_add] at hmem
    rw [hmem]
    cases t.children[i]? with
    | none => simp
    | some u => simp [ih]

mutual

theorem map_at?_places : ∀ t : Tree, t.places.map t.at? = t.preorder.map some
  | .node construct name row children => by
    rw [places_eq, preorder_eq, List.map_cons, List.map_cons]
    exact congrArg _ (map_at?_placesFrom children (.node construct name row children) 0 rfl)

theorem map_at?_placesFrom : ∀ (ts : List Tree) (u : Tree) (i : Nat), u.children.drop i = ts →
    (placesFrom i ts).map u.at? = (preorders ts).map some
  | [], _, _, _ => rfl
  | t :: ts, u, i, h => by
    have hchild : u.children[i]? = some t := by
      rw [← Nat.add_zero i, ← List.getElem?_drop, h]
      rfl
    have hdown : (t.places.map (i :: ·)).map u.at? = t.places.map t.at? := by
      simp [Function.comp_def, at?, hchild]
    have hrest : u.children.drop (i + 1) = ts := by
      rw [← List.drop_drop, h]
      rfl
    rw [placesFrom, List.map_append, hdown, map_at?_places t, map_at?_placesFrom ts u (i + 1) hrest,
      preorders_cons, List.map_append]

end

mutual

/-- The ways are in the order of a dictionary, so no node is met twice. -/
theorem places_pairwise : ∀ t : Tree, t.places.Pairwise (· < ·)
  | .node _ _ _ children => by
    rw [places_eq, List.pairwise_cons]
    refine ⟨fun way h => ?_, placesFrom_pairwise children 0⟩
    obtain ⟨j, rest, rfl, -⟩ := exists_of_mem_placesFrom h
    exact List.nil_lt_cons j rest

theorem placesFrom_pairwise : ∀ (ts : List Tree) (i : Nat), (placesFrom i ts).Pairwise (· < ·)
  | [], _ => .nil
  | t :: ts, i => by
    rw [placesFrom, List.pairwise_append]
    refine ⟨?_, placesFrom_pairwise ts (i + 1), fun way h way' h' => ?_⟩
    · exact (places_pairwise t).map _ fun a b h => List.cons_lt_cons_self.mpr h
    · obtain ⟨rest, -, rfl⟩ := List.mem_map.mp h
      obtain ⟨j, rest', rfl, hj⟩ := exists_of_mem_placesFrom h'
      exact List.cons_lt_cons_iff.mpr (.inl (by omega))

end

/-! ## Definitions -/

/-- The node is a function or a class, and it has a name. -/
def isDefinition (t : Tree) : Bool := t.construct.symbolKind?.isSome && t.name.isSome

/-- The symbol a definition makes. A line is a row counted from one, in 32 bits. -/
structure Gives (file : String) (t : Tree) (s : Symbol) : Prop where
  kind : t.construct.symbolKind? = some s.kind
  name : t.name = some s.name
  language : s.language = .python
  file : s.file = file
  line : s.line.toNat = (t.row + 1) % 2 ^ 32

theorem symbol?_eq_some {file : String} {t : Tree} {s : Symbol} :
    t.symbol? file = some s ↔ Gives file t s := by
  obtain ⟨construct, name, row, children⟩ := t
  simp only [symbol?]
  constructor
  · intro h
    obtain ⟨kind, hkind, h⟩ := Option.bind_eq_some_iff.mp h
    obtain ⟨name, hname, h⟩ := Option.bind_eq_some_iff.mp h
    cases h
    exact ⟨hkind, hname, rfl, rfl, UInt32.toNat_ofNat'⟩
  · rintro ⟨hkind, hname, hlanguage, hfile, hline⟩
    have heq : UInt32.ofNat (row + 1) = s.line :=
      UInt32.toNat_inj.mp (UInt32.toNat_ofNat'.trans hline.symm)
    rw [show construct.symbolKind? = some s.kind from hkind,
      show name = some s.name from hname]
    cases s
    simp_all

theorem isSome_symbol? (file : String) (t : Tree) : (t.symbol? file).isSome = t.isDefinition := by
  obtain ⟨construct, name, row, children⟩ := t
  simp only [symbol?, isDefinition, Tree.construct, Tree.name]
  cases construct.symbolKind? <;> cases name <;> rfl

/-- One symbol for each definition, in the same order. -/
theorem forall₂_filterMap_symbol? (file : String) (ts : List Tree) :
    List.Forall₂ (Gives file) (ts.filter isDefinition) (ts.filterMap (symbol? file)) := by
  induction ts with
  | nil => exact .nil
  | cons t ts ih =>
    have hsome := isSome_symbol? file t
    cases h : t.symbol? file with
    | none =>
      rw [h] at hsome
      simpa [← hsome, h] using ih
    | some s =>
      rw [h] at hsome
      simpa [← hsome, h] using ⟨symbol?_eq_some.mp h, ih⟩

/-! ## Order -/

/-- A node starts no later than its children, and each child starts no earlier than the child
before it and what is inside that child; by their own starts alone, what is inside one child could
still start behind the next. -/
inductive InOrder : Tree → Prop
  | node {construct : Construct} {name : Option String} {row : Nat} {children : List Tree}
      (starts : ∀ t ∈ children, row ≤ t.row)
      (siblings : children.Pairwise fun t u => ∀ x ∈ t.preorder, x.row ≤ u.row)
      (inside : ∀ t ∈ children, InOrder t) : InOrder (.node construct name row children)

theorem InOrder.row_le {t : Tree} (h : t.InOrder) : ∀ x ∈ t.preorder, t.row ≤ x.row := by
  induction h with
  | node starts _ _ ih =>
    intro x hx
    rw [preorder_eq, List.mem_cons] at hx
    obtain rfl | hx := hx
    · exact le_rfl
    · obtain ⟨u, hu, hx⟩ := mem_preorders.mp hx
      exact (starts u hu).trans (ih u hu x hx)

theorem pairwise_preorders {ts : List Tree} (hin : ∀ t ∈ ts, t.InOrder)
    (hsorted : ∀ t ∈ ts, t.preorder.Pairwise fun x y => x.row ≤ y.row)
    (hsiblings : ts.Pairwise fun t u => ∀ x ∈ t.preorder, x.row ≤ u.row) :
    (preorders ts).Pairwise fun x y => x.row ≤ y.row := by
  induction ts with
  | nil => exact .nil
  | cons t ts ih =>
    obtain ⟨ht, hrest⟩ := List.pairwise_cons.mp hsiblings
    rw [preorders_cons, List.pairwise_append]
    refine ⟨hsorted t List.mem_cons_self, ih (fun u hu => hin u (List.mem_cons_of_mem t hu))
      (fun u hu => hsorted u (List.mem_cons_of_mem t hu)) hrest, fun x hx y hy => ?_⟩
    obtain ⟨u, hu, hy⟩ := mem_preorders.mp hy
    exact (ht u hu x hx).trans ((hin u (List.mem_cons_of_mem t hu)).row_le y hy)

/-- Nodes that are in order start in the order of the visit. -/
theorem InOrder.pairwise_row {t : Tree} (h : t.InOrder) :
    t.preorder.Pairwise fun x y => x.row ≤ y.row := by
  have hnode := h.row_le
  induction h with
  | node starts siblings inside ih =>
    rw [preorder_eq] at hnode ⊢
    exact List.pairwise_cons.mpr ⟨fun x hx => hnode x (List.mem_cons_of_mem _ hx),
      pairwise_preorders inside (fun t ht => ih t ht (inside t ht).row_le) siblings⟩

/-- Lines are in order where the rows of the definitions are and fit. -/
theorem pairwise_line (file : String) {ts : List Tree}
    (hsorted : (ts.filter isDefinition).Pairwise fun x y => x.row ≤ y.row)
    (hfit : ∀ t ∈ ts.filter isDefinition, t.row + 1 < 2 ^ 32) :
    (ts.filterMap (symbol? file)).Pairwise fun a b => a.line ≤ b.line := by
  have hdefinitions : ts.filterMap (symbol? file) =
      (ts.filter isDefinition).filterMap (symbol? file) := by
    rw [List.filterMap_filter]
    refine List.filterMap_congr fun t _ => ?_
    have hsome := isSome_symbol? file t
    cases h : t.symbol? file <;> simp_all
  rw [hdefinitions, List.pairwise_filterMap]
  refine hsorted.imp_of_mem fun {t u} ht hu hle s hs s' hs' => ?_
  have hline := (symbol?_eq_some.mp hs).line
  have hline' := (symbol?_eq_some.mp hs').line
  rw [Nat.mod_eq_of_lt (hfit t ht)] at hline
  rw [Nat.mod_eq_of_lt (hfit u hu)] at hline'
  rw [UInt32.le_iff_toNat_le]
  omega

end Tree

end Worksite.Python
