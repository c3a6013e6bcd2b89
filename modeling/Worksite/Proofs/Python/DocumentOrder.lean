import Worksite.Proofs.Python.Statement

/-!
The symbols of a Python text are its definitions, nested ones included, in the order in which they
are written. The stack that collects them has no recursion of its own; that it makes the same walk
as the recursion over the tree is what carries the order over.
-/
namespace Worksite.Python

namespace Tree

/-- The nodes of a tree, each of them once and in the order in which they are written: the ways
down to them are all ways there are, in the order of a dictionary. -/
def EachOnce (t : Tree) (nodes : List Tree) : Prop :=
  ∃ ways : List (List Nat), ways.Pairwise (· < ·) ∧ (∀ way, way ∈ ways ↔ (t.at? way).isSome) ∧
    ways.map t.at? = nodes.map some

theorem eachOnce_preorder (t : Tree) : t.EachOnce t.preorder :=
  ⟨t.places, places_pairwise t, fun _ => mem_places, map_at?_places t⟩

end Tree

/-- What the stack collects from any tree, and so from any text that has a tree. Rows in order give
lines in order unless lines wrap; those of a text are in order. -/
theorem symbols_documentOrder (file : String) (tree : Tree) :
    (Tree.visits [tree] = tree.preorder ∧ tree.EachOnce (Tree.visits [tree])) ∧
    (Tree.collect file [tree] = (Tree.visits [tree]).filterMap (Tree.symbol? file) ∧
      List.Forall₂ (Tree.Gives file) (tree.preorder.filter Tree.isDefinition)
        (Tree.collect file [tree])) ∧
    (tree.InOrder → (∀ x ∈ tree.preorder.filter Tree.isDefinition, x.row + 1 < 2 ^ 32) →
      (Tree.collect file [tree]).Pairwise fun a b => a.line ≤ b.line) ∧
    ∀ text, Tree.ofText text = some tree →
      extractSymbols file text .python = Tree.collect file [tree] ∧
      (text.toList.count '\n' + 1 < 2 ^ 32 →
        (∀ x ∈ tree.preorder.filter Tree.isDefinition, x.row + 1 < 2 ^ 32) ∧
        (Tree.collect file [tree]).Pairwise fun a b => a.line ≤ b.line) := by
  have hvisits : Tree.visits [tree] = tree.preorder := by
    rw [Tree.visits_eq, Tree.preorders_singleton]
  have hcollect : Tree.collect file [tree] = tree.preorder.filterMap (Tree.symbol? file) := by
    rw [Tree.collect_eq, hvisits]
  refine ⟨⟨hvisits, hvisits ▸ tree.eachOnce_preorder⟩,
    ⟨Tree.collect_eq file [tree], hcollect ▸ Tree.forall₂_filterMap_symbol? file _⟩,
    fun horder hfit => ?_, fun text htext => ⟨?_, fun hfit => ?_⟩⟩
  · rw [hcollect]
    exact Tree.pairwise_line file (horder.pairwise_row.sublist List.filter_sublist) hfit
  · have hextraction : Language.python.extraction = .parsed := rfl
    simp only [extractSymbols, hextraction, htext]
  · obtain ⟨hsorted, hrows⟩ := Tree.rows_of_ofText htext
    have hfits (x) (hx : x ∈ tree.preorder.filter Tree.isDefinition) : x.row + 1 < 2 ^ 32 :=
      (Nat.succ_le_succ (hrows x hx)).trans_lt hfit
    rw [hcollect]
    exact ⟨hfits, Tree.pairwise_line file hsorted hfits⟩

/-- A decorated class with a method and a function inside the method. -/
def nestedText : String :=
  "@dataclass\nclass Model:\n    async def load(self):\n        def helper():\n" ++
    "            return 1\n\ndef top():\n    pass\n"

/-- The tree of a class with a method, before a function. -/
def nested : Tree :=
  .node .module none 0 [
    .node .classDefinition (some "Model") 1 [.node .functionDefinition (some "load") 2 []],
    .node .functionDefinition (some "top") 6 []]

theorem nested_inOrder : nested.InOrder := by
  refine .node (by simp) ?_ fun t ht => ?_
  · simp [Tree.preorder, Tree.preorders, Tree.row]
  · obtain rfl | rfl := by simpa using ht
    · refine .node (by simp [Tree.row]) (by simp) fun t ht => ?_
      obtain rfl := by simpa using ht
      exact .node (by simp) (by simp) (by simp)
    · exact .node (by simp) (by simp) (by simp)

theorem symbols_documentOrder_nested :
    (nested.InOrder ∧ (∀ x ∈ nested.preorder.filter Tree.isDefinition, x.row + 1 < 2 ^ 32) ∧
      (Tree.collect "m.py" [nested]).Pairwise fun a b => a.line ≤ b.line) ∧
    ∃ tree, Tree.ofText nestedText = some tree ∧ nestedText.toList.count '\n' + 1 < 2 ^ 32 ∧
      (extractSymbols "m.py" nestedText .python).map (fun s => (s.name, s.kind, s.line)) =
        [("Model", .class, 2), ("load", .function, 3), ("helper", .function, 4),
          ("top", .function, 7)] ∧
      extractSymbols "m.py" nestedText .python = Tree.collect "m.py" [tree] ∧
      (Tree.collect "m.py" [tree]).Pairwise fun a b => a.line ≤ b.line := by
  have hrows : ∀ x ∈ nested.preorder.filter Tree.isDefinition, x.row + 1 < 2 ^ 32 := by decide
  obtain ⟨tree, htree⟩ := Option.isSome_iff_exists.mp
    (show (Tree.ofText nestedText).isSome by decide +kernel)
  have hcount : nestedText.toList.count '\n' + 1 < 2 ^ 32 := by decide +kernel
  have hlist := (symbols_documentOrder "m.py" nested).2.2.1 nested_inOrder hrows
  obtain ⟨heq, hfit⟩ := (symbols_documentOrder "m.py" tree).2.2.2 nestedText htree
  exact ⟨⟨nested_inOrder, hrows, hlist⟩, tree, htree, hcount, by decide +kernel, heq,
    (hfit hcount).2⟩

end Worksite.Python
