import Mathlib
import Worksite.Index

/-!
What a rebuild publishes, as an equation: the symbols of all that was scanned, one text after the
other, or its files and their dependencies. The other half of the index is carried on.
-/
namespace Worksite

variable {file text : String} {language : Language} {sym : Symbol} {i : IndexSnapshot}
  {scanned : List (FoundFile × String)}

/-! ## Symbols -/

theorem Python.file_of_mem_collect {stack : List Python.Tree}
    (h : sym ∈ Python.Tree.collect file stack) : sym.file = file := by
  fun_induction Python.Tree.collect file stack with
  | case1 => exact absurd h List.not_mem_nil
  | case2 t stack ih =>
    rcases List.mem_append.mp h with h | h
    · cases t with
      | node construct name row children =>
        simp only [Python.Tree.symbol?, Option.mem_toList, Option.bind_eq_bind,
          Option.bind_eq_some_iff] at h
        obtain ⟨kind, -, name, -, h⟩ := h
        obtain rfl := Option.some.inj h
        rfl
    · exact ih h

/-- A symbol is told of the file that it was found in. -/
theorem file_of_mem_extractSymbols (h : sym ∈ extractSymbols file text language) :
    sym.file = file := by
  unfold extractSymbols at h
  split at h
  · split at h
    · exact Python.file_of_mem_collect h
    · exact absurd h List.not_mem_nil
  · obtain ⟨found, -, rfl⟩ := List.mem_map.mp h
    rfl
  · exact absurd h List.not_mem_nil

theorem SymbolTable.symbols_insert (t : SymbolTable) (new : List Symbol) :
    (t.insert new).symbols = t.symbols ++ new := by
  induction new generalizing t with
  | nil => simp [insert]
  | cons first rest ih =>
    have hrest : (t.insert (first :: rest)).symbols = (t.push first).symbols ++ rest := ih _
    rw [hrest, push, List.append_assoc, List.singleton_append]

namespace IndexSnapshot

/-- The table holds the symbols of the texts that were scanned, in their order. -/
theorem symbols_publish (i : IndexSnapshot) (scanned : List (FoundFile × String)) :
    (i.publish (Index.symbolsOf scanned)).symbols.symbols =
      scanned.flatMap fun x => extractSymbols x.1.path x.2 x.1.language := by
  have hfold (table : SymbolTable) :
      (scanned.foldl (fun t x => t.insert (extractSymbols x.1.path x.2 x.1.language))
        table).symbols =
        table.symbols ++ scanned.flatMap fun x => extractSymbols x.1.path x.2 x.1.language := by
    induction scanned generalizing table with
    | nil => simp
    | cons x rest ih =>
      rw [List.foldl_cons, ih, SymbolTable.symbols_insert, List.flatMap_cons, List.append_assoc]
  exact hfold {}

/-- The graph holds the files that were scanned, with what they import. -/
theorem graph_publish (i : IndexSnapshot) (scanned : List (FoundFile × String)) :
    (i.publish (Index.graphOf scanned)).graph =
      { nodes := scanned.map fun x => x.1.path
        edges := scanned.flatMap fun x =>
          (extractDependencies x.2 x.1.language).map fun target =>
            { source := x.1.path, target } } := by
  have hfold (g : DependencyGraph) :
      scanned.foldl (fun g x => g.add x.1.path (extractDependencies x.2 x.1.language)) g =
        { nodes := g.nodes ++ scanned.map fun x => x.1.path
          edges := g.edges ++ scanned.flatMap fun x =>
            (extractDependencies x.2 x.1.language).map fun target =>
              { source := x.1.path, target } } := by
    induction scanned generalizing g with
    | nil => simp
    | cons x rest ih =>
      rw [List.foldl_cons, ih]
      simp [DependencyGraph.add]
  exact hfold {}

theorem symbols_publish_graphOf (i : IndexSnapshot) (scanned : List (FoundFile × String)) :
    (i.publish (Index.graphOf scanned)).symbols = i.symbols := rfl

end IndexSnapshot

end Worksite
