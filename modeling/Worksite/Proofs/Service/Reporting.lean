import Worksite.Proofs.Index.Published
import Worksite.Proofs.Sandbox.Reported
import Worksite.Proofs.Service.Permitted
import Worksite.Proofs.Walk.Capped

/-!
The paths in what a service answers. Each is resolved to what it was shown for, and what a place is
called is resolved to the place. The symbols of the index are told of the files as they stand as
long as no request changes a file.
-/
namespace Worksite

open FileTree Sandbox Walk

variable {s : Service} {w : Workspace} {t : FileTree}

namespace Sandbox

variable {s : Sandbox} {scope : IndexScope} {d : Deadline} {scanned : List (FoundFile × String)}

/-- A symbol is one of a text that was scanned for its file. -/
def Tells (s : Sandbox) (t : FileTree) (sym : Symbol) : Prop :=
  ∃ text language, s.Scanned t sym.file text ∧ sym ∈ extractSymbols sym.file text language

theorem Sound.scanned_of_mem_scan {f : FoundFile} {text : String} (hs : s.Sound t)
    (hroots : ∀ root ∈ scope.roots, ∃ path, s.resolve t path = .ok root)
    (h : Index.scan s t scope d = .ok scanned) (hf : (f, text) ∈ scanned) :
    s.Scanned t f.path text := by
  obtain ⟨hexposes, hload⟩ := exposes_of_mem_scan hroots h hf
  exact hexposes.scanned hs hload

theorem Sound.tells_of_rebuildSymbols {i i' : IndexSnapshot} (hs : s.Sound t)
    (hroots : ∀ root ∈ scope.roots, ∃ path, s.resolve t path = .ok root)
    (h : i.rebuildSymbols s t scope d = .ok i') :
    ∀ sym ∈ i'.symbols.symbols, s.Tells t sym := by
  obtain ⟨scanned, hscan, rfl⟩ := map_eq_ok.mp h
  intro sym hsym
  rw [IndexSnapshot.symbols_publish] at hsym
  obtain ⟨⟨f, text⟩, hmem, hsym⟩ := List.mem_flatMap.mp hsym
  have hfile : sym.file = f.path := file_of_mem_extractSymbols hsym
  rw [Tells, hfile]
  exact ⟨text, f.language, hs.scanned_of_mem_scan hroots hscan hmem, hsym⟩

end Sandbox

namespace Service

/-! ## Operations -/

theorem tells_of_indexSymbols {q : Request.IndexSymbols} {i : IndexSnapshot}
    (hs : s.sandbox.Sound w.tree) (h : s.indexSymbols w q = .ok i) :
    ∀ sym ∈ i.symbols.symbols, s.sandbox.Tells w.tree sym := by
  obtain ⟨roots, hroots, h⟩ := bind_eq_ok.mp h
  refine hs.tells_of_rebuildSymbols (fun root hroot => ?_) h
  obtain ⟨path, -, hp⟩ := exists_of_mem_mapM hroots hroot
  exact ⟨path, hp⟩

theorem symbols_of_graphDependencies {q : Request.GraphDependencies} {i : IndexSnapshot}
    (h : s.graphDependencies w q = .ok i) : i.symbols = w.index.symbols := by
  obtain ⟨root, -, h⟩ := bind_eq_ok.mp h
  obtain ⟨scanned, -, rfl⟩ := map_eq_ok.mp h
  exact IndexSnapshot.symbols_publish_graphOf _ _

/-- The symbols of the index are those of files as they stand. -/
def UpToDate (s : Service) (w : Workspace) : Prop :=
  ∀ sym ∈ w.index.symbols.symbols, s.sandbox.Tells w.tree sym

/-- No request of a run changes a file. -/
def Quiet (s : Service) (w : Workspace) (requests : List Request) : Prop :=
  ∀ before, before <+: requests → (s.run w before).tree = w.tree

theorem quiet_of_not_mutation {requests : List Request} (h : ∀ q ∈ requests, mutation q = none) :
    s.Quiet w requests := by
  intro before hpre
  have hnone : before.filter (fun q => (mutation q).isSome) = [] :=
    List.filter_eq_nil_iff.mpr fun q hq => by simp [h q (hpre.subset hq)]
  rw [tree_run_filter, hnone]
  rfl

theorem UpToDate.perform {q : Request} (hf : s.UpToDate w) (hs : s.sandbox.Sound w.tree)
    (htree : (s.perform w q).2.tree = w.tree) : s.UpToDate (s.perform w q).2 := by
  unfold UpToDate
  rw [htree]
  cases q with
  | indexSymbols q =>
    simp only [Service.perform]
    cases hi : s.indexSymbols w q with
    | error e => exact hf
    | ok i => exact tells_of_indexSymbols hs hi
  | graphDependencies q =>
    simp only [Service.perform]
    cases hi : s.graphDependencies w q with
    | error e => exact hf
    | ok i =>
      simp only [symbols_of_graphDependencies hi]
      exact hf
  | _ =>
    rw [index_perform_of_not_rebuilds rfl]
    exact hf

theorem UpToDate.run {requests : List Request} (hf : s.UpToDate w) (hs : s.sandbox.Sound w.tree)
    (hq : s.Quiet w requests) : s.UpToDate (s.run w requests) := by
  induction requests generalizing w with
  | nil => exact hf
  | cons q rest ih =>
    have htree : (s.perform w q).2.tree = w.tree := hq [q] (by simp)
    refine ih (hf.perform hs htree) (htree ▸ hs) fun before hpre => ?_
    have hrest := hq (q :: before) (List.cons_prefix_cons.mpr ⟨rfl, hpre⟩)
    exact hrest.trans htree.symm

/-! ## Answers -/

end Service

end Worksite
