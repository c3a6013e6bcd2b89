import Worksite.Proofs.Dependency
import Worksite.Proofs.Deadline
import Worksite.Proofs.Sandbox.Reported
import Worksite.Proofs.Search.Order

/-!
The two halves of an index that are built over one scope. Each file that is scanned is a node of the
graph once, in the order of the scan; edges and symbols come in groups, those of one node after
those of another, and both halves tell of the same files.
-/
namespace Worksite

/-! ## Groups -/

section Groups

variable {α β : Type} {l : List α} {key : α → String} {name : β → String} {f : α → List β} {a : α}

/-- Things that are told of names come in the order of these names. -/
def Grouped (names : List String) (name : β → String) (things : List β) : Prop :=
  things = names.flatMap fun n => things.filter (name · = n)

theorem Grouped.name_mem {names : List String} {things : List β} (h : Grouped names name things)
    {b : β} (hb : b ∈ things) : name b ∈ names := by
  rw [h] at hb
  obtain ⟨n, hn, hb⟩ := List.mem_flatMap.mp hb
  have hname : name b = n := by simpa using (List.mem_filter.mp hb).2
  exact hname ▸ hn

theorem filter_flatMap_of_forall_ne {n : String} (hname : ∀ a ∈ l, ∀ b ∈ f a, name b = key a)
    (hn : ∀ a ∈ l, key a ≠ n) : (l.flatMap f).filter (name · = n) = [] := by
  refine List.filter_eq_nil_iff.mpr fun b hb => ?_
  obtain ⟨a, ha, hb⟩ := List.mem_flatMap.mp hb
  simpa [hname a ha b hb] using hn a ha

/-- The group of a name is what stands for it. -/
theorem filter_flatMap_of_key (hkeys : (l.map key).Nodup)
    (hname : ∀ a ∈ l, ∀ b ∈ f a, name b = key a) (ha : a ∈ l) :
    (l.flatMap f).filter (name · = key a) = f a := by
  induction l with
  | nil => exact absurd ha List.not_mem_nil
  | cons x l ih =>
    obtain ⟨hx, hkeys⟩ := List.nodup_cons.mp hkeys
    have hother : ∀ c ∈ l, key x ≠ key c := fun c hc h => hx (h ▸ List.mem_map_of_mem hc)
    have htail : ∀ c ∈ l, ∀ b ∈ f c, name b = key c :=
      fun c hc => hname c (List.mem_cons_of_mem _ hc)
    rw [List.flatMap_cons, List.filter_append]
    rcases List.mem_cons.mp ha with rfl | ha
    · have hall : (f a).filter (name · = key a) = f a :=
        List.filter_eq_self.mpr fun b hb => by simpa using hname a List.mem_cons_self b hb
      rw [hall, filter_flatMap_of_forall_ne htail fun c hc => (hother c hc).symm, List.append_nil]
    · have hnone : (f x).filter (name · = key a) = [] :=
        List.filter_eq_nil_iff.mpr fun b hb => by
          simpa [hname x List.mem_cons_self b hb] using hother a ha
      rw [hnone, List.nil_append, ih hkeys htail ha]

theorem grouped_flatMap (hkeys : (l.map key).Nodup)
    (hname : ∀ a ∈ l, ∀ b ∈ f a, name b = key a) : Grouped (l.map key) name (l.flatMap f) := by
  rw [Grouped, List.flatMap_map]
  exact List.flatMap_congr fun a ha => (filter_flatMap_of_key hkeys hname ha).symm

theorem nodup_flatMap_of_key (hkeys : (l.map key).Nodup)
    (hname : ∀ a ∈ l, ∀ b ∈ f a, name b = key a) (hf : ∀ a ∈ l, (f a).Nodup) :
    (l.flatMap f).Nodup := by
  refine List.nodup_flatMap.mpr ⟨hf, ?_⟩
  refine (List.pairwise_map.mp hkeys).imp_of_mem fun {a c} ha hc hne b hba hbc => hne ?_
  exact (hname a ha b hba).symm.trans (hname c hc b hbc)

end Groups

/-! ## Scans -/

variable {s : Sandbox} {t : FileTree} {scope : IndexScope} {d : Deadline}
  {files : List FoundFile} {scanned : List (FoundFile × String)} {roots : List Place}

theorem Index.nodup_namesOf_collect {files' : List FoundFile} {d' : Deadline}
    (h : collect s t scope files d roots = .ok (files', d')) (hn : (Walk.namesOf files).Nodup) :
    (Walk.namesOf files').Nodup := by
  induction roots generalizing files d with
  | nil =>
    obtain ⟨rfl, -⟩ := Prod.mk.inj (Except.ok.inj h)
    exact hn
  | cons root roots ih =>
    rw [collect] at h
    split_ifs at h with hleft hexpired
    · obtain ⟨rfl, -⟩ := Prod.mk.inj (Except.ok.inj h)
      exact hn
    · obtain ⟨rfl, -⟩ := Prod.mk.inj (Except.ok.inj h)
      exact hn
    · obtain ⟨⟨e, d₁⟩, -, h⟩ := bind_eq_ok.mp h
      have hadded : (Walk.namesOf (addFiles scope.languages files e.files)).Nodup :=
        nodup_namesOf_addFiles hn
      dsimp only at h
      split_ifs at h with htime
      · obtain ⟨rfl, -⟩ := Prod.mk.inj (Except.ok.inj h)
        exact hadded
      · exact ih h hadded

theorem Index.nodup_relative_scan (h : scan s t scope d = .ok scanned) :
    (scanned.map fun x => x.1.relative).Nodup := by
  obtain ⟨⟨files, d'⟩, hfiles, h⟩ := bind_eq_ok.mp h
  obtain rfl := Except.ok.inj h
  have hloaded := (map_fst_load_sublist s t scope.maxFileBytes d' files).map (·.relative)
  rw [List.map_map] at hloaded
  exact hloaded.nodup (nodup_namesOf_collect hfiles List.nodup_nil)

/-- What is scanned has names of the file system. -/
theorem Sandbox.isNormal_of_mem_scan (ha : s.Anchored t) (hn : t.Named)
    (hroots : ∀ root ∈ scope.roots, ∃ path, s.resolve t path = .ok root)
    (h : Index.scan s t scope d = .ok scanned) {x : FoundFile × String} (hx : x ∈ scanned) :
    ∀ name ∈ x.1.relative, Path.IsNormal name := by
  obtain ⟨hexposes, -⟩ := exposes_of_mem_scan hroots h hx
  obtain ⟨place, bytes, mode, hentry, -⟩ := hexposes.exists_place ha hn
  exact fun name hname => (hn.names hentry name (List.mem_append_right _ hname)).1

theorem Sandbox.nodup_path_scan (ha : s.Anchored t) (hn : t.Named)
    (hroots : ∀ root ∈ scope.roots, ∃ path, s.resolve t path = .ok root)
    (h : Index.scan s t scope d = .ok scanned) : (scanned.map fun x => x.1.path).Nodup := by
  have hnormal : ∀ r ∈ scanned.map (fun x => x.1.relative), ∀ name ∈ r, Path.IsNormal name := by
    intro r hr
    obtain ⟨x, hx, rfl⟩ := List.mem_map.mp hr
    exact isNormal_of_mem_scan ha hn hroots h hx
  have hshown := (Index.nodup_relative_scan h).map_on fun l hl m hm =>
    Walk.display_inj (hnormal l hl) (hnormal m hm)
  rwa [List.map_map] at hshown

theorem nodup_extractDependencies (text : String) (language : Language) :
    (extractDependencies text language).Nodup := by
  rw [extractDependencies_eq]
  exact Dependency.nodup_eraseDups _

/-! ## Graphs -/

/-- Nodes and edges are there once, and the edges stand in groups in the order of the nodes. -/
structure DependencyGraph.WellFormed (g : DependencyGraph) : Prop where
  nodes : g.nodes.Nodup
  edges : g.edges.Nodup
  sources : ∀ e ∈ g.edges, e.source ∈ g.nodes
  grouped : Grouped g.nodes DependencyEdge.source g.edges

/-- The edges of a text that was scanned. -/
def edgesOf (x : FoundFile × String) : List DependencyEdge :=
  (extractDependencies x.2 x.1.language).map fun target => { source := x.1.path, target }

theorem source_of_mem_edgesOf {x : FoundFile × String} {e : DependencyEdge} (h : e ∈ edgesOf x) :
    e.source = x.1.path := by
  obtain ⟨target, -, rfl⟩ := List.mem_map.mp h
  rfl

theorem nodup_edgesOf (x : FoundFile × String) : (edgesOf x).Nodup :=
  (nodup_extractDependencies x.2 x.1.language).map fun _ _ hab => (DependencyEdge.mk.inj hab).2

namespace IndexSnapshot

variable {i next : IndexSnapshot} {x : FoundFile × String}

theorem HasGraphOf.wellFormed (h : next.HasGraphOf i scanned)
    (hpaths : (scanned.map fun x => x.1.path).Nodup) : next.graph.WellFormed := by
  have hsource : ∀ x ∈ scanned, ∀ e ∈ edgesOf x, e.source = x.1.path :=
    fun x _ e he => source_of_mem_edgesOf he
  have hedges : next.graph.edges = scanned.flatMap edgesOf := h.edges
  have hgrouped : Grouped next.graph.nodes DependencyEdge.source next.graph.edges := by
    rw [h.nodes, hedges]
    exact grouped_flatMap hpaths hsource
  refine ⟨h.nodes ▸ hpaths, ?_, fun e he => hgrouped.name_mem he, hgrouped⟩
  rw [hedges]
  exact nodup_flatMap_of_key hpaths hsource fun x _ => nodup_edgesOf x

/-- What a node imports is what its text imports. -/
theorem HasGraphOf.targetsOf_path (h : next.HasGraphOf i scanned)
    (hpaths : (scanned.map fun x => x.1.path).Nodup) (hx : x ∈ scanned) :
    next.graph.targetsOf x.1.path = extractDependencies x.2 x.1.language := by
  have hedges : next.graph.edges.filter (·.source = x.1.path) = edgesOf x := by
    rw [h.edges]
    exact filter_flatMap_of_key hpaths (fun x _ e he => source_of_mem_edgesOf he) hx
  rw [DependencyGraph.targetsOf, hedges, edgesOf, List.map_map]
  exact List.map_id _

theorem HasSymbolsOf.grouped (h : next.HasSymbolsOf i scanned)
    (hpaths : (scanned.map fun x => x.1.path).Nodup) :
    Grouped (scanned.map fun x => x.1.path) Symbol.file next.symbols.symbols := by
  rw [h.symbols]
  exact grouped_flatMap hpaths fun x _ sym hsym => file_of_mem_extractSymbols hsym

theorem HasSymbolsOf.filter_file (h : next.HasSymbolsOf i scanned)
    (hpaths : (scanned.map fun x => x.1.path).Nodup) (hx : x ∈ scanned) :
    next.symbols.symbols.filter (·.file = x.1.path) =
      extractSymbols x.1.path x.2 x.1.language := by
  rw [h.symbols]
  exact filter_flatMap_of_key hpaths (fun x _ sym hsym => file_of_mem_extractSymbols hsym) hx

/-- The graph and the symbols of one scope, with all the time: neither can be built, for one reason,
or the graph is well formed, each of its nodes is a file that holds a text with the imports of the
node, and the symbols are those of the same texts, in the order of the nodes. -/
theorem rebuilds_agree (ha : s.Anchored t) (hn : t.Named)
    (hroots : ∀ root ∈ scope.roots, ∃ path, s.resolve t path = .ok root) (i j : IndexSnapshot) :
    (∃ e, i.rebuildGraph s t scope .unbounded = .error e ∧
      j.rebuildSymbols s t scope .unbounded = .error e) ∨
    ∃ g h, i.rebuildGraph s t scope .unbounded = .ok g ∧
      j.rebuildSymbols s t scope .unbounded = .ok h ∧
      g.graph.WellFormed ∧
      (∀ n ∈ g.graph.nodes, ∃ r text, Location.display r = n ∧ (∀ x ∈ r, Path.IsNormal x) ∧
        t.HoldsText (s.root ++ r) scope.maxFileBytes text ∧
        g.graph.targetsOf n = extractDependencies text (Language.classify r.relativeText) ∧
        h.symbols.symbols.filter (·.file = n) =
          extractSymbols n text (Language.classify r.relativeText)) ∧
      h.indexedFiles = g.graph.nodes.length ∧
      (∀ sym ∈ h.symbols.symbols, sym.file ∈ g.graph.nodes) ∧
      Grouped g.graph.nodes Symbol.file h.symbols.symbols := by
  rw [rebuildGraph, rebuildSymbols]
  cases hscan : Index.scan s t scope .unbounded with
  | error e => exact .inl ⟨e, rfl, rfl⟩
  | ok scanned =>
    have hpaths := s.nodup_path_scan ha hn hroots hscan
    have hg := i.hasGraphOf_publish scanned
    have hh := j.hasSymbolsOf_publish scanned
    have hgrouped := hh.grouped hpaths
    rw [← hg.nodes] at hgrouped
    refine .inr ⟨_, _, rfl, rfl, hg.wellFormed hpaths, fun n hnode => ?_, ?_,
      fun sym hsym => hgrouped.name_mem hsym, hgrouped⟩
    · rw [hg.nodes] at hnode
      obtain ⟨x, hx, rfl⟩ := List.mem_map.mp hnode
      obtain ⟨-, hload⟩ := Sandbox.exposes_of_mem_scan hroots hscan hx
      exact ⟨x.1.relative, x.2, rfl, s.isNormal_of_mem_scan ha hn hroots hscan hx,
        FileTree.loadText_eq_some.mp hload, hg.targetsOf_path hpaths hx,
        hh.filter_file hpaths hx⟩
    · rw [hg.nodes, hh.indexedFiles, List.length_map]

/-- Two scripts, the second of which imports the first. -/
theorem rebuilds_agree_paired : ∃ g h,
    IndexSnapshot.rebuildGraph {} pairedSandbox paired pairedScope .unbounded = .ok g ∧
    IndexSnapshot.rebuildSymbols {} pairedSandbox paired pairedScope .unbounded = .ok h ∧
    g.graph.nodes = ["a.js", "b.js"] ∧ g.graph.WellFormed ∧ h.indexedFiles = 2 ∧
    Grouped ["a.js", "b.js"] Symbol.file h.symbols.symbols := by
  have ha : pairedSandbox.Anchored paired :=
    ⟨FileTree.Closed.canonical (by decide) (by decide) ⟨.directory, rfl, by simp⟩, rfl⟩
  have hroots : ∀ root ∈ pairedScope.roots, ∃ path,
      pairedSandbox.resolve paired path = .ok root := by
    intro root hroot
    obtain rfl := List.mem_singleton.mp hroot
    exact ⟨".", by cbv⟩
  have hgraph : IndexSnapshot.rebuildGraph {} pairedSandbox paired pairedScope .unbounded = _ :=
    map_eq_ok.mpr ⟨_, scan_paired, rfl⟩
  rcases rebuilds_agree ha (by decide) hroots {} {} with
    ⟨e, he, -⟩ | ⟨g, h, hg, hh, hwell, -, hindexed, -, hgrouped⟩
  · exact absurd (hgraph.symm.trans he) (by simp)
  · have hnodes : g.graph.nodes = ["a.js", "b.js"] := by
      obtain rfl := Except.ok.inj (hgraph.symm.trans hg)
      rw [graph_publish]
      decide
    rw [hnodes] at hindexed hgrouped
    exact ⟨g, h, hg, hh, hnodes, hwell, hindexed, hgrouped⟩

end IndexSnapshot

end Worksite
