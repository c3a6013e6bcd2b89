import Worksite.Proofs.Dependency
import Worksite.Proofs.Index.Graph
import Worksite.Proofs.Index.Published

/-!
Tables of symbols. A table notes under each file the places of its symbols among all symbols. The
two stay in step however the symbols come, so that a file is told of by its own symbols, each of
them once.
-/
namespace Worksite.SymbolTable

variable {t : SymbolTable} {f : String} {i : Nat}

/-- The file of each symbol. -/
def files (t : SymbolTable) : List String := t.symbols.map (·.file)

/-- Whether the place `i` is noted under a file. -/
def Notes (t : SymbolTable) (f : String) (i : Nat) : Prop := ∃ is, (f, is) ∈ t.places ∧ i ∈ is

/-- The files are noted in the order in which they came, each with all places of its symbols. -/
def InStep (t : SymbolTable) : Prop :=
  t.places = t.files.eraseDups.map fun f => (f, t.files.idxsOf f)

/-! ## What an insertion keeps -/

/-- Nothing but the notes under the file grows, and a new file comes last. -/
theorem note_map {names : List String} {places : String → List Nat} {file : String}
    (hnames : names.Nodup) (hnew : file ∉ names → places file = []) :
    note file i (names.map fun f => (f, places f)) =
      (if file ∈ names then names else names ++ [file]).map
        fun f => (f, if f = file then places f ++ [i] else places f) := by
  induction names with
  | nil => simp [note, hnew List.not_mem_nil]
  | cons name names ih =>
    obtain ⟨hname, hnames⟩ := List.nodup_cons.mp hnames
    rw [List.map_cons, note]
    by_cases heq : name = file
    · subst heq
      have hothers : ∀ f ∈ names, f ≠ name := fun f hf h => hname (h ▸ hf)
      rw [if_pos rfl, if_pos List.mem_cons_self, List.map_cons, if_pos rfl]
      refine congrArg _ (List.map_congr_left fun f hf => ?_)
      rw [if_neg (hothers f hf)]
    · have hmem : file ∈ name :: names ↔ file ∈ names := by simp [Ne.symm heq]
      have hrest := ih hnames fun hfile => hnew (hmem.not.mpr hfile)
      rw [if_neg heq, hrest, if_congr hmem rfl rfl]
      split_ifs <;> simp [heq]

theorem eraseDups_concat (names : List String) (file : String) :
    (names ++ [file]).eraseDups =
      if file ∈ names.eraseDups then names.eraseDups else names.eraseDups ++ [file] := by
  by_cases h : file ∈ names <;>
    simp [List.eraseDups_append, List.eraseDups_cons, List.removeAll, h]

theorem InStep.push (h : t.InStep) (s : Symbol) : (t.push s).InStep := by
  have hfiles : (t.push s).files = t.files ++ [s.file] := by simp [files, SymbolTable.push]
  have hplaces : (t.push s).places = note s.file t.files.length t.places := by
    simp [files, SymbolTable.push]
  have hnew : s.file ∉ t.files.eraseDups → t.files.idxsOf s.file = [] := by
    intro hfile
    rw [List.mem_eraseDups] at hfile
    refine List.idxsOf_eq_nil_iff.mpr fun f hf => ?_
    exact beq_false_of_ne fun heq => hfile (heq ▸ hf)
  rw [InStep, hplaces, h, note_map (Dependency.nodup_eraseDups _) hnew, hfiles, eraseDups_concat]
  refine List.map_congr_left fun f _ => ?_
  by_cases hf : f = s.file
  · simp [hf]
  · simp [hf, Ne.symm hf]

theorem InStep.insert (h : t.InStep) (symbols : List Symbol) : (t.insert symbols).InStep := by
  induction symbols generalizing t with
  | nil => exact h
  | cons s symbols ih => exact ih (h.push s)

theorem inStep_insertions (calls : List (List Symbol)) :
    (calls.foldl SymbolTable.insert {}).InStep := by
  refine List.foldlRecOn calls SymbolTable.insert (motive := InStep) rfl ?_
  exact fun t ht symbols _ => ht.insert symbols

theorem symbols_insertions (calls : List (List Symbol)) (t : SymbolTable) :
    (calls.foldl SymbolTable.insert t).symbols = t.symbols ++ calls.flatten := by
  induction calls generalizing t with
  | nil => simp
  | cons symbols calls ih =>
    rw [List.foldl_cons, ih, symbols_insert, List.flatten_cons, List.append_assoc]

/-! ## What the notes tell -/

/-- A place is noted under the file of its symbol, and under no other one. -/
theorem InStep.notes_iff (h : t.InStep) : t.Notes f i ↔ t.files[i]? = some f := by
  unfold Notes
  rw [h]
  constructor
  · rintro ⟨is, hmem, hi⟩
    obtain ⟨f', -, heq⟩ := List.mem_map.mp hmem
    obtain ⟨rfl, rfl⟩ := Prod.mk.inj heq
    obtain ⟨hlt, hf⟩ := List.mem_idxsOf_iff_exists_getElem_pos.mp hi
    rw [List.getElem?_eq_getElem hlt, eq_of_beq hf]
  · intro hi
    obtain ⟨hlt, rfl⟩ := List.getElem?_eq_some_iff.mp hi
    refine ⟨_, List.mem_map_of_mem (List.mem_eraseDups.mpr (List.getElem_mem hlt)), ?_⟩
    exact List.mem_idxsOf_getElem hlt

theorem InStep.lookup_eq (h : t.InStep) :
    t.places.lookup f = if f ∈ t.files then some (t.files.idxsOf f) else none := by
  have hlookup (names : List String) (places : String → List Nat) :
      (names.map fun f => (f, places f)).lookup f =
        if f ∈ names then some (places f) else none := by
    induction names with
    | nil => rfl
    | cons name names ih =>
      rw [List.map_cons, List.lookup_cons, ih]
      by_cases hf : f = name
      · simp [hf]
      · simp [hf, beq_false_of_ne hf]
  rw [h, hlookup, if_congr List.mem_eraseDups rfl rfl]

theorem filterMap_findIdxs {α : Type} (p : α → Bool) (l : List α) :
    (l.findIdxs p).filterMap (l[·]?) = l.filter p := by
  induction l using List.reverseRecOn with
  | nil => rfl
  | append_singleton l a ih =>
    have hfront : (l.findIdxs p).filterMap ((l ++ [a])[·]?) = (l.findIdxs p).filterMap (l[·]?) := by
      refine List.filterMap_congr fun i hi => List.getElem?_append_left ?_
      simpa using List.lt_add_of_mem_findIdxs i hi
    rw [List.findIdxs_append, List.filterMap_append, hfront, ih, List.filter_append]
    by_cases ha : p a <;> simp [ha]

/-- The symbols of a file, in the order of all symbols. -/
theorem InStep.inFile_eq (h : t.InStep) (f : String) :
    t.inFile f = t.symbols.filter (·.file = f) := by
  have hplaces : t.files.idxsOf f = t.symbols.findIdxs (·.file = f) := by
    rw [files, List.idxsOf_map]
    rfl
  rw [inFile, h.lookup_eq, ← filterMap_findIdxs, ← hplaces]
  split_ifs with hf
  · rfl
  · have hnone : t.files.idxsOf f = [] :=
      List.idxsOf_eq_nil_iff.mpr fun g hg => beq_false_of_ne fun heq => hf (heq ▸ hg)
    rw [hnone]
    rfl

theorem InStep.fileCount_eq (h : t.InStep) : t.fileCount = t.files.toFinset.card := by
  have hfiles : t.files.eraseDups.toFinset = t.files.toFinset := by ext; simp
  rw [fileCount, h, List.length_map, ← hfiles,
    List.toFinset_card_of_nodup (Dependency.nodup_eraseDups _)]

/-- Each place is noted once. -/
theorem InStep.perm_range (h : t.InStep) :
    (t.places.flatMap Prod.snd).Perm (List.range t.size) := by
  have hnames : t.places.map Prod.fst = t.files.eraseDups := by
    rw [h, List.map_map]
    exact List.map_id _
  have hkeys : (t.places.map Prod.fst).Nodup := hnames ▸ Dependency.nodup_eraseDups _
  have hname : ∀ x ∈ t.places, ∀ i ∈ x.2, (t.files[i]?).getD "" = x.1 := by
    intro x hx i hi
    rw [h.notes_iff.mp ⟨x.2, hx, hi⟩, Option.getD_some]
  have hparts : ∀ x ∈ t.places, x.2.Nodup := by
    intro x hx
    rw [h] at hx
    obtain ⟨f, -, rfl⟩ := List.mem_map.mp hx
    exact List.nodup_idxsOf
  refine (List.perm_ext_iff_of_nodup (nodup_flatMap_of_key hkeys hname hparts)
    List.nodup_range).mpr fun i => ?_
  calc i ∈ t.places.flatMap Prod.snd ↔ ∃ f, t.Notes f i := by
        simp only [List.mem_flatMap, Prod.exists, Notes]
    _ ↔ ∃ f, t.files[i]? = some f := exists_congr fun f => h.notes_iff
    _ ↔ i ∈ List.range t.size := by
        simp [files, size, ← Option.isSome_iff_exists]

/-- A symbol is a function or a class. -/
theorem countOf_function_add_class (t : SymbolTable) :
    t.countOf .function + t.countOf .class = t.size := by
  have hclass : t.countOf .class = t.symbols.countP fun s => !decide (s.kind = .function) := by
    refine List.countP_congr fun s _ => ?_
    cases s.kind <;> decide
  rw [hclass, size, List.length_eq_countP_add_countP (fun s => decide (s.kind = .function)),
    countOf]
  simp

/-- However symbols are inserted, in whatever calls: the table holds all of them in order, the
symbols of a file are those of the table that are told of it, and the files are counted that have a
symbol. A place is noted under the file of its symbol and under no other one, each place once, and
the summary counts each symbol as a function or as a class. -/
theorem insertions_in_step (calls : List (List Symbol)) :
    let t := calls.foldl SymbolTable.insert {}
    t.symbols = calls.flatten ∧
      (∀ f, t.inFile f = t.symbols.filter (·.file = f)) ∧
      t.fileCount = (t.symbols.map (·.file)).toFinset.card ∧
      (∀ f i, t.Notes f i ↔ (t.symbols.map (·.file))[i]? = some f) ∧
      (t.places.flatMap Prod.snd).Perm (List.range t.size) ∧
      t.summary = toString t.size ++ " symbols in " ++ toString t.fileCount ++ " files (" ++
        toString (t.countOf .function) ++ " functions, " ++ toString (t.countOf .class) ++
        " classes)" ∧
      t.countOf .function + t.countOf .class = t.size := by
  intro t
  have h : t.InStep := inStep_insertions calls
  refine ⟨?_, h.inFile_eq, h.fileCount_eq, fun f i => h.notes_iff, h.perm_range, rfl,
    countOf_function_add_class t⟩
  exact (symbols_insertions calls {}).trans (List.nil_append _)

/-- Symbols of two files in one call, and of one of them in the next. -/
example :
    let symbol (name file : String) : Symbol :=
      { name, kind := .function, language := .python, file, line := 1 }
    let calls := [[symbol "f" "a.py", symbol "g" "b.py"], [symbol "h" "a.py"]]
    (calls.foldl SymbolTable.insert {}).places = [("a.py", [0, 2]), ("b.py", [1])] := by
  decide

end Worksite.SymbolTable
