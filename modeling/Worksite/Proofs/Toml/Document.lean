import Worksite.Proofs.Toml.Value

/-!
Documents of sections. Their lines may have any number of empty lines between them; read one after
the other, they give a table with a table for each section.
-/
namespace Worksite.Toml

open Syntax

variable {c : Char} {k : String} {v : Printer.Scalar} {s t rest : List Char} {fuel : Nat}

/-! ## Scalars -/

/-- What a scalar is read as. -/
def Printer.Scalar.value : Printer.Scalar → Toml
  | .text s => .text s
  | .bool b => .bool b
  | .nat n => .int n

/-- Whether a number is of 64 bits. -/
def Printer.Scalar.Fits : Printer.Scalar → Prop
  | .nat n => n < UInt64.size
  | _ => True

theorem value?_chars (h : v.Fits) (rest : List Char) :
    value? (v.chars ++ '\n' :: rest) = some (v.value, '\n' :: rest) := by
  cases v with
  | text s =>
    have htext := value?_text s.toList rest
    rw [String.ofList_toList] at htext
    exact htext
  | bool b => exact value?_bool b rest
  | nat n => exact value?_nat h rest

theorem stops_text (s rest : List Char) : Stops isBlank (Printer.text s ++ rest) := by
  rw [Printer.text]
  cases Printer.Form.of (Printer.traits s) <;> exact stops_cons.mpr (by decide)

/-- No scalar opens with a blank. -/
theorem stops_chars (v : Printer.Scalar) (rest : List Char) : Stops isBlank (v.chars ++ rest) := by
  cases v with
  | text s => exact stops_text s.toList rest
  | bool b => cases b <;> exact stops_cons.mpr (by decide)
  | nat n =>
    obtain ⟨d, ds, hds⟩ := List.exists_cons_of_ne_nil (Nat.toDigits_ne_nil (n := n) (b := 10))
    have hdigit : d.isDigit = true := Decimal.isDigit_of_mem d (hds ▸ List.mem_cons_self)
    rw [Printer.Scalar.chars, Decimal.toList_toString, hds]
    apply stops_cons.mpr
    by_contra hblank
    rcases isBlank_iff.mp (by simpa using hblank) with rfl | rfl <;> exact absurd hdigit (by decide)

theorem skipBlank_stops (h : Stops isBlank s) : skipBlank s = s := by
  have hdrop : ([] ++ s).dropWhile isBlank = s := dropWhile_run (by simp) h
  exact hdrop

/-! ## Keys -/

/-- Whether a key may stand without quote marks. -/
def Bare (k : String) : Prop := k.toList ≠ [] ∧ k.toList.all isBare = true

instance (k : String) : Decidable (Bare k) := inferInstanceAs (Decidable (_ ∧ _))

theorem Bare.exists_cons (h : Bare k) : ∃ c t, k.toList = c :: t ∧ isBare c = true := by
  obtain ⟨hne, hall⟩ := h
  obtain ⟨c, t, hk⟩ := List.exists_cons_of_ne_nil hne
  rw [hk, List.all_cons, Bool.and_eq_true] at hall
  exact ⟨c, t, hk, hall.1⟩

theorem isBlank_of_isBare (hc : isBare c = true) : isBlank c = false := by
  by_contra hblank
  rcases isBlank_iff.mp (by simpa using hblank) with rfl | rfl <;> exact absurd hc (by decide)

theorem simpleKey?_bare (h : Bare k) (hrest : Stops isBare rest) :
    simpleKey? (k.toList ++ rest) = some (k.toList, rest) := by
  have hrun : ∀ c ∈ k.toList, isBare c = true := List.all_eq_true.mp h.2
  have htake := takeWhile_run hrun hrest
  have hdrop := dropWhile_run hrun hrest
  obtain ⟨c, t, hk, hc⟩ := h.exists_cons
  rw [hk, List.cons_append] at htake hdrop ⊢
  rw [simpleKey?]
  · rw [htake, hdrop]
    rfl
  · exact fun _ h => ne_of_kind hc (by decide) (List.cons.inj h).1
  · exact fun _ h => ne_of_kind hc (by decide) (List.cons.inj h).1
  · exact fun _ h => ne_of_kind hc (by decide) (List.cons.inj h).1
  · exact fun _ h => ne_of_kind hc (by decide) (List.cons.inj h).1

/-- A bare key is read up to the sign behind it. -/
theorem key?_bare (h : Bare k) (hrest : Stops isBare rest) (hsign : skipBlank rest = c :: t)
    (hc : c ≠ '.') : key? (k.toList ++ rest) = some (([], k), c :: t) := by
  have hskip : skipBlank (k.toList ++ rest) = k.toList ++ rest := by
    obtain ⟨d, u, hk, hd⟩ := h.exists_cons
    rw [hk, List.cons_append]
    exact skipBlank_stops (stops_cons.mpr (isBlank_of_isBare hd))
  rw [key?, keyWithin, hskip, simpleKey?_bare h hrest]
  simp only [Option.bind_eq_bind, Option.bind_some, hsign]
  split
  · next heq => exact absurd (List.cons.inj heq).1 hc
  · rw [String.ofList_toList]

/-! ## Lines -/

/-- A line of a document of sections. -/
inductive Line where
  | header (name : String)
  | entry (key : String) (v : Printer.Scalar)

namespace Line

def chars : Line → List Char
  | header name => '[' :: (name.toList ++ [']', '\n'])
  | entry k v => k.toList ++ " = ".toList ++ v.chars ++ ['\n']

def statement : Line → Statement
  | header name => .openTable [] name
  | entry k v => .assign [] k v.value

/-- Whether names and keys are bare, and numbers of their size. -/
def Sound : Line → Prop
  | header name => Bare name
  | entry k v => Bare k ∧ v.Fits

variable {l : Line}

theorem statement?_chars (h : l.Sound) (rest : List Char) :
    statement? (l.chars ++ rest) = some (l.statement, '\n' :: rest) := by
  cases l with
  | header name =>
    have hkey : key? (name.toList ++ (']' :: '\n' :: rest)) =
        some (([], name), ']' :: '\n' :: rest) :=
      key?_bare h (stops_cons.mpr (by decide)) rfl (by decide)
    simp only [chars, List.cons_append, List.append_assoc, List.nil_append]
    rw [statement?]
    · rw [hkey]
      rfl
    · intro u hu
      obtain ⟨c, t, hname, hc⟩ := Bare.exists_cons h
      rw [hname] at hu
      exact ne_of_kind hc (by decide) (List.cons.inj hu).1
  | entry k v =>
    obtain ⟨hk, hv⟩ := h
    have hkey : key? (k.toList ++ (' ' :: '=' :: ' ' :: (v.chars ++ '\n' :: rest))) =
        some (([], k), '=' :: ' ' :: (v.chars ++ '\n' :: rest)) :=
      key?_bare hk (stops_cons.mpr (by decide)) rfl (by decide)
    have hskip : skipBlank (' ' :: (v.chars ++ '\n' :: rest)) = v.chars ++ '\n' :: rest :=
      skipBlank_stops (stops_chars v _)
    have hchars : chars (entry k v) ++ rest =
        k.toList ++ (' ' :: '=' :: ' ' :: (v.chars ++ '\n' :: rest)) := by
      simp [chars]
    obtain ⟨c, t, hname, hc⟩ := hk.exists_cons
    have hopen : ∀ u, k.toList ++ (' ' :: '=' :: ' ' :: (v.chars ++ '\n' :: rest)) ≠ '[' :: u := by
      intro u hu
      rw [hname] at hu
      exact ne_of_kind hc (by decide) (List.cons.inj hu).1
    rw [hchars, statement?]
    · rw [hkey]
      simp only [Option.bind_eq_bind, Option.bind_some, hskip, value?_chars hv]
      rfl
    · exact fun _ hu => hopen _ hu
    · exact fun _ hu => hopen _ hu

theorem exists_cons (h : l.Sound) :
    ∃ c t, l.chars = c :: t ∧ (c = '[' ∨ isBare c = true) := by
  cases l with
  | header name => exact ⟨'[', _, rfl, .inl rfl⟩
  | entry k v =>
    obtain ⟨c, t, hk, hc⟩ := h.1.exists_cons
    exact ⟨c, t ++ " = ".toList ++ v.chars ++ ['\n'], by simp [chars, hk], .inr hc⟩

/-- A line opens with no gap. -/
theorem skipGap_chars (h : l.Sound) (rest : List Char) :
    skipGap false (l.chars ++ rest) = some (l.chars ++ rest) := by
  obtain ⟨c, t, hl, hc⟩ := exists_cons h
  have hne {d : Char} (hd : d ≠ '[' ∧ isBare d = false) : c ≠ d := by
    rcases hc with rfl | hc
    · exact hd.1.symm
    · exact ne_of_kind hc hd.2
  have hspace := hne (show ' ' ≠ '[' ∧ isBare ' ' = false by decide)
  have htab := hne (show '\t' ≠ '[' ∧ isBare '\t' = false by decide)
  have hline := hne (show '\n' ≠ '[' ∧ isBare '\n' = false by decide)
  have hhash := hne (show '#' ≠ '[' ∧ isBare '#' = false by decide)
  rw [hl, List.cons_append, skipGap]
  · simp [isBlank, hspace, htab, hline, hhash]
  · exact fun _ heq => absurd heq (hne (by decide))

end Line

/-! ## Layouts -/

/-- The texts of some lines: any number of empty lines may stand in front of each and at the
end. -/
inductive Laid : List Line → List Char → Prop
  | done (n : Nat) : Laid [] (List.replicate n '\n')
  | line {l : Line} {ls : List Line} {t : List Char} (n : Nat) (h : Laid ls t) :
    Laid (l :: ls) (List.replicate n '\n' ++ (l.chars ++ t))

theorem skipGap_replicate (n : Nat) (s : List Char) :
    skipGap false (List.replicate n '\n' ++ s) = skipGap false s := by
  induction n with
  | zero => rfl
  | succ n ih =>
    rw [List.replicate_succ, List.cons_append, skipGap]
    · simpa using ih
    · exact fun _ heq => absurd heq (by decide)

variable {ls : List Line}

theorem statementsWithin_laid (h : Laid ls t) (hsound : ∀ l ∈ ls, l.Sound) (fuel : Nat)
    (hfuel : t.length < fuel) : statementsWithin fuel t = some (ls.map Line.statement) := by
  -- each line takes one step, and its text is not empty, so the fuel lasts
  induction h generalizing fuel with
  | done n =>
    obtain ⟨fuel, rfl⟩ : ∃ k, fuel = k + 1 := ⟨fuel - 1, by omega⟩
    have hgap := skipGap_replicate n []
    rw [List.append_nil] at hgap
    simp [statementsWithin, hgap, skipGap]
  | @line l ls t n _ ih =>
    obtain ⟨hl, hls⟩ := List.forall_mem_cons.mp hsound
    obtain ⟨c, u, hcons, -⟩ := Line.exists_cons hl
    rw [List.length_append, List.length_append, hcons, List.length_cons] at hfuel
    obtain ⟨fuel, rfl⟩ : ∃ k, fuel = k + 1 := ⟨fuel - 1, by omega⟩
    have hend : lineEnd? ('\n' :: t) = some t := rfl
    rw [statementsWithin, skipGap_replicate, Line.skipGap_chars hl]
    simp only [Option.bind_eq_bind, Option.bind_some]
    split
    · next heq => simp [hcons] at heq
    · simp [Line.statement?_chars hl, hend, ih hls fuel (by omega)]

theorem dropMark_cons (hc : c ≠ '\ufeff') (s : List Char) : dropMark (c :: s) = c :: s := by
  rw [dropMark]
  exact fun _ h => hc (List.cons.inj h).1

/-- No line opens with a mark of byte order. -/
theorem dropMark_laid (h : Laid ls t) (hsound : ∀ l ∈ ls, l.Sound) : dropMark t = t := by
  cases h with
  | done n =>
    cases n with
    | zero => rfl
    | succ n => exact dropMark_cons (by decide) _
  | line n =>
    obtain ⟨hl, -⟩ := List.forall_mem_cons.mp hsound
    obtain ⟨c, u, hcons, hc⟩ := Line.exists_cons hl
    cases n with
    | zero =>
      rw [List.replicate_zero, List.nil_append, hcons]
      refine dropMark_cons ?_ _
      rcases hc with rfl | hc
      · decide
      · exact ne_of_kind hc (by decide)
    | succ n => exact dropMark_cons (by decide) _

/-! ## Sections -/

/-- The lines of a section. -/
def Printer.Section.entries (x : Printer.Section) : List Line :=
  .header x.name :: x.lines.map fun (k, v) => .entry k v

/-- What the lines of a section put into a table. -/
def leaves (lines : List (String × Printer.Scalar)) : Members :=
  lines.map fun (k, v) => (k, .leaf v.value)

def Printer.Section.node (x : Printer.Section) : String × Node :=
  (x.name, .table .header (leaves x.lines))

variable {name : String} {m done : Members} {lines : List (String × Printer.Scalar)}
  {xs : List Printer.Section}

theorem lookup_append_new {a : Node} (h : m.lookup name = none) :
    (m ++ [(name, a)]).lookup name = some a := by
  rw [List.lookup_append, h]
  simp

theorem replace_append_new {a b : Node} (h : m.lookup name = none) :
    Members.replace name b (m ++ [(name, a)]) = m ++ [(name, b)] := by
  have hne : ∀ n ∈ m, n.1 ≠ name := by
    intro n hn
    have hlookup := List.lookup_eq_none_iff.mp h n hn
    exact Ne.symm (by simpa using hlookup)
  have hsame : Members.replace name b m = m := by
    rw [Members.replace, List.map_congr_left (g := id)]
    · exact List.map_id m
    · intro n hn
      simp [hne n hn]
  have happend : Members.replace name b (m ++ [(name, a)]) =
      Members.replace name b m ++ [(name, b)] := by
    simp [Members.replace]
  rw [happend, hsame]

theorem lookup_eq_none_of_nodup {names : List String}
    (h : (m.map Prod.fst ++ name :: names).Nodup) : m.lookup name = none := by
  rw [List.lookup_eq_none_iff]
  intro n hn
  have hne := (List.nodup_append.mp h).2.2 n.1 (List.mem_map_of_mem hn) name List.mem_cons_self
  simpa using Ne.symm hne

/-- A line is put into the table of the last header. -/
theorem edit_assign {v : Toml} (h : m.lookup name = none) (hnew : done.lookup k = none) :
    Members.edit false (Members.assign [] k v) [name] .header
        (m ++ [(name, .table .header done)]) =
      some (m ++ [(name, .table .header (done ++ [(k, .leaf v)]))]) := by
  have hassign : Members.assign [] k v .header done = some (done ++ [(k, .leaf v)]) := by
    simp [Members.assign, Members.edit, hnew]
  simp [Members.edit, lookup_append_new h, hassign, replace_append_new h]

/-- The lines of a section fill its table in their order. -/
theorem assemble_lines (h : m.lookup name = none)
    (hnodup : ((done.map Prod.fst) ++ (lines.map Prod.fst)).Nodup) (rest : List Statement) :
    assemble [name] (m ++ [(name, .table .header done)])
        ((lines.map fun (k, v) => Line.statement (.entry k v)) ++ rest) =
      assemble [name] (m ++ [(name, .table .header (done ++ leaves lines))]) rest := by
  -- `done` is what the table holds so far
  induction lines generalizing done with
  | nil => simp [leaves]
  | cons l lines ih =>
    obtain ⟨k, v⟩ := l
    have hnew : done.lookup k = none := lookup_eq_none_of_nodup (by simpa using hnodup)
    have hrest := @ih (done ++ [(k, .leaf v.value)]) (by simpa using hnodup)
    simp only [List.map_cons, List.cons_append, Line.statement, assemble, edit_assign h hnew,
      Option.bind_eq_bind, Option.bind_some]
    simpa [leaves, Line.statement] using hrest

/-- The header of a new table opens it. -/
theorem openTable_new (h : m.lookup name = none) :
    m.openTable [] name = some (m ++ [(name, .table .header [])]) := by
  simp [Members.openTable, Members.edit, h]

/-- Sections of different names give a table for each. -/
theorem assemble_sections (here : List String)
    (hnodup : (m.map Prod.fst ++ xs.map (·.name)).Nodup)
    (hlines : ∀ x ∈ xs, (x.lines.map Prod.fst).Nodup) :
    assemble here m ((xs.flatMap Printer.Section.entries).map Line.statement) =
      some (m ++ xs.map Printer.Section.node) := by
  -- where the last section ended does not matter: each one opens with its own header
  induction xs generalizing here m with
  | nil => simp [assemble]
  | cons x xs ih =>
    obtain ⟨hx, hxs⟩ := List.forall_mem_cons.mp hlines
    rw [List.map_cons] at hnodup
    have hnew := lookup_eq_none_of_nodup hnodup
    have hrest := @ih (m ++ [x.node]) [x.name] (by simpa [Printer.Section.node] using hnodup) hxs
    have hstatements : ((x :: xs).flatMap Printer.Section.entries).map Line.statement =
        .openTable [] x.name :: ((x.lines.map fun (k, v) => Line.statement (.entry k v)) ++
          (xs.flatMap Printer.Section.entries).map Line.statement) := by
      simp [Printer.Section.entries, Line.statement]
    rw [hstatements, assemble, openTable_new hnew, Option.bind_eq_bind, Option.bind_some,
      List.nil_append, assemble_lines hnew (by simpa using hx)]
    simpa [Printer.Section.node] using hrest

/-! ## Documents -/

/-- What a section is read as. -/
def Printer.Section.value (x : Printer.Section) : String × Toml :=
  (x.name, .table (x.lines.map fun (k, v) => (k, v.value)))

theorem values_leaves (lines : List (String × Printer.Scalar)) :
    Node.values (leaves lines) = lines.map fun (k, v) => (k, v.value) := by
  induction lines with
  | nil => rfl
  | cons l lines ih => exact congrArg _ ih

theorem values_nodes (xs : List Printer.Section) :
    Node.values (xs.map Printer.Section.node) = xs.map Printer.Section.value := by
  induction xs with
  | nil => rfl
  | cons x xs ih =>
    rw [List.map_cons, List.map_cons, ← ih, Printer.Section.node, Node.values, Node.value,
      values_leaves, Printer.Section.value]

/-- Whether names and keys are bare and come once each, and numbers are of their size. -/
structure Printer.Sound (xs : List Printer.Section) : Prop where
  names : (xs.map (·.name)).Nodup
  keys : ∀ x ∈ xs, (x.lines.map Prod.fst).Nodup
  bare : ∀ x ∈ xs, Bare x.name ∧ ∀ k ∈ x.lines.map Prod.fst, Bare k
  fits : ∀ x ∈ xs, ∀ l ∈ x.lines, l.2.Fits

theorem Printer.Sound.entries (h : Printer.Sound xs) :
    ∀ l ∈ xs.flatMap Printer.Section.entries, l.Sound := by
  intro l hl
  obtain ⟨x, hx, hl⟩ := List.mem_flatMap.mp hl
  obtain ⟨hname, hkeys⟩ := h.bare x hx
  rcases List.mem_cons.mp hl with rfl | hl
  · exact hname
  · obtain ⟨⟨k, v⟩, hmem, rfl⟩ := List.mem_map.mp hl
    exact ⟨hkeys k (List.mem_map_of_mem hmem), h.fits x hx _ hmem⟩

/-- However the lines of some sections are laid out, they are read as these sections. -/
theorem ofText?_laid (hsound : Printer.Sound xs)
    (h : Laid (xs.flatMap Printer.Section.entries) t) :
    Toml.ofText? (String.ofList t) = some (.table (xs.map Printer.Section.value)) := by
  have hstatements := statementsWithin_laid h hsound.entries (t.length + 1) (Nat.lt_succ_self _)
  have hassemble := @assemble_sections [] xs [] (by simpa using hsound.names) hsound.keys
  rw [Toml.ofText?, String.toList_ofList, dropMark_laid h hsound.entries, hstatements]
  simp only [Option.bind_eq_bind, Option.bind_some, hassemble, List.nil_append, values_nodes]

theorem Laid.gap (h : Laid ls t) : Laid ls ('\n' :: t) := by
  cases h with
  | done n => exact .done (n + 1)
  | line n h => exact .line (n + 1) h

theorem Laid.gaps (h : Laid ls t) (n : Nat) : Laid ls (List.replicate n '\n' ++ t) := by
  induction n with
  | zero => exact h
  | succ n ih => exact ih.gap

/-- A line deleted from a text leaves a text of the other lines, so that any lines of a printed
document can be deleted one after the other. -/
theorem Laid.delete {l : Line} {before after : List Line} (h : Laid (before ++ l :: after) t) :
    ∃ u v, t = u ++ (l.chars ++ v) ∧ Laid (before ++ after) (u ++ v) := by
  induction before generalizing t with
  | nil =>
    cases h with
    | line n h => exact ⟨_, _, rfl, h.gaps n⟩
  | cons b before ih =>
    cases h with
    | line n h =>
      obtain ⟨u, v, rfl, hleft⟩ := ih h
      refine ⟨List.replicate n '\n' ++ (b.chars ++ u), v, by simp, ?_⟩
      simpa using Laid.line n hleft

theorem Laid.append (h : Laid ls t) (before : List Line) :
    Laid (before ++ ls) (before.flatMap Line.chars ++ t) := by
  induction before with
  | nil => exact h
  | cons l before ih =>
    rw [List.flatMap_cons, List.append_assoc]
    exact .line 0 ih

theorem flatMap_entries (x : Printer.Section) : x.entries.flatMap Line.chars = x.chars := by
  simp [Printer.Section.entries, Printer.Section.chars, List.flatMap_map, Line.chars]

/-- The printer lays out each section line by line, with an empty line between two of them. -/
theorem laid_document (xs : List Printer.Section) :
    Laid (xs.flatMap Printer.Section.entries) (Printer.document xs).toList := by
  rw [Printer.document, String.toList_ofList]
  induction xs with
  | nil => exact .done 0
  | cons x xs ih =>
    rw [List.flatMap_cons]
    -- an empty line stands behind every section but the last
    cases xs with
    | nil =>
      have hlast := (Laid.done 0).append x.entries
      rw [flatMap_entries] at hlast
      simpa using hlast
    | cons y ys =>
      have hnext := ih.gap.append x.entries
      rw [flatMap_entries] at hnext
      simpa [List.intercalate] using hnext

end Worksite.Toml
