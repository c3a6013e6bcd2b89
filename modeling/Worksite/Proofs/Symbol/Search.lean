import Worksite.Proofs.Outcome
import Worksite.Proofs.Response
import Worksite.Proofs.Text.Lower
import Worksite.Service

/-!
Searching symbols. A name is found by each of its parts, whatever the case, unless the lower case
of the part depends on what stands around it; a kind or a language only sorts out what differs.
-/
namespace Worksite

open Text (Chars lower Loose)

variable {i : IndexSnapshot} {r : Request.SearchSymbols} {a : Response.Symbols} {s : Symbol}
  {name part : String}

theorem nameContains_iff : nameContains name part ↔ lower part.toList <:+: lower name.toList :=
  Text.isInfixOf_iff

/-- Every name contains the empty text. -/
theorem SymbolQuery.admits_filter (kind : Option SymbolKind) (name : Option String)
    (language : Option Language) :
    admits { kind, name := name.filter (· ≠ ""), language } s =
      admits { kind, name, language } s := by
  rcases name with _ | name
  · rfl
  · by_cases h : name = ""
    · subst h
      have hall : nameContains s.name "" := nameContains_iff.mpr List.nil_infix
      simp [admits, hall]
    · rw [Option.filter_some_pos (by simpa using h)]

namespace SymbolTable

variable (t : SymbolTable) (q : SymbolQuery)

theorem search_kind (k : SymbolKind) :
    t.search { q with kind := some k } =
      (t.search { q with kind := none }).filter (·.kind = k) := by
  rw [search, search, List.filter_filter]
  exact List.filter_congr fun s _ => by simp [SymbolQuery.admits, eq_comm, Bool.and_assoc]

theorem search_language (l : Language) :
    t.search { q with language := some l } =
      (t.search { q with language := none }).filter (·.language = l) := by
  rw [search, search, List.filter_filter]
  exact List.filter_congr fun s _ => by
    simp [SymbolQuery.admits, eq_comm, Bool.and_assoc, Bool.and_left_comm]

end SymbolTable

namespace Service

theorem searchSymbols_name (i : IndexSnapshot) (q : String) :
    searchSymbols i { name := some q } =
      .ok { symbols := i.symbols.symbols.filter (nameContains ·.name q) } := by
  have hsearch : i.symbols.search { name := (some q).filter (· ≠ "") } =
      i.symbols.symbols.filter (nameContains ·.name q) :=
    List.filter_congr fun s _ => SymbolQuery.admits_filter none (some q) none
  exact congrArg (fun l => Except.ok (Response.Symbols.mk l)) hsearch

theorem mem_searchSymbols {q : String} (h : searchSymbols i { name := some q } = .ok a) :
    s ∈ a.symbols ↔ s ∈ i.symbols.symbols ∧ lower q.toList <:+: lower s.name.toList := by
  obtain rfl := Except.ok.inj ((searchSymbols_name i q).symm.trans h)
  rw [List.mem_filter, nameContains_iff]

theorem sublist_of_searchSymbols (h : searchSymbols i r = .ok a) :
    a.symbols.Sublist i.symbols.symbols := by
  obtain ⟨kind, -, h⟩ := bind_eq_ok.mp h
  obtain rfl := Except.ok.inj h
  exact List.filter_sublist

theorem searchSymbols_kind (i : IndexSnapshot) (r : Request.SearchSymbols) (k : SymbolKind) :
    searchSymbols i { r with kind := some k.tag } =
      (searchSymbols i { r with kind := none }).map fun a =>
        { symbols := a.symbols.filter (·.kind = k) } := by
  have hsearch := i.symbols.search_kind
    { name := r.name.filter (· ≠ ""), language := r.language.map Language.ofTag } k
  rw [searchSymbols, Option.mapM_some, SymbolKind.ofTag?_tag]
  exact congrArg (fun l => Except.ok (Response.Symbols.mk l)) hsearch

theorem searchSymbols_language (i : IndexSnapshot) (r : Request.SearchSymbols) (l : String) :
    searchSymbols i { r with language := some l } =
      (searchSymbols i { r with language := none }).map fun a =>
        { symbols := a.symbols.filter (·.language = Language.ofTag l) } := by
  rw [searchSymbols, searchSymbols]
  generalize Option.mapM (m := Except WorkspaceError) _ r.kind = outcome
  cases outcome with
  | error e => rfl
  | ok kind =>
    have hsearch := i.symbols.search_language { kind, name := r.name.filter (· ≠ "") }
      (Language.ofTag l)
    exact congrArg (fun l => Except.ok (Response.Symbols.mk l)) hsearch

/-- The symbols whose names hold the query in lower case are found. So each is found by every part
of its name, whatever the case, exactly if no text of the lower case of the query holds a loose
sigma. What is found keeps its order, and a kind or a language removes what differs. -/
theorem searchSymbols_complete (q : String) :
    (∀ i : IndexSnapshot, ∃ a, searchSymbols i { name := some q } = .ok a ∧ ∀ s,
      s ∈ a.symbols ↔ s ∈ i.symbols.symbols ∧ lower q.toList <:+: lower s.name.toList) ∧
    ((∀ (i : IndexSnapshot) (s : Symbol) (part : Chars), s ∈ i.symbols.symbols →
        part <:+: s.name.toList → lower part = lower q.toList →
        ∃ a, searchSymbols i { name := some q } = .ok a ∧ s ∈ a.symbols) ↔
      ∀ part, lower part = lower q.toList → ¬ Loose part) ∧
    ∀ (i : IndexSnapshot) (r : Request.SearchSymbols),
      (∀ a, searchSymbols i r = .ok a → a.symbols.Sublist i.symbols.symbols) ∧
      (∀ k : SymbolKind, searchSymbols i { r with kind := some k.tag } =
        (searchSymbols i { r with kind := none }).map fun a =>
          { symbols := a.symbols.filter (·.kind = k) }) ∧
      ∀ l : String, searchSymbols i { r with language := some l } =
        (searchSymbols i { r with language := none }).map fun a =>
          { symbols := a.symbols.filter (·.language = Language.ofTag l) } := by
  refine ⟨fun i => ⟨_, searchSymbols_name i q, fun s => mem_searchSymbols (searchSymbols_name i q)⟩,
    ⟨fun hfound part hpart hloose => ?_, fun hfixed i s part hs hin hpart => ?_⟩,
    fun i r => ⟨fun _ => sublist_of_searchSymbols, searchSymbols_kind i r,
      searchSymbols_language i r⟩⟩
  · obtain ⟨t, hin, hnot⟩ := Text.exists_not_isInfix hloose
    let s : Symbol := ⟨String.ofList t, .function, .rust, "", 1⟩
    obtain ⟨a, ha, hs⟩ := hfound { symbols := { symbols := [s] } } s part List.mem_cons_self
      (by rwa [String.toList_ofList]) hpart
    refine hnot ?_
    rw [hpart]
    simpa [s] using ((mem_searchSymbols ha).mp hs).2
  · refine ⟨_, searchSymbols_name i q, (mem_searchSymbols (searchSymbols_name i q)).mpr ⟨hs, ?_⟩⟩
    exact hpart ▸ Text.lower_isInfix (hfixed part hpart) hin

theorem searchSymbols_complete_letter :
    ∃ a, searchSymbols { symbols := { symbols := [⟨"aΣa", .function, .javaScript, "a.js", 1⟩] } }
      { name := some "a" } = .ok a ∧ ⟨"aΣa", .function, .javaScript, "a.js", 1⟩ ∈ a.symbols := by
  refine (searchSymbols_complete "a").2.1.mpr (fun part hpart => ?_) _ _ ['a']
    List.mem_cons_self ⟨[], ['Σ', 'a'], rfl⟩ rfl
  have hlower : lower "a".toList = ['a'] := Text.lowerFrom_a
  rw [hlower] at hpart
  exact Text.not_loose_of_notMem (hpart ▸ by decide) (hpart ▸ by decide)

/-- The sigma at the end of the query is a final one, and within the name it is none. -/
theorem searchSymbols_misses :
    "aΣ".toList <:+: "aΣa".toList ∧
      searchSymbols { symbols := { symbols := [⟨"aΣa", .function, .javaScript, "a.js", 1⟩] } }
        { name := some "aΣ" } = .ok { symbols := [] } := by
  have hmiss : nameContains "aΣa" "aΣ" = false := by
    rw [Bool.eq_false_iff, Ne, nameContains_iff]
    exact Text.not_isInfix_lower_concat (p := ['a']) (s := []) rfl Text.nearCased_a rfl
  refine ⟨⟨[], ['a'], rfl⟩, ?_⟩
  rw [searchSymbols_name, List.filter_cons_of_neg (by simp [hmiss]), List.filter_nil]

end Service

end Worksite
