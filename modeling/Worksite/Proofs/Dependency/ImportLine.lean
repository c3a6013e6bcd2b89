import Worksite.Proofs.Dependency.Reading

/-!
Import lines, with all the ways to write them: gaps between any two tokens, aliases, parentheses,
and a comment or another statement behind. They are read as what they say if they are plain.
-/
namespace Worksite

namespace Dependency

open Text (Chars Blank)

variable {c : Char}

/-- What may stand behind a name: nothing, or an alias. -/
def IsTrail (s : Chars) : Prop :=
  IsGap s ∨ ∃ g g' name g'', IsGap g ∧ g ≠ [] ∧ IsGap g' ∧ g' ≠ [] ∧ IsIdentifier name ∧
    IsGap g'' ∧ s = g ++ ("as".toList ++ (g' ++ (name ++ g'')))

structure ImportItem where
  before : Chars
  module : ModuleName
  written : Chars
  trail : Chars
  isGap : IsGap before
  absolute : module.level = 0
  spaced : Spaced module.tokens written
  isTrail : IsTrail trail

namespace ImportItem

def text (item : ImportItem) : Chars := item.before ++ (item.written ++ item.trail)

end ImportItem

/-- A line with `import` and a list of modules. -/
structure ImportLine where
  indent : Chars
  items : List ImportItem
  rest : Chars
  indented : IsGap indent
  items_ne_nil : items ≠ []
  separate : ∀ item ∈ items.head?, item.before ≠ []
  ends : ∀ c ∈ rest.head?, c ∈ ['#', ';']
  unended : '\n' ∉ rest

namespace ImportLine

/-- All that stands behind the keyword. -/
def body (line : ImportLine) : Chars :=
  [','].intercalate (line.items.map ImportItem.text) ++ line.rest

def text (line : ImportLine) : Chars := line.indent ++ ("import".toList ++ line.body)

def names (line : ImportLine) : List Chars := line.items.map (·.module.text)

/-- A space behind the keyword, names without gaps, and no semicolon right behind a name. -/
structure Plain (line : ImportLine) : Prop where
  space : ∀ item ∈ line.items.head?, item.before.head? = some ' '
  tight : ∀ item ∈ line.items, item.written = item.module.text
  setOff : ∀ item ∈ line.items.getLast?, item.trail = [] → line.rest.head? ≠ some ';'

end ImportLine

/-- A line with `from`, a module, `import`, and names of which only the beginning matters. -/
structure FromLine where
  indent : Chars
  before : Chars
  module : ModuleName
  written : Chars
  after : Chars
  names : Chars
  indented : IsGap indent
  isGap : IsGap before ∧ IsGap after
  spaced : Spaced module.tokens written
  separate : (before = [] → module.level ≠ 0) ∧ (after = [] → module.path = [])
  begins : ∀ c ∈ names.head?, c ∈ gapChars ∨ c ∈ ['(', '*']
  unended : '\n' ∉ names

namespace FromLine

/-- All that stands behind the first keyword. -/
def body (line : FromLine) : Chars :=
  line.before ++ (line.written ++ (line.after ++ ("import".toList ++ line.names)))

def text (line : FromLine) : Chars := line.indent ++ ("from".toList ++ line.body)

/-- A space behind the first keyword, a name without gaps, and white space around the second. -/
structure Plain (line : FromLine) : Prop where
  space : line.before.head? = some ' '
  tight : line.written = line.module.text
  apart : line.after ≠ []
  setOff : SetOff line.names

end FromLine

/-! ## Lists of modules -/

namespace ImportItem

variable (item : ImportItem)

theorem signless_trail : Signless item.trail := by
  rcases item.isTrail with htrail | ⟨g, g', name, g'', hg, -, hg', -, hname, hg'', heq⟩
  · exact .of_isGap htrail
  · rw [heq]
    simp only [signless_append]
    exact ⟨.of_isGap hg, .of_all (by decide), .of_isGap hg',
      .of_all (List.all_eq_true.mpr hname.isModuleChar), .of_isGap hg''⟩

theorem signless_text : Signless item.text := by
  simp only [text, signless_append]
  exact ⟨.of_isGap item.isGap, item.spaced.signless fun t => ModuleName.solid_of_mem_tokens,
    item.signless_trail⟩

theorem setOff_trail : SetOff item.trail := by
  intro c hc
  have hblank : ∀ g, IsGap g → ∀ c ∈ g.head?, Unicode.isSpace c := fun g hg c hc =>
    blank_of_isGap hg c (List.mem_of_mem_head? hc)
  rcases item.isTrail with htrail | ⟨g, g', name, g'', hg, hne, -, -, -, -, heq⟩
  · exact hblank _ htrail c hc
  · rw [heq, List.head?_append_of_ne_nil _ hne] at hc
    exact hblank g hg c hc

/-- What is read of an item and what runs on from it. -/
theorem exists_reading {run : Chars} (hrun : ∀ c ∈ run.head?, c = ';') :
    ∃ name, reading (item.text ++ run) = some name ∧ (name = item.module.text ↔
      item.written = item.module.text ∧ (item.trail = [] → run = [])) := by
  have hsetOff : SetOff (item.trail ++ run) ↔ (item.trail = [] → run = []) := by
    have htrail := item.setOff_trail
    generalize item.trail = trail at htrail
    cases trail with
    | cons c trail => exact iff_of_true (fun d hd => htrail d hd) nofun
    | nil =>
      cases run with
      | nil => exact iff_of_true nofun fun _ => rfl
      | cons c run =>
        obtain rfl := hrun c rfl
        exact iff_of_false (fun h => absurd (h ';' rfl) (by decide)) (by simp)
  have hbegin : ∀ c ∈ (item.trail ++ run).head?, Unicode.isSpace c ∨ c = ';' := by
    intro c hc
    rw [List.head?_append] at hc
    rcases Option.or_eq_some_iff.mp hc with hc | ⟨-, hc⟩
    · exact .inl (item.setOff_trail c hc)
    · exact .inr (hrun c hc)
  have hread := reading_module (m := item.module) (blank_of_isGap item.isGap) item.spaced hbegin
  rw [text, List.append_assoc, List.append_assoc]
  rwa [hsetOff] at hread

end ImportItem

/-- A name for each item, and behind them what is read of the rest. -/
theorem exists_readings {items : List ImportItem} (hne : items ≠ []) {run : Chars}
    (hrun : ∀ c ∈ run.head?, c = ';') :
    ∃ found, readings ([','].intercalate (items.map ImportItem.text) ++ run) =
        found ++ strays run ∧
      found.length = items.length ∧ (found = items.map (·.module.text) ↔
        (∀ item ∈ items, item.written = item.module.text) ∧
          ∀ item ∈ items.getLast?, item.trail = [] → run = []) := by
  have hcomma : ∀ item : ImportItem, ',' ∉ item.text := fun item =>
    item.signless_text.not_mem (by decide) (by decide)
  match items with
  | [item] =>
    have hfront : ∀ c ∈ (run.takeWhile (· ≠ ',')).head?, c = ';' := by
      intro c hc
      cases run with
      | nil => cases hc
      | cons d run =>
        obtain rfl := hrun d rfl
        simpa using hc.symm
    have hnil : run.takeWhile (· ≠ ',') = [] ↔ run = [] := by
      cases run with
      | nil => simp
      | cons d run =>
        obtain rfl := hrun d rfl
        simp
    obtain ⟨name, hname, hiff⟩ := item.exists_reading hfront
    refine ⟨[name], ?_, rfl, ?_⟩
    · rw [List.map_singleton, List.intercalate_singleton, readings_append (hcomma item), hname]
      rfl
    · rw [hnil] at hiff
      simpa using hiff
  | item :: next :: items =>
    obtain ⟨found, hfound, hlen, hiff⟩ := exists_readings (List.cons_ne_nil next items) hrun
    obtain ⟨name, hname, hiff'⟩ :=
      item.exists_reading (show ∀ c ∈ ([] : Chars).head?, c = ';' from nofun)
    rw [List.append_nil] at hname
    have htight : name = item.module.text ↔ item.written = item.module.text := by
      simpa using hiff'
    refine ⟨name :: found, ?_, congrArg (· + 1) hlen, ?_⟩
    · rw [List.map_cons, List.map_cons, List.intercalate_cons_cons, ← List.map_cons,
        List.append_assoc, List.append_assoc, List.singleton_append, readings_append_comma, hfound,
        readings_of_not_mem (hcomma item), hname]
      rfl
    · rw [List.map_cons, List.cons_eq_cons, htight, hiff, List.forall_mem_cons (a := item),
        List.getLast?_cons_cons, and_assoc]

namespace ImportLine

variable (line : ImportLine)

/-- The line begins with the gap of its first item, and the name of a module stands behind it. -/
theorem exists_body : ∃ item ∈ line.items.head?, ∃ b behind, b ∈ item.before.head? ∧
    line.body = b :: behind ∧ ∃ c ∈ behind, isModuleChar c := by
  obtain ⟨item, items, hitems⟩ := List.exists_cons_of_ne_nil line.items_ne_nil
  have hfirst : item ∈ line.items.head? := by
    rw [hitems]
    rfl
  obtain ⟨b, before, hbefore⟩ := List.exists_cons_of_ne_nil (line.separate item hfirst)
  obtain ⟨c, written, hwritten, hc⟩ :=
    item.spaced.exists_cons fun t => ModuleName.solid_of_mem_tokens
  obtain ⟨more, hmore⟩ : ∃ more, line.body = item.text ++ more := by
    rw [body, hitems, List.map_cons]
    cases items with
    | nil => exact ⟨line.rest, by rw [List.map_nil, List.intercalate_singleton]⟩
    | cons next items =>
      rw [List.map_cons, List.intercalate_cons_cons, List.append_assoc, List.append_assoc]
      exact ⟨_, rfl⟩
  refine ⟨item, hfirst, b, before ++ (item.written ++ item.trail) ++ more, ?_, ?_, c, ?_, hc⟩
  · rw [hbefore]
    rfl
  · rw [hmore, ImportItem.text, hbefore]
    rfl
  · simp [hwritten]

theorem not_mem_list (h : isModuleChar c = false) (hgap : c ∉ gapChars) (hcomma : c ≠ ',') :
    c ∉ [','].intercalate (line.items.map ImportItem.text) := by
  intro hc
  obtain ⟨t, ht, hc⟩ := List.mem_flatten.mp hc
  rcases mem_intersperse ht with rfl | ht
  · exact hcomma (List.mem_singleton.mp hc)
  · obtain ⟨item, -, rfl⟩ := List.mem_map.mp ht
    exact item.signless_text.not_mem h hgap hc

theorem uncommented_rest_eq_nil_iff :
    uncommented line.rest = [] ↔ line.rest.head? ≠ some ';' := by
  have hends := line.ends
  generalize line.rest = rest at hends ⊢
  cases rest with
  | nil => simp [uncommented]
  | cons d rest =>
    rcases List.mem_pair.mp (hends d rfl) with rfl | rfl <;> simp [uncommented]

theorem head?_uncommented_rest : ∀ c ∈ (uncommented line.rest).head?, c = ';' := by
  have hends := line.ends
  generalize line.rest = rest at hends ⊢
  cases rest with
  | nil => exact nofun
  | cons d rest =>
    intro c hc
    rcases List.mem_pair.mp (hends d rfl) with rfl | rfl
    · cases hc
    · exact (Option.some.inj hc).symm

/-- With a space behind the keyword a name is read for each item. -/
theorem exists_pythonLine (hspace : ∀ item ∈ line.items.head?, item.before.head? = some ' ') :
    ∃ found, pythonLine line.text = found ++ strays (uncommented line.rest) ∧
      found.length = line.names.length ∧ (found = line.names ↔ line.Plain) := by
  obtain ⟨item, hitem, b, behind, hb, hbody, c, hc, hmodule⟩ := line.exists_body
  obtain rfl : ' ' = b := Option.some.inj ((hspace item hitem).symm.trans hb)
  have hvisible : ¬ Blank behind := fun hblank =>
    Bool.false_ne_true ((isSpace_of_isModuleChar hmodule).symm.trans (hblank c hc))
  have hspaceBlank : Blank [' '] := List.forall_mem_singleton.mpr (by decide)
  have hbodyRead : uncommented line.body = [' '] ++ uncommented behind := by
    rw [hbody]
    exact List.takeWhile_cons_of_pos (by decide)
  have hread : pythonLine line.text = readings (uncommented line.body) := by
    rw [hbodyRead, readings_blank_append hspaceBlank, text, hbody]
    exact pythonLine_import (blank_of_isGap line.indented) hvisible
  have hlist : uncommented line.body = [','].intercalate (line.items.map ImportItem.text) ++
      uncommented line.rest :=
    uncommented_append (line.not_mem_list (by decide) (by decide) (by decide)) line.rest
  obtain ⟨found, hfound, hlen, hiff⟩ :=
    exists_readings line.items_ne_nil line.head?_uncommented_rest
  refine ⟨found, by rw [hread, hlist, hfound], by rw [hlen, names, List.length_map], ?_⟩
  rw [uncommented_rest_eq_nil_iff] at hiff
  rw [names, hiff]
  exact ⟨fun h => ⟨hspace, h.1, h.2⟩, fun h => ⟨h.tight, h.setOff⟩⟩

theorem pythonLine_eq_nil_of_not_space
    (h : ¬ ∀ item ∈ line.items.head?, item.before.head? = some ' ') :
    pythonLine line.text = [] := by
  obtain ⟨item, hitem, b, behind, hb, hbody, -⟩ := line.exists_body
  refine pythonLine_eq_nil (by decide) (blank_of_isGap line.indented) fun hspace => h ?_
  rw [hbody] at hspace
  intro item' hitem'
  rw [Option.mem_unique hitem' hitem, ← hspace]
  exact hb

theorem unended_text : '\n' ∉ line.text := by
  have hindent : '\n' ∉ line.indent := fun h => absurd (line.indented _ h) (by decide)
  have hlist := line.not_mem_list (c := '\n') (by decide) (by decide) (by decide)
  simp [text, body, hindent, hlist, line.unended]

end ImportLine

/-! ## One module -/

namespace FromLine

variable (line : FromLine)

theorem setOff_uncommented_names : SetOff (uncommented line.names) ↔ SetOff line.names := by
  have hbegins := line.begins
  generalize line.names = names at hbegins ⊢
  cases names with
  | nil => exact Iff.rfl
  | cons c names =>
    have hkept : c ≠ '#' := by
      rintro rfl
      rcases hbegins '#' rfl with h | h <;> exact absurd h (by decide)
    rw [uncommented, List.takeWhile_cons_of_pos (by simpa using hkept)]
    exact Iff.rfl

/-- What stands behind the module begins with white space or with the second keyword. -/
theorem setOff_after_append (rest : Chars) :
    SetOff (line.after ++ ("import".toList ++ rest)) ↔ line.after ≠ [] := by
  have hgap := line.isGap.2
  generalize line.after = after at hgap ⊢
  cases after with
  | nil => exact iff_of_false (fun h => absurd (h 'i' rfl) (by decide)) fun h => h rfl
  | cons c after =>
    refine iff_of_true (fun d hd => blank_of_isGap hgap d ?_) (List.cons_ne_nil _ _)
    rw [← Option.some.inj hd]
    exact List.mem_cons_self

/-- The second word is the keyword only if it is set off. -/
theorem words_keyword (rest : Chars) : ∃ word more,
    Text.words ("import".toList ++ rest) = word :: more ∧
      (word = "import".toList ↔ SetOff rest) := by
  have hword : ("import".toList ++ rest).takeWhile (!Unicode.isSpace ·) =
      "import".toList ++ rest.takeWhile (!Unicode.isSpace ·) := by
    have hall : "import".toList.all (!Unicode.isSpace ·) := by decide
    exact List.takeWhile_append_of_pos fun c hc => List.all_eq_true.mp hall c hc
  refine ⟨_, _, Text.words_cons (show Unicode.isSpace 'i' = false by decide) _, ?_⟩
  rw [← takeWhile_eq_nil_iff]
  exact (congrArg (· = "import".toList) hword).to_iff.trans List.append_right_eq_self

theorem signless_front :
    Signless (line.before ++ (line.written ++ (line.after ++ "import".toList))) := by
  simp only [signless_append]
  exact ⟨.of_isGap line.isGap.1, line.spaced.signless fun t => ModuleName.solid_of_mem_tokens,
    .of_isGap line.isGap.2, .of_all (by decide)⟩

/-- With a space behind the first keyword the words from the module on are read. -/
theorem pythonLine_text (hspace : line.before.head? = some ' ') :
    pythonLine line.text = (beforeKeyword? (Text.words (line.written ++ (line.after ++
      ("import".toList ++ uncommented line.names))))).toList := by
  obtain ⟨before, hbefore⟩ := List.head?_eq_some_iff.mp hspace
  have hfront := line.signless_front.not_mem (c := '#') (by decide) (by decide)
  have hblank : Blank before := fun c hc =>
    blank_of_isGap line.isGap.1 c (hbefore ▸ List.mem_cons_of_mem _ hc)
  rw [hbefore, List.cons_append] at hfront
  have huncommented : uncommented (before ++ (line.written ++ (line.after ++
      ("import".toList ++ line.names)))) = before ++ (line.written ++ (line.after ++
      ("import".toList ++ uncommented line.names))) := by
    have happend := uncommented_append (List.not_mem_of_not_mem_cons hfront) line.names
    simpa only [List.append_assoc] using happend
  have hvisible : ¬ Blank (before ++ (line.written ++ (line.after ++
      ("import".toList ++ line.names)))) := fun h => absurd (h 'i' (by simp)) (by decide)
  have hfrom := pythonLine_from (blank_of_isGap line.indented) hvisible
  rw [huncommented, Text.words_blank_append hblank] at hfrom
  rw [← hfrom, text, body, hbefore]
  rfl

theorem beforeKeyword?_eq_some_iff (hspace : line.before.head? = some ' ') :
    beforeKeyword? (Text.words (line.written ++ (line.after ++
        ("import".toList ++ uncommented line.names)))) = some line.module.text ↔
      line.Plain := by
  have hsolid : ∀ t ∈ line.module.tokens, Solid t := fun t => ModuleName.solid_of_mem_tokens
  by_cases htight : line.written = line.module.text ∧ line.after ≠ []
  · obtain ⟨htight, hafter⟩ := htight
    obtain ⟨a, after, hcons⟩ := List.exists_cons_of_ne_nil hafter
    have hblank : Blank (a :: after) := hcons ▸ blank_of_isGap line.isGap.2
    have hname : Text.words line.module.text = [line.module.text] := by
      refine Text.words_of_forall (fun d hd => ?_) (line.spaced.flatten_ne_nil hsolid)
      exact isSpace_of_isModuleChar (ModuleName.isModuleChar_of_mem_text hd)
    obtain ⟨word, more, hwords, hword⟩ := words_keyword (uncommented line.names)
    rw [htight, hcons, List.cons_append, Text.words_append_cons (hblank a List.mem_cons_self),
      Text.words_blank_append fun d hd => hblank d (List.mem_cons_of_mem a hd), hname, hwords,
      List.singleton_append, beforeKeyword?]
    rw [setOff_uncommented_names] at hword
    split_ifs with h
    · exact iff_of_true rfl ⟨hspace, htight, hafter, hword.mp h⟩
    · refine iff_of_false not_false fun hplain => h ?_
      exact hword.mpr hplain.setOff
  · refine iff_of_false (fun h => htight ?_) fun hplain => htight ⟨hplain.tight, hplain.apart⟩
    obtain ⟨c, written, hwritten, hc⟩ := line.spaced.exists_cons hsolid
    rw [← line.setOff_after_append (uncommented line.names)]
    refine (line.spaced.takeWhile_eq_iff hsolid).mp ?_
    rw [hwritten, List.cons_append, Text.words_cons (isSpace_of_isModuleChar hc)] at h
    rw [hwritten]
    exact eq_of_beforeKeyword? h

theorem exists_pythonLine : ∃ found : Option Chars,
    pythonLine line.text = found.toList ∧ (found = some line.module.text ↔ line.Plain) := by
  by_cases hspace : line.before.head? = some ' '
  · exact ⟨_, line.pythonLine_text hspace, line.beforeKeyword?_eq_some_iff hspace⟩
  · obtain ⟨c, written, hwritten, hc⟩ :=
      line.spaced.exists_cons fun t => ModuleName.solid_of_mem_tokens
    refine ⟨none, pythonLine_eq_nil (by decide) (blank_of_isGap line.indented) fun h => hspace ?_,
      iff_of_false nofun fun h => hspace h.space⟩
    rw [body, hwritten, List.head?_append] at h
    rcases Option.or_eq_some_iff.mp h with h | ⟨-, h⟩
    · exact h
    · rw [Option.some.inj h] at hc
      exact absurd hc (by decide)

theorem unended_text : '\n' ∉ line.text := by
  have hindent : '\n' ∉ line.indent := fun h => absurd (line.indented _ h) (by decide)
  have hfront := line.signless_front.not_mem (c := '\n') (by decide) (by decide)
  simp only [List.mem_append, not_or] at hfront
  simp [text, body, hindent, hfront, line.unended]

end FromLine

end Dependency

open Dependency in
/-- A plain line with `import` is read as the modules it lists, each once, if and only if what is
behind commas in the rest of the line adds no other; and if no comma is there and no module is
listed twice, only a plain line is read so. A line with `from` is read as its module if and only if
it is plain. -/
theorem extractDependencies_import_lines (line : ImportLine) (single : FromLine) :
    ((line.Plain →
        (extractDependencies (String.ofList line.text) .python =
            (line.names.map String.ofList).eraseDups ↔
          ∀ name ∈ strays (uncommented line.rest), name ∈ line.names)) ∧
      (line.names.Nodup → ',' ∉ uncommented line.rest →
        (extractDependencies (String.ofList line.text) .python = line.names.map String.ofList ↔
          line.Plain)) ∧
      ∀ name ∈ line.names, ∀ c ∈ name, isModuleChar c) ∧
    (extractDependencies (String.ofList single.text) .python = [String.ofList single.module.text] ↔
        single.Plain) ∧
      ∀ c ∈ single.module.text, isModuleChar c := by
  have hinj : Function.Injective String.ofList := fun _ _ h => String.ofList_inj.mp h
  have hdeps : ∀ text : Text.Chars, '\n' ∉ text → text ≠ [] →
      extractDependencies (String.ofList text) .python =
        ((pythonLine text).map String.ofList).eraseDups :=
    fun text hunended hne => extractDependencies_line hunended hne .python
  have hline := hdeps line.text line.unended_text (by simp [ImportLine.text])
  have hsingle := hdeps single.text single.unended_text (by simp [FromLine.text])
  rw [hline, hsingle]
  refine ⟨⟨fun hplain => ?_, fun hnodup hcomma => ?_, fun name hname c hc => ?_⟩, ?_,
    fun c hc => ModuleName.isModuleChar_of_mem_text hc⟩
  · obtain ⟨found, hfound, -, hiff⟩ := line.exists_pythonLine hplain.space
    rw [hfound, hiff.mpr hplain, List.map_append, eraseDups_append_eq_iff, List.forall_mem_map]
    exact forall₂_congr fun _ _ => List.mem_map_of_injective hinj
  · by_cases hspace : ∀ item ∈ line.items.head?, item.before.head? = some ' '
    · obtain ⟨found, hfound, hlen, hiff⟩ := line.exists_pythonLine hspace
      rw [hfound, strays_of_not_mem hcomma, List.append_nil, ← hiff,
        eraseDups_eq_iff (by simp [hlen]) (hnodup.map hinj), hinj.list_map.eq_iff]
    · rw [line.pythonLine_eq_nil_of_not_space hspace]
      refine iff_of_false (fun h => line.items_ne_nil ?_) fun hplain => hspace hplain.space
      simpa [ImportLine.names] using h.symm
  · obtain ⟨item, -, rfl⟩ := List.mem_map.mp hname
    exact ModuleName.isModuleChar_of_mem_text hc
  · obtain ⟨found, hfound, hiff⟩ := single.exists_pythonLine
    rw [hfound, ← hiff]
    cases found with
    | none => simp
    | some name =>
      rw [Option.toList_some, List.map_singleton, eraseDups_of_nodup (List.nodup_singleton _),
        List.singleton_inj, hinj.eq_iff, Option.some_inj]

open Dependency in
theorem extractDependencies_import_lines_alias :
    ∃ (line : ImportLine) (single : FromLine),
      line.text = "\timport a.b as c ,d ; f(x, d)".toList ∧ line.Plain ∧
      line.names = ["a.b".toList, "d".toList] ∧
      extractDependencies (String.ofList line.text) .python =
        (line.names.map String.ofList).eraseDups ∧
      single.text = "from ..a import (b)".toList ∧ single.Plain ∧
      extractDependencies (String.ofList single.text) .python = [String.ofList "..a".toList] := by
  let line : ImportLine :=
    { indent := ['\t']
      items :=
        [{ before := [' ']
           module := ⟨0, [['a'], ['b']], by decide, by decide⟩
           written := "a.b".toList
           trail := " as c ".toList
           isGap := by decide
           absolute := rfl
           spaced := ModuleName.spaced_text _
           isTrail := .inr ⟨[' '], [' '], ['c'], [' '], by decide, by decide, by decide,
             by decide, by decide, by decide, rfl⟩ },
         { before := []
           module := ⟨0, [['d']], by decide, by decide⟩
           written := "d".toList
           trail := " ".toList
           isGap := by decide
           absolute := rfl
           spaced := ModuleName.spaced_text _
           isTrail := .inl (by decide) }]
      rest := "; f(x, d)".toList
      indented := by decide
      items_ne_nil := List.cons_ne_nil _ _
      separate := by rintro item ⟨⟩; decide
      ends := by rintro c ⟨⟩; decide
      unended := by decide }
  let single : FromLine :=
    { indent := []
      before := [' ']
      module := ⟨2, [['a']], by decide, by decide⟩
      written := "..a".toList
      after := [' ']
      names := " (b)".toList
      indented := by decide
      isGap := by decide
      spaced := ModuleName.spaced_text _
      separate := by decide
      begins := by rintro c ⟨⟩; decide
      unended := by decide }
  have hline : line.Plain :=
    { space := by rintro item ⟨⟩; rfl
      tight := by
        intro item hitem
        rcases List.mem_pair.mp hitem with rfl | rfl <;> rfl
      setOff := by rintro item ⟨⟩; decide }
  have hstrays : ∀ name ∈ strays (uncommented line.rest), name ∈ line.names := by decide +kernel
  have hsingle : single.Plain :=
    { space := rfl
      tight := rfl
      apart := by decide
      setOff := by rintro c ⟨⟩; decide }
  obtain ⟨⟨hread, -⟩, hreadSingle, -⟩ := extractDependencies_import_lines line single
  exact ⟨line, single, by decide +kernel, hline, by decide +kernel, (hread hline).mpr hstrays,
    by decide +kernel, hsingle, hreadSingle.mpr hsingle⟩

open Dependency in
/-- A semicolon right behind the module is read as part of its name. -/
theorem extractDependencies_keeps_semicolon :
    (∃ line : ImportLine, line.text = "import os; x = 1".toList ∧ line.names = ["os".toList]) ∧
      extractDependencies "import os; x = 1" .python = ["os;"] := by
  let line : ImportLine :=
    { indent := []
      items :=
        [{ before := [' ']
           module := ⟨0, ["os".toList], by decide, by decide⟩
           written := "os".toList
           trail := []
           isGap := by decide
           absolute := rfl
           spaced := ModuleName.spaced_text _
           isTrail := .inl nofun }]
      rest := "; x = 1".toList
      indented := nofun
      items_ne_nil := List.cons_ne_nil _ _
      separate := by rintro item ⟨⟩; decide
      ends := by rintro c ⟨⟩; decide
      unended := by decide }
  exact ⟨⟨line, by decide +kernel, by decide +kernel⟩, by decide +kernel⟩

end Worksite
