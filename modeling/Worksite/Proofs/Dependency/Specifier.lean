import Worksite.Proofs.Dependency
import Worksite.Proofs.Text.Words

/-!
Quoted specifiers. What a line of a script names is between two quotes and holds neither of the two
kinds of quotes. So it is named as it is written unless it holds quotes of the other kind.
-/
namespace Worksite

namespace Dependency

open Text (Chars Blank)

variable {s t u x g name rest tail lead clause keyword line : Chars} {c d q : Char} {k : Nat}
  {before : Option Char}

def Quoteless (s : Chars) : Prop := ∀ c ∈ s, isQuote c = false

instance : DecidablePred Quoteless := fun s =>
  decidable_of_iff (s.all (!isQuote ·)) (by simp [Quoteless])

theorem quoteless_append : Quoteless (s ++ t) ↔ Quoteless s ∧ Quoteless t := List.forall_mem_append

theorem quoteless_cons : Quoteless (c :: s) ↔ isQuote c = false ∧ Quoteless s :=
  List.forall_mem_cons

theorem isSpace_of_isQuote (h : isQuote c) : Unicode.isSpace c = false := by
  simp only [isQuote, Bool.or_eq_true, decide_eq_true_eq] at h
  rcases h with rfl | rfl <;> decide

theorem Quoteless.of_blank (h : Blank s) : Quoteless s := fun c hc => by
  rw [← Bool.not_eq_true]
  intro hquote
  exact Bool.false_ne_true ((isSpace_of_isQuote hquote).symm.trans (h c hc))

theorem takeWhile_quoteless (h : Quoteless s) (hq : isQuote q) (rest : Chars) :
    (s ++ q :: rest).takeWhile (!isQuote ·) = s := by
  rw [List.takeWhile_append_of_pos (by simpa [Quoteless] using h),
    List.takeWhile_cons_of_neg (by simpa using hq), List.append_nil]

theorem dropWhile_quoteless (h : Quoteless s) (hq : isQuote q) (rest : Chars) :
    (s ++ q :: rest).dropWhile (!isQuote ·) = q :: rest := by
  rw [List.dropWhile_append_of_pos (by simpa [Quoteless] using h),
    List.dropWhile_cons_of_neg (by simpa using hq)]

/-- The first quote of a text is in one place. -/
theorem eq_of_quoteless_append {q' : Char} {s' rest' : Chars} (h : Quoteless s)
    (h' : Quoteless s') (hq : isQuote q) (hq' : isQuote q')
    (heq : s ++ q :: rest = s' ++ q' :: rest') : s = s' ∧ q = q' ∧ rest = rest' := by
  have hstart := congrArg (List.takeWhile (!isQuote ·)) heq
  have hend := congrArg (List.dropWhile (!isQuote ·)) heq
  rw [takeWhile_quoteless h hq, takeWhile_quoteless h' hq'] at hstart
  rw [dropWhile_quoteless h hq, dropWhile_quoteless h' hq'] at hend
  exact ⟨hstart, List.cons.inj hend⟩

theorem specifier?_eq_some : specifier? t = some (name, rest) ↔
    ∃ q q', isQuote q ∧ isQuote q' ∧ name ≠ [] ∧ Quoteless name ∧
      t = q :: (name ++ q' :: rest) := by
  constructor
  · intro h
    cases t with
    | nil => cases h
    | cons q t =>
      rw [specifier?] at h
      split_ifs at h with hq
      have hsplit : t.takeWhile (!isQuote ·) ++ t.dropWhile (!isQuote ·) = t :=
        List.takeWhile_append_dropWhile
      have hstop := List.head?_dropWhile_not (!isQuote ·) t
      cases hbehind : t.dropWhile (!isQuote ·) with
      | nil => simp [hbehind] at h
      | cons q' behind =>
        rw [hbehind] at h hsplit hstop
        simp only [List.isEmpty_iff, Option.ite_none_left_eq_some, Option.some.injEq,
          Prod.mk.injEq] at h
        obtain ⟨hne, rfl, rfl⟩ := h
        refine ⟨q, q', hq, by simpa using hstop, hne, fun c hc => ?_, by rw [hsplit]⟩
        simpa using List.mem_takeWhile_imp hc
  · rintro ⟨q, q', hq, hq', hne, hname, rfl⟩
    simp [specifier?, hq, takeWhile_quoteless hname hq', dropWhile_quoteless hname hq', hne]

theorem specifier?_append (hd : isQuote d) (hs : Quoteless s) (hne : s ≠ []) (tail : Chars) :
    specifier? (d :: (s ++ d :: tail)) = some (s, tail) :=
  specifier?_eq_some.mpr ⟨d, d, hd, hd, hne, hs, rfl⟩

/-! ## Statements -/

/-- What follows `import` or `export` at the start of a line. -/
theorem afterKeyword (hkeyword : keyword ∈ ["import".toList, "export".toList]) (rest : Chars) :
    (Text.afterLead? "import".toList (Text.trimStart (keyword ++ rest))).or
      (Text.afterLead? "export".toList (Text.trimStart (keyword ++ rest))) = some rest := by
  rcases List.mem_pair.mp hkeyword with rfl | rfl
  · have htrim : Text.trimStart ("import".toList ++ rest) = "import".toList ++ rest :=
      Text.trimStart_eq_self (by rintro c ⟨⟩; decide)
    rw [htrim, Text.afterLead?_append, Option.some_or]
  · have htrim : Text.trimStart ("export".toList ++ rest) = "export".toList ++ rest :=
      Text.trimStart_eq_self (by rintro c ⟨⟩; decide)
    have himport : Text.afterLead? "import".toList ("export".toList ++ rest) = none :=
      Text.afterLead?_of_head?_ne (by decide) (show some 'e' ≠ some 'i' by decide)
    rw [htrim, himport, Text.afterLead?_append, Option.none_or]

theorem any_eq_false {p : Char → Bool} {o : Option Char} (h : ∀ c ∈ o, p c = false) :
    o.any p = false := by
  cases o with
  | none => rfl
  | some c => exact h c rfl

/-- A clause between the keyword and `from`, set off from either. -/
theorem fromLine?_append (hkeyword : keyword ∈ ["import".toList, "export".toList])
    (hclause : Quoteless clause) (hnil : clause ≠ [])
    (hhead : ∀ c ∈ clause.head?, Unicode.isWord c = false)
    (hlast : ∀ c ∈ clause.getLast?, Unicode.isWord c = false)
    (hg : Blank g) (hd : isQuote d) (hs : Quoteless s) (hne : s ≠ []) (tail : Chars) :
    fromLine? (keyword ++ (clause ++ ("from".toList ++ (g ++ d :: (s ++ d :: tail))))) =
      some s := by
  have hfront : Quoteless (clause ++ ("from".toList ++ g)) :=
    quoteless_append.mpr ⟨hclause, quoteless_append.mpr ⟨by decide, .of_blank hg⟩⟩
  have hrest : clause ++ ("from".toList ++ (g ++ d :: (s ++ d :: tail))) =
      clause ++ ("from".toList ++ g) ++ d :: (s ++ d :: tail) := by
    simp only [List.append_assoc]
  have hfrom : Text.trimEnd (clause ++ ("from".toList ++ g)) = clause ++ "from".toList := by
    rw [← List.append_assoc, Text.trimEnd_append_blank hg, Text.trimEnd_eq_self]
    rw [List.getLast?_append_of_ne_nil _ (by decide)]
    rintro c ⟨⟩
    decide
  have hbefore : Text.afterLead? "morf".toList (clause ++ "from".toList).reverse =
      some clause.reverse := by
    rw [List.reverse_append]
    exact Text.afterLead?_append "morf".toList clause.reverse
  have hstart : (clause ++ ("from".toList ++ (g ++ d :: (s ++ d :: tail)))).head? =
      clause.head? := List.head?_append_of_ne_nil _ hnil
  rw [fromLine?, afterKeyword hkeyword]
  dsimp only [Option.bind_eq_bind, Option.bind_some]
  rw [hstart, any_eq_false hhead, hrest, takeWhile_quoteless hfront hd,
    dropWhile_quoteless hfront hd, hfrom, hbefore]
  dsimp only [Option.bind_some]
  rw [List.head?_reverse, any_eq_false hlast, specifier?_append hd hs hne]
  rfl

/-- There is no clause without `from`. -/
theorem fromLine?_eq_none (hg : Blank g) (hd : isQuote d) (rest : Chars) :
    fromLine? ("import".toList ++ (g ++ d :: rest)) = none := by
  have hfrom : Text.trimEnd g = [] := by
    have hempty := Text.trimEnd_append_blank hg []
    rwa [List.nil_append] at hempty
  have hnone : Text.afterLead? "morf".toList ([] : Chars).reverse = none := rfl
  rw [fromLine?, afterKeyword List.mem_cons_self]
  dsimp only [Option.bind_eq_bind, Option.bind_some]
  rw [takeWhile_quoteless (.of_blank hg) hd, hfrom, hnone]
  exact Option.bind_eq_none_iff.mpr fun _ _ => rfl

theorem importLine?_append (hg : Blank g) (hd : isQuote d) (hs : Quoteless s) (hne : s ≠ [])
    (tail : Chars) :
    importLine? ("import".toList ++ (g ++ d :: (s ++ d :: tail))) = some s := by
  have htrim : ∀ rest, Text.trimStart ("import".toList ++ rest) = "import".toList ++ rest :=
    fun rest => Text.trimStart_eq_self (by rintro c ⟨⟩; decide)
  have hquote : Text.trimStart (d :: (s ++ d :: tail)) = d :: (s ++ d :: tail) :=
    Text.trimStart_eq_self (by rintro c ⟨⟩; exact isSpace_of_isQuote hd)
  rw [importLine?, htrim, Text.afterLead?_append]
  dsimp only [Option.bind_eq_bind, Option.bind_some]
  rw [Text.trimStart_blank_append hg, hquote, specifier?_append hd hs hne]
  rfl

/-- A line with another first character has no such statement. -/
theorem statement_eq_none (h : ∀ c ∈ line.head?, c ∉ ['i', 'e'] ∧ Unicode.isSpace c = false) :
    fromLine? line = none ∧ importLine? line = none := by
  have htrim : Text.trimStart line = line := Text.trimStart_eq_self fun c hc => (h c hc).2
  have himport : Text.afterLead? "import".toList line = none :=
    Text.afterLead?_of_head?_ne (by decide) fun hhead => (h 'i' hhead).1 (by decide)
  have hexport : Text.afterLead? "export".toList line = none :=
    Text.afterLead?_of_head?_ne (by decide) fun hhead => (h 'e' hhead).1 (by decide)
  rw [fromLine?, importLine?, htrim, himport, hexport]
  exact ⟨rfl, rfl⟩

/-! ## Calls -/

/-- What opens the call of a module: a keyword and a parenthesis. -/
def Opens (opening : Chars) : Prop :=
  ∃ keyword g g', keyword ∈ ["require".toList, "import".toList] ∧ Blank g ∧ Blank g' ∧
    opening = keyword ++ (g ++ '(' :: g')

theorem quoteless_of_opens (h : Opens x) : Quoteless x := by
  obtain ⟨keyword, g, g', hkeyword, hg, hg', rfl⟩ := h
  have hletters : Quoteless keyword := by
    rcases List.mem_pair.mp hkeyword with rfl | rfl <;> decide
  exact quoteless_append.mpr ⟨hletters, quoteless_append.mpr
    ⟨.of_blank hg, quoteless_cons.mpr ⟨by decide, .of_blank hg'⟩⟩⟩

theorem call?_eq_some (h : call? t = some (name, rest)) :
    ∃ x q q' g, Opens x ∧ isQuote q ∧ isQuote q' ∧ name ≠ [] ∧ Quoteless name ∧ Blank g ∧
      t = x ++ q :: (name ++ q' :: (g ++ ')' :: rest)) := by
  obtain ⟨behind, hbehind, hfound⟩ := Option.bind_eq_some_iff.mp h
  obtain ⟨keyword, hkeyword, rfl⟩ :
      ∃ keyword ∈ ["require".toList, "import".toList], t = keyword ++ behind := by
    rcases Option.or_eq_some_iff.mp hbehind with hrequire | ⟨-, himport⟩
    · exact ⟨_, List.mem_cons_self, Text.afterLead?_eq_some.mp hrequire⟩
    · exact ⟨_, List.mem_cons_of_mem _ List.mem_cons_self, Text.afterLead?_eq_some.mp himport⟩
  obtain ⟨g, hg, hopen⟩ := Text.exists_trimStart behind
  split at hfound
  · next inner heq =>
    obtain ⟨⟨name', after⟩, hname, hfound⟩ := Option.bind_eq_some_iff.mp hfound
    obtain ⟨g', hg', hinner⟩ := Text.exists_trimStart inner
    obtain ⟨q, q', hq, hq', hne, hquoteless, hquoted⟩ := specifier?_eq_some.mp hname
    obtain ⟨g'', hg'', hafter⟩ := Text.exists_trimStart after
    dsimp only at hfound
    split at hfound
    · next last hclose =>
      obtain ⟨rfl, rfl⟩ := Prod.mk.inj (Option.some.inj hfound)
      refine ⟨_, q, q', g'', ⟨keyword, g, g', hkeyword, hg, hg', rfl⟩, hq, hq', hne, hquoteless,
        hg'', ?_⟩
      rw [hopen, heq, hinner, hquoted, hafter, hclose]
      simp only [List.append_assoc, List.cons_append]
    · cases hfound
  · cases hfound

theorem call?_append (hx : Opens x) (hd : isQuote d) (hs : Quoteless s) (hne : s ≠ [])
    (hg : Blank g) (rest : Chars) :
    call? (x ++ d :: (s ++ d :: (g ++ ')' :: rest))) = some (s, rest) := by
  obtain ⟨keyword, g', g'', hkeyword, hg', hg'', rfl⟩ := hx
  have hbehind : ∀ behind, (Text.afterLead? "require".toList (keyword ++ behind)).or
      (Text.afterLead? "import".toList (keyword ++ behind)) = some behind := by
    intro behind
    rcases List.mem_pair.mp hkeyword with rfl | rfl
    · rw [Text.afterLead?_append, Option.some_or]
    · have hrequire : Text.afterLead? "require".toList ("import".toList ++ behind) = none :=
        Text.afterLead?_of_head?_ne (by decide) (show some 'i' ≠ some 'r' by decide)
      rw [hrequire, Option.none_or, Text.afterLead?_append]
  have hparenthesis : ∀ c ∈ ['(', ')'], ∀ t, Text.trimStart (c :: t) = c :: t := by
    intro c hc t
    refine Text.trimStart_eq_self ?_
    rintro c' ⟨⟩
    rcases List.mem_pair.mp hc with rfl | rfl <;> decide
  have hquote : Text.trimStart (d :: (s ++ d :: (g ++ ')' :: rest))) =
      d :: (s ++ d :: (g ++ ')' :: rest)) :=
    Text.trimStart_eq_self (by rintro c ⟨⟩; exact isSpace_of_isQuote hd)
  rw [call?, List.append_assoc, hbehind, List.append_assoc, List.cons_append]
  dsimp only [Option.bind_eq_bind, Option.bind_some]
  rw [Text.trimStart_blank_append hg', hparenthesis '(' (by decide)]
  change (specifier? (Text.trimStart (g'' ++ d :: (s ++ d :: (g ++ ')' :: rest))))).bind _ = _
  rw [Text.trimStart_blank_append hg'', hquote, specifier?_append hd hs hne]
  dsimp only [Option.bind_some]
  rw [Text.trimStart_blank_append hg, hparenthesis ')' (by decide)]
  rfl

/-- In a text with two quotes, a call is one of what is between them. -/
theorem exists_opens_of_call? (hlead : Quoteless lead) (hd : isQuote d) (hs : Quoteless s)
    (htail : Quoteless tail) (hsuffix : u <:+ lead ++ d :: (s ++ d :: tail))
    (h : call? u = some (name, rest)) :
    ∃ x g, Opens x ∧ Blank g ∧ u = x ++ d :: (s ++ d :: tail) ∧ tail = g ++ ')' :: rest := by
  obtain ⟨x, q, q', g, hx, hq, hq', -, hname, hg, rfl⟩ := call?_eq_some h
  obtain ⟨y, hline⟩ := hsuffix
  have hcount : ∀ t : Chars, Quoteless t ↔ t.countP isQuote = 0 := fun t => by
    rw [List.countP_eq_zero]
    simp [Quoteless]
  -- the call has both quotes, so none stands before it
  have hy : Quoteless y := by
    have htotal := congrArg (List.countP isQuote) hline
    simp only [List.countP_append, List.countP_cons, hq, hq', hd, (hcount _).mp hlead,
      (hcount _).mp hs, (hcount _).mp htail, if_true] at htotal
    rw [hcount]
    omega
  rw [← List.append_assoc] at hline
  obtain ⟨-, rfl, hbehind⟩ := eq_of_quoteless_append
    (quoteless_append.mpr ⟨hy, quoteless_of_opens hx⟩) hlead hq hd hline
  obtain ⟨rfl, rfl, rfl⟩ := eq_of_quoteless_append hname hs hq' hd hbehind
  exact ⟨x, g, hx, hg, rfl, rfl⟩

theorem calls_eq_nil (h : ∀ u, u <:+ s.drop k → call? u = none) : calls before k s = [] := by
  induction s generalizing before k with
  | nil => rw [calls]
  | cons c s ih =>
    cases k with
    | succ k => rw [calls, ih h]
    | zero =>
      have hrest : calls (some c) 0 s = [] := ih fun u hu => h u (hu.trans (List.suffix_cons c s))
      rw [calls, h (c :: s) (List.suffix_refl _), ite_self]
      exact hrest

/-- Without a quote there is no call. -/
theorem call?_of_quoteless (h : Quoteless u) : call? u = none := by
  cases hcall : call? u with
  | none => rfl
  | some found =>
    obtain ⟨x, q, q', g, -, hq, -, -, -, -, rfl⟩ := call?_eq_some hcall
    exact absurd (h q (by simp)) (by simp [hq])

/-- The quotes of a statement open no call if no parenthesis closes it. -/
theorem calls_of_statement (hlead : Quoteless lead) (hd : isQuote d) (hs : Quoteless s)
    (htail : Quoteless tail) (hopen : ')' ∉ tail) :
    calls before 0 (lead ++ d :: (s ++ d :: tail)) = [] := by
  refine calls_eq_nil fun u hu => ?_
  cases hcall : call? u with
  | none => rfl
  | some found =>
    obtain ⟨x, g, -, -, -, rfl⟩ := exists_opens_of_call? hlead hd hs htail hu hcall
    exact absurd (List.mem_append_right _ List.mem_cons_self) hopen

/-- No keyword ends in another, so what opens a call opens none from further left. -/
theorem not_opens_append (hkeyword : keyword ∈ ["require".toList, "import".toList])
    (hx : x ≠ []) : ¬ Opens (x ++ (keyword ++ ['('])) := by
  rintro ⟨keyword', g, g', hkeyword', hg, hg', heq⟩
  -- what is blank goes first: behind the parenthesis, and before it
  have hinner : g' = [] := by
    by_contra hne
    have hend : x ++ keyword ++ ['('] = keyword' ++ g ++ ['('] ++ g' := by
      simpa only [List.append_assoc, List.singleton_append] using heq
    have hlast := congrArg List.getLast? hend
    rw [List.getLast?_concat, List.getLast?_append_of_ne_nil _ hne] at hlast
    exact absurd (hg' _ (List.mem_of_getLast? hlast.symm)) (by decide)
  subst hinner
  have hwords : x ++ keyword = keyword' ++ g := by
    have hboth : (x ++ keyword) ++ ['('] = (keyword' ++ g) ++ ['('] := by
      simpa only [List.append_assoc] using heq
    exact List.append_cancel_right hboth
  have hletter : ∀ k ∈ ["require".toList, "import".toList],
      ∃ c, k.getLast? = some c ∧ Unicode.isSpace c = false := by
    intro k hk
    rcases List.mem_pair.mp hk with rfl | rfl
    · exact ⟨'e', rfl, by decide⟩
    · exact ⟨'t', rfl, by decide⟩
  have houter : g = [] := by
    by_contra hne
    obtain ⟨c, hc, hspace⟩ := hletter keyword hkeyword
    have hlast := congrArg List.getLast? hwords
    rw [List.getLast?_append, hc, List.getLast?_append_of_ne_nil _ hne] at hlast
    exact Bool.false_ne_true (hspace.symm.trans (hg c (List.mem_of_getLast? hlast.symm)))
  rw [houter, List.append_nil] at hwords
  have hsuffix : keyword <:+ keyword' := ⟨x, hwords⟩
  have hsame : keyword = keyword' := by
    rcases List.mem_pair.mp hkeyword with rfl | rfl <;>
      rcases List.mem_pair.mp hkeyword' with rfl | rfl
    · rfl
    · exact absurd hsuffix (by decide)
    · exact absurd hsuffix (by decide)
    · rfl
  rw [hsame] at hwords
  exact hx (List.append_left_eq_self.mp hwords)

/-- Before its keyword no call is met. -/
theorem call?_before_call (hkeyword : keyword ∈ ["require".toList, "import".toList])
    (hlead : Quoteless lead) (hlead' : lead ≠ []) (hd : isQuote d) (hs : Quoteless s)
    (htail : Quoteless tail) :
    call? (lead ++ (keyword ++ '(' :: d :: (s ++ d :: ')' :: tail))) = none := by
  have hline : lead ++ (keyword ++ '(' :: d :: (s ++ d :: ')' :: tail)) =
      lead ++ (keyword ++ ['(']) ++ d :: (s ++ d :: ')' :: tail) := by simp
  cases hcall : call? (lead ++ (keyword ++ '(' :: d :: (s ++ d :: ')' :: tail))) with
  | none => rfl
  | some found =>
    rw [hline] at hcall
    have hopens : Opens (keyword ++ ['(']) := ⟨keyword, [], [], hkeyword, nofun, nofun, rfl⟩
    have hfront : Quoteless (lead ++ (keyword ++ ['('])) :=
      quoteless_append.mpr ⟨hlead, quoteless_of_opens hopens⟩
    have hbehind : Quoteless (')' :: tail) := quoteless_cons.mpr ⟨by decide, htail⟩
    obtain ⟨x, g, hx, -, heq, -⟩ :=
      exists_opens_of_call? hfront hd hs hbehind (List.suffix_refl _) hcall
    obtain ⟨hopening, -⟩ := eq_of_quoteless_append (quoteless_of_opens hx) hfront hd hd heq.symm
    rw [hopening] at hx
    exact absurd hx (not_opens_append hkeyword hlead')

/-- A call with one quoted argument names it. -/
theorem calls_of_call (hkeyword : keyword ∈ ["require".toList, "import".toList])
    (hlead : Quoteless lead) (hbefore : ∀ c ∈ lead.getLast?.or before, Unicode.isWord c = false)
    (hd : isQuote d) (hs : Quoteless s) (hne : s ≠ []) (htail : Quoteless tail) :
    calls before 0 (lead ++ (keyword ++ '(' :: d :: (s ++ d :: ')' :: tail))) = [s] := by
  induction lead generalizing before with
  | nil =>
    have hstart : ∀ c ∈ before, Unicode.isWord c = false := hbefore
    have hcall : call? (keyword ++ '(' :: d :: (s ++ d :: ')' :: tail)) = some (s, tail) := by
      have happend := call?_append (g := []) ⟨keyword, [], [], hkeyword, nofun, nofun, rfl⟩ hd hs
        hne nofun tail
      rwa [List.append_assoc] at happend
    obtain ⟨c, keyword, rfl⟩ : ∃ c t, keyword = c :: t := by
      rcases List.mem_pair.mp hkeyword with rfl | rfl <;> exact ⟨_, _, rfl⟩
    have hskip : (keyword ++ '(' :: d :: (s ++ d :: ')' :: tail)).drop
        ((keyword ++ '(' :: d :: (s ++ d :: ')' :: tail)).length - tail.length) = tail := by
      have hsplit : keyword ++ '(' :: d :: (s ++ d :: ')' :: tail) =
          (keyword ++ '(' :: d :: (s ++ [d, ')'])) ++ tail := by simp
      rw [hsplit, List.length_append, Nat.add_sub_cancel, List.drop_left]
    have hbehind : calls (some c) ((keyword ++ '(' :: d :: (s ++ d :: ')' :: tail)).length -
        tail.length) (keyword ++ '(' :: d :: (s ++ d :: ')' :: tail)) = [] :=
      calls_eq_nil fun u hu => call?_of_quoteless fun e he => htail e ((hskip ▸ hu).mem he)
    rw [List.nil_append, List.cons_append, calls, any_eq_false hstart, if_neg Bool.false_ne_true]
    rw [List.cons_append] at hcall
    rw [hcall]
    exact congrArg (s :: ·) hbehind
  | cons c lead ih =>
    have hnone := call?_before_call hkeyword hlead (List.cons_ne_nil c lead) hd hs htail
    rw [List.cons_append] at hnone ⊢
    rw [calls, hnone, ite_self]
    refine ih (quoteless_cons.mp hlead).2 fun e he => hbefore e ?_
    rwa [List.getLast?_cons, Option.mem_def, Option.some_or, ← Option.or_some]

/-! ## Lines -/

theorem scriptLine_eq (h : ∀ c ∈ line.head?, c ≠ '/' ∧ Unicode.isSpace c = false) :
    scriptLine line = ((fromLine? line).or (importLine? line)).toList ++ calls none 0 line := by
  have hcomment : ¬ "//".toList.isPrefixOf (Text.trimStart line) := by
    rw [Text.trimStart_eq_self fun c hc => (h c hc).2]
    intro hslashes
    obtain ⟨rest, rfl⟩ := List.isPrefixOf_iff_prefix.mp hslashes
    exact (h '/' rfl).1 rfl
  rw [scriptLine, if_neg hcomment]

theorem quoteless_of_specifier? (h : specifier? t = some (name, rest)) : Quoteless name := by
  obtain ⟨-, -, -, -, -, hname, -⟩ := specifier?_eq_some.mp h
  exact hname

theorem quoteless_of_fromLine? (h : fromLine? line = some name) : Quoteless name := by
  unfold fromLine? at h
  simp only [Option.bind_eq_bind, Option.bind_eq_some_iff] at h
  obtain ⟨_, _, _, _, _, _, _, _, found, hfound, heq⟩ := h
  obtain rfl := Option.some.inj heq
  exact quoteless_of_specifier? hfound

theorem quoteless_of_importLine? (h : importLine? line = some name) : Quoteless name := by
  unfold importLine? at h
  simp only [Option.bind_eq_bind, Option.bind_eq_some_iff] at h
  obtain ⟨_, _, found, hfound, heq⟩ := h
  obtain rfl := Option.some.inj heq
  exact quoteless_of_specifier? hfound

theorem quoteless_of_mem_calls (h : name ∈ calls before k s) : Quoteless name := by
  induction s generalizing before k with
  | nil =>
    rw [calls] at h
    cases h
  | cons c s ih =>
    cases k with
    | succ k =>
      rw [calls] at h
      exact ih h
    | zero =>
      rw [calls] at h
      split at h
      · next found after hcall =>
        split_ifs at hcall
        obtain ⟨-, -, -, -, -, -, -, -, hfound, -⟩ := call?_eq_some hcall
        rcases List.mem_cons.mp h with rfl | hrest
        · exact hfound
        · exact ih hrest
      · exact ih h

/-- What is named holds no quote of either kind. -/
theorem quoteless_of_mem_scriptLine (h : name ∈ scriptLine line) : Quoteless name := by
  unfold scriptLine at h
  split_ifs at h
  · cases h
  · rcases List.mem_append.mp h with hstatement | hcall
    · rcases Option.or_eq_some_iff.mp (Option.mem_toList.mp hstatement) with hfrom | ⟨-, himport⟩
      · exact quoteless_of_fromLine? hfrom
      · exact quoteless_of_importLine? himport
    · exact quoteless_of_mem_calls hcall

theorem scriptLine_clause (hkeyword : keyword ∈ ["import".toList, "export".toList])
    (hclause : Quoteless clause) (hnil : clause ≠ [])
    (hhead : ∀ c ∈ clause.head?, Unicode.isWord c = false)
    (hlast : ∀ c ∈ clause.getLast?, Unicode.isWord c = false)
    (hg : Blank g) (hd : isQuote d) (hs : Quoteless s) (hne : s ≠ [])
    (htail : Quoteless tail) (hopen : ')' ∉ tail) :
    scriptLine (keyword ++ (clause ++ ("from".toList ++ (g ++ d :: (s ++ d :: tail))))) = [s] := by
  have hletters : Quoteless keyword ∧
      ∀ rest, ∀ c ∈ (keyword ++ rest).head?, c ≠ '/' ∧ Unicode.isSpace c = false := by
    rcases List.mem_pair.mp hkeyword with rfl | rfl <;>
      exact ⟨by decide, by rintro rest c ⟨⟩; decide⟩
  have hlead : Quoteless (keyword ++ (clause ++ ("from".toList ++ g))) :=
    quoteless_append.mpr ⟨hletters.1, quoteless_append.mpr
      ⟨hclause, quoteless_append.mpr ⟨by decide, .of_blank hg⟩⟩⟩
  have hcalls : calls none 0
      (keyword ++ (clause ++ ("from".toList ++ (g ++ d :: (s ++ d :: tail))))) = [] := by
    have hstatement : calls none 0
        (keyword ++ (clause ++ ("from".toList ++ g)) ++ d :: (s ++ d :: tail)) = [] :=
      calls_of_statement hlead hd hs htail hopen
    simpa only [List.append_assoc] using hstatement
  rw [scriptLine_eq (hletters.2 _), hcalls,
    fromLine?_append hkeyword hclause hnil hhead hlast hg hd hs hne]
  rfl

theorem scriptLine_import (hg : Blank g) (hd : isQuote d) (hs : Quoteless s) (hne : s ≠ [])
    (htail : Quoteless tail) (hopen : ')' ∉ tail) :
    scriptLine ("import".toList ++ (g ++ d :: (s ++ d :: tail))) = [s] := by
  have hlead : Quoteless ("import".toList ++ g) :=
    quoteless_append.mpr ⟨by decide, .of_blank hg⟩
  have hcalls : calls none 0 ("import".toList ++ (g ++ d :: (s ++ d :: tail))) = [] := by
    rw [← List.append_assoc]
    exact calls_of_statement hlead hd hs htail hopen
  rw [scriptLine_eq (by rintro c ⟨⟩; decide), hcalls, fromLine?_eq_none hg hd,
    importLine?_append hg hd hs hne]
  rfl

theorem scriptLine_call (hkeyword : keyword ∈ ["require".toList, "import".toList])
    (hlead : Quoteless lead) (hlast : ∀ c ∈ lead.getLast?, Unicode.isWord c = false)
    (hnil : lead ≠ [])
    (hhead : ∀ c ∈ lead.head?, c ∉ ['i', 'e', '/'] ∧ Unicode.isSpace c = false)
    (hd : isQuote d) (hs : Quoteless s) (hne : s ≠ []) (htail : Quoteless tail) :
    scriptLine (lead ++ (keyword ++ '(' :: d :: (s ++ d :: ')' :: tail))) = [s] := by
  have hstart : ∀ c ∈ (lead ++ (keyword ++ '(' :: d :: (s ++ d :: ')' :: tail))).head?,
      c ∉ ['i', 'e', '/'] ∧ Unicode.isSpace c = false := by
    rwa [List.head?_append_of_ne_nil _ hnil]
  obtain ⟨hfrom, himport⟩ := statement_eq_none fun c hc =>
    ⟨fun hmem => (hstart c hc).1 (List.mem_append_left ['/'] hmem), (hstart c hc).2⟩
  have hbefore : ∀ c ∈ lead.getLast?.or none, Unicode.isWord c = false := by
    rwa [Option.or_none]
  rw [scriptLine_eq fun c hc => ⟨fun hslash => (hstart c hc).1 (by simp [hslash]), (hstart c hc).2⟩,
    hfrom, himport, calls_of_call hkeyword hlead hbefore hd hs hne htail]
  rfl

/-- The lines that name a module by a quoted text; the other names in them are `x`. -/
def namingLines (x quoted : Chars) : List Chars :=
  ["import ".toList ++ x ++ " from ".toList ++ quoted ++ [';'],
    "import \x7b ".toList ++ x ++ " \x7d from ".toList ++ quoted ++ [';'],
    "export * from ".toList ++ quoted ++ [';'],
    "import ".toList ++ quoted ++ [';'],
    "const ".toList ++ x ++ " = require(".toList ++ quoted ++ ");".toList,
    "const ".toList ++ x ++ " = await import(".toList ++ quoted ++ ");".toList]

theorem scriptLine_of_mem_namingLines (hd : isQuote d) (hs : Quoteless s) (hne : s ≠ [])
    (hx : Quoteless x) (hline : line ∈ namingLines x (d :: (s ++ [d]))) :
    scriptLine line = [s] := by
  have hsemicolon : Quoteless [';'] := by decide
  have hspace : Blank [' '] := fun c hc => by
    rw [List.mem_singleton.mp hc]
    decide
  have hclause : ∀ keyword ∈ ["import".toList, "export".toList], ∀ middle, Quoteless middle →
      scriptLine (keyword ++ (' ' :: (middle ++ [' ']) ++
        ("from".toList ++ ([' '] ++ d :: (s ++ d :: [';']))))) = [s] :=
    fun keyword hkeyword middle hmiddle => scriptLine_clause hkeyword
      (quoteless_cons.mpr ⟨by decide, quoteless_append.mpr ⟨hmiddle, by decide⟩⟩)
      (List.cons_ne_nil _ _) (by rintro c ⟨⟩; decide)
      (by rw [← List.cons_append, List.getLast?_concat]; rintro c ⟨⟩; decide)
      hspace hd hs hne hsemicolon (by decide)
  have hcall : ∀ keyword ∈ ["require".toList, "import".toList], ∀ middle, Quoteless middle →
      scriptLine ("const ".toList ++ middle ++ [' '] ++
        (keyword ++ '(' :: d :: (s ++ d :: ')' :: [';']))) = [s] :=
    fun keyword hkeyword middle hmiddle => scriptLine_call hkeyword
      (quoteless_append.mpr ⟨quoteless_append.mpr ⟨by decide, hmiddle⟩, by decide⟩)
      (by rw [List.getLast?_concat]; rintro c ⟨⟩; decide)
      (List.append_ne_nil_of_right_ne_nil _ (List.cons_ne_nil _ _))
      (by rintro c ⟨⟩; decide) hd hs hne hsemicolon
  simp only [namingLines, List.mem_cons, List.not_mem_nil, or_false] at hline
  rcases hline with rfl | rfl | rfl | rfl | rfl | rfl
  · simpa using hclause "import".toList (by decide) x hx
  · have hbraces := hclause "import".toList (by decide) ('{' :: ' ' :: (x ++ [' ', '}']))
      (quoteless_append (s := ['{', ' ']).mpr ⟨by decide, quoteless_append.mpr ⟨hx, by decide⟩⟩)
    simpa using hbraces
  · simpa using hclause "export".toList (by decide) ['*'] (by decide)
  · simpa using scriptLine_import hspace hd hs hne hsemicolon (by decide)
  · have hrequire := hcall "require".toList (by decide) (x ++ " =".toList)
      (quoteless_append.mpr ⟨hx, by decide⟩)
    simpa using hrequire
  · have himport := hcall "import".toList (by decide) (x ++ " = await".toList)
      (quoteless_append.mpr ⟨hx, by decide⟩)
    simpa using himport

theorem not_mem_of_mem_namingLines {quoted : Chars} (hx : '\n' ∉ x) (hquoted : '\n' ∉ quoted)
    (hline : line ∈ namingLines x quoted) : '\n' ∉ line := by
  simp only [namingLines, List.mem_cons, List.not_mem_nil, or_false] at hline
  rcases hline with rfl | rfl | rfl | rfl | rfl | rfl <;>
    simp [hx, hquoted]

end Dependency

/-- Each of these lines names its specifier, as it is written, if and only if the specifier holds
no quote of the other kind. -/
theorem extractDependencies_quoted_iff {language : Language}
    (hlang : language.extraction = .pattern) {x s line : Text.Chars} {d : Char}
    (hd : Dependency.isQuote d) (hne : s ≠ []) (hs : '\n' ∉ s)
    (hx : Dependency.Quoteless x ∧ '\n' ∉ x)
    (hline : line ∈ Dependency.namingLines x (d :: (s ++ [d]))) :
    extractDependencies (String.ofList line) language = [String.ofList s] ↔
      Dependency.Quoteless s := by
  have hquote : '\n' ≠ d := by
    rintro rfl
    exact absurd hd (by decide)
  have hunended : '\n' ∉ line :=
    Dependency.not_mem_of_mem_namingLines hx.2 (by simp [hquote, hs]) hline
  have hnil : line ≠ [] := by
    rintro rfl
    simp [Dependency.namingLines] at hline
  have hdeps : extractDependencies (String.ofList line) language =
      ((Dependency.scriptLine line).map String.ofList).eraseDups := by
    rw [extractDependencies_line hunended hnil, dependencyLine, hlang]
  constructor
  · intro h
    have hmem : String.ofList s ∈ (Dependency.scriptLine line).map String.ofList := by
      rw [← List.mem_eraseDups, ← hdeps, h]
      exact List.mem_cons_self
    obtain ⟨name, hname, heq⟩ := List.mem_map.mp hmem
    rw [← String.ofList_inj.mp heq]
    exact Dependency.quoteless_of_mem_scriptLine hname
  · intro hquoteless
    rw [hdeps, Dependency.scriptLine_of_mem_namingLines hd hquoteless hne hx.1 hline]
    rfl

theorem extractDependencies_quoted_iff_await :
    "const m = await import('./a b(c)//d');".toList ∈
        Dependency.namingLines ['m'] ('\'' :: ("./a b(c)//d".toList ++ ['\''])) ∧
      Dependency.Quoteless "./a b(c)//d".toList ∧
      extractDependencies (String.ofList "const m = await import('./a b(c)//d');".toList)
        .typeScript = [String.ofList "./a b(c)//d".toList] := by
  have hline : "const m = await import('./a b(c)//d');".toList ∈
      Dependency.namingLines ['m'] ('\'' :: ("./a b(c)//d".toList ++ ['\''])) := by decide
  have hquoteless : Dependency.Quoteless "./a b(c)//d".toList := by decide
  exact ⟨hline, hquoteless, (extractDependencies_quoted_iff rfl rfl (by decide)
    (by decide) ⟨by decide, by decide⟩ hline).mpr hquoteless⟩

/-- An apostrophe between double quotes cuts the specifier short. -/
theorem extractDependencies_cuts_specifier :
    "import X from \"it's\";".toList ∈
        Dependency.namingLines ['X'] ('"' :: ("it's".toList ++ ['"'])) ∧
      '"' ∉ "it's".toList ∧ '\n' ∉ "it's".toList ∧
      extractDependencies "import X from \"it's\";" .javaScript = ["it"] := by
  decide +kernel

end Worksite
