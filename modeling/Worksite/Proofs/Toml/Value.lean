import Worksite.Proofs.Toml.Text

/-!
Values at the end of a line: what the printer writes for a text, a number or a truth value is read
back, up to the line end.
-/
namespace Worksite.Toml

open Syntax Printer

variable {c quote : Char} {cs s t rest : List Char} {fuel depth n : Nat}

/-! ## Forms -/

theorem Form.of_eq_literal {t : Traits} (h : Form.of t = .literal) :
    t.control = false ∧ t.singles = 0 ∧ t.lineEnd = false := by
  unfold Form.of at h
  split_ifs at h with _ hliteral
  simpa [and_assoc] using hliteral

theorem Form.of_eq_multiLiteral {t : Traits} (h : Form.of t = .multiLiteral) :
    t.control = false ∧ t.singles ≤ 2 := by
  unfold Form.of at h
  split_ifs at h with _ _ _ hliteral
  simpa using hliteral

theorem isPlainIn_of_control (h : (traits s).control = false) :
    ∀ c ∈ s, isPlainIn true c = true := by
  intro c hc
  have hcontrol : isControl c = false := by
    have hall : s.any isControl = false := h
    rw [List.any_eq_false] at hall
    simpa using hall c hc
  by_cases hline : c = '\n'
  · simp [isPlainIn, hline]
  · simp [isPlainIn, isPlain_of_not_isControl hcontrol hline]

theorem notMem_of_lineEnd (h : (traits s).lineEnd = false) : '\n' ∉ s := by
  have hcontains : s.contains '\n' = false := h
  simpa using hcontains

/-! ## Texts -/

theorem valueWithin_basic (h : WrittenBasic cs t) (fuel depth : Nat) (rest : List Char) :
    valueWithin (fuel + 1) depth ('"' :: (t ++ '\n' :: rest)) =
      some (.text (String.ofList cs), '\n' :: rest) := by
  have hfuel : t.length ≤ (t ++ '\n' :: rest).length + 1 := by
    rw [List.length_append]
    omega
  rw [valueWithin]
  · rw [basic?, basicWithin_written h _ hfuel]
    rfl
  · intro u hu
    cases h with
    | close => exact absurd hu (by simp)
    | @char _ _ _ t hc h =>
      rw [List.append_assoc] at hu
      have hstops := hc.stops (t ++ '\n' :: rest)
      rw [hu] at hstops
      exact absurd (stops_cons.mp hstops) (by simp)

theorem valueWithin_literal (h : ∀ c ∈ s, isPlain c = true ∧ c ≠ '\'') (hne : s ≠ [])
    (fuel depth : Nat) (rest : List Char) :
    valueWithin (fuel + 1) depth ('\'' :: (s ++ '\'' :: rest)) =
      some (.text (String.ofList s), rest) := by
  rw [valueWithin]
  · rw [literal?_plain h]
    rfl
  · intro u hu
    obtain ⟨c, s, rfl⟩ := List.exists_cons_of_ne_nil hne
    exact (h c List.mem_cons_self).2 (List.cons.inj hu).1

/-- A text of several lines opens with nothing that would be dropped, unless a line end of its own
is put in front of it. -/
theorem WrittenMulti.dropLineEnd_eq (h : WrittenMulti quote cs t) (hline : '\n' ∉ cs)
    (hquote : quote ≠ '\n' ∧ quote ≠ '\r') (rest : List Char) :
    dropLineEnd (t ++ (List.replicate 3 quote ++ rest)) =
      t ++ (List.replicate 3 quote ++ rest) := by
  have hdrop {c : Char} {u : List Char} (hc : c ≠ '\n' ∧ c ≠ '\r') :
      dropLineEnd (c :: u) = c :: u := by
    rw [dropLineEnd]
    · exact fun _ h => hc.1 (List.cons.inj h).1
    · exact fun _ h => hc.2 (List.cons.inj h).1
  cases h with
  | nil => exact hdrop hquote
  | char hc =>
    cases hc with
    | plain hplain =>
      refine hdrop ⟨?_, ?_⟩
      · rintro rfl
        exact hline List.mem_cons_self
      · rintro rfl
        exact absurd hplain (by decide)
    | escape => exact hdrop (by decide)
  | @quotes k _ _ hpos =>
    obtain ⟨j, rfl⟩ : ∃ j, k = j + 1 := ⟨k - 1, by omega⟩
    exact hdrop hquote

theorem multi?_written (h : WrittenMulti quote cs t) (hquote : quote ≠ '\n' ∧ quote ≠ '\r')
    (hrest : Stops (· = quote) rest) {opening : List Char}
    (hopening : opening = ['\n'] ∨ opening = [] ∧ '\n' ∉ cs) :
    multi? quote (opening ++ (t ++ (List.replicate 3 quote ++ rest))) = some (cs, rest) := by
  have hdrop : dropLineEnd (opening ++ (t ++ (List.replicate 3 quote ++ rest))) =
      t ++ (List.replicate 3 quote ++ rest) := by
    rcases hopening with rfl | ⟨rfl, hline⟩
    · rfl
    · exact h.dropLineEnd_eq hline hquote rest
  rw [multi?, hdrop]
  apply multiWithin_written hquote.2 h hrest
  rw [List.length_append]
  omega

/-- Every text is read back from what the printer writes for it. -/
theorem value?_text (s rest : List Char) :
    value? (Printer.text s ++ '\n' :: rest) = some (.text (String.ofList s), '\n' :: rest) := by
  have hopening : (if (traits s).lineEnd then ['\n'] else []) = ['\n'] ∨
      (if (traits s).lineEnd then ['\n'] else []) = [] ∧ '\n' ∉ s := by
    cases h : (traits s).lineEnd with
    | true => exact .inl rfl
    | false => exact .inr ⟨rfl, notMem_of_lineEnd h⟩
  have hline : Stops (· = '"') ('\n' :: rest) := stops_cons.mpr rfl
  have hline' : Stops (· = '\'') ('\n' :: rest) := stops_cons.mpr rfl
  rw [value?, Printer.text]
  cases hform : Form.of (traits s) with
  | basic =>
    have hread := valueWithin_basic (written_escaped_basic s 0)
    simp only [List.cons_append]
    exact hread _ _ rest
  | literal =>
    obtain ⟨hcontrol, hsingles, hend⟩ := Form.of_eq_literal hform
    have hplain : ∀ c ∈ s, isPlain c = true ∧ c ≠ '\'' := by
      intro c hc
      have hne : c ≠ '\n' := fun h => notMem_of_lineEnd hend (h ▸ hc)
      have hin := isPlainIn_of_control hcontrol c hc
      refine ⟨by simpa [isPlainIn, hne] using hin, ?_⟩
      rintro rfl
      exact notMem_of_longestRun hsingles hc
    have hne : s ≠ [] := by
      rintro rfl
      exact absurd hform (by decide)
    simp only [List.cons_append, List.append_assoc, List.nil_append]
    exact valueWithin_literal hplain hne _ _ _
  | multiBasic =>
    have hread := multi?_written (written_escaped_multi s) (by decide) hline hopening
    simp only [List.cons_append, List.append_assoc, List.nil_append, valueWithin]
    exact congrArg (Option.map ofText) hread
  | multiLiteral =>
    obtain ⟨hcontrol, hsingles⟩ := Form.of_eq_multiLiteral hform
    have hwritten := written_plain_multi hsingles (isPlainIn_of_control hcontrol) (by decide)
    have hread := multi?_written hwritten (by decide) hline' hopening
    simp only [List.cons_append, List.append_assoc, List.nil_append, valueWithin]
    exact congrArg (Option.map ofText) hread

/-! ## Scalars without quotes -/

theorem valueWithin_scalar (hc : isScalar c = true) (fuel depth : Nat) (s : List Char) :
    valueWithin (fuel + 1) depth (c :: s) = scalar? (c :: s) := by
  rw [valueWithin]
  · exact fun _ h => ne_of_kind hc (by decide) (List.cons.inj h).1
  · exact fun _ h => ne_of_kind hc (by decide) (List.cons.inj h).1
  · exact fun _ h => ne_of_kind hc (by decide) (List.cons.inj h).1
  · exact fun _ h => ne_of_kind hc (by decide) (List.cons.inj h).1
  · exact fun _ h => ne_of_kind hc (by decide) (List.cons.inj h).1
  · exact fun _ h => ne_of_kind hc (by decide) (List.cons.inj h).1

/-- A word is read by itself. -/
theorem value?_word (hne : s ≠ []) (hs : ∀ c ∈ s, isScalar c = true) (rest : List Char) :
    value? (s ++ '\n' :: rest) = (Scalar.ofChars? s).map (·, '\n' :: rest) := by
  have hstops : Stops isScalar ('\n' :: rest) := stops_cons.mpr (by decide)
  have hscalar : scalar? (s ++ '\n' :: rest) = (Scalar.ofChars? s).map (·, '\n' :: rest) := by
    rw [scalar?, takeWhile_run hs hstops, dropWhile_run hs hstops]
    rfl
  rw [← hscalar, value?]
  obtain ⟨c, s, rfl⟩ := List.exists_cons_of_ne_nil hne
  exact valueWithin_scalar (hs c List.mem_cons_self) _ _ _

theorem value?_bool (b : Bool) (rest : List Char) :
    value? ((if b then "true" else "false").toList ++ '\n' :: rest) =
      some (.bool b, '\n' :: rest) := by
  have hscalar : ∀ c ∈ (if b then "true" else "false").toList, isScalar c = true := by
    cases b <;> simp [isScalar, Char.isAlphanum, Char.isAlpha, Char.isUpper, Char.isLower]
  have hword := value?_word (by cases b <;> simp) hscalar rest
  cases b <;> exact hword

section

variable {ds : List Char} (hds : ∀ c ∈ ds, c.isDigit = true)

include hds

theorem isMoment_digits : Scalar.isMoment ds = false := by
  have hdate : Scalar.date? ds = none := by
    unfold Scalar.date?
    split
    · exact absurd (hds '-' (by simp)) (by decide)
    · rfl
  have htime : Scalar.time? ds = none := by
    unfold Scalar.time?
    split
    · exact absurd (hds ':' (by simp)) (by decide)
    · rfl
  rw [Scalar.isMoment, hdate, htime]
  rfl

theorem whole?_digits (hne : ds ≠ []) (hzero : ds.head? = some '0' → ds.length = 1) :
    Scalar.whole? ds = some ds := by
  have hscore : ∀ c ∈ ds, decide (c = '_') = false := fun c hc =>
    decide_eq_false (ne_of_kind (hds c hc) (by decide))
  have hdigits : Scalar.digits? Char.isDigit ds = some ds := by
    simpa [Scalar.digits?, List.splitOnP_eq_singleton hscore, hne] using hds
  have hpadded : ¬ (decide (ds.head? = some '0') && decide (ds.length > 1)) = true := by
    simp only [Bool.and_eq_true, decide_eq_true_eq]
    rintro ⟨hhead, hlong⟩
    have := hzero hhead
    omega
  rw [Scalar.whole?, hdigits]
  exact if_neg hpadded

theorem integer?_digits (hne : ds ≠ []) (hzero : ds.head? = some '0' → ds.length = 1) :
    Scalar.integer? ds = some (Scalar.ofInt (Decimal.value ds)) := by
  have hsign : Scalar.sign ds = (false, ds) := by
    unfold Scalar.sign
    split
    · exact absurd (hds '-' (by simp)) (by decide)
    · exact absurd (hds '+' (by simp)) (by decide)
    · rfl
  unfold Scalar.integer?
  split
  · exact absurd (hds 'x' (by simp)) (by decide)
  · exact absurd (hds 'o' (by simp)) (by decide)
  · exact absurd (hds 'b' (by simp)) (by decide)
  · rw [hsign]
    simp only [whole?_digits hds hne hzero]
    rfl

end

theorem ofChars?_nat (h : n < UInt64.size) :
    Scalar.ofChars? (Nat.toDigits 10 n) = some (.int n) := by
  have hds : ∀ c ∈ Nat.toDigits 10 n, c.isDigit = true := Decimal.isDigit_of_mem
  have hword {w : List Char} (c : Char) (hc : c ∈ w) (hdigit : c.isDigit = false) :
      Nat.toDigits 10 n ≠ w := by
    rintro rfl
    exact ne_of_kind (hds c hc) hdigit rfl
  have hint : Scalar.ofInt (n : Int) = .int n := by
    have hsize : UInt64.size ≤ 1 <<< 128 := by decide
    rw [Scalar.ofInt, if_pos]
    constructor
    · omega
    · exact_mod_cast h.trans_le hsize
  rw [Scalar.ofChars?, if_neg (hword 't' (by decide) (by decide)),
    if_neg (hword 'f' (by decide) (by decide)), isMoment_digits hds,
    integer?_digits hds Nat.toDigits_ne_nil Decimal.length_of_head?_toDigits,
    Decimal.value_toDigits, hint]
  rfl

theorem value?_nat (h : n < UInt64.size) (rest : List Char) :
    value? ((toString n).toList ++ '\n' :: rest) = some (.int n, '\n' :: rest) := by
  have hscalar : ∀ c ∈ Nat.toDigits 10 n, isScalar c = true := by
    intro c hc
    have hdigit : c.isDigit = true := Decimal.isDigit_of_mem c hc
    simp [isScalar, Char.isAlphanum, hdigit]
  rw [Decimal.toList_toString, value?_word Nat.toDigits_ne_nil hscalar, ofChars?_nat h]
  rfl

end Worksite.Toml
