import Worksite.Proofs.Decimal
import Worksite.Toml.Printer
import Worksite.Toml.Syntax

/-!
Texts of TOML in their four forms. Each form says how characters may be written between its quote
marks, and what is written is read back; the printer keeps to these forms.
-/
namespace Worksite.Toml

open Syntax Printer

variable {c quote : Char} {plain : Char → Bool} {cs e s t rest : List Char} {fuel k n : Nat}
  {several : Bool}

/-! ## Characters -/

theorem isBlank_iff : isBlank c = true ↔ c = ' ' ∨ c = '\t' := by
  simp [isBlank]

/-- What follows the backslash of an escape, whatever comes behind it. -/
def Escape (c : Char) (e : List Char) : Prop := ∀ t, escape? (e ++ t) = some (c, t)

/-- How a character is written between quote marks: as it is, or behind a backslash where this is
no character of its own. -/
inductive WrittenChar (quote : Char) (plain : Char → Bool) : Char → List Char → Prop
  | plain {c : Char} (hc : plain c = true) (hquote : c ≠ quote)
    (hslash : quote = '"' → c ≠ '\\') : WrittenChar quote plain c [c]
  | escape {c : Char} {e : List Char} (hquote : quote = '"') (h : Escape c e) :
    WrittenChar quote plain c ('\\' :: e)

/-- The characters that stand for themselves; line ends do where a text may take several lines. -/
def isPlainIn (several : Bool) (c : Char) : Bool := isPlain c || (several && c = '\n')

theorem isPlainIn_false : isPlainIn false = isPlain := by
  funext c
  simp [isPlainIn]

theorem isPlain_of_not_isControl (h : isControl c = false) (hline : c ≠ '\n') :
    isPlain c = true := by
  simp only [isControl, Bool.and_eq_false_iff, Bool.or_eq_false_iff, decide_eq_false_iff_not,
    not_not, not_lt] at h
  simp only [isPlain, Bool.or_eq_true, Bool.and_eq_true, decide_eq_true_eq]
  rcases h with (h | h) | h
  · exact .inl h
  · exact absurd h hline
  · exact .inr h

theorem codePoint?_eq {ds : List Char} (hlength : ds.length = n) (hhex : ds.all Scalar.isHex)
    (hvalue : Scalar.valueIn 16 ds = c.toNat) (t : List Char) :
    codePoint? n (ds ++ t) = some (c, t) := by
  have hvalid : (Scalar.valueIn 16 ds).isValidChar := hvalue ▸ c.valid
  have hchar : Char.ofNatAux (Scalar.valueIn 16 ds) hvalid = c := by
    apply Char.ext
    apply UInt32.toNat_inj.mp
    exact hvalue
  rw [codePoint?]
  simp only [List.take_left' hlength, List.drop_left' hlength, hlength, hhex, decide_true,
    Bool.and_self, if_true, dif_pos hvalid, hchar]

/-- A control character is written by its number. -/
theorem escape_code (h : isControl c = true) : ∃ e, escapeCode c = '\\' :: e ∧ Escape c e := by
  have hlow : c.toNat < 128 := by
    simp only [isControl, Bool.and_eq_true, Bool.or_eq_true, decide_eq_true_eq] at h
    omega
  have hall : ∀ n < 128, let ds := [hexUpper (n / 4096 % 16), hexUpper (n / 256 % 16),
      hexUpper (n / 16 % 16), hexUpper (n % 16)]
      ds.all Scalar.isHex = true ∧ Scalar.valueIn 16 ds = n := by decide
  obtain ⟨hhex, hvalue⟩ := hall c.toNat hlow
  exact ⟨_, rfl, fun t => codePoint?_eq rfl hhex hvalue t⟩

/-- What is shown of a character is one of its written forms. -/
theorem written_shown (hquote : c ≠ '"') :
    WrittenChar '"' (isPlainIn several) c (shown several c) := by
  unfold shown
  split_ifs with hb ht hn hseveral hf hr hslash hcontrol
  · exact hb ▸ .escape rfl fun _ => rfl
  · exact ht ▸ .escape rfl fun _ => rfl
  · subst hn
    exact .plain (by simp [isPlainIn, hseveral]) hquote (by simp)
  · exact hn ▸ .escape rfl fun _ => rfl
  · exact hf ▸ .escape rfl fun _ => rfl
  · exact hr ▸ .escape rfl fun _ => rfl
  · subst hslash
    exact .escape rfl fun _ => rfl
  · obtain ⟨e, he, h⟩ := escape_code hcontrol
    exact he ▸ .escape rfl h
  · have hplain := isPlain_of_not_isControl (by simpa using hcontrol) hn
    exact .plain (by simp [isPlainIn, hplain]) hquote fun _ => hslash

theorem written_mark (plain : Char → Bool) : WrittenChar '"' plain '"' ['\\', '"'] :=
  .escape rfl fun _ => rfl

theorem WrittenChar.length_pos (h : WrittenChar quote plain c e) : 0 < e.length := by
  cases h <;> simp

/-! ## One line -/

/-- A text between double quote marks, with the one that closes it. -/
inductive WrittenBasic : List Char → List Char → Prop
  | close : WrittenBasic [] ['"']
  | char {c : Char} {e cs t : List Char} (hc : WrittenChar '"' isPlain c e)
    (h : WrittenBasic cs t) : WrittenBasic (c :: cs) (e ++ t)

theorem basicWithin_char (h : WrittenChar '"' isPlain c e) (fuel : Nat) (t : List Char) :
    basicWithin (fuel + 1) (e ++ t) =
      (basicWithin fuel t).map fun (tail, rest) => (c :: tail, rest) := by
  cases h with
  | plain hc hquote hslash =>
    have hne : c ≠ '\\' := hslash rfl
    simp only [List.singleton_append, basicWithin, hc, if_true]
    cases basicWithin fuel t <;> rfl
  | escape _ h =>
    simp only [List.cons_append, basicWithin, h t, Option.bind_eq_bind, Option.bind_some]
    cases basicWithin fuel t <;> rfl

theorem basicWithin_written (h : WrittenBasic cs s) (fuel : Nat) (hfuel : s.length ≤ fuel)
    (rest : List Char) : basicWithin fuel (s ++ rest) = some (cs, rest) := by
  induction h generalizing fuel with
  | close =>
    obtain ⟨fuel, rfl⟩ : ∃ k, fuel = k + 1 := ⟨fuel - 1, by simp at hfuel; omega⟩
    rfl
  | @char c e cs t hc _ ih =>
    have hpos := hc.length_pos
    rw [List.length_append] at hfuel
    obtain ⟨fuel, rfl⟩ : ∃ k, fuel = k + 1 := ⟨fuel - 1, by omega⟩
    rw [List.append_assoc, basicWithin_char hc, ih fuel (by omega)]
    rfl

theorem written_escaped_basic (s : List Char) (run : Nat) :
    WrittenBasic s (escaped false 0 run s ++ ['"']) := by
  induction s generalizing run with
  | nil => exact .close
  | cons c s ih =>
    rw [escaped]
    split_ifs with hquote hrun
    · omega
    · subst hquote
      show WrittenBasic _ (['\\', '"'] ++ (escaped false 0 0 s ++ ['"']))
      exact .char (written_mark _) (ih 0)
    · have hshown : WrittenChar '"' (isPlainIn false) c (shown false c) := written_shown hquote
      rw [isPlainIn_false] at hshown
      rw [List.append_assoc]
      exact .char hshown (ih 0)

/-- A text between single quote marks stands as it is. -/
theorem literal?_plain (h : ∀ c ∈ s, isPlain c = true ∧ c ≠ '\'') (rest : List Char) :
    literal? (s ++ '\'' :: rest) = some (s, rest) := by
  have hall : ∀ c ∈ s, (decide (c ≠ '\'') && isPlain c) = true := by
    intro c hc
    simp [h c hc]
  have hstops : Stops (fun c => decide (c ≠ '\'') && isPlain c) ('\'' :: rest) :=
    stops_cons.mpr (by simp)
  rw [literal?, takeWhile_run hall hstops]
  simp

/-! ## Several lines -/

/-- A text between three quote marks of a kind: runs of at most two quote marks stand among its
characters. -/
inductive WrittenMulti (quote : Char) : List Char → List Char → Prop
  | nil : WrittenMulti quote [] []
  | char {c : Char} {e cs t : List Char} (hc : WrittenChar quote (isPlainIn true) c e)
    (h : WrittenMulti quote cs t) : WrittenMulti quote (c :: cs) (e ++ t)
  | quotes {k : Nat} {cs t : List Char} (hpos : 0 < k) (hk : k ≤ 2) (h : WrittenMulti quote cs t)
    (hstops : Stops (· = quote) t) :
    WrittenMulti quote (List.replicate k quote ++ cs) (List.replicate k quote ++ t)

theorem closing_quotes (hk : k ≤ 2) (hstops : Stops (· = quote) t) :
    closing quote (List.replicate k quote ++ t) = (k, false) := by
  have hrun : ∀ c ∈ List.replicate k quote, decide (c = quote) = true := by
    intro c hc
    simpa using List.eq_of_mem_replicate hc
  rw [closing, takeWhile_run hrun hstops]
  simp
  omega

theorem closing_close (hk : k ≤ 2) (hstops : Stops (· = quote) rest) :
    closing quote (List.replicate (k + 3) quote ++ rest) = (k, true) := by
  have hrun : ∀ c ∈ List.replicate (k + 3) quote, decide (c = quote) = true := by
    intro c hc
    simpa using List.eq_of_mem_replicate hc
  rw [closing, takeWhile_run hrun hstops]
  simp
  omega

/-- A backslash in front of an escape does not join lines. -/
theorem joinedLine?_escape (h : Escape c e) (t : List Char) : joinedLine? (e ++ t) = none := by
  cases e with
  | nil => exact absurd (h []) (by simp [escape?])
  | cons d e =>
    have hd : isBlank d = false ∧ d ≠ '\n' ∧ d ≠ '\r' := by
      refine ⟨?_, ?_, ?_⟩
      · by_contra hblank
        rcases isBlank_iff.mp (by simpa using hblank) with rfl | rfl <;>
          exact absurd (h []) (by simp [escape?])
      · rintro rfl
        exact absurd (h []) (by simp [escape?])
      · rintro rfl
        exact absurd (h []) (by simp [escape?])
    obtain ⟨hblank, hline, hreturn⟩ := hd
    have hskip : skipBlank (d :: (e ++ t)) = d :: (e ++ t) := by
      rw [skipBlank, List.dropWhile_cons_of_neg (by simp [hblank])]
    rw [List.cons_append, joinedLine?, hskip]
    split
    · next heq => exact absurd (List.cons.inj heq).1 hline
    · next heq => exact absurd (List.cons.inj heq).1 hreturn
    · rfl

theorem multiWithin_char (h : WrittenChar quote (isPlainIn true) c e) (fuel : Nat)
    (t : List Char) : multiWithin quote (fuel + 1) (e ++ t) =
      (multiWithin quote fuel t).map fun (tail, rest) => (c :: tail, rest) := by
  cases h with
  | plain hc hquote hslash =>
    have hreturn : c ≠ '\r' := by
      rintro rfl
      exact absurd hc (by decide)
    have hslash' : ¬ (decide (c = '\\') && decide (quote = '"')) = true := by
      simpa [imp.swap] using hslash
    have hplain : (isPlain c || decide (c = '\n')) = true := by simpa [isPlainIn] using hc
    rw [List.singleton_append, multiWithin]
    · rw [if_neg hquote, if_neg hslash', if_pos hplain]
      cases multiWithin quote fuel t <;> rfl
    · intro _ h
      exact absurd h hreturn
  | escape hquote h =>
    subst hquote
    rw [List.cons_append, multiWithin]
    · rw [if_neg (by decide), if_pos (by decide), joinedLine?_escape h, h t]
      simp only [Option.bind_eq_bind, Option.bind_some]
      cases multiWithin '"' fuel t <;> rfl
    · intro _ h
      exact absurd h (by decide)

/-- Quote marks that do not close the text belong to it. -/
theorem multiWithin_quotes (hquote : quote ≠ '\r') (hpos : 0 < k) (hk : k ≤ 2)
    (hstops : Stops (· = quote) t) (fuel : Nat) :
    multiWithin quote (fuel + 1) (List.replicate k quote ++ t) =
      (multiWithin quote fuel t).map fun (tail, rest) =>
        (List.replicate k quote ++ tail, rest) := by
  have hclosing := closing_quotes hk hstops
  obtain ⟨j, rfl⟩ : ∃ j, k = j + 1 := ⟨k - 1, by omega⟩
  have hdrop : (List.replicate (j + 1) quote ++ t).drop (j + 1) = t :=
    List.drop_left' List.length_replicate
  rw [List.replicate_succ, List.cons_append] at hclosing hdrop ⊢
  rw [multiWithin]
  · simp only [if_true, hclosing, hdrop, Bool.false_eq_true, if_false]
    cases multiWithin quote fuel t <;> rfl
  · intro _ h
    exact absurd h hquote

/-- Of the quote marks at the end, three close the text. -/
theorem multiWithin_close (hquote : quote ≠ '\r') (hk : k ≤ 2)
    (hstops : Stops (· = quote) rest) (fuel : Nat) :
    multiWithin quote (fuel + 1) (List.replicate (k + 3) quote ++ rest) =
      some (List.replicate k quote, rest) := by
  have hclosing := closing_close hk hstops
  have hdrop : (List.replicate (k + 3) quote ++ rest).drop (k + 3) = rest :=
    List.drop_left' List.length_replicate
  rw [List.replicate_succ, List.cons_append] at hclosing hdrop ⊢
  rw [multiWithin]
  · simp only [if_true, hclosing, hdrop]
  · intro _ h
    exact absurd h hquote

theorem WrittenMulti.eq_nil (h : WrittenMulti quote cs []) : cs = [] := by
  generalize hs : ([] : List Char) = s at h
  cases h with
  | nil => rfl
  | char hc =>
    have hpos := hc.length_pos
    rw [List.nil_eq, List.append_eq_nil_iff] at hs
    simp [hs.1] at hpos
  | quotes hpos =>
    rw [List.nil_eq, List.append_eq_nil_iff, List.replicate_eq_nil_iff] at hs
    omega

theorem multiWithin_written (hquote : quote ≠ '\r') (h : WrittenMulti quote cs s)
    (hrest : Stops (· = quote) rest) (fuel : Nat) (hfuel : s.length < fuel) :
    multiWithin quote fuel (s ++ (List.replicate 3 quote ++ rest)) = some (cs, rest) := by
  induction h generalizing fuel with
  | nil =>
    obtain ⟨fuel, rfl⟩ : ∃ k, fuel = k + 1 := ⟨fuel - 1, by omega⟩
    exact multiWithin_close hquote (k := 0) (by omega) hrest fuel
  | @char c e cs t hc _ ih =>
    have hpos := hc.length_pos
    rw [List.length_append] at hfuel
    obtain ⟨fuel, rfl⟩ : ∃ k, fuel = k + 1 := ⟨fuel - 1, by omega⟩
    rw [List.append_assoc, multiWithin_char hc, ih fuel (by omega)]
    rfl
  | @quotes k cs t hpos hk ht hstops ih =>
    rw [List.length_append, List.length_replicate] at hfuel
    obtain ⟨fuel, rfl⟩ : ∃ k, fuel = k + 1 := ⟨fuel - 1, by omega⟩
    -- at the end of the text its own quote marks run together with the closing ones
    cases t with
    | nil =>
      obtain rfl := ht.eq_nil
      rw [List.append_nil, ← List.append_assoc, List.replicate_append_replicate]
      exact multiWithin_close hquote hk hrest fuel
    | cons d t =>
      have hopen : Stops (· = quote) ((d :: t) ++ (List.replicate 3 quote ++ rest)) := hstops
      rw [List.append_assoc, multiWithin_quotes hquote hpos hk hopen, ih fuel (by omega)]
      rfl

/-! ## What the printer writes -/

theorem WrittenChar.stops (h : WrittenChar quote plain c e) (t : List Char) :
    Stops (· = quote) (e ++ t) := by
  cases h with
  | plain _ hquote => exact stops_cons.mpr (by simpa using hquote)
  | escape hquote => exact stops_cons.mpr (by simp [hquote])

theorem WrittenMulti.of_run (hk : k ≤ 2) (h : WrittenMulti quote cs t)
    (hstops : Stops (· = quote) t) :
    WrittenMulti quote (List.replicate k quote ++ cs) (List.replicate k quote ++ t) := by
  rcases Nat.eq_zero_or_pos k with rfl | hpos
  · simpa using h
  · exact .quotes hpos hk h hstops

/-- Behind `run` quote marks the text goes on with so many that at most two stand together, and then
with something else. -/
theorem exists_run_escaped (s : List Char) (run : Nat) (hrun : run ≤ 2) :
    ∃ k cs t, run + k ≤ 2 ∧ s = List.replicate k '"' ++ cs ∧
      escaped true 2 run s = List.replicate k '"' ++ t ∧ WrittenMulti '"' cs t ∧
        Stops (· = '"') t := by
  induction s generalizing run with
  | nil => exact ⟨0, [], [], by omega, rfl, rfl, .nil, stops_nil⟩
  | cons c s ih =>
    have hwhole : WrittenMulti '"' s (escaped true 2 0 s) := by
      obtain ⟨k, cs, t, hk, hs, ht, h, hstops⟩ := ih 0 (by omega)
      rw [ht, hs]
      exact .of_run (by omega) h hstops
    rw [escaped]
    split_ifs with hquote hless
    · obtain ⟨k, cs, t, hk, hs, ht, h, hstops⟩ := ih (run + 1) (by omega)
      refine ⟨k + 1, cs, t, by omega, ?_, ?_, h, hstops⟩
      · rw [hquote, hs, List.replicate_succ, List.cons_append]
      · rw [ht, List.replicate_succ, List.cons_append]
    · have hmark := written_mark (isPlainIn true)
      exact ⟨0, c :: s, _, by omega, rfl, rfl, hquote ▸ .char hmark hwhole, hmark.stops _⟩
    · have hshown : WrittenChar '"' (isPlainIn true) c (shown true c) := written_shown hquote
      exact ⟨0, c :: s, _, by omega, rfl, rfl, .char hshown hwhole, hshown.stops _⟩

theorem written_escaped_multi (s : List Char) : WrittenMulti '"' s (escaped true 2 0 s) := by
  obtain ⟨k, cs, t, hk, rfl, ht, h, hstops⟩ := exists_run_escaped s 0 (by omega)
  rw [ht]
  exact .of_run (by omega) h hstops

theorem le_longestRun (quote : Char) (longest run : Nat) (s : List Char) :
    longest ≤ longestRun quote longest run s := by
  induction s generalizing longest run with
  | nil => exact Nat.le_refl longest
  | cons c s ih =>
    rw [longestRun]
    split_ifs
    · exact (Nat.le_max_left _ _).trans (ih _ _)
    · exact ih _ _

theorem notMem_of_longestRun {longest run : Nat} (h : longestRun quote longest run s = 0) :
    quote ∉ s := by
  induction s generalizing longest run with
  | nil => exact List.not_mem_nil
  | cons c s ih =>
    rw [longestRun] at h
    split_ifs at h with hc
    · have hle := le_longestRun quote (max longest (run + 1)) (run + 1) s
      omega
    · rw [List.mem_cons, not_or]
      exact ⟨Ne.symm hc, ih h⟩

/-- The same of a text that stands as it is and has no longer run. -/
theorem exists_run_plain {longest run : Nat} (hrun : run ≤ 2)
    (hlongest : longestRun quote longest run s ≤ 2)
    (hplain : ∀ c ∈ s, isPlainIn true c = true) (hquote : quote ≠ '"') :
    ∃ k cs, run + k ≤ 2 ∧ s = List.replicate k quote ++ cs ∧ WrittenMulti quote cs cs ∧
      Stops (· = quote) cs := by
  induction s generalizing longest run with
  | nil => exact ⟨0, [], by omega, rfl, .nil, stops_nil⟩
  | cons c s ih =>
    obtain ⟨hc, hs⟩ := List.forall_mem_cons.mp hplain
    rw [longestRun] at hlongest
    split_ifs at hlongest with heq
    · have hle := le_longestRun quote (max longest (run + 1)) (run + 1) s
      obtain ⟨k, cs, hk, rfl, h, hstops⟩ := ih (by omega) hlongest hs
      refine ⟨k + 1, cs, by omega, ?_, h, hstops⟩
      rw [heq, List.replicate_succ, List.cons_append]
    · obtain ⟨k, cs, hk, rfl, h, hstops⟩ := ih (by omega) hlongest hs
      have hshown : WrittenChar quote (isPlainIn true) c [c] :=
        .plain hc heq fun h => absurd h hquote
      exact ⟨0, _, by omega, rfl, .char hshown (.of_run (by omega) h hstops), hshown.stops _⟩

theorem written_plain_multi (hlongest : longestRun quote 0 0 s ≤ 2)
    (hplain : ∀ c ∈ s, isPlainIn true c = true) (hquote : quote ≠ '"') :
    WrittenMulti quote s s := by
  obtain ⟨k, cs, hk, rfl, h, hstops⟩ := exists_run_plain (Nat.zero_le 2) hlongest hplain hquote
  exact .of_run (by omega) h hstops

end Worksite.Toml
