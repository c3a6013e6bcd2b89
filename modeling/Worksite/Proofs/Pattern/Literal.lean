import Mathlib
import Worksite.Pattern.Syntax
import Worksite.Proofs.Pattern.Ends

/-!
Literals. An escaped text is read as the sequence of its characters, whatever signs are among them,
and where such a sequence ends depends on nothing but the characters behind the spot.
-/
namespace Worksite.Pattern

/-! ## Escaped texts -/

/-- One character of an escaped text. -/
def escaped (c : Char) : Chars := if isMeta c then ['\\', c] else [c]

/-- What a character that stands for itself matches. -/
def oneOf (caseless : Bool) (c : Char) : CharSet :=
  if caseless then .folded (.single c) else .single c

/-- The characters of a text, in any case or as they are. -/
def literal (caseless : Bool) : Chars → Pattern
  | [] => empty
  | [c] => set (oneOf caseless c)
  | c :: rest => seq (set (oneOf caseless c)) (literal caseless rest)

variable {st : State} {c : Char} {rest word : Chars} {fuel : Nat}

theorem isMeta_iff : isMeta c ↔
    c ∈ ['\\', '.', '+', '*', '?', '(', ')', '|', '[', ']', '{', '}', '^', '$', '#', '&', '-',
      '~'] := by
  rw [isMeta, String.toList_ofList, decide_eq_true_iff]

theorem escape?_of_isMeta {f : Flags} (h : isMeta c) :
    escape? f (c :: rest) = some (.literal c false, rest) := by
  have hmem := isMeta_iff.mp h
  fin_cases hmem <;> rfl

/-- What is no sign stands for itself. -/
theorem step?_of_not_isMeta (h : ¬isMeta c) :
    step? st (c :: rest) = primitive? st (.literal c false) rest := by
  rw [isMeta_iff] at h
  simp only [List.mem_cons, List.not_mem_nil, or_false, not_or] at h
  simp [step?, h]

/-- One character of an escaped text is read as what it matches. -/
theorem step?_escaped (c : Char) (rest : Chars) (hunicode : st.flags.unicode = true) :
    step? st (escaped c ++ rest) =
      some (st.push (.set (oneOf st.flags.caseless c)) 0, rest) := by
  have hprimitive : primitive? st (.literal c false) rest =
      some (st.push (.set (oneOf st.flags.caseless c)) 0, rest) := by
    simp [primitive?, literal?, hunicode, oneOf]
  rw [← hprimitive]
  by_cases h : isMeta c
  · rw [escaped, if_pos h]
    have hescape : escape? st.flags (c :: rest) = some (.literal c false, rest) :=
      escape?_of_isMeta h
    simp [step?, hescape]
  · rw [escaped, if_neg h]
    exact step?_of_not_isMeta h

theorem escaped_length_pos (c : Char) : 0 < (escaped c).length := by
  rw [escaped]
  split_ifs <;> simp

/-- The parts that a text is read as. -/
def items (caseless : Bool) (word : Chars) : List Item :=
  word.map fun c => .part (.set (oneOf caseless c)) 0

/-- Reading adds the characters of an escaped text to the current branch, one by one. -/
theorem readWithin_escaped (st : State) (hunicode : st.flags.unicode = true)
    (hspaced : st.flags.spaced = false) (hfuel : word.length < fuel) :
    readWithin fuel st (word.flatMap escaped) =
      some { st with
        group := { st.group with items := st.group.items ++ items st.flags.caseless word } } := by
  induction word generalizing st fuel with
  | nil =>
    obtain ⟨fuel, rfl⟩ := Nat.exists_eq_succ_of_ne_zero hfuel.ne'
    simp [readWithin, Flags.skip, hspaced, items]
  | cons c word ih =>
    obtain ⟨fuel, rfl⟩ := Nat.exists_eq_succ_of_ne_zero (Nat.ne_zero_of_lt hfuel)
    have hskip : st.flags.skip ((c :: word).flatMap escaped) =
        escaped c ++ word.flatMap escaped := by
      rw [Flags.skip, hspaced, List.flatMap_cons]
      rfl
    have hne : escaped c ++ word.flatMap escaped ≠ [] :=
      List.append_ne_nil_of_left_ne_nil (List.ne_nil_of_length_pos (escaped_length_pos c)) _
    rw [readWithin, hskip]
    split
    · exact absurd ‹_› hne
    · rw [step?_escaped c _ hunicode]
      simp only [Option.bind_eq_bind, Option.bind_some]
      rw [ih (st.push _ 0) hunicode hspaced (Nat.lt_of_succ_lt_succ hfuel)]
      simp [State.push, Frame.push, items]

/-- The characters of a text in sequence make its literal. -/
theorem foldl_seq (caseless : Bool) (word : Chars) :
    (match (word.map fun c => set (oneOf caseless c)).reverse with
      | [] => Pattern.empty
      | last :: before => before.foldl (fun q p => .seq p q) last) = literal caseless word := by
  induction word with
  | nil => rfl
  | cons c word ih =>
    cases word with
    | nil => rfl
    | cons d word =>
      obtain ⟨last, before, hrev⟩ := List.exists_cons_of_ne_nil
        (show ((d :: word).map fun c => set (oneOf caseless c)).reverse ≠ [] by simp)
      rw [hrev] at ih
      rw [List.map_cons, List.reverse_cons, hrev]
      simp only [List.cons_append, List.foldl_append, ih, List.foldl_cons, List.foldl_nil]
      rfl

theorem branch_items {g : Frame} {caseless : Bool} (hg : g.items = items caseless word) :
    ∃ depth ≤ 1, g.branch = (literal caseless word, depth) := by
  have hparts : g.parts = word.map fun c => (set (oneOf caseless c), 0) := by
    simp [Frame.parts, hg, items, List.filterMap_map]
  have hseq := foldl_seq caseless word
  have hdepth : (g.parts.map (·.2)).foldl max 0 = 0 := by
    rw [hparts]
    clear hg hparts hseq
    induction word with
    | nil => rfl
    | cons c word ih => simpa using ih
  refine ⟨_, ?_, Prod.ext ?_ rfl⟩
  · rw [Frame.branch, hdepth]
    split_ifs <;> decide
  · rw [← hseq, Frame.branch, hparts, List.map_map]
    rfl

theorem escape_toList (text : String) : (escape text).toList = text.toList.flatMap escaped :=
  String.toList_ofList

/-- An escaped text is read as the literal of the text. -/
theorem parse?_escape (caseless : Bool) (text : String) :
    parse? caseless (escape text) = some (literal caseless text.toList) := by
  have hlen : text.toList.length ≤ (text.toList.flatMap escaped).length := by
    rw [List.length_flatMap]
    refine (Nat.le_of_eq ?_).trans
      (List.sum_le_sum fun c _ => Nat.succ_le_of_lt (escaped_length_pos c))
    simp
  obtain ⟨depth, hdepth, hbranch⟩ := branch_items
    (g := { outer := { caseless }, items := items caseless text.toList }) rfl
  have hvalue : Frame.value { outer := { caseless }, items := items caseless text.toList } =
      (literal caseless text.toList, depth) := by
    simp [Frame.value, hbranch]
  have hmax : depth ≤ maxDepth := hdepth.trans (by decide)
  simp only [parse?, escape_toList]
  rw [readWithin_escaped _ rfl rfl (Nat.lt_succ_of_le hlen)]
  simp [hvalue, hmax]

/-- A literal has a state for each of its characters. -/
theorem length_le_weight (caseless : Bool) (word : Chars) :
    word.length ≤ (literal caseless word).weight := by
  have hone : ∀ c, 1 ≤ (oneOf caseless c).weight := by
    intro c
    have := Char.utf8Size_pos c
    cases caseless <;> simp [oneOf, CharSet.single, CharSet.weight]
    omega
  induction word with
  | nil => simp
  | cons c word ih =>
    cases word with
    | nil => exact hone c
    | cons d word =>
      have := hone c
      rw [literal, weight, weight, List.length_cons]
      · omega
      · simp

/-! ## Where literals end -/

section Ends

variable {caseless : Bool} {read left : Chars}

theorem ends_oneOf_cons (c d : Char) :
    (set (oneOf caseless c)).ends (.between read (d :: left)) =
      if (oneOf caseless c).has d then [.between (read ++ [d]) left] else [] := by
  rw [ends, Spot.next?_between_cons]

theorem distinct_ite (p : Prop) [Decidable p] (s : Spot) :
    distinct (if p then [s] else []) = if p then [s] else [] := by
  split_ifs <;> rfl

/-- A literal ends right behind the characters that it is spelled with, or nowhere. -/
theorem ends_literal (word read left : Chars) :
    (literal caseless word).ends (.between read left) =
      if word.all₂ (fun c d => (oneOf caseless c).has d) (left.take word.length) then
        [.between (read ++ left.take word.length) (left.drop word.length)]
      else [] := by
  induction word generalizing read left with
  | nil => simp [literal, ends, List.all₂]
  | cons c word ih =>
    cases left with
    | nil => cases word <;> rfl
    | cons d left =>
      cases word with
      | nil => simp [literal, ends_oneOf_cons, List.all₂]
      | cons c' word =>
        have hseq : (literal caseless (c :: c' :: word)).ends (.between read (d :: left)) =
            distinct (((set (oneOf caseless c)).ends (.between read (d :: left))).flatMap
              (literal caseless (c' :: word)).ends) := rfl
        have htake : (c :: c' :: word).all₂ (fun c d => (oneOf caseless c).has d)
            ((d :: left).take (c :: c' :: word).length) =
            if (oneOf caseless c).has d then (c' :: word).all₂ (fun c d => (oneOf caseless c).has d)
              (left.take (c' :: word).length) else false := rfl
        rw [hseq, ends_oneOf_cons, htake]
        by_cases hd : (oneOf caseless c).has d
        · rw [if_pos hd, if_pos hd, List.flatMap_singleton, ih, distinct_ite, List.append_assoc]
          rfl
        · rw [if_neg hd, if_neg hd]
          rfl

end Ends

end Worksite.Pattern
