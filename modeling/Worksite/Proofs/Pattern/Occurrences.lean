import Mathlib
import Worksite.Proofs.Pattern.Literal

/-!
Occurrences. The matches of a literal are the pieces of a text that a plain scan from left to right
finds, which compares the next characters with those of the word.
-/
namespace Worksite.Pattern

open String (utf8Len)

/-- Where the plain scan finds a word: at each place the next characters are compared with those of
the word, one by one; behind them the scan goes on if they are alike, else at the next character. -/
def occurrences (alike : Char → Char → Bool) (word : Chars) (i : Nat) : Chars → List Nat
  | [] => []
  | d :: rest =>
    if word ≠ [] ∧ word.all₂ alike ((d :: rest).take word.length) then
      i :: occurrences alike word (i + word.length) ((d :: rest).drop word.length)
    else occurrences alike word (i + 1) rest
termination_by left => left.length
decreasing_by
  · obtain ⟨hne, -⟩ := ‹word ≠ [] ∧ _›
    have := List.length_pos_iff.mpr hne
    simp only [List.length_drop, List.length_cons]
    omega
  · simp

/-- A word that is found ends in the text. -/
theorem add_le_of_mem_occurrences {alike : Char → Char → Bool} {word left : Chars} {i j : Nat}
    (h : j ∈ occurrences alike word i left) : j + word.length ≤ i + left.length := by
  fun_induction occurrences alike word i left with
  | case1 => cases h
  | case2 i d rest hfound ih =>
    have hlen := ((List.all₂_eq_true _ _).mp hfound.2).length_eq
    rw [List.length_take] at hlen
    rcases List.mem_cons.mp h with rfl | h
    · omega
    · have hle := ih h
      rw [List.length_drop] at hle
      omega
  | case3 i d rest _ ih =>
    have hle := ih h
    rw [List.length_cons]
    omega

/-- The piece of a text with `n` characters behind the first `i`. -/
def Span.piece (text : Chars) (n i : Nat) : Span where
  first := .between (text.take i) (text.drop i)
  last := .between (text.take (i + n)) (text.drop (i + n))

theorem Span.piece_append (read left : Chars) (n : Nat) :
    Span.piece (read ++ left) n read.length =
      { first := .between read left, last := .between (read ++ left.take n) (left.drop n) } := by
  simp [Span.piece, List.take_length_add_append, List.drop_length_add_append]

/-! ## Scanning for a literal -/

variable {p : Pattern} {start : Nat} {lastEnd : Option Nat} {read : Chars}

/-- Nothing is found before the place where the scan starts. -/
theorem matchesFrom_skip (read passed rest : Chars) (lastEnd : Option Nat) :
    p.matchesFrom (utf8Len (read ++ passed)) lastEnd read.getLast? (utf8Len read)
        (passed ++ rest) =
      p.matchesFrom (utf8Len (read ++ passed)) lastEnd (read ++ passed).getLast?
        (utf8Len (read ++ passed)) rest := by
  induction passed generalizing read with
  | nil => simp
  | cons d passed ih =>
    have hlt : utf8Len read < utf8Len (read ++ d :: passed) := by
      have := Char.utf8Size_pos d
      simp
      omega
    have ih := ih (read ++ [d])
    have hlast : (read ++ [d]).getLast? = some d := by simp
    have hlen : utf8Len (read ++ [d]) = utf8Len read + d.utf8Size := by simp
    rw [List.append_assoc, List.singleton_append, hlast, hlen] at ih
    rw [List.cons_append, matchesFrom, ← ih]
    simp only [if_pos hlt]

/-- What the scan does at a place where the literal begins, and at one where it does not. -/
theorem matchesFrom_literal_cons {caseless : Bool} {word : Chars} (hword : word ≠ [])
    (hstart : start ≤ utf8Len read) (d : Char) (rest : Chars) :
    (literal caseless word).matchesFrom start lastEnd read.getLast? (utf8Len read) (d :: rest) =
      if word.all₂ (fun c d => (oneOf caseless c).has d) ((d :: rest).take word.length) then
        Span.piece (read ++ d :: rest) word.length read.length ::
          (literal caseless word).matchesFrom
            (utf8Len (read ++ (d :: rest).take word.length))
            (some (utf8Len (read ++ (d :: rest).take word.length)))
            (read ++ [d]).getLast? (utf8Len (read ++ [d])) rest
      else
        (literal caseless word).matchesFrom start lastEnd (read ++ [d]).getLast?
          (utf8Len (read ++ [d])) rest := by
  have hlast : (read ++ [d]).getLast? = some d := by simp
  have hlen : utf8Len (read ++ [d]) = utf8Len read + d.utf8Size := by simp
  have hspot : ({ before := read.getLast?, after := d :: rest, offset := utf8Len read } : Spot) =
    .between read (d :: rest) := rfl
  rw [matchesFrom, hlast, hlen, hspot, ends_literal]
  simp only [if_neg (not_lt.mpr hstart)]
  split_ifs with hall
  · obtain ⟨c, word, rfl⟩ := List.exists_cons_of_ne_nil hword
    have hne : utf8Len (read ++ (d :: rest).take (c :: word).length) ≠ utf8Len read := by
      have := Char.utf8Size_pos d
      simp
      omega
    rw [List.head?_cons, Span.piece_append]
    simp only [Spot.between, hne, decide_false, Bool.false_and, Bool.false_eq_true, if_false]
  · rfl

theorem matchesFrom_literal_nil {caseless : Bool} {word : Chars} (hword : word ≠ []) :
    (literal caseless word).matchesFrom start lastEnd read.getLast? (utf8Len read) [] = [] := by
  obtain ⟨c, word, rfl⟩ := List.exists_cons_of_ne_nil hword
  have hspot : ({ before := read.getLast?, after := [], offset := utf8Len read } : Spot) =
    .between read [] := rfl
  have hends : (literal caseless (c :: word)).ends (.between read []) = [] := by
    rw [ends_literal]
    rfl
  rw [matchesFrom, hspot, hends]
  simp

/-- From where it starts, the matcher of a literal finds what the plain scan finds. -/
theorem matchesFrom_literal {caseless : Bool} {word : Chars} (hword : word ≠ []) {i : Nat}
    (read left : Chars) (hi : i = read.length) (hstart : start ≤ utf8Len read) :
    (literal caseless word).matchesFrom start lastEnd read.getLast? (utf8Len read) left =
      (occurrences (fun c d => (oneOf caseless c).has d) word i left).map
        (Span.piece (read ++ left) word.length) := by
  fun_induction occurrences (fun c d => (oneOf caseless c).has d) word i left
    generalizing read start lastEnd with
  | case1 i => exact matchesFrom_literal_nil hword
  | case2 i d rest h ih =>
    obtain ⟨-, hall⟩ := h
    have hlen := ((List.all₂_eq_true _ _).mp hall).length_eq
    obtain ⟨c, w, rfl⟩ := List.exists_cons_of_ne_nil hword
    -- behind the first character, the scan passes over the others
    have htake :
        read ++ (d :: rest).take (c :: w).length = (read ++ [d]) ++ rest.take w.length := by
      simp
    have hskip := matchesFrom_skip (p := literal caseless (c :: w)) (read ++ [d])
      (rest.take w.length) (rest.drop w.length)
      (some (utf8Len (read ++ (d :: rest).take (c :: w).length)))
    rw [List.take_append_drop, ← htake] at hskip
    rw [matchesFrom_literal_cons hword hstart, if_pos hall, List.map_cons, ← hi, hskip,
      ← List.drop_succ_cons, ← List.length_cons, ih _ ?_ le_rfl]
    · simp
    · rw [List.length_append, hi, ← hlen]
  | case3 i d rest h ih =>
    have hall : ¬word.all₂ (fun c d => (oneOf caseless c).has d) ((d :: rest).take word.length) :=
      fun hall => h ⟨hword, hall⟩
    have hstart' : start ≤ utf8Len (read ++ [d]) := hstart.trans (by simp)
    rw [matchesFrom_literal_cons hword hstart, if_neg hall,
      ih (read ++ [d]) (by simp [hi]) hstart', List.append_assoc, List.singleton_append]

/-- The matches of a literal are those of the plain scan. -/
theorem allMatches_literal {caseless : Bool} {word : Chars} (hword : word ≠ []) (text : Chars) :
    (literal caseless word).allMatches text =
      (occurrences (fun c d => (oneOf caseless c).has d) word 0 text).map
        (Span.piece text word.length) :=
  matchesFrom_literal hword [] text rfl le_rfl

end Worksite.Pattern
