import Worksite.Proofs.Service.Lines

/-!
Ranges of lines. What is read of a text by a range are the lines that have their numbers in it, so
ranges that follow on one another put together are the text. The digest and the number of lines
that come with every reading are those of the whole file.
-/
namespace Worksite

open FileTree Sandbox
open Text (Chars AreLines splitLines)

/-! ## Numbers in a range -/

/-- Whether a number is in a range. A range may be open on either side. -/
def isWithin (first last : Option Int) (n : Nat) : Bool :=
  first.all (· ≤ (n : Int)) && last.all ((n : Int) ≤ ·)

/-- The lines that have their numbers in a range. They are counted from one. -/
def numbered (lines : List Chars) (first last : Option Int) : List Chars :=
  ((lines.zipIdx 1).filter fun x => isWithin first last x.2).map Prod.fst

/-- The numbers of a range are those of lines, and are not in reverse. -/
@[mk_iff]
structure IsRange (first last : Option Int) : Prop where
  first_pos : ∀ a ∈ first, 1 ≤ a
  last_pos : ∀ b ∈ last, 1 ≤ b
  ordered : ∀ a ∈ first, ∀ b ∈ last, a ≤ b

theorem IsRange.first_nonneg {first last : Option Int} (h : IsRange first last) :
    ∀ a ∈ first, 0 ≤ a :=
  fun a ha => zero_le_one.trans (h.first_pos a ha)

theorem IsRange.last_nonneg {first last : Option Int} (h : IsRange first last) :
    ∀ b ∈ last, 0 ≤ b :=
  fun b hb => zero_le_one.trans (h.last_pos b hb)

/-- Ranges that end at cuts, each of which begins behind the one before it. -/
def ranges (first : Option Int) : List Int → List (Option Int × Option Int)
  | [] => [(first, none)]
  | cut :: cuts => (first, some cut) :: ranges (some (cut + 1)) cuts

variable {lines : List Chars} {first last : Option Int} {cut : Int} {cuts : List Int}

/-- Two filters are one where all that passes the first stands before all that passes the other. -/
theorem filter_append_filter {α : Type} {l : List α} {p q : α → Bool}
    (h : l.Pairwise fun x y => q x → ¬ p y) (hone : ∀ x ∈ l, q x → ¬ p x) :
    l.filter p ++ l.filter q = l.filter fun x => p x || q x := by
  induction l with
  | nil => rfl
  | cons x l ih =>
    obtain ⟨hx, hl⟩ := List.pairwise_cons.mp h
    obtain ⟨hxx, hall⟩ := List.forall_mem_cons.mp hone
    have hrest := ih hl hall
    by_cases hq : q x
    · -- nothing passes the first filter from here on
      have hnone : l.filter p = [] := List.filter_eq_nil_iff.mpr fun y hy => hx y hy hq
      rw [hnone, List.nil_append] at hrest
      simp [hxx hq, hq, hnone, hrest]
    · by_cases hp : p x <;> simp [hp, hq, hrest]

theorem pairwise_zipIdx {α : Type} (l : List α) (k : Nat) :
    (l.zipIdx k).Pairwise fun x y => x.2 ≤ y.2 := by
  have hnumbers : ((l.zipIdx k).map Prod.snd).Pairwise (· ≤ ·) := by
    rw [List.zipIdx_map_snd]
    exact List.pairwise_le_range'
  exact List.pairwise_map.mp hnumbers

/-- Two ranges with nothing between them are one. -/
theorem numbered_append (h : ∀ a ∈ first, a ≤ cut + 1) (h' : ∀ b ∈ last, cut ≤ b) :
    numbered lines first (some cut) ++ numbered lines (some (cut + 1)) last =
      numbered lines first last := by
  have hwithin (n : Nat) : isWithin first last n =
      (isWithin first (some cut) n || isWithin (some (cut + 1)) last n) := by
    cases first <;> cases last <;> simp [isWithin] at h h' ⊢ <;> grind
  have hnext {n m : Nat} (hle : n ≤ m) (hn : isWithin (some (cut + 1)) last n) :
      ¬ isWithin first (some cut) m := by
    simp only [isWithin, Option.all_some, Bool.and_eq_true, decide_eq_true_eq] at hn ⊢
    omega
  simp only [numbered, hwithin]
  rw [← List.map_append, filter_append_filter ((pairwise_zipIdx lines 1).imp hnext)]
  exact fun x _ => hnext le_rfl

theorem numbered_none (lines : List Chars) : numbered lines none none = lines := by
  simp [numbered, isWithin]

/-- The ranges between cuts make up what is behind the first of them. -/
theorem flatMap_ranges (hcuts : cuts.Pairwise (· < ·)) (h : ∀ a ∈ first, ∀ c ∈ cuts, a ≤ c) :
    (ranges first cuts).flatMap (fun r => numbered lines r.1 r.2) = numbered lines first none := by
  induction cuts generalizing first with
  | nil => simp [ranges]
  | cons cut cuts ih =>
    obtain ⟨hcut, hcuts⟩ := List.pairwise_cons.mp hcuts
    have hrest : ∀ a ∈ some (cut + 1), ∀ c ∈ cuts, a ≤ c := by
      simpa using hcut
    rw [ranges, List.flatMap_cons, ih hcuts hrest]
    refine numbered_append (fun a ha => ?_) (by simp)
    exact (h a ha cut List.mem_cons_self).trans (by omega)

theorem isRange_of_mem_ranges (hcuts : cuts.Pairwise (· < ·)) (hpos : ∀ c ∈ cuts, 1 ≤ c)
    (hfirst : ∀ a ∈ first, 1 ≤ a) (h : ∀ a ∈ first, ∀ c ∈ cuts, a ≤ c) :
    ∀ r ∈ ranges first cuts, IsRange r.1 r.2 := by
  induction cuts generalizing first with
  | nil =>
    rw [ranges, List.forall_mem_singleton]
    exact ⟨hfirst, by simp, by simp⟩
  | cons cut cuts ih =>
    obtain ⟨hcut, hcuts⟩ := List.pairwise_cons.mp hcuts
    obtain ⟨hone, hpos⟩ := List.forall_mem_cons.mp hpos
    have hnext : ∀ a ∈ some (cut + 1), 1 ≤ a := by
      simp; omega
    have hrest : ∀ a ∈ some (cut + 1), ∀ c ∈ cuts, a ≤ c := by
      simpa using hcut
    rw [ranges, List.forall_mem_cons]
    refine ⟨⟨hfirst, by simpa using hone, fun a ha => ?_⟩, ih hcuts hpos hnext hrest⟩
    simpa using h a ha cut List.mem_cons_self

/-! ## Reading -/

/-- A part of a list that is cut by numbers holds the elements that have these numbers. -/
theorem filter_zipIdx {α : Type} (l : List α) (k a b : Nat) :
    ((l.zipIdx k).filter fun x => a ≤ x.2 && x.2 ≤ b).map Prod.fst =
      (l.drop (a - k)).take (b + 1 - max a k) := by
  induction l generalizing k with
  | nil => simp
  | cons x l ih =>
    have hrest := ih (k + 1)
    rw [List.zipIdx_cons]
    by_cases ha : a ≤ k
    · have hdrop : a - k = 0 := by omega
      have hdrop' : a - (k + 1) = 0 := by omega
      rw [max_eq_right ha, hdrop]
      rw [max_eq_right (by omega), hdrop'] at hrest
      by_cases hb : k ≤ b
      · have htake : b + 1 - k = b + 1 - (k + 1) + 1 := by omega
        rw [htake, List.drop_zero, List.take_succ_cons, List.filter_cons_of_pos (by simp [ha, hb]),
          List.map_cons, hrest, List.drop_zero]
      · have htake : b + 1 - k = 0 := by omega
        have htake' : b + 1 - (k + 1) = 0 := by omega
        rw [List.filter_cons_of_neg (by simp [hb]), hrest, htake, htake', List.take_zero,
          List.take_zero]
    · have hdrop : a - k = a - (k + 1) + 1 := by omega
      have hmax : max a k = max a (k + 1) := by omega
      rw [List.filter_cons_of_neg (by simp [ha]), hrest, hdrop, hmax, List.drop_succ_cons]

namespace Place

variable {p : Place} {t : FileTree} {bytes : ByteArray} {mode : Nat} {text : String}

/-- What is cut out of the lines by their numbers. -/
theorem sliceLines_eq (h : IsRange first last) :
    sliceLines lines (first.map Int.toNat) (last.map Int.toNat) =
      (numbered lines first last).flatten := by
  obtain ⟨hfirst, hlast, -⟩ := h
  generalize ha : (first.map Int.toNat).getD 1 = a
  generalize hb : (last.map Int.toNat).getD lines.length = b
  have hpos : 1 ≤ a := by
    cases first <;> simp at ha hfirst <;> omega
  have hwithin : ∀ x ∈ lines.zipIdx 1,
      isWithin first last x.2 = (decide (a ≤ x.2) && decide (x.2 ≤ b)) := by
    intro x hx
    obtain ⟨hone, hcount, -⟩ := List.mem_zipIdx hx
    cases first <;> cases last <;> simp [isWithin] at ha hb ⊢ <;> grind
  have hdrop : lines.drop (min a (lines.length + 1) - 1) = lines.drop (a - 1) := by
    by_cases hle : a ≤ lines.length + 1
    · rw [min_eq_left hle]
    · rw [List.drop_eq_nil_of_le (by omega), List.drop_eq_nil_of_le (by omega)]
  rw [numbered, List.filter_congr hwithin, filter_zipIdx, max_eq_left hpos, sliceLines, ha, hb,
    hdrop]
  congr 1
  rw [List.take_eq_take_iff, List.length_drop]
  omega

theorem checkRange_eq_ok (hfirst : ∀ a ∈ first, 0 ≤ a) (hlast : ∀ b ∈ last, 0 ≤ b) :
    checkRange (first.map Int.toNat) (last.map Int.toNat) = .ok () ↔ IsRange first last := by
  rw [isRange_iff]
  cases first with
  | none =>
    cases last with
    | none => simp [checkRange]
    | some b =>
      simp [checkRange] at hlast ⊢
      omega
  | some a =>
    cases last with
    | none =>
      simp [checkRange] at hfirst ⊢
      omega
    | some b =>
      simp [checkRange] at hfirst hlast ⊢
      split_ifs <;> simp <;> omega

theorem bytes_of_find (hf : t.find true p.absolute = .ok (.file bytes mode)) :
    p.bytes t = .ok bytes := by
  simp [Place.bytes, hf, Entry.bytes, Except.mapError]

theorem readLines_text (hf : t.find true p.absolute = .ok (.file bytes mode))
    (ht : String.fromUTF8? bytes = some text) (h : IsRange first last) :
    p.readLines t (first.map Int.toNat) (last.map Int.toNat) =
      .ok { path := p.relative.display
            content := .text (String.ofList (numbered (splitLines text.toList) first last).flatten)
            contentHash := Sha256.digest bytes
            totalLines := (splitLines text.toList).length } := by
  have hrange := (checkRange_eq_ok h.first_nonneg h.last_nonneg).mpr h
  have hcontent : FileContent.ofBytes bytes false = .text text := by
    simp [FileContent.ofBytes, ht]
  simp only [readLines, hrange, bytes_of_find hf, ok_bind, hcontent, sliceLines_eq h]
  rfl

theorem readLines_binary (hf : t.find true p.absolute = .ok (.file bytes mode))
    (ht : String.fromUTF8? bytes = none) (h : IsRange first last) :
    p.readLines t (first.map Int.toNat) (last.map Int.toNat) =
      .ok { path := p.relative.display
            content := .binary (Base64.encodeText bytes.toList)
            contentHash := Sha256.digest bytes
            totalLines := 0 } := by
  have hrange := (checkRange_eq_ok h.first_nonneg h.last_nonneg).mpr h
  have hcontent : FileContent.ofBytes bytes false = .binary (Base64.encodeText bytes.toList) := by
    simp [FileContent.ofBytes, FileContent.ofBinary, ht]
  simp only [readLines, hrange, bytes_of_find hf, ok_bind, hcontent]
  rfl

end Place

namespace Service

variable {s : Service} {t : FileTree} {path text : String} {p : Place} {bytes : ByteArray}
  {mode : Nat} {a : Response.ReadLines}

theorem mapM_nonNegative_eq_ok {field : String} {n : Option Int} {m : Option Nat} :
    n.mapM (nonNegative field) = .ok m ↔ (∀ k ∈ n, 0 ≤ k) ∧ m = n.map Int.toNat := by
  by_cases hn : ∀ k ∈ n, 0 ≤ k
  · rw [mapM_nonNegative field hn, Except.ok.injEq, and_iff_right hn, eq_comm]
  · obtain ⟨k, rfl, hk⟩ : ∃ k, n = some k ∧ ¬ 0 ≤ k := by simpa using hn
    simp [nonNegative, hk]

/-- Only ranges are read by. -/
theorem readLines_eq_ok (hp : s.sandbox.resolve t path = .ok p) :
    s.readLines t { path, first, last } = .ok a ↔
      IsRange first last ∧ p.readLines t (first.map Int.toNat) (last.map Int.toNat) = .ok a := by
  constructor
  · intro h
    obtain ⟨first', hfirst, h⟩ := bind_eq_ok.mp h
    obtain ⟨last', hlast, h⟩ := bind_eq_ok.mp h
    rw [hp, ok_bind] at h
    obtain ⟨hpos, rfl⟩ := mapM_nonNegative_eq_ok.mp hfirst
    obtain ⟨hpos', rfl⟩ := mapM_nonNegative_eq_ok.mp hlast
    obtain ⟨_, hrange, -⟩ := bind_eq_ok.mp h
    exact ⟨(Place.checkRange_eq_ok hpos hpos').mp hrange, h⟩
  · rintro ⟨hr, h⟩
    have hfirst := mapM_nonNegative "start_line" hr.first_nonneg
    have hlast := mapM_nonNegative "end_line" hr.last_nonneg
    simp only [readLines, hfirst, hlast, hp, ok_bind, h]

/-- A text is read by any ranges, and what is read are the lines in them. -/
theorem exists_parts {rs : List (Option Int × Option Int)} (hp : s.sandbox.resolve t path = .ok p)
    (hf : t.find true p.absolute = .ok (.file bytes mode))
    (ht : String.fromUTF8? bytes = some text) (hr : ∀ r ∈ rs, IsRange r.1 r.2) :
    ∃ parts texts,
      rs.mapM (fun r => s.readLines t { path, first := r.1, last := r.2 }) = .ok parts ∧
      parts.map (·.content) = texts.map FileContent.text ∧
      (String.join texts).toList =
        (rs.flatMap fun r => numbered (splitLines text.toList) r.1 r.2).flatten := by
  induction rs with
  | nil => exact ⟨[], [], rfl, rfl, rfl⟩
  | cons r rs ih =>
    obtain ⟨hfirst, hrest⟩ := List.forall_mem_cons.mp hr
    obtain ⟨parts, texts, hparts, htexts, hjoin⟩ := ih hrest
    obtain ⟨part, hread, hcontent⟩ :
        ∃ part, s.readLines t { path, first := r.1, last := r.2 } = .ok part ∧
          part.content =
            .text (String.ofList (numbered (splitLines text.toList) r.1 r.2).flatten) :=
      ⟨_, (readLines_eq_ok hp).mpr ⟨hfirst, Place.readLines_text hf ht hfirst⟩, rfl⟩
    refine ⟨part :: parts,
      String.ofList (numbered (splitLines text.toList) r.1 r.2).flatten :: texts, ?_, ?_, ?_⟩
    · rw [List.mapM_cons, hread, ok_bind, hparts]
      rfl
    · rw [List.map_cons, List.map_cons, hcontent, htexts]
    · rw [String.toList_join] at hjoin
      rw [String.toList_join, List.flatMap_cons, List.flatMap_cons, List.flatten_append,
        String.toList_ofList, hjoin]

/-- The parts of a file that are read by ranges are lines of it, and those between cuts put
together are the file. A file that is no text is read as a whole. Every answer has the digest of
the whole file and the number of its lines. -/
theorem reads_partition (hp : s.sandbox.resolve t path = .ok p)
    (hf : t.find true p.absolute = .ok (.file bytes mode)) :
    (∀ text, String.fromUTF8? bytes = some text → ∃ lines, AreLines text.toList lines ∧
      (∀ first last a, s.readLines t { path, first, last } = .ok a ↔ IsRange first last ∧
        a = { path := p.relative.display
              content := .text (String.ofList (numbered lines first last).flatten)
              contentHash := Sha256.digest bytes
              totalLines := lines.length }) ∧
      ∀ cuts : List Int, cuts.Pairwise (· < ·) → (∀ c ∈ cuts, 1 ≤ c) → ∃ parts texts,
        (ranges none cuts).mapM (fun r => s.readLines t { path, first := r.1, last := r.2 }) =
          .ok parts ∧
        parts.map (·.content) = texts.map FileContent.text ∧ String.join texts = text) ∧
    (String.fromUTF8? bytes = none →
      ∀ first last a, s.readLines t { path, first, last } = .ok a ↔ IsRange first last ∧
        a = { path := p.relative.display
              content := .binary (Base64.encodeText bytes.toList)
              contentHash := Sha256.digest bytes
              totalLines := 0 }) := by
  refine ⟨fun text ht => ⟨splitLines text.toList, Text.areLines_iff.mpr rfl, fun first last a => ?_,
    fun cuts hcuts hpos => ?_⟩, fun ht first last a => ?_⟩
  · rw [readLines_eq_ok hp]
    refine and_congr_right fun hr => ?_
    rw [Place.readLines_text hf ht hr, Except.ok.injEq, eq_comm]
  · have hranges : ∀ r ∈ ranges none cuts, IsRange r.1 r.2 :=
      isRange_of_mem_ranges hcuts hpos (by simp) (by simp)
    obtain ⟨parts, texts, hparts, htexts, hjoin⟩ := exists_parts hp hf ht hranges
    rw [flatMap_ranges hcuts (by simp), numbered_none, Text.flatten_splitLines] at hjoin
    exact ⟨parts, texts, hparts, htexts, String.toList_inj.mp hjoin⟩
  · rw [readLines_eq_ok hp]
    refine and_congr_right fun hr => ?_
    rw [Place.readLines_binary hf ht hr, Except.ok.injEq, eq_comm]

/-- The last line of the text has no end, and the other file is no text. -/
def paged : FileTree where
  entries := [(["ws"], .directory), (["ws", "a"], .file "x\r\ny\nz".toUTF8 0o644),
    (["ws", "b"], .file ⟨#[255, 10]⟩ 0o644)]
  distinct := by decide

theorem resolve_paged : notedService.sandbox.resolve paged "a" =
    .ok { absolute := ["ws", "a"], relative := ["a"] } := by
  have hl : Path.locate notedService.sandbox.root "a" = some ["ws", "a"] := by decide
  rw [resolve_of_locate hl]
  cbv

theorem resolve_paged_binary : notedService.sandbox.resolve paged "b" =
    .ok { absolute := ["ws", "b"], relative := ["b"] } := by
  have hl : Path.locate notedService.sandbox.root "b" = some ["ws", "b"] := by decide
  rw [resolve_of_locate hl]
  cbv

/-- Three parts of three lines, the last of which lies behind them, and all of a file that has no
line with the numbers asked for. -/
theorem reads_partition_paged :
    (∃ parts texts,
      [(none, some 1), (some 2, some 7), (some 8, none)].mapM (fun r : Option Int × Option Int =>
        notedService.readLines paged { path := "a", first := r.1, last := r.2 }) = .ok parts ∧
      parts.map (·.content) = texts.map FileContent.text ∧ String.join texts = "x\r\ny\nz") ∧
    ∃ a, notedService.readLines paged { path := "b", first := some 7, last := some 9 } = .ok a ∧
      a.content = .binary "/wo=" ∧ a.totalLines = 0 := by
  have htext : String.fromUTF8? "x\r\ny\nz".toUTF8 = some "x\r\ny\nz" := by decide +kernel
  have hnone : String.fromUTF8? ⟨#[255, 10]⟩ = none := by decide +kernel
  have hrange : IsRange (some 7) (some 9) := by simp [isRange_iff]
  obtain ⟨lines, -, -, hparts⟩ := (reads_partition resolve_paged (by cbv)).1 _ htext
  have hread := (reads_partition resolve_paged_binary (by cbv)).2 hnone
  refine ⟨hparts [1, 7] (by simp) (by simp), _, (hread _ _ _).mpr ⟨hrange, rfl⟩, ?_, rfl⟩
  exact congrArg FileContent.binary (by decide +kernel)

end Service

end Worksite
