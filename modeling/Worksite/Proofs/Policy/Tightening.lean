import Worksite.Proofs.FileTree.Spelled
import Worksite.Proofs.Path.Trimming
import Worksite.Proofs.Policy
import Worksite.Proofs.Text.Words

/-!
Policies that are tightened. A denied prefix that is added takes away what it covers, and what could
only be deleted together with it; it gives nothing. A prefix counts by its names alone, so that
neither order nor repetition nor spelling of the added ones matters.
-/
namespace Worksite

open Worksite.Path
open FileTree (spelled)

variable {text x : String} {texts texts' : List String} {l d : Location}

/-! ## The names of a prefix -/

namespace WritePolicy

/-- What stands between the slashes of a prefix without the white space around it. Blank names and
dots are left out. -/
def prefixNames (text : String) : Location := spelled (segments (Text.trimText text))

/-- The dot that opens a relative path is left out as well. -/
theorem namesOf_eq (path : String) : namesOf path = spelled (segments path) := by
  have hsteps : (steps path).filter (· ≠ .here) = (turns (segments path)).filter (· ≠ .here) := by
    unfold steps turns
    simp only
    split
    · next rest hall =>
      rw [hall]
      split_ifs <;> simp [List.filter_filter]
    · simp [List.filter_filter]
  rw [namesOf, hsteps, filter_turns, List.map_map]
  exact List.map_id'' (fun s => text_ofSegment s) _

theorem prefixOf_eq (text : String) : prefixOf text = prefixNames text := namesOf_eq _

theorem spelled_slash (a b : String) :
    spelled (segments (a ++ "/" ++ b)) = spelled (segments a) ++ spelled (segments b) := by
  rw [segments_slash, spelled, List.filter_append]
  rfl

theorem isSpace_slash : Unicode.isSpace '/' = false := by decide

/-- A dot before a prefix and a slash behind it keep the white space at its ends. -/
theorem prefixNames_dotted (x : String) :
    prefixNames ("./" ++ x ++ "/") = spelled (segments x) := by
  have hlist : ("./" ++ x ++ "/").toList = '.' :: '/' :: (x.toList ++ ['/']) := by simp
  have htrim : Text.trimText ("./" ++ x ++ "/") = "./" ++ x ++ "/" := by
    rw [Text.trimText, hlist, Text.trim, Text.trimStart_eq_self, Text.trimEnd_eq_self, ← hlist,
      String.ofList_toList]
    · rw [← List.cons_append, ← List.cons_append, List.getLast?_concat]
      exact fun c hc => Option.some.inj hc ▸ isSpace_slash
    · exact fun c hc => Option.some.inj hc ▸ (by decide : Unicode.isSpace '.' = false)
  have hparts : "./" ++ x ++ "/" = "." ++ "/" ++ x ++ "/" ++ "" := by
    rw [String.append_empty]
    rfl
  have hdot : spelled (segments ".") = [] := by decide
  have hblank : spelled (segments "") = [] := by decide
  rw [prefixNames, htrim, hparts, spelled_slash, spelled_slash, hdot, hblank, List.append_nil,
    List.nil_append]

/-- What is trimmed has no white space at its end. -/
theorem getLast?_of_trimText (h : Text.trimText x = x) :
    ∀ c ∈ x.toList.getLast?, Unicode.isSpace c = false := by
  have hlist : Text.trim x.toList = x.toList := by
    rw [← String.toList_ofList (l := Text.trim x.toList)]
    exact congrArg String.toList h
  have hhead := Text.head?_trimStart (Text.trimStart x.toList).reverse
  rwa [← List.getLast?_reverse, ← Text.trimEnd_eq, ← Text.trim, hlist] at hhead

/-- So does a slash before it, where there is none at its end. -/
theorem prefixNames_rooted (h : Text.trimText x = x) :
    prefixNames ("/" ++ x) = spelled (segments x) := by
  have hlist : ("/" ++ x).toList = '/' :: x.toList := by simp
  have htrim : Text.trimText ("/" ++ x) = "/" ++ x := by
    rw [Text.trimText, hlist, Text.trim, Text.trimStart_eq_self, Text.trimEnd_eq_self, ← hlist,
      String.ofList_toList]
    · intro c hc
      by_cases hx : x.toList = []
      · obtain rfl : '/' = c := by simpa [hx] using hc
        exact isSpace_slash
      · rw [List.getLast?_cons_of_ne_nil hx] at hc
        exact getLast?_of_trimText h c hc
    · exact fun c hc => Option.some.inj hc ▸ isSpace_slash
  have hparts : "/" ++ x = "" ++ "/" ++ x := by simp
  have hblank : spelled (segments "") = [] := by decide
  rw [prefixNames, htrim, hparts, spelled_slash, hblank, List.nil_append]

/-- What a name between slashes counts for: nothing if it is left out, else its length. -/
def weight (name : Text.Chars) : Nat := if name = [] ∨ name = ['.'] then 0 else name.length

theorem weight_of_isSpace {name : Text.Chars} (h : ∃ c ∈ name, Unicode.isSpace c) :
    weight name = name.length := by
  obtain ⟨c, hc, hspace⟩ := h
  refine if_neg (not_or.mpr ⟨List.ne_nil_of_mem hc, ?_⟩)
  rintro rfl
  obtain rfl := List.mem_singleton.mp hc
  exact absurd hspace (by decide)

theorem weight_le_length (name : Text.Chars) : weight name ≤ name.length := by
  unfold weight
  split_ifs <;> omega

/-- White space before a name counts in full, also where the name by itself is left out. -/
theorem weight_append_left {lead : Text.Chars} (h : ∀ c ∈ lead, Unicode.isSpace c)
    (name : Text.Chars) : lead.length + weight name ≤ weight (lead ++ name) := by
  cases lead with
  | nil => simp
  | cons c lead =>
    have hle := weight_le_length name
    have hc : c ∈ c :: lead ++ name := List.mem_append_left _ List.mem_cons_self
    rw [weight_of_isSpace ⟨c, hc, h c List.mem_cons_self⟩, List.length_append]
    omega

theorem weight_append_right {trail : Text.Chars} (h : ∀ c ∈ trail, Unicode.isSpace c)
    (name : Text.Chars) : weight name + trail.length ≤ weight (name ++ trail) := by
  cases trail with
  | nil => simp
  | cons c trail =>
    have hle := weight_le_length name
    have hc : c ∈ name ++ c :: trail := List.mem_append_right _ List.mem_cons_self
    rw [weight_of_isSpace ⟨c, hc, h c List.mem_cons_self⟩, List.length_append]
    omega

theorem sum_weight (parts : List Text.Chars) :
    (parts.map weight).sum = ((spelled (parts.map String.ofList)).map String.length).sum := by
  induction parts with
  | nil => rfl
  | cons name parts ih =>
    rw [List.map_cons, List.map_cons, List.sum_cons, ih, weight]
    have hsilent : String.ofList name = "" ∨ String.ofList name = "." ↔
        name = [] ∨ name = ['.'] := by
      rw [← String.toList_inj, ← String.toList_inj, String.toList_ofList]
      rfl
    by_cases hname : name = [] ∨ name = ['.']
    · rw [if_pos hname, FileTree.spelled_cons_of_silent (hsilent.mpr hname), Nat.zero_add]
    · rw [if_neg hname, FileTree.spelled_cons (mt hsilent.mp hname), List.map_cons, List.sum_cons,
        String.length_ofList]

/-- White space at the ends of a prefix is part of its names, unless it is dropped with it. -/
theorem trimText_of_spelled_eq (h : spelled (segments x) = prefixNames x) :
    Text.trimText x = x := by
  obtain ⟨lead, trail, init, last, htext, hlead, htrail, htrimmed, hsegments⟩ :=
    segments_trimText x
  -- what is dropped counts for nothing, so there is none
  have hcount : ((init ++ [last]).map weight).sum =
      (((init ++ [last ++ trail]).modifyHead (lead ++ ·)).map weight).sum := by
    rw [sum_weight, sum_weight, ← htrimmed, ← hsegments, h]
    rfl
  have hlast := weight_append_right htrail last
  have hnone : lead.length + trail.length = 0 := by
    cases init with
    | nil =>
      have hfirst := weight_append_left hlead (last ++ trail)
      simp only [List.nil_append, List.modifyHead_cons, List.map_cons, List.map_nil,
        List.sum_cons, List.sum_nil] at hcount
      omega
    | cons first init =>
      have hfirst := weight_append_left hlead first
      simp only [List.cons_append, List.modifyHead_cons, List.map_cons, List.map_append,
        List.map_nil, List.sum_cons, List.sum_append, List.sum_nil] at hcount
      omega
  obtain ⟨hlead, htrail⟩ := Nat.add_eq_zero_iff.mp hnone
  rw [List.length_eq_zero_iff.mp hlead, List.length_eq_zero_iff.mp htrail, List.nil_append,
    List.append_nil] at htext
  rw [Text.trimText, ← htext, String.ofList_toList]

/-- The ways to write a prefix have the same names just if there is no white space at its ends. -/
theorem prefixNames_respelled_iff :
    prefixNames ("./" ++ x ++ "/") = prefixNames x ∧ prefixNames ("/" ++ x) = prefixNames x ↔
      Text.trimText x = x := by
  constructor
  · rintro ⟨hdotted, -⟩
    exact trimText_of_spelled_eq ((prefixNames_dotted x).symm.trans hdotted)
  · intro h
    have hself : prefixNames x = spelled (segments x) := by rw [prefixNames, h]
    exact ⟨(prefixNames_dotted x).trans hself.symm, (prefixNames_rooted h).trans hself.symm⟩

/-! ## More denied prefixes -/

variable {p : WritePolicy} {operation : WriteOperation}

/-- Denies prefixes as they are configured, one after the other. -/
def denyAll (p : WritePolicy) (texts : List String) : WritePolicy :=
  texts.foldl (fun p text => p.deny (prefixOf text)) p

theorem allowed_deny (p : WritePolicy) (names : Location) : (p.deny names).allowed = p.allowed := by
  unfold deny
  split_ifs <;> rfl

theorem allowed_denyAll (p : WritePolicy) (texts : List String) :
    (p.denyAll texts).allowed = p.allowed := by
  induction texts generalizing p with
  | nil => rfl
  | cons text texts ih => exact (ih _).trans (allowed_deny p _)

theorem mem_denied_denyAll : d ∈ (p.denyAll texts).denied ↔
    d ∈ p.denied ∨ ∃ text ∈ texts, prefixNames text = d := by
  induction texts generalizing p with
  | nil => simp [denyAll]
  | cons text texts ih =>
    rw [denyAll, List.foldl_cons, ← denyAll, ih, mem_denied_deny, prefixOf_eq, or_assoc,
      List.exists_mem_cons_iff]
    simp only [eq_comm]

/-- What is allowed is what was allowed and no added prefix takes away. -/
theorem authorize_denyAll : (p.denyAll texts).authorize l operation = .ok () ↔
    p.authorize l operation = .ok () ∧ ∀ text ∈ texts,
      ¬ prefixNames text <+: l ∧ (operation = .delete → ¬ l <+: prefixNames text) := by
  simp only [authorize_eq_ok, allowed_denyAll, mem_denied_denyAll, or_imp, forall_and,
    forall_exists_index, and_imp, forall_apply_eq_imp_iff₂]
  constructor
  · rintro ⟨⟨hcovers, hadded⟩, ⟨hdelete, haddedDelete⟩, hallowed⟩
    exact ⟨⟨hcovers, hdelete, hallowed⟩, hadded, fun text htext hop => haddedDelete hop text htext⟩
  · rintro ⟨⟨hcovers, hdelete, hallowed⟩, hadded, haddedDelete⟩
    exact ⟨⟨hcovers, hadded⟩, ⟨hdelete, fun hop text htext => haddedDelete text htext hop⟩,
      hallowed⟩

/-- Where each allowed prefix is under a denied one, nothing is allowed. -/
theorem authorize_of_allowed_denied (hne : p.allowed ≠ [])
    (h : ∀ a ∈ p.allowed, ∃ d ∈ p.denied, d <+: a) (l : Location) (operation : WriteOperation) :
    p.authorize l operation ≠ .ok () := by
  intro hok
  obtain ⟨hcovers, -, hallowed⟩ := authorize_eq_ok.mp hok
  obtain ⟨a, ha, hal⟩ := hallowed.resolve_left hne
  obtain ⟨d, hd, hda⟩ := h a ha
  exact hcovers d hd (hda.trans hal)

/-- Prefixes with the same names tighten a policy the same way. -/
theorem authorize_denyAll_congr
    (h : ∀ names, (∃ text ∈ texts, prefixNames text = names) ↔
      ∃ text ∈ texts', prefixNames text = names) :
    (p.denyAll texts).authorize l operation = .ok () ↔
      (p.denyAll texts').authorize l operation = .ok () := by
  have hquantified {P : Location → Prop} :
      (∀ text ∈ texts, P (prefixNames text)) ↔ ∀ text ∈ texts', P (prefixNames text) := by
    constructor
    · intro hall text htext
      obtain ⟨text', htext', hnames⟩ := (h _).mpr ⟨text, htext, rfl⟩
      exact hnames ▸ hall text' htext'
    · intro hall text htext
      obtain ⟨text', htext', hnames⟩ := (h _).mp ⟨text, htext, rfl⟩
      exact hnames ▸ hall text' htext'
  rw [authorize_denyAll, authorize_denyAll,
    hquantified (P := fun names => ¬ names <+: l ∧ (operation = .delete → ¬ l <+: names))]

/-- Denying prefixes takes from a policy what they cover, and from what may be deleted what they are
under. Only their names count, and the ways to write one have the same names just if it has no white
space at its ends. A policy whose allowed prefixes are all under denied ones allows nothing. -/
theorem denyAll_tightens (p : WritePolicy) (texts : List String) :
    (∀ l operation, (p.denyAll texts).authorize l operation = .ok () ↔
      p.authorize l operation = .ok () ∧ ∀ text ∈ texts,
        ¬ prefixNames text <+: l ∧ (operation = .delete → ¬ l <+: prefixNames text)) ∧
    (∀ texts', (∀ names, (∃ text ∈ texts, prefixNames text = names) ↔
        ∃ text ∈ texts', prefixNames text = names) →
      ∀ l operation, (p.denyAll texts).authorize l operation = .ok () ↔
        (p.denyAll texts').authorize l operation = .ok ()) ∧
    (∀ x, prefixNames ("./" ++ x ++ "/") = prefixNames x ∧
        prefixNames ("/" ++ x) = prefixNames x ↔ Text.trimText x = x) ∧
    (p.allowed ≠ [] → (∀ a ∈ p.allowed, ∃ d ∈ (p.denyAll texts).denied, d <+: a) →
      ∀ l operation, (p.denyAll texts).authorize l operation ≠ .ok ()) := by
  refine ⟨fun l operation => authorize_denyAll, fun texts' h l operation =>
    authorize_denyAll_congr h, fun x => prefixNames_respelled_iff, ?_⟩
  intro hne h l operation
  rw [← allowed_denyAll p texts] at hne h
  exact authorize_of_allowed_denied hne h l operation

/-- Only `src` may be changed, and it is denied. Written in other ways, in the other order and once
more, the denied prefixes are the same. -/
theorem denyAll_tightens_source :
    (∀ l operation, (({ allowed := [["src"]] } : WritePolicy).denyAll
        ["./src/", "docs"]).authorize l operation ≠ .ok ()) ∧
    ∀ l operation,
      (({ allowed := [["src"]] } : WritePolicy).denyAll
          ["./src/", "docs"]).authorize l operation = .ok () ↔
        (({ allowed := [["src"]] } : WritePolicy).denyAll
          ["/docs", "src", "docs"]).authorize l operation = .ok () := by
  obtain ⟨-, hsame, -, hnothing⟩ :=
    denyAll_tightens { allowed := [["src"]] } ["./src/", "docs"]
  refine ⟨hnothing (by decide) (by decide), hsame ["/docs", "src", "docs"] fun names => ?_⟩
  have hsource : prefixNames "./src/" = ["src"] ∧ prefixNames "src" = ["src"] := by decide
  have hdocs : prefixNames "docs" = ["docs"] ∧ prefixNames "/docs" = ["docs"] := by decide
  simp only [List.exists_mem_cons_iff, List.not_mem_nil, false_and, exists_false, or_false,
    hsource, hdocs]
  tauto

/-- The blank before a name is dropped where it begins the prefix, and kept behind a dot and a
slash. -/
theorem denyAll_dotted_blank :
    (({} : WritePolicy).denyAll [" p"]).authorize [" p"] .write = .ok () ∧
    (({} : WritePolicy).denyAll ["./ p/"]).authorize [" p"] .write =
      .error (.underDenied .write [" p"] [" p"]) := by
  decide

end WritePolicy

end Worksite
