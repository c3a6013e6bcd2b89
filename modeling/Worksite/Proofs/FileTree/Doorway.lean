import Worksite.Proofs.FileTree.Clear
import Worksite.Proofs.FileTree.Ways

/-!
Doorways: names of a directory under which sockets come and go. Neither a socket that is put there
nor one that is taken away moves the way that leads there.
-/
namespace Worksite.FileTree

variable {t t' : FileTree} {above d l p : Location} {s : String} {last : Bool} {k n : Nat}

/-- The names `above` lead to the directory `d`, where nothing but a socket stands under `s`. -/
structure Doorway (t : FileTree) (above d : Location) (s : String) : Prop where
  check : checkPath (above ++ [s]) = .ok ()
  names : ∀ x ∈ above ++ [s], Path.IsName x
  size : s.utf8ByteSize ≤ maxName
  leads : t.follow true maxLinks [] above = .ok d
  directory : t.isDirectory d
  held : ∀ e, t.entry? (d ++ [s]) = some e → ∃ n, e = .socket n

namespace Doorway

theorem seat (h : t.Doorway above d s) : t.seat (above ++ [s]) = .ok (d ++ [s]) := by
  simp [FileTree.seat, h.check, h.leads, h.directory, Nat.not_lt.mpr h.size]

/-- The doorway is found through its directory. -/
theorem follow (h : t.Doorway above d s) :
    ∃ k, t.follow true maxLinks [] (above ++ [s]) = t.follow true k d [s] := by
  obtain ⟨k, -, hk⟩ := follow_append_of_ok (b := [s]) (by simp) h.leads
  exact ⟨k, hk⟩

theorem find_vacant (h : t.Doorway above d s) (he : t.entry? (d ++ [s]) = none) :
    t.find true (above ++ [s]) = .error .noEntry := by
  obtain ⟨k, hk⟩ := h.follow
  rw [follow_absent h.directory (h.names s (by simp)) he, if_neg (Nat.not_lt.mpr h.size)] at hk
  simp [find, h.check, hk]

theorem find_socket (h : t.Doorway above d s) (he : t.entry? (d ++ [s]) = some (.socket n)) :
    t.find true (above ++ [s]) = .ok (.socket n) := by
  obtain ⟨k, hk⟩ := h.follow
  have hcourse : t.course true d [s] = .arrived (d ++ [s]) := by
    rw [course_cons true [] h.directory (h.names s (by simp)) h.size, he]
    rfl
  have harrived : t.follow true k d [s] = .ok (d ++ [s]) := follow_eq_ok.mpr (.inl hcourse)
  exact find_eq_ok.mpr ⟨h.check, _, hk.trans harrived, he⟩

/-- Whatever stands in the doorway is gone once it is removed. -/
theorem remove (h : t.Doorway above d s) :
    (t.remove (above ++ [s])).toOption.getD t = t.erase (d ++ [s]) := by
  rw [FileTree.remove, h.seat, ok_bind]
  cases he : t.entry? (d ++ [s]) with
  | none => simp [erase_of_absent, he, Except.toOption]
  | some e =>
    obtain ⟨n, rfl⟩ := h.held e he
    rfl

/-- Only what stands in the doorway may change. -/
theorem of_same (h : t.Doorway above d s)
    (hsame : ∀ x, x ≠ d ++ [s] → t'.entry? x = t.entry? x)
    (hheld : ∀ e, t'.entry? (d ++ [s]) = some e → ∃ n, e = .socket n) :
    t'.Doorway above d s := by
  have hne : ∀ x e, t.entry? x = some e → (∀ n, e ≠ .socket n) → x ≠ d ++ [s] := by
    rintro x e he hsocket rfl
    obtain ⟨n, hn⟩ := h.held e he
    exact hsocket n hn
  have hdirectory : ∀ x, t.isDirectory x → t'.isDirectory x := by
    intro x hx
    rw [isDirectory_iff] at hx ⊢
    rw [hsame x (hne x _ hx (by simp)), hx]
  have hways : t.KeepsWays [] t' :=
    { directory := hdirectory
      link x target _ he := by rw [hsame x (hne x _ he (by simp)), he]
      names := by simp
      dead := by simp }
  have hcanonical : t'.Canonical d := by
    refine (canonical_of_follow (canonical_nil t) h.leads).congr fun q hq => hsame q ?_
    rintro rfl
    exact absurd hq.length_le (by simp)
  exact { h with
    leads := hways.follow le_rfl (canonical_nil t) h.leads hcanonical
    directory := hdirectory d h.directory
    held := hheld }

theorem put (h : t.Doorway above d s) (n : Nat) :
    (t.put (d ++ [s]) (.socket n)).Doorway above d s := by
  refine h.of_same (fun x hx => entry?_put_of_ne hx) fun e he => ?_
  rw [entry?_put_self (by simp)] at he
  exact ⟨n, (Option.some.inj he).symm⟩

theorem erase (h : t.Doorway above d s) : (t.erase (d ++ [s])).Doorway above d s := by
  refine h.of_same (fun x hx => entry?_erase_of_ne hx) fun e he => ?_
  rw [entry?_erase_self (by simp)] at he
  cases he

end Doorway

/-- A seat where nothing stands is a doorway. -/
theorem doorway_of_seat (hn : ∀ x ∈ l, Path.IsName x) (hs : t.seat l = .ok p)
    (he : t.entry? p = none) :
    ∃ above d s, l = above ++ [s] ∧ p = d ++ [s] ∧ t.Doorway above d s := by
  obtain ⟨⟨⟩, hcheck, hs⟩ := bind_eq_ok.mp hs
  obtain ⟨d, hleads, hs⟩ := bind_eq_ok.mp hs
  split_ifs at hs with hdir hsize
  obtain rfl := (Except.ok.inj hs).symm
  cases l using List.reverseRecOn with
  | nil =>
    -- the root itself is a directory
    simp [isDirectory, show t.entry? d = none by simpa using he] at hdir
  | append_singleton above s =>
    rw [List.dropLast_concat] at hleads
    simp only [List.getLast?_concat, Option.toList_some] at he
    exact ⟨above, d, s, rfl, by simp, hcheck, hn, by simpa using hsize, hleads, by simpa using hdir,
      by simp [he]⟩

/-- A name that leads somewhere is an entry of a directory. -/
theorem entry_of_follow {x : Location} (hs : Path.IsName s)
    (h : t.follow last k d [s] = .ok x) :
    t.isDirectory d ∧ s.utf8ByteSize ≤ maxName ∧ t.entry? (d ++ [s]) ≠ none := by
  have hdir : t.isDirectory d := by
    by_contra hdir
    rw [FileTree.follow, course, if_pos (by simp [hdir])] at h
    cases h
  have hpresent : t.entry? (d ++ [s]) ≠ none := by
    intro he
    rw [follow_absent hdir hs he] at h
    cases h
  refine ⟨hdir, ?_, hpresent⟩
  by_contra hsize
  rw [FileTree.follow, course, if_neg (by simp [hdir]), if_neg (by simp [hs.1, hs.2.1]),
    if_neg hs.2.2, if_pos (Nat.lt_of_not_le hsize)] at h
  cases h

/-- Nothing is made where names lead to a directory. -/
theorem makeDirectories_of_leads (hn : ∀ x ∈ l, Path.IsName x) (h : t.leadsToDirectory l) :
    t.makeDirectories l.reverse = (.ok (), t) := by
  cases l using List.reverseRecOn with
  | nil => rfl
  | append_singleton above s =>
    obtain ⟨hcheck, x, hfollow, -⟩ := find_eq_ok.mp (leadsToDirectory_eq.mp h)
    cases hleads : t.follow true maxLinks [] above with
    | error e =>
      rw [follow_append_of_error (by simp) hleads] at hfollow
      cases hfollow
    | ok d =>
      obtain ⟨k, -, hk⟩ := follow_append_of_ok (b := [s]) (by simp) hleads
      obtain ⟨hdir, hsize, hpresent⟩ := entry_of_follow (hn s (by simp)) (hk.symm.trans hfollow)
      obtain ⟨e, he⟩ := Option.ne_none_iff_exists'.mp hpresent
      have hmake : t.makeDirectory (above ++ [s]) = .error .exists := by
        simp [makeDirectory, FileTree.seat, hcheck, hleads, hdir, Nat.not_lt.mpr hsize, he]
      simp [makeDirectories, hmake, h]

theorem Doorway.leadsToDirectory (h : t.Doorway above d s) : t.leadsToDirectory above := by
  have hcheck := checkPath_above h.check (List.prefix_append above [s])
  have hd := isDirectory_iff.mp h.directory
  exact leadsToDirectory_eq.mpr (find_eq_ok.mpr ⟨hcheck, d, h.leads, hd⟩)

/-- The directory of a doorway is there. -/
theorem Doorway.makeDirectories (h : t.Doorway above d s) :
    t.makeDirectories above.reverse = (.ok (), t) :=
  makeDirectories_of_leads (fun x hx => h.names x (by simp [hx])) h.leadsToDirectory

end Worksite.FileTree
