import Worksite.Proofs.Service.Restart

/-!
Exposure: what a caller can change of all that a start looks at. What the policy allows to be
deleted a request deletes, and what is missing on the way to an allowed write a request makes, so
that nothing less than the condition for restarts keeps callers from what a start looks at.
-/
namespace Worksite

open FileTree

variable {t : FileTree} {here q x : Location} {names : List String} {path : String}

namespace Sandbox

theorem seated_of_mem_prefixTrail (hx : x ∈ prefixTrail t names) : t.Seated x := by
  induction names with
  | nil => simp [prefixTrail] at hx
  | cons name above ih =>
    rw [prefixTrail, List.mem_append] at hx
    rcases hx with hx | hx
    · exact seated_of_mem_followTrail (canonical_nil t) hx
    · split at hx
      · exact ih hx
      · simp at hx

end Sandbox

namespace Service

variable {s : Service} {settings : Settings} {w : Workspace} {i : IndexSnapshot}
  {p : WritePolicy}

/-- A start looks at nothing but what stands in directories. -/
theorem seated_of_mem_startTrail (hh : t.Canonical here) (hx : x ∈ startTrail settings t here) :
    t.Seated x := by
  simp only [startTrail, List.mem_append] at hx
  rcases hx with hx | hx | hx
  · exact seated_of_mem_readTrail hh hx
  · exact seated_of_mem_readTrail hh hx
  · split at hx
    · unfold policyFileTrail at hx
      split_ifs at hx
      · exact seated_of_mem_followTrail (canonical_start _ (canonical_nil t)) hx
      · unfold Sandbox.resolveTrail at hx
        split at hx
        · exact Sandbox.seated_of_mem_prefixTrail hx
        · simp at hx
    · simp at hx

/-- A location below the root that a request can name. -/
structure Nameable (s : Service) (q : Location) : Prop where
  proper : q ≠ []
  names : ∀ x ∈ q, Path.IsName x ∧ x.utf8ByteSize ≤ maxName
  noSlash : ∀ x ∈ q, '/' ∉ x.toList
  checked : checkPath (s.sandbox.root ++ q) = .ok ()

theorem Nameable.names_below_root (hq : s.Nameable q) (ha : s.sandbox.Anchored t) :
    ∀ x ∈ s.sandbox.root ++ q, Path.IsName x ∧ x.utf8ByteSize ≤ maxName := by
  intro x hx
  rcases List.mem_append.mp hx with hx | hx
  · exact ha.canonical.names x hx
  · exact hq.names x hx

theorem authorize_of_policy {p : Place} {operation : WriteOperation} (hp : p.relative ≠ [])
    (h : s.policy.authorize p.relative operation = .ok ()) : s.authorize p operation = .ok () := by
  simp [authorize, Place.isRoot, hp, h]

/-- A request deletes what the policy allows to be deleted. -/
theorem delete_of_authorized (ha : s.sandbox.Anchored w.tree) (hc : w.tree.Closed)
    (hr : s.settings.workspace.readOnly = false) (hq : s.Nameable q)
    (hs : w.tree.Seated (s.sandbox.root ++ q)) (he : w.tree.entry? (s.sandbox.root ++ q) ≠ none)
    (hauth : s.policy.authorize q .delete = .ok ()) :
    entry? (s.perform w (.delete { path := q.relativeText, recursive := true })).2.tree
      (s.sandbox.root ++ q) = none := by
  obtain ⟨e, he⟩ := Option.ne_none_iff_exists'.mp he
  have hn := hq.names_below_root ha
  have hnul := contains_nul_of_checkPath hq.checked
  obtain ⟨d, x, rfl, hcan, hdir⟩ := hs.exists_concat hq.proper
  have hresolve := Sandbox.resolveEntry_of_clear hq.noSlash hn (fun y hy => hnul y (by
    rw [← List.append_assoc]
    exact List.mem_append_left _ hy)) (hcan.clear hdir)
  obtain ⟨t', hdelete⟩ := Place.delete_of_there (p := ⟨s.sandbox.root ++ (d ++ [x]), d ++ [x]⟩)
    (List.append_assoc _ _ _).symm hq.proper hcan hdir (hq.names x (by simp)).1
    (hq.names x (by simp)).2 hq.checked he
  have hstraight : w.tree.Straight (s.sandbox.root ++ (d ++ [x])).dropLast := by
    rw [← List.append_assoc, List.dropLast_concat]
    exact hcan.straight
  have hremoved := (Place.delete_eq_ok rfl hc hstraight hdelete).2
  have hperform : ∃ a, s.delete w.tree
      { path := Location.relativeText (d ++ [x]), recursive := true } = .ok (a, t') := by
    simp only [delete, ensureWritable_of_not_readOnly hr, hresolve, ok_bind,
      authorize_of_policy (p := ⟨s.sandbox.root ++ (d ++ [x]), d ++ [x]⟩) hq.proper hauth, hdelete]
    exact ⟨_, rfl⟩
  obtain ⟨a, hperform⟩ := hperform
  simp only [perform, hperform]
  exact hremoved.gone _ (List.prefix_refl _)

/-- A name that a request can give to what is not there. -/
structure Fresh (x : String) : Prop where
  name : Path.IsName x
  noSlash : '/' ∉ x.toList
  noNul : x.contains '\x00' = false

/-- A request makes what is missing, over a clear way, where the policy allows to write below
it. -/
theorem writeFile_makes_directory {x : String} (ha : s.sandbox.Anchored w.tree)
    (hc : w.tree.Closed) (hr : s.settings.workspace.readOnly = false) (hq : s.Nameable q)
    (hclear : w.tree.Clear (s.sandbox.root ++ q))
    (hmissing : w.tree.entry? (s.sandbox.root ++ q) = none) (hx : Fresh x)
    (hauth : s.policy.authorize (q ++ [x]) .write = .ok ()) :
    FileTree.isDirectory (s.perform w (.writeFile {
      path := Location.relativeText (q ++ [x])
      content := ""
      createParents := true })).2.tree (s.sandbox.root ++ q) := by
  have hn := hq.names_below_root ha
  have hnul : ∀ y ∈ s.sandbox.root ++ (q ++ [x]), y.contains '\x00' = false := by
    intro y hy
    rw [← List.append_assoc, List.mem_append, List.mem_singleton] at hy
    rcases hy with hy | rfl
    · exact contains_nul_of_checkPath hq.checked y hy
    · exact hx.noNul
  have hslash : ∀ y ∈ q ++ [x], '/' ∉ y.toList := by
    intro y hy
    rw [List.mem_append, List.mem_singleton] at hy
    rcases hy with hy | rfl
    · exact hq.noSlash y hy
    · exact hx.noSlash
  -- the name below is there to have a parent made, and need not come to anything itself
  have hresolve := Sandbox.resolve_below_missing hn hx.name hslash hnul hclear hmissing
  have hplan : s.planWrite w.tree {
      path := Location.relativeText (q ++ [x])
      content := ""
      createParents := true } =
        .ok (⟨s.sandbox.root ++ (q ++ [x]), q ++ [x]⟩, "".toUTF8) := by
    simp only [planWrite, ensureWritable_of_not_readOnly hr, hresolve, ok_bind,
      authorize_of_policy (p := ⟨s.sandbox.root ++ (q ++ [x]), q ++ [x]⟩) (by simp) hauth]
    rfl
  simp only [perform, writeFile, hplan]
  exact Place.write_makes_directory (List.append_assoc _ _ _).symm (by simp) hc hn hq.checked
    hclear (Sandbox.resolve_eq_ok ha hresolve).2

theorem fresh_passingName (n : Nat) : Fresh (passingName n) where
  name := by
    have hlen : 4 ≤ (passingName n).length := by
      rw [← String.length_toList, toList_passingName, List.length_append]
      exact Nat.le_add_right 4 _
    refine ⟨?_, ?_, ?_⟩ <;>
      · intro h
        rw [h] at hlen
        exact absurd hlen (by decide)
  noSlash := not_mem_passingName (by decide) (by decide)
  noNul := contains_nul_passingName n

/-- Below what may be written something else may be written, as no list of denials is endless. -/
theorem exists_fresh_below {c : Location} (h : p.authorize c .write = .ok ()) :
    ∃ x, Fresh x ∧ p.authorize (c ++ [x]) .write = .ok () := by
  have hinj : Function.Injective fun n => c ++ [passingName n] := by
    intro n m h
    exact passingName_injective (List.cons.inj (List.append_cancel_left h)).1
  obtain ⟨_, ⟨n, rfl⟩, hn⟩ :=
    (Set.infinite_range_of_injective hinj).exists_notMem_finite (List.finite_toSet p.denied)
  obtain ⟨hdenied, -, hallowed⟩ := WritePolicy.authorize_eq_ok.mp h
  refine ⟨passingName n, fresh_passingName n, WritePolicy.authorize_eq_ok.mpr ⟨?_, by simp, ?_⟩⟩
  · intro d hd hpre
    rcases List.prefix_concat_iff.mp hpre with rfl | hpre
    · exact hn hd
    · exact hdenied d hd hpre
  · exact hallowed.imp_right fun ⟨a, ha, hac⟩ => ⟨a, ha, hac.trans (List.prefix_append _ _)⟩

/-! ## The condition for restarts is exact -/

/-- Without backups, where what counts can be named, and denials lie below directories. -/
structure Regular (s : Service) (settings : Settings) (t : FileTree) (here : Location) : Prop where
  looked : ∀ q, q ≠ [] → s.sandbox.root ++ q ∈ startTrail settings t here → s.Nameable q
  allowed : ∀ a ∈ s.policy.allowed, a ≠ [] → s.Nameable a
  denied : ∀ d ∈ s.policy.denied, ∀ q, q <+: d → q ≠ d →
    ∀ e, t.entry? (s.sandbox.root ++ q) = some e → e = .directory
  noBackup : s.policy.backupOnWrite = false

theorem Regular.noBackup_at (h : s.Regular settings t here) (q : Location) :
    NoBackup s.policy q := by
  intro hb
  simp [h.noBackup] at hb

/-- Where something may be written below a location that can be named, something may be written at
one. -/
theorem Regular.exists_nameable (h : s.Regular settings t here) {r : Location}
    (hq : s.Nameable q) (hqr : q <+: r) (hr : s.policy.authorize r .write = .ok ()) :
    ∃ c, q <+: c ∧ s.Nameable c ∧ s.policy.authorize c .write = .ok () := by
  obtain ⟨hdenied, -, hallowed⟩ := WritePolicy.authorize_eq_ok.mp hr
  have hfree (c : Location) (hc : c <+: r) : ∀ d ∈ s.policy.denied, ¬ d <+: c :=
    fun d hd hdc => hdenied d hd (hdc.trans hc)
  rcases hallowed with hall | ⟨a, ha, har⟩
  · exact ⟨q, List.prefix_refl q, hq,
      WritePolicy.authorize_eq_ok.mpr ⟨hfree q hqr, by simp, .inl hall⟩⟩
  · rcases List.prefix_or_prefix_of_prefix har hqr with haq | hqa
    · exact ⟨q, List.prefix_refl q, hq,
        WritePolicy.authorize_eq_ok.mpr ⟨hfree q hqr, by simp, .inr ⟨a, ha, haq⟩⟩⟩
    · have hne : a ≠ [] := by
        rintro rfl
        exact hq.proper (List.prefix_nil.mp hqa)
      exact ⟨a, hqa, h.allowed a ha hne,
        WritePolicy.authorize_eq_ok.mpr ⟨hfree a har, by simp, .inr ⟨a, ha, List.prefix_refl a⟩⟩⟩

/-- Where something may be written at or below what is missing, a request makes it. -/
theorem Regular.exists_making (h : s.Regular settings t here) (ha : s.sandbox.Anchored t)
    (hc : t.Closed) (hr : s.settings.workspace.readOnly = false) (hq : s.Nameable q)
    (hs : t.Seated (s.sandbox.root ++ q)) (he : t.entry? (s.sandbox.root ++ q) = none)
    {r : Location} (hqr : q <+: r) (hauth : s.policy.authorize r .write = .ok ()) :
    ∃ request, entry? (s.perform { tree := t, index := i } request).2.tree (s.sandbox.root ++ q) ≠
      none := by
  obtain ⟨c, hqc, hcname, hcauth⟩ := h.exists_nameable hq hqr hauth
  obtain ⟨x, hfresh, hxauth⟩ := exists_fresh_below hcauth
  have hpre : s.sandbox.root ++ q <+: s.sandbox.root ++ c :=
    (List.prefix_append_right_inj _).mpr hqc
  have hclear : t.Clear (s.sandbox.root ++ c) := by
    obtain ⟨d, y, rfl, hcan, hdir⟩ := hs.exists_concat hq.proper
    rw [← List.append_assoc] at he hpre
    exact clear_below_missing hc hcan hdir he hpre
  have hdir := writeFile_makes_directory (w := { tree := t, index := i }) ha hc hr hcname hclear
    (hc.absent_of_absent he hpre) hfresh hxauth
  refine ⟨.writeFile { path := Location.relativeText (c ++ [x]), content := "" }, ?_⟩
  intro hnone
  -- what stands at the end of the way cannot be without what is on it
  have hclosed := (effect_perform (w := { tree := t, index := i }) ha hc
    (.writeFile { path := Location.relativeText (c ++ [x]), content := "" })).closed hc
  have hgone := hclosed.absent_of_absent hnone hpre
  rw [isDirectory_iff] at hdir
  exact absurd (hdir.symm.trans hgone) (by simp)

/-- What is there and is not guarded may be deleted. -/
theorem Regular.authorize_delete (h : s.Regular settings t here) {e : Entry}
    (he : t.entry? (s.sandbox.root ++ q) = some e) (hg : ¬ Guarded s.policy q (some e)) :
    s.policy.authorize q .delete = .ok () := by
  by_contra hdelete
  by_cases hd : e = .directory
  · subst hd
    exact hg hdelete
  · have hwrite : s.policy.authorize q .write = .ok () := by
      by_contra hwrite
      have hall := And.intro hwrite (And.intro hdelete (h.noBackup_at q))
      cases e with
      | directory => exact hd rfl
      | file | link | socket => exact hg hall
    -- a denial strictly below would make it a directory
    obtain ⟨hdenied, -, hallowed⟩ := WritePolicy.authorize_eq_ok.mp hwrite
    refine hdelete (WritePolicy.authorize_eq_ok.mpr ⟨hdenied, fun _ d hmem hqd => ?_, hallowed⟩)
    by_cases heq : q = d
    · exact hdenied d hmem (heq ▸ List.prefix_refl q)
    · exact hd (h.denied d hmem q hqd heq e he)

/-- The condition for restarts is exact: where it fails, a request changes what the start looked
at. -/
theorem sealed_iff (hc : t.Closed) (hh : t.Canonical here) (h : ofSettings settings t here = .ok s)
    (hu : s.Regular settings t here) : s.Sealed settings t here ↔
      ∀ requests, t.Agree (s.run { tree := t, index := i } requests).tree
        (startTrail settings t here) := by
  obtain ⟨policy, -, hstart⟩ := ofSettings_eq_ok.mp h
  have ha := anchored_of_ofPolicy hh hstart
  constructor
  · intro hs requests
    exact run_agree requests hc hh h hs
  · intro hsame
    by_cases hr : s.settings.workspace.readOnly
    · exact .inl hr
    · right
      intro q hq hx
      by_contra hg
      have hname := hu.looked q hq hx
      have hseat := seated_of_mem_startTrail hh hx
      cases he : t.entry? (s.sandbox.root ++ q) with
      | none =>
        obtain ⟨r, hqr, hauth⟩ : ∃ r, q <+: r ∧ s.policy.authorize r .write = .ok () := by
          by_contra hno
          rw [he] at hg
          exact hg ⟨fun r hqr hauth => hno ⟨r, hqr, hauth⟩, hu.noBackup_at q⟩
        obtain ⟨request, hmade⟩ := hu.exists_making (i := i) ha hc (by simpa using hr) hname hseat
          he hqr hauth
        exact hmade ((hsame [request] _ hx).trans he)
      | some e =>
        have hauth := hu.authorize_delete he (he ▸ hg)
        have hgone := delete_of_authorized (w := { tree := t, index := i }) ha hc
          (by simpa using hr) hname hseat (by simp [he]) hauth
        have hkept := hsame [.delete { path := Location.relativeText q, recursive := true }] _ hx
        exact absurd (hgone.symm.trans (hkept.trans he)) (by simp)

end Service

end Worksite
