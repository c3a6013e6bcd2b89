import Worksite.Proofs.Policy
import Worksite.Proofs.Sandbox.Below
import Worksite.Proofs.Service.Atomicity

/-!
The policy file under the policy. At the start of a service the policy file is denied by how its
place is shown, and a prefix loses the white space around it: the place is protected just if what
is left of it covers it. Its path has to lead to one place, whether it is folded first or followed.
-/
namespace Worksite

open FileTree Sandbox

variable {t : FileTree} {here names place q d : Location} {p policy : WritePolicy}
  {settings : Settings} {s : Service} {w : Settings.Workspace}

/-! ## Protected locations -/

namespace WritePolicy

/-- A location is shielded if it is neither written nor deleted, also with what is above it. -/
def Shields (p : WritePolicy) (q : Location) : Prop :=
  p.authorize q .write ≠ .ok () ∧ ∀ r, r <+: q → p.authorize r .delete ≠ .ok ()

theorem shields_of_denied (hd : d ∈ p.denied) (h : d <+: q) : p.Shields q := by
  refine ⟨authorize_of_denied hd h, fun r hr => ?_⟩
  rcases List.prefix_or_prefix_of_prefix h hr with hdr | hrd
  · exact authorize_of_denied hd hdr
  · exact authorize_delete_of_denied_below hd hrd

/-- An open policy shields what its one denied prefix covers. -/
theorem shields_deny_iff : (({} : WritePolicy).deny d).Shields q ↔ d <+: q := by
  have hd : (({} : WritePolicy).deny d).denied = [d] := by simp [deny]
  constructor
  · intro h
    by_contra hno
    refine h.1 (authorize_eq_ok.mpr ⟨?_, by simp, .inl (by simp [deny])⟩)
    rw [hd]
    simpa using hno
  · intro h
    exact shields_of_denied (by rw [hd]; exact List.mem_singleton_self d) h

/-- A location without white space at its ends is a prefix as it is shown. -/
theorem prefixOf_display (hq : q ≠ []) (hn : ∀ x ∈ q, Path.IsNormal x)
    (htrim : Text.trimText q.display = q.display) : prefixOf q.display = q := by
  have hshown : q.display = q.relativeText := by simp [Location.display, hq]
  rw [prefixOf, htrim, hshown, namesOf, Path.steps_relativeText hq hn,
    List.filter_eq_self.mpr (by simp), List.map_map]
  exact List.map_id q

end WritePolicy

/-! ## Ways to the policy file -/

namespace Service

/-- The path of the policy file leads to its place whether it is folded first or followed. -/
inductive Direct (w : Settings.Workspace) (t : FileTree) (here root place : Location) : Prop where
  /-- Below the root, whose own path leads to it when it is folded. What is not there is missing:
  nothing else is in its way. -/
  | below {folded l : Location} (relative : Path.isAbsolute w.policyFile = false)
      (spelling : Path.locate here w.root = some folded) (leads : t.canonical folded = .ok root)
      (behind : Path.fold folded (Path.steps w.policyFile) = some (folded ++ l))
      (below : Path.fold root (Path.steps w.policyFile) = some (root ++ l))
      (missing : ∀ c, c <+: folded ++ l → ∀ e, t.canonical c = .error e → e = .noEntry)
  | followed (absolute : Path.isAbsolute w.policyFile)
      (leads : t.canonicalText [] w.policyFile = .ok place)
  /-- Without climbs the file is there, or its path spells the place, where nothing need be. -/
  | straight (absolute : Path.isAbsolute w.policyFile) (noClimb : ".." ∉ Path.segments w.policyFile)
      (found : (∃ l, t.canonicalText [] w.policyFile = .ok l) ∨
        Path.locate here w.policyFile = some place)

theorem ne_empty_of_canonicalText {path : String} {l : Location}
    (h : t.canonicalText here path = .ok l) : path ≠ "" := by
  rintro rfl
  simp [canonicalText] at h

theorem policyPath_of_isAbsolute (h : Path.isAbsolute w.policyFile) :
    w.policyPath = w.policyFile := by
  rw [Settings.Workspace.policyPath, Path.push, if_pos h]

/-- A relative policy file that stays below the root, whose own path does not climb. -/
theorem direct_of_relative {l : Location} {sandbox : Sandbox} (hh : t.Canonical here)
    (hnul : ∀ x ∈ here, x.contains '\x00' = false) (hup : ".." ∉ Path.segments w.root)
    (h : ofRoot t here w.root = .ok sandbox) (hrelative : Path.isAbsolute w.policyFile = false)
    (hl : Path.fold [] (Path.steps w.policyFile) = some l)
    (hnames : Path.locate here w.policyPath = some names)
    (hmissing : ∀ c, c <+: names → ∀ e, t.canonical c = .error e → e = .noEntry) :
    Direct w t here sandbox.root place := by
  have hcan := (ofRoot_eq_ok h).1
  obtain ⟨folded, hfolded, hleads⟩ := canonical_of_canonicalText hh hnul hup hcan
  have hbehind (r : Location) : Path.fold r (Path.steps w.policyFile) = some (r ++ l) := by
    have hfold := Path.fold_append_left r hl
    rwa [List.append_nil] at hfold
  rw [Settings.Workspace.policyPath, Path.locate_push (ne_empty_of_canonicalText hcan) hrelative,
    hfolded, Option.bind_some, hbehind folded] at hnames
  obtain rfl := Option.some.inj hnames
  exact .below hrelative hfolded hleads (hbehind folded) (hbehind sandbox.root) hmissing

/-! ## The start -/

/-- A way that leads to one place is denied as that place is shown. -/
theorem policyFile?_of_direct {sandbox : Sandbox} (hroot : ofRoot t here w.root = .ok sandbox)
    (hnul : ∀ x ∈ sandbox.root, x.contains '\x00' = false)
    (hl : Path.locate here w.policyPath = some names)
    (hp : LeadsTo t names (sandbox.root ++ q)) (hq : q ≠ [])
    (hd : Direct w t here sandbox.root (sandbox.root ++ q)) :
    policyFile? sandbox t w.policyFile = some q.display := by
  have hrelative : (sandbox.root ++ q).relativeTo? sandbox.root = some q :=
    Location.relativeTo?_eq_some.mpr rfl
  unfold policyFile?
  cases hd with
  | @below folded l relative spelling leads behind below missing =>
    have hne := ne_empty_of_canonicalText (ofRoot_eq_ok hroot).1
    have hnames : folded ++ l = names := by
      rw [Settings.Workspace.policyPath, Path.locate_push hne relative, spelling,
        Option.bind_some, behind] at hl
      exact Option.some.inj hl
    rw [← hnames] at hp
    have hplace : existingPrefix t (sandbox.root ++ l).reverse = .ok (sandbox.root ++ q) :=
      existingPrefix_append leads hnul (hp.existingPrefix_eq missing)
    have hlocate : Path.locate sandbox.root w.policyFile = some (sandbox.root ++ l) := by
      rw [Path.locate, relative]
      exact below
    have hresolve : sandbox.resolve t w.policyFile =
        .ok { absolute := sandbox.root ++ q, relative := q } :=
      (resolve_of_locate hlocate).trans (resolveNames_of_existingPrefix _ hplace)
    simp only [relative, hresolve, Bool.false_eq_true, ↓reduceIte]
  | followed absolute leads =>
    simp only [absolute, leads, hrelative, ↓reduceIte, Option.map_some]
  | straight absolute noClimb found =>
    rw [if_pos absolute]
    cases hleads : t.canonicalText [] w.policyFile with
    | ok l =>
      rw [policyPath_of_isAbsolute absolute] at hl
      have hplace : l = sandbox.root ++ q := hp.eq_of_canonicalText absolute noClimb hl hleads
      simp only [hplace, hrelative, Option.map_some]
    | error e =>
      -- what is not there is shown as it is spelled
      have hlocate : Path.locate here w.policyFile = some (sandbox.root ++ q) :=
        found.resolve_left (by simp [hleads])
      have hspelled : spelled (Path.segments w.policyFile) = sandbox.root ++ q := by
        rw [Path.locate, if_pos absolute, Path.fold_of_noClimb [] noClimb] at hlocate
        exact Option.some.inj hlocate
      simp only [Path.slashed_of_spelled absolute hspelled hq]
      simp [Location.display, hq]

/-- Whatever policy it is given, the service starts with one that shields a location. -/
def Protects (settings : Settings) (t : FileTree) (here q : Location) : Prop :=
  ∀ policy s, ofPolicy settings policy t here = .ok s → s.policy.Shields q

theorem protects_iff (h : ofPolicy settings policy t here = .ok s) :
    Protects settings t here q ↔ ∃ text, policyFile? s.sandbox t settings.workspace.policyFile =
      some text ∧ WritePolicy.prefixOf text <+: q := by
  obtain ⟨hroot, -, -, hpool⟩ := ofPolicy_eq_ok.mp h
  constructor
  · intro hprotects
    -- an open policy denies nothing else
    let opened := protect {} s.sandbox t settings.workspace.policyFile
    have hopen : ofPolicy settings {} t here =
        .ok { settings, sandbox := s.sandbox, policy := opened, pool := s.pool } :=
      ofPolicy_eq_ok.mpr ⟨hroot, rfl, rfl, hpool⟩
    have hshields : opened.Shields q := hprotects {} _ hopen
    simp only [opened, protect] at hshields
    split at hshields
    · next text htext => exact ⟨text, htext, WritePolicy.shields_deny_iff.mp hshields⟩
    · exact absurd rfl hshields.1
  · rintro ⟨text, htext, hcovers⟩ policy' s' h'
    obtain ⟨hroot', -, hpolicy', -⟩ := ofPolicy_eq_ok.mp h'
    have hsandbox : s'.sandbox = s.sandbox := Except.ok.inj (hroot'.symm.trans hroot)
    refine WritePolicy.shields_of_denied ?_ hcovers
    rw [hpolicy', protect, hsandbox, htext]
    exact WritePolicy.mem_denied_deny.mpr (.inr rfl)

/-- The place of the policy file is protected just if the prefix that it is denied by covers it,
which can fail for white space at its ends only. -/
theorem policyFile_protected_iff (hn : ∀ x ∈ here, Path.IsNormal x)
    (h : ofPolicy settings policy t here = .ok s)
    (hnul : ∀ x ∈ s.sandbox.root, x.contains '\x00' = false)
    (hl : Path.locate here settings.workspace.policyPath = some names)
    (hp : LeadsTo t names (s.sandbox.root ++ q)) (hq : q ≠ [])
    (hd : Direct settings.workspace t here s.sandbox.root (s.sandbox.root ++ q)) :
    (Protects settings t here q ↔ WritePolicy.prefixOf q.display <+: q) ∧
      (Text.trimText q.display = q.display → Protects settings t here q) := by
  obtain ⟨hroot, -, -, -⟩ := ofPolicy_eq_ok.mp h
  have hfile := policyFile?_of_direct hroot hnul hl hp hq hd
  have hiff : Protects settings t here q ↔ WritePolicy.prefixOf q.display <+: q := by
    rw [protects_iff h, hfile]
    simp
  have hnormal : ∀ x ∈ q, Path.IsNormal x := by
    have hplace := hp.isNormal (Path.isNormal_of_mem_locate hn hl)
    exact fun x hx => hplace x (List.mem_append_right _ hx)
  refine ⟨hiff, fun htrim => hiff.mpr ?_⟩
  rw [WritePolicy.prefixOf_display hq hnormal htrim]

/-! ## A dotted path and a blank -/

/-- A service whose policy file goes by a path that climbs, past a name that is not there. -/
def dottedService : Service :=
  { bareService with settings := { workspace := { root := "/ws", policyFile := "a/../p" } } }

theorem ofPolicy_dotted : ofPolicy dottedService.settings {} bare [] = .ok dottedService := by
  have hp : dottedService.sandbox.resolve bare "a/../p" =
      .ok { absolute := ["ws", "p"], relative := ["p"] } := by
    have hl : Path.locate dottedService.sandbox.root "a/../p" = some ["ws", "p"] := by decide
    rw [Sandbox.resolve_of_locate hl]
    cbv
  exact ofPolicy_of_resolve (by cbv) rfl hp (by decide) rfl

theorem canonical_bare : ∀ c, c <+: ["ws", "p"] → ∀ e, bare.canonical c = .error e →
    e = .noEntry := by
  intro c hc e he
  rcases List.prefix_concat_iff.mp (show c <+: ["ws"] ++ ["p"] from hc) with rfl | hc
  · have hmissing : bare.canonical ["ws", "p"] = .error .noEntry := by cbv
    exact Except.error.inj (he.symm.trans hmissing)
  · -- the root and what is above it are there
    have hroot := (anchored_of_ofPolicy (canonical_nil bare) ofPolicy_bare).canonical.of_prefix hc
    have hnul : ∀ x ∈ ["ws"], x.contains '\x00' = false := List.forall_mem_singleton.mpr (by cbv)
    rw [canonical_of_nulFree fun x hx => hnul x (hc.subset hx), follow_canonical hroot] at he
    simp at he

theorem policyFile_protected_dotted : Protects dottedService.settings bare [] ["p"] := by
  have hroot : ofRoot bare [] "/ws" = .ok dottedService.sandbox := by cbv
  have hpath : dottedService.settings.workspace.policyPath = "/ws/a/../p" := by cbv
  have hl : Path.locate [] dottedService.settings.workspace.policyPath = some ["ws", "p"] := by
    rw [hpath]
    decide
  have hfound : existingPrefix bare ["p", "ws"] = .ok ["ws", "p"] := by cbv
  have hp : LeadsTo bare ["ws", "p"] ["ws", "p"] := leadsTo_of_existingPrefix hfound
  have hdirect : Direct dottedService.settings.workspace bare [] ["ws"] ["ws", "p"] :=
    direct_of_relative (w := dottedService.settings.workspace) (l := ["p"]) (canonical_nil bare)
      (by simp) (by decide) hroot rfl (by decide) hl canonical_bare
  have hnul : ∀ x ∈ ["ws"], x.contains '\x00' = false := List.forall_mem_singleton.mpr (by cbv)
  have hiff := policyFile_protected_iff (by simp) ofPolicy_dotted hnul hl hp (by simp) hdirect
  exact hiff.2 (by decide)

/-- The service for a policy file whose name begins with a space. -/
def blankService : Service :=
  { bareService with settings := { workspace := { root := "/ws", policyFile := " p" } } }

theorem ofPolicy_blank : ofPolicy blankService.settings {} bare [] = .ok blankService := by
  have hp : blankService.sandbox.resolve bare " p" =
      .ok { absolute := ["ws", " p"], relative := [" p"] } := by
    have hl : Path.locate blankService.sandbox.root " p" = some ["ws", " p"] := by decide
    rw [Sandbox.resolve_of_locate hl]
    cbv
  exact ofPolicy_of_resolve (by cbv) rfl hp (by decide) rfl

/-- A policy file whose name begins with a space is not protected: another name is denied. -/
theorem policyFile_unprotected_blank :
    Path.locate [] blankService.settings.workspace.policyPath = some ["ws", " p"] ∧
      LeadsTo bare ["ws", " p"] ["ws", " p"] ∧
      ofPolicy blankService.settings {} bare [] = .ok blankService ∧
      blankService.policy.denied = [["p"]] ∧
      blankService.policy.authorize [" p"] .write = .ok () ∧
      ¬ Protects blankService.settings bare [] [" p"] := by
  have hpath : blankService.settings.workspace.policyPath = "/ws/ p" := by cbv
  have hallowed : blankService.policy.authorize [" p"] .write = .ok () := by decide
  have hfound : existingPrefix bare [" p", "ws"] = .ok ["ws", " p"] := by cbv
  refine ⟨?_, leadsTo_of_existingPrefix hfound, ofPolicy_blank, rfl, hallowed,
    fun h => (h {} blankService ofPolicy_blank).1 hallowed⟩
  rw [hpath]
  decide

end Service

end Worksite
