import Worksite.Proofs.FileTree.Trail
import Worksite.Proofs.Policy
import Worksite.Proofs.Service.Start

/-!
Restarts: a service that starts again after any run has the policy it had before, where the policy
denies the changes of all that the start looks at.
-/
namespace Worksite

open FileTree

variable {t t' : FileTree} {here q : Location} {names : List String} {path : String}

/-! ## What a start looks at -/

namespace Sandbox

variable {s : Sandbox}

def prefixTrail (t : FileTree) : List String → List Location
  | [] => []
  | name :: above =>
    t.followTrail true maxLinks [] (name :: above).reverse ++
      match t.canonical (name :: above).reverse with
      | .error .noEntry => prefixTrail t above
      | _ => []

theorem existingPrefix_congr (h : t.Agree t' (prefixTrail t names)) :
    existingPrefix t' names = existingPrefix t names := by
  induction names with
  | nil => rfl
  | cons name above ih =>
    rw [prefixTrail, agree_append] at h
    rw [existingPrefix, existingPrefix, canonical_congr h.1]
    split
    · rfl
    · next hc =>
      rw [hc] at h
      rw [ih h.2]
    · rfl

theorem mem_prefixTrail (hn : ∀ s ∈ names, Path.IsName s) (h : t.LinkFree names.reverse) :
    ∀ x ∈ prefixTrail t names, x <+: names.reverse := by
  induction names with
  | nil => simp [prefixTrail]
  | cons name above ih =>
    have hn' : ∀ s ∈ (name :: above).reverse, Path.IsName s :=
      fun s hs => hn s (List.mem_reverse.mp hs)
    have hspelled := spelled_of_isName hn'
    have habove : above.reverse <+: (name :: above).reverse := by simp
    intro x hx
    rw [prefixTrail, List.mem_append] at hx
    rcases hx with hx | hx
    · have hfollow := (follow_of_linkFree (t := t) (l := []) true maxLinks (not_mem_climb hn')
        (by rwa [hspelled])).2 x hx
      rwa [hspelled] at hfollow
    · split at hx
      · exact (ih (fun s hs => hn s (List.mem_cons_of_mem _ hs)) (h.of_prefix habove) x hx).trans
          habove
      · simp at hx

def resolveTrail (s : Sandbox) (t : FileTree) (path : String) : List Location :=
  match Path.locate s.root path with
  | some names => prefixTrail t names.reverse
  | none => []

theorem resolve_congr (h : t.Agree t' (s.resolveTrail t path)) :
    s.resolve t' path = s.resolve t path := by
  unfold resolve
  unfold resolveTrail at h
  split
  · rfl
  · next names hl =>
    rw [hl] at h
    unfold resolveNames
    rw [existingPrefix_congr h]

theorem ofRoot_congr (h : t.Agree t' (t.readTrail here path)) :
    ofRoot t' here path = ofRoot t here path := by
  unfold ofRoot
  rw [canonicalText_congr (agree_append.mp h).1]
  cases hl : t.canonicalText here path with
  | error e => rfl
  | ok l =>
    have hd : t'.isDirectory l = t.isDirectory l := by
      unfold FileTree.isDirectory
      rw [entry?_congr_of_canonicalText h hl]
    simp only [hd]

end Sandbox

namespace Service

variable {s : Service} {settings : Settings} {i : IndexSnapshot} {o : Option WriteOperation}
  {p : WritePolicy}

/-- What is looked at to find the policy file below the root. -/
def policyFileTrail (s : Sandbox) (t : FileTree) (path : String) : List Location :=
  if Path.isAbsolute path then t.textTrail [] path else s.resolveTrail t path

theorem policyFile?_congr {s : Sandbox} (h : t.Agree t' (policyFileTrail s t path)) :
    policyFile? s t' path = policyFile? s t path := by
  unfold policyFile?
  unfold policyFileTrail at h
  split_ifs at h ⊢
  · rw [canonicalText_congr h]
  · rw [Sandbox.resolve_congr h]

/-- All that a start looks at. -/
def startTrail (settings : Settings) (t : FileTree) (here : Location) : List Location :=
  t.readTrail here settings.workspace.policyPath ++ (t.readTrail here settings.workspace.root ++
    match Sandbox.ofRoot t here settings.workspace.root with
    | .ok s => policyFileTrail s t settings.workspace.policyFile
    | .error _ => [])

theorem ofPolicy_congr {policy : WritePolicy}
    (hroot : t.Agree t' (t.readTrail here settings.workspace.root))
    (hfile : ∀ s, Sandbox.ofRoot t here settings.workspace.root = .ok s →
      t.Agree t' (policyFileTrail s t settings.workspace.policyFile)) :
    ofPolicy settings policy t' here = ofPolicy settings policy t here := by
  rw [ofPolicy_eq, ofPolicy_eq, Sandbox.ofRoot_congr hroot]
  cases hs : Sandbox.ofRoot t here settings.workspace.root with
  | error e => rfl
  | ok s => simp only [Except.mapError, ok_bind, protect, policyFile?_congr (hfile s hs)]

/-- Trees that agree on what a start looks at give the same start. -/
theorem ofSettings_congr (h : t.Agree t' (startTrail settings t here)) :
    ofSettings settings t' here = ofSettings settings t here := by
  simp only [startTrail, agree_append] at h
  obtain ⟨hload, hroot, hfile⟩ := h
  have hpolicy : loadPolicy t' here settings.workspace.policyPath =
      loadPolicy t here settings.workspace.policyPath := by
    unfold loadPolicy
    rw [readText_congr hload]
  have hstart (policy : WritePolicy) :
      ofPolicy settings policy t' here = ofPolicy settings policy t here :=
    ofPolicy_congr hroot fun s hs => by rwa [hs] at hfile
  unfold ofSettings
  simp only [hpolicy, hstart]

/-! ## What no request changes -/

/-- No write keeps its backup at a location. -/
def NoBackup (p : WritePolicy) (q : Location) : Prop :=
  p.backupOnWrite → ∀ r, Writing.backupOf r = q → p.authorize r .write ≠ .ok ()

theorem noBackup_of_getLast? {p : WritePolicy} {q : Location} (hq : q ≠ [])
    (h : ∀ name, q.getLast? ≠ some (name ++ ".bak")) : NoBackup p q := by
  rintro - r rfl
  cases r using List.reverseRecOn with
  | nil => exact absurd rfl hq
  | append_singleton d name => exact absurd (by simp) (h name)

/-- The policy denies every change of what stands at a location below the root. -/
def Guarded (p : WritePolicy) (q : Location) : Option Entry → Prop
  | none => (∀ r, q <+: r → p.authorize r .write ≠ .ok ()) ∧ NoBackup p q
  | some .directory => p.authorize q .delete ≠ .ok ()
  | some _ => p.authorize q .write ≠ .ok () ∧ p.authorize q .delete ≠ .ok () ∧ NoBackup p q

theorem Guarded.write {e : Option Entry} (h : Guarded p q e) (he : e ≠ some .directory) :
    p.authorize q .write ≠ .ok () := by
  cases e with
  | none => exact h.1 q (List.prefix_refl q)
  | some e =>
    cases e with
    | directory => exact absurd rfl he
    | _ => exact h.1

theorem Guarded.noBackup {e : Option Entry} (h : Guarded p q e) (he : e ≠ some .directory) :
    NoBackup p q := by
  cases e with
  | none => exact h.2
  | some e =>
    cases e with
    | directory => exact absurd rfl he
    | _ => exact h.2.2

theorem Guarded.delete {e : Option Entry} (h : Guarded p q e) (he : e ≠ none) :
    p.authorize q .delete ≠ .ok () := by
  cases e with
  | none => exact absurd rfl he
  | some e =>
    cases e with
    | directory => exact h
    | _ => exact h.2.1

/-- What is guarded does not change. -/
theorem Guarded.not_change {operation : WriteOperation}
    (hg : Guarded s.policy q (t.entry? (s.sandbox.root ++ q))) :
    ¬ s.Change t t' q operation := by
  intro h
  cases h with
  | made way allowed before after =>
    rw [before] at hg
    exact hg.1 _ way allowed
  | written allowed before after => exact hg.write (before ∘ isDirectory_iff.mpr) allowed
  | backup kept beside allowed before source after =>
    exact hg.noBackup (before ∘ isDirectory_iff.mpr) kept _ beside.symm allowed
  | removed allowed before => exact hg.delete before allowed

theorem Effect.eq_of_readOnly (h : s.Effect t o t') (hr : s.settings.workspace.readOnly) :
    t' = t := by
  cases h with
  | unchanged => rfl
  | parents allowed | written content allowed | removed allowed =>
    exact absurd hr (by simp [allowed.writable])

/-! ## Restarts -/

/-- Nothing that the start looked at can be changed. -/
def Sealed (s : Service) (settings : Settings) (t : FileTree) (here : Location) : Prop :=
  s.settings.workspace.readOnly ∨ ∀ q, q ≠ [] → s.sandbox.root ++ q ∈ startTrail settings t here →
    Guarded s.policy q (t.entry? (s.sandbox.root ++ q))

/-- The policy file is denied at a location to which its path leads over no links, past
directories that are there. -/
structure Plain (s : Service) (settings : Settings) (t : FileTree) (here q : Location) : Prop where
  root : Spells here settings.workspace.root s.sandbox.root
  path : Spells here settings.workspace.policyPath (s.sandbox.root ++ q)
  below : Path.isAbsolute settings.workspace.policyFile ∨
    Path.locate s.sandbox.root settings.workspace.policyFile = some (s.sandbox.root ++ q)
  linkFree : t.LinkFree (s.sandbox.root ++ q)
  above : ∀ r, r <+: q → r ≠ q → t.isDirectory (s.sandbox.root ++ r)
  denied : q ∈ s.policy.denied
  noBackup : NoBackup s.policy q

theorem Plain.startTrail (h : s.Plain settings t here q) (ha : s.sandbox.Anchored t) :
    ∀ x ∈ startTrail settings t here, x <+: s.sandbox.root ++ q := by
  have hroot : t.LinkFree s.sandbox.root := h.linkFree.of_prefix (List.prefix_append _ _)
  intro x hx
  simp only [Service.startTrail, List.mem_append] at hx
  rcases hx with hx | hx | hx
  · exact h.path.readTrail h.linkFree x hx
  · exact (h.root.readTrail hroot x hx).trans (List.prefix_append _ _)
  · split at hx
    · next sandbox hs =>
      have hsame : sandbox.root = s.sandbox.root :=
        h.root.canonicalText_eq_ok hroot (Sandbox.ofRoot_eq_ok hs).1
      unfold policyFileTrail at hx
      split_ifs at hx with habs
      · have hpath := h.path
        rw [Settings.Workspace.policyPath, Path.push, if_pos habs] at hpath
        exact Spells.textTrail ⟨hpath.noClimb, by simpa [habs] using hpath.names⟩ h.linkFree x hx
      · have hl := h.below.resolve_left habs
        have hn := Path.isName_of_mem_locate ha.canonical.isName hl
        rw [Sandbox.resolveTrail, hsame, hl] at hx
        rw [← List.reverse_reverse (s.sandbox.root ++ q)]
        refine Sandbox.mem_prefixTrail (fun s hs => hn s (List.mem_reverse.mp hs)) ?_ x hx
        rw [List.reverse_reverse]
        exact h.linkFree
    · simp at hx

/-- What lies on the way to a plain policy file is guarded. -/
theorem Plain.sealed (h : s.Plain settings t here q) (ha : s.sandbox.Anchored t) :
    s.Sealed settings t here := by
  right
  intro r hr hx
  have hrq : r <+: q := (List.prefix_append_right_inj _).mp (h.startTrail ha _ hx)
  by_cases heq : r = q
  · subst heq
    have hdenied (operation : WriteOperation) : s.policy.authorize r operation ≠ .ok () :=
      WritePolicy.authorize_of_denied h.denied (List.prefix_refl r)
    cases he : t.entry? (s.sandbox.root ++ r) with
    | none => exact ⟨fun _ => WritePolicy.authorize_of_denied h.denied, h.noBackup⟩
    | some e =>
      cases e with
      | directory => exact hdenied .delete
      | _ => exact ⟨hdenied .write, hdenied .delete, h.noBackup⟩
  · rw [isDirectory_iff.mp (h.above r hrq heq)]
    exact WritePolicy.authorize_delete_of_denied_below h.denied hrq

theorem Effect.agree {t₀ : FileTree} (h : s.Effect t o t') (ha : s.sandbox.Anchored t)
    (hs : s.Sealed settings t₀ here) (hsame : t₀.Agree t (startTrail settings t₀ here)) :
    t₀.Agree t' (startTrail settings t₀ here) := by
  intro x hx
  rw [← hsame x hx]
  -- a change would be inside, and the policy would have allowed it
  by_contra hne
  have hinside : s.Inside x := by
    by_contra hno
    exact hne (h.entry?_of_not_inside ha hno)
  obtain ⟨⟨q, rfl⟩, hroot⟩ := hinside
  rcases hs with hr | hguarded
  · exact hne (by rw [h.eq_of_readOnly hr])
  · have hg := hguarded q (by simpa using hroot) hx
    rw [← hsame _ hx] at hg
    obtain ⟨operation, -, hchange⟩ := h.change hne
    exact hg.not_change hchange

/-- No run changes anything that the start looked at. -/
theorem run_agree (requests : List Request) (hc : t.Closed) (hh : t.Canonical here)
    (h : ofSettings settings t here = .ok s) (hs : s.Sealed settings t here) :
    t.Agree (s.run { tree := t, index := i } requests).tree (startTrail settings t here) := by
  obtain ⟨policy, -, hstart⟩ := ofSettings_eq_ok.mp h
  obtain ⟨-, -, hagree⟩ := run_induction (P := fun t' => t.Agree t' (startTrail settings t here))
    (w := { tree := t, index := i }) requests (anchored_of_ofPolicy hh hstart) hc (fun _ _ => rfl)
    fun t₁ o t₂ ha _ hsame he => he.agree ha hs hsame
  exact hagree

/-- A service that starts again after any run is the one that started before, where nothing that
the start looked at can be changed. -/
theorem restart_same (requests : List Request) (hc : t.Closed) (hh : t.Canonical here)
    (h : ofSettings settings t here = .ok s) (hs : s.Sealed settings t here) :
    ofSettings settings (s.run { tree := t, index := i } requests).tree here = .ok s := by
  rw [ofSettings_congr (run_agree requests hc hh h hs), h]

/-! ## A policy file in place, and one behind a link -/

/-- A workspace whose policy file keeps backups. -/
def ruled : FileTree where
  entries := [(["ws"], .directory), (["ws", "p"], .file "backup_on_write=true".toUTF8 0o644)]
  distinct := by decide

def ruledService : Service where
  settings := { workspace := { root := "/ws", policyFile := "p" } }
  sandbox := { root := ["ws"] }
  policy := { denied := [["p"]], backupOnWrite := true }
  pool := { size := 4 }

/-- The workspace with its policy file behind a link. -/
def linked : FileTree where
  entries := [(["ws"], .directory), (["ws", "c"], .file "backup_on_write=true".toUTF8 0o644),
    (["ws", "p"], .link "c")]
  distinct := by decide

def linkedService : Service :=
  { ruledService with policy := { denied := [["c"]], backupOnWrite := true } }

/-- The service that starts without a policy file. -/
def openService : Service := { ruledService with policy := { denied := [["p"]] } }

theorem policyPath_ruled : ruledService.settings.workspace.policyPath = "/ws/p" := by
  cbv

theorem locate_ruled : Path.locate ["ws"] "p" = some ["ws", "p"] := by
  decide

theorem ofSettings_ruled_of {l : Location}
    (hroot : Sandbox.ofRoot t [] "/ws" = .ok { root := ["ws"] })
    (hload : loadPolicy t [] "/ws/p" = .ok p)
    (hp : Sandbox.resolveNames { root := ["ws"] } t "p" ["ws", "p"] =
      .ok { absolute := "ws" :: l, relative := l }) :
    ofSettings ruledService.settings t [] =
      .ok { ruledService with policy := p.deny (WritePolicy.prefixOf l.display) } := by
  have hstart : Sandbox.resolve { root := ["ws"] } t "p" =
      .ok { absolute := "ws" :: l, relative := l } :=
    (Sandbox.resolve_of_locate locate_ruled).trans hp
  exact ofSettings_eq_ok.mpr ⟨p, policyPath_ruled ▸ hload, ofPolicy_of_resolve
    (s := { ruledService with policy := p.deny (WritePolicy.prefixOf l.display) })
    hroot (show Path.isAbsolute "p" = false from rfl) hstart rfl rfl⟩

theorem loadPolicy_keeping (h : t.readText [] "/ws/p" = .ok "backup_on_write=true") :
    loadPolicy t [] "/ws/p" = .ok { backupOnWrite := true } := by
  have hparse : (PolicySettings.parse "backup_on_write=true").map PolicySettings.policy =
      .ok { backupOnWrite := true } := by
    cbv
  simp only [loadPolicy, h, hparse]

theorem ofSettings_ruled : ofSettings ruledService.settings ruled [] = .ok ruledService :=
  ofSettings_ruled_of (l := ["p"]) (by cbv) (loadPolicy_keeping (by cbv)) (by cbv)

theorem ofSettings_linked : ofSettings ruledService.settings linked [] = .ok linkedService :=
  ofSettings_ruled_of (l := ["c"]) (by cbv) (loadPolicy_keeping (by cbv)) (by cbv)

theorem plain_ruled : ruledService.Plain ruledService.settings ruled [] ["p"] where
  root := ⟨by decide, by decide⟩
  path := by
    rw [policyPath_ruled]
    exact ⟨by decide, by decide⟩
  below := .inr (by decide)
  linkFree := by
    have hf : ruled.follow true maxLinks [] ["ws", "p"] = .ok ["ws", "p"] := by decide
    exact (canonical_of_follow (canonical_nil ruled) hf).linkFree
  above := by
    intro r hr hne
    rcases List.prefix_cons_iff.mp hr with rfl | ⟨r, rfl, hnil⟩
    · decide
    · obtain rfl := List.prefix_nil.mp hnil
      exact absurd rfl hne
  denied := by decide
  noBackup := noBackup_of_getLast? (by simp) fun name h => by
    have hlen : "p".length = (name ++ ".bak").length := congrArg String.length (Option.some.inj h)
    rw [String.length_append, show "p".length = 1 from rfl, show ".bak".length = 4 from rfl] at hlen
    omega

theorem restart_same_ruled : ofSettings ruledService.settings (ruledService.run { tree := ruled } [
      .delete { path := "p" }, .writeFile { path := "p", content := "" },
      .writeFile { path := "p", content := "" }]).tree [] = .ok ruledService := by
  have ha : ruledService.sandbox.Anchored ruled := by
    obtain ⟨policy, -, hstart⟩ := ofSettings_eq_ok.mp ofSettings_ruled
    exact anchored_of_ofPolicy (canonical_nil ruled) hstart
  exact restart_same _ (by decide) (canonical_nil ruled) ofSettings_ruled (plain_ruled.sealed ha)

theorem perform_linked : linkedService.perform { tree := linked } (.delete { path := "p" }) =
    (.ok (.deleted { ok := true, path := "p" }), { tree := linked.erase ["ws", "p"] }) := by
  have hp : linkedService.sandbox.resolveEntry linked "p" =
      .ok { absolute := ["ws", "p"], relative := ["p"] } := by
    rw [Sandbox.resolveEntry, show linkedService.sandbox.root = ["ws"] from rfl, locate_ruled]
    cbv
  simp only [perform, delete, hp]
  cbv

/-- Only what the link leads to is denied: the link can be deleted, and without it the service
starts with another policy. -/
theorem restart_differs_linked :
    ofSettings ruledService.settings linked [] = .ok linkedService ∧
      ofSettings ruledService.settings (linkedService.run { tree := linked } [
        .delete { path := "p" }]).tree [] = .ok openService ∧
      openService.policy.backupOnWrite ≠ linkedService.policy.backupOnWrite ∧
      openService.policy.denied ≠ linkedService.policy.denied := by
  have hload : loadPolicy (linked.erase ["ws", "p"]) [] "/ws/p" = .ok {} := by
    have hread : readText (linked.erase ["ws", "p"]) [] "/ws/p" = .error .noEntry := by cbv
    simp only [loadPolicy, hread]
  have hstart : ofSettings ruledService.settings (linked.erase ["ws", "p"]) [] = .ok openService :=
    ofSettings_ruled_of (l := ["p"]) (by cbv) hload (by cbv)
  have hrun : linkedService.run { tree := linked } [.delete { path := "p" }] =
      { tree := linked.erase ["ws", "p"] } :=
    congrArg Prod.snd perform_linked
  refine ⟨ofSettings_linked, ?_, by decide, by decide⟩
  rw [hrun]
  exact hstart

end Service

end Worksite
