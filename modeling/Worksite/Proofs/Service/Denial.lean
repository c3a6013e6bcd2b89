import Worksite.Proofs.Sandbox.Links
import Worksite.Proofs.Service.Spelling

/-!
Denial: a request for a path at or below a denied prefix fails and changes nothing, where no link
on the way leads elsewhere. Behind such a link the policy is asked for the location that it leads
to.
-/
namespace Worksite

open FileTree

variable {t : FileTree} {w : Workspace} {path : String} {r d : Location} {p : Place}
  {operation : WriteOperation}

/-- The part of a path on which an operation follows links: a delete keeps the last name. -/
def WriteOperation.followed : WriteOperation → Location → Location
  | .write, r => r
  | .delete, r => r.dropLast

namespace Sandbox

variable {s : Sandbox}

/-- Where an operation finds the place of its path. -/
def placeFor (s : Sandbox) (t : FileTree) :
    WriteOperation → String → Except WorkspaceError Place
  | .write, path => s.resolve t path
  | .delete, path => s.resolveEntry t path

/-- On the way from the root over names there is a link that leads to something. -/
def Passes (s : Sandbox) (t : FileTree) (r : Location) : Prop :=
  ∃ q, q <+: r ∧ t.Leading (s.root ++ q)

theorem not_leading_of_not_passes (ha : s.Anchored t) (h : ¬ s.Passes t r) :
    ∀ q, q <+: s.root ++ r → ¬ t.Leading q := by
  intro q hq hlead
  rcases List.prefix_or_prefix_of_prefix hq (List.prefix_append _ _) with hroot | ⟨m, rfl⟩
  · obtain ⟨target, hlink⟩ := hlead.link
    exact ha.canonical.linkFree q hroot target hlink
  · exact h ⟨m, (List.prefix_append_right_inj _).mp hq, hlead⟩

/-- Names below the root that pass no link are resolved to themselves. -/
theorem resolveNames_eq_self {shown : String} (ha : s.Anchored t)
    (hn : ∀ x ∈ s.root ++ r, Path.IsName x) (hpass : ¬ s.Passes t r)
    (h : s.resolveNames t shown (s.root ++ r) = .ok p) : p.relative = r := by
  obtain ⟨hfound, hbelow⟩ := existingPrefix_of_resolveNames h
  have hself := existingPrefix_eq_self hn (not_leading_of_not_passes ha hpass) hfound
  exact List.append_cancel_left (hbelow.symm.trans hself)

/-- A path that passes no link on which it is followed has the place that its text names. -/
theorem placeFor_eq_self (ha : s.Anchored t)
    (hl : Path.locate s.root path = some (s.root ++ r))
    (hpass : ¬ s.Passes t (operation.followed r))
    (h : s.placeFor t operation path = .ok p) : p.relative = r := by
  have hn := Path.isName_of_mem_locate ha.canonical.isName hl
  cases operation with
  | write =>
    rw [placeFor, resolve_of_locate hl] at h
    exact resolveNames_eq_self ha hn hpass h
  | delete =>
    rw [placeFor, resolveEntry, hl] at h
    by_cases hr : r = []
    · -- the root itself
      subst hr
      have hwithin : Location.isWithin s.root s.root = true := by simp [Location.isWithin]
      simp only [List.append_nil, hwithin, Bool.not_true, Bool.false_eq_true, ↓reduceIte] at h
      have hn' : ∀ x ∈ s.root ++ [], Path.IsName x := by simpa using ha.canonical.isName
      exact resolveNames_eq_self ha hn' hpass (by simpa using h)
    · -- the part above is followed, and the last name is kept
      have hwithin : Location.isWithin (s.root ++ r) s.root = true := by simp [Location.isWithin]
      have hne : s.root ++ r ≠ s.root := by simp [hr]
      simp only [hwithin, hne, Bool.not_true, Bool.false_eq_true, ↓reduceIte] at h
      obtain ⟨above, habove, h⟩ := bind_eq_ok.mp h
      rw [List.dropLast_append_of_ne_nil hr] at habove
      have hn' : ∀ x ∈ s.root ++ r.dropLast, Path.IsName x := by
        rw [← List.dropLast_append_of_ne_nil hr]
        exact fun x hx => hn x (List.dropLast_subset _ hx)
      have hrelative := resolveNames_eq_self ha hn' hpass habove
      rw [← Except.ok.inj h]
      simp only [hrelative]
      rw [List.getLast?_append_of_ne_nil _ hr, List.getLast?_eq_getLast_of_ne_nil hr]
      exact List.dropLast_append_getLast hr

end Sandbox

namespace Service

variable {s : Service} {settings : Settings} {policy : WritePolicy} {here : Location}
  {q : Request}

theorem mem_denied_of_ofPolicy (h : ofPolicy settings policy t here = .ok s)
    (hd : d ∈ policy.denied) : d ∈ s.policy.denied := by
  rw [(ofPolicy_eq_ok.mp h).2.2.1, protect]
  split
  · exact WritePolicy.mem_denied_deny.mpr (.inl hd)
  · exact hd

/-- A change either fails and leaves the state as it was, or the policy allows it at the place of
its path. -/
theorem perform_refused_or_allowed (hm : mutation q = some operation) (hq : q.paths = [path]) :
    (∃ e, s.perform w q = (.error e, w)) ∨
      ∃ p, s.sandbox.placeFor w.tree operation path = .ok p ∧
        s.policy.authorize p.relative operation = .ok () := by
  cases q with
  | writeFile q =>
    obtain rfl : .write = operation := Option.some.inj hm
    obtain rfl : q.path = path := List.singleton_inj.mp hq
    cases hplan : s.planWrite w.tree q with
    | error e =>
      left
      refine ⟨e, ?_⟩
      simp only [perform, writeFile, hplan]
      rfl
    | ok plan =>
      obtain ⟨place, bytes⟩ := plan
      obtain ⟨-, hp, hauth⟩ := planWrite_eq_ok hplan
      exact .inr ⟨place, hp, hauth⟩
  | delete q =>
    obtain rfl : .delete = operation := Option.some.inj hm
    obtain rfl : q.path = path := List.singleton_inj.mp hq
    cases hdelete : s.delete w.tree q with
    | error e =>
      left
      refine ⟨e, ?_⟩
      simp only [perform, hdelete]
    | ok a =>
      obtain ⟨answer, after⟩ := a
      obtain ⟨p, -, hp, hauth, -⟩ := delete_eq_ok hdelete
      exact .inr ⟨p, hp, hauth⟩
  | _ => simp [mutation] at hm

/-- A change of a path at or below a denied prefix fails and leaves the state as it was, unless a
link that is followed on the way leads to something; then the policy allows the change at the place
to which the path is resolved. -/
theorem denied_unchanged {t₀ : FileTree} (h : ofPolicy settings policy t₀ here = .ok s)
    (ha : s.sandbox.Anchored w.tree) (hm : mutation q = some operation) (hq : q.paths = [path])
    (hl : Path.locate s.sandbox.root path = some (s.sandbox.root ++ r)) (hd : d ∈ policy.denied)
    (hr : d <+: r) :
    (∃ e, s.perform w q = (.error e, w)) ∨
      s.sandbox.Passes w.tree (operation.followed r) ∧
        ∃ p, s.sandbox.placeFor w.tree operation path = .ok p ∧
          s.policy.authorize p.relative operation = .ok () := by
  rcases perform_refused_or_allowed (s := s) (w := w) hm hq with hrefused | ⟨p, hp, hauth⟩
  · exact .inl hrefused
  · right
    refine ⟨?_, p, hp, hauth⟩
    by_contra hpass
    have hself := Sandbox.placeFor_eq_self ha hl hpass hp
    rw [hself] at hauth
    exact WritePolicy.authorize_of_denied (mem_denied_of_ofPolicy h hd) hr hauth

/-! ## A denied name that is a link -/

/-- A denied name that is a link to a directory of the workspace. -/
def disguised : FileTree where
  entries := [(["ws"], .directory), (["ws", "real"], .directory), (["ws", "key"], .link "real")]
  distinct := by decide

def disguisedService : Service where
  settings := { workspace := { root := "/ws", policyFile := "p" } }
  sandbox := { root := ["ws"] }
  policy := { denied := [["key"], ["p"]] }
  pool := { size := 4 }

theorem parse_disguised : (PolicySettings.parse "write_denied_paths=[\"key\"]").map
    PolicySettings.policy = .ok { denied := [["key"]] } := by
  cbv

theorem ofPolicy_disguised :
    ofPolicy disguisedService.settings { denied := [["key"]] } disguised [] =
      .ok disguisedService := by
  have hp : disguisedService.sandbox.resolve disguised "p" =
      .ok { absolute := ["ws", "p"], relative := ["p"] } := by
    have hl : Path.locate disguisedService.sandbox.root "p" = some ["ws", "p"] := by decide
    rw [Sandbox.resolve_of_locate hl]
    cbv
  exact ofPolicy_of_resolve (by cbv) rfl hp (by decide) rfl

theorem planWrite_disguised :
    disguisedService.planWrite disguised { path := "key/a", content := "x" } =
      .ok ({ absolute := ["ws", "real", "a"], relative := ["real", "a"] }, "x".toUTF8) := by
  have hp : disguisedService.sandbox.resolve disguised "key/a" =
      .ok { absolute := ["ws", "real", "a"], relative := ["real", "a"] } := by
    have hl : Path.locate disguisedService.sandbox.root "key/a" = some ["ws", "key", "a"] := by
      decide
    rw [Sandbox.resolve_of_locate hl]
    cbv
  simp only [planWrite, hp]
  rfl

theorem perform_disguised : disguisedService.perform { tree := disguised }
      (.writeFile { path := "key/a", content := "x" }) =
    (.ok (.written { ok := true, path := "real/a", bytesWritten := 1, backup := none }),
      { tree := disguised.put ["ws", "real", "a"] (.file "x".toUTF8 0o600) }) := by
  have hwrite : Place.write { absolute := ["ws", "real", "a"], relative := ["real", "a"] } disguised
      "x".toUTF8 true false =
        (.ok { ok := true, path := "real/a", bytesWritten := 1, backup := none },
          disguised.put ["ws", "real", "a"] (.file "x".toUTF8 0o600)) := by
    cbv
  simp only [perform, writeFile, planWrite_disguised]
  rw [show disguisedService.policy.backupOnWrite = false from rfl, hwrite]
  rfl

/-- A file can be written below a denied prefix, where that is the name of a link. -/
theorem denied_link_written :
    let request := Request.writeFile { path := "key/a", content := "x" }
    (PolicySettings.parse "write_denied_paths=[\"key\"]").map PolicySettings.policy =
        .ok { denied := [["key"]] } ∧
      ofPolicy disguisedService.settings { denied := [["key"]] } disguised [] =
        .ok disguisedService ∧
      Path.locate ["ws"] "key/a" = some (["ws"] ++ ["key", "a"]) ∧ ["key"] <+: ["key", "a"] ∧
      (disguisedService.perform { tree := disguised } request).1.isOk ∧
      disguised.entry? ["ws", "real", "a"] = none ∧
      entry? (disguisedService.perform { tree := disguised } request).2.tree ["ws", "real", "a"] =
        some (.file "x".toUTF8 0o600) := by
  refine ⟨parse_disguised, ofPolicy_disguised, by decide, by decide, ?_, rfl, ?_⟩
  · rw [perform_disguised]
    rfl
  · rw [perform_disguised]
    rfl

/-- The link itself cannot be deleted. -/
theorem denied_unchanged_disguised :
    let request := Request.delete { path := "./key/" }
    Path.locate ["ws"] "./key/" = some (["ws"] ++ ["key"]) ∧
      ∃ e, disguisedService.perform { tree := disguised } request =
        (.error e, { tree := disguised }) := by
  have hl : Path.locate ["ws"] "./key/" = some (["ws"] ++ ["key"]) := by decide
  have ha : disguisedService.sandbox.Anchored disguised :=
    anchored_of_ofPolicy (canonical_nil disguised) ofPolicy_disguised
  refine ⟨hl, ?_⟩
  rcases denied_unchanged (w := { tree := disguised }) (q := .delete { path := "./key/" })
    ofPolicy_disguised ha rfl rfl hl (by decide) (List.prefix_refl ["key"]) with
    hrefused | ⟨⟨q, hq, hlead⟩, -⟩
  · exact hrefused
  · obtain rfl : q = [] := List.prefix_nil.mp hq
    obtain ⟨target, hlink⟩ := hlead.link
    exact absurd hlink (by nofun)

end Service

end Worksite
