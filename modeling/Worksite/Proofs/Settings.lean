import Worksite.Settings
import Worksite.Proofs.Toml.Omission

/-!
The settings in their written form. Each field has its default twice, once for a table that is
missing and once for a key that is missing; both are the same, so whatever holds its default may be
left out.
-/
namespace Worksite.Settings

open Toml

variable {s : Settings} {o : Omission} {t : List Char}

/-! ## Values -/

theorem text?_value (s : String) : text? (Printer.Scalar.text s).value = some s := rfl

theorem bool?_value (b : Bool) : bool? (Printer.Scalar.bool b).value = some b := rfl

theorem nat?_value {n bound : Nat} (h : n < bound) :
    nat? bound (Printer.Scalar.nat n).value = some n := by
  rw [Printer.Scalar.value, nat?, if_pos (by omega), Int.toNat_natCast]

theorem nat32?_value (n : UInt32) : nat32? (Printer.Scalar.nat n.toNat).value = some n := by
  rw [nat32?, nat?_value n.toNat_lt, Option.map_some, UInt32.ofNat_toNat]

theorem nat64?_value (n : UInt64) : nat64? (Printer.Scalar.nat n.toNat).value = some n := by
  rw [nat64?, nat?_value n.toNat_lt, Option.map_some, UInt64.ofNat_toNat]

/-! ## Tables -/

theorem tolerant_workspace : Tolerant Workspace.lines {} Workspace.ofToml? := by
  intro w gone h
  have hroot : field? (remaining gone w.lines) "root" "." text? = some w.root :=
    field?_remaining text?_value rfl rfl h
  have hname : field? (remaining gone w.lines) "name" "default" text? = some w.name :=
    field?_remaining text?_value rfl rfl h
  have hreadOnly : field? (remaining gone w.lines) "read_only" false bool? = some w.readOnly :=
    field?_remaining bool?_value rfl rfl h
  have hpolicyFile : field? (remaining gone w.lines) "policy_file" ".burrow/policy.toml" text? =
      some w.policyFile :=
    field?_remaining text?_value rfl rfl h
  rw [Workspace.ofToml?, fields?_remaining]
  · simp [hroot, hname, hreadOnly, hpolicyFile]
  · rfl

theorem tolerant_daemon : Tolerant Daemon.lines {} Daemon.ofToml? := by
  intro d gone h
  have hsocketPath : field? (remaining gone d.lines) "socket_path" "/tmp/burrow.sock" text? =
      some d.socketPath :=
    field?_remaining text?_value rfl rfl h
  rw [Daemon.ofToml?, fields?_remaining]
  · simp [hsocketPath]
  · rfl

theorem tolerant_limits : Tolerant Limits.lines {} Limits.ofToml? := by
  intro l gone h
  have hrequests : field? (remaining gone l.lines) "max_requests_per_minute" 120 nat32? =
      some l.maxRequestsPerMinute :=
    field?_remaining nat32?_value rfl rfl h
  -- all limits but the first are of one kind
  have hcount (k : String) {n : UInt64} (default : UInt64)
      (hline : line? l.lines k = some (k, .nat n.toNat))
      (hdefault : line? ({} : Limits).lines k = some (k, .nat default.toNat)) :
      field? (remaining gone l.lines) k default nat64? = some n :=
    field?_remaining nat64?_value hline hdefault h
  have htimeout := hcount "request_timeout_secs" 30 rfl rfl
  have hlistBudget := hcount "list_time_budget_ms" 5000 rfl rfl
  have hsearchBudget := hcount "search_time_budget_ms" 8000 rfl rfl
  have hlist := hcount "max_list_results" 10000 rfl rfl
  have hsearch := hcount "max_search_results" 2000 rfl rfl
  have hindex := hcount "max_index_files" 20000 rfl rfl
  have hfile := hcount "max_file_bytes" 2097152 rfl rfl
  have hworkers := hcount "worker_threads" 4 rfl rfl
  rw [Limits.ofToml?, fields?_remaining]
  · simp [hrequests, htimeout, hlistBudget, hsearchBudget, hlist, hsearch, hindex, hfile, hworkers]
  · rfl

theorem tolerant_logging : Tolerant Logging.lines {} Logging.ofToml? := by
  intro l gone h
  have hlevel : field? (remaining gone l.lines) "level" "info" text? = some l.level :=
    field?_remaining text?_value rfl rfl h
  rw [Logging.ofToml?, fields?_remaining]
  · simp [hlevel]
  · rfl

/-! ## Documents -/

/-- The line of a key of a table in the written settings. -/
def held? (s : Settings) (name k : String) : Option (String × Printer.Scalar) :=
  (s.sections.find? (·.name = name)).bind fun x => line? x.lines k

/-- Whether all that is left out are keys that hold their defaults. -/
def OmitsDefaults (s : Settings) (o : Omission) : Prop :=
  ∀ name k, o.covers name k = true → s.held? name k = ({} : Settings).held? name k

theorem ofToml?_left (h : s.OmitsDefaults o) :
    ofToml? (.table ((o.left s.sections).map Printer.Section.value)) = some s := by
  have hworkspace : field? ((o.left s.sections).map Printer.Section.value) "workspace" {}
      Workspace.ofToml? = some s.workspace :=
    tolerant_workspace.field? rfl (h "workspace")
  have hdaemon : field? ((o.left s.sections).map Printer.Section.value) "daemon" {}
      Daemon.ofToml? = some s.daemon :=
    tolerant_daemon.field? rfl (h "daemon")
  have hlimits : field? ((o.left s.sections).map Printer.Section.value) "limits" {}
      Limits.ofToml? = some s.limits :=
    tolerant_limits.field? rfl (h "limits")
  have hlogging : field? ((o.left s.sections).map Printer.Section.value) "logging" {}
      Logging.ofToml? = some s.logging :=
    tolerant_logging.field? rfl (h "logging")
  rw [ofToml?, fields?_left]
  · simp [hworkspace, hdaemon, hlimits, hlogging]
  · rfl

/-- The names of the tables and of their keys. -/
def names : List (String × List String) :=
  ({} : Settings).sections.map fun x => (x.name, x.lines.map Prod.fst)

theorem names_sections (s : Settings) :
    (s.sections.map fun x => (x.name, x.lines.map Prod.fst)) = names := rfl

theorem names_sound : ∀ n ∈ names, (Bare n.1 ∧ ∀ k ∈ n.2, Bare k) ∧ n.2.Nodup := by
  decide

theorem fits_text (s : String) : (Printer.Scalar.text s).Fits := trivial

theorem fits_bool (b : Bool) : (Printer.Scalar.bool b).Fits := trivial

theorem fits_nat64 (n : UInt64) : (Printer.Scalar.nat n.toNat).Fits := n.toNat_lt

theorem fits_nat32 (n : UInt32) : (Printer.Scalar.nat n.toNat).Fits :=
  n.toNat_lt.trans (by decide)

theorem fits_sections (s : Settings) : ∀ x ∈ s.sections, ∀ l ∈ x.lines, l.2.Fits := by
  simp only [sections, Workspace.lines, Daemon.lines, Limits.lines, Logging.lines,
    List.forall_mem_cons, fits_text, fits_bool, fits_nat32, fits_nat64, List.not_mem_nil,
    false_implies, implies_true, and_true]

theorem sound_sections (s : Settings) : Printer.Sound s.sections := by
  have hnames {x : Printer.Section} (hx : x ∈ s.sections) :
      (x.name, x.lines.map Prod.fst) ∈ names :=
    names_sections s ▸ List.mem_map_of_mem hx
  refine ⟨?_, fun x hx => (names_sound _ (hnames hx)).2, fun x hx => (names_sound _ (hnames hx)).1,
    fits_sections s⟩
  · have hlist : s.sections.map (·.name) = ["workspace", "daemon", "limits", "logging"] := rfl
    rw [hlist]
    decide

theorem parse_laid (hvalid : s.validate = .ok ()) (homits : s.OmitsDefaults o)
    (h : Laid ((o.left s.sections).flatMap Printer.Section.entries) t) :
    parse (String.ofList t) = .ok s := by
  rw [parse, ofText?_laid ((sound_sections s).left o) h, Option.bind_some, ofToml?_left homits]
  simp only [hvalid]
  rfl

/-- Accepted settings are read back from what is written, and from what is left of it without
any keys or tables that hold their defaults, whatever empty lines stay behind. -/
theorem parse_render (h : s.validate = .ok ()) :
    parse s.render = .ok s ∧
      ∀ o t, s.OmitsDefaults o →
        Laid ((o.left s.sections).flatMap Printer.Section.entries) t →
          parse (String.ofList t) = .ok s := by
  refine ⟨?_, fun o t homits hlaid => parse_laid h homits hlaid⟩
  have homits : s.OmitsDefaults .nothing := fun _ _ h => absurd h Bool.false_ne_true
  -- the whole document is what is left of it when nothing is left out
  have hlaid := laid_document (Omission.nothing.left s.sections)
  have hread := parse_laid h homits hlaid
  rw [String.ofList_toList, Omission.left_nothing] at hread
  exact hread

/-- Settings whose name has two lines, quote marks and a backslash, and whose largest limit has
all its bits, without the root and without two tables. -/
theorem parse_render_quoted :
    let s : Settings := {
      workspace := { name := "a \"\"\" '''b'''\nc\\", readOnly := true }
      limits := { maxFileBytes := 18446744073709551615 } }
    let o : Omission := {
      tables := fun name => name = "daemon" || name = "logging"
      keys := fun name k => name = "workspace" && k = "root" }
    s.validate = .ok () ∧ s.OmitsDefaults o ∧ parse s.render = .ok s ∧
      parse (Printer.document (o.left s.sections)) = .ok s := by
  intro s o
  have hvalid : s.validate = .ok () := by decide
  have homits : s.OmitsDefaults o := by
    intro name k hcovers
    simp only [o, Omission.covers, Bool.or_eq_true, Bool.and_eq_true, decide_eq_true_eq] at hcovers
    rcases hcovers with (rfl | rfl) | ⟨rfl, rfl⟩ <;> rfl
  obtain ⟨hwhole, hleft⟩ := parse_render hvalid
  have hread := hleft o _ homits (laid_document _)
  rw [String.ofList_toList] at hread
  exact ⟨hvalid, homits, hwhole, hread⟩

end Worksite.Settings
