import Worksite.Machine
import Worksite.Proofs.FileTree.Doorway
import Worksite.Proofs.Service.Atomicity

/-!
Daemons that share the name of a socket. A start takes the name from whoever has it, and the stop
of a daemon that once got it takes it away from whoever has it by then. So the name leads to a
daemon as long as no daemon stops while another one holds on to the name.
-/
namespace Worksite.Machine

open FileTree

variable {t t' : FileTree} {m m' : Machine} {path : String} {settings : Settings}
  {above d l : Location} {s : String} {n : Nat} {x y : Daemon}

/-! ## Opening a socket -/

/-- A doorway is cleared. -/
theorem vacate_doorway (h : t.Doorway above d s) :
    vacate t (above ++ [s]) = .ok (t.erase (d ++ [s])) := by
  unfold vacate
  cases he : t.entry? (d ++ [s]) with
  | none => simp [h.find_vacant he, erase_of_absent, he, Except.isOk, Except.toBool]
  | some e =>
    obtain ⟨n, rfl⟩ := h.held e he
    simp [h.find_socket he, FileTree.remove, h.seat, he, Except.isOk, Except.toBool]

/-- A doorway lets every socket in, and whatever stood there out. -/
theorem openSocket_doorway (h : t.Doorway above d s)
    (hshort : path.utf8ByteSize < maxSocketPath) (n : Nat) :
    openSocket t (above ++ [s]) path n = (true, t.put (d ++ [s]) (.socket n)) := by
  have hvacant : entry? (t.erase (d ++ [s])) (d ++ [s]) = none := entry?_erase_self (by simp)
  have hput : (t.erase (d ++ [s])).put (d ++ [s]) (.socket n) = t.put (d ++ [s]) (.socket n) := by
    apply ext_entries
    simp [FileTree.erase, FileTree.put, restrict]
  rw [openSocket, vacate_doorway h]
  simp [bindSocket, h.erase.makeDirectories, Nat.not_le.mpr hshort, h.erase.seat, hvacant, hput]

/-- Where a socket could be opened, there is a doorway with the socket in it. -/
theorem doorway_of_openSocket (hn : ∀ x ∈ l, Path.IsName x)
    (h : openSocket t l path n = (true, t')) : path.utf8ByteSize < maxSocketPath ∧
      ∃ above d s, l = above ++ [s] ∧ t'.Doorway above d s ∧
        t'.entry? (d ++ [s]) = some (.socket n) := by
  unfold openSocket at h
  split at h
  · simp at h
  · next t₁ _ =>
    unfold bindSocket at h
    simp only at h
    generalize (t₁.makeDirectories l.dropLast.reverse).2 = t₂ at h
    split_ifs at h with hlong
    · simp at h
    · split at h
      · simp at h
      · next p hseat =>
        split_ifs at h with hpresent
        · simp at h
        · have hvacant : t₂.entry? p = none := by simpa using hpresent
          obtain ⟨above, d, s, rfl, rfl, hdoor⟩ := doorway_of_seat hn hseat hvacant
          obtain rfl := (Prod.mk.inj h).2
          exact ⟨Nat.lt_of_not_le hlong, above, d, s, rfl, hdoor.put n, entry?_put_self (by simp)⟩

theorem isName_of_mem_socketAt (hhere : ∀ s ∈ m.here, Path.IsName s) :
    ∀ s ∈ m.socketAt path, Path.IsName s := by
  unfold socketAt
  cases hl : Path.locate m.here path with
  | none => simp
  | some l => exact Path.isName_of_mem_locate hhere hl

/-! ## Daemons with one name -/

/-- The name is a doorway, and a socket in it is that of a daemon that got the name. -/
structure Held (m : Machine) (path : String) (above d : Location) (s : String) : Prop where
  short : path.utf8ByteSize < maxSocketPath
  name : m.socketAt path = above ++ [s]
  door : m.tree.Doorway above d s
  holder : ∀ n, m.tree.entry? (d ++ [s]) = some (.socket n) →
    ∃ x ∈ m.daemons, x.number = n ∧ x.bound

/-- All daemons use one name, and as soon as one got it nothing else stands there. -/
structure Sharing (m : Machine) (path : String) : Prop where
  here : ∀ s ∈ m.here, Path.IsName s
  nodup : (m.daemons.map Daemon.number).Nodup
  older : ∀ x ∈ m.daemons, x.number < m.started
  share : ∀ x ∈ m.daemons, socketPath x = path
  held : (∀ x ∈ m.daemons, x.bound = false) ∨ ∃ above d s, m.Held path above d s

/-- If a daemon got the name and has not stopped, then the name leads to such a daemon. -/
def Reachable (m : Machine) (path : String) : Prop :=
  (∃ x ∈ m.daemons, x.bound) → ∃ x ∈ m.daemons, x.bound ∧ m.reached? path = some x

theorem Sharing.eq_of_number (h : m.Sharing path) (hx : x ∈ m.daemons) (hy : y ∈ m.daemons)
    (hnumber : x.number = y.number) : x = y :=
  List.inj_on_of_nodup_map h.nodup hx hy hnumber

theorem Sharing.find_number (h : m.Sharing path) (hx : x ∈ m.daemons) :
    m.daemons.find? (·.number = x.number) = some x := by
  cases hfound : m.daemons.find? (·.number = x.number) with
  | none => simpa using List.find?_eq_none.mp hfound x hx
  | some y =>
    have hnumber : y.number = x.number := by simpa using List.find?_some hfound
    rw [h.eq_of_number (List.mem_of_find?_eq_some hfound) hx hnumber]

/-- The daemon whose socket stands there is reached. -/
theorem Held.reached (hh : m.Held path above d s) (h : m.Sharing path)
    (he : m.tree.entry? (d ++ [s]) = some (.socket n)) :
    ∃ x ∈ m.daemons, x.number = n ∧ x.bound ∧ m.reached? path = some x := by
  obtain ⟨x, hx, rfl, hbound⟩ := hh.holder n he
  refine ⟨x, hx, rfl, hbound, ?_⟩
  simp only [reached?, hh.name, hh.door.find_socket he]
  exact h.find_number hx

/-- A daemon is reached as long as there is a socket. -/
theorem Held.reachable_iff (hh : m.Held path above d s) (h : m.Sharing path) :
    (∃ x ∈ m.daemons, x.bound ∧ m.reached? path = some x) ↔
      m.tree.entry? (d ++ [s]) ≠ none := by
  cases he : m.tree.entry? (d ++ [s]) with
  | none => simp [reached?, hh.name, hh.door.find_vacant he]
  | some e =>
    obtain ⟨n, rfl⟩ := hh.door.held e he
    obtain ⟨x, hx, -, hreached⟩ := hh.reached h he
    exact iff_of_true ⟨x, hx, hreached⟩ (Option.some_ne_none _)

/-! ## One start, one stop -/

/-- A start adds one daemon, of the next number. -/
theorem start_eq_ok (hs : m.start settings = .ok m') :
    ∃ service bound tree, service.settings = settings ∧
      openSocket m.tree (m.socketAt settings.daemon.socketPath) settings.daemon.socketPath
        m.started = (bound, tree) ∧
      m' = { m with
        tree
        daemons := m.daemons ++ [{ number := m.started, service, bound }]
        started := m.started + 1 } := by
  obtain ⟨service, hservice, hs⟩ := bind_eq_ok.mp hs
  obtain ⟨policy, -, hpolicy⟩ := Service.ofSettings_eq_ok.mp hservice
  exact ⟨service, _, _, (Service.ofPolicy_eq_ok.mp hpolicy).2.1, rfl, (Except.ok.inj hs).symm⟩

/-- A start with a doorway for the socket. -/
theorem start_doorway {service : Service}
    (hservice : Service.ofSettings settings m.tree m.here = .ok service)
    (hname : m.socketAt settings.daemon.socketPath = above ++ [s])
    (hdoor : m.tree.Doorway above d s)
    (hshort : settings.daemon.socketPath.utf8ByteSize < maxSocketPath) :
    m.start settings = .ok { m with
      tree := m.tree.put (d ++ [s]) (.socket m.started)
      daemons := m.daemons ++ [{ number := m.started, service, bound := true }]
      started := m.started + 1 } := by
  simp only [start, hservice, ok_bind, hname, openSocket_doorway hdoor hshort]
  rfl

/-- A daemon whose socket stands in a doorway holds the name. -/
theorem held_of_socket (hshort : path.utf8ByteSize < maxSocketPath)
    (hname : m.socketAt path = above ++ [s]) (hdoor : m.tree.Doorway above d s)
    (hx : x ∈ m.daemons) (hbound : x.bound)
    (he : m.tree.entry? (d ++ [s]) = some (.socket x.number)) : m.Held path above d s where
  short := hshort
  name := hname
  door := hdoor
  holder n hn := ⟨x, hx, by simpa [he] using hn, hbound⟩

/-- Once a daemon got the name, every other that starts gets it. -/
theorem Sharing.held_start (h : m.Sharing path) (hs : m.start settings = .ok m')
    (hp : settings.daemon.socketPath = path) : (∀ x ∈ m'.daemons, x.bound = false) ∨
      ∃ above d s, m'.Held path above d s ∧
        m'.tree.entry? (d ++ [s]) = some (.socket m.started) := by
  obtain ⟨service, bound, tree, -, hopen, rfl⟩ := start_eq_ok hs
  rw [hp] at hopen
  have hlast := List.mem_append_right m.daemons
    (List.mem_singleton_self { number := m.started, service, bound : Daemon })
  rcases h.held with hnone | ⟨above, d, s, hh⟩
  · cases bound with
    | false => exact .inl (by simpa [or_imp, forall_and] using hnone)
    | true =>
      obtain ⟨hshort, above, d, s, hname, hdoor, he⟩ :=
        doorway_of_openSocket (isName_of_mem_socketAt h.here) hopen
      exact .inr ⟨above, d, s, held_of_socket hshort hname hdoor hlast rfl he, he⟩
  · rw [hh.name, openSocket_doorway hh.door hh.short] at hopen
    obtain ⟨rfl, rfl⟩ := Prod.mk.inj hopen
    have he : entry? (m.tree.put (d ++ [s]) (.socket m.started)) (d ++ [s]) =
      some (.socket m.started) := entry?_put_self (by simp)
    exact .inr ⟨above, d, s,
      held_of_socket hh.short hh.name (hh.door.put m.started) hlast rfl he, he⟩

theorem Sharing.start (h : m.Sharing path) (hs : m.start settings = .ok m')
    (hp : settings.daemon.socketPath = path) : m'.Sharing path := by
  have hheld := h.held_start hs hp
  obtain ⟨service, bound, tree, hsettings, -, rfl⟩ := start_eq_ok hs
  refine ⟨h.here, ?_, ?_, ?_, hheld.imp_right fun ⟨above, d, s, hh, _⟩ => ⟨above, d, s, hh⟩⟩
  · have hnew : m.started ∉ m.daemons.map Daemon.number := by
      rintro hmem
      obtain ⟨x, hx, hnumber⟩ := List.mem_map.mp hmem
      exact absurd (h.older x hx) (by omega)
    simpa [List.nodup_append] using ⟨h.nodup, by simpa using hnew⟩
  · intro x hx
    rcases List.mem_append.mp hx with hx | hx
    · exact Nat.lt_succ_of_lt (h.older x hx)
    · obtain rfl := List.mem_singleton.mp hx
      exact Nat.lt_succ_self _
  · intro x hx
    rcases List.mem_append.mp hx with hx | hx
    · exact h.share x hx
    · obtain rfl := List.mem_singleton.mp hx
      simpa [socketPath, hsettings] using hp

/-- The one that starts is the one that is reached, unless none got the name. -/
theorem Sharing.reached_start (h : m.Sharing path) (hs : m.start settings = .ok m')
    (hp : settings.daemon.socketPath = path) (hbound : ∃ x ∈ m'.daemons, x.bound) :
    ∃ x ∈ m'.daemons, x.number = m.started ∧ x.bound ∧ m'.reached? path = some x := by
  rcases h.held_start hs hp with hnone | ⟨above, d, s, hh, he⟩
  · obtain ⟨x, hx, hbound⟩ := hbound
    simp [hnone x hx] at hbound
  · exact hh.reached (h.start hs hp) he

theorem mem_stop : y ∈ (m.stop x).daemons ↔ y ∈ m.daemons ∧ y.number ≠ x.number := by
  simp [stop]

theorem tree_stop_of_unbound (hbound : x.bound = false) : (m.stop x).tree = m.tree := by
  simp [stop, hbound]

/-- A daemon that got the name leaves nothing there. -/
theorem Held.tree_stop (hh : m.Held path above d s) (h : m.Sharing path) (hx : x ∈ m.daemons)
    (hbound : x.bound) : (m.stop x).tree = m.tree.erase (d ++ [s]) := by
  simp only [stop, hbound, if_true, h.share x hx, hh.name, hh.door.remove]

theorem Held.vacant_stop (hh : m.Held path above d s) (h : m.Sharing path) (hx : x ∈ m.daemons)
    (hbound : x.bound) : (m.stop x).tree.entry? (d ++ [s]) = none := by
  rw [hh.tree_stop h hx hbound, entry?_erase_self (by simp)]

theorem Held.stop (hh : m.Held path above d s) (h : m.Sharing path) (hx : x ∈ m.daemons) :
    (m.stop x).Held path above d s := by
  by_cases hbound : x.bound
  · have hvacant := hh.vacant_stop h hx hbound
    refine ⟨hh.short, hh.name, ?_, fun n hn => by simp [hvacant] at hn⟩
    rw [hh.tree_stop h hx hbound]
    exact hh.door.erase
  · have htree : (m.stop x).tree = m.tree := tree_stop_of_unbound (by simpa using hbound)
    refine ⟨hh.short, hh.name, htree ▸ hh.door, fun n hn => ?_⟩
    rw [htree] at hn
    obtain ⟨y, hy, rfl, hheld⟩ := hh.holder n hn
    refine ⟨y, mem_stop.mpr ⟨hy, fun hnumber => hbound ?_⟩, rfl, hheld⟩
    exact h.eq_of_number hy hx hnumber ▸ hheld

theorem Sharing.stop (h : m.Sharing path) (hx : x ∈ m.daemons) : (m.stop x).Sharing path where
  here := h.here
  nodup := (List.filter_sublist.map Daemon.number).nodup h.nodup
  older y hy := h.older y (mem_stop.mp hy).1
  share y hy := h.share y (mem_stop.mp hy).1
  held := by
    rcases h.held with hnone | ⟨above, d, s, hh⟩
    · exact .inl fun y hy => hnone y (mem_stop.mp hy).1
    · exact .inr ⟨above, d, s, hh.stop h hx⟩

/-- The stop of a daemon that got the name leaves no other to be reached. -/
theorem Sharing.reachable_stop_iff (h : m.Sharing path) (hx : x ∈ m.daemons) (hbound : x.bound) :
    (m.stop x).Reachable path ↔ ∀ y ∈ m.daemons, y.number ≠ x.number → y.bound = false := by
  rcases h.held with hnone | ⟨above, d, s, hh⟩
  · simp [hnone x hx] at hbound
  · have hlost : ¬ ∃ y ∈ (m.stop x).daemons, y.bound ∧ (m.stop x).reached? path = some y := by
      rw [(hh.stop h hx).reachable_iff (h.stop hx), hh.vacant_stop h hx hbound]
      exact not_not.mpr rfl
    unfold Reachable
    rw [imp_iff_not hlost]
    simp [mem_stop]

/-- The stop of a daemon that did not get the name changes nothing for the others. -/
theorem Sharing.reachable_stop_of_unbound (h : m.Sharing path) (hx : x ∈ m.daemons)
    (hbound : x.bound = false) (hr : m.Reachable path) : (m.stop x).Reachable path := by
  rintro ⟨y, hy, hybound⟩
  rcases h.held with hnone | ⟨above, d, s, hh⟩
  · simp [hnone y (mem_stop.mp hy).1] at hybound
  · rw [(hh.stop h hx).reachable_iff (h.stop hx), tree_stop_of_unbound hbound,
      ← hh.reachable_iff h]
    exact hr ⟨y, (mem_stop.mp hy).1, hybound⟩

/-! ## Any starts and stops -/

/-- A daemon is started or one that runs is stopped. -/
inductive Move where
  | start (settings : Settings)
  | stop (number : Nat)

/-- A start that fails and the stop of a daemon that does not run change nothing. -/
def move (m : Machine) : Move → Machine
  | .start settings => (m.start settings).toOption.getD m
  | .stop number =>
    match m.daemons.find? (·.number = number) with
    | some x => m.stop x
    | none => m

def play (m : Machine) (moves : List Move) : Machine := moves.foldl move m

/-- A daemon that got the name stops before another one that got it, too. -/
def Outlived (m : Machine) : Move → Prop
  | .start _ => False
  | .stop number => ∃ x ∈ m.daemons, x.number = number ∧ x.bound ∧
      ∃ y ∈ m.daemons, y.number ≠ number ∧ y.bound

/-- Whoever starts does so with one name. -/
def Move.Uses (path : String) : Move → Prop
  | .start settings => settings.daemon.socketPath = path
  | .stop _ => True

theorem move_start (m : Machine) (settings : Settings) :
    m.start settings = .ok (m.move (.start settings)) ∨ m.move (.start settings) = m := by
  simp only [move]
  cases m.start settings with
  | error e => exact .inr rfl
  | ok m' => exact .inl rfl

theorem move_stop (m : Machine) (number : Nat) :
    (∃ x ∈ m.daemons, x.number = number ∧ m.move (.stop number) = m.stop x) ∨
      (∀ x ∈ m.daemons, x.number ≠ number) ∧ m.move (.stop number) = m := by
  simp only [move]
  split
  · next x hfound =>
    have hnumber : x.number = number := by simpa using List.find?_some hfound
    exact .inl ⟨x, List.mem_of_find?_eq_some hfound, hnumber, rfl⟩
  · next hnone => exact .inr ⟨by simpa using List.find?_eq_none.mp hnone, rfl⟩

theorem Sharing.move {a : Move} (h : m.Sharing path) (ha : a.Uses path) :
    (m.move a).Sharing path := by
  cases a with
  | start settings =>
    rcases m.move_start settings with hs | hs
    · exact h.start hs ha
    · rwa [hs]
  | stop number =>
    rcases m.move_stop number with ⟨x, hx, -, hs⟩ | ⟨-, hs⟩
    · rw [hs]
      exact h.stop hx
    · rwa [hs]

theorem Sharing.outlived_stop_iff (h : m.Sharing path) (hx : x ∈ m.daemons) :
    m.Outlived (.stop x.number) ↔
      x.bound ∧ ∃ y ∈ m.daemons, y.number ≠ x.number ∧ y.bound := by
  constructor
  · rintro ⟨z, hz, hnumber, hbound, hother⟩
    exact ⟨h.eq_of_number hz hx hnumber ▸ hbound, hother⟩
  · rintro ⟨hbound, hother⟩
    exact ⟨x, hx, rfl, hbound, hother⟩

/-- Where the name leads to a daemon, only the stop of a daemon that is outlived ends that. -/
theorem Sharing.reachable_move_iff {a : Move} (h : m.Sharing path) (ha : a.Uses path)
    (hr : m.Reachable path) : (m.move a).Reachable path ↔ ¬ m.Outlived a := by
  cases a with
  | start settings =>
    refine iff_of_true ?_ not_false
    rcases m.move_start settings with hs | hs
    · intro hbound
      obtain ⟨x, hx, -, hreached⟩ := h.reached_start hs ha hbound
      exact ⟨x, hx, hreached⟩
    · rwa [hs]
  | stop number =>
    rcases m.move_stop number with ⟨x, hx, rfl, hs⟩ | ⟨hnone, hs⟩
    · rw [hs, h.outlived_stop_iff hx]
      by_cases hbound : x.bound
      · rw [h.reachable_stop_iff hx hbound]
        simp [hbound]
      · have hunbound : x.bound = false := by simpa using hbound
        exact iff_of_true (h.reachable_stop_of_unbound hx hunbound hr) (by simp [hbound])
    · rw [hs]
      exact iff_of_true hr fun ⟨x, hx, hnumber, _⟩ => hnone x hx hnumber

theorem play_concat (m : Machine) (before : List Move) (a : Move) :
    m.play (before ++ [a]) = (m.play before).move a := by
  simp [play]

theorem Sharing.play {moves : List Move} (h : m.Sharing path) (hm : ∀ a ∈ moves, a.Uses path) :
    (m.play moves).Sharing path := by
  induction moves generalizing m with
  | nil => exact h
  | cons a moves ih =>
    exact ih (h.move (hm a List.mem_cons_self)) fun b hb => hm b (List.mem_cons_of_mem _ hb)

theorem sharing_of_idle (hidle : m.daemons = []) (hhere : ∀ s ∈ m.here, Path.IsName s) :
    m.Sharing path where
  here := hhere
  nodup := by simp [hidle]
  older := by simp [hidle]
  share := by simp [hidle]
  held := .inl (by simp [hidle])

/-- Daemons that use one name start and stop in any order, on a machine where none ran. At all
times the name leads to one that got it and runs, if any does, if and only if no daemon that got
it ever stops before another one that got it, too. -/
theorem stays_reachable_iff {moves : List Move} (hidle : m.daemons = [])
    (hhere : ∀ s ∈ m.here, Path.IsName s) (hmoves : ∀ a ∈ moves, a.Uses path) :
    (∀ before, before <+: moves → (m.play before).Reachable path) ↔
      ∀ before a, before ++ [a] <+: moves → ¬ (m.play before).Outlived a := by
  have hstep : ∀ before a, before ++ [a] <+: moves → (m.play before).Reachable path →
      ((m.play (before ++ [a])).Reachable path ↔ ¬ (m.play before).Outlived a) := by
    intro before a hpre hr
    have hshared : (m.play before).Sharing path := (sharing_of_idle hidle hhere).play fun b hb =>
      hmoves b (hpre.subset (List.mem_append_left _ hb))
    rw [play_concat]
    exact hshared.reachable_move_iff (hmoves a (hpre.subset (by simp))) hr
  constructor
  · intro hall before a hpre
    have hbefore := hall before ((List.prefix_append before [a]).trans hpre)
    exact (hstep before a hpre hbefore).mp (hall _ hpre)
  · intro hnone before hpre
    induction before using List.reverseRecOn with
    | nil => exact fun ⟨x, hx, _⟩ => by simp [play, hidle] at hx
    | append_singleton before a ih =>
      have hbefore := ih ((List.prefix_append before [a]).trans hpre)
      exact (hstep before a hpre hbefore).mpr (hnone before a hpre)

/-! ## One after the other, and one over the other -/

/-- A service whose daemon has the socket `/s`. -/
def doorService : Service where
  settings := {
    workspace := { root := "/ws", policyFile := "p" }
    daemon := { socketPath := "/s" } }
  sandbox := { root := ["ws"] }
  policy := { denied := [["p"]] }
  pool := { size := 4 }

def doorDaemon (number : Nat) : Daemon where
  number := number
  service := doorService
  bound := true

/-- A machine where no daemon runs. -/
def idle : Machine where
  tree := Service.bare
  here := []

/-- The machine after one start. -/
def served : Machine where
  tree := Service.bare.put ["s"] (.socket 0)
  here := []
  daemons := [doorDaemon 0]
  started := 1

/-- The machine after two starts. -/
def crowded : Machine where
  tree := Service.bare.put ["s"] (.socket 1)
  here := []
  daemons := [doorDaemon 0, doorDaemon 1]
  started := 2

theorem doorway_bare : Service.bare.Doorway [] [] "s" := by
  have hvacant : Service.bare.entry? ["s"] = none := by cbv
  exact {
    check := by cbv
    names := by decide
    size := by decide
    leads := by cbv
    directory := rfl
    held := by simp [hvacant] }

theorem ofSettings_door (hroot : Sandbox.ofRoot t [] "/ws" = .ok { root := ["ws"] })
    (hpolicy : Service.loadPolicy t [] doorService.settings.workspace.policyPath = .ok {})
    (hplace : doorService.sandbox.resolveNames t "p" ["ws", "p"] =
      .ok { absolute := ["ws", "p"], relative := ["p"] }) :
    Service.ofSettings doorService.settings t [] = .ok doorService := by
  have hlocate : Path.locate doorService.sandbox.root "p" = some ["ws", "p"] := by decide
  have hp := (Sandbox.resolve_of_locate hlocate).trans hplace
  refine Service.ofSettings_eq_ok.mpr ⟨{}, hpolicy, ?_⟩
  exact Service.ofPolicy_of_resolve hroot rfl hp (by decide) rfl

theorem start_idle : idle.start doorService.settings = .ok served := by
  have hservice : Service.ofSettings doorService.settings idle.tree idle.here = .ok doorService :=
    ofSettings_door (by cbv) (by cbv) (by cbv)
  have hname : idle.socketAt doorService.settings.daemon.socketPath = [] ++ ["s"] := by decide
  have hdoor : idle.tree.Doorway [] [] "s" := doorway_bare
  rw [start_doorway hservice hname hdoor (by decide)]
  rfl

theorem start_served : served.start doorService.settings = .ok crowded := by
  have hservice : Service.ofSettings doorService.settings served.tree served.here =
    .ok doorService := ofSettings_door (by cbv) (by cbv) (by cbv)
  have hname : served.socketAt doorService.settings.daemon.socketPath = [] ++ ["s"] := by decide
  have hdoor : served.tree.Doorway [] [] "s" := doorway_bare.put 0
  rw [start_doorway hservice hname hdoor (by decide)]
  simp [served, crowded, doorDaemon, put_put]

/-- A daemon starts and stops. -/
def visit : List Move := [.start doorService.settings, .stop 0]

theorem stays_reachable_iff_visit :
    idle.daemons = [] ∧ (∀ s ∈ idle.here, Path.IsName s) ∧ (∀ a ∈ visit, a.Uses "/s") ∧
      (∃ x ∈ (idle.play [.start doorService.settings]).daemons, x.bound) ∧
      ∀ before, before <+: visit → (idle.play before).Reachable "/s" := by
  have hidle : idle.daemons = [] := rfl
  have hhere : ∀ s ∈ idle.here, Path.IsName s := by simp [idle]
  have hvisit : ∀ a ∈ visit, a.Uses "/s" := by simp [visit, Move.Uses, doorService]
  have hserved : idle.play [.start doorService.settings] = served := by
    simp [play, move, start_idle, Except.toOption]
  refine ⟨hidle, hhere, hvisit, ⟨doorDaemon 0, by simp [hserved, served], rfl⟩, ?_⟩
  refine (stays_reachable_iff hidle hhere hvisit).mpr fun before a hpre => ?_
  cases a with
  | start settings => exact not_false
  | stop number =>
    -- the only stop follows the only start
    obtain ⟨rfl, rfl⟩ : before = [.start doorService.settings] ∧ number = 0 := by
      rcases before with - | ⟨b, - | ⟨c, before⟩⟩ <;> simp_all [visit]
    rw [hserved]
    simp [Outlived, served, doorDaemon]

/-- A second daemon starts over a first one, which stops then. -/
def takeover : List Move := [.start doorService.settings, .start doorService.settings, .stop 0]

/-- The second daemon got the name and runs, and there is nothing at the name. -/
theorem unreachable_after_takeover :
    doorDaemon 1 ∈ (idle.play takeover).daemons ∧ (doorDaemon 1).bound ∧
      (idle.play takeover).tree.find true ["s"] = .error .noEntry ∧
      ¬ (idle.play takeover).Reachable "/s" := by
  have hplay : idle.play takeover = crowded.stop (doorDaemon 0) := by
    simp only [play, takeover, List.foldl, move, start_idle, start_served, Except.toOption,
      Option.getD_some]
    rfl
  have hfind : (crowded.stop (doorDaemon 0)).tree.find true ["s"] = .error .noEntry := by cbv
  have hrun : doorDaemon 1 ∈ (crowded.stop (doorDaemon 0)).daemons :=
    mem_stop.mpr ⟨by simp [crowded], by decide⟩
  rw [hplay]
  refine ⟨hrun, rfl, hfind, fun hr => ?_⟩
  obtain ⟨x, -, -, hx⟩ := hr ⟨_, hrun, rfl⟩
  have hname : (crowded.stop (doorDaemon 0)).socketAt "/s" = ["s"] := by decide
  simp [reached?, hname, hfind] at hx

end Worksite.Machine
