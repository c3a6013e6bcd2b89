import Worksite.Index
import Worksite.Proofs.Outcome

/-!
The index under interleaving. Any number of clients rebuild its halves and query it, one atomic
step at a time. A rebuild scans without the lock, and then locks, loads the current snapshot, stores
the next one and unlocks. Nobody stores but with the lock, so what was loaded is still current when
the next snapshot is stored, and no publication is lost.
-/
namespace Worksite.Index

/-- The two rebuilds, by the half that they replace. -/
inductive Rebuild where
  | symbols
  | graph
  deriving DecidableEq

/-- The half that a rebuild makes of its scan. -/
def Rebuild.half : Rebuild → List (FoundFile × String) → Half
  | .symbols => symbolsOf
  | .graph => graphOf

/-- Where a client stands. -/
inductive Phase where
  | idle
  | scanning (r : Rebuild)
  | ready (half : Half)
  | locked (half : Half)
  | loaded (half : Half) (previous : IndexSnapshot)
  | stored

/-- Whether a client in a phase holds the lock. -/
def Phase.isInside : Phase → Bool
  | .idle | .scanning _ | .ready _ => false
  | .locked _ | .loaded _ _ | .stored => true

/-- What the clients share, and where each of them stands. -/
structure Store (Client : Type) where
  current : IndexSnapshot := {}
  owner : Option Client := none
  phase : Client → Phase := fun _ => .idle

/-- What clients get to know. -/
inductive Event (Client : Type) where
  | published (c : Client) (half : Half) (snapshot : IndexSnapshot)
  | failed (c : Client) (e : WorkspaceError)
  | found (c : Client) (q : SymbolQuery) (symbols : List Symbol)

variable {Client : Type} [DecidableEq Client]

def Store.enter (st : Store Client) (c : Client) (p : Phase) : Store Client :=
  { st with phase := Function.update st.phase c p }

/-- One step of one client. A scan may come to anything, since the files may change meanwhile. A
query loads the current snapshot, which never changes, and finds all in it. -/
inductive Step : Store Client → Option (Event Client) → Store Client → Prop where
  | start {st : Store Client} {c : Client} (r : Rebuild) :
      st.phase c = .idle → Step st none (st.enter c (.scanning r))
  | scan {st : Store Client} {c : Client} {r : Rebuild} (scanned : List (FoundFile × String)) :
      st.phase c = .scanning r → Step st none (st.enter c (.ready (r.half scanned)))
  | fail {st : Store Client} {c : Client} {r : Rebuild} (e : WorkspaceError) :
      st.phase c = .scanning r → Step st (some (.failed c e)) (st.enter c .idle)
  | lock {st : Store Client} {c : Client} {half : Half} :
      st.phase c = .ready half → st.owner = none →
        Step st none { st.enter c (.locked half) with owner := some c }
  | load {st : Store Client} {c : Client} {half : Half} :
      st.phase c = .locked half → Step st none (st.enter c (.loaded half st.current))
  | store {st : Store Client} {c : Client} {half : Half} {previous : IndexSnapshot} :
      st.phase c = .loaded half previous →
        Step st (some (.published c half (previous.publish half)))
          { st.enter c .stored with current := previous.publish half }
  | unlock {st : Store Client} {c : Client} :
      st.phase c = .stored → Step st none { st.enter c .idle with owner := none }
  | query {st : Store Client} {c : Client} (q : SymbolQuery) :
      st.phase c = .idle → Step st (some (.found c q (st.current.symbols.search q))) st

/-- Steps of any clients, one after the other, and the events of them in order. -/
inductive Steps : Store Client → List (Event Client) → Store Client → Prop where
  | refl (st : Store Client) : Steps st [] st
  | step {st st' st'' : Store Client} {log : List (Event Client)} {event : Option (Event Client)} :
      Steps st log st' → Step st' event st'' → Steps st (log ++ event.toList) st''

/-! ## What is published -/

def Half.symbols? : Half → Option (SymbolTable × Nat)
  | .symbols table files => some (table, files)
  | .graph _ => none

def Half.graph? : Half → Option DependencyGraph
  | .symbols _ _ => none
  | .graph g => some g

/-- The snapshot that shows the latest of each half. -/
def latest (halves : List Half) : IndexSnapshot where
  generation := halves.length
  symbols := ((halves.filterMap Half.symbols?).getLast?.map Prod.fst).getD {}
  indexedFiles := ((halves.filterMap Half.symbols?).getLast?.map Prod.snd).getD 0
  graph := (halves.filterMap Half.graph?).getLast?.getD {}

/-- Publishing a half makes it the latest of its kind, and keeps the latest of the other kind. -/
theorem publish_latest (halves : List Half) (half : Half) :
    (latest halves).publish half = latest (halves ++ [half]) := by
  cases half <;>
    simp [latest, IndexSnapshot.publish, List.filterMap_append, Half.symbols?, Half.graph?]

/-- The halves that were published. -/
def published (log : List (Event Client)) : List Half :=
  log.filterMap fun
    | .published _ half _ => some half
    | .failed _ _ | .found _ _ _ => none

/-- The generations that publications returned. -/
def generations (log : List (Event Client)) : List Nat :=
  log.filterMap fun
    | .published _ _ snapshot => some snapshot.generation
    | .failed _ _ | .found _ _ _ => none

/-! ## What one step does -/

variable {st st' st'' : Store Client} {event : Option (Event Client)} {e : Event Client}
  {log before after : List (Event Client)} {c d : Client} {half : Half}
  {snapshot : IndexSnapshot}

/-- Who is inside holds the lock, and what it has loaded is current. -/
structure Store.Sound (st : Store Client) : Prop where
  inside : ∀ c, (st.phase c).isInside ↔ st.owner = some c
  loaded : ∀ c half previous, st.phase c = .loaded half previous → previous = st.current

theorem Store.enter_phase (st : Store Client) (c d : Client) (p : Phase) :
    (st.enter c p).phase d = if d = c then p else st.phase d := by
  simp [Store.enter, Function.update_apply]

omit [DecidableEq Client] in
theorem sound_initial : ({} : Store Client).Sound where
  inside := by simp [Phase.isInside]
  loaded := by simp

/-- A step that neither locks nor unlocks nor loads nor stores. -/
theorem Store.Sound.enter (h : st.Sound) {p : Phase} (hc : (st.phase c).isInside = p.isInside)
    (hp : ∀ half previous, p = .loaded half previous → previous = st.current) :
    (st.enter c p).Sound where
  inside d := by
    rw [Store.enter_phase]
    split_ifs with hd
    · rw [← hc, ← hd]
      exact h.inside d
    · exact h.inside d
  loaded d half previous hd := by
    rw [Store.enter_phase] at hd
    split_ifs at hd with hdc
    · exact hp half previous hd
    · exact h.loaded d half previous hd

omit [DecidableEq Client] in
/-- At most one client is inside. -/
theorem Store.Sound.alone (h : st.Sound) (hc : (st.phase c).isInside)
    (hd : (st.phase d).isInside) : d = c :=
  Option.some.inj (((h.inside d).mp hd).symm.trans ((h.inside c).mp hc))

theorem Store.Sound.step (h : st.Sound) (hstep : Step st event st') : st'.Sound := by
  cases hstep with
  | start r hc => exact h.enter (by simp [hc, Phase.isInside]) (by simp)
  | scan scanned hc => exact h.enter (by simp [hc, Phase.isInside]) (by simp)
  | fail e hc => exact h.enter (by simp [hc, Phase.isInside]) (by simp)
  | @lock c half hc hfree =>
    have hout (d : Client) : (st.phase d).isInside = false := by
      rw [← Bool.not_eq_true, h.inside, hfree]
      simp
    refine ⟨fun d => ?_, fun d half' previous hd => ?_⟩
    · by_cases hdc : d = c
      · simp [Store.enter_phase, hdc, Phase.isInside]
      · simp [Store.enter_phase, hdc, hout, Ne.symm hdc]
    · rw [Store.enter_phase] at hd
      split_ifs at hd
      exact h.loaded d half' previous hd
  | load hc =>
    refine h.enter (by simp [hc, Phase.isInside]) fun half' previous heq => ?_
    exact (Phase.loaded.inj heq).2.symm
  | @store c half previous hc =>
    have hin : (st.phase c).isInside := by simp [hc, Phase.isInside]
    refine ⟨(h.enter (c := c) (p := .stored) (by simp [hc, Phase.isInside]) (by simp)).inside,
      fun d half' previous' hd => ?_⟩
    -- nobody else has loaded what is replaced
    rw [Store.enter_phase] at hd
    split_ifs at hd with hdc
    exact absurd (h.alone hin (by simp [hd, Phase.isInside])) hdc
  | @unlock c hc =>
    have hin : (st.phase c).isInside := by simp [hc, Phase.isInside]
    refine ⟨fun d => ?_, fun d half' previous hd => ?_⟩
    · by_cases hdc : d = c
      · simp [Store.enter_phase, hdc, Phase.isInside]
      · have hout : ¬ (st.phase d).isInside := fun hd => hdc (h.alone hin hd)
        simp [Store.enter_phase, hdc, hout]
    · rw [Store.enter_phase] at hd
      split_ifs at hd with hdc
      exact h.loaded d half' previous hd
  | query q hc => exact h

/-- What is published is made of what was current, and nothing else makes anything current. -/
theorem Store.Sound.current_step (h : st.Sound) (hstep : Step st event st') :
    st'.current = (published event.toList).foldl IndexSnapshot.publish st.current := by
  cases hstep with
  | start | scan | fail | lock | load | unlock | query => rfl
  | store hc => rw [h.loaded _ _ _ hc]; rfl

/-! ## Runs -/

theorem Steps.sound (h : Steps st log st') (hs : st.Sound) : st'.Sound := by
  induction h with
  | refl => exact hs
  | step _ hstep ih => exact ih.step hstep

omit [DecidableEq Client] in
theorem published_append (a b : List (Event Client)) :
    published (a ++ b) = published a ++ published b :=
  List.filterMap_append

theorem foldl_publish_latest (halves more : List Half) :
    more.foldl IndexSnapshot.publish (latest halves) = latest (halves ++ more) := by
  induction more generalizing halves with
  | nil => simp
  | cons half more ih => rw [List.foldl_cons, publish_latest, ih, List.append_assoc]; rfl

/-- What is current in the end shows the latest halves that were published. -/
theorem Steps.current_eq (h : Steps ({} : Store Client) log st) :
    st.current = latest (published log) := by
  induction h with
  | refl => rfl
  | step hsteps hstep ih =>
    -- the last step publishes on top of the latest halves, if it publishes at all
    rw [(hsteps.sound sound_initial).current_step hstep, ih, foldl_publish_latest,
      published_append]

/-- Each event is that of one step of the run. -/
theorem Steps.split (h : Steps st (before ++ e :: after) st'') :
    ∃ st₁ st₂, Steps st before st₁ ∧ Step st₁ (some e) st₂ ∧ Steps st₂ after st'' := by
  generalize hlog : before ++ e :: after = log at h
  induction h generalizing after with
  | refl => simp at hlog
  | @step st' st'' log event hsteps hstep ih =>
    cases event with
    | none =>
      obtain ⟨st₁, st₂, h₁, h₂, h₃⟩ := ih (by simpa using hlog)
      have h₄ := h₃.step hstep
      rw [Option.toList_none, List.append_nil] at h₄
      exact ⟨st₁, st₂, h₁, h₂, h₄⟩
    | some e' =>
      -- the event is the last one, or one of those before
      rcases List.eq_nil_or_concat after with rfl | ⟨after', last, rfl⟩
      · obtain ⟨rfl, rfl⟩ : before = log ∧ e = e' := by simpa using hlog
        exact ⟨_, _, hsteps, hstep, .refl _⟩
      · rw [List.concat_eq_append] at hlog ⊢
        rw [← List.cons_append, ← List.append_assoc, Option.toList_some] at hlog
        obtain ⟨hlog, hlast⟩ := List.append_inj' hlog rfl
        obtain ⟨st₁, st₂, h₁, h₂, h₃⟩ := ih hlog
        obtain rfl : last = e' := by simpa using hlast
        exact ⟨st₁, st₂, h₁, h₂, h₃.step hstep⟩

/-- What is right about an event between two stores, when the halves were published before. -/
def Event.Fits (halves : List Half) (st st' : Store Client) : Event Client → Prop
  | .published _ half snapshot => snapshot = latest (halves ++ [half]) ∧ st'.current = snapshot
  | .failed c _ => st' = st.enter c .idle
  | .found _ q symbols => symbols = st.current.symbols.symbols.filter q.admits ∧ st' = st

theorem Step.fits (hstep : Step st (some e) st') (hs : st.Sound) {halves : List Half}
    (h : st.current = latest halves) : e.Fits halves st st' := by
  cases hstep with
  | fail => exact rfl
  | store hc =>
    obtain rfl := hs.loaded _ _ _ hc
    exact ⟨by rw [h, publish_latest], rfl⟩
  | query => exact ⟨rfl, rfl⟩

/-- Publications count up from one. -/
theorem Steps.generations_eq (h : Steps ({} : Store Client) log st) :
    generations log = List.range' 1 (published log).length := by
  induction h with
  | refl => rfl
  | @step st' st'' log event hsteps hstep ih =>
    rw [generations, List.filterMap_append, ← generations, ih, published_append,
      List.length_append]
    cases hstep with
    | start | scan | fail | lock | load | unlock | query => simp [published]
    | @store c half previous hc =>
      -- what was loaded is current, so it counts the publications before
      have hprevious : previous.generation = (published log).length := by
        rw [(hsteps.sound sound_initial).loaded _ _ _ hc, hsteps.current_eq]
        rfl
      have hnext : (previous.publish half).generation = 1 + (published log).length := by
        rw [← hprevious, Nat.add_comm]
        cases half <;> rfl
      have hlast : generations (some (Event.published c half (previous.publish half))).toList =
          [1 + (published log).length] := congrArg (fun n => [n]) hnext
      rw [← generations, hlast]
      exact List.range'_1_concat.symm

/-- However clients interleave: the current generation counts the publications, and no two
publications return the same one. What is current shows the latest halves, and so does what each
publication returns. A rebuild that fails changes nothing but that its client is done, and a query
finds what matches in the snapshot that is current then. -/
theorem steps_latest (h : Steps ({} : Store Client) log st) :
    st.current.generation = (published log).length ∧ (generations log).Nodup ∧
      st.current = latest (published log) ∧
      ∀ before e after, log = before ++ e :: after → ∃ st₁ st₂,
        Steps {} before st₁ ∧ Step st₁ (some e) st₂ ∧ Steps st₂ after st ∧
          st₁.current = latest (published before) ∧ e.Fits (published before) st₁ st₂ := by
  refine ⟨by rw [h.current_eq]; rfl, ?_, h.current_eq, ?_⟩
  · rw [h.generations_eq]
    exact List.nodup_range'
  · rintro before e after rfl
    obtain ⟨st₁, st₂, h₁, hstep, h₂⟩ := h.split
    exact ⟨st₁, st₂, h₁, hstep, h₂, h₁.current_eq,
      hstep.fits (h₁.sound sound_initial) h₁.current_eq⟩

/-! ## Rebuilds that nobody interrupts -/

/-- A rebuild as a service does it, at once. -/
def Rebuild.alone : Rebuild → IndexSnapshot → Sandbox → FileTree → IndexScope → Deadline →
    Except WorkspaceError IndexSnapshot
  | .symbols => IndexSnapshot.rebuildSymbols
  | .graph => IndexSnapshot.rebuildGraph

variable {r : Rebuild} {s : Sandbox} {t : FileTree} {scope : IndexScope} {deadline : Deadline}

theorem Rebuild.alone_eq (r : Rebuild) (i : IndexSnapshot) (s : Sandbox) (t : FileTree)
    (scope : IndexScope) (deadline : Deadline) : r.alone i s t scope deadline =
      (Index.scan s t scope deadline).map fun scanned => i.publish (r.half scanned) := by
  cases r <;> rfl

theorem Store.enter_phase_self (st : Store Client) (c : Client) (p : Phase) :
    (st.enter c p).phase c = p := by
  rw [Store.enter_phase, if_pos rfl]

theorem Store.enter_enter (st : Store Client) (c : Client) (p p' : Phase) :
    (st.enter c p).enter c p' = st.enter c p' := by
  simp [Store.enter]

theorem Store.enter_idle (hc : st.phase c = .idle) : st.enter c .idle = st := by
  simp [Store.enter, ← hc]

/-- A rebuild that nobody interrupts comes to what a service comes to: it publishes the same
snapshot, or fails and leaves the store as it was. -/
theorem steps_of_alone (hc : st.phase c = .idle) (hfree : st.owner = none) :
    match r.alone st.current s t scope deadline with
    | .ok i => ∃ half, Steps st [.published c half i] { st with current := i }
    | .error e => Steps st [.failed c e] st := by
  have hstart := (Steps.refl st).step (.start r hc)
  rw [Rebuild.alone_eq]
  cases Index.scan s t scope deadline with
  | error e =>
    have hfailed := hstart.step (.fail e (Store.enter_phase_self st c _))
    rw [Store.enter_enter, Store.enter_idle hc] at hfailed
    exact hfailed
  | ok scanned =>
    have hready := hstart.step (.scan scanned (Store.enter_phase_self st c _))
    have hlocked := hready.step (.lock (Store.enter_phase_self _ c _) hfree)
    have hloaded := hlocked.step (.load (Store.enter_phase_self _ c _))
    have hstored := hloaded.step (.store (Store.enter_phase_self _ c _))
    have hdone := hstored.step (.unlock (Store.enter_phase_self _ c _))
    have hphase : Function.update st.phase c .idle = st.phase := by simp [← hc]
    refine ⟨r.half scanned, ?_⟩
    simpa [Store.enter, hfree, hphase] using hdone

/-- Two clients: while the first one is at its symbols, the other one publishes a graph. Then the
first one queries, and the other one fails. -/
def overlapping : List (Event Bool) :=
  let graph := ({} : IndexSnapshot).publish (graphOf [])
  let both := graph.publish (symbolsOf [({ relative := ["a.py"], size := 1 }, "x")])
  [.published false (graphOf []) graph,
    .published true (symbolsOf [({ relative := ["a.py"], size := 1 }, "x")]) both,
    .found true {} (both.symbols.search {}), .failed false (.ofSystem "src" .noEntry)]

theorem steps_overlapping : ∃ st, Steps ({} : Store Bool) overlapping st := by
  have h₁ := (Steps.refl ({} : Store Bool)).step (.start (c := true) .symbols rfl)
  have h₂ := h₁.step (.start (c := false) .graph rfl)
  have h₃ := h₂.step (.scan (c := true) [({ relative := ["a.py"], size := 1 }, "x")] rfl)
  have h₄ := h₃.step (.scan (c := false) [] rfl)
  have h₅ := h₄.step (.lock (c := false) rfl rfl)
  have h₆ := h₅.step (.load (c := false) rfl)
  have h₇ := h₆.step (.store (c := false) rfl)
  have h₈ := h₇.step (.unlock (c := false) rfl)
  have h₉ := h₈.step (.lock (c := true) rfl rfl)
  have h₁₀ := h₉.step (.load (c := true) rfl)
  have h₁₁ := h₁₀.step (.store (c := true) rfl)
  have h₁₂ := h₁₁.step (.unlock (c := true) rfl)
  have h₁₃ := h₁₂.step (.query (c := true) {} rfl)
  have h₁₄ := h₁₃.step (.start (c := false) .graph rfl)
  have h₁₅ := h₁₄.step (.fail (c := false) (.ofSystem "src" .noEntry) rfl)
  exact ⟨_, h₁₅⟩

theorem steps_latest_overlapping : ∃ st, Steps ({} : Store Bool) overlapping st ∧
    st.current.generation = 2 ∧ st.current = latest
      [graphOf [], symbolsOf [({ relative := ["a.py"], size := 1 }, "x")]] := by
  obtain ⟨st, h⟩ := steps_overlapping
  obtain ⟨hcount, -, hcurrent, -⟩ := steps_latest h
  exact ⟨st, h, hcount, hcurrent⟩

end Worksite.Index
