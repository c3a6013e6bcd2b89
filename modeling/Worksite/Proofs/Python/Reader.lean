import Mathlib
import Worksite.Python.Expression

/-!
Readers of Python text only go ahead. They pass over characters and count the rows of what they
pass, so what is true of a place and of all places behind it is kept by a reader.
-/
namespace Worksite.Python

variable {α β : Type} {c c' next : Cursor} {e : Expect} {t : Token} {P : Cursor → Prop}

namespace Cursor

/-- The second place is the first or behind it; its row counts the line feeds between them. -/
structure Ahead (c c' : Cursor) : Prop where
  isSuffix : c'.rest <:+ c.rest
  row_eq : c'.row + c'.rest.count '\n' = c.row + c.rest.count '\n'

theorem Ahead.refl (c : Cursor) : c.Ahead c := ⟨List.suffix_refl _, rfl⟩

theorem Ahead.trans {c'' : Cursor} (h : c.Ahead c') (h' : c'.Ahead c'') : c.Ahead c'' :=
  ⟨h'.isSuffix.trans h.isSuffix, h'.row_eq.trans h.row_eq⟩

theorem Ahead.row_le (h : c.Ahead c') : c.row ≤ c'.row := by
  have hcount := h.isSuffix.sublist.count_le '\n'
  have hrows := h.row_eq
  omega

/-- Indentations that are opened or closed are no way. -/
theorem ahead_indents (c : Cursor) (indents : List Nat) : c.Ahead { c with indents } :=
  ⟨List.suffix_refl _, rfl⟩

theorem ahead_skip (c : Cursor) (n : Nat) : c.Ahead (c.skip n) := by
  induction n generalizing c with
  | zero => exact .refl c
  | succ n ih =>
    rw [skip]
    split
    · exact .refl c
    · next x rest hrest =>
      refine Ahead.trans ⟨?_, ?_⟩ (ih _)
      · rw [hrest]
        exact List.suffix_cons x rest
      · rw [hrest, List.count_cons]
        by_cases hx : x = '\n'
        · subst hx
          simp only [↓reduceIte, beq_self_eq_true]
          omega
        · simp [hx]

theorem ahead_skipTo (c : Cursor) (rest : List Char) : c.Ahead (c.skipTo rest) := c.ahead_skip _

end Cursor

/-! ## Tokens -/

theorem Token.ahead_of_layout (h : Token.layout e c = some (t, next)) : c.Ahead next := by
  rw [Token.layout] at h
  obtain ⟨m, -, h⟩ := Option.bind_eq_some_iff.mp h
  dsimp only at h
  split_ifs at h
  · obtain ⟨-, rfl⟩ := Prod.mk.inj (Option.some.inj h)
    exact c.ahead_indents _
  · obtain ⟨-, rfl⟩ := Prod.mk.inj (Option.some.inj h)
    exact c.ahead_indents _
  · obtain ⟨-, rfl⟩ := Prod.mk.inj (Option.some.inj h)
    exact .refl c
  · obtain ⟨⟨q, rest⟩, -, h⟩ := Option.bind_eq_some_iff.mp h
    obtain ⟨-, rfl⟩ := Prod.mk.inj (Option.some.inj h)
    exact c.ahead_skipTo rest

theorem Token.ahead_of_plain (h : Token.plain c = some (t, next)) : c.Ahead next := by
  have hskip (n : Nat) : c.Ahead (c.skip n) := c.ahead_skip n
  have hskipTo (rest : List Char) : c.Ahead (c.skipTo rest) := c.ahead_skipTo rest
  have hrefl := Cursor.Ahead.refl c
  grind [Token.plain]

theorem Token.ahead_of_nextWithin {fuel : Nat} (h : Token.nextWithin e fuel c = some (t, next)) :
    c.Ahead next := by
  induction fuel generalizing c with
  | zero => cases h
  | succ fuel ih =>
    rw [Token.nextWithin] at h
    split at h
    · next found hlayout =>
      rw [h] at hlayout
      exact Token.ahead_of_layout hlayout
    · have hblank := c.ahead_skip (c.rest.takeWhile isBlank).length
      dsimp only at h
      split at h
      · exact hblank.trans ((Cursor.ahead_skipTo _ _).trans (ih h))
      · exact hblank.trans (Token.ahead_of_plain h)

theorem Token.ahead_of_next (h : Token.next e c = some (t, next)) : c.Ahead next :=
  Token.ahead_of_nextWithin h

/-! ## Readers -/

/-- What is true of a place is true of all places behind it. -/
def Steady (P : Cursor → Prop) : Prop := ∀ c c', c.Ahead c' → P c → P c'

theorem steady_ahead (start : Cursor) : Steady start.Ahead := fun _ _ h h' => h'.trans h

/-- A reader that starts where `P` is true and succeeds ends where `Q` is, for what it reads. -/
def Leads (P : Cursor → Prop) (r : Reader α) (Q : α → Cursor → Prop) : Prop :=
  ∀ c, P c → ∀ a c', r c = some (a, c') → Q a c'

namespace Leads

variable {r r' : Reader α} {Q : α → Cursor → Prop} {R : β → Cursor → Prop}

theorem pure {a : α} (h : ∀ c, P c → Q a c) : Leads P (pure a) Q := by
  intro c hc a' c' hpure
  obtain ⟨rfl, rfl⟩ := Prod.mk.inj (Option.some.inj hpure)
  exact h c hc

theorem failure : Leads P (failure : Reader α) Q := by
  intro c hc a c' h
  cases h

theorem set {Q : PUnit → Cursor → Prop} (h : Q ⟨⟩ next) : Leads P (set next : Reader PUnit) Q := by
  intro c hc a c' hset
  obtain ⟨-, rfl⟩ := Prod.mk.inj (Option.some.inj hset)
  exact h

theorem bind {f : α → Reader β} (hr : Leads P r Q) (hf : ∀ a, Leads (Q a) (f a) R) :
    Leads P (r >>= f) R := by
  intro c hc b c' h
  obtain ⟨⟨a, c₁⟩, hfirst, h⟩ := Option.bind_eq_some_iff.mp h
  exact hf a c₁ (hr c hc a c₁ hfirst) b c' h

theorem get_bind {f : Cursor → Reader β} (hf : ∀ c, P c → Leads P (f c) R) :
    Leads P (get >>= f) R := fun c hc b c' h => hf c hc c hc b c' h

/-- The place behind the next token can be moved to. -/
theorem look_bind (hP : Steady P) {f : Token × Cursor → Reader β}
    (hf : ∀ t next, P next → Leads P (f (t, next)) R) : Leads P (look e >>= f) R := by
  intro c hc b c' h
  obtain ⟨⟨⟨t, next⟩, c₁⟩, hlook, h⟩ := Option.bind_eq_some_iff.mp h
  obtain ⟨found, hnext, heq⟩ := Option.map_eq_some_iff.mp hlook
  obtain ⟨rfl, rfl⟩ := Prod.mk.inj heq
  exact hf t next (hP c next (Token.ahead_of_next hnext) hc) c hc b c' h

theorem orElse (hr : Leads P r Q) (hr' : Leads P r' Q) : Leads P (r <|> r') Q := by
  intro c hc a c' h
  have hcases : (r c <|> r' c) = some (a, c') := h
  cases hfirst : r c with
  | some found =>
    rw [hfirst] at hcases
    exact hr c hc a c' (hfirst.trans hcases)
  | none =>
    rw [hfirst] at hcases
    exact hr' c hc a c' hcases

theorem map {f : α → β} (h : Leads P r fun a => R (f a)) : Leads P (StateT.map f r) R := by
  intro c hc b c' hmap
  obtain ⟨⟨a, c₁⟩, hr, hpure⟩ := Option.bind_eq_some_iff.mp hmap
  obtain ⟨rfl, rfl⟩ := Prod.mk.inj (Option.some.inj hpure)
  exact h c hc a c₁ hr

variable {I : α → Cursor → Prop} {step : α → Reader (Option α)}

/-- The invariant `I` of a step holds of what the steps end with. -/
theorem iterate (hstep : ∀ a, Leads (I a) (step a) fun next => I (next.getD a)) (fuel : Nat)
    (a : α) : Leads (I a) (iterate step fuel a) I := by
  induction fuel generalizing a with
  | zero => exact failure
  | succ fuel ih =>
    refine bind (hstep a) fun next => ?_
    cases next with
    | none => exact pure fun _ h => h
    | some b => exact ih b

theorem loop (hstep : ∀ a, Leads (I a) (step a) fun next => I (next.getD a)) (a : α) :
    Leads (I a) (loop step a) I := get_bind fun _ _ => iterate hstep _ a

end Leads

/-- A reader that starts where `P` is true and succeeds ends where `P` is true. -/
def Keeps (P : Cursor → Prop) (r : Reader α) : Prop := Leads P r fun _ => P

namespace Keeps

variable {r r' : Reader α}

@[grind ←] theorem pure (a : α) : Keeps P (pure a) := Leads.pure fun _ h => h

@[grind ←] theorem failure : Keeps P (failure : Reader α) := Leads.failure

@[grind ←] theorem guarded (p : Prop) [Decidable p] : Keeps P (guard p : Reader Unit) := by
  rw [guard]
  split_ifs
  · exact .pure ()
  · exact failure

@[grind ←] theorem set (h : P next) : Keeps P (set next : Reader PUnit) := Leads.set h

@[grind ←] theorem bind {f : α → Reader β} (hr : Keeps P r) (hf : ∀ a, Keeps P (f a)) :
    Keeps P (r >>= f) := Leads.bind hr hf

@[grind ←] theorem get_bind {f : Cursor → Reader β} (hf : ∀ c, P c → Keeps P (f c)) :
    Keeps P (get >>= f) := Leads.get_bind hf

@[grind ←] theorem look_bind (hP : Steady P) {f : Token × Cursor → Reader β}
    (hf : ∀ t next, P next → Keeps P (f (t, next))) : Keeps P (look e >>= f) :=
  Leads.look_bind hP hf

theorem orElse (hr : Keeps P r) (hr' : Keeps P r') : Keeps P (r <|> r') := Leads.orElse hr hr'

@[grind ←] theorem loop {step : α → Reader (Option α)} (hstep : ∀ a, Keeps P (step a)) (a : α) :
    Keeps P (loop step a) := Leads.loop hstep a

@[grind ←] theorem provided {b : Bool} {read : Reader Bool} (h : Keeps P read) :
    Keeps P (provided b read) := by
  rw [Python.provided]
  split_ifs
  · exact h
  · exact .pure false

variable {word sign : String}

@[grind ←] theorem takeSign (hP : Steady P) : Keeps P (takeSign e sign) := by
  grind [Python.takeSign]

@[grind ←] theorem takeWord (hP : Steady P) : Keeps P (takeWord word) := by
  grind [Python.takeWord]

@[grind ←] theorem takeName (hP : Steady P) : Keeps P takeName := by
  grind [Python.takeName]

@[grind ←] theorem passSign (hP : Steady P) : Keeps P (passSign e sign) := by
  grind [Python.passSign]

@[grind ←] theorem passWord (hP : Steady P) : Keeps P (passWord e word) := by
  grind [Python.passWord]

end Keeps

end Worksite.Python
