import Worksite.Proofs.Python.Reader

/-!
The readers of Python expressions go ahead, since they are made of readers that do and move only to
places behind what they looked at.
-/
namespace Worksite.Python

variable {P : Cursor → Prop} {self : Inner} {c : Cursor}

theorem Steady.skip (hP : Steady P) (h : P c) (n : Nat) : P (c.skip n) :=
  hP c _ (c.ahead_skip n) h

namespace Keeps

@[grind ←] theorem atLoop (hP : Steady P) (after : After) : Keeps P (atLoop after) := by
  grind [Python.atLoop]

/-- Items between commas, up to a closing sign. -/
@[grind ←] theorem patternsUntil (hP : Steady P) (closing : String) {item : Reader Unit}
    (hitem : Keeps P item) : Keeps P (patternsUntil closing item) := by
  unfold Python.patternsUntil
  refine bind (by grind) fun closed => ?_
  split_ifs
  · refine bind hitem fun _ => bind (loop (fun _ => ?_) ()) fun _ => takeSign hP
    grind
  · exact takeSign hP

@[grind ←] theorem numberPattern (hP : Steady P) (after : After) :
    Keeps P (numberPattern after) := by
  unfold Python.numberPattern
  refine bind (passSign hP) fun _ => look_bind hP fun t next hn => ?_
  split
  · refine bind (set (by grind)) fun _ => look_bind hP fun t next hn => ?_
    grind
  · exact bind failure fun _ => look_bind hP fun t next hn => by grind

section

variable (hP : Steady P) (hself : ∀ f, Keeps P (self f))
include hP hself

/-! ## Strings -/

@[grind ←] theorem stringStep (q : Quote) (fresh : Bool) :
    Keeps P (Python.stringStep self q fresh) := by
  grind [Python.stringStep, Steady.skip]

@[grind ←] theorem string (q : Quote) : Keeps P (Python.string self q) := by
  grind [Python.string]

@[grind ←] theorem formatStep (u : Unit) : Keeps P (Python.formatStep self u) := by
  grind [Python.formatStep, Steady.skip]

/-! ## Lists of expressions -/

@[grind ←] theorem moreExpressions (after : After) (stops : List String) (first : Shape) :
    Keeps P (Python.moreExpressions self after stops first) := by
  grind [Python.moreExpressions]

@[grind ←] theorem expressions (after : After) (stops : List String) :
    Keeps P (Python.expressions self after stops) := by
  grind [Python.expressions]

@[grind ←] theorem yielded (after : After) : Keeps P (Python.yielded self after) := by
  grind [Python.yielded]

@[grind ←] theorem targets : Keeps P (Python.targets self) := by
  unfold Python.targets
  have target := bind (hself (.operand {})) fun s => guarded (P := P) s.isTarget
  refine bind target fun _ => bind (loop (fun _ => ?_) ()) fun _ => takeWord hP
  grind

/-! ## Comprehensions -/

@[grind ←] theorem loopClause : Keeps P (Python.loopClause self) := by
  unfold Python.loopClause
  refine bind (passWord hP) fun _ => bind (takeWord hP) fun _ => bind (targets hP hself) fun _ =>
    bind (hself _) fun _ => loop (fun _ => ?_) ()
  refine bind (passSign hP) fun _ => ?_
  grind

@[grind ←] theorem clauses : Keeps P (Python.clauses self) := by
  grind [Python.clauses]

/-! ## Brackets -/

@[grind ←] theorem element : Keeps P (Python.element self) := by
  grind [Python.element]

@[grind ←] theorem moreElements (closing : String) (first : Shape) :
    Keeps P (Python.moreElements self closing first) := by
  unfold Python.moreElements
  refine bind (loop (fun s => ?_) first) fun s => bind (takeSign hP) fun _ => .pure s
  grind

@[grind ←] theorem collection (closing : String) : Keeps P (Python.collection self closing) := by
  grind [Python.collection]

@[grind ←] theorem dictionaryItem : Keeps P (Python.dictionaryItem self) := by
  grind [Python.dictionaryItem]

@[grind ←] theorem moreItems : Keeps P (Python.moreItems self) := by
  unfold Python.moreItems
  refine bind (loop (fun _ => ?_) ()) fun _ => takeSign hP
  grind

@[grind ←] theorem braces : Keeps P (Python.braces self) := by
  unfold Python.braces
  refine look_bind hP fun t next hn => ?_
  split
  · grind
  · grind
  · grind
  · refine bind (element hP hself) fun e => ?_
    split
    · refine bind (passSign hP) fun pair => ?_
      split_ifs
      · refine bind (hself _) fun _ => ?_
        grind
      · grind
    · grind

@[grind ←] theorem index : Keeps P (Python.index self) := by
  unfold Python.index
  refine bind (passSign hP) fun slice => ?_
  split_ifs
  · refine bind (by grind) fun _ => ?_
    grind
  · refine bind (hself _) fun _ => bind (passSign hP) fun _ => ?_
    grind

@[grind ←] theorem subscript : Keeps P (Python.subscript self) := by
  unfold Python.subscript
  refine bind (index hP hself) fun _ => bind (loop (fun _ => ?_) ()) fun _ => takeSign hP
  grind

@[grind ←] theorem argument : Keeps P (Python.argument self) := by
  grind [Python.argument]

@[grind ←] theorem arguments : Keeps P (Python.arguments self) := by
  unfold Python.arguments
  refine look_bind hP fun t next hn => ?_
  split
  · grind
  · grind
  · refine bind (argument hP hself) fun s => bind (provided (atLoop hP _)) fun _ => ?_
    split_ifs
    · grind
    · refine bind (loop (fun _ => ?_) ()) fun _ => takeSign hP
      grind

/-! ## Operands -/

@[grind ←] theorem atom (after : After) : Keeps P (Python.atom self after) := by
  unfold Python.atom
  refine look_bind hP fun t next hn => ?_
  dsimp only
  split
  · refine bind (set hn) fun _ => bind (string hP hself _) fun _ => bind (loop (fun _ => ?_) ())
      fun _ => .pure _
    grind
  · grind
  · refine bind (set hn) fun _ => ?_
    grind
  all_goals grind

@[grind ←] theorem trailers (after : After) (s : Shape) :
    Keeps P (Python.trailers self after s) := by
  unfold Python.trailers
  refine loop (fun _ => look_bind hP fun t next hn => ?_) _
  grind

@[grind ←] theorem operand (after : After) : Keeps P (Python.operand self after) := by
  unfold Python.operand
  refine look_bind hP fun t next hn => ?_
  dsimp only
  split
  all_goals grind

/-! ## Parameters -/

@[grind ←] theorem parameter (typed : Bool) (after : After) :
    Keeps P (Python.parameter self typed after) := by
  unfold Python.parameter
  refine look_bind hP fun t next hn => ?_
  dsimp only
  split
  all_goals grind

@[grind ←] theorem parameters (typed : Bool) (after : After) (closing : String) :
    Keeps P (Python.parameters self typed after closing) := by
  unfold Python.parameters
  refine bind (by grind) fun closed => ?_
  split_ifs
  · refine bind (parameter hP hself typed after) fun _ => bind (loop (fun _ => ?_) ()) fun _ =>
      takeSign hP
    grind
  · exact takeSign hP

/-! ## Expressions -/

@[grind ←] theorem term (after : After) : Keeps P (Python.term self after) := by
  grind [Python.term]

@[grind ←] theorem operator (after : After) (s : Shape) :
    Keeps P (Python.operator self after s) := by
  unfold Python.operator
  refine look_bind hP fun t next hn => ?_
  dsimp only
  split
  all_goals grind

@[grind ←] theorem expression (after : After) : Keeps P (Python.expression self after) := by
  grind [Python.expression]

/-! ## Types and patterns -/

@[grind ←] theorem typeParameters : Keeps P (Python.typeParameters self) := by
  unfold Python.typeParameters
  refine bind (hself _) fun _ => bind (loop (fun _ => ?_) ()) fun _ => takeSign hP
  grind

@[grind ←] theorem simpleHint (after : After) : Keeps P (Python.simpleHint self after) := by
  unfold Python.simpleHint
  refine look_bind hP fun t next hn => ?_
  split
  · grind
  · split
    · next hinside =>
      have := hP _ _ (Token.ahead_of_next hinside) (by grind)
      grind
    · grind
  · grind

@[grind ←] theorem hint (after : After) (ranged : Bool) :
    Keeps P (Python.hint self after ranged) := by
  unfold Python.hint
  refine bind (simpleHint hP hself after) fun _ => bind (loop (fun _ => ?_) ()) fun _ => .pure _
  refine look_bind hP fun t next hn => ?_
  split
  all_goals grind

@[grind ←] theorem simplePattern (after : After) : Keeps P (Python.simplePattern self after) := by
  unfold Python.simplePattern
  have inner := bind (hself (.pattern { close := true })) fun s => pure (P := P) ()
  refine look_bind hP fun t next hn => ?_
  dsimp only
  split
  · grind
  · grind
  · grind
  · grind
  · grind
  · grind
  · grind
  · refine bind (set hn) fun _ => patternsUntil hP _ (look_bind hP fun t next hn => ?_)
    grind
  · refine bind (set hn) fun _ => ?_
    split_ifs
    · exact .pure _
    · refine bind (loop (fun _ => ?_) ()) fun _ => ?_
      · grind
      · grind
  · exact failure

@[grind ←] theorem pattern (after : After) : Keeps P (Python.pattern self after) := by
  unfold Python.pattern
  have union : Keeps P (do
      Python.simplePattern self after
      Python.loop (fun _ => do
        if ← Python.passSign (after.expect false) "|" then
          Python.simplePattern self after
          Pure.pure (some ())
        else Pure.pure none) ()) := by
    refine bind (simplePattern hP hself after) fun _ => loop (fun _ => ?_) ()
    grind
  refine look_bind hP fun t next hn => ?_
  dsimp only
  split
  · split
    · next hvalue =>
      refine bind (set (hP _ _ (Token.ahead_of_next hvalue) (by grind))) fun _ =>
        bind (simplePattern hP hself after) fun _ => bind (loop (fun _ => ?_) _) fun _ => .pure _
      grind
    · refine bind union fun _ => bind (loop (fun _ => ?_) _) fun _ => .pure _
      grind
  · refine bind union fun _ => bind (loop (fun _ => ?_) _) fun _ => .pure _
    grind

/-! ## Forms -/

@[grind ←] theorem interpolation : Keeps P (Python.interpolation self) := by
  unfold Python.interpolation
  refine look_bind hP fun t next hn => ?_
  split
  on_goal 1 => refine bind (set (by grind)) fun _ => bind (yielded hP hself _) fun _ => ?_
  on_goal 2 => refine bind (expressions hP hself _ _) fun _ => ?_
  all_goals
    refine bind (passSign hP) fun _ => look_bind hP fun t next hn => ?_
    split
    · refine bind (set (by grind)) fun _ => look_bind hP fun t next hn => ?_
      grind
    · refine look_bind hP fun t next hn => ?_
      grind

theorem step (f : Form) : Keeps P (Form.step self f) := by
  cases f with
  | expression after => exact expression hP hself after
  | operand after => exact operand hP hself after
  | hint after ranged => exact hint hP hself after ranged
  | interpolation => exact interpolation hP hself
  | pattern after => exact pattern hP hself after

end

/-- Whatever the depth, by what holds for the forms inside. -/
theorem readWithin (hP : Steady P) (depth : Nat) (f : Form) :
    Keeps P (Form.readWithin depth f) := by
  induction depth generalizing f with
  | zero => exact failure
  | succ depth ih => exact step hP ih f

theorem read (hP : Steady P) (f : Form) : Keeps P (Form.read f) :=
  get_bind fun _ _ => readWithin hP _ f

end Keeps

end Worksite.Python
