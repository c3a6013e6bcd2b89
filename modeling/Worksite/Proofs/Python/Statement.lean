import Worksite.Proofs.Python.Expression
import Worksite.Proofs.Python.Tree

/-!
The rows of the definitions of a text. Definitions are met in the order in which they are written,
so a tree that is read from a text has their rows in order.
-/
namespace Worksite.Python

variable {α β : Type} {start c c' next : Cursor} {ts us : List Tree} {P : Cursor → Prop}

/-- The rows of the functions and classes in trees, in the order of the nodes. -/
def definitionRows (ts : List Tree) : List Nat :=
  ((Tree.preorders ts).filter Tree.isDefinition).map Tree.row

@[simp] theorem definitionRows_nil : definitionRows [] = [] := rfl

@[simp] theorem definitionRows_append (ts us : List Tree) :
    definitionRows (ts ++ us) = definitionRows ts ++ definitionRows us := by
  simp [definitionRows]

theorem definitionRows_node (construct : Construct) (name : Option String) (row : Nat) :
    definitionRows [.node construct name row ts] =
      if (Tree.node construct name row ts).isDefinition then row :: definitionRows ts
      else definitionRows ts := by
  rw [definitionRows, Tree.preorders_singleton, Tree.preorder_eq, List.filter_cons]
  split <;> rfl

/-- The definitions of the trees stand between two places, in the order of their rows. -/
structure Written (start : Cursor) (ts : List Tree) (c : Cursor) : Prop where
  ahead : start.Ahead c
  sorted : (definitionRows ts).Pairwise (· ≤ ·)
  between : ∀ row ∈ definitionRows ts, start.row ≤ row ∧ row ≤ c.row

namespace Written

theorem nil (h : start.Ahead c) : Written start [] c := ⟨h, .nil, by simp⟩

theorem further (h : Written start ts c) (h' : c.Ahead c') : Written start ts c' :=
  ⟨h.ahead.trans h', h.sorted, fun row hrow =>
    ⟨(h.between row hrow).1, (h.between row hrow).2.trans h'.row_le⟩⟩

theorem append (h : Written start ts c) (h' : Written c us c') : Written start (ts ++ us) c' := by
  have hfurther := h.further h'.ahead
  refine ⟨hfurther.ahead, ?_, fun row hrow => ?_⟩
  · rw [definitionRows_append, List.pairwise_append]
    exact ⟨h.sorted, h'.sorted, fun row hrow row' hrow' =>
      (h.between row hrow).2.trans (h'.between row' hrow').1⟩
  · rw [definitionRows_append, List.mem_append] at hrow
    obtain hrow | hrow := hrow
    · exact hfurther.between row hrow
    · exact ⟨h.ahead.row_le.trans (h'.between row hrow).1, (h'.between row hrow).2⟩

/-- A node that starts where the trees inside it do. -/
theorem node (h : Written start ts c) (construct : Construct) (name : Option String) :
    Written start [.node construct name start.row ts] c := by
  have hrow := h.ahead.row_le
  refine ⟨h.ahead, ?_, fun row hmem => ?_⟩
  · rw [definitionRows_node]
    split
    · exact List.pairwise_cons.mpr ⟨fun row hrow => (h.between row hrow).1, h.sorted⟩
    · exact h.sorted
  · rw [definitionRows_node] at hmem
    split at hmem
    · obtain rfl | hmem := List.mem_cons.mp hmem
      · exact ⟨le_rfl, hrow⟩
      · exact h.between row hmem
    · exact h.between row hmem

/-- A node that is no definition adds no row, wherever it starts. -/
theorem nodeElse (h : Written start ts c) {construct : Construct}
    (hkind : construct.symbolKind? = none) (name : Option String) (row : Nat) :
    Written start [.node construct name row ts] c := by
  have hnot : (Tree.node construct name row ts).isDefinition = false := by
    simp [Tree.isDefinition, Tree.construct, hkind]
  have hrows : definitionRows [.node construct name row ts] = definitionRows ts := by
    rw [definitionRows_node, hnot]
    rfl
  exact ⟨h.ahead, hrows ▸ h.sorted, hrows ▸ h.between⟩

end Written

theorem steady_written : Steady (Written start ts) := fun _ _ h h' => h'.further h

/-- The definitions in what a reader reads are written where it has read. -/
def Writes (r : Reader α) (trees : α → List Tree) : Prop :=
  ∀ c a c', r c = some (a, c') → Written c (trees a) c'

namespace Writes

variable {r : Reader α} {trees : α → List Tree}

theorem leads (h : Writes r trees) :
    Leads (Written start ts) r fun a => Written start (ts ++ trees a) :=
  fun c hc a c' hr => hc.append (h c a c' hr)

theorem fromStart (h : Writes r trees) : Leads (start.Ahead) r fun a => Written start (trees a) :=
  fun _ hc a c' hr => (Written.nil hc).append (h _ a c' hr)

theorem of_leads (h : ∀ {start : Cursor}, Steady start.Ahead →
    Leads start.Ahead r fun a => Written start (trees a)) : Writes r trees :=
  fun c a c' hr => h (steady_ahead c) c (.refl c) a c' hr

/-- Trees that are put behind others. -/
theorem more {r : Reader (List Tree)} (h : Writes r id) (us : List Tree) :
    Leads (Written start us) (r >>= fun more => pure (us ++ more)) fun a => Written start a :=
  Leads.bind h.leads fun _ => .pure fun _ hc => hc

end Writes

/-! ## Simple statements -/

namespace Keeps

variable (hP : Steady P)
include hP

theorem inner (f : Form) : Keeps P (inner f) := read hP f

@[grind ←] theorem ended : Keeps P ended := by
  grind [Python.ended]

@[grind ←] theorem expressionStatement : Keeps P expressionStatement := by
  have hself := inner hP
  unfold Python.expressionStatement
  extract_lets side
  have hside : Keeps P side := by grind
  clear_value side
  refine bind hside fun first => bind (loop (fun s => ?_) first) fun _ => .pure _
  split_ifs
  · exact .pure _
  · refine look_bind hP fun t next hn => ?_
    split
    · split_ifs
      · exact bind (set (by grind)) fun _ => bind hside fun _ => .pure _
      · refine bind (set (by grind)) fun _ => bind (hself _) fun _ => bind (passSign hP) fun _ => ?_
        split_ifs
        · exact bind hside fun _ => .pure _
        · exact .pure _
      · exact .pure _
    · exact .pure _

@[grind ←] theorem printStatement : Keeps P printStatement := by
  have hself := inner hP
  unfold Python.printStatement
  refine bind (takeWord hP) fun _ => look_bind hP fun t next hn => ?_
  grind

@[grind ←] theorem execStatement : Keeps P execStatement := by
  have hself := inner hP
  unfold Python.execStatement
  have within : Keeps P (do
      if ← Python.passWord lineEnd "in" then
        let _ ← Python.inner (.expression ending)
        Python.loop (fun _ => do
          if ← Python.passSign lineEnd "," then
            let _ ← Python.inner (.expression ending)
            Pure.pure (some ())
          else Pure.pure none) ()) := by
    refine bind (passWord hP) fun _ => ?_
    split_ifs
    · refine bind (hself _) fun _ => loop (fun _ => ?_) ()
      grind
    · exact .pure _
  refine bind (takeWord hP) fun _ => look_bind hP fun t next hn => ?_
  dsimp only
  split
  · exact bind (set (by grind)) fun _ => bind (string hP hself _) fun _ => within
  · exact bind (set (by grind)) fun _ => within
  · exact bind failure fun _ => within

@[grind ←] theorem typeStatement : Keeps P typeStatement := by
  have hself := inner hP
  grind [Python.typeStatement]

@[grind ←] theorem dottedName (e : Expect) : Keeps P (dottedName e) := by
  grind [Python.dottedName]

@[grind ←] theorem importList (e : Expect) : Keeps P (importList e) := by
  unfold Python.importList
  have item : Keeps P (do
      Python.dottedName e
      if ← Python.passWord e "as" then
        let _ ← Python.takeName) := by
    grind
  refine bind item fun _ => loop (fun _ => ?_) ()
  grind

@[grind ←] theorem importFrom : Keeps P importFrom := by
  unfold Python.importFrom
  refine bind (loop (fun n => look_bind hP fun t next hn => ?_) 0) fun dots => ?_
  · grind
  · split_ifs
    · exact bind (dottedName hP {}) fun _ => bind (takeWord hP) fun _ => by grind
    · refine bind (passWord hP) fun whole => ?_
      split_ifs
      · exact bind (dottedName hP {}) fun _ => bind (takeWord hP) fun _ => by grind
      · grind

@[grind ←] theorem optionalExpressions (stops : List String) :
    Keeps P (optionalExpressions stops) := by
  have hself := inner hP
  grind [Python.optionalExpressions]

@[grind ←] theorem commaExpressions : Keeps P commaExpressions := by
  have hself := inner hP
  grind [Python.commaExpressions]

@[grind ←] theorem commaNames : Keeps P commaNames := by
  grind [Python.commaNames]

/-- A word that is also a name starts an expression if it can. -/
theorem orKeyword {r : Reader Unit} (hr : Keeps P r) : Keeps P (do
    ((do Python.expressionStatement; Python.ended) <|> r)
    Python.ended) :=
  bind (orElse (bind (expressionStatement hP) fun _ => ended hP) hr) fun _ => ended hP

@[grind ←] theorem simpleStatement (t : Token) (h : P next) :
    Keeps P (simpleStatement t next) := by
  have hself := inner hP
  unfold Python.simpleStatement
  split
  case h_12 => exact orKeyword hP (printStatement hP)
  case h_13 => exact orKeyword hP (execStatement hP)
  case h_14 => exact orKeyword hP (typeStatement hP)
  all_goals grind

@[grind ←] theorem simpleStatements (t : Token) (h : P next) :
    Keeps P (simpleStatements t next) := by
  unfold Python.simpleStatements
  refine bind (simpleStatement hP t h) fun _ => loop (fun _ => look_bind hP fun t next hn => ?_) ()
  grind

@[grind ←] theorem passGroupHandler (e : Expect) : Keeps P (passGroupHandler e) := by
  grind [Python.passGroupHandler, Steady.skip]

end Keeps

/-! ## Compound statements -/

namespace Writes

/-- One more clause, behind the trees of the clauses before it. -/
theorem moreClause {r : Reader (List Tree)} (h : Writes r id) (us trees : List Tree) :
    Leads (Written start (us ++ trees)) (r >>= fun more => pure (some (trees ++ more)))
      fun next => Written start (us ++ next.getD trees) :=
  Leads.bind h.leads fun _ => .pure fun c hc => by simpa using hc

/-- Clauses that are read while there are any. -/
theorem clauses {found : Reader Bool} {clause : List Tree → Reader (Option (List Tree))}
    (us : List Tree) (hfound : ∀ us, Keeps (Written start us) found)
    (hclause : ∀ trees, Leads (Written start (us ++ trees)) (clause trees)
      fun next => Written start (us ++ next.getD trees)) (trees : List Tree) :
    Leads (Written start (us ++ trees)) (loop (fun trees => do
        if ← found then clause trees else pure none) trees)
      fun trees => Written start (us ++ trees) := by
  refine Leads.loop (I := fun trees => Written start (us ++ trees)) (fun trees => ?_) trees
  refine .bind (hfound _) fun more => ?_
  split_ifs
  · exact hclause trees
  · exact .pure fun _ h => h

/-- Trees that are read one after another. -/
theorem listed {step : Unit × List Tree → Reader (Option (Unit × List Tree))}
    (hstep : ∀ a, Leads (Written start a.2) (step a) fun next => Written start (next.getD a).2) :
    Leads start.Ahead (loop step ((), [])) fun a => Written start a.2 :=
  fun c hc => Leads.loop (I := fun (a : Unit × List Tree) => Written start a.2) hstep _ c (.nil hc)

variable {self : Nested} (hself : ∀ inBlock, Writes (self inBlock) fun t => [t])
include hself

theorem block : Writes (block self) id := by
  refine of_leads fun _ => .map (listed fun a => .look_bind steady_written fun t next hn => ?_)
  split
  · exact .bind (Keeps.set (by grind)) fun _ => .pure fun _ h => h
  · exact .bind (hself true).leads fun tree => .pure fun _ h => h

theorem suite : Writes (suite self) id := by
  refine of_leads fun hP => Leads.look_bind hP fun t next hn => ?_
  split
  · exact .bind (Keeps.set (by grind)) fun _ => .pure fun _ => .nil
  · exact .bind (Keeps.set (by grind)) fun _ => (block hself).fromStart
  · exact .bind (Keeps.simpleStatements hP _ (by grind)) fun _ => .pure fun _ => .nil

theorem colonSuite : Writes (colonSuite self) id :=
  of_leads fun hP => .bind (Keeps.takeSign hP) fun _ => (suite hself).fromStart

/-- A clause that may be left out. -/
theorem clause (e : Expect) (word : String) : Writes (do
    if ← passWord e word then Python.colonSuite self else pure []) id := by
  refine of_leads fun hP => .bind (Keeps.passWord hP) fun found => ?_
  split_ifs
  · exact (colonSuite hself).fromStart
  · exact .pure fun _ => .nil

theorem elseClause (e : Expect) : Writes (elseClause self e) id := clause hself e "else"

theorem finallyClause (e : Expect) : Writes (finallyClause self e) id := clause hself e "finally"

/-- What stands behind a condition or the like. -/
theorem suiteBehind {r : Reader α} (hr : ∀ {P : Cursor → Prop}, Steady P → Keeps P r) :
    Writes (do
      let _ ← r
      Python.colonSuite self) id :=
  of_leads fun hP => .bind (hr hP) fun _ => (colonSuite hself).fromStart

theorem ifStatement (inBlock : Place) : Writes (ifStatement self inBlock) id := by
  refine of_leads fun {start} hP => ?_
  refine .bind (Keeps.inner hP _) fun _ => .bind (colonSuite hself).fromStart
    fun trees => .bind (Q := fun trees => Written start trees) ?_
    fun trees => (elseClause hself _).more trees
  exact clauses [] (fun _ => Keeps.passWord steady_written) (fun trees =>
    .bind (Keeps.inner steady_written _) fun _ => moreClause (colonSuite hself) [] trees) trees

theorem forStatement (inBlock : Place) : Writes (forStatement self inBlock) id :=
  of_leads fun hP => .bind (Keeps.targets hP (Keeps.inner hP)) fun _ =>
    .bind (Keeps.expressions hP (Keeps.inner hP) {} []) fun _ =>
      .bind (colonSuite hself).fromStart fun trees => (elseClause hself _).more trees

theorem whileStatement (inBlock : Place) : Writes (whileStatement self inBlock) id :=
  of_leads fun hP => .bind (Keeps.inner hP _) fun _ =>
    .bind (colonSuite hself).fromStart fun trees => (elseClause hself _).more trees

theorem withStatement : Writes (withStatement self) id :=
  suiteBehind hself fun hP => Keeps.expressions hP (Keeps.inner hP) {} []

theorem handler : Writes (handler self) id := by
  refine of_leads fun hP => .look_bind hP fun t next hn => ?_
  split
  · exact (colonSuite hself).fromStart
  · refine .bind (Keeps.inner hP _) fun _ => .bind (Keeps.passSign hP) fun _ => ?_
    split_ifs
    · exact .bind (Keeps.inner hP _) fun _ => (colonSuite hself).fromStart
    · exact (colonSuite hself).fromStart

theorem groupHandler : Writes (groupHandler self) id :=
  suiteBehind hself fun hP => Keeps.inner hP _

/-- Handlers, one at least, and what may stand behind them. -/
theorem handlers {found : Reader Bool} {r : Reader (List Tree)}
    (hfound : ∀ us, Keeps (Written start us) found) (hr : Writes r id) (body : List Tree)
    (e : Expect) : Leads (Written start body) (do
      let trees ← r
      let trees ← loop (fun trees => do
        if ← found then
          return some (trees ++ (← r))
        else pure none) trees
      let otherwise ← Python.elseClause self e
      return body ++ trees ++ otherwise ++ (← Python.finallyClause self e))
      fun trees => Written start trees :=
  .bind hr.leads fun trees => .bind (clauses body hfound (moreClause hr body) trees) fun _ =>
    .bind (elseClause hself e).leads fun _ => (finallyClause hself e).more _

theorem tryStatement (inBlock : Place) : Writes (tryStatement self inBlock) id := by
  refine of_leads fun hP => .bind (colonSuite hself).fromStart fun body => ?_
  refine .bind (Keeps.passGroupHandler steady_written _) fun group => ?_
  split_ifs
  · exact handlers hself (fun _ => Keeps.passGroupHandler steady_written _) (groupHandler hself)
      body _
  · refine .bind (Keeps.passWord steady_written) fun one => ?_
    split_ifs
    · exact handlers hself (fun _ => Keeps.passWord steady_written) (handler hself) body _
    · exact .bind (Keeps.takeWord steady_written) fun _ => (colonSuite hself).more body

theorem caseClause : Writes (caseClause self) id := by
  refine of_leads fun hP => ?_
  refine .bind (Keeps.inner hP _) fun _ => .bind (Keeps.loop (fun _ => ?_) ())
    fun _ => .bind (Keeps.passWord hP) fun guarded => ?_
  · have hinner := Keeps.inner hP
    grind
  · split_ifs
    · exact .bind (Keeps.inner hP _) fun _ => (colonSuite hself).fromStart
    · exact (colonSuite hself).fromStart

theorem matchStatement : Writes (matchStatement self) id := by
  refine of_leads fun hP => ?_
  refine .bind (Keeps.expressions hP (Keeps.inner hP) {} []) fun _ =>
    .bind (Keeps.takeSign hP) fun _ => .look_bind hP fun t next hn => ?_
  split
  · exact .bind (Keeps.set (by grind)) fun _ => .pure fun _ => .nil
  · refine .bind (Keeps.set (by grind)) fun _ => .bind
      (listed fun a => .look_bind steady_written fun t next hn => ?_) fun a => .pure fun _ h => h
    split
    · exact .bind (Keeps.set (by grind)) fun _ => .pure fun _ h => h
    · exact .bind (Keeps.set (by grind)) fun _ => .bind (caseClause hself).leads fun _ =>
        .pure fun _ h => h
    · exact .failure
  · exact .failure

/-- A definition starts behind its word, and so do the definitions inside it. -/
theorem functionDefinition (start : Cursor) : Leads start.Ahead
    (functionDefinition self start.row) fun t => Written start [t] := by
  have hP := steady_ahead start
  have body (name : String) : Leads start.Ahead (do
      let trees ← Python.colonSuite self
      pure (Tree.node .functionDefinition (some name) start.row trees))
      fun t => Written start [t] :=
    .bind (colonSuite hself).fromStart fun trees => .pure fun _ h => h.node _ _
  have signature (name : String) : Leads start.Ahead (do
      takeSign {} "("
      parameters inner true { close := true } ")"
      if ← passSign {} "->" then
        let _ ← inner (.hint {} false)
      let trees ← Python.colonSuite self
      pure (Tree.node .functionDefinition (some name) start.row trees))
      fun t => Written start [t] := by
    refine .bind (Keeps.takeSign hP) fun _ => .bind (Keeps.parameters hP (Keeps.inner hP) _ _ _)
      fun _ => .bind (Keeps.passSign hP) fun typed => ?_
    split_ifs
    · exact .bind (Keeps.inner hP _) fun _ => body name
    · exact body name
  refine .bind (Keeps.takeName hP) fun name => .bind (Keeps.passSign hP) fun generic => ?_
  split_ifs
  · exact .bind (Keeps.typeParameters hP (Keeps.inner hP)) fun _ => signature name
  · exact signature name

theorem classDefinition (start : Cursor) : Leads start.Ahead
    (classDefinition self start.row) fun t => Written start [t] := by
  have hP := steady_ahead start
  have body (name : String) : Leads start.Ahead (do
      if ← passSign {} "(" then arguments inner
      let trees ← Python.colonSuite self
      pure (Tree.node .classDefinition (some name) start.row trees))
      fun t => Written start [t] := by
    refine .bind (Keeps.passSign hP) fun based => ?_
    split_ifs
    · exact .bind (Keeps.arguments hP (Keeps.inner hP)) fun _ =>
        .bind (colonSuite hself).fromStart fun trees => .pure fun _ h => h.node _ _
    · exact .bind (colonSuite hself).fromStart fun trees => .pure fun _ h => h.node _ _
  refine .bind (Keeps.takeName hP) fun name => .bind (Keeps.passSign hP) fun generic => ?_
  split_ifs
  · exact .bind (Keeps.typeParameters hP (Keeps.inner hP)) fun _ => body name
  · exact body name

omit hself in
/-- What is read from a place further on is written behind the place before. -/
theorem moved {r : Reader α} {trees : α → List Tree} (h : start.Ahead next) (h' : next.Ahead c)
    (hr : Leads next.Ahead r fun a => Written next (trees a)) :
    Leads P (set c >>= fun _ => r) fun a => Written start (trees a) :=
  .bind (Q := fun _ => next.Ahead) (.set h') fun _ c₁ hc a c' hread =>
    (Written.nil h).append (hr c₁ hc a c' hread)

theorem definition : Writes (definition self) fun t => [t] := by
  refine of_leads fun hP => .look_bind hP fun t next hn => ?_
  split
  · next body heq =>
    obtain ⟨-, rfl⟩ := Prod.mk.inj heq
    exact moved hn (.refl next) (functionDefinition hself next)
  · next body heq =>
    obtain ⟨-, rfl⟩ := Prod.mk.inj heq
    exact moved hn (.refl next) (classDefinition hself next)
  · next body heq =>
    obtain ⟨-, rfl⟩ := Prod.mk.inj heq
    exact moved hn (.refl next) (.bind (Keeps.takeWord (steady_ahead next)) fun _ =>
      functionDefinition hself next)
  · exact .failure

theorem decorated : Writes (decorated self) fun t => [t] := by
  refine of_leads fun {start} hP => ?_
  have hinner := Keeps.inner hP
  refine .bind (Q := fun _ => start.Ahead) (show Keeps start.Ahead _ by grind) fun _ =>
    .bind (Keeps.loop (fun _ => ?_) ()) fun _ => (definition hself).fromStart
  refine .bind (Keeps.passSign hP) fun another => ?_
  split_ifs
  · exact .bind (by grind) fun _ => .pure _
  · exact .pure _

omit hself in
theorem compound {body : Reader (List Tree)} (h : start.Ahead next)
    (hbody : Leads next.Ahead body fun ts => Written next ts) : Leads P (do
      set next
      return Tree.node .statement none next.row (← body)) fun t => Written start [t] :=
  moved h (.refl next) (.bind hbody fun _ => .pure fun _ hc => hc.nodeElse rfl _ _)

omit hself in
theorem simple (h : start.Ahead next) (t : Token) : Leads start.Ahead (do
      simpleStatements t next
      pure (Tree.node .statement none next.row [])) fun t => Written start [t] :=
  .bind (Keeps.simpleStatements (steady_ahead start) t h) fun _ => .pure fun _ hc =>
    (Written.nil hc).nodeElse rfl _ _

/-- A statement writes its definitions if the statements inside it do. -/
theorem statementStep (inBlock : Place) : Writes (statementStep self inBlock) fun t => [t] := by
  refine of_leads fun hP => .look_bind hP fun t next hn => ?_
  dsimp only
  split
  -- by the word or sign that the statement starts with
  · exact compound hn (ifStatement hself inBlock).fromStart
  · exact compound hn (forStatement hself inBlock).fromStart
  · exact compound hn (whileStatement hself inBlock).fromStart
  · exact compound hn (tryStatement hself inBlock).fromStart
  · exact compound hn (withStatement hself).fromStart
  · exact moved hn (.refl next) (functionDefinition hself next)
  · exact moved hn (.refl next) (classDefinition hself next)
  · exact .orElse (compound hn (matchStatement hself).fromStart) (simple hn _)
  · split
    · next body hnext =>
      exact moved hn (Token.ahead_of_next hnext) (functionDefinition hself next)
    · next body hnext =>
      exact compound hn (.bind (Keeps.set (Token.ahead_of_next hnext)) fun _ =>
        (forStatement hself inBlock).fromStart)
    · next body hnext =>
      exact compound hn (.bind (Keeps.set (Token.ahead_of_next hnext)) fun _ =>
        (withStatement hself).fromStart)
    · exact simple hn _
  · exact moved hn (.refl next) (.bind (decorated hself).fromStart fun _ => .pure fun _ hc =>
      hc.nodeElse rfl _ _)
  · exact simple hn _

omit hself in
/-- By the depth at which statements stand inside each other. -/
theorem statementWithin (depth : Nat) (inBlock : Place) :
    Writes (statementWithin depth inBlock) fun t => [t] := by
  induction depth generalizing inBlock with
  | zero => exact of_leads fun _ => .failure
  | succ depth ih => exact statementStep ih inBlock

omit hself in
theorem moduleReader : Writes moduleReader id := by
  refine of_leads fun _ => .get_bind fun c₀ _ => .bind
    (listed fun a => .look_bind steady_written fun t next hn => ?_) fun a => .pure fun _ h => h
  split
  · exact .pure fun _ h => h
  · exact .bind (statementWithin _ false).leads fun _ => .pure fun _ h => h

end Writes

/-- The definitions of a text start on rows of the text that do not go back. -/
theorem Tree.rows_of_ofText {text : String} {tree : Tree} (h : Tree.ofText text = some tree) :
    (tree.preorder.filter isDefinition).Pairwise (fun x y => x.row ≤ y.row) ∧
      ∀ x ∈ tree.preorder.filter isDefinition, x.row ≤ text.toList.count '\n' := by
  obtain ⟨⟨trees, c⟩, hread, rfl⟩ := Option.map_eq_some_iff.mp h
  have hwritten : Written { rest := text.toList } [.node .module none 0 trees] c :=
    (Writes.moduleReader _ _ _ hread).nodeElse rfl none 0
  have hrow : c.row ≤ text.toList.count '\n' := by
    have heq := hwritten.ahead.row_eq
    simp only at heq
    omega
  rw [← preorders_singleton]
  refine ⟨List.pairwise_map.mp hwritten.sorted, fun x hx => ?_⟩
  exact (hwritten.between x.row (List.mem_map_of_mem hx)).2.trans hrow

end Worksite.Python
