import Worksite.Python.Expression

/-!
Python statements as trees. A tree is made only of a text without errors; it keeps the nesting of
definitions, and leaves out what expressions are made of.
-/
namespace Worksite.Python

inductive Construct where
  | module
  | functionDefinition
  | classDefinition
  | statement
  deriving DecidableEq, Repr

/-- A construct, the name it defines, the row it starts at, and the constructs inside it. -/
inductive Tree where
  | node (construct : Construct) (name : Option String) (row : Nat) (children : List Tree)
  deriving Repr

def inner : Inner := Form.read

/-- Where a statement stands: inside an indented block or not. -/
abbrev Place := Bool

def boundary (inBlock : Place) : Expect := { dedent := inBlock, string := true }

def lineEnd : Expect := { newline := true }

def ending : After := { newline := true }

/-- The statement could end here. -/
def ended : Reader Unit := do
  match ← look lineEnd with
  | (.newline, _) => pure ()
  | (.sign s, _) => guard (s = ";")
  | _ => failure

/-! Simple statements. -/

def augmented : List String :=
  ["+=", "-=", "*=", "/=", "@=", "//=", "%=", "**=", ">>=", "<<=", "&=", "^=", "|="]

/-- Expressions, an assignment or a chain of assignments. -/
def expressionStatement : Reader Unit := do
  let side : Reader Shape := do
    match ← look { string := true } with
    | (.word "yield", next) =>
      set next
      yielded inner ending
      pure .other
    | _ => expressions inner ending
  let first ← side
  let _ ← loop (fun (s : Shape) => do
    if !s.isTarget then pure none
    else
      match ← look lineEnd with
      | (.sign t, next) =>
        if t = "=" || augmented.contains t then
          set next
          return some (← side)
        else if t = ":" then
          set next
          let _ ← inner (.hint ending true)
          if ← passSign lineEnd "=" then
            return some (← side)
          pure (some .other)
        else pure none
      | _ => pure none) first

def printStatement : Reader Unit := do
  takeWord "print"
  let arguments : Reader Unit := do
    let _ ← expressions inner ending
  match ← look { string := true } with
  | (.sign ">>", next) =>
    set next
    arguments
  | _ => arguments

def execStatement : Reader Unit := do
  takeWord "exec"
  match ← look { string := true } with
  | (.quote q, next) =>
    set next
    string inner q
  | (.word _, next) => set next
  | _ => failure
  if ← passWord lineEnd "in" then
    let _ ← inner (.expression ending)
    loop (fun _ => do
      if ← passSign lineEnd "," then
        let _ ← inner (.expression ending)
        pure (some ())
      else pure none) ()

def typeStatement : Reader Unit := do
  takeWord "type"
  let _ ← inner (.hint {} true)
  takeSign {} "="
  let _ ← inner (.hint ending true)

def dottedName (e : Expect) : Reader Unit := do
  let _ ← takeName
  loop (fun _ => do
    if ← passSign e "." then
      let _ ← takeName
      pure (some ())
    else pure none) ()

/-- Imported names, the last comma free to stand alone. -/
def importList (e : Expect) : Reader Unit := do
  let item : Reader Unit := do
    dottedName e
    if ← passWord e "as" then
      let _ ← takeName
  item
  loop (fun _ => do
    if ← passSign e "," then
      match ← look e with
      | (.word _, _) => item; pure (some ())
      | _ => pure none
    else pure none) ()

def importFrom : Reader Unit := do
  let dots ← loop (fun (n : Nat) => do
    match ← look {} with
    | (.sign s, next) =>
      if s = "." || s = "..." then
        set next
        pure (some (n + 1))
      else pure none
    | _ => pure none) 0
  if dots = 0 then
    dottedName {}
    takeWord "import"
  else if !(← passWord {} "import") then
    dottedName {}
    takeWord "import"
  match ← look {} with
  | (.sign "*", next) => set next
  | (.sign "(", next) =>
    set next
    importList closing
    takeSign closing ")"
  | _ => importList lineEnd

def optionalExpressions (stops : List String) : Reader Unit := do
  match ← look { newline := true, string := true } with
  | (.word w, _) =>
    if !stops.contains w then
      let _ ← expressions inner ending stops
  | (t, _) =>
    if startsOperand t then
      let _ ← expressions inner ending stops

def commaExpressions : Reader Unit := do
  let _ ← inner (.expression ending)
  loop (fun _ => do
    if ← passSign lineEnd "," then
      let _ ← inner (.expression ending)
      pure (some ())
    else pure none) ()

def commaNames : Reader Unit := do
  let _ ← takeName
  loop (fun _ => do
    if ← passSign lineEnd "," then
      let _ ← takeName
      pure (some ())
    else pure none) ()

/-- A statement that fits on a line, given its first token. -/
def simpleStatement (t : Token) (next : Cursor) : Reader Unit := do
  match t with
  | .word "import" => set next; importList lineEnd
  | .word "from" => set next; importFrom
  | .word "assert" => set next; commaExpressions
  | .word "return" => set next; optionalExpressions []
  | .word "raise" =>
    set next
    optionalExpressions ["from"]
    if ← passWord lineEnd "from" then
      let _ ← inner (.expression ending)
  | .word "del" =>
    set next
    let _ ← expressions inner ending
  | .word "pass" | .word "break" | .word "continue" => set next
  | .word "global" | .word "nonlocal" => set next; commaNames
  | .word "print" => (do expressionStatement; ended) <|> printStatement
  | .word "exec" => (do expressionStatement; ended) <|> execStatement
  | .word "type" => (do expressionStatement; ended) <|> typeStatement
  | _ => expressionStatement
  ended

/-- Simple statements between semicolons and the end of their line. -/
def simpleStatements (t : Token) (next : Cursor) : Reader Unit := do
  simpleStatement t next
  loop (fun _ => do
    match ← look lineEnd with
    | (.newline, next) =>
      set next
      pure none
    | (.sign ";", next) =>
      set next
      match ← look { newline := true, string := true } with
      | (.newline, _) => pure (some ())
      | (t, next) =>
        simpleStatement t next
        pure (some ())
    | _ => failure) ()

/-! Compound statements. -/

abbrev Nested := Place → Reader Tree

/-- Statements up to the end of their block. -/
def block (self : Nested) : Reader (List Tree) :=
  loop (fun (_, trees) => do
    match ← look (boundary true) with
    | (.dedent, next) =>
      set next
      pure none
    | _ =>
      let tree ← self true
      pure (some ((), trees ++ [tree]))) ((), []) |>.map (·.2)

/-- What stands behind the colon of a compound statement. -/
def suite (self : Nested) : Reader (List Tree) := do
  match ← look { newline := true, indent := true, string := true } with
  | (.newline, next) =>
    set next
    pure []
  | (.indent, next) =>
    set next
    block self
  | (t, next) =>
    simpleStatements t next
    pure []

def colonSuite (self : Nested) : Reader (List Tree) := do
  takeSign {} ":"
  suite self

def elseClause (self : Nested) (e : Expect) : Reader (List Tree) := do
  if ← passWord e "else" then colonSuite self else pure []

def finallyClause (self : Nested) (e : Expect) : Reader (List Tree) := do
  if ← passWord e "finally" then colonSuite self else pure []

def ifStatement (self : Nested) (inBlock : Place) : Reader (List Tree) := do
  let _ ← inner (.expression {})
  let trees ← colonSuite self
  let trees ← loop (fun trees => do
    if ← passWord (boundary inBlock) "elif" then
      let _ ← inner (.expression {})
      return some (trees ++ (← colonSuite self))
    else pure none) trees
  return trees ++ (← elseClause self (boundary inBlock))

def forStatement (self : Nested) (inBlock : Place) : Reader (List Tree) := do
  targets inner
  let _ ← expressions inner {}
  let trees ← colonSuite self
  return trees ++ (← elseClause self (boundary inBlock))

def whileStatement (self : Nested) (inBlock : Place) : Reader (List Tree) := do
  let _ ← inner (.expression {})
  let trees ← colonSuite self
  return trees ++ (← elseClause self (boundary inBlock))

def withStatement (self : Nested) : Reader (List Tree) := do
  let _ ← expressions inner {}
  colonSuite self

/-- A handler behind the word `except`. -/
def handler (self : Nested) : Reader (List Tree) := do
  match ← look { string := true } with
  | (.sign ":", _) => pure ()
  | _ =>
    let _ ← inner (.expression {})
    if ← passSign {} "," then
      let _ ← inner (.expression {})
  colonSuite self

/-- Whether the word `except` and a star without a blank between them are next. -/
def passGroupHandler (e : Expect) : Reader Bool := do
  match ← look e with
  | (.word "except", next) =>
    match next.rest with
    | '*' :: _ =>
      set (next.skip 1)
      pure true
    | _ => pure false
  | _ => pure false

def groupHandler (self : Nested) : Reader (List Tree) := do
  let _ ← inner (.expression {})
  colonSuite self

def tryStatement (self : Nested) (inBlock : Place) : Reader (List Tree) := do
  let body ← colonSuite self
  let first : Expect := { handler := true }
  let later : Expect := { boundary inBlock with handler := true }
  if ← passGroupHandler first then
    let trees ← groupHandler self
    let trees ← loop (fun trees => do
      if ← passGroupHandler later then
        return some (trees ++ (← groupHandler self))
      else pure none) trees
    let otherwise ← elseClause self later
    return body ++ trees ++ otherwise ++ (← finallyClause self later)
  else if ← passWord first "except" then
    let trees ← handler self
    let trees ← loop (fun trees => do
      if ← passWord later "except" then
        return some (trees ++ (← handler self))
      else pure none) trees
    let otherwise ← elseClause self later
    return body ++ trees ++ otherwise ++ (← finallyClause self later)
  else
    takeWord "finally"
    return body ++ (← colonSuite self)

def caseClause (self : Nested) : Reader (List Tree) := do
  let _ ← inner (.pattern {})
  loop (fun _ => do
    if ← passSign {} "," then
      match ← look { string := true } with
      | (.sign ":", _) => pure none
      | (.word "if", _) => pure none
      | _ =>
        let _ ← inner (.pattern {})
        pure (some ())
    else pure none) ()
  if ← passWord {} "if" then
    let _ ← inner (.expression { choice := false })
  colonSuite self

def matchStatement (self : Nested) : Reader (List Tree) := do
  let _ ← expressions inner {}
  takeSign {} ":"
  match ← look { newline := true, indent := true } with
  | (.newline, next) =>
    set next
    pure []
  | (.indent, next) =>
    set next
    let (_, trees) ← loop (fun (_, trees) => do
      match ← look { dedent := true } with
      | (.dedent, next) =>
        set next
        pure none
      | (.word "case", next) =>
        set next
        return some ((), trees ++ (← caseClause self))
      | _ => failure) ((), ([] : List Tree))
    pure trees
  | _ => failure

/-- A function behind the word `def`. -/
def functionDefinition (self : Nested) (row : Nat) : Reader Tree := do
  let name ← takeName
  if ← passSign {} "[" then typeParameters inner
  takeSign {} "("
  parameters inner true { close := true } ")"
  if ← passSign {} "->" then
    let _ ← inner (.hint {} false)
  let trees ← colonSuite self
  pure (.node .functionDefinition (some name) row trees)

/-- A class behind the word `class`. -/
def classDefinition (self : Nested) (row : Nat) : Reader Tree := do
  let name ← takeName
  if ← passSign {} "[" then typeParameters inner
  if ← passSign {} "(" then arguments inner
  let trees ← colonSuite self
  pure (.node .classDefinition (some name) row trees)

def definition (self : Nested) : Reader Tree := do
  match ← look {} with
  | (.word "def", next) =>
    set next
    functionDefinition self next.row
  | (.word "class", next) =>
    set next
    classDefinition self next.row
  | (.word "async", next) =>
    set next
    takeWord "def"
    functionDefinition self next.row
  | _ => failure

/-- Definitions behind their first `@`. -/
def decorated (self : Nested) : Reader Tree := do
  let decorator : Reader Unit := do
    let _ ← inner (.expression ending)
    match ← look lineEnd with
    | (.newline, next) => set next
    | _ => failure
  decorator
  loop (fun _ => do
    if ← passSign {} "@" then
      decorator
      pure (some ())
    else pure none) ()
  definition self

def statementStep (self : Nested) (inBlock : Place) : Reader Tree := do
  let (t, next) ← look (boundary inBlock)
  let row := next.row
  let compound (body : Reader (List Tree)) : Reader Tree := do
    set next
    return .node .statement none row (← body)
  let simple : Reader Tree := do
    simpleStatements t next
    pure (.node .statement none row [])
  match t with
  | .word "if" => compound (ifStatement self inBlock)
  | .word "for" => compound (forStatement self inBlock)
  | .word "while" => compound (whileStatement self inBlock)
  | .word "try" => compound (tryStatement self inBlock)
  | .word "with" => compound (withStatement self)
  | .word "def" => set next; functionDefinition self row
  | .word "class" => set next; classDefinition self row
  | .word "match" => compound (matchStatement self) <|> simple
  | .word "async" =>
    match Token.next lineEnd next with
    | some (.word "def", body) => set body; functionDefinition self row
    | some (.word "for", body) => compound (do set body; forStatement self inBlock)
    | some (.word "with", body) => compound (do set body; withStatement self)
    | _ => simple
  | .sign "@" =>
    set next
    return .node .statement none row [← decorated self]
  | _ => simple

def statementWithin : Nat → Nested
  | 0, _ => failure
  | depth + 1, inBlock => statementStep (statementWithin depth) inBlock

def moduleReader : Reader (List Tree) := do
  let depth := (← get).rest.length + 1
  let (_, trees) ← loop (fun (_, trees) => do
    match ← look (boundary false) with
    | (.finish, _) => pure none
    | _ => return some ((), trees ++ [← statementWithin depth false])) ((), ([] : List Tree))
  pure trees

/-- The tree of a text, if the text has no errors. -/
def Tree.ofText (text : String) : Option Tree :=
  (moduleReader.run { rest := text.toList }).map fun (trees, _) => .node .module none 0 trees

end Worksite.Python
