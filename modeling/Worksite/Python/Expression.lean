import Worksite.Python.Token

/-!
Python expressions, types, patterns and parameters. A reader accepts the longest expression at
its place and tells its shape, which is what an assignment needs to know of its left side. Every
form is a function of a reader for the forms inside it; `Form.read` ties the knot.
-/
namespace Worksite.Python

abbrev Reader := StateT Cursor Option

/-- What an expression can be assigned to as. -/
inductive Shape where
  | name
  | place
  | splat
  | group
  | other
  deriving DecidableEq

def Shape.isTarget (s : Shape) : Bool := s ≠ .other

def Shape.isPlace (s : Shape) : Bool := s = .name || s = .place

/-- What may stand behind an expression. -/
structure After where
  newline : Bool := false
  close : Bool := false
  /-- A conditional may be made of the expression. -/
  choice : Bool := true

def After.expect (a : After) (string : Bool) : Expect :=
  { newline := a.newline, close := a.close, string }

/-- The forms that hold each other. -/
inductive Form where
  | expression (after : After)
  | operand (after : After)
  | hint (after : After) (ranged : Bool)
  | interpolation
  | pattern (after : After)

abbrev Inner := Form → Reader Shape

/-- The next token with the place behind it; the reader stays. -/
def look (e : Expect) : Reader (Token × Cursor) :=
  fun c => (Token.next e c).map fun found => (found, c)

def takeSign (e : Expect) (s : String) : Reader Unit := do
  match ← look e with
  | (.sign t, next) => if t = s then set next else failure
  | _ => failure

def takeWord (w : String) : Reader Unit := do
  match ← look {} with
  | (.word t, next) => if t = w then set next else failure
  | _ => failure

def takeName : Reader String := do
  match ← look {} with
  | (.word t, next) => set next; pure t
  | _ => failure

/-- Passes over the sign if it is next. -/
def passSign (e : Expect) (s : String) : Reader Bool := do
  match ← look e with
  | (.sign t, next) => if t = s then set next; pure true else pure false
  | _ => pure false

def passWord (e : Expect) (w : String) : Reader Bool := do
  match ← look e with
  | (.word t, next) => if t = w then set next; pure true else pure false
  | _ => pure false

/-- Reads on only where `b` holds. -/
def provided (b : Bool) (read : Reader Bool) : Reader Bool := if b then read else pure false

def iterate {α : Type} (step : α → Reader (Option α)) : Nat → α → Reader α
  | 0, _ => failure
  | fuel + 1, a => do
    match ← step a with
    | some b => iterate step fuel b
    | none => pure a

/-- Repeats a step that reads on until it has nothing to read. -/
def loop {α : Type} (step : α → Reader (Option α)) (a : α) : Reader α := do
  iterate step ((← get).rest.length + 2) a

def startsOperand : Token → Bool
  | .quote _ | .number | .word _ => true
  | .sign s => ["(", "[", "\x7b", "-", "+", "~", "*", "..."].contains s
  | _ => false

/-! Strings. -/

def escapeLength : List Char → Nat
  | 'u' :: rest => if (rest.take 4).length = 4 && (rest.take 4).all isHex then 5 else 0
  | 'U' :: rest => if (rest.take 8).length = 8 && (rest.take 8).all isHex then 9 else 0
  | 'x' :: rest => if (rest.take 2).length = 2 && (rest.take 2).all isHex then 3 else 0
  | '\r' :: '\n' :: _ => 2
  | 'N' :: '{' :: rest =>
    let name := rest.takeWhile (· ≠ '}')
    if !name.isEmpty && (rest.drop name.length).head? = some '}' then name.length + 3 else 0
  | c :: rest =>
    if c.isDigit then 1 + ((rest.take 2).takeWhile Char.isDigit).length
    else if "\n'\"abfrntv\\".contains c then 1
    else 0
  | [] => 0

/-- One step inside a string. The flag tells whether a piece of plain text starts here; a line end
may stand only there, unless the quote marks are triple. -/
def stringStep (self : Inner) (q : Quote) (fresh : Bool) : Reader (Option Bool) := do
  let c ← get
  let step (n : Nat) (fresh : Bool) : Reader (Option Bool) := do
    set (c.skip n)
    pure (some fresh)
  match c.rest with
  | [] => failure
  | '\x00' :: _ => failure
  | x :: rest =>
    if q.format && x = '{' then
      if rest.head? = some '{' then step 2 true
      else
        set (c.skip 1)
        let _ ← self .interpolation
        pure (some true)
    else if q.format && x = '}' then
      if rest.head? = some '}' then step 2 true else failure
    else if x = '\\' then
      if q.raw then
        let rest' := dropOne (fun d => d = q.mark || d = '\\') rest
        match rest' with
        | '\r' :: '\n' :: more => step (1 + (rest.length - more.length)) fresh
        | '\r' :: more => step (1 + (rest.length - more.length)) fresh
        | '\n' :: more => step (1 + (rest.length - more.length)) fresh
        | _ => step (1 + (rest.length - rest'.length)) fresh
      else if q.bytes && rest.head?.any (fun d => d = 'N' || d = 'u' || d = 'U') then
        step 3 false
      else step (1 + escapeLength rest) true
    else if x = q.mark then
      if q.triple then
        match rest with
        | d :: e :: _ =>
          if d = x && e = x then
            set (c.skip 3)
            pure none
          else step (if d = x then 2 else 1) true
        | _ => step 1 true
      else
        set (c.skip 1)
        pure none
    else if x = '\n' && !fresh && !q.triple then failure
    else step 1 false

def string (self : Inner) (q : Quote) : Reader Unit := do
  let _ ← loop (stringStep self q) true

/-- The text behind the colon of an interpolation, up to its closing brace. -/
def formatStep (self : Inner) (_ : Unit) : Reader (Option Unit) := do
  let c ← get
  match c.rest with
  | [] => failure
  | '\x00' :: _ => failure
  | '}' :: _ => set (c.skip 1); pure none
  | '{' :: _ =>
    set (c.skip 1)
    let _ ← self .interpolation
    pure (some ())
  | _ :: _ => set (c.skip 1); pure (some ())

/-! Lists of expressions. -/

/-- Expressions between commas, the last comma free to stand alone. A word of `stops` ends them
behind a comma. -/
def moreExpressions (self : Inner) (after : After) (stops : List String) (first : Shape) :
    Reader Shape := do
  let joined (s t : Shape) : Shape := if s.isTarget && t.isTarget then .group else .other
  let (s, _) ← loop (fun (s, ended) => do
    if ← provided (!ended) (passSign (after.expect false) ",") then
      let (t, _) ← look (after.expect true)
      let stop := match t with
        | .word w => stops.contains w
        | t => !startsOperand t
      if stop then pure (some (joined s s, true))
      else
        let t ← self (.expression after)
        pure (some (joined s t, false))
    else pure none) (first, false)
  pure s

def expressions (self : Inner) (after : After) (stops : List String := []) : Reader Shape := do
  let first ← self (.expression after)
  moreExpressions self after stops first

/-- What stands behind the word `yield`. -/
def yielded (self : Inner) (after : After) : Reader Unit := do
  match ← look (after.expect true) with
  | (.word "from", next) =>
    set next
    let _ ← self (.expression after)
  | (t, _) =>
    if startsOperand t then
      let _ ← expressions self after

/-- Targets of a loop, up to the word `in`. -/
def targets (self : Inner) : Reader Unit := do
  let target : Reader Unit := do
    let s ← self (.operand {})
    guard s.isTarget
  target
  loop (fun _ => do
    if ← passSign {} "," then
      match ← look { string := true } with
      | (.word "in", _) => pure none
      | _ => target; pure (some ())
    else pure none) ()
  takeWord "in"

/-! Comprehensions. -/

/-- Whether the words `for` or `async for` are next. -/
def atLoop (after : After) : Reader Bool := do
  match ← look (after.expect false) with
  | (.word "for", _) => pure true
  | (.word "async", next) =>
    match Token.next {} next with
    | some (.word "for", _) => pure true
    | _ => pure false
  | _ => pure false

def loopClause (self : Inner) : Reader Unit := do
  let _ ← passWord {} "async"
  takeWord "for"
  targets self
  let after : After := { close := true, choice := false }
  let _ ← self (.expression after)
  loop (fun _ => do
    if ← passSign (after.expect false) "," then
      if ← atLoop after then pure none
      else
        match ← look (after.expect true) with
        | (.word "if", _) => pure none
        | (t, _) =>
          if startsOperand t then
            let _ ← self (.expression after)
            pure (some ())
          else pure none
    else pure none) ()

def clauses (self : Inner) : Reader Unit := do
  loopClause self
  loop (fun _ => do
    if ← atLoop { close := true } then
      loopClause self
      pure (some ())
    else if ← passWord { close := true } "if" then
      let _ ← self (.expression { close := true, choice := false })
      pure (some ())
    else pure none) ()

/-! Brackets. -/

/-- What an element of a collection is. -/
inductive Element where
  | plain (s : Shape)
  | spread (s : Shape)
  | yielding

def Element.shape : Element → Shape
  | .plain s | .spread s => s
  | .yielding => .other

/-- Whether a comprehension can be made of the element. -/
def Element.isExpression : Element → Bool
  | .plain _ => true
  | .spread s => s = .splat
  | .yielding => false

def element (self : Inner) : Reader Element := do
  let after : After := { close := true }
  match ← look { string := true, close := true } with
  | (.word "yield", next) =>
    set next
    yielded self after
    pure .yielding
  | (.sign "*", next) =>
    set next
    let s ← self (.expression after)
    pure (.spread (if s.isPlace then .splat else .other))
  | _ => return .plain (← self (.expression after))

/-- The elements behind the first one and the closing sign. -/
def moreElements (self : Inner) (closing : String) (first : Shape) : Reader Shape := do
  let s ← loop (fun (s : Shape) => do
    if ← passSign { close := true } "," then
      match ← look { string := true, close := true } with
      | (.sign t, _) =>
        if t = closing then pure none
        else
          let e ← element self
          pure (some (if s.isTarget && e.shape.isTarget then .group else .other))
      | _ =>
        let e ← element self
        pure (some (if s.isTarget && e.shape.isTarget then .group else .other))
    else pure none) first
  takeSign { close := true } closing
  pure s

/-- A parenthesis or a list behind its opening sign. -/
def collection (self : Inner) (closing : String) : Reader Shape := do
  if ← passSign { string := true, close := true } closing then return .group
  let e ← element self
  if ← provided e.isExpression (atLoop { close := true }) then
    clauses self
    takeSign { close := true } closing
    return .other
  moreElements self closing (if e.shape.isTarget then .group else .other)

def dictionaryItem (self : Inner) : Reader Unit := do
  if ← passSign { string := true, close := true } "**" then
    let _ ← self (.expression { close := true })
  else
    let _ ← self (.expression {})
    takeSign {} ":"
    let _ ← self (.expression { close := true })

def closing : Expect := { close := true }

def moreItems (self : Inner) : Reader Unit := do
  loop (fun _ => do
    if ← passSign closing "," then
      match ← look { string := true, close := true } with
      | (.sign "\x7d", _) => pure none
      | _ => dictionaryItem self; pure (some ())
    else pure none) ()
  takeSign closing "\x7d"

/-- A set or a dictionary behind its opening brace. -/
def braces (self : Inner) : Reader Unit := do
  match ← look { string := true, close := true } with
  | (.sign "\x7d", next) => set next
  | (.sign ",", next) =>
    set next
    takeSign closing "\x7d"
  | (.sign "**", _) =>
    dictionaryItem self
    moreItems self
  | _ =>
    let e ← element self
    match e with
    | .plain s =>
      if ← passSign closing ":" then
        let _ ← self (.expression { close := true })
        if ← atLoop { close := true } then
          clauses self
          takeSign closing "\x7d"
        else moreItems self
      else if ← atLoop { close := true } then
        clauses self
        takeSign closing "\x7d"
      else
        let _ ← moreElements self "\x7d" s
    | e =>
      if ← provided e.isExpression (atLoop { close := true }) then
        clauses self
        takeSign closing "\x7d"
      else
        let _ ← moreElements self "\x7d" .other

/-- One index of a subscript: an expression or a slice. -/
def index (self : Inner) : Reader Unit := do
  let after : After := { close := true }
  let bound : Reader Unit := do
    match ← look { string := true, close := true } with
    | (t, _) =>
      if startsOperand t then
        let _ ← self (.expression after)
  let isSlice ← passSign { string := true } ":"
  if isSlice then
    bound
    if ← passSign closing ":" then bound
  else
    let _ ← self (.expression after)
    if ← passSign closing ":" then
      bound
      if ← passSign closing ":" then bound

def subscript (self : Inner) : Reader Unit := do
  index self
  loop (fun _ => do
    if ← passSign closing "," then
      match ← look { string := true, close := true } with
      | (.sign "]", _) => pure none
      | _ => index self; pure (some ())
    else pure none) ()
  takeSign closing "]"

def argument (self : Inner) : Reader Shape := do
  let after : After := { close := true }
  if ← passSign { string := true, close := true } "*" then
    let s ← self (.expression after)
    return if s.isPlace then .splat else .other
  if ← passSign { string := true, close := true } "**" then
    let _ ← self (.expression after)
    return .other
  let s ← self (.expression after)
  if ← provided (s = .name) (passSign closing "=") then
    let _ ← self (.expression after)
    return .other
  pure s

/-- The arguments of a call behind the opening parenthesis. -/
def arguments (self : Inner) : Reader Unit := do
  match ← look { string := true, close := true } with
  | (.sign ")", next) => set next
  | (.sign ",", next) =>
    set next
    takeSign closing ")"
  | (t, _) =>
    let spread := match t with
      | .sign s => s = "*" || s = "**"
      | _ => false
    let s ← argument self
    if ← provided (!spread || s = .splat) (atLoop { close := true }) then
      clauses self
      takeSign closing ")"
    else
      loop (fun _ => do
        if ← passSign closing "," then
          match ← look { string := true, close := true } with
          | (.sign ")", _) => pure none
          | _ =>
            let _ ← argument self
            pure (some ())
        else pure none) ()
      takeSign closing ")"

/-! Operands. -/

/-- Words that join operands, so that `await` before one of them is a name. -/
def joining : List String :=
  ["and", "or", "if", "in", "not", "is", "as", "else", "for", "from"]

def atom (self : Inner) (after : After) : Reader Shape := do
  let (t, next) ← look { string := true }
  match t with
  | .quote q =>
    set next
    string self q
    loop (fun _ => do
      match ← look (after.expect true) with
      | (.quote q, next) =>
        set next
        string self q
        pure (some ())
      | _ => pure none) ()
    pure .other
  | .number => set next; pure .other
  | .word w =>
    set next
    if w = "True" || w = "False" || w = "None" then pure .other
    else if w = "await" then
      let (t, _) ← look (after.expect true)
      let joins := match t with
        | .word w => joining.contains w
        | t => !startsOperand t
      if joins then pure .name
      else
        let _ ← self (.operand after)
        pure .other
    else pure .name
  | .sign "..." => set next; pure .other
  | .sign "(" => set next; collection self ")"
  | .sign "[" => set next; collection self "]"
  | .sign "\x7b" =>
    set next
    braces self
    pure .other
  | _ => failure

/-- Attributes, subscripts and calls behind an atom; the flag tells whether one of the first two
has been read. -/
def trailers (self : Inner) (after : After) (s : Shape) : Reader (Shape × Bool) :=
  loop (fun (_, placed) => do
    let (t, next) ← look (after.expect false)
    match t with
    | .sign "." =>
      set next
      let _ ← takeName
      pure (some (.place, true))
    | .sign "[" =>
      set next
      subscript self
      pure (some (.place, true))
    | .sign "(" =>
      set next
      arguments self
      pure (some (.other, placed))
    | _ => pure none) (s, false)

def operand (self : Inner) (after : After) : Reader Shape := do
  let (t, next) ← look { string := true }
  match t with
  | .sign "+" | .sign "-" | .sign "~" =>
    set next
    let _ ← self (.operand after)
    pure .other
  | .sign "*" =>
    set next
    let a ← atom self after
    let (s, placed) ← trailers self after a
    guard (a = .name || placed)
    pure (if s.isPlace then .splat else .other)
  | _ =>
    let a ← atom self after
    return (← trailers self after a).1

/-! Parameters. -/

/-- Parameters between commas, up to the closing sign. Those of a `lambda` have no types. -/
def parameter (self : Inner) (typed : Bool) (after : After) : Reader Unit := do
  let hint : Reader Unit := do
    if ← provided typed (passSign (after.expect false) ":") then
      let _ ← self (.hint after true)
  let default : Reader Unit := do
    if ← passSign (after.expect false) "=" then
      let _ ← self (.expression after)
  let starred : Reader Unit := do
    let s ← self (.operand after)
    guard s.isPlace
    hint
  let (t, next) ← look (after.expect false)
  match t with
  | .sign "/" => set next
  | .sign "*" =>
    set next
    match ← look (after.expect true) with
    | (.sign s, _) => if s ≠ "," && s ≠ ")" && s ≠ ":" then starred
    | _ => starred
  | .sign "**" =>
    set next
    starred
  | .sign "(" =>
    let s ← atom self after
    guard (s = .group)
    default
  | .word _ =>
    set next
    hint
    default
  | _ => failure

def parameters (self : Inner) (typed : Bool) (after : After) (closing : String) : Reader Unit := do
  let isClosed : Reader Bool := do
    match ← look (after.expect false) with
    | (.sign s, _) => pure (s = closing)
    | _ => pure false
  if !(← isClosed) then
    parameter self typed after
    loop (fun _ => do
      if ← passSign (after.expect false) "," then
        if ← isClosed then pure none
        else
          parameter self typed after
          pure (some ())
      else pure none) ()
  takeSign (after.expect false) closing

/-! Expressions. -/

def arithmetic : List String :=
  ["+", "-", "*", "@", "/", "%", "//", "**", "|", "&", "^", "<<", ">>",
   "<", "<=", "==", "!=", ">=", ">", "<>"]

/-- An operand, a negation, a `lambda` or a named expression. -/
def term (self : Inner) (after : After) : Reader Shape := do
  let (t, next) ← look { string := true }
  match t with
  | .word "not" =>
    set next
    let _ ← self (.expression after)
    pure .other
  | .word "lambda" =>
    set next
    parameters self false {} ":"
    let _ ← self (.expression after)
    pure .other
  | _ =>
    let s ← operand self after
    if ← provided (s = .name) (passSign (after.expect false) ":=") then
      let _ ← self (.expression after)
      return .other
    pure s

def operator (self : Inner) (after : After) (_ : Shape) : Reader (Option Shape) := do
  let (t, next) ← look (after.expect false)
  let thenOperand : Reader (Option Shape) := do
    let _ ← operand self after
    pure (some .other)
  match t with
  | .sign s =>
    if arithmetic.contains s then
      set next
      thenOperand
    else pure none
  | .word "in" =>
    set next
    thenOperand
  | .word "not" =>
    set next
    takeWord "in"
    thenOperand
  | .word "is" =>
    set next
    let _ ← passWord { string := true } "not"
    thenOperand
  | .word "and" | .word "or" =>
    set next
    let _ ← term self after
    pure (some .other)
  | .word "as" =>
    set next
    let _ ← self (.expression after)
    pure (some .other)
  | .word "if" =>
    if after.choice then
      set next
      let _ ← self (.expression {})
      takeWord "else"
      let _ ← self (.expression after)
      pure (some .other)
    else pure none
  | _ => pure none

def expression (self : Inner) (after : After) : Reader Shape := do
  let s ← term self after
  loop (operator self after) s

/-! Types. -/

def typeParameters (self : Inner) : Reader Unit := do
  let after : After := { close := true }
  let _ ← self (.hint after true)
  loop (fun _ => do
    if ← passSign closing "," then
      match ← look { string := true, close := true } with
      | (.sign "]", _) => pure none
      | _ =>
        let _ ← self (.hint after true)
        pure (some ())
    else pure none) ()
  takeSign closing "]"

/-- Words that do not name a type with parameters. -/
def reserved : List String :=
  ["not", "lambda", "True", "False", "None", "await", "print", "exec", "async", "match"]

def simpleHint (self : Inner) (after : After) : Reader Unit := do
  match ← look { string := true } with
  | (.sign "**", next) =>
    set next
    let _ ← takeName
  | (.word w, next) =>
    match Token.next (after.expect false) next with
    | some (.sign "[", inside) =>
      if reserved.contains w then
        let _ ← expression self after
      else
        set inside
        typeParameters self
    | _ =>
      let _ ← expression self after
  | _ =>
    let _ ← expression self after

/-- A type; a ranged one may bind a name by a colon. -/
def hint (self : Inner) (after : After) (ranged : Bool) : Reader Shape := do
  simpleHint self after
  loop (fun _ => do
    match ← look (after.expect false) with
    | (.sign "|", next) =>
      set next
      simpleHint self after
      pure (some ())
    | (.sign ".", next) =>
      set next
      let _ ← takeName
      pure (some ())
    | (.sign ":", next) =>
      if ranged then
        set next
        simpleHint self after
        pure (some ())
      else pure none
    | _ => pure none) ()
  pure .other

/-! Patterns of a `case`. -/

def patternsUntil (closing : String) (item : Reader Unit) : Reader Unit := do
  let isClosed : Reader Bool := do
    match ← look { string := true, close := true } with
    | (.sign s, _) => pure (s = closing)
    | _ => pure false
  if !(← isClosed) then
    item
    loop (fun _ => do
      if ← passSign { close := true } "," then
        if ← isClosed then pure none
        else
          item
          pure (some ())
      else pure none) ()
  takeSign { close := true } closing

def numberPattern (after : After) : Reader Unit := do
  let _ ← passSign {} "-"
  match ← look {} with
  | (.number, next) => set next
  | _ => failure
  match ← look (after.expect false) with
  | (.sign s, next) =>
    if s = "+" || s = "-" then
      set next
      match ← look {} with
      | (.number, next) => set next
      | _ => failure
  | _ => pure ()

def simplePattern (self : Inner) (after : After) : Reader Unit := do
  let inner : Reader Unit := do
    let _ ← self (.pattern { close := true })
  let (t, next) ← look { string := true }
  match t with
  | .quote _ =>
    let _ ← atom self after
  | .number | .sign "-" => numberPattern after
  | .sign "*" | .sign "**" =>
    set next
    let _ ← takeName
  | .sign "[" =>
    set next
    patternsUntil "]" inner
  | .sign "(" =>
    set next
    patternsUntil ")" inner
  | .sign "\x7b" =>
    set next
    patternsUntil "\x7d" do
      match ← look { string := true } with
      | (.sign s, next) =>
        if s = "*" || s = "**" then
          set next
          let _ ← takeName
        else
          inner
          takeSign {} ":"
          inner
      | _ =>
        inner
        takeSign {} ":"
        inner
  | .word w =>
    set next
    if w = "True" || w = "False" || w = "None" then pure ()
    else
      loop (fun _ => do
        if ← passSign (after.expect false) "." then
          let _ ← takeName
          pure (some ())
        else pure none) ()
      if ← passSign (after.expect false) "(" then
        patternsUntil ")" inner
  | _ => failure

def pattern (self : Inner) (after : After) : Reader Shape := do
  let union : Reader Unit := do
    simplePattern self after
    loop (fun _ => do
      if ← passSign (after.expect false) "|" then
        simplePattern self after
        pure (some ())
      else pure none) ()
  match ← look { string := true } with
  | (.word _, next) =>
    match Token.next (after.expect false) next with
    | some (.sign "=", value) =>
      set value
      simplePattern self after
    | _ => union
  | _ => union
  loop (fun _ => do
    if ← passWord (after.expect false) "as" then
      let _ ← takeName
      pure (some ())
    else pure none) ()
  pure .other

/-! Interpolations. -/

/-- What stands in the braces of a format string, behind the opening one. -/
def interpolation (self : Inner) : Reader Shape := do
  let after : After := { close := true }
  match ← look { string := true } with
  | (.word "yield", next) =>
    set next
    yielded self after
  | _ =>
    let _ ← expressions self after
  let _ ← passSign closing "="
  match ← look closing with
  | (.conversion, next) => set next
  | _ => pure ()
  match ← look closing with
  | (.sign ":", next) =>
    set next
    loop (formatStep self) ()
  | (.sign "\x7d", next) => set next
  | _ => failure
  pure .other

def Form.step (self : Inner) : Form → Reader Shape
  | .expression after => Python.expression self after
  | .operand after => Python.operand self after
  | .hint after ranged => Python.hint self after ranged
  | .interpolation => Python.interpolation self
  | .pattern after => Python.pattern self after

/-- Reads a form that holds at most `depth` forms inside each other. -/
def Form.readWithin : Nat → Inner
  | 0, _ => failure
  | depth + 1, f => Form.step (Form.readWithin depth) f

/-- Reads a form. Each inner form starts behind a sign, so the text bounds the depth. -/
def Form.read (f : Form) : Reader Shape := do
  Form.readWithin (2 * (← get).rest.length + 2) f

end Worksite.Python
