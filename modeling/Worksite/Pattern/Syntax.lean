import Worksite.Pattern

/-!
The text of patterns. Groups that are still open are kept in a list, the innermost first, and the
text is read from left to right. Flags hold up to the end of the group that they stand in, across
its branches.
-/
namespace Worksite.Pattern

abbrev Chars := List Char

structure Flags where
  caseless : Bool := false
  /-- A caret and a dollar sign match at lines. -/
  lines : Bool := false
  /-- A dot matches a line feed. -/
  dotAll : Bool := false
  swapGreed : Bool := false
  unicode : Bool := true
  anyLineEnd : Bool := false
  /-- Blanks and comments mean nothing. -/
  spaced : Bool := false

/-- Passes over blanks, and comments that a line feed ends. -/
def skipSpace : Bool → Chars → Chars
  | _, [] => []
  | true, c :: rest => if c = '\n' then skipSpace false rest else skipSpace true rest
  | false, c :: rest =>
    if Unicode.isSpace c then skipSpace false rest
    else if c = '#' then skipSpace true rest
    else c :: rest

def Flags.skip (f : Flags) (s : Chars) : Chars := if f.spaced then skipSpace false s else s

/-! Escapes. -/

/-- What stands for one character or for a condition. -/
inductive Primitive where
  /-- `byte` tells that it was written as a byte. -/
  | literal (c : Char) (byte : Bool)
  | set (s : CharSet)
  | look (l : Look)

def isMeta (c : Char) : Bool := c ∈ "\\.+*?()|[]\x7b\x7d^$#&-~".toList

/-- A text whose pattern is the text as it is. -/
def escape (text : String) : String :=
  String.ofList (text.toList.flatMap fun c => if isMeta c then ['\\', c] else [c])

def isEscapable (c : Char) : Bool :=
  isMeta c || (c.toNat < 128 && !c.isAlphanum && c ≠ '<' && c ≠ '>')

def hexValue? (c : Char) : Option Nat :=
  if c.isDigit then some (c.toNat - 48)
  else if 'a' ≤ c && c ≤ 'f' then some (c.toNat - 87)
  else if 'A' ≤ c && c ≤ 'F' then some (c.toNat - 55)
  else none

def charOf? (n : Nat) : Option Char := if n.isValidChar then some (Char.ofNat n) else none

def hexDigits (f : Flags) (value : Nat) : Nat → Chars → Option (Nat × Chars)
  | 0, s => some (value, s)
  | n + 1, c :: rest => do hexDigits f (16 * value + (← hexValue? c)) n (f.skip rest)
  | _ + 1, [] => none

/-- The characters up to a closing brace. -/
def braced (f : Flags) : Nat → Chars → Option (Chars × Chars)
  | 0, _ => none
  | fuel + 1, s =>
    match f.skip s with
    | [] => none
    | '}' :: rest => some ([], rest)
    | c :: rest => (braced f fuel rest).map fun (cs, rest) => (c :: cs, rest)

def bracedIn (f : Flags) (s : Chars) : Option (Chars × Chars) := braced f (s.length + 1) s

/-- A character by its number, with `n` digits or in braces. -/
def hexEscape? (f : Flags) (n : Nat) (s : Chars) : Option (Char × Chars) :=
  match f.skip s with
  | '{' :: rest => do
    let (ds, rest) ← bracedIn f rest
    if ds.isEmpty then none
    else
      let value ← ds.foldlM (fun v d => (hexValue? d).map fun x => 16 * v + x) 0
      some (← charOf? value, f.skip rest)
  | s => do
    let (value, rest) ← hexDigits f 0 n s
    some (← charOf? value, rest)

def negateIf (negated : Bool) (s : CharSet) : CharSet := if negated then .complement s else s

/-- Folds, then negates. Without Unicode, a set has ASCII characters only. -/
def Flags.close? (f : Flags) (negated : Bool) (s : CharSet) : Option CharSet :=
  if f.unicode then some (negateIf negated (if f.caseless then .folded s else s))
  else if negated || !s.isAscii then none
  else some (if f.caseless then .asciiFolded s else s)

/-- The name of a property and its value, if there is one; `!=` negates. -/
def splitProperty (s : Chars) : Chars × Option Chars × Bool :=
  let before (stop : Char) := s.takeWhile (· ≠ stop)
  let behind (stop : Char) (n : Nat) := (s.dropWhile (· ≠ stop)).drop n
  let unequal := (List.range s.length).find? fun i => ['!', '='].isPrefixOf (s.drop i)
  match unequal with
  | some i => (s.take i, some (s.drop (i + 2)), true)
  | none =>
    if s.contains ':' then (before ':', some (behind ':' 1), false)
    else if s.contains '=' then (before '=', some (behind '=' 1), false)
    else (s, none, false)

def property? (f : Flags) (negated : Bool) (s : Chars) : Option (CharSet × Chars) :=
  if !f.unicode then none
  else
    match f.skip s with
    | '{' :: rest => do
      let (text, rest) ← bracedIn f rest
      let (name, value, unequal) := splitProperty text
      let set ← match value with
        | some v => CharSet.ofPropertyValue? (String.ofList name) (String.ofList v)
        | none => CharSet.ofPropertyName? (String.ofList name)
      some (← f.close? (negated != unequal) set, rest)
    | '\\' :: _ => none
    | c :: rest => do
      let set ← CharSet.ofPropertyName? (String.singleton c)
      some (← f.close? negated set, f.skip rest)
    | [] => none

/-- The set of digits, blanks or word characters. -/
def shorthand? (f : Flags) (set ascii : CharSet) (negated : Bool) : Option CharSet :=
  if f.unicode then some (negateIf negated set)
  else if negated then none
  else some ascii

def edgeNamed? (ascii : Bool) : String → Option Look
  | "start" => some (.wordStart ascii)
  | "end" => some (.wordStop ascii)
  | "start-half" => some (.wordStartHalf ascii)
  | "end-half" => some (.wordStopHalf ascii)
  | _ => none

/-- What follows `\b`: a name in braces makes another condition of it, and other braces are left to
be read as a count. -/
def wordEdge? (f : Flags) (s : Chars) : Option (Look × Chars) :=
  let ascii := !f.unicode
  match s with
  | '{' :: rest =>
    let isName (c : Char) := c.isAlpha || c = '-'
    match f.skip rest with
    | [] => none
    | c :: _ =>
      if !isName c then some (.wordEdge ascii, s)
      else do
        let (name, rest) ← bracedIn f rest
        if name.all isName then some (← edgeNamed? ascii (String.ofList name), rest) else none
  | s => some (.wordEdge ascii, s)

/-- What follows a backslash. -/
def escape? (f : Flags) : Chars → Option (Primitive × Chars)
  | [] => none
  | c :: rest =>
    let ascii := !f.unicode
    let set (s : Option CharSet) := s.map fun s => (Primitive.set s, rest)
    match c with
    | 'x' => (hexEscape? f 2 rest).map fun (d, after) =>
        (.literal d ((f.skip rest).head? ≠ some '{'), after)
    | 'u' => (hexEscape? f 4 rest).map fun (d, rest) => (.literal d false, rest)
    | 'U' => (hexEscape? f 8 rest).map fun (d, rest) => (.literal d false, rest)
    | 'p' => (property? f false rest).map fun (s, rest) => (.set s, rest)
    | 'P' => (property? f true rest).map fun (s, rest) => (.set s, rest)
    | 'd' => set (shorthand? f (.property (.category [.Nd])) CharSet.digits false)
    | 'D' => set (shorthand? f (.property (.category [.Nd])) CharSet.digits true)
    | 's' => set (shorthand? f (.property .whiteSpace) CharSet.asciiSpace false)
    | 'S' => set (shorthand? f (.property .whiteSpace) CharSet.asciiSpace true)
    | 'w' => set (shorthand? f (.property .word) CharSet.asciiWord false)
    | 'W' => set (shorthand? f (.property .word) CharSet.asciiWord true)
    | 'a' => some (.literal '\x07' false, rest)
    | 'f' => some (.literal '\x0c' false, rest)
    | 't' => some (.literal '\t' false, rest)
    | 'n' => some (.literal '\n' false, rest)
    | 'r' => some (.literal '\r' false, rest)
    | 'v' => some (.literal '\x0b' false, rest)
    | 'A' => some (.look .start, rest)
    | 'z' => some (.look .stop, rest)
    | 'b' => (wordEdge? f rest).map fun (l, rest) => (.look l, rest)
    | 'B' => some (.look (.notWordEdge ascii), rest)
    | '<' => some (.look (.wordStart ascii), rest)
    | '>' => some (.look (.wordStop ascii), rest)
    | c => if isEscapable c then some (.literal c false, rest) else none

/-! Classes in brackets. -/

inductive SetOperator where
  | both
  | without
  | either

/-- A set with the depth of its brackets and operators. -/
structure DeepSet where
  set : CharSet
  depth : Nat := 0

/-- A class that is still open: its items, and the operator before them with what stands before
it. -/
structure ClassFrame where
  negated : Bool
  items : List DeepSet := []
  pending : Option (SetOperator × DeepSet) := none

namespace ClassFrame

def push (k : ClassFrame) (s : DeepSet) : ClassFrame := { k with items := k.items ++ [s] }

def pushSet (k : ClassFrame) (s : CharSet) : ClassFrame := k.push { set := s }

def union (k : ClassFrame) : DeepSet :=
  let set := CharSet.unions (k.items.map (·.set))
  let depth := (k.items.map (·.depth)).foldl max 0
  { set, depth := if k.items.length ≥ 2 then depth + 1 else depth }

/-- The items with the operator before them. -/
def value (f : Flags) (k : ClassFrame) : DeepSet :=
  let right := k.union
  match k.pending with
  | none => right
  | some (operator, left) =>
    let fold (s : CharSet) : CharSet :=
      if !f.caseless then s else if f.unicode then .folded s else .asciiFolded s
    let a := fold left.set
    let b := fold right.set
    let set := match operator with
      | .both => CharSet.both a b
      | .without => CharSet.without a b
      | .either => CharSet.either a b
    { set, depth := max left.depth right.depth + 1 }

def operate (f : Flags) (k : ClassFrame) (operator : SetOperator) : ClassFrame :=
  { negated := k.negated, pending := some (operator, k.value f) }

end ClassFrame

/-- What follows an opening bracket: a caret negates, and dashes, or a bracket, that come first stand
for themselves. -/
def openClass? (f : Flags) (s : Chars) : Option (ClassFrame × Chars) :=
  let s := f.skip s
  let (negated, s) := match s with
    | '^' :: rest => (true, f.skip rest)
    | s => (false, s)
  let rec dashes : Nat → Nat → Chars → Nat × Chars
    | 0, n, s => (n, s)
    | fuel + 1, n, '-' :: rest => dashes fuel (n + 1) (f.skip rest)
    | _ + 1, n, s => (n, s)
  let (n, s) := dashes s.length 0 s
  let start : ClassFrame :=
    { negated, items := List.replicate n { set := CharSet.single '-' } }
  match s with
  | [] => none
  | ']' :: rest =>
    if n = 0 then
      match f.skip rest with
      | [] => none
      | rest => some (start.pushSet (CharSet.single ']'), rest)
    else some (start, s)
  | s => some (start, s)

/-- A class such as `[:alpha:]`, behind its bracket. -/
def namedClass? : Chars → Option (CharSet × Bool × Chars)
  | ':' :: s =>
    let (negated, s) := match s with
      | '^' :: rest => (true, rest)
      | s => (false, s)
    match s.dropWhile (· ≠ ':') with
    | ':' :: ']' :: rest =>
      (CharSet.named? (String.ofList (s.takeWhile (· ≠ ':')))).map fun k => (k, negated, rest)
    | _ => none
  | _ => none

def classItem? (f : Flags) : Chars → Option (Primitive × Chars)
  | '\\' :: rest => escape? f rest
  | c :: rest => some (.literal c false, rest)
  | [] => none

/-- A character that may stand in a class: without Unicode, an ASCII one. -/
def classChar? (f : Flags) (c : Char) : Option Char :=
  if f.unicode || c.toNat < 128 then some c else none

/-- An item of a class, or a range of characters. -/
def classRange? (f : Flags) (s : Chars) : Option (CharSet × Chars) := do
  let (first, rest) ← classItem? f s
  let rest := f.skip rest
  let alone : Option (CharSet × Chars) :=
    match first with
    | .literal c _ => (classChar? f c).map fun c => (CharSet.single c, rest)
    | .set chars => some (chars, rest)
    | .look _ => none
  match rest with
  | [] => none
  | '-' :: more =>
    let next := (f.skip more).head?
    if next = some ']' || next = some '-' then alone
    else if next.isNone then none
    else do
      let (last, rest) ← classItem? f (f.skip more)
      match first, last with
      | .literal a _, .literal b _ =>
        let a ← classChar? f a
        let b ← classChar? f b
        if a ≤ b then some (CharSet.range a b, rest) else none
      | _, _ => none
  | _ => alone

/-- Reads a class to its end; the open classes are listed innermost first. -/
def classWithin (f : Flags) : Nat → ClassFrame → List ClassFrame → Chars → Option (DeepSet × Chars)
  | 0, _, _, _ => none
  | fuel + 1, k, outer, s =>
    match f.skip s with
    | [] => none
    | '[' :: rest =>
      match namedClass? rest with
      | some (chars, negated, rest) => do
        classWithin f fuel (k.pushSet (← f.close? negated chars)) outer rest
      | none => do
        let (inner, rest) ← openClass? f rest
        classWithin f fuel inner (k :: outer) rest
    | ']' :: rest => do
      let inner := k.value f
      let closed : DeepSet := { set := ← f.close? k.negated inner.set, depth := inner.depth + 1 }
      match outer with
      | [] => some (closed, rest)
      | k :: outer => classWithin f fuel (k.push closed) outer rest
    | '&' :: '&' :: rest => classWithin f fuel (k.operate f .both) outer rest
    | '-' :: '-' :: rest => classWithin f fuel (k.operate f .without) outer rest
    | '~' :: '~' :: rest => classWithin f fuel (k.operate f .either) outer rest
    | s => do
      let (chars, rest) ← classRange? f s
      classWithin f fuel (k.pushSet chars) outer rest

def class? (f : Flags) (s : Chars) : Option (DeepSet × Chars) := do
  let (k, rest) ← openClass? f s
  classWithin f (rest.length + 1) k [] rest

/-! Groups. -/

/-- A part of a branch: a pattern with its depth, or a mere change of flags, which cannot be
repeated. -/
inductive Item where
  | part (p : Pattern) (depth : Nat)
  | flags

structure Frame where
  /-- The flags behind the group. -/
  outer : Flags
  branches : List (Pattern × Nat) := []
  items : List Item := []

namespace Frame

def push (g : Frame) (p : Pattern) (depth : Nat) : Frame :=
  { g with items := g.items ++ [.part p depth] }

def parts (g : Frame) : List (Pattern × Nat) :=
  g.items.filterMap fun
    | .part p depth => some (p, depth)
    | .flags => none

/-- The current branch. -/
def branch (g : Frame) : Pattern × Nat :=
  let depth := (g.parts.map (·.2)).foldl max 0
  let p := match (g.parts.map (·.1)).reverse with
    | [] => Pattern.empty
    | last :: before => before.foldl (fun q p => .seq p q) last
  (p, if g.items.length ≥ 2 then depth + 1 else depth)

def nextBranch (g : Frame) : Frame :=
  { g with branches := g.branches ++ [g.branch], items := [] }

/-- The whole group. -/
def value (g : Frame) : Pattern × Nat :=
  let all := g.branches ++ [g.branch]
  let depth := (all.map (·.2)).foldl max 0
  match (all.map (·.1)).reverse with
  | [] => (.empty, 0)
  | last :: before =>
    (before.foldl (fun q p => .alt p q) last, if all.length ≥ 2 then depth + 1 else depth)

/-- Repeats the last part. -/
def repeatLast? (g : Frame) (again : Pattern → Pattern) : Option Frame :=
  match g.items.getLast? with
  | some (.part p depth) => some { g with items := g.items.dropLast ++ [.part (again p) (depth + 1)] }
  | _ => none

end Frame

structure State where
  flags : Flags
  names : List String := []
  group : Frame
  /-- The groups around it, innermost first. -/
  outer : List Frame := []

def setFlag? (f : Flags) (on : Bool) : Char → Option Flags
  | 'i' => some { f with caseless := on }
  | 'm' => some { f with lines := on }
  | 's' => some { f with dotAll := on }
  | 'U' => some { f with swapGreed := on }
  | 'u' => some { f with unicode := on }
  | 'R' => some { f with anyLineEnd := on }
  | 'x' => some { f with spaced := on }
  | _ => none

/-- Flags up to a colon or a parenthesis; each may come once, and one dash, which is not the
last. -/
def flagsWithin (f : Flags) (seen : Chars) : Chars → Option (Flags × Bool × Char × Chars)
  | [] => none
  | c :: rest =>
    if c = ':' || c = ')' then
      if seen.head? = some '-' then none else some (f, seen.isEmpty, c, rest)
    else if c ∈ seen then none
    else if c = '-' then flagsWithin f (c :: seen) rest
    else
      match setFlag? f ('-' ∉ seen) c with
      | some f => flagsWithin f (c :: seen) rest
      | none => none

def isNameStart (c : Char) : Bool := c = '_' || Unicode.isAlphabetic c

def isNamePart (c : Char) : Bool :=
  isNameStart c || c = '.' || c = '[' || c = ']' || Unicode.Category.of c ∈ Property.numbers

def groupName? (names : List String) (s : Chars) : Option (String × Chars) :=
  let name := s.takeWhile (· ≠ '>')
  match s.dropWhile (· ≠ '>'), name with
  | _ :: rest, first :: more =>
    let text := String.ofList name
    if isNameStart first && more.all isNamePart && text ∉ names then some (text, rest) else none
  | _, _ => none

def State.openGroup (st : State) (inside : Flags) : State :=
  { st with flags := inside, group := { outer := st.flags }, outer := st.group :: st.outer }

/-- What follows an opening parenthesis. -/
def openGroup? (st : State) (s : Chars) : Option (State × Chars) :=
  let named (s : Chars) : Option (State × Chars) := do
    let (name, rest) ← groupName? st.names s
    some ({ st.openGroup st.flags with names := name :: st.names }, rest)
  match st.flags.skip s with
  | '?' :: '=' :: _ | '?' :: '!' :: _ | '?' :: '<' :: '=' :: _ | '?' :: '<' :: '!' :: _ => none
  | '?' :: 'P' :: '<' :: rest => named rest
  | '?' :: '<' :: rest => named rest
  | '?' :: rest => do
    let (flags, blank, stop, rest) ← flagsWithin st.flags [] rest
    if stop = ':' then some (st.openGroup flags, rest)
    else if blank then none
    else
      some ({ st with flags, group := { st.group with items := st.group.items ++ [.flags] } }, rest)
  | s => some (st.openGroup st.flags, s)

def closeGroup? (st : State) : Option State :=
  match st.outer with
  | [] => none
  | g :: outer =>
    let (p, depth) := st.group.value
    some { st with flags := st.group.outer, group := g.push p (depth + 1), outer }

/-! Repetition. -/

/-- A question mark behind a repetition makes it reluctant. -/
def greed (f : Flags) (s : Chars) : Bool × Chars :=
  match s with
  | '?' :: rest => (f.swapGreed, rest)
  | s => (!f.swapGreed, s)

def decimal? (f : Flags) (s : Chars) : Option Nat × Chars :=
  let rec digits : Nat → List Char → Chars → List Char × Chars
    | 0, ds, s => (ds, s)
    | fuel + 1, ds, c :: rest =>
      if c.isDigit then digits fuel (ds ++ [c]) (f.skip rest) else (ds, c :: rest)
    | _ + 1, ds, [] => (ds, [])
  let (ds, rest) := digits (s.length + 1) [] (s.dropWhile Unicode.isSpace)
  let n := ds.foldl (fun n d => 10 * n + (d.toNat - 48)) 0
  (if ds.isEmpty || n ≥ UInt32.size then none else some n, f.skip (rest.dropWhile Unicode.isSpace))

/-- Counts in braces: the least number and the greatest, if there is one. -/
def counts? (f : Flags) (s : Chars) : Option ((Nat × Option Nat) × Chars) := do
  let (least, rest) := decimal? f (f.skip s)
  let least ← least
  match rest with
  | '}' :: rest => some ((least, some least), rest)
  | ',' :: rest =>
    match f.skip rest with
    | '}' :: rest => some ((least, none), rest)
    | rest =>
      let (most, rest) := decimal? f rest
      let most ← most
      match rest with
      | '}' :: rest => if least ≤ most then some ((least, some most), rest) else none
      | _ => none
  | _ => none

def counted (least : Nat) (most : Option Nat) (greedy : Bool) (p : Pattern) : Pattern :=
  match most with
  | some 0 => .empty
  | some most =>
    if most = least then .times least p
    else if least = 0 then .upTo most greedy p
    else .seq (.times least p) (.upTo (most - least) greedy p)
  | none =>
    if least = 0 then star greedy p
    else if least = 1 then .plus greedy p
    else .seq (.times (least - 1) p) (.plus greedy p)

def repetition? (st : State) (s : Chars) (again : Bool → Pattern → Pattern) :
    Option (State × Chars) := do
  let (greedy, rest) := greed st.flags s
  let group ← st.group.repeatLast? (again greedy)
  some ({ st with group }, rest)

/-! The whole. -/

def literal? (f : Flags) (c : Char) (byte : Bool) : Option CharSet :=
  let one := CharSet.single c
  if f.unicode then some (if f.caseless then .folded one else one)
  else if byte && c.toNat ≥ 128 then none
  else some (if f.caseless && c.isAlpha then .asciiFolded one else one)

def dot? (f : Flags) : Option CharSet :=
  if !f.unicode then none
  else if f.dotAll then some (.complement .none)
  else if f.anyLineEnd then some (.complement (.union (.single '\r') (.single '\n')))
  else some (.complement (.single '\n'))

def State.push (st : State) (p : Pattern) (depth : Nat) : State :=
  { st with group := st.group.push p depth }

def primitive? (st : State) (p : Primitive) (rest : Chars) : Option (State × Chars) :=
  match p with
  | .literal c byte => (literal? st.flags c byte).map fun s => (st.push (.set s) 0, rest)
  | .set s => some (st.push (.set s) 0, rest)
  | .look l => some (st.push (.look l) 0, rest)

/-- Reads one part of a branch, or a sign between them. -/
def step? (st : State) (s : Chars) : Option (State × Chars) :=
  let f := st.flags
  match s with
  | [] => none
  | '(' :: rest => openGroup? st rest
  | ')' :: rest => (closeGroup? st).map (·, rest)
  | '|' :: rest => some ({ st with group := st.group.nextBranch }, rest)
  | '[' :: rest => (class? f rest).map fun (k, rest) => (st.push (.set k.set) k.depth, rest)
  | '?' :: rest => repetition? st rest optional
  | '*' :: rest => repetition? st rest star
  | '+' :: rest => repetition? st rest .plus
  | '{' :: rest => do
    let ((least, most), rest) ← counts? f rest
    repetition? st (f.skip rest) (counted least most)
  | '\\' :: rest => do
    let (p, rest) ← escape? f rest
    primitive? st p rest
  | '.' :: rest => do primitive? st (.set (← dot? f)) rest
  | '^' :: rest =>
    let l := if !f.lines then .start else if f.anyLineEnd then .anyLineStart else Look.lineStart
    primitive? st (.look l) rest
  | '$' :: rest =>
    let l := if !f.lines then .stop else if f.anyLineEnd then .anyLineStop else Look.lineStop
    primitive? st (.look l) rest
  | c :: rest => primitive? st (.literal c false) rest

def readWithin : Nat → State → Chars → Option State
  | 0, _, _ => none
  | fuel + 1, st, s =>
    match st.flags.skip s with
    | [] => some st
    | s => do
      let (st, rest) ← step? st s
      readWithin fuel st rest

/-- How deep a pattern may nest. -/
def maxDepth : Nat := 250

/-- The pattern of a text. -/
def parse? (caseless : Bool) (text : String) : Option Pattern := do
  let s := text.toList
  let flags : Flags := { caseless }
  let st ← readWithin (s.length + 1) { flags, group := { outer := flags } } s
  if !st.outer.isEmpty then none
  else
    let (p, depth) := st.group.value
    if depth ≤ maxDepth then some p else none

end Worksite.Pattern
