import Worksite.Pattern.CharSet

/-!
Patterns of text, and where they match. A pattern at a spot can end at several spots; they are
listed in the order in which the pattern prefers them, each once, and a match takes the first.
-/
namespace Worksite

/-- What holds between two characters. -/
inductive Look where
  | start
  | stop
  | lineStart
  | lineStop
  /-- A line may end with a carriage return, a line feed or both. -/
  | anyLineStart
  | anyLineStop
  | wordEdge (ascii : Bool)
  | notWordEdge (ascii : Bool)
  | wordStart (ascii : Bool)
  | wordStop (ascii : Bool)
  /-- No word before. -/
  | wordStartHalf (ascii : Bool)
  /-- No word after. -/
  | wordStopHalf (ascii : Bool)
  deriving DecidableEq, Repr

inductive Pattern where
  | empty
  | set (s : CharSet)
  | look (l : Look)
  | seq (p q : Pattern)
  | alt (p q : Pattern)
  /-- As often as told. -/
  | times (n : Nat) (p : Pattern)
  /-- At most as often as told, as often as possible if greedy. -/
  | upTo (n : Nat) (greedy : Bool) (p : Pattern)
  /-- Once or more. -/
  | plus (greedy : Bool) (p : Pattern)
  deriving Repr, Inhabited

/-- A place in a text: the character before it, what follows, and its distance from the start of
the text in bytes. -/
structure Spot where
  before : Option Char := none
  after : List Char
  offset : Nat := 0
  deriving DecidableEq, Repr

namespace Spot

def ofText (s : List Char) : Spot := { after := s }

def next? (s : Spot) : Option (Char × Spot) :=
  match s.after with
  | [] => none
  | c :: rest => some (c, { before := some c, after := rest, offset := s.offset + c.utf8Size })

end Spot

namespace Look

def isWord (ascii : Bool) (c : Option Char) : Bool :=
  c.any fun c => if ascii then Unicode.isAsciiWord c else Unicode.isWord c

def holds (s : Spot) (l : Look) : Bool :=
  let after := s.after.head?
  match l with
  | start => s.before.isNone
  | stop => after.isNone
  | lineStart => s.before.isNone || s.before = some '\n'
  | lineStop => after.isNone || after = some '\n'
  | anyLineStart =>
    s.before.isNone || s.before = some '\n' || (s.before = some '\r' && after ≠ some '\n')
  | anyLineStop =>
    after.isNone || after = some '\r' || (after = some '\n' && s.before ≠ some '\r')
  | wordEdge ascii => isWord ascii s.before != isWord ascii after
  | notWordEdge ascii => isWord ascii s.before == isWord ascii after
  | wordStart ascii => !isWord ascii s.before && isWord ascii after
  | wordStop ascii => isWord ascii s.before && !isWord ascii after
  | wordStartHalf ascii => !isWord ascii s.before
  | wordStopHalf ascii => !isWord ascii after

end Look

namespace Pattern

/-- Each spot where it comes first. -/
def distinct (spots : List Spot) : List Spot :=
  spots.foldl (fun kept s => if kept.any (·.offset = s.offset) then kept else kept ++ [s]) []

/-- The spots after `n` steps. -/
def iterate (step : Spot → List Spot) : Nat → List Spot → List Spot
  | 0, spots => spots
  | n + 1, spots => iterate step n (distinct (spots.flatMap step))

/-- The spots after at most `n` steps. -/
def within (step : Spot → List Spot) (greedy : Bool) : Nat → Spot → List Spot
  | 0, s => [s]
  | n + 1, s =>
    let more := (step s).flatMap (within step greedy n)
    distinct (if greedy then more ++ [s] else s :: more)

/-- Goes on from a spot as far as steps lead, through each spot once: the offsets that have been
seen, and the spots in the order of preference. -/
def explore (step : Spot → List Spot) (greedy : Bool) : Nat → List Nat → Spot → List Nat × List Spot
  | 0, seen, _ => (seen, [])
  | fuel + 1, seen, s =>
    if s.offset ∈ seen then (seen, [])
    else
      let (seen, more) := (step s).foldl (fun (seen, found) t =>
        let (seen, more) := explore step greedy fuel seen t
        (seen, found ++ more)) (s.offset :: seen, [])
      (seen, if greedy then more ++ [s] else s :: more)

/-- The spots after one step or more. A spot that a step leads back to is left as it is. -/
def onwards (step : Spot → List Spot) (greedy : Bool) (s : Spot) : List Spot :=
  let (_, found) := (step s).foldl (fun (seen, found) t =>
    if t.offset = s.offset then (seen, found ++ [t])
    else
      let (seen, more) := explore step greedy (s.after.length + 1) seen t
      (seen, found ++ more)) (([] : List Nat), ([] : List Spot))
  distinct found

/-- The spots where a match from `s` can end, the preferred one first. -/
def ends : Pattern → Spot → List Spot
  | empty, s => [s]
  | set cs, s =>
    match s.next? with
    | some (c, t) => if cs.has c then [t] else []
    | none => []
  | look l, s => if l.holds s then [s] else []
  | seq p q, s => distinct ((p.ends s).flatMap q.ends)
  | alt p q, s => distinct (p.ends s ++ q.ends s)
  | times n p, s => iterate p.ends n [s]
  | upTo n greedy p, s => within p.ends greedy n s
  | plus greedy p, s => onwards p.ends greedy s

/-- Zero times or more. -/
def star (greedy : Bool) (p : Pattern) : Pattern :=
  if greedy then alt (plus true p) empty else alt empty (plus false p)

def optional (greedy : Bool) (p : Pattern) : Pattern := upTo 1 greedy p

/-- About how many states a matcher of the pattern has. -/
def weight : Pattern → Nat
  | empty => 1
  | set cs => cs.weight
  | look _ => 1
  | seq p q => p.weight + q.weight
  | alt p q => p.weight + q.weight + 1
  | times n p => n * p.weight
  | upTo n _ p => n * (p.weight + 1)
  | plus _ p => p.weight + 1

/-- The largest weight of a pattern that is still accepted. -/
def maxWeight : Nat := 10485760 / 24

/-- A match, from its start to its end. -/
structure Span where
  first : Spot
  last : Spot
  deriving DecidableEq, Repr

def Span.isEmpty (m : Span) : Bool := m.first.offset = m.last.offset

/-- All matches that do not overlap, left to right, the first at offset `start` or later. Right
behind a match that ended at `lastEnd`, an empty one is passed over. -/
def matchesFrom (p : Pattern) (start : Nat) (lastEnd : Option Nat) :
    Option Char → Nat → List Char → List Span
  | before, offset, after =>
    let s : Spot := { before, after, offset }
    let found :=
      if offset < start then none
      else
        match (p.ends s).head? with
        | some t => if t.offset = offset && lastEnd = some offset then none else some t
        | none => none
    match after with
    | [] => (found.map fun t => [{ first := s, last := t }]).getD []
    | c :: rest =>
      match found with
      | some t =>
        { first := s, last := t } ::
          matchesFrom p t.offset (some t.offset) (some c) (offset + c.utf8Size) rest
      | none => matchesFrom p start lastEnd (some c) (offset + c.utf8Size) rest

def allMatches (p : Pattern) (text : List Char) : List Span := matchesFrom p 0 none none 0 text

end Pattern

end Worksite
