import Worksite.Exclusion
import Worksite.Error

/-!
Path patterns. A star stays within one directory, two stars between slashes cross them, and braces
hold alternatives. Patterns are matched byte by byte against the whole of a path.
-/
namespace Worksite

inductive Glob where
  | literal (c : Char)
  /-- One byte that is no slash. -/
  | any
  /-- Bytes that are no slash. -/
  | star
  /-- Two stars at the start: any directory, or none. -/
  | directories
  /-- Two stars at the end: everything below. -/
  | descendants
  /-- Two stars between slashes. -/
  | crossing
  | class (negated : Bool) (ranges : List (Char × Char))
  | alternatives (branches : List (List Glob))
  deriving Repr, Inhabited

/-- Why a text is no pattern. -/
inductive GlobError where
  | unclosedClass
  | range (first last : Char)
  | unopenedBrace
  | unclosedBrace
  | dangling
  deriving DecidableEq, Repr

def GlobError.message : GlobError → String
  | unclosedClass => "unclosed character class; missing ']'"
  | range first last =>
    "invalid range; '" ++ String.singleton first ++ "' > '" ++ String.singleton last ++ "'"
  | unopenedBrace =>
    "unopened alternate group; missing '\x7b' (maybe escape '\x7d' with '[\x7d]'?)"
  | unclosedBrace =>
    "unclosed alternate group; missing '\x7d' (maybe escape '\x7b' with '[\x7b]'?)"
  | dangling => "dangling '\\'"

namespace Glob

/-! Reading. -/

abbrev Class := List (Char × Char)

/-- The last range, with `c` as its new end. -/
def extendLast (ranges : Class) (c : Char) : Except GlobError Class :=
  match ranges.getLast? with
  | some (first, _) =>
    if c < first then .error (.range first c) else .ok (ranges.dropLast ++ [(first, c)])
  | none => .ok [(c, c)]

/-- The ranges of a class up to its bracket. A bracket or a dash that comes first stands for itself,
and so does a dash that comes last. -/
def classWithin (ranges : Class) (isFirst inRange : Bool) :
    List Char → Except GlobError (Class × List Char)
  | [] => .error .unclosedClass
  | c :: rest =>
    if c = ']' && !isFirst then .ok (if inRange then ranges ++ [('-', '-')] else ranges, rest)
    else if inRange then do classWithin (← extendLast ranges c) false false rest
    else if c = '-' && !isFirst then classWithin ranges false true rest
    else classWithin (ranges ++ [(c, c)]) false false rest

/-- A group of braces that is still open, or the whole: its finished branches and the current
one. -/
structure Frame where
  finished : List (List Glob) := []
  current : List Glob := []

/-- The open groups, innermost first; the last one is the whole. -/
abbrev Frames := List Frame

namespace Frames

def push (g : Glob) : Frames → Frames
  | [] => [{ current := [g] }]
  | f :: outer => { f with current := f.current ++ [g] } :: outer

def current : Frames → List Glob
  | [] => []
  | f :: _ => f.current

def isInside (fs : Frames) : Bool := fs.length ≥ 2

def pop : Frames → Frames
  | [] => []
  | f :: outer => { f with current := f.current.dropLast } :: outer

def comma : Frames → Frames
  | f :: g :: outer => { finished := f.finished ++ [f.current] } :: g :: outer
  | fs => fs.push (.literal ',')

def close : Frames → Except GlobError Frames
  | f :: g :: outer => .ok (push (.alternatives (f.finished ++ [f.current])) (g :: outer))
  | _ => .error .unopenedBrace

end Frames

def twoStars (fs : Frames) : Frames := (fs.push .star).push .star

/-- Reads two stars, where `before` is the character before them: the groups, the rest, and the
last character read. -/
def starsWithin (fs : Frames) (before : Option Char) (rest : List Char) :
    Frames × List Char × Char :=
  if fs.current.isEmpty then
    match rest with
    | [] => (fs.push .directories, [], '*')
    | '/' :: rest => (fs.push .directories, rest, '/')
    | rest => (twoStars fs, rest, '*')
  else if before ≠ some '/' && !(fs.isInside && (before = some ',' || before = some '{')) then
    (twoStars fs, rest, '*')
  else
    /- The slash before the stars belongs to them. -/
    let replaceLast (g : Glob) : Frames :=
      match fs.current.getLast? with
      | some .directories | some .descendants => fs
      | _ => fs.pop.push g
    match rest with
    | [] => (replaceLast .descendants, [], '*')
    | '/' :: rest => (replaceLast .crossing, rest, '/')
    | c :: _ =>
      if (c = ',' || c = '}') && fs.isInside then (replaceLast .descendants, rest, '*')
      else (twoStars fs, rest, '*')

def readWithin : Nat → Frames → Option Char → List Char → Except GlobError Frames
  | 0, fs, _, _ => .ok fs
  | _, fs, _, [] => .ok fs
  | fuel + 1, fs, before, c :: rest =>
    match c with
    | '?' => readWithin fuel (fs.push .any) (some c) rest
    | '*' =>
      match rest with
      | '*' :: rest =>
        let (fs, rest, last) := starsWithin fs before rest
        readWithin fuel fs (some last) rest
      | rest => readWithin fuel (fs.push .star) (some c) rest
    | '[' => do
      let (negated, rest) := match rest with
        | '!' :: rest => (true, rest)
        | '^' :: rest => (true, rest)
        | rest => (false, rest)
      let (ranges, rest) ← classWithin [] true false rest
      readWithin fuel (fs.push (.class negated ranges)) (some ']') rest
    | '{' => readWithin fuel ({} :: fs) (some c) rest
    | '}' => do readWithin fuel (← fs.close) (some c) rest
    | ',' => readWithin fuel fs.comma (some c) rest
    | '\\' =>
      match rest with
      | [] => .error .dangling
      | d :: rest => readWithin fuel (fs.push (.literal d)) (some d) rest
    | c => readWithin fuel (fs.push (.literal c)) (some c) rest

/-- The pattern of a text. -/
def parse (text : String) : Except GlobError (List Glob) := do
  let s := text.toList
  match ← readWithin (s.length + 1) [{}] none s with
  | [f] => .ok f.current
  | _ => .error .unclosedBrace

/-! Matching. -/

abbrev Bytes := List UInt8

def slash : UInt8 := 47

def bytesOf (c : Char) : Bytes := (String.singleton c).toUTF8.toList

/-- Whether a byte is in the range from one character to another. Of characters of several bytes,
the last byte of the first and the first byte of the last bound a range, and the others stand for
themselves. -/
def rangeHas (b : UInt8) (r : Char × Char) : Bool :=
  if r.1 = r.2 then b ∈ bytesOf r.1
  else
    let first := bytesOf r.1
    let last := bytesOf r.2
    b ∈ first || b ∈ last || (first.getLast?.any (· ≤ b) && last.head?.any (b ≤ ·))

def classHas (negated : Bool) (ranges : Class) (b : UInt8) : Bool :=
  (ranges.any (rangeHas b)) != negated

/-- All ends of a list, the whole first. -/
def ends : Bytes → List Bytes
  | [] => [[]]
  | b :: rest => (b :: rest) :: ends rest

/-- What follows each slash. -/
def afterSlashes : Bytes → List Bytes
  | [] => []
  | b :: rest => if b = slash then rest :: afterSlashes rest else afterSlashes rest

/-- What is left after bytes that are no slash, for each number of them. -/
def afterStar : Bytes → List Bytes
  | [] => [[]]
  | b :: rest => if b = slash then [b :: rest] else (b :: rest) :: afterStar rest

/-- Whether the pattern has nothing in it: empty groups mean nothing. -/
def isBlank : List Glob → Bool
  | [] => true
  | .alternatives branches :: rest => areBlank branches && isBlank rest
  | _ :: _ => false
where
  areBlank : List (List Glob) → Bool
    | [] => true
    | b :: rest => isBlank b && areBlank rest

mutual

/-- What a pattern can leave of a path, each possible rest once. -/
def rests : List Glob → Bytes → List Bytes
  | [], s => [s]
  | g :: gs, s => (restsOne g s).flatMap (rests gs) |>.eraseDups

def restsOne : Glob → Bytes → List Bytes
  | .literal c, s =>
    let bytes := bytesOf c
    if bytes.isPrefixOf s then [s.drop bytes.length] else []
  | .any, b :: rest => if b = slash then [] else [rest]
  | .any, [] => []
  | .star, s => afterStar s
  | .directories, s => s :: afterSlashes s
  | .descendants, b :: rest => if b = slash then ends rest else []
  | .descendants, [] => []
  | .crossing, b :: rest => if b = slash then rest :: afterSlashes rest else []
  | .crossing, [] => []
  | .class negated ranges, b :: rest => if classHas negated ranges b then [rest] else []
  | .class _ _, [] => []
  | .alternatives branches, s => if isBlank.areBlank branches then [s] else restsAny branches s

/-- The rests of every branch that has something in it. -/
def restsAny : List (List Glob) → Bytes → List Bytes
  | [], _ => []
  | b :: more, s => (if isBlank b then [] else rests b s) ++ restsAny more s

end

/-- Whether the pattern is about the last name of a path: two stars and a name, or an ending with a
dot. The name `..` is none. -/
def needsName (gs : List Glob) : Bool :=
  let isLetter : Glob → Bool
    | .literal c => c ≠ '/'
    | _ => false
  match gs with
  | .directories :: g :: more => (g :: more).all isLetter || endsInDot gs
  | gs => endsInDot gs
where
  endsInDot (gs : List Glob) : Bool :=
    let tail := gs.reverse.takeWhile fun
      | .literal c => c ≠ '/'
      | _ => false
    tail.any fun
      | .literal c => c = '.'
      | _ => false

def lastName (path : Bytes) : Bytes := (path.reverse.takeWhile (· ≠ slash)).reverse

def isWholeTree : List Glob → Bool
  | [.directories] => true
  | _ => false

def matchesPath (gs : List Glob) (path : String) : Bool :=
  let s := path.toUTF8.toList
  if isWholeTree gs then true
  else if needsName gs && lastName s = [46, 46] then false
  else (rests gs s).contains []

end Glob

/-- Which files a walk admits. -/
structure FileFilter where
  including : List (List Glob)
  excluding : List (List Glob)

namespace FileFilter

/-- The patterns of texts, or an error for the first one that is none. -/
def compile (texts : List String) : Except WorkspaceError (List (List Glob)) :=
  texts.mapM fun t => (Glob.parse t).mapError fun e => .invalidPattern t e.message

/-- Without patterns to include, all files are. -/
def ofTexts (including excluding : List String) : Except WorkspaceError FileFilter := do
  let including ← compile (if including.isEmpty then ["**/*"] else including)
  let excluding ← compile (Exclusion.files ++ excluding)
  return { including, excluding }

def excludes (f : FileFilter) (path : String) : Bool := f.excluding.any (Glob.matchesPath · path)

/-- Whether a file is admitted, by its path below the start of the walk and below the workspace
root. -/
def admits (f : FileFilter) (below inWorkspace : String) : Bool :=
  !Exclusion.holdsPath inWorkspace && !f.excludes below && !f.excludes inWorkspace &&
    f.including.any (Glob.matchesPath · below)

end FileFilter

end Worksite
