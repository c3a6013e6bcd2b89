/-!
Arguments of a command line: flags, short or long, with their values, and places for words that are
no flags. A short flag may carry its value or more flags behind it, and a long one its value behind
an equals sign. Two dashes end the flags.
-/
namespace Worksite.CommandLine

/-- What a flag takes. -/
inductive Takes where
  | nothing
  /-- Nothing, but it may be given more than once. -/
  | often
  | text (name : String)
  | texts (name : String)
  /-- A path, which is not blank. -/
  | path (name : String)
  | number (name : String)
  | help
  | version
  deriving DecidableEq, Repr

structure Flag where
  short : Option Char := none
  long : String
  takes : Takes
  help : String := ""
  default : Option String := none
  deriving DecidableEq, Repr

/-- A place for a word. -/
structure Slot where
  name : String
  required : Bool := false
  many : Bool := false
  help : String := ""
  deriving DecidableEq, Repr

/-- Why arguments are not carried out. -/
inductive Refusal where
  | usage
  | version
  | help
  deriving DecidableEq, Repr

/-- What was given, in order: values by the long names of their flags, and words. -/
structure Given where
  values : List (String × String) := []
  words : List String := []
  deriving DecidableEq, Repr

namespace Given

def has (g : Given) (flag : String) : Bool := g.values.any (·.1 = flag)

def value? (g : Given) (flag : String) : Option String := g.values.lookup flag

def valuesOf (g : Given) (flag : String) : List String :=
  g.values.filterMap fun (k, v) => if k = flag then some v else none

end Given

/-- A whole number of 64 bits, with or without a sign. -/
def number? (s : String) : Option Int :=
  let (sign, digits) : Int × List Char :=
    match s.toList with
    | '-' :: rest => (-1, rest)
    | '+' :: rest => (1, rest)
    | digits => (1, digits)
  if digits.isEmpty || !digits.all Char.isDigit then none
  else
    let size : Nat := digits.foldl (fun n c => n * 10 + (c.toNat - 48)) 0
    let n : Int := sign * size
    if Int64.minValue.toInt ≤ n && n ≤ Int64.maxValue.toInt then some n else none

namespace Flag

def takesValue (f : Flag) : Bool :=
  match f.takes with
  | .text _ | .texts _ | .path _ | .number _ => true
  | _ => false

def admits (f : Flag) (value : String) : Bool :=
  match f.takes with
  | .path _ => value ≠ ""
  | .number _ => (number? value).isSome
  | _ => true

def repeats (f : Flag) : Bool :=
  match f.takes with
  | .often | .texts _ => true
  | _ => false

/-- Takes a flag with its value. -/
def give (f : Flag) (value : String) (g : Given) : Except Refusal Given :=
  match f.takes with
  | .help => .error .help
  | .version => .error .version
  | _ =>
    if !f.admits value || (!f.repeats && g.has f.long) then .error .usage
    else .ok { g with values := g.values ++ [(f.long, value)] }

end Flag

/-- Reads short flags that stand together; a last one may still wait for its value. -/
def readCluster (flags : List Flag) (g : Given) : List Char → Except Refusal (Given × Option Flag)
  | [] => .ok (g, none)
  | c :: rest =>
    match flags.find? (·.short = some c) with
    | none => .error .usage
    | some f =>
      if !f.takesValue then do readCluster flags (← f.give "" g) rest
      else
        match rest with
        | [] => .ok (g, some f)
        | '=' :: value => do return (← f.give (String.ofList value) g, none)
        | value => do return (← f.give (String.ofList value) g, none)

/-- Reads a flag with its dashes; it may still wait for its value. -/
def readFlag (flags : List Flag) (g : Given) (word : List Char) :
    Except Refusal (Given × Option Flag) :=
  match word with
  | '-' :: '-' :: rest =>
    let long := rest.takeWhile (· ≠ '=')
    match flags.find? (·.long.toList = long), rest.drop long.length with
    | none, _ => .error .usage
    | some f, [] =>
      if f.takesValue then .ok (g, some f) else do return (← f.give "" g, none)
    | some f, _ :: value =>
      if f.takesValue then do return (← f.give (String.ofList value) g, none)
      else .error .usage
  | _ => readCluster flags g (word.drop 1)

def isFlag (word : String) : Bool := word.startsWith "-" && word ≠ "-"

/-- Reads arguments. `wait` is a flag whose value comes next. If `first` is set, the first word that
is no flag ends the reading; it is given back with what follows. -/
def readArguments (flags : List Flag) (first : Bool) :
    Given → (wait : Option Flag) → List String → Except Refusal (Given × List String)
  | g, none, [] => .ok (g, [])
  | _, some _, [] => .error .usage
  | g, some f, word :: rest =>
    if isFlag word then .error .usage
    else do readArguments flags first (← f.give word g) none rest
  | g, none, word :: rest =>
    if word = "--" then
      if first then .error .usage else .ok ({ g with words := g.words ++ rest }, [])
    else if isFlag word then do
      let (g, wait) ← readFlag flags g word.toList
      readArguments flags first g wait rest
    else if first then .ok (g, word :: rest)
    else readArguments flags first { g with words := g.words ++ [word] } none rest

/-- Whether there are as many words as places for them. -/
def fits (slots : List Slot) (words : List String) : Bool :=
  (slots.filter (·.required)).length ≤ words.length &&
    (slots.any (·.many) || words.length ≤ slots.length)

end Worksite.CommandLine
