import Worksite.Unicode.Class
import Worksite.Unicode.Case
import Worksite.Unicode.Script

/-!
Sets of characters: ranges, named properties, and what is made of them. Folding adds to a set the
characters that differ from its members only in case.
-/
namespace Worksite

/-- A property of characters. -/
inductive Property where
  | category (members : List Unicode.Category)
  | script (name : String)
  | alphabetic
  | uppercase
  | lowercase
  | cased
  | caseIgnorable
  | whiteSpace
  | word
  | identifierStart
  | identifierContinue
  | hexDigit
  | assigned
  deriving DecidableEq, Repr

namespace Property

open Unicode

def has (c : Char) : Property → Bool
  | category members => Category.of c ∈ members
  | script name => Script.of c = name
  | alphabetic => isAlphabetic c
  | uppercase => isUpper c
  | lowercase => isLower c
  | cased => isCased c
  | caseIgnorable => isCaseIgnorable c
  | whiteSpace => isSpace c
  | word => isWord c
  | identifierStart => isIdentifierStart c
  | identifierContinue => isIdentifierContinue c
  | hexDigit =>
    let n := if c.toNat ≥ 0xFF10 then c.toNat - 0xFEE0 else c.toNat
    (48 ≤ n && n ≤ 57) || (65 ≤ n && n ≤ 70) || (97 ≤ n && n ≤ 102)
  | assigned => Category.of c ≠ .Cn

/-- A name without what does not count in it: case, blanks, dashes, underscores, and a leading
`is`. -/
def plainName (name : String) : String :=
  let isPrefixed := match name.toList with
    | i :: s :: _ => i.toLower = 'i' && s.toLower = 's'
    | _ => false
  let kept := ((if isPrefixed then name.toList.drop 2 else name.toList).filter fun c =>
    c ≠ ' ' && c ≠ '_' && c ≠ '-' && c.toNat < 128).map Char.toLower
  if isPrefixed && kept = ['c'] then "isc" else String.ofList kept

def letters : List Category := [.Lu, .Ll, .Lt, .Lm, .Lo]

def marks : List Category := [.Mn, .Mc, .Me]

def numbers : List Category := [.Nd, .Nl, .No]

def punctuation : List Category := [.Pc, .Pd, .Ps, .Pe, .Pi, .Pf, .Po]

def symbols : List Category := [.Sm, .Sc, .Sk, .So]

def separators : List Category := [.Zs, .Zl, .Zp]

def others : List Category := [.Cc, .Cf, .Cs, .Co, .Cn]

/-- The general category of a plain name. -/
def ofCategoryName? : String → Option Property
  | "c" | "other" => some (category others)
  | "cc" | "control" | "cntrl" => some (category [.Cc])
  | "cf" | "format" => some (category [.Cf])
  | "cn" | "unassigned" => some (category [.Cn])
  | "co" | "privateuse" => some (category [.Co])
  | "l" | "letter" => some (category letters)
  | "lc" | "casedletter" => some (category [.Lu, .Ll, .Lt])
  | "ll" | "lowercaseletter" => some (category [.Ll])
  | "lm" | "modifierletter" => some (category [.Lm])
  | "lo" | "otherletter" => some (category [.Lo])
  | "lt" | "titlecaseletter" => some (category [.Lt])
  | "lu" | "uppercaseletter" => some (category [.Lu])
  | "m" | "mark" | "combiningmark" => some (category marks)
  | "mc" | "spacingmark" => some (category [.Mc])
  | "me" | "enclosingmark" => some (category [.Me])
  | "mn" | "nonspacingmark" => some (category [.Mn])
  | "n" | "number" => some (category numbers)
  | "nd" | "decimalnumber" | "digit" => some (category [.Nd])
  | "nl" | "letternumber" => some (category [.Nl])
  | "no" | "othernumber" => some (category [.No])
  | "p" | "punctuation" | "punct" => some (category punctuation)
  | "pc" | "connectorpunctuation" => some (category [.Pc])
  | "pd" | "dashpunctuation" => some (category [.Pd])
  | "pe" | "closepunctuation" => some (category [.Pe])
  | "pf" | "finalpunctuation" => some (category [.Pf])
  | "pi" | "initialpunctuation" => some (category [.Pi])
  | "po" | "otherpunctuation" => some (category [.Po])
  | "ps" | "openpunctuation" => some (category [.Ps])
  | "s" | "symbol" => some (category symbols)
  | "sc" | "currencysymbol" => some (category [.Sc])
  | "sk" | "modifiersymbol" => some (category [.Sk])
  | "sm" | "mathsymbol" => some (category [.Sm])
  | "so" | "othersymbol" => some (category [.So])
  | "z" | "separator" => some (category separators)
  | "zl" | "lineseparator" => some (category [.Zl])
  | "zp" | "paragraphseparator" => some (category [.Zp])
  | "zs" | "spaceseparator" => some (category [.Zs])
  | "any" => some (category (letters ++ marks ++ numbers ++ punctuation ++ symbols ++ separators ++ others))
  | "assigned" => some assigned
  | _ => none

def ofScriptName? (name : String) : Option Property :=
  (Script.named.find? fun (n, _) => plainName n = name).map fun (_, long) => script long

def ofFlagName? : String → Option Property
  | "alphabetic" | "alpha" => some alphabetic
  | "uppercase" | "upper" => some uppercase
  | "lowercase" | "lower" => some lowercase
  | "cased" => some cased
  | "caseignorable" | "ci" => some caseIgnorable
  | "whitespace" | "wspace" | "space" => some whiteSpace
  | "xidstart" | "xids" | "idstart" | "ids" => some identifierStart
  | "xidcontinue" | "xidc" | "idcontinue" | "idc" => some identifierContinue
  | "hexdigit" | "hex" => some hexDigit
  | _ => none

end Property

inductive CharSet where
  | none
  | range (first last : Char)
  | property (p : Property)
  | union (a b : CharSet)
  | both (a b : CharSet)
  | without (a b : CharSet)
  | either (a b : CharSet)
  | complement (a : CharSet)
  | folded (a : CharSet)
  /-- Folded among the letters A to Z only. -/
  | asciiFolded (a : CharSet)
  deriving DecidableEq, Repr, Inhabited

namespace CharSet

def single (c : Char) : CharSet := range c c

def ascii : CharSet := range '\x00' '\x7f'

def has (c : Char) : CharSet → Bool
  | none => false
  | range first last => first ≤ c && c ≤ last
  | property p => p.has c
  | union a b => a.has c || b.has c
  | both a b => a.has c && b.has c
  | without a b => a.has c && !b.has c
  | either a b => a.has c != b.has c
  | complement a => !a.has c
  | folded a => (Unicode.caseClass c).any fun d => a.has d
  | asciiFolded a => a.has c || a.has c.toLower || a.has c.toUpper

def unions : List CharSet → CharSet
  | [] => none
  | [a] => a
  | a :: rest => union a (unions rest)

/-- Whether the set has ASCII characters only. -/
def isAscii : CharSet → Bool
  | none => true
  | range _ last => last ≤ '\x7f'
  | property _ => false
  | union a b | either a b => a.isAscii && b.isAscii
  | both a b => a.isAscii || b.isAscii
  | without a _ => a.isAscii
  | complement _ => false
  | folded _ => false
  | asciiFolded a => a.isAscii

/-- About how many states a matcher of the set has. -/
def weight : CharSet → Nat
  | none => 1
  | range first last => if first = last then first.utf8Size else last.utf8Size * last.utf8Size
  | property _ => 300
  | union a b | both a b | without a b | either a b => max a.weight b.weight + 1
  | complement a => a.weight + 9
  | folded a => a.weight + 2
  | asciiFolded a => a.weight

def digits : CharSet := range '0' '9'

def lowerLetters : CharSet := range 'a' 'z'

def upperLetters : CharSet := range 'A' 'Z'

/-- A class that is named between colons. -/
def named? : String → Option CharSet
  | "alnum" => some (unions [digits, upperLetters, lowerLetters])
  | "alpha" => some (union upperLetters lowerLetters)
  | "ascii" => some ascii
  | "blank" => some (union (single '\t') (single ' '))
  | "cntrl" => some (union (range '\x00' '\x1f') (single '\x7f'))
  | "digit" => some digits
  | "graph" => some (range '!' '~')
  | "lower" => some lowerLetters
  | "print" => some (range ' ' '~')
  | "punct" => some (unions [range '!' '/', range ':' '@', range '[' '\x60', range '{' '~'])
  | "space" => some (union (range '\t' '\r') (single ' '))
  | "upper" => some upperLetters
  | "word" => some (unions [digits, upperLetters, single '_', lowerLetters])
  | "xdigit" => some (unions [digits, range 'A' 'F', range 'a' 'f'])
  | _ => Option.none

def asciiWord : CharSet := (named? "word").getD none

def asciiSpace : CharSet := (named? "space").getD none

/-- The set of a name behind `\p`. -/
def ofPropertyName? (name : String) : Option CharSet :=
  let n := Property.plainName name
  if n = "ascii" then some ascii
  else if n = "asciihexdigit" || n = "ahex" then named? "xdigit"
  else
    let flag := if n ∈ ["cf", "sc", "lc"] then Option.none else Property.ofFlagName? n
    ((flag.or (Property.ofCategoryName? n)).or (Property.ofScriptName? n)).map property

/-- The set of a property and one of its values. -/
def ofPropertyValue? (name value : String) : Option CharSet :=
  let n := Property.plainName name
  let v := Property.plainName value
  if n = "generalcategory" || n = "gc" then
    if v = "ascii" then some ascii else (Property.ofCategoryName? v).map property
  else if n = "script" || n = "sc" then (Property.ofScriptName? v).map property
  else Option.none

end CharSet

end Worksite
