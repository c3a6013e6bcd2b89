import Worksite.Unicode.Category

/-!
Classes of characters that are made from general categories and short lists of further
characters: white space, alphabetic, word, cased, and the characters of identifiers.
-/
namespace Worksite.Unicode

abbrev Ranges := List (Nat × Nat)

def Ranges.has (r : Ranges) (c : Char) : Bool :=
  r.any fun (lo, hi) => lo ≤ c.toNat && c.toNat ≤ hi

def spaceRanges : Ranges :=
  [(0x9, 0xD), (0x20, 0x20), (0x85, 0x85), (0xA0, 0xA0), (0x1680, 0x1680), (0x2000, 0x200A),
   (0x2028, 0x2029), (0x202F, 0x202F), (0x205F, 0x205F), (0x3000, 0x3000)]

def isSpace (c : Char) : Bool := spaceRanges.has c

/-- Circled letters: alphabetic and cased, though symbols by category. -/
def circledUpper : Ranges :=
  [(0x24B6, 0x24CF), (0x1F130, 0x1F149), (0x1F150, 0x1F169), (0x1F170, 0x1F189)]

def circledLower : Ranges := [(0x24D0, 0x24E9)]

def isAsciiWord (c : Char) : Bool := c.isAlphanum || c == '_'

/-- A character of a word: letter, mark, decimal digit, connector or joiner. -/
def isWord (c : Char) : Bool :=
  if c.toNat < 128 then isAsciiWord c
  else
    let k := Category.of c
    k.isLetter || k.isMark || k == .Nd || k == .Nl || k == .Pc ||
      circledUpper.has c || circledLower.has c || c.toNat == 0x200C || c.toNat == 0x200D

def isDecimal (c : Char) : Bool := Category.of c == .Nd

def upperNumerals : Ranges := [(0x2160, 0x216F)]

def isUpper (c : Char) : Bool :=
  Category.of c == .Lu || upperNumerals.has c || circledUpper.has c

/-- Lower-case characters that are not lower-case letters by category. -/
def lowerModifiers : Ranges :=
  [(0xAA, 0xAA), (0xBA, 0xBA), (0x2B0, 0x2B8), (0x2C0, 0x2C1), (0x2E0, 0x2E4), (0x345, 0x345),
   (0x37A, 0x37A), (0x10FC, 0x10FC), (0x1D2C, 0x1D6A), (0x1D78, 0x1D78), (0x1D9B, 0x1DBF),
   (0x2071, 0x2071), (0x207F, 0x207F), (0x2090, 0x209C), (0x2170, 0x217F), (0x2C7C, 0x2C7D),
   (0xA69C, 0xA69D), (0xA770, 0xA770), (0xA7F2, 0xA7F4), (0xA7F8, 0xA7F9), (0xAB5C, 0xAB5F),
   (0xAB69, 0xAB69), (0x10780, 0x10780), (0x10783, 0x10785), (0x10787, 0x107B0),
   (0x107B2, 0x107BA), (0x1E030, 0x1E06D)]

def isLower (c : Char) : Bool :=
  Category.of c == .Ll || lowerModifiers.has c || circledLower.has c

def isCased (c : Char) : Bool := isUpper c || isLower c || Category.of c == .Lt

/-- Ranges whose marks are not alphabetic. -/
def plainMarks : Ranges :=
  [(0x300, 0x344), (0x346, 0x5AF), (0x658, 0x658), (0x6DF, 0x6E0), (0x6EA, 0x6EC), (0x740, 0x74A),
   (0x7EB, 0x7FD), (0x818, 0x819), (0x82D, 0x8D3), (0x8E0, 0x8E1), (0x8EA, 0x8EF), (0x93C, 0x93C),
   (0x94D, 0x94D), (0x951, 0x954), (0x9BC, 0x9BC), (0x9CD, 0x9CD), (0x9FE, 0x9FE), (0xA3C, 0xA3C),
   (0xA4D, 0xA4D), (0xABC, 0xABC), (0xACD, 0xACD), (0xAFD, 0xAFF), (0xB3C, 0xB3C), (0xB4D, 0xB55),
   (0xBCD, 0xBCD), (0xC3C, 0xC3C), (0xC4D, 0xC4D), (0xCBC, 0xCBC), (0xCCD, 0xCCD), (0xD3B, 0xD3C),
   (0xD4D, 0xD4D), (0xDCA, 0xDCA), (0xE47, 0xE4C), (0xE4E, 0xE4E), (0xEBA, 0xEBA), (0xEC8, 0xECC),
   (0xECE, 0xF3F), (0xF84, 0xF87), (0xFC6, 0xFC6), (0x1037, 0x1037), (0x1039, 0x103A),
   (0x135D, 0x135F), (0x1714, 0x1715), (0x1734, 0x1734), (0x17B4, 0x17B5), (0x17C9, 0x180F),
   (0x1939, 0x193B), (0x1A60, 0x1A60), (0x1A75, 0x1ABE), (0x1AC1, 0x1ACB), (0x1B34, 0x1B34),
   (0x1B44, 0x1B73), (0x1BAA, 0x1BAB), (0x1BE6, 0x1BE6), (0x1BF2, 0x1BF3), (0x1C37, 0x1DE6),
   (0x1DF5, 0x2D7F), (0x302A, 0xA672), (0xA67C, 0xA67D), (0xA6F0, 0xA6F1), (0xA806, 0xA806),
   (0xA82C, 0xA82C), (0xA8C4, 0xA8C4), (0xA8E0, 0xA8F1), (0xA92B, 0xA92D), (0xA953, 0xA953),
   (0xA9B3, 0xA9B3), (0xA9C0, 0xA9C0), (0xAABF, 0xAAC1), (0xAAF6, 0xAAF6), (0xABEC, 0xABED),
   (0xFE00, 0x102E0), (0x10A38, 0x10AE6), (0x10EFD, 0x10F85), (0x11046, 0x11070),
   (0x1107F, 0x1107F), (0x110B9, 0x110BA), (0x11133, 0x11134), (0x11173, 0x11173),
   (0x111C0, 0x111CC), (0x11235, 0x11236), (0x112E9, 0x112EA), (0x1133B, 0x1133C),
   (0x1134D, 0x1134D), (0x11366, 0x11374), (0x11442, 0x11442), (0x11446, 0x1145E),
   (0x114C2, 0x114C3), (0x115BF, 0x115C0), (0x1163F, 0x1163F), (0x116B6, 0x116B7),
   (0x1172B, 0x1172B), (0x11839, 0x1183A), (0x1193D, 0x1193E), (0x11943, 0x11943),
   (0x119E0, 0x119E0), (0x11A33, 0x11A34), (0x11A47, 0x11A47), (0x11A98, 0x11A99),
   (0x11C3F, 0x11C3F), (0x11D42, 0x11D42), (0x11D44, 0x11D45), (0x11D97, 0x11D97),
   (0x11F41, 0x16B36), (0x16FE4, 0x16FE4), (0x1BC9D, 0x1BC9D), (0x1CF00, 0x1DAAF),
   (0x1E130, 0x1E946), (0x1E948, 0xE01EF)]

def isAlphabetic (c : Char) : Bool :=
  let k := Category.of c
  k.isLetter || k == .Nl || (k.isMark && !plainMarks.has c) || circledUpper.has c ||
    circledLower.has c

/-- Punctuation that may stand inside a word. -/
def midWord : Ranges :=
  [(0x27, 0x27), (0x2E, 0x2E), (0x3A, 0x3A), (0xB7, 0xB7), (0x387, 0x387), (0x55F, 0x55F),
   (0x5F4, 0x5F4), (0x2018, 0x2019), (0x2024, 0x2024), (0x2027, 0x2027), (0xFE13, 0xFE13),
   (0xFE52, 0xFE52), (0xFE55, 0xFE55), (0xFF07, 0xFF07), (0xFF0E, 0xFF0E), (0xFF1A, 0xFF1A)]

/-- Characters that are passed over when the neighbours of a letter are asked for their case. -/
def isCaseIgnorable (c : Char) : Bool := (Category.of c).isCaseIgnorable || midWord.has c

def otherStart : Ranges :=
  [(0x1885, 0x1886), (0x2118, 0x2118), (0x212E, 0x212E), (0x309B, 0x309C)]

/-- Characters whose compatibility form does not start an identifier. -/
def notStart : Ranges :=
  [(0x37A, 0x37A), (0xE33, 0xE33), (0xEB3, 0xEB3), (0x2E2F, 0x2E2F), (0x309B, 0x309C),
   (0xFC5E, 0xFC63), (0xFDFA, 0xFDFB), (0xFE70, 0xFE70), (0xFE72, 0xFE72), (0xFE74, 0xFE74),
   (0xFE76, 0xFE76), (0xFE78, 0xFE78), (0xFE7A, 0xFE7A), (0xFE7C, 0xFE7C), (0xFE7E, 0xFE7E),
   (0xFF9E, 0xFF9F)]

def isIdentifierStart (c : Char) : Bool :=
  if c.toNat < 128 then c.isAlpha
  else (let k := Category.of c; k.isLetter || k == .Nl || otherStart.has c) && !notStart.has c

def otherContinue : Ranges :=
  [(0xB7, 0xB7), (0x387, 0x387), (0x1369, 0x1371), (0x19DA, 0x19DA)]

/-- Characters whose compatibility form does not continue an identifier. -/
def notContinue : Ranges :=
  [(0x37A, 0x37A), (0x2E2F, 0x2E2F), (0x309B, 0x309C), (0xFC5E, 0xFC63), (0xFDFA, 0xFDFB),
   (0xFE70, 0xFE70), (0xFE72, 0xFE72), (0xFE74, 0xFE74), (0xFE76, 0xFE76), (0xFE78, 0xFE78),
   (0xFE7A, 0xFE7A), (0xFE7C, 0xFE7C), (0xFE7E, 0xFE7E)]

def isIdentifierContinue (c : Char) : Bool :=
  if c.toNat < 128 then isAsciiWord c
  else
    (let k := Category.of c
     k.isLetter || k == .Nl || otherStart.has c || k == .Mn || k == .Mc || k == .Nd ||
       k == .Pc || otherContinue.has c) && !notContinue.has c

end Worksite.Unicode
