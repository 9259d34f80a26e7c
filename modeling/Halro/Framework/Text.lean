import Mathlib.Data.List.Basic

/-!
# Text as the source's string functions see it

The handful of string functions the modelled validators call: a byte length, leading text,
white-space trimming and a split at the first separator.  Text is read as its list of
characters, which is how the source's `range` loops read it; lengths are byte lengths.
-/

namespace Framework

namespace Text

/-- The length in bytes. -/
def byteLength (s : String) : ℕ := s.utf8ByteSize

/-- `s` starts with `lead`. -/
def startsWith (s lead : String) : Bool := lead.toList.isPrefixOf s.toList

/-- The characters after the first `n`. -/
def afterFirst (s : String) (n : ℕ) : List Char := s.toList.drop n

/-- Unicode white space. -/
def isSpace (c : Char) : Bool :=
  let n := c.toNat
  (9 ≤ n && n ≤ 13) || n == 0x20 || n == 0x85 || n == 0xA0 || n == 0x1680 ||
    (0x2000 ≤ n && n ≤ 0x200A) || n == 0x2028 || n == 0x2029 || n == 0x202F ||
    n == 0x205F || n == 0x3000

/-- The text without leading and trailing white space, as characters. -/
def trimSpaceChars (cs : List Char) : List Char :=
  ((cs.dropWhile isSpace).reverse.dropWhile isSpace).reverse

/-- The text without leading and trailing white space. -/
def trimSpace (s : String) : String := String.ofList (trimSpaceChars s.toList)

/-- The text before and after the first `sep`, and whether there is one. -/
def cut (cs : List Char) (sep : Char) : List Char × List Char × Bool :=
  match cs.span (· ≠ sep) with
  | (before, []) => (before, [], false)
  | (before, _ :: after) => (before, after, true)

/-- A lower-case letter or a digit. -/
def isLowerOrDigit (c : Char) : Bool := c.isDigit || c.isLower

/-- A hexadecimal digit of either case. -/
def isHexDigit (c : Char) : Bool :=
  c.isDigit || ('a' ≤ c && c ≤ 'f') || ('A' ≤ c && c ≤ 'F')

end Text

end Framework
