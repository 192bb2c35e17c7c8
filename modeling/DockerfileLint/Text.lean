import DockerfileLint.Sequence

/-!
# Text

Tests and cuts on text that the rules, the readers and the reports share. All of them go through the
list of characters, so each is a statement about lists.

* `Text.isBlank` is the Unicode property `White_Space`; `Text.trim` drops such characters at both
  ends.
* `Text.startsWith`, `Text.endsWith` and `Text.contains` compare characters exactly.
* `Text.splitOn` cuts at every occurrence of a character and keeps empty pieces.
-/

namespace DockerfileLint.Text

/-- The Unicode property `White_Space`. -/
def isBlank (c : Char) : Bool :=
  let n := c.toNat
  (0x09 ≤ n && n ≤ 0x0D) || n == 0x20 || n == 0x85 || n == 0xA0 || n == 0x1680 ||
    (0x2000 ≤ n && n ≤ 0x200A) || n == 0x2028 || n == 0x2029 || n == 0x202F || n == 0x205F ||
      n == 0x3000

/-- The characters without the blanks at either end. -/
def trimChars (cs : List Char) : List Char :=
  ((cs.dropWhile isBlank).reverse.dropWhile isBlank).reverse

/-- The text without the blanks at either end. -/
def trim (s : String) : String := String.ofList (trimChars s.toList)

/-- Whether nothing but blanks stands in the text. -/
def isBlankText (s : String) : Bool := (trimChars s.toList).isEmpty

/-- Whether the text starts with `start`. -/
def startsWith (s start : String) : Bool := start.toList.isPrefixOf s.toList

/-- Whether the text ends with `ending`. -/
def endsWith (s ending : String) : Bool := ending.toList.isSuffixOf s.toList

/-- Whether `part` occurs in the text. -/
def contains (s part : String) : Bool := occursIn part.toList s.toList

/-- Whether the character occurs in the text. -/
def hasChar (s : String) (c : Char) : Bool := s.toList.contains c

/-- Whether the character NUL occurs in the text. The machine ends names and words with it, so none
may hold it. -/
def hasNul (s : String) : Bool := hasChar s '\x00'

/-- The pieces of the text between the occurrences of `mark`. -/
def splitOn (s : String) (mark : Char) : List String :=
  (splitWhere (· == mark) s.toList).map String.ofList

/-- What stands before the first `mark`, or the whole text when there is none. -/
def before (s : String) (mark : Char) : String := String.ofList (s.toList.takeWhile (· != mark))

/-- What stands after the first `mark`, and nothing when there is none. -/
def after (s : String) (mark : Char) : String :=
  String.ofList ((s.toList.dropWhile (· != mark)).drop 1)

/-- The text with blanks behind it up to the given number of characters. -/
def padRight (s : String) (width : Nat) : String :=
  String.ofList (s.toList ++ List.replicate (width - s.toList.length) ' ')

end DockerfileLint.Text
