import DockerfileLint.Hex

/-!
# Log records

A record has a level and a text. Texts may come from files and from the command line, so the
characters that steer a terminal are shown by their codes: escape, bell, backspace, form feed and
delete with two digits, and those from U+0080 up to U+009F between braces. All others stand for
themselves.
-/

namespace DockerfileLint

/-- How much a log record matters. -/
inductive Level where
  | debug
  | info
  | warn
  deriving DecidableEq, Repr

/-- The written name of a level. -/
def Level.label : Level → String
  | debug => "DEBUG"
  | info => "INFO"
  | warn => "WARN"

namespace Log

/-- The two hexadecimal digits of a code below 256. -/
def digits (n : Nat) : List Char := [Hex.digit (n / 16), Hex.digit (n % 16)]

/-- How a character is shown. -/
def showChar (c : Char) : List Char :=
  let n := c.toNat
  if n = 0x07 ∨ n = 0x08 ∨ n = 0x0C ∨ n = 0x1B ∨ n = 0x7F then '\\' :: 'x' :: digits n
  else if 0x80 ≤ n ∧ n ≤ 0x9F then '\\' :: 'u' :: '\x7b' :: (digits n ++ ['\x7d'])
  else [c]

/-- How a text is shown. -/
def printable (text : String) : String := String.ofList (text.toList.flatMap showChar)

end Log

end DockerfileLint
