import DockerfileLint.Decimal
import DockerfileLint.Toml.Text

/-!
# Numbers and dates of TOML

Whether a word is a number, a truth value or a date. Underscores may stand between two digits.
Integers have 64 bits with sign; a positive floating-point number must not be too great for 64 bits.
-/

namespace DockerfileLint.Toml

/-! ### Integers -/

/-- The digits of a word without the underscores between them. -/
def plainDigits (isDigit : Char → Bool) : List Char → Option (List Char)
  | [] => none
  | [c] => if isDigit c then some [c] else none
  | c :: '_' :: rest => if isDigit c then (plainDigits isDigit rest).map (c :: ·) else none
  | c :: rest => if isDigit c then (plainDigits isDigit rest).map (c :: ·) else none

/-- A word without its sign, and whether the sign is a minus. -/
def dropSign : List Char → Bool × List Char
  | '+' :: rest => (false, rest)
  | '-' :: rest => (true, rest)
  | cs => (false, cs)

/-- The digits of a whole number in base ten, which do not start with a zero unless it stands
alone. -/
def wholeDigits (cs : List Char) : Option (List Char) :=
  match plainDigits Char.isDigit cs with
  | some ds => if ds.head? = some '0' ∧ ds.length ≠ 1 then none else some ds
  | none => none

/-- The number that digits of a base stand for. -/
def valueInBase (base : Nat) (ds : List Char) : Nat :=
  ds.foldl (fun n d => base * n + (Hex.value? d).getD 0) 0

/-- The digits of a base. -/
def isDigitOf (base : Nat) (c : Char) : Bool :=
  match Hex.value? c with
  | some d => decide (d < base)
  | none => false

/-- The integer that a word spells. -/
def integer? (word : List Char) : Option Int :=
  match word with
  | '0' :: 'x' :: rest => (plainDigits (isDigitOf 16) rest).map fun ds => (valueInBase 16 ds : Int)
  | '0' :: 'o' :: rest => (plainDigits (isDigitOf 8) rest).map fun ds => (valueInBase 8 ds : Int)
  | '0' :: 'b' :: rest => (plainDigits (isDigitOf 2) rest).map fun ds => (valueInBase 2 ds : Int)
  | _ =>
    let (negative, body) := dropSign word
    (wholeDigits body).map fun ds =>
      let n : Int := Decimal.value ds
      if negative then -n else n

/-- Whether an integer has 64 bits with sign. -/
def fitsInt64 (n : Int) : Bool := decide (-9223372036854775808 ≤ n ∧ n < 9223372036854775808)

/-! ### Floating-point numbers -/

/-- The digits of a number, where its point stands and its power of ten. -/
structure Scientific where
  negative : Bool
  digits : List Char
  power : Int

/-- The digits after the point of a number. -/
def fractionDigits : List Char → Option (List Char)
  | [] => some []
  | '.' :: rest => plainDigits Char.isDigit rest
  | _ => none

/-- The power of ten that an exponent spells. -/
def exponentValue : List Char → Option Int
  | [] => some 0
  | _ :: rest =>
    let (negative, body) := dropSign rest
    (plainDigits Char.isDigit body).map fun ds =>
      let n : Int := Decimal.value ds
      if negative then -n else n

/-- The floating-point number that a word spells; it has a fraction or an exponent. -/
def scientific? (word : List Char) : Option Scientific :=
  let (negative, body) := dropSign word
  let isMark := fun c : Char => c == 'e' || c == 'E'
  let mantissa := body.takeWhile fun c => !isMark c
  let exponent := body.dropWhile fun c => !isMark c
  let whole := mantissa.takeWhile fun c => c != '.'
  let fraction := mantissa.dropWhile fun c => c != '.'
  if fraction.isEmpty && exponent.isEmpty then none
  else do
    let whole ← wholeDigits whole
    let fraction ← fractionDigits fraction
    let power ← exponentValue exponent
    pure ⟨negative, whole ++ fraction, power - fraction.length⟩

/-- The least number that is rounded to infinity in 64 bits. -/
def roundsToInfinity : Nat := (Nat.pow 2 54 - 1) * Nat.pow 2 970

/-- Whether a positive number is rounded to infinity. The number of its digits decides when it is
far from the bound, so that no great power of ten is formed. -/
def Scientific.overflows (x : Scientific) : Bool :=
  let m := Decimal.value x.digits
  let length := x.digits.length
  if x.negative || m == 0 then false
  else if 0 ≤ x.power then
    if 400 < x.power then true else decide (roundsToInfinity ≤ m * Nat.pow 10 x.power.toNat)
  else
    let shift := (-x.power).toNat
    if length ≤ shift then false else decide (roundsToInfinity * Nat.pow 10 shift ≤ m)

/-- Whether a word spells infinity or what is no number. -/
def isSpecialFloat (word : List Char) : Bool :=
  let body := (dropSign word).2
  body == "inf".toList || body == "nan".toList

/-- Whether a word is a floating-point number. -/
def isFloat (word : List Char) : Bool :=
  isSpecialFloat word ||
    match scientific? word with
    | some x => !x.overflows
    | none => false

/-! ### Dates and times -/

/-- The number that two digits spell. -/
def twoDigits? (a b : Char) : Option Nat :=
  if a.isDigit && b.isDigit then some (Decimal.value [a, b]) else none

/-- The number of days of a month. -/
def daysOfMonth (year month : Nat) : Nat :=
  if month = 2 then if year % 4 = 0 ∧ (year % 100 ≠ 0 ∨ year % 400 = 0) then 29 else 28
  else if [4, 6, 9, 11].contains month then 30
  else 31

/-- Whether year, month and day exist. -/
def isDate (year month day : List Char) : Bool :=
  let y := Decimal.value year
  let m := Decimal.value month
  let d := Decimal.value day
  (year ++ month ++ day).all Char.isDigit && decide (1 ≤ m ∧ m ≤ 12 ∧ 1 ≤ d ∧ d ≤ daysOfMonth y m)

/-- Whether an offset from universal time is well written. -/
def isOffset : List Char → Bool
  | [] => true
  | ['Z'] => true
  | ['z'] => true
  | [sign, h, h', ':', m, m'] =>
    (sign == '+' || sign == '-') &&
      match twoDigits? h h', twoDigits? m m' with
      | some hours, some minutes => decide (hours ≤ 23 ∧ minutes ≤ 59)
      | _, _ => false
  | _ => false

/-- The rest of a time after the fraction of a second, if there is one. -/
def dropSecondFraction : List Char → List Char
  | '.' :: d :: rest => if d.isDigit then rest.dropWhile Char.isDigit else '.' :: d :: rest
  | cs => cs

/-- Whether a word is a time of day, and whether an offset follows it where that is allowed. -/
def isTime (withOffset : Bool) : List Char → Bool
  | h :: h' :: ':' :: m :: m' :: ':' :: s :: s' :: rest =>
    let rest := dropSecondFraction rest
    (match twoDigits? h h', twoDigits? m m', twoDigits? s s' with
      | some hours, some minutes, some seconds => decide (hours ≤ 23 ∧ minutes ≤ 59 ∧ seconds ≤ 60)
      | _, _, _ => false) &&
      if withOffset then isOffset rest else rest.isEmpty
  | _ => false

/-- Whether a word is a date, a time of day, or both. -/
def isMoment : List Char → Bool
  | y :: y' :: y'' :: y''' :: '-' :: m :: m' :: '-' :: d :: d' :: rest =>
    isDate [y, y', y'', y'''] [m, m'] [d, d'] &&
      match rest with
      | [] => true
      | mark :: time => (mark == 'T' || mark == 't' || mark == ' ') && isTime true time
  | word => isTime false word

/-! ### Words -/

/-- A character of a number, a truth value or a date. -/
def isWordChar (c : Char) : Bool :=
  c.isAlphanum || c == '_' || c == '+' || c == '-' || c == '.' || c == ':'

/-- The word in front and the rest. A time may follow a date after a blank. -/
def word (cs : List Char) : List Char × List Char :=
  let first := cs.takeWhile isWordChar
  let rest := cs.dropWhile isWordChar
  match rest with
  | ' ' :: d :: more =>
    if d.isDigit && isMoment first then
      (first ++ ' ' :: (d :: more).takeWhile isWordChar, (d :: more).dropWhile isWordChar)
    else (first, rest)
  | _ => (first, rest)

end DockerfileLint.Toml
