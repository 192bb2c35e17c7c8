/-!
# Decoding UTF-8

Bytes as characters. A byte sequence that no character has is marked by `none`, once for each
longest start of a character that the next byte does not continue. A lenient reading puts the
replacement character there.
-/

namespace DockerfileLint.Utf8

/-- The bytes that continue a character. -/
def isContinuation (b : UInt8) : Bool := 0x80 ≤ b && b ≤ 0xBF

/-- Whether `b` may be the second byte of a character of three bytes that starts with `a`. -/
def isSecondOfThree (a b : UInt8) : Bool :=
  if a == 0xE0 then 0xA0 ≤ b && b ≤ 0xBF
  else if a == 0xED then 0x80 ≤ b && b ≤ 0x9F
  else isContinuation b

/-- Whether `b` may be the second byte of a character of four bytes that starts with `a`. -/
def isSecondOfFour (a b : UInt8) : Bool :=
  if a == 0xF0 then 0x90 ≤ b && b ≤ 0xBF
  else if a == 0xF4 then 0x80 ≤ b && b ≤ 0x8F
  else isContinuation b

/-- The six bits that a continuation byte carries, under those already read. -/
def extend (n : Nat) (b : UInt8) : Nat := 64 * n + (b.toNat - 0x80)

/-- The characters of the bytes, with a mark for what is no character. -/
def decode : List UInt8 → List (Option Char)
  | [] => []
  | a :: rest =>
    if a < 0x80 then some (Char.ofNat a.toNat) :: decode rest
    else if 0xC2 ≤ a && a ≤ 0xDF then
      match rest with
      | b :: rest' =>
        if isContinuation b then some (Char.ofNat (extend (a.toNat - 0xC0) b)) :: decode rest'
        else none :: decode (b :: rest')
      | [] => [none]
    else if 0xE0 ≤ a && a ≤ 0xEF then
      match rest with
      | b :: c :: rest' =>
        if !isSecondOfThree a b then none :: decode (b :: c :: rest')
        else if isContinuation c then some (Char.ofNat (extend (extend (a.toNat - 0xE0) b) c)) ::
          decode rest'
        else none :: decode (c :: rest')
      | [b] => if isSecondOfThree a b then [none] else none :: decode [b]
      | [] => [none]
    else if 0xF0 ≤ a && a ≤ 0xF4 then
      match rest with
      | b :: c :: d :: rest' =>
        if !isSecondOfFour a b then none :: decode (b :: c :: d :: rest')
        else if !isContinuation c then none :: decode (c :: d :: rest')
        else if isContinuation d then
          some (Char.ofNat (extend (extend (extend (a.toNat - 0xF0) b) c) d)) :: decode rest'
        else none :: decode (d :: rest')
      | [b, c] =>
        if !isSecondOfFour a b then none :: decode [b, c]
        else if isContinuation c then [none]
        else none :: decode [c]
      | [b] => if isSecondOfFour a b then [none] else none :: decode [b]
      | [] => [none]
    else none :: decode rest

/-- The text of the bytes, with the replacement character for what is no character. -/
def decodeLenient (bytes : List UInt8) : String :=
  String.ofList ((decode bytes).map fun c => c.getD '\uFFFD')

end DockerfileLint.Utf8
