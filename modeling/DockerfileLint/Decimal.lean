/-!
# Decimal numerals

Numbers as decimal digits without leading zeros, and the value of a list of digits. Main statement:
reading the digits of a number gives the number back (`value_digits`), and the numeral is the usual
one (`text_eq_toString`).
-/

namespace DockerfileLint.Decimal

/-- The digit of a number below ten. -/
def digit (d : Nat) : Char := Char.ofNat (48 + d)

/-- The decimal digits of a number. -/
def digits (n : Nat) : List Char :=
  if n < 10 then [digit n] else digits (n / 10) ++ [digit (n % 10)]
termination_by n

/-- The number that a digit stands for. -/
def digitValue (c : Char) : Nat := c.toNat - 48

/-- The number that a list of digits stands for. -/
def value (cs : List Char) : Nat := cs.foldl (fun n c => 10 * n + digitValue c) 0

/-- The numeral of an integer, with a sign only when it is negative. -/
def ofInt : Int → List Char
  | .ofNat n => digits n
  | .negSucc n => '-' :: digits (n + 1)

/-- The numeral of an integer as text. -/
def text (n : Int) : String := String.ofList (ofInt n)

theorem digitValue_digit : ∀ d < 10, digitValue (digit d) = d := by decide

theorem isDigit_digit : ∀ d < 10, (digit d).isDigit = true := by decide

theorem value_append (cs : List Char) (c : Char) :
    value (cs ++ [c]) = 10 * value cs + digitValue c := by
  simp [value]

/-- The digits of a number read as that number. -/
@[simp] theorem value_digits (n : Nat) : value (digits n) = n := by
  fun_induction digits n with
  | case1 n h => simp [value, digitValue_digit n h]
  | case2 n h ih =>
    rw [value_append, ih, digitValue_digit _ (by omega)]
    omega

theorem isDigit_of_mem_digits (n : Nat) : ∀ c ∈ digits n, c.isDigit = true := by
  fun_induction digits n with
  | case1 n h => simpa using isDigit_digit n h
  | case2 n h ih =>
    intro c hc
    rcases List.mem_append.1 hc with hc | hc
    · exact ih c hc
    · rw [List.mem_singleton.1 hc]
      exact isDigit_digit _ (by omega)

theorem digits_ne_nil (n : Nat) : digits n ≠ [] := by
  fun_cases digits n <;> simp

theorem digits_eq_toDigits (n : Nat) : digits n = Nat.toDigits 10 n := by
  have hdigit : ∀ d < 10, digit d = Nat.digitChar d := by decide
  fun_induction digits n with
  | case1 n h => rw [Nat.toDigits_of_lt_base h, hdigit n h]
  | case2 n h ih => rw [Nat.toDigits_eq_if (by decide), if_neg h, ih, hdigit _ (by omega)]

/-- The numeral of an integer is that of the standard library. -/
theorem text_eq_toString (n : Int) : text n = toString n := by
  have hdigits : ∀ k, String.ofList (digits k) = Nat.repr k := by
    intro k
    rw [digits_eq_toDigits, Nat.repr_eq_ofList_toDigits]
  cases n with
  | ofNat n => exact hdigits n
  | negSucc n =>
    show String.ofList ('-' :: digits (n + 1)) = "-" ++ Nat.repr (n + 1)
    rw [String.ofList_cons, hdigits]
    rfl

theorem text_natCast (n : Nat) : text n = toString n := text_eq_toString n

end DockerfileLint.Decimal
