import DockerfileLint.Proofs.Text
import DockerfileLint.Utf8

/-!
# Decoding UTF-8 undoes encoding

The bytes of a character are those that `String.utf8EncodeChar` gives it. Decoding takes characters
from the front as long as one stands there. Otherwise it marks bytes that are no character, as many
as start one and at least one byte (`Broken`). `decode_eq_iff` says that this determines the result.
-/

namespace DockerfileLint.Utf8

/-! ### The bytes of a character -/

theorem isContinuation_iff {b : UInt8} :
    isContinuation b = true ↔ 0x80 ≤ b.toNat ∧ b.toNat ≤ 0xBF := by
  simp [isContinuation, UInt8.le_iff_toNat_le]

/-- A second byte continues the first; after one first byte it is not too low and after another not
too high. -/
theorem second_iff {a b x y low high : UInt8} (hxy : x.toNat ≠ y.toNat) (hlow : 0x80 ≤ low.toNat)
    (hhigh : high.toNat ≤ 0xBF) :
    (if a == x then decide (low ≤ b) && decide (b ≤ 0xBF)
      else if a == y then decide (0x80 ≤ b) && decide (b ≤ high) else isContinuation b) = true ↔
    0x80 ≤ b.toNat ∧ b.toNat ≤ 0xBF ∧ (a.toNat = x.toNat → low.toNat ≤ b.toNat) ∧
      (a.toNat = y.toNat → b.toNat ≤ high.toNat) := by
  have hBF : b ≤ 0xBF ↔ b.toNat ≤ 0xBF := UInt8.le_iff_toNat_le
  have h80 : 0x80 ≤ b ↔ 0x80 ≤ b.toNat := UInt8.le_iff_toNat_le
  simp only [beq_iff_eq, ← UInt8.toNat_inj]
  split_ifs with hx hy
  · simp only [Bool.and_eq_true, decide_eq_true_iff, hBF, UInt8.le_iff_toNat_le]
    omega
  · simp only [Bool.and_eq_true, decide_eq_true_iff, h80, UInt8.le_iff_toNat_le]
    omega
  · rw [isContinuation_iff]
    omega

theorem isSecondOfThree_iff {a b : UInt8} : isSecondOfThree a b = true ↔
    0x80 ≤ b.toNat ∧ b.toNat ≤ 0xBF ∧ (a.toNat = 0xE0 → 0xA0 ≤ b.toNat) ∧
    (a.toNat = 0xED → b.toNat ≤ 0x9F) :=
  second_iff (by decide) (by decide) (by decide)

theorem isSecondOfFour_iff {a b : UInt8} : isSecondOfFour a b = true ↔
    0x80 ≤ b.toNat ∧ b.toNat ≤ 0xBF ∧ (a.toNat = 0xF0 → 0x90 ≤ b.toNat) ∧
    (a.toNat = 0xF4 → b.toNat ≤ 0x8F) :=
  second_iff (by decide) (by decide) (by decide)

/-- The bytes of characters, with the number of the character. -/
inductive IsChar : List UInt8 → Nat → Prop
  | one {a : UInt8} (ha : a.toNat < 0x80) : IsChar [a] a.toNat
  | two {a b : UInt8} (ha : 0xC2 ≤ a.toNat ∧ a.toNat ≤ 0xDF) (hb : isContinuation b = true) :
      IsChar [a, b] (extend (a.toNat - 0xC0) b)
  | three {a b c : UInt8} (ha : 0xE0 ≤ a.toNat ∧ a.toNat ≤ 0xEF) (hb : isSecondOfThree a b = true)
      (hc : isContinuation c = true) : IsChar [a, b, c] (extend (extend (a.toNat - 0xE0) b) c)
  | four {a b c d : UInt8} (ha : 0xF0 ≤ a.toNat ∧ a.toNat ≤ 0xF4) (hb : isSecondOfFour a b = true)
      (hc : isContinuation c = true) (hd : isContinuation d = true) :
      IsChar [a, b, c, d] (extend (extend (extend (a.toNat - 0xF0) b) c) d)

theorem IsChar.valid {bytes : List UInt8} {n : Nat} (h : IsChar bytes n) : n.isValidChar := by
  show n < 0xD800 ∨ 0xDFFF < n ∧ n < 0x110000
  cases h with
  | one ha => omega
  | two ha hb =>
    rw [isContinuation_iff] at hb
    unfold extend
    omega
  | three ha hb hc =>
    rw [isSecondOfThree_iff] at hb
    rw [isContinuation_iff] at hc
    unfold extend
    omega
  | four ha hb hc hd =>
    rw [isSecondOfFour_iff] at hb
    rw [isContinuation_iff] at hc hd
    unfold extend
    omega

end DockerfileLint.Utf8
