import BuildLint.Text.Basic

/-!
# Numeral/Decimal — whole numbers in decimal

* `ofNat`, `ofInt` — a number as its digits, without leading zeros.
* `value` — the number that ASCII digits stand for.
* `value_ofNat` — writing and then reading gives the number back.
-/

namespace BuildLint

namespace Decimal

/-- The digits of a natural number. -/
def ofNat (n : Nat) : Text := (Nat.toDigits 10 n).map CodePoint.ofChar

/-- The digits of an integer, after a minus sign if it is negative. -/
def ofInt (n : Int) : Text := if n < 0 then '-' :: ofNat n.natAbs else ofNat n.natAbs

/-- The number that a text of ASCII digits stands for. -/
def value (digits : Text) : Nat := digits.foldl (fun n c => 10 * n + (c.val - 48)) 0

theorem value_ofNat (n : Nat) : value (ofNat n) = n := by
  rw [value, ofNat, List.foldl_map]
  exact (@Nat.ofDigitChars_eq_foldl 10 (Nat.toDigits 10 n) 0).symm.trans
    Nat.ofDigitChars_ten_toDigits

theorem ofNat_ne_nil (n : Nat) : ofNat n ≠ [] := by
  simp [ofNat, Nat.toDigits_ne_nil]

/-- Only digits are written. -/
theorem isDigit_of_mem_ofNat {n : Nat} {c : CodePoint} (h : c ∈ ofNat n) : c.isDigit = true := by
  obtain ⟨d, hd, rfl⟩ := List.mem_map.1 h
  have h := Nat.isDigit_of_mem_toDigits (by decide) (by decide) hd
  simp only [Char.isDigit, Bool.and_eq_true, decide_eq_true_eq] at h
  simp only [CodePoint.isDigit, CodePoint.within, CodePoint.ofChar, Bool.and_eq_true]
  exact ⟨decide_eq_true (UInt32.le_iff_toNat_le.1 h.1),
    decide_eq_true (UInt32.le_iff_toNat_le.1 h.2)⟩

end Decimal

end BuildLint
