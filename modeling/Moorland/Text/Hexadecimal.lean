/-!
# Hexadecimal digits

A digit is read in either case (`Moorland.Text.hexValue?`) and written in lower case
(`Moorland.Text.hexDigit`).
-/

namespace Moorland.Text

/-- **The value of a hexadecimal digit.** -/
def hexValue? (c : Char) : Option Nat :=
  if c.isDigit then some (c.toNat - 48)
  else if 'a' ≤ c ∧ c ≤ 'f' then some (c.toNat - 87)
  else if 'A' ≤ c ∧ c ≤ 'F' then some (c.toNat - 55)
  else none

/-- **The hexadecimal digit of a value below sixteen.** -/
def hexDigit (n : Nat) : Char := if n < 10 then Char.ofNat (48 + n) else Char.ofNat (87 + n)

/-- A digit that is written reads back. -/
theorem hexValue?_hexDigit {n : Nat} (h : n < 16) : hexValue? (hexDigit n) = some n := by
  decide +revert

/-- Values below sixteen are told apart by their digits. -/
theorem hexDigit_inj {m n : Nat} (hm : m < 16) (hn : n < 16) (h : hexDigit m = hexDigit n) :
    m = n := by
  have hread := congrArg hexValue? h
  rw [hexValue?_hexDigit hm, hexValue?_hexDigit hn] at hread
  exact Option.some.inj hread

end Moorland.Text
