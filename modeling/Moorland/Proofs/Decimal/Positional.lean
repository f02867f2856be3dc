import Moorland.Document.Toml.Scalar
import Moorland.Proofs.Rounding.Decimal
/-!
# Decimals in positional notation

The text that is written for a number without an exponent is a whole part and a fraction, both of
digits, with a point between them (`Moorland.Toml.IsPositional`). The digits may be shifted on the
way, but their value is that of the decimal that was written
(`Moorland.Toml.exists_isPositional`).
-/

namespace Moorland.Toml

open Text (hexValue?)

variable {n : ℕ}

/-! ### Digits -/

theorem ofDigits_concat (ds : List Char) (c : Char) :
    ofDigits 10 (ds ++ [c]) = ofDigits 10 ds * 10 + (hexValue? c).getD 0 := by
  rw [ofDigits, List.foldl_append]
  rfl

theorem ofDigits_append (w f : List Char) :
    ofDigits 10 (w ++ f) = ofDigits 10 w * 10 ^ f.length + ofDigits 10 f := by
  induction f using List.reverseRecOn with
  | nil => simp [ofDigits]
  | append_singleton f c ih =>
    rw [← List.append_assoc, ofDigits_concat, ofDigits_concat, ih, List.length_append, pow_add]
    simp only [List.length_singleton, pow_one]
    ring

theorem ofDigits_zeros (n : ℕ) : ofDigits 10 (List.replicate n '0') = 0 := by
  induction n with
  | zero => rfl
  | succ n ih =>
    rw [List.replicate_succ', ofDigits_concat, ih]
    rfl

/-- **The digits of a number stand for it.** -/
theorem ofDigits_toDigits (n : ℕ) : ofDigits 10 (Nat.toDigits 10 n) = n := by
  have hvalue : ∀ ds : List Char, (∀ c ∈ ds, c.isDigit = true) →
      ofDigits 10 ds = Nat.ofDigitChars 10 ds 0 := by
    intro ds hds
    induction ds using List.reverseRecOn with
    | nil => rfl
    | append_singleton ds c ih =>
      have hc : hexValue? c = some (c.toNat - 48) := if_pos (hds c (by simp))
      rw [ofDigits_concat, ih fun d hd => hds d (by simp [hd]), hc, Nat.ofDigitChars,
        Nat.ofDigitChars, List.foldl_append, mul_comm]
      rfl
  rw [hvalue _ fun c hc => Nat.isDigit_of_mem_toDigits (by decide) (by decide) hc]
  exact Nat.ofDigitChars_toDigits (by decide) (by decide)

/-- **The digits of a whole number**: a zero, or a run that does not start with one. -/
structure IsWhole (ds : List Char) : Prop where
  /-- There are only digits. -/
  isDigit : ∀ c ∈ ds, c.isDigit = true
  /-- There is a digit. -/
  ne_nil : ds ≠ []
  /-- Nothing follows a zero at the start. -/
  zero : ds.head? = some '0' → ds = ['0']

theorem head?_toDigits (hn : 0 < n) : (Nat.toDigits 10 n).head? ≠ some '0' := by
  induction n using Nat.strong_induction_on with
  | _ n ih =>
    rcases Nat.lt_or_ge n 10 with hlt | hge
    · rw [Nat.toDigits_of_lt_base hlt]
      simp [hn.ne']
    · rw [Nat.toDigits_of_base_le (by decide) hge,
        List.head?_append_of_ne_nil _ Nat.toDigits_ne_nil]
      exact ih (n / 10) (by omega) (by omega)

theorem isWhole_toDigits (n : ℕ) : IsWhole (Nat.toDigits 10 n) := by
  refine ⟨fun c hc => Nat.isDigit_of_mem_toDigits (by decide) (by decide) hc, Nat.toDigits_ne_nil,
    fun hzero => ?_⟩
  rcases Nat.eq_zero_or_pos n with rfl | hn
  · rfl
  · exact absurd hzero (head?_toDigits hn)

/-! ### Whole part and fraction -/

/-- **A decimal in positional notation**: the digits before and after the point. -/
structure IsPositional (d : Decimal) (w f : List Char) : Prop where
  /-- The digits before the point are those of a whole number. -/
  whole : IsWhole w
  /-- There is a digit after the point. -/
  fraction_ne_nil : f ≠ []
  /-- Only digits stand after the point. -/
  fraction : ∀ c ∈ f, c.isDigit = true
  /-- All of the digits, with the point shifted to their end, have the value of the decimal. -/
  value : Decimal.value ⟨ofDigits 10 (w ++ f), 0 - f.length⟩ = d.value

theorem toList_pushn_empty (k : ℕ) : ("".pushn '0' k).toList = List.replicate k '0' := by
  rw [String.pushn]
  induction k with
  | zero => rfl
  | succ k ih => rw [Nat.repeat, String.toList_push, ih, List.replicate_succ']

/-- Zeros after the digits, and one more after the point. -/
theorem isPositional_zeros {m k : ℕ} (hm : m = 0 → k = 0) :
    IsPositional ⟨m, k⟩ (Nat.toDigits 10 m ++ List.replicate k '0') ['0'] := by
  have hw := isWhole_toDigits m
  have hvalue : ofDigits 10 (Nat.toDigits 10 m ++ List.replicate k '0' ++ ['0']) =
      m * 10 ^ k * 10 := by
    rw [ofDigits_concat, ofDigits_append, ofDigits_toDigits, ofDigits_zeros, List.length_replicate]
    rfl
  refine ⟨⟨?_, ?_, ?_⟩, List.cons_ne_nil _ _, by simp, ?_⟩
  · intro c hc
    rcases List.mem_append.mp hc with hc | hc
    · exact hw.isDigit c hc
    · rw [List.eq_of_mem_replicate hc]
      rfl
  · exact List.append_ne_nil_of_left_ne_nil hw.ne_nil _
  · intro hzero
    rw [List.head?_append_of_ne_nil _ hw.ne_nil] at hzero
    have hm₀ : m = 0 := by
      by_contra hne
      exact head?_toDigits (Nat.pos_of_ne_zero hne) hzero
    rw [hw.zero hzero, hm hm₀]
    rfl
  · rw [Decimal.value, Decimal.value, hvalue, List.length_singleton, zpow_natCast]
    push_cast
    rw [zpow_neg_one, mul_inv_cancel_right₀ (by norm_num)]

/-- The point between the digits. -/
theorem isPositional_split {m k : ℕ} (hk : 0 < k) (hlt : k < (Nat.toDigits 10 m).length) :
    IsPositional ⟨m, k - (Nat.toDigits 10 m).length⟩ ((Nat.toDigits 10 m).take k)
      ((Nat.toDigits 10 m).drop k) := by
  have hw := isWhole_toDigits m
  have hm := ofDigits_toDigits m
  generalize Nat.toDigits 10 m = ds at *
  refine ⟨⟨fun c hc => hw.isDigit c (List.mem_of_mem_take hc), ?_, fun hzero => ?_⟩, ?_,
    fun c hc => hw.isDigit c (List.mem_of_mem_drop hc), ?_⟩
  · exact fun h => by simp [List.take_eq_nil_iff, hk.ne', hw.ne_nil] at h
  · -- a zero at the start would be the only digit
    rw [List.head?_take, if_neg hk.ne'] at hzero
    rw [hw.zero hzero] at hlt
    exact absurd hlt (by simp; omega)
  · exact fun h => absurd (List.drop_eq_nil_iff.mp h) (by omega)
  · rw [List.take_append_drop, hm, List.length_drop, Nat.cast_sub hlt.le, zero_sub, neg_sub]

/-- Zeros between the point and the digits. -/
theorem isPositional_small (m k : ℕ) :
    IsPositional ⟨m, -(k + (Nat.toDigits 10 m).length : ℕ)⟩ ['0']
      (List.replicate k '0' ++ Nat.toDigits 10 m) := by
  have hw := isWhole_toDigits m
  refine ⟨⟨by simp, List.cons_ne_nil _ _, fun _ => rfl⟩, ?_, ?_, ?_⟩
  · exact List.append_ne_nil_of_right_ne_nil _ hw.ne_nil
  · intro c hc
    rcases List.mem_append.mp hc with hc | hc
    · rw [List.eq_of_mem_replicate hc]
      rfl
    · exact hw.isDigit c hc
  · have hvalue : ofDigits 10 (['0'] ++ (List.replicate k '0' ++ Nat.toDigits 10 m)) = m := by
      rw [ofDigits_append, ofDigits_append, ofDigits_zeros, ofDigits_toDigits]
      simp [ofDigits, hexValue?]
    rw [hvalue, List.length_append, List.length_replicate, zero_sub]

/-- **The text of a decimal is positional.** -/
theorem exists_isPositional {d : Decimal} (hd : d.digits = 0 → d.exponent = 0) :
    ∃ w f, IsPositional d w f ∧ (Style.toml.writeDecimal d).toList = w ++ '.' :: f := by
  obtain ⟨m, e⟩ := d
  have htext : (toString m).toList = Nat.toDigits 10 m := Nat.toList_repr
  have hcount : (toString m).length = (Nat.toDigits 10 m).length := by
    rw [← String.length_toList, htext]
  rw [Style.writeDecimal]
  simp only [Style.toml, Bool.true_or, if_true, hcount]
  split_ifs with hnonneg hpoint
  · obtain ⟨k, rfl⟩ := Int.eq_ofNat_of_zero_le hnonneg
    refine ⟨_, _, isPositional_zeros (m := m) (k := k) (fun h => Int.natCast_eq_zero.mp (hd h)), ?_⟩
    rw [String.toList_append, String.toList_append, htext, toList_pushn_empty]
    rfl
  · obtain ⟨k, hk⟩ := Int.eq_ofNat_of_zero_le hpoint.le
    obtain rfl : e = k - (Nat.toDigits 10 m).length := by omega
    refine ⟨_, _, isPositional_split (m := m) (k := k) (by omega) (by omega), ?_⟩
    rw [hk, String.toList_append, String.toList_append, String.toList_ofList, String.toList_ofList,
      htext, Int.toNat_natCast]
    simp
  · obtain ⟨k, hk⟩ := Int.eq_ofNat_of_zero_le (neg_nonneg.mpr (not_lt.mp hpoint))
    obtain rfl : e = -(k + (Nat.toDigits 10 m).length : ℕ) := by omega
    refine ⟨_, _, isPositional_small m k, ?_⟩
    rw [hk, String.toList_append, String.toList_append, htext, toList_pushn_empty,
      Int.toNat_natCast]
    rfl

end Moorland.Toml
