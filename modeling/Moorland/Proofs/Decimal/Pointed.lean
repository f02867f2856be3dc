import Moorland.Proofs.Decimal.Positional
/-!
# Numbers in descriptions are told apart

A description holds a number in as few digits as read back, with a point between them or, where it
is very large or very small, with an exponent behind them. Whichever way it is written, the digits,
the point and the exponent are found again in the text (`Moorland.Written.text_inj`), and with them
the value of the decimal, which reads back as the size of the number.

So two numbers in single precision that are written alike are the same number, to the last bit
(`Moorland.Style.pointed_single_inj`); there is one NaN.
-/

namespace Moorland

open Toml (ofDigits IsPositional isWhole_toDigits ofDigits_toDigits exists_isPositional)

/-! ### Where a text is split -/

/-- **There is one way to split a text** before the first character of a kind. -/
theorem append_inj_of_stops {p : Char → Bool} {a b s t : List Char} (ha : ∀ c ∈ a, p c = false)
    (hb : ∀ c ∈ b, p c = false) (hs : ∀ c ∈ s.head?, p c = true) (ht : ∀ c ∈ t.head?, p c = true)
    (h : a ++ s = b ++ t) : a = b ∧ s = t := by
  induction a generalizing b with
  | nil =>
    cases b with
    | nil => exact ⟨rfl, h⟩
    | cons d b =>
      rw [List.nil_append] at h
      subst h
      exact absurd (hs d rfl) (by simp [hb d List.mem_cons_self])
  | cons c a ih =>
    cases b with
    | nil =>
      rw [List.nil_append] at h
      subst h
      exact absurd (ht c rfl) (by simp [ha c List.mem_cons_self])
    | cons d b =>
      obtain ⟨rfl, hrest⟩ := List.cons.inj h
      obtain ⟨rfl, hst⟩ := ih (fun c hc => ha c (List.mem_cons_of_mem _ hc))
        (fun c hc => hb c (List.mem_cons_of_mem _ hc)) hrest
      exact ⟨rfl, hst⟩

/-! ### Written decimals -/

/-- **A written decimal**: the digits before and after the point, and the power of ten behind them
if there is one. -/
structure Written where
  /-- The digits before the point. -/
  whole : List Char
  /-- The digits after the point, of which there may be none. -/
  fraction : List Char
  /-- The exponent, if it is written. -/
  exponent : Option ℤ

namespace Written

/-- The text of a fraction part, with its point. -/
def pointText : List Char → List Char
  | [] => []
  | c :: f => '.' :: c :: f

/-- The text of an exponent, with its letter. -/
def powerText : Option ℤ → List Char
  | none => []
  | some x => 'e' :: (toString x).toList

/-- **The text of a written decimal.** -/
def text (w : Written) : List Char := w.whole ++ (pointText w.fraction ++ powerText w.exponent)

/-- **The rational that a written decimal stands for.** -/
def value (w : Written) : ℚ :=
  Decimal.value ⟨ofDigits 10 (w.whole ++ w.fraction), w.exponent.getD 0 - w.fraction.length⟩

/-- **The written decimal is well formed**: it has digits where there should be some, and one at
the start. -/
structure WellFormed (w : Written) : Prop where
  /-- There is a digit before the point. -/
  ne_nil : w.whole ≠ []
  /-- Only digits stand before the point. -/
  whole : ∀ c ∈ w.whole, c.isDigit = true
  /-- Only digits stand after the point. -/
  fraction : ∀ c ∈ w.fraction, c.isDigit = true

variable {v w : Written}

theorem pointText_inj {f g : List Char} (h : pointText f = pointText g) : f = g := by
  cases f with
  | nil =>
    cases g with
    | nil => rfl
    | cons d g => cases h
  | cons c f =>
    cases g with
    | nil => cases h
    | cons d g => exact (List.cons.inj h).2

theorem powerText_inj {x y : Option ℤ} (h : powerText x = powerText y) : x = y := by
  cases x with
  | none =>
    cases y with
    | none => rfl
    | some y => cases h
  | some x =>
    cases y with
    | none => cases h
    | some y => rw [Int.repr_inj.mp (String.toList_inj.mp (List.cons.inj h).2)]

/-- **A decimal is told by its text.** -/
theorem text_inj (hv : v.WellFormed) (hw : w.WellFormed) (h : v.text = w.text) : v = w := by
  have hhead : ∀ u : Written, ∀ c ∈ (pointText u.fraction ++ powerText u.exponent).head?,
      (!c.isDigit) = true := by
    rintro ⟨l, f, x⟩ c hc
    cases f with
    | nil =>
      cases x with
      | none => cases hc
      | some x =>
        cases hc
        rfl
    | cons d f =>
      cases hc
      rfl
  have hpoint : ∀ u : Written, u.WellFormed → ∀ c ∈ pointText u.fraction,
      decide (c = 'e') = false := by
    rintro ⟨l, f, x⟩ hu c hc
    refine decide_eq_false ?_
    rintro rfl
    cases f with
    | nil => cases hc
    | cons d f =>
      rcases List.mem_cons.mp hc with hc | hc
      · cases hc
      · cases hu.fraction 'e' hc
  have hpower : ∀ u : Written, ∀ c ∈ (powerText u.exponent).head?, decide (c = 'e') = true := by
    rintro ⟨l, f, _ | x⟩ c hc
    · cases hc
    · cases hc
      rfl
  -- the first character that is no digit ends the whole part, and the letter ends the fraction
  obtain ⟨hwhole, hrest⟩ := append_inj_of_stops (p := fun c => !c.isDigit)
    (fun c hc => by rw [hv.whole c hc]; rfl) (fun c hc => by rw [hw.whole c hc]; rfl)
    (hhead v) (hhead w) h
  obtain ⟨hfraction, hexponent⟩ := append_inj_of_stops (hpoint v hv) (hpoint w hw)
    (hpower v) (hpower w) hrest
  cases v
  cases w
  cases hwhole
  cases pointText_inj hfraction
  cases powerText_inj hexponent
  rfl

/-- A positional text has no exponent. -/
theorem exists_text_of_positional {d : Decimal} (hd : d.digits = 0 → d.exponent = 0) :
    ∃ w : Written, w.WellFormed ∧ w.value = d.value ∧
      (Style.toml.writeDecimal d).toList = w.text := by
  obtain ⟨l, f, hp, htext⟩ := exists_isPositional hd
  obtain ⟨c, f, rfl⟩ := List.exists_cons_of_ne_nil hp.fraction_ne_nil
  refine ⟨⟨l, c :: f, none⟩, ⟨hp.whole.ne_nil, hp.whole.isDigit, hp.fraction⟩, hp.value, ?_⟩
  rw [htext, text, pointText, powerText, List.append_nil]

/-- **The text of a decimal in a description** is that of a written decimal of the same value. -/
theorem exists_text {d : Decimal} (hd : d.digits = 0 → d.exponent = 0) :
    ∃ w : Written, w.WellFormed ∧ w.value = d.value ∧
      (Style.pointed.writeDecimal d).toList = w.text := by
  have htext : (toString d.digits).toList = Nat.toDigits 10 d.digits := Nat.toList_repr
  have hcount : (toString d.digits).length = (Nat.toDigits 10 d.digits).length := by
    rw [← String.length_toList, htext]
  by_cases hin : (decide (-4 ≤ ((Nat.toDigits 10 d.digits).length : ℤ) + d.exponent - 1) &&
      decide (((Nat.toDigits 10 d.digits).length : ℤ) + d.exponent - 1 < 16) ||
        d.digits == 0) = true
  · -- within the range of exponents the two styles agree
    have hagree : Style.pointed.writeDecimal d = Style.toml.writeDecimal d := by
      rw [Style.writeDecimal, Style.writeDecimal]
      simp only [Style.pointed, Style.toml, Bool.true_or, if_true, hcount]
      rw [if_pos hin]
    rw [hagree]
    exact exists_text_of_positional hd
  · have hw := isWhole_toDigits d.digits
    have hm := ofDigits_toDigits d.digits
    rw [Style.writeDecimal]
    simp only [Style.pointed, hcount]
    rw [if_neg hin, htext]
    obtain ⟨c, f, hds⟩ := List.exists_cons_of_ne_nil hw.ne_nil
    have hdigit := hw.isDigit
    rw [hds] at hm hdigit ⊢
    refine ⟨⟨[c], f, some (((c :: f).length : ℤ) + d.exponent - 1)⟩,
      ⟨List.cons_ne_nil _ _, ?_, ?_⟩, ?_, ?_⟩
    · exact fun b hb => hdigit b (List.mem_singleton.mp hb ▸ List.mem_cons_self)
    · exact fun b hb => hdigit b (List.mem_cons_of_mem _ hb)
    · have hexponent : ((c :: f).length : ℤ) + d.exponent - 1 - f.length = d.exponent := by
        rw [List.length_cons]
        push_cast
        ring
      rw [value]
      simp only [Option.getD_some, List.singleton_append, hm, hexponent]
    · simp only [String.toList_append, String.toList_ofList, text, powerText, ite_self,
        List.append_assoc]
      cases f with
      | nil => rfl
      | cons b f => simp [pointText]

/-- A character of a number: a letter, a digit, a point or a minus. -/
def isNumeral (c : Char) : Bool := c.isAlphanum || c == '.' || c == '-'

theorem isNumeral_of_isDigit {c : Char} (hc : c.isDigit = true) : isNumeral c = true := by
  rw [isNumeral, Char.isAlphanum, hc, Bool.or_true, Bool.true_or, Bool.true_or]

theorem isNumeral_toString (x : ℤ) : ∀ c ∈ (toString x).toList, isNumeral c = true := by
  have hdigit : ∀ n : ℕ, ∀ c ∈ Nat.toDigits 10 n, isNumeral c = true := fun n c hc =>
    isNumeral_of_isDigit (Nat.isDigit_of_mem_toDigits (by decide) (by decide) hc)
  intro c hc
  cases x with
  | ofNat n => exact hdigit n c (Nat.toList_repr (n := n) ▸ hc)
  | negSucc n =>
    change c ∈ ("-" ++ (n + 1).repr).toList at hc
    rw [String.toList_append, Nat.toList_repr] at hc
    rcases List.mem_cons.mp hc with rfl | hc
    · rfl
    · exact hdigit (n + 1) c hc

theorem WellFormed.isNumeral_text (hw : w.WellFormed) : ∀ c ∈ w.text, isNumeral c = true := by
  obtain ⟨l, f, x⟩ := w
  intro c hc
  rcases List.mem_append.mp hc with hc | hc
  · exact isNumeral_of_isDigit (hw.whole c hc)
  rcases List.mem_append.mp hc with hc | hc
  · cases f with
    | nil => cases hc
    | cons d f =>
      rcases List.mem_cons.mp hc with rfl | hc
      · rfl
      · exact isNumeral_of_isDigit (hw.fraction c hc)
  · cases x with
    | none => cases hc
    | some x =>
      rcases List.mem_cons.mp hc with rfl | hc
      · rfl
      · exact isNumeral_toString x c hc

/-- A well-formed text begins with a digit. -/
theorem WellFormed.exists_head (hw : w.WellFormed) :
    ∃ c t, w.text = c :: t ∧ c.isDigit = true := by
  obtain ⟨c, l, hl⟩ := List.exists_cons_of_ne_nil hw.ne_nil
  refine ⟨c, l ++ (pointText w.fraction ++ powerText w.exponent), by rw [text, hl]; rfl, ?_⟩
  exact hw.whole c (by rw [hl]; exact List.mem_cons_self)

end Written

/-! ### Numbers in single precision -/

variable {v w : Float32}

/-- The text of a number without its sign. -/
def unsignedText (v : Float32) : List Char :=
  if v.isFinite then (Style.pointed.writeDecimal (.ofSingle .up v)).toList else "inf".toList

theorem exists_unsignedText (hv : v.isFinite = true) :
    ∃ u : Written, u.WellFormed ∧ u.value = (Decimal.ofSingle .up v).value ∧
      unsignedText v = u.text := by
  rw [unsignedText, if_pos hv]
  exact Written.exists_text Decimal.exponent_ofSingle

/-- **The first character** tells numbers from infinities, and both from a sign and a NaN. -/
theorem exists_head_unsignedText (v : Float32) :
    ∃ c t, unsignedText v = c :: t ∧ c ≠ '-' ∧ c ≠ 'N' ∧ (v.isFinite = true ↔ c ≠ 'i') := by
  cases hv : v.isFinite with
  | true =>
    obtain ⟨u, hu, -, htext⟩ := exists_unsignedText hv
    obtain ⟨c, t, hc, hdigit⟩ := hu.exists_head
    have hne : ∀ d : Char, d.isDigit = false → c ≠ d := by
      rintro d hd rfl
      exact Bool.false_ne_true (hd.symm.trans hdigit)
    exact ⟨c, t, htext.trans hc, hne _ rfl, hne _ rfl, fun _ => hne _ rfl, fun _ => rfl⟩
  | false =>
    refine ⟨'i', ['n', 'f'], ?_, by decide, by decide, nofun, fun h => absurd rfl h⟩
    rw [unsignedText, hv, if_neg Bool.false_ne_true]
    decide

/-- **Sizes that are written alike are the same.** -/
theorem abs_eq_of_unsignedText (hv : v.isNaN = false) (hw : w.isNaN = false)
    (h : unsignedText v = unsignedText w) : v.abs = w.abs := by
  obtain ⟨c, s, hc, -, -, hvc⟩ := exists_head_unsignedText v
  obtain ⟨d, t, hd, -, -, hwd⟩ := exists_head_unsignedText w
  obtain ⟨rfl, -⟩ := List.cons.inj (hc.symm.trans (h.trans hd))
  have hfinite : v.isFinite = w.isFinite := Bool.eq_iff_iff.mpr (hvc.trans hwd.symm)
  cases hvf : v.isFinite with
  | true =>
    have hwf := hfinite.symm.trans hvf
    obtain ⟨x, hx, hxvalue, hxtext⟩ := exists_unsignedText hvf
    obtain ⟨y, hy, hyvalue, hytext⟩ := exists_unsignedText hwf
    -- one text, so one written decimal, so one value
    obtain rfl : x = y := Written.text_inj hx hy (hxtext.symm.trans (h.trans hytext))
    rw [← Decimal.toSingle_ofSingle .up hvf, ← Decimal.toSingle_ofSingle .up hwf]
    exact Decimal.toSingle_congr (hxvalue.symm.trans hyvalue)
  | false => exact Single.abs_eq_of_infinite hv hvf hw (hfinite.symm.trans hvf)

namespace Style

theorem toList_pointed_single (v : Float32) :
    (pointed.single v).toList = if v.isNaN then "NaN".toList
      else if isNegativeSingle v then '-' :: unsignedText v else unsignedText v := by
  rw [single, unsignedText, withSign]
  cases v.isNaN with
  | true => simp only [if_true, pointed]
  | false =>
    cases isNegativeSingle v with
    | true => cases v.isFinite <;> simp [pointed]
    | false => cases v.isFinite <;> simp [pointed]

theorem isNumeral_pointed_single (v : Float32) :
    ∀ c ∈ (pointed.single v).toList, Written.isNumeral c = true := by
  have hunsigned : ∀ c ∈ unsignedText v, Written.isNumeral c = true := by
    cases hv : v.isFinite with
    | true =>
      obtain ⟨u, hu, -, htext⟩ := exists_unsignedText hv
      rw [htext]
      exact hu.isNumeral_text
    | false =>
      have htext : "inf".toList = ['i', 'n', 'f'] := by decide
      rw [unsignedText, hv, if_neg Bool.false_ne_true, htext]
      exact List.all_eq_true.mp rfl
  have htext : "NaN".toList = ['N', 'a', 'N'] := by decide
  rw [toList_pointed_single, htext]
  split
  · exact List.all_eq_true.mp rfl
  · split
    · intro c hc
      rcases List.mem_cons.mp hc with rfl | hc
      · rfl
      · exact hunsigned c hc
    · exact hunsigned

/-- A NaN is told by its first letter. -/
theorem isNaN_iff_head? : v.isNaN = true ↔ (pointed.single v).toList.head? = some 'N' := by
  obtain ⟨c, s, hc, -, hnan, -⟩ := exists_head_unsignedText v
  rw [toList_pointed_single]
  cases v.isNaN with
  | true =>
    rw [if_pos rfl]
    exact iff_of_true rfl (by decide)
  | false =>
    rw [if_neg Bool.false_ne_true]
    refine iff_of_false Bool.false_ne_true ?_
    cases isNegativeSingle v with
    | true =>
      rw [if_pos rfl]
      exact fun h => absurd (Option.some.inj h) (by decide)
    | false =>
      rw [if_neg Bool.false_ne_true, hc]
      exact fun h => hnan (Option.some.inj h)

/-- A sign is told by the first character. -/
theorem isNegativeSingle_iff_head? (hv : v.isNaN = false) :
    isNegativeSingle v = true ↔ (pointed.single v).toList.head? = some '-' := by
  obtain ⟨c, s, hc, hsign, -, -⟩ := exists_head_unsignedText v
  rw [toList_pointed_single, hv, if_neg Bool.false_ne_true]
  cases isNegativeSingle v with
  | true =>
    rw [if_pos rfl]
    exact iff_of_true rfl rfl
  | false =>
    rw [if_neg Bool.false_ne_true, hc]
    exact iff_of_false Bool.false_ne_true fun h => hsign (Option.some.inj h)

/-- **Numbers that are written alike in descriptions are the same.** -/
theorem pointed_single_inj (h : pointed.single v = pointed.single w) : v = w := by
  have hnan : v.isNaN = w.isNaN :=
    Bool.eq_iff_iff.mpr (isNaN_iff_head?.trans (h ▸ isNaN_iff_head?.symm))
  cases hv : v.isNaN with
  | true => exact Single.eq_of_isNaN hv (hnan.symm.trans hv)
  | false =>
    have hw := hnan.symm.trans hv
    have hsign : isNegativeSingle v = isNegativeSingle w := Bool.eq_iff_iff.mpr
      ((isNegativeSingle_iff_head? hv).trans (h ▸ (isNegativeSingle_iff_head? hw).symm))
    have htext := congrArg String.toList h
    rw [toList_pointed_single, toList_pointed_single, hv, hw, hsign,
      if_neg Bool.false_ne_true, if_neg Bool.false_ne_true] at htext
    refine Single.eq_of_abs_eq hsign (abs_eq_of_unsignedText hv hw ?_)
    cases hneg : isNegativeSingle w with
    | true =>
      rw [hneg] at htext
      exact (List.cons.inj htext).2
    | false =>
      rw [hneg] at htext
      exact htext

end Style

end Moorland
