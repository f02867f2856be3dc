import Moorland.Document.Toml.Writer
import Moorland.Proofs.Decimal.Positional
/-!
# Numbers are read back

The text that is written for a number is a whole part and a fraction, both of digits, with a point
between them (`Moorland.Toml.IsPositional`), and the reader splits it where the writer joined it.
What it reads has the value of the decimal that was written, and decimals of one value are read
alike.

The main statements are `Moorland.Toml.takeScalar?_double` and `Moorland.Toml.takeScalar?_integer`.
-/

namespace Moorland.Toml

open Text (hexValue?)

variable {c d : Char} {s w f ds : List Char} {n : ℕ}

/-! ### Reading digits -/

theorem moreDigits?_append (hds : ∀ c ∈ ds, c.isDigit = true) (hc : c.isDigit = false)
    (hunder : c ≠ '_') (acc : List Char) :
    moreDigits? Char.isDigit acc (ds ++ c :: s) = some (acc.reverse ++ ds, c :: s) := by
  induction ds generalizing acc with
  | nil =>
    rw [List.nil_append, moreDigits?.eq_def]
    split <;> simp_all
  | cons d ds ih =>
    have hd : d.isDigit = true := hds d (by simp)
    have hunder : d ≠ '_' := by
      rintro rfl
      cases hd
    rw [List.cons_append, moreDigits?.eq_def]
    split <;> simp_all

theorem takeDigits?_append (hne : ds ≠ []) (hds : ∀ c ∈ ds, c.isDigit = true)
    (hc : c.isDigit = false) (hunder : c ≠ '_') :
    takeDigits? Char.isDigit (ds ++ c :: s) = some (ds, c :: s) := by
  obtain ⟨d, ds, rfl⟩ := List.exists_cons_of_ne_nil hne
  rw [List.cons_append, takeDigits?, if_pos (hds d (by simp)),
    moreDigits?_append (fun c hc => hds c (by simp [hc])) hc hunder]
  rfl

/-- **The digits of a whole number are taken** up to what is no digit. -/
theorem takeWhole?_append (hw : IsWhole w) (hc : c.isDigit = false) (hunder : c ≠ '_') :
    takeWhole? (w ++ c :: s) = some (w, c :: s) := by
  by_cases hzero : w.head? = some '0'
  · rw [hw.zero hzero]
    rfl
  · rw [takeWhole?.eq_def]
    split
    next heq =>
      obtain ⟨d, w, rfl⟩ := List.exists_cons_of_ne_nil hw.ne_nil
      obtain ⟨rfl, -⟩ := List.cons.inj heq
      exact absurd rfl hzero
    · exact takeDigits?_append hw.ne_nil hw.isDigit hc hunder

/-! ### Numbers are not dates -/

/-- **The end of a whole number**: a point, or the end of the line. -/
def Ends (c : Char) : Prop := c = '.' ∨ c = '\n'

theorem startsDate_of_ends (hw : ∀ d ∈ w, d.isDigit = true) (hc : Ends c) :
    startsDate (w ++ c :: s) = false := by
  have hdigit : c.isDigit = false := by rcases hc with rfl | rfl <;> rfl
  have hhyphen : c ≠ '-' := by rcases hc with rfl | rfl <;> decide
  have hne : ∀ d ∈ w, d ≠ '-' := by
    rintro d hd rfl
    cases hw _ hd
  -- the fifth character is the end, a digit, or comes after the end
  match w with
  | [] | [_] | [_, _] | [_, _, _] => 
    rw [startsDate.eq_def]
    split <;> simp_all
  | [_, _, _, _] | _ :: _ :: _ :: _ :: _ :: _ => 
    rw [startsDate.eq_def]
    split <;> simp_all

theorem startsTime_of_ends (hw : ∀ d ∈ w, d.isDigit = true) (hc : Ends c) :
    startsTime (w ++ c :: s) = false := by
  have hdigit : c.isDigit = false := by rcases hc with rfl | rfl <;> rfl
  have hcolon : c ≠ ':' := by rcases hc with rfl | rfl <;> decide
  have hne : ∀ d ∈ w, d ≠ ':' := by
    rintro d hd rfl
    cases hw _ hd
  match w with
  | [] | [_] | [_, _] | _ :: _ :: _ :: _ => 
    rw [startsTime.eq_def]
    split <;> simp_all

theorem startsDate_of_not_isDigit (hc : c.isDigit = false) : startsDate (c :: s) = false := by
  rw [startsDate.eq_def]
  split <;> simp_all

theorem startsTime_of_not_isDigit (hc : c.isDigit = false) : startsTime (c :: s) = false := by
  rw [startsTime.eq_def]
  split <;> simp_all

theorem takeSign_of_isDigit (hd : d.isDigit = true) : takeSign (d :: s) = (none, d :: s) := by
  rw [takeSign.eq_def]
  split <;> simp_all

theorem takeSpecial?_of_isDigit (hd : d.isDigit = true) (negative : Bool) :
    takeSpecial? negative (d :: s) = none := by
  rw [takeSpecial?.eq_def]
  split <;> simp_all

/-- The second character of a number is no letter of a base. -/
theorem append_ends_ne (hw : ∀ d ∈ w, d.isDigit = true) (hc : Ends c) (hd : d.isDigit = false)
    (hends : ¬Ends d) (t : List Char) : w ++ c :: s ≠ '0' :: d :: t := by
  match w with
  | [] =>
    intro h
    obtain ⟨rfl, -⟩ := List.cons.inj h
    rcases hc with h | h <;> cases h
  | [_] =>
    intro h
    obtain ⟨rfl, -⟩ := List.cons.inj (List.cons.inj h).2
    exact hends hc
  | _ :: e :: _ =>
    intro h
    obtain ⟨rfl, -⟩ := List.cons.inj (List.cons.inj h).2
    exact Bool.false_ne_true (hd.symm.trans (hw e (by simp)))

/-- **A number without a sign** is read as its whole part and what follows. -/
theorem takeNumeric?_unsigned (hw : IsWhole w) (hc : Ends c) :
    takeNumeric? (w ++ c :: s) = takeTail? false w (c :: s) := by
  have hdigit : c.isDigit = false := by rcases hc with rfl | rfl <;> rfl
  have hunder : c ≠ '_' := by rcases hc with rfl | rfl <;> decide
  have htake := takeWhole?_append (s := s) hw hdigit hunder
  have hbase : ∀ d, d.isDigit = false → ¬Ends d → ∀ t, w ++ c :: s ≠ '0' :: d :: t :=
    fun d hd hends => append_ends_ne hw.isDigit hc hd hends
  rw [takeNumeric?, startsDate_of_ends hw.isDigit hc, startsTime_of_ends hw.isDigit hc]
  · obtain ⟨d, w, rfl⟩ := List.exists_cons_of_ne_nil hw.ne_nil
    have hd : d.isDigit = true := hw.isDigit d (by simp)
    rw [List.cons_append] at htake ⊢
    simp only [Bool.false_eq_true, if_false, takeSign_of_isDigit hd, takeSpecial?_of_isDigit hd,
      htake, Option.bind_eq_bind, Option.bind_some, decide_false, reduceCtorEq]
  · exact hbase 'x' rfl (by unfold Ends; decide)
  · exact hbase 'o' rfl (by unfold Ends; decide)
  · exact hbase 'b' rfl (by unfold Ends; decide)

/-- **A number with a minus** is read the same way after it. -/
theorem takeNumeric?_negative (hw : IsWhole w) (hc : Ends c) :
    takeNumeric? ('-' :: (w ++ c :: s)) = takeTail? true w (c :: s) := by
  have hdigit : c.isDigit = false := by rcases hc with rfl | rfl <;> rfl
  have hunder : c ≠ '_' := by rcases hc with rfl | rfl <;> decide
  have htake := takeWhole?_append (s := s) hw hdigit hunder
  rw [takeNumeric?, startsDate_of_not_isDigit rfl, startsTime_of_not_isDigit rfl]
  · obtain ⟨d, w, rfl⟩ := List.exists_cons_of_ne_nil hw.ne_nil
    have hd : d.isDigit = true := hw.isDigit d (by simp)
    rw [List.cons_append] at htake ⊢
    simp only [Bool.false_eq_true, if_false, takeSign, takeSpecial?_of_isDigit hd,
      htake, Option.bind_eq_bind, Option.bind_some, decide_true]
  all_goals
    intro t h
    cases (List.cons.inj h).1

theorem takeTail?_fraction (hne : f ≠ []) (hf : ∀ c ∈ f, c.isDigit = true) (negative : Bool) :
    takeTail? negative w ('.' :: (f ++ '\n' :: s)) =
      (number? negative w f 0).map fun n => (n, '\n' :: s) := by
  rw [takeTail?, takeDigits?_append hne hf rfl (by decide)]
  simp only [Option.bind_eq_bind, Option.bind_some]
  cases number? negative w f 0 <;> rfl

theorem takeTail?_end (negative : Bool) :
    takeTail? negative w ('\n' :: s) =
      (integer? (if negative then -(ofDigits 10 w : ℤ) else ofDigits 10 w)).map fun n =>
        (n, '\n' :: s) := by
  rw [takeTail?]
  · cases integer? _ <;> rfl
  all_goals
    intro t h
    cases (List.cons.inj h).1

/-! ### Numbers in double precision -/

theorem takeScalar?_eq (ht : c ≠ 't') (hf : c ≠ 'f') (hdouble : c ≠ '"') (hsingle : c ≠ '\'') :
    takeScalar? (c :: s) = takeNumeric? (c :: s) := by
  rw [takeScalar?.eq_def]
  split <;> simp_all

theorem takeScalar?_append (hw : ∀ c ∈ w, c.isDigit = true) (hne : w ≠ []) :
    takeScalar? (w ++ s) = takeNumeric? (w ++ s) := by
  obtain ⟨d, w, rfl⟩ := List.exists_cons_of_ne_nil hne
  have hd : d.isDigit = true := hw d (by simp)
  rw [List.cons_append, takeScalar?_eq]
  all_goals
    rintro rfl
    cases hd

variable {v : Float}

/-- **The digits of a number are read as the number.** -/
theorem number?_isPositional (hv : v.isFinite = true) (hp : IsPositional (.ofDouble .up v) w f) :
    number? (isNegativeDouble v) w f 0 = some (.value (.number v)) := by
  have hsize : Decimal.toDouble ⟨ofDigits 10 (w ++ f), 0 - f.length⟩ = v.abs :=
    (Decimal.toDouble_congr hp.value).trans (Decimal.toDouble_ofDouble .up hv)
  have hsigned := Double.withSign_abs v
  rw [number?]
  simp only [hsize]
  split
  next hn =>
    rw [if_pos hn] at hsigned
    rw [hsigned]
  next hn =>
    rw [if_neg hn] at hsigned
    rw [hsigned, Double.not_isInf_of_isFinite hv]
    rfl

/-- What stands for a number without digits is told by its letters. -/
theorem takeNumeric?_of_takeSpecial? {n : Node} {t : List Char} (hc : c.isDigit = false)
    (h : takeSpecial? ((takeSign (c :: s)).1 = some true) (takeSign (c :: s)).2 = some (n, t)) :
    takeNumeric? (c :: s) = some (n, t) := by
  rw [takeNumeric?, startsDate_of_not_isDigit hc, startsTime_of_not_isDigit hc]
  · simp only [Bool.false_eq_true, if_false, h]
  all_goals
    intro t h
    obtain ⟨rfl, -⟩ := List.cons.inj h
    cases hc

theorem takeScalar?_nan :
    takeScalar? ("nan".toList ++ '\n' :: s) = some (.value (.number (0 / 0)), '\n' :: s) :=
  (takeScalar?_eq (by decide) (by decide) (by decide) (by decide)).trans
    (takeNumeric?_of_takeSpecial? rfl rfl)

theorem takeScalar?_infinity (negative : Bool) :
    takeScalar? ((withSign negative "inf").toList ++ '\n' :: s) =
      some (.value (.number (if negative then -(1 / 0) else 1 / 0)), '\n' :: s) := by
  cases negative <;>
  exact (takeScalar?_eq (by decide) (by decide) (by decide) (by decide)).trans
    (takeNumeric?_of_takeSpecial? rfl rfl)

/-- **A finite number is read back**, its sign before its digits. -/
theorem takeScalar?_finite (hv : v.isFinite = true) :
    takeScalar? ((withSign (isNegativeDouble v)
        (Style.toml.writeDecimal (.ofDouble .up v))).toList ++ '\n' :: s) =
      some (.value (.number v), '\n' :: s) := by
  obtain ⟨w, f, hp, htext⟩ := exists_isPositional (d := .ofDouble .up v) Decimal.exponent_ofDouble
  have hnumber := number?_isPositional hv hp
  have hfraction := takeTail?_fraction (w := w) (s := s) hp.fraction_ne_nil hp.fraction
  cases hn : isNegativeDouble v with
  | true =>
    rw [hn] at hnumber
    rw [withSign, if_pos rfl, String.toList_append]
    change takeScalar? ('-' :: ((Style.toml.writeDecimal (.ofDouble .up v)).toList ++ _)) = _
    rw [htext, takeScalar?_eq (by decide) (by decide) (by decide) (by decide), List.append_assoc,
      List.cons_append, takeNumeric?_negative hp.whole (.inl rfl), hfraction, hnumber]
    rfl
  | false =>
    rw [hn] at hnumber
    change takeScalar? ((Style.toml.writeDecimal (.ofDouble .up v)).toList ++ _) = _
    rw [htext, List.append_assoc, takeScalar?_append hp.whole.isDigit hp.whole.ne_nil,
      List.cons_append, takeNumeric?_unsigned hp.whole (.inl rfl), hfraction, hnumber]
    rfl

/-- **A number in double precision is read back**, whatever its size and sign. -/
theorem takeScalar?_double (v : Float) :
    takeScalar? ((Style.toml.double v).toList ++ '\n' :: s) =
      some (.value (.number v), '\n' :: s) := by
  rw [Style.double]
  cases hnan : v.isNaN with
  | true =>
    rw [if_pos rfl, Double.eq_nan hnan]
    exact takeScalar?_nan
  | false =>
    cases hfinite : v.isFinite with
    | true =>
      simp only [Bool.false_eq_true, if_false, if_true]
      exact takeScalar?_finite hfinite
    | false =>
      have hsigned := Double.withSign_abs v
      rw [Double.abs_of_infinite hnan hfinite] at hsigned
      simp only [Bool.false_eq_true, if_false]
      exact (takeScalar?_infinity _).trans (by rw [hsigned])

/-! ### Integers -/

/-- **An integer is read back** if it fits. -/
theorem takeScalar?_integer {n : ℤ} (hn : FitsWord n) :
    takeScalar? ((toString n).toList ++ '\n' :: s) = some (.value (.integer n), '\n' :: s) := by
  have hinteger : integer? n = some (.value (.integer n)) := if_pos hn
  cases n with
  | ofNat m =>
    have htext : (toString (Int.ofNat m)).toList = Nat.toDigits 10 m := Nat.toList_repr
    have hw := isWhole_toDigits m
    rw [htext, takeScalar?_append hw.isDigit hw.ne_nil, takeNumeric?_unsigned hw (.inr rfl),
      takeTail?_end, ofDigits_toDigits]
    exact congrArg (Option.map _) hinteger
  | negSucc m =>
    have htext : (toString (Int.negSucc m)).toList = '-' :: Nat.toDigits 10 (m + 1) := by
      change ("-" ++ (m + 1).repr).toList = _
      rw [String.toList_append, Nat.toList_repr]
      rfl
    have hw := isWhole_toDigits (m + 1)
    rw [htext, List.cons_append, takeScalar?_eq (by decide) (by decide) (by decide) (by decide),
      takeNumeric?_negative hw (.inr rfl), takeTail?_end, ofDigits_toDigits]
    exact congrArg (Option.map _) hinteger

end Moorland.Toml
