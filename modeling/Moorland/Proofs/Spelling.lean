import Mathlib.Data.List.DropRight
import Mathlib.Data.List.Forall2
import Moorland.Preset
import Moorland.Text.LowerCase
/-!
# Spelling

A preset is named by a text in many ways: with white space around it, with capitals, and with
hyphens for underscores. `Moorland.Preset.parses_iff_spelled` says that there are no others: between
the white space stands, for each character of the name, one that **spells** it
(`Moorland.Preset.Spells`), and nothing else.

The text is compared in lower case, and lower case is a matter of all characters. One of them that
is not in ASCII, the Kelvin sign, has a lower case that is, the letter k; one more, the capital I
with a dot, has a lower case that begins with the letter i. The names have no k, and what follows
that i is not in ASCII, so neither can stand in a name (`Moorland.Text.exists_foreign`,
`Moorland.Preset.map_lowerText_eq_iff`). In the same way it does not matter which lower case a
capital sigma has. This is why `Moorland.Text.foldCase`, which changes ASCII letters and the Kelvin
sign only, is as good as the lower case of all characters where a preset is looked up.
-/

namespace Moorland

namespace Text

variable {c : Char}

/-! ### Lower case in and out of ASCII -/

/-- What holds of the characters of all code points below a bound holds of all characters below
it. -/
theorem forall_char_lt {P : Char → Prop} {bound : Nat} (h : ∀ n < bound, P (Char.ofNat n))
    (hc : c.toNat < bound) : P c := by
  have hn := h c.toNat hc
  rwa [Char.ofNat_toNat] at hn

/-- In ASCII only the capitals of the first run have a lower case of their own. -/
theorem lowerCase_eq_ite (hc : c.toNat < 128) :
    lowerCase c =
      [if 0x41 ≤ c.toNat ∧ c.toNat ≤ 0x5A then Char.ofNat (0x61 + (c.toNat - 0x41)) else c] := by
  have hdot : c ≠ '\u0130' := by
    rintro rfl
    exact absurd hc (by decide)
  have hruns : lowerRuns = (0x41, 0x5A, 1, 0x61) :: lowerRuns.tail := rfl
  have hrest : ∀ run ∈ lowerRuns.tail, 128 ≤ run.1 := by decide +kernel
  rw [lowerCase, if_neg hdot, lowerRun?, hruns]
  by_cases h : 0x41 ≤ c.toNat ∧ c.toNat ≤ 0x5A
  · rw [List.find?_cons_of_pos (by simp [h, Nat.mod_one]), if_pos h]
  · rw [List.find?_cons_of_neg (by simpa [Nat.mod_one] using h), if_neg h,
      List.find?_eq_none.mpr fun run hrun => by
        have hfirst := hrest run hrun
        simp only [Bool.and_eq_true, decide_eq_true_eq]
        omega]

theorem lowerCase_of_ascii (hc : c.toNat < 128) : lowerCase c = [c.toLower] := by
  rw [lowerCase_eq_ite hc]
  exact forall_char_lt (P := fun c => [if 0x41 ≤ c.toNat ∧ c.toNat ≤ 0x5A then
    Char.ofNat (0x61 + (c.toNat - 0x41)) else c] = [c.toLower]) (by decide) hc

theorem lowerCase_kelvin : lowerCase '\u212A' = ['k'] := by decide

/-- **A run of lower case stays out of ASCII and in the code points**, but for the capitals of ASCII
and the Kelvin sign. -/
def RunsAbroad : Nat × Nat × Nat × Nat → Prop
  | (first, last, _, lower) =>
    last < 128 ∨ first = 0x212A ∧ last = 0x212A ∨
      128 ≤ lower ∧ (lower + (last - first) < 0xD800 ∨
        0xDFFF < lower ∧ lower + (last - first) < 0x110000)

theorem runsAbroad_of_mem : ∀ run ∈ lowerRuns, RunsAbroad run := by
  unfold RunsAbroad
  decide +kernel

theorem toNat_ofNat_of_lt {n : Nat} (h : n < 0xD800 ∨ 0xDFFF < n ∧ n < 0x110000) :
    (Char.ofNat n).toNat = n := by
  have hn : n.isValidChar := h
  rw [Char.ofNat, dif_pos hn]
  rfl

/-- **The lower case of a character that is not in ASCII is not in ASCII either**, unless the
character is the Kelvin sign. -/
theorem exists_foreign (hc : 128 ≤ c.toNat) (hkelvin : c ≠ '\u212A') :
    ∃ d ∈ lowerCase c, 128 ≤ d.toNat := by
  rw [lowerCase]
  by_cases hi : c = '\u0130'
  · rw [if_pos hi]
    exact ⟨'\u0307', by simp, by decide⟩
  · rw [if_neg hi]
    rcases hrun : lowerRun? c with _ | ⟨first, last, stride, lower⟩
    · exact ⟨c, List.mem_singleton_self c, hc⟩
    · have hmem := List.mem_of_find?_eq_some hrun
      have hfound := List.find?_some hrun
      simp only [Bool.and_eq_true, decide_eq_true_eq] at hfound
      obtain ⟨⟨hfirst, hlast⟩, -⟩ := hfound
      refine ⟨_, List.mem_singleton_self _, ?_⟩
      obtain h | ⟨h, h'⟩ | ⟨hlower, hrange⟩ := runsAbroad_of_mem _ hmem
      · omega
      · have hcode : c.toNat = 0x212A := by omega
        exact absurd (Char.toNat_inj.mp hcode) hkelvin
      · rw [toNat_ofNat_of_lt (by omega)]
        omega

/-- **A character whose lower case is in ASCII**: one of ASCII, or the Kelvin sign. -/
def IsPlain (c : Char) : Prop := c.toNat < 128 ∨ c = '\u212A'

instance (c : Char) : Decidable (IsPlain c) :=
  inferInstanceAs (Decidable (c.toNat < 128 ∨ c = '\u212A'))

variable {isFinal : List Char → List Char → Bool} {before after : List Char}

theorem IsPlain.lowerCaseIn_eq (hc : IsPlain c) :
    lowerCaseIn isFinal before c after = [foldCase c] := by
  have hsigma : c ≠ '\u03A3' := by
    rintro rfl
    exact absurd hc (by decide)
  rw [lowerCaseIn, if_neg fun h => hsigma h.1, foldCase]
  obtain hc | rfl := hc
  · rw [lowerCase_of_ascii hc, if_neg]
    rintro rfl
    exact absurd hc (by decide)
  · exact lowerCase_kelvin

theorem exists_foreign_of_not_isPlain (hc : ¬IsPlain c) :
    ∃ d ∈ lowerCaseIn isFinal before c after, 128 ≤ d.toNat := by
  obtain ⟨hascii, hkelvin⟩ := not_or.mp hc
  rw [lowerCaseIn]
  split
  · exact ⟨'\u03C2', List.mem_singleton_self _, by decide⟩
  · exact exists_foreign (Nat.le_of_not_lt hascii) hkelvin

/-! ### White space -/

/-- Nothing is dropped from the start of a list of which no member is to be dropped. -/
theorem dropWhile_eq_self {p : Char → Bool} {s : List Char} (hs : ∀ c ∈ s, p c = false) :
    s.dropWhile p = s :=
  List.dropWhile_eq_self_iff.mpr fun _ hp => by simp [hs _ (List.getElem_mem _)] at hp

/-- **A text without white space is what is left** when white space is put around it and taken away
again. -/
theorem trim_append {before body after : List Char} (hbefore : ∀ c ∈ before, isWhiteSpace c)
    (hbody : ∀ c ∈ body, isWhiteSpace c = false) (hafter : ∀ c ∈ after, isWhiteSpace c) :
    trim (before ++ body ++ after) = body := by
  rcases body with _ | ⟨c, rest⟩
  · have hall : ∀ c ∈ before ++ [] ++ after, isWhiteSpace c := fun c hc => by
      rw [List.append_nil] at hc
      exact (List.mem_append.mp hc).elim (hbefore c) (hafter c)
    rw [trim, List.dropWhile_eq_nil_iff.mpr hall]
    rfl
  · have hstart : (before ++ (c :: rest) ++ after).dropWhile isWhiteSpace = c :: rest ++ after := by
      rw [List.append_assoc, List.dropWhile_append_of_pos hbefore, List.cons_append,
        List.dropWhile_cons_of_neg (by simp [hbody c List.mem_cons_self])]
    rw [trim, hstart, trimEnd, List.reverse_append,
      List.dropWhile_append_of_pos fun d hd => hafter d (List.mem_reverse.mp hd),
      dropWhile_eq_self fun d hd => hbody d (List.mem_reverse.mp hd), List.reverse_reverse]

/-- **Only white space is taken away.** -/
theorem exists_trim (s : List Char) : ∃ before after, s = before ++ trim s ++ after ∧
    (∀ c ∈ before, isWhiteSpace c) ∧ ∀ c ∈ after, isWhiteSpace c := by
  refine ⟨s.takeWhile isWhiteSpace, (s.dropWhile isWhiteSpace).rtakeWhile isWhiteSpace, ?_,
    fun c hc => List.mem_takeWhile_imp hc, fun c hc => List.mem_rtakeWhile_imp hc⟩
  have hend : trim s ++ (s.dropWhile isWhiteSpace).rtakeWhile isWhiteSpace =
      s.dropWhile isWhiteSpace := List.rdropWhile_append_rtakeWhile
  rw [List.append_assoc, hend, List.takeWhile_append_dropWhile]

end Text

namespace Preset

open Text

/-! ### Spelling a name -/

/-- **A character spells a character of a name** if the two differ in the case of an ASCII letter at
most, or if it is a hyphen where the name has an underscore. -/
def Spells (c a : Char) : Prop := c.toLower = a.toLower ∨ c = '-' ∧ a = '_'

instance (c a : Char) : Decidable (Spells c a) :=
  inferInstanceAs (Decidable (c.toLower = a.toLower ∨ c = '-' ∧ a = '_'))

/-- An underscore for a hyphen. -/
def underscored (c : Char) : Char := if c = '-' then '_' else c

/-- **The text without white space around it, in lower case, and with underscores for hyphens**. It
is the lower case of all characters, by a rule for the final sigma. -/
def lowered (isFinal : List Char → List Char → Bool) (text : String) : List Char :=
  (lowerText isFinal [] (trim text.toList)).map underscored

/-- **A character that can stand in a name**: one of ASCII that is in lower case, but no k, no
hyphen and no white space. -/
def IsNameChar (a : Char) : Prop :=
  a.toNat < 128 ∧ a.toLower = a ∧ a ≠ 'k' ∧ a ≠ '-' ∧ isWhiteSpace a = false

instance (a : Char) : Decidable (IsNameChar a) :=
  inferInstanceAs (Decidable (a.toNat < 128 ∧ a.toLower = a ∧ a ≠ 'k' ∧ a ≠ '-' ∧
    isWhiteSpace a = false))

theorem isNameChar_of_mem_name (p : Preset) : ∀ a ∈ p.name.toList, IsNameChar a := by
  have hall : (p.name.toList.all fun a => decide (IsNameChar a)) = true := by
    cases p <;> decide
  exact fun a ha => of_decide_eq_true (List.all_eq_true.mp hall a ha)

variable {c a : Char}

/-- The letters of ASCII only have a lower case in ASCII. -/
theorem toLower_eq_self (hc : 128 ≤ c.toNat) : c.toLower = c := by
  refine dif_neg ?_
  rintro ⟨-, hz⟩
  have hcode : c.toNat ≤ 'Z'.toNat := hz
  exact absurd (Nat.le_trans hc hcode) (by decide)

/-- Only a hyphen has a hyphen for its lower case. -/
theorem eq_hyphen_of_toLower (h : c.toLower = '-') : c = '-' := by
  by_cases hc : c.toNat < 128
  · exact forall_char_lt (P := fun c => c.toLower = '-' → c = '-') (by decide) hc h
  · rwa [toLower_eq_self (Nat.le_of_not_lt hc)] at h

/-- **A character that is not in ASCII** spells nothing in a name. -/
theorem IsNameChar.not_spells (ha : IsNameChar a) (hc : 128 ≤ c.toNat) : ¬Spells c a := by
  obtain ⟨hascii, hlower, -⟩ := ha
  rintro (h | ⟨rfl, -⟩)
  · rw [hlower, toLower_eq_self hc] at h
    rw [h] at hc
    exact absurd hascii (Nat.not_lt_of_le hc)
  · exact absurd hc (by decide)

theorem underscored_foldCase (c : Char) :
    underscored (foldCase c) = if c = '-' then '_' else foldCase c := by
  by_cases hc : c = '-'
  · subst hc
    rfl
  · have hfolded : foldCase c ≠ '-' := by
      rw [foldCase]
      split
      · decide
      · exact mt eq_hyphen_of_toLower hc
    rw [if_neg hc, underscored, if_neg hfolded]

/-- **What spells a character of a name** is what becomes that character when case and hyphens are
taken away. -/
theorem IsNameChar.underscored_foldCase_eq_iff (ha : IsNameChar a) :
    underscored (foldCase c) = a ↔ Spells c a := by
  obtain ⟨-, hlower, hk, hhyphen, -⟩ := id ha
  rw [underscored_foldCase]
  by_cases hc : c = '-'
  · subst hc
    refine ⟨fun h => .inr ⟨rfl, h.symm⟩, ?_⟩
    rintro (h | ⟨-, h⟩)
    · exact absurd (h.trans hlower).symm hhyphen
    · exact h.symm
  · rw [if_neg hc, foldCase]
    by_cases hkelvin : c = '\u212A'
    · -- its lower case is the letter that is in no name
      subst hkelvin
      exact ⟨fun h => absurd h.symm hk, fun h => absurd h (ha.not_spells (by decide))⟩
    · rw [if_neg hkelvin, Spells, hlower]
      exact ⟨.inl, fun h => h.elim id fun h => absurd h.1 hc⟩

variable {name body : List Char}

/-- **Spelled by the shorter lower case**: a text becomes a name when each of its characters is
changed by itself exactly if it spells the name. -/
theorem map_foldCase_eq_iff (hname : ∀ a ∈ name, IsNameChar a) :
    (body.map fun c => underscored (foldCase c)) = name ↔ List.Forall₂ Spells body name := by
  induction body generalizing name with
  | nil => rw [List.map_nil, List.forall₂_nil_left_iff, eq_comm]
  | cons c body ih =>
    rcases name with _ | ⟨a, name⟩
    · exact ⟨nofun, nofun⟩
    · rw [List.map_cons, List.cons.injEq, List.forall₂_cons,
        (hname a List.mem_cons_self).underscored_foldCase_eq_iff,
        ih fun a ha => hname a (List.mem_cons_of_mem _ ha)]

/-- **Spelled by lower case**: a text becomes a name in lower case exactly if it spells the name. -/
theorem map_lowerText_eq_iff {isFinal : List Char → List Char → Bool} {before : List Char}
    (hname : ∀ a ∈ name, IsNameChar a) :
    (lowerText isFinal before body).map underscored = name ↔ List.Forall₂ Spells body name := by
  induction body generalizing name before with
  | nil => rw [lowerText, List.map_nil, List.forall₂_nil_left_iff, eq_comm]
  | cons c body ih =>
    rw [lowerText, List.map_append]
    by_cases hc : IsPlain c
    · rw [hc.lowerCaseIn_eq]
      rcases name with _ | ⟨a, name⟩
      · exact ⟨nofun, nofun⟩
      · rw [List.map_cons, List.map_nil, List.cons_append, List.nil_append, List.cons.injEq,
          List.forall₂_cons, (hname a List.mem_cons_self).underscored_foldCase_eq_iff,
          ih fun a ha => hname a (List.mem_cons_of_mem _ ha)]
    · -- what the character becomes is not all in ASCII, and neither is the character
      refine ⟨fun h => ?_, fun h => ?_⟩
      · obtain ⟨d, hd, hforeign⟩ : ∃ d ∈ lowerCaseIn isFinal before c body, 128 ≤ d.toNat :=
          exists_foreign_of_not_isPlain hc
        have hkept : underscored d = d := if_neg fun he => by
          subst he
          exact absurd hforeign (by decide)
        have hmem : d ∈ name := by
          rw [← h, ← hkept]
          exact List.mem_append_left _ (List.mem_map_of_mem hd)
        exact absurd (hname d hmem).1 (Nat.not_lt_of_le hforeign)
      · rcases h with _ | ⟨hspells, -⟩
        exact absurd hspells ((hname _ List.mem_cons_self).not_spells
          (Nat.le_of_not_lt fun h => hc (.inl h)))

/-! ### Reading a name -/

/-- **Looking a name up** finds the preset whose name it is. -/
theorem find?_name_eq_some_iff {p : Preset} :
    (all.find? fun p => p.name.toList = name) = some p ↔ p.name.toList = name := by
  constructor
  · intro h
    simpa using List.find?_some h
  · rintro rfl
    have hname : (fun q : Preset => decide (q.name.toList = p.name.toList)) =
        fun q => decide (q.name = p.name) :=
      funext fun q => decide_eq_decide.mpr String.toList_inj
    rw [hname]
    exact ofName?_name p

theorem parse?_eq_some_iff {text : String} {p : Preset} :
    parse? text = some p ↔ List.Forall₂ Spells (trim text.toList) p.name.toList := by
  have hfolded : (fun c => if c = '-' then '_' else foldCase c) =
      fun c => underscored (foldCase c) := funext fun c => (underscored_foldCase c).symm
  rw [parse?, find?_name_eq_some_iff, normalized, hfolded, eq_comm,
    map_foldCase_eq_iff p.isNameChar_of_mem_name]

theorem find?_lowered_eq_some_iff {isFinal : List Char → List Char → Bool} {text : String}
    {p : Preset} : (all.find? fun p => p.name.toList = lowered isFinal text) = some p ↔
      List.Forall₂ Spells (trim text.toList) p.name.toList := by
  rw [find?_name_eq_some_iff, lowered, eq_comm, map_lowerText_eq_iff p.isNameChar_of_mem_name]

/-- What spells a character of a name is in ASCII, and is no white space. -/
theorem IsNameChar.plain_of_spells (ha : IsNameChar a) (h : Spells c a) :
    c.toNat < 128 ∧ isWhiteSpace c = false := by
  have hascii : c.toNat < 128 := Nat.lt_of_not_le fun hc => ha.not_spells hc h
  refine ⟨hascii, ?_⟩
  obtain ⟨-, hlower, -, -, hblank⟩ := ha
  obtain h | ⟨rfl, -⟩ := h
  · have hfolded : isWhiteSpace c.toLower = isWhiteSpace c :=
      forall_char_lt (P := fun c => isWhiteSpace c.toLower = isWhiteSpace c) (by decide) hascii
    rw [← hfolded, h, hlower, hblank]
  · rfl

/-- **What spells a name** is in ASCII all through, and there is no white space in it. -/
theorem plain_of_spells (hname : ∀ a ∈ name, IsNameChar a) (h : List.Forall₂ Spells body name) :
    ∀ c ∈ body, c.toNat < 128 ∧ isWhiteSpace c = false := by
  induction h with
  | nil => exact nofun
  | cons hc _ ih =>
    exact List.forall_mem_cons.mpr ⟨(hname _ List.mem_cons_self).plain_of_spells hc,
      ih fun a ha => hname a (List.mem_cons_of_mem _ ha)⟩

/-- **The texts that name a preset.** A text names a preset exactly if what stands between the white
space at its ends spells the name of the preset, character by character, so that it names one preset
at most and is all in ASCII there. Whatever rule decides on the final sigma, this is what comes of
comparing names with the lower case of all characters. -/
theorem parses_iff_spelled (text : String) :
    (∀ isFinal, parse? text = all.find? fun p => p.name.toList = lowered isFinal text) ∧
      (∀ p, parse? text = some p ↔ List.Forall₂ Spells (trim text.toList) p.name.toList) ∧
      (∀ p, parse? text = some p ↔ ∃ before body after, text.toList = before ++ body ++ after ∧
        (∀ c ∈ before, isWhiteSpace c) ∧ (∀ c ∈ after, isWhiteSpace c) ∧
        List.Forall₂ Spells body p.name.toList) ∧
      (∀ p q : Preset, List.Forall₂ Spells (trim text.toList) p.name.toList →
        List.Forall₂ Spells (trim text.toList) q.name.toList → p = q) ∧
      ∀ p, parse? text = some p → ∀ c ∈ trim text.toList, c.toNat < 128 := by
  refine ⟨fun isFinal => Option.ext fun p => ?_, fun p => parse?_eq_some_iff, fun p => ?_,
    fun p q hp hq => ?_, fun p hp c hc => ?_⟩
  · rw [parse?_eq_some_iff, find?_lowered_eq_some_iff]
  · rw [parse?_eq_some_iff]
    constructor
    · intro h
      obtain ⟨before, after, htext, hbefore, hafter⟩ := exists_trim text.toList
      exact ⟨before, _, after, htext, hbefore, hafter, h⟩
    · rintro ⟨before, body, after, htext, hbefore, hafter, h⟩
      have hblank := fun c hc => (plain_of_spells p.isNameChar_of_mem_name h c hc).2
      rwa [htext, trim_append hbefore hblank hafter]
  · have hfound := parse?_eq_some_iff.mpr hp
    rw [parse?_eq_some_iff.mpr hq] at hfound
    exact (Option.some.inj hfound).symm
  · exact (plain_of_spells p.isNameChar_of_mem_name (parse?_eq_some_iff.mp hp) c hc).1

/-- **A decorated name**, between an ideographic space and a line feed, and a name that a capital I
with a dot keeps from being one: in lower case it is the letter i, and a dot. -/
theorem parses_iff_spelled_decorated :
    parse? "\u3000Game-OF_life\n" = some gameOfLife ∧
      ∀ isFinal, (all.find? fun p => p.name.toList = lowered isFinal "TR\u0130P") = none := by
  have hspelled : List.Forall₂ Spells (trim "\u3000Game-OF_life\n".toList)
      gameOfLife.name.toList := by decide
  refine ⟨((parses_iff_spelled _).2.1 gameOfLife).mpr hspelled, fun isFinal => ?_⟩
  rw [← (parses_iff_spelled "TR\u0130P").1 isFinal]
  decide

end Preset

end Moorland
