import Moorland.Proofs.Decimal.Pointed
import Moorland.Proofs.Simulation.Course
/-!
# Fingerprints

The text of which a fingerprint is the digest is a **form** filled with the words of a configuration
(`Moorland.Configuration.words`). No word has a comma or a blank in it, and each piece of the form
that follows a word begins with one of the two, so that the words are found again in the text
(`Moorland.fill_inj`). Each word in turn tells the value that it describes.

A fingerprint therefore tells apart whatever might behave differently: if the digested bytes of two
configurations are the same, these are equal but for the interval of the summaries, and their runs
are the same (`Moorland.Configuration.runs_of_fingerprintText`). It tells apart more than that. The
pair beside a preset is described too, although nothing depends on it, and so is the preset where
the pair says the same (`Moorland.Configuration.fingerprintText_of_resolve`).
-/

namespace Moorland

/-! ### Forms -/

/-- **A character that ends a word** of a description: a comma or a blank. -/
def isGap (c : Char) : Bool := c == ',' || c == ' '

/-- **A word**: a text without a gap. -/
def IsWord (text : String) : Prop := ∀ c ∈ text.toList, isGap c = false

instance (text : String) : Decidable (IsWord text) :=
  decidable_of_iff (text.toList.all fun c => !isGap c) (by simp [IsWord])

/-- **A form filled in**: after each of its pieces of text, a word. -/
def fill : (form : List String) → (words : List String) → List Char
  | piece :: form, word :: words => piece.toList ++ (word.toList ++ fill form words)
  | _, _ => []

/-- **The words are found again in a form that is filled in**, if none of them has a gap in it and
all pieces of the form but the first begin with one. -/
theorem fill_inj {form ws vs : List String}
    (hform : ∀ piece ∈ form.tail, ∃ c t, piece.toList = c :: t ∧ isGap c = true)
    (hws : ∀ w ∈ ws, IsWord w) (hvs : ∀ v ∈ vs, IsWord v) (hwl : ws.length = form.length)
    (hvl : vs.length = form.length) (h : fill form ws = fill form vs) : ws = vs := by
  induction form generalizing ws vs with
  | nil =>
    rw [List.length_eq_zero_iff.mp hwl, List.length_eq_zero_iff.mp hvl]
  | cons piece form ih =>
    obtain ⟨w, ws, rfl⟩ := List.exists_cons_of_length_eq_add_one hwl
    obtain ⟨v, vs, rfl⟩ := List.exists_cons_of_length_eq_add_one hvl
    -- what follows a word begins with a gap, unless the form ends there
    have hnext : ∀ us, ∀ c ∈ (fill form us).head?, isGap c = true := by
      intro us c hc
      cases form with
      | nil => cases hc
      | cons next form =>
        cases us with
        | nil => cases hc
        | cons u us =>
          obtain ⟨d, t, hd, hgap⟩ := hform next List.mem_cons_self
          rw [fill, hd] at hc
          cases hc
          exact hgap
    obtain ⟨hword, hrest⟩ := append_inj_of_stops (hws w List.mem_cons_self)
      (hvs v List.mem_cons_self) (hnext ws) (hnext vs) (List.append_cancel_left h)
    rw [String.toList_inj.mp hword, ih (fun p hp => hform p (List.mem_of_mem_tail hp))
      (fun w hw => hws w (List.mem_cons_of_mem _ hw))
      (fun v hv => hvs v (List.mem_cons_of_mem _ hv)) (Nat.succ.inj hwl) (Nat.succ.inj hvl) hrest]

/-! ### Words -/

theorem isGap_of_isNumeral {c : Char} (hc : Written.isNumeral c = true) : isGap c = false := by
  rw [isGap, Bool.or_eq_false_iff, beq_eq_false_iff_ne, beq_eq_false_iff_ne]
  constructor
  · rintro rfl
    cases hc
  · rintro rfl
    cases hc

theorem isWord_pointed_single (v : Float32) : IsWord (Style.pointed.single v) :=
  fun c hc => isGap_of_isNumeral (Style.isNumeral_pointed_single v c hc)

theorem isWord_toString (n : ℕ) : IsWord (toString n) :=
  fun c hc => isGap_of_isNumeral (Written.isNumeral_toString n c hc)

theorem isWord_append {s t : String} (hs : IsWord s) (ht : IsWord t) : IsWord (s ++ t) := by
  intro c hc
  rw [String.toList_append] at hc
  rcases List.mem_append.mp hc with hc | hc
  · exact hs c hc
  · exact ht c hc

theorem isWord_describeOption {text : Option String} (h : ∀ t ∈ text, IsWord t) :
    IsWord (describeOption text) := by
  cases text with
  | none => decide
  | some t => exact isWord_append (isWord_append (by decide) (h t rfl)) (by decide)

theorem BufferMode.isWord_label (m : BufferMode) : IsWord m.label := by cases m <;> decide

theorem StampMode.isWord_label (m : StampMode) : IsWord m.label := by cases m <;> decide

theorem Preset.isWord_label (p : Preset) : IsWord p.label := by cases p <;> decide

theorem BufferMode.label_inj {m n : BufferMode} (h : m.label = n.label) : m = n := by
  cases m <;> cases n <;> first | rfl | exact absurd h (by decide)

theorem StampMode.label_inj {m n : StampMode} (h : m.label = n.label) : m = n := by
  cases m <;> cases n <;> first | rfl | exact absurd h (by decide)

theorem Preset.label_inj {p q : Preset} (h : p.label = q.label) : p = q := by
  cases p <;> cases q <;> first | rfl | exact absurd h (by decide)

theorem describeOption_inj {s t : Option String} (h : describeOption s = describeOption t) :
    s = t := by
  have hnone : ∀ u : String, describeOption none ≠ describeOption (some u) := by
    intro u hu
    have hfirst := congrArg (fun t => t.toList.head?) hu
    simp [describeOption] at hfirst
  cases s with
  | none =>
    cases t with
    | none => rfl
    | some t => exact absurd h (hnone t)
  | some s =>
    cases t with
    | none => exact absurd h.symm (hnone s)
    | some t =>
      have htext := congrArg String.toList h
      simp only [describeOption, String.toList_append, List.append_assoc] at htext
      rw [String.toList_inj.mp (List.append_cancel_right (List.append_cancel_left htext))]

/-! ### The text of a fingerprint -/

namespace Configuration

/-- **The form of the fingerprint text.** -/
def fingerprintForm : List String :=
  ["GridConfig \x7b width: ", ", height: ", ", buffering: ", ", stamp_mode: ",
    " \x7d" ++ "ThresholdConfig \x7b under: ", ", over: ", ", preset: ",
    " \x7d" ++ "Intensity \x7b red: ", ", green: ", ", blue: ", " \x7d"]

/-- **The words of a configuration** that the form is filled with. -/
def words (c : Configuration) : List String :=
  [toString c.grid.width, toString c.grid.height, c.grid.buffering.label, c.grid.stampMode.label,
    Style.pointed.single c.thresholds.lower, Style.pointed.single c.thresholds.upper,
    describeOption (c.thresholds.preset.map Preset.label), Style.pointed.single c.init.red,
    Style.pointed.single c.init.green, Style.pointed.single c.init.blue,
    describeOption (c.seed.map fun n => toString n.toNat)]

variable {c d : Configuration}

theorem toList_fingerprintText (c : Configuration) :
    c.fingerprintText.toList = fill fingerprintForm c.words := by
  delta fingerprintText GridSection.describe ThresholdSection.describe Intensity.describe
    fingerprintForm words
  simp only [-String.reduceAppend, fill, String.toList_append, List.append_assoc, List.append_nil]

theorem isWord_words (c : Configuration) : ∀ w ∈ c.words, IsWord w := by
  have hpreset : IsWord (describeOption (c.thresholds.preset.map Preset.label)) := by
    refine isWord_describeOption fun t ht => ?_
    obtain ⟨p, -, rfl⟩ := Option.map_eq_some_iff.mp ht
    exact p.isWord_label
  have hseed : IsWord (describeOption (c.seed.map fun n => toString n.toNat)) := by
    refine isWord_describeOption fun t ht => ?_
    obtain ⟨n, -, rfl⟩ := Option.map_eq_some_iff.mp ht
    exact isWord_toString n.toNat
  simp only [words, List.forall_mem_cons, List.not_mem_nil, IsEmpty.forall_iff, implies_true,
    and_true]
  exact ⟨isWord_toString _, isWord_toString _, c.grid.buffering.isWord_label,
    c.grid.stampMode.isWord_label, isWord_pointed_single _, isWord_pointed_single _, hpreset,
    isWord_pointed_single _, isWord_pointed_single _, isWord_pointed_single _, hseed⟩

/-- **The words tell everything but the interval of the summaries.** -/
theorem words_inj (h : c.words = d.words) :
    c.grid = d.grid ∧ c.thresholds = d.thresholds ∧ c.init = d.init ∧ c.seed = d.seed := by
  simp only [words, List.cons.injEq, and_true] at h
  obtain ⟨hwidth, hheight, hmode, hstamp, hlower, hupper, hpreset, hred, hgreen, hblue, hseed⟩ := h
  have hgrid : c.grid = d.grid := by
    rw [GridSection.mk.injEq]
    exact ⟨Nat.repr_inj.mp hwidth, Nat.repr_inj.mp hheight, BufferMode.label_inj hmode,
      StampMode.label_inj hstamp⟩
  have hthresholds : c.thresholds = d.thresholds := by
    rw [ThresholdSection.mk.injEq]
    exact ⟨Style.pointed_single_inj hlower, Style.pointed_single_inj hupper,
      Option.map_injective (fun _ _ => Preset.label_inj) (describeOption_inj hpreset)⟩
  have hinit : c.init = d.init := by
    rw [Intensity.mk.injEq]
    exact ⟨Style.pointed_single_inj hred, Style.pointed_single_inj hgreen,
      Style.pointed_single_inj hblue⟩
  exact ⟨hgrid, hthresholds, hinit, Option.map_injective
    (fun _ _ h => UInt64.toNat_inj.mp (Nat.repr_inj.mp h)) (describeOption_inj hseed)⟩

/-- All pieces of the form but the first begin with a gap. -/
theorem isGap_of_mem_tail : ∀ piece ∈ fingerprintForm.tail, ∃ c t,
    piece.toList = c :: t ∧ isGap c = true := by
  have hall : fingerprintForm.tail.all fun piece => piece.toList.head?.any isGap := by
    decide
  intro piece hpiece
  have hany := List.all_eq_true.mp hall piece hpiece
  cases htext : piece.toList with
  | nil =>
    rw [htext] at hany
    cases hany
  | cons c t =>
    rw [htext] at hany
    exact ⟨c, t, rfl, hany⟩

/-- **The text of a fingerprint tells everything but the interval of the summaries.** -/
theorem fingerprintText_eq_iff :
    c.fingerprintText = d.fingerprintText ↔
      c.grid = d.grid ∧ c.thresholds = d.thresholds ∧ c.init = d.init ∧ c.seed = d.seed := by
  constructor
  · intro h
    have htext : fill fingerprintForm c.words = fill fingerprintForm d.words := by
      rw [← toList_fingerprintText, ← toList_fingerprintText, h]
    exact words_inj
      (fill_inj isGap_of_mem_tail c.isWord_words d.isWord_words rfl rfl htext)
  · rintro ⟨hg, ht, hi, hs⟩
    rw [fingerprintText, fingerprintText, hg, ht, hi, hs]

theorem toUTF8_fingerprintText_eq_iff :
    c.fingerprintText.toUTF8 = d.fingerprintText.toUTF8 ↔
      c.grid = d.grid ∧ c.thresholds = d.thresholds ∧ c.init = d.init ∧ c.seed = d.seed :=
  String.toByteArray_inj.trans fingerprintText_eq_iff

/-! ### What a fingerprint tells -/

/-- Sections that resolve alike are equal if they have the same preset and, with one, the same pair
beside it. -/
theorem thresholds_eq_of_resolve (hc : c.fault? = none)
    (hresolve : c.thresholds.resolve = d.thresholds.resolve)
    (hpreset : c.thresholds.preset = d.thresholds.preset)
    (hpair : c.thresholds.preset.isSome →
      c.thresholds.lower = d.thresholds.lower ∧ c.thresholds.upper = d.thresholds.upper) :
    c.thresholds = d.thresholds := by
  obtain ⟨-, -, ⟨thresholds, ht⟩, -⟩ := fault?_eq_none_iff.mp hc
  rw [ThresholdSection.mk.injEq]
  cases hp : c.thresholds.preset with
  | some p =>
    obtain ⟨hlower, hupper⟩ := hpair (hp ▸ rfl)
    exact ⟨hlower, hupper, hp.symm.trans hpreset⟩
  | none =>
    -- without a preset the pair is what is resolved
    have hd := hresolve.symm.trans ht
    rw [ThresholdSection.resolve, hp] at ht
    rw [ThresholdSection.resolve, ← hpreset, hp] at hd
    obtain ⟨-, rfl⟩ := Thresholds.check_eq_ok_iff.mp ht
    obtain ⟨-, heq⟩ := Thresholds.check_eq_ok_iff.mp hd
    obtain ⟨hlower, hupper⟩ := Thresholds.mk.inj heq
    exact ⟨hlower.symm, hupper.symm, hp.symm.trans hpreset⟩

/-- **Configurations that look alike run alike.** Two configurations without a fault, with one grid
section, one seed and the same resolved thresholds, are both set up, and if both are seeded with one
intensity and then given the same commands, each command is answered alike and leaves the same
grids, whatever the intervals of the summaries and the journals are. -/
theorem exists_sameCourse (hc : c.check = .ok c) (hd : d.check = .ok d) (hgrid : c.grid = d.grid)
    (hresolve : c.thresholds.resolve = d.thresholds.resolve) (hseed : c.seed = d.seed)
    {e f : Stream} (hdrawn : c.seed = none → e = f) (j k : Journal) (i : Intensity) :
    ∃ s t, Simulation.ofConfiguration e j c = .ok s ∧ Simulation.ofConfiguration f k d = .ok t ∧
      ∀ commands : List Simulation.Command,
        s.course (.randomize i :: commands) = t.course (.randomize i :: commands) ∧
          (s.run (.randomize i :: commands)).SameCourse (t.run (.randomize i :: commands)) := by
  obtain ⟨s, hs, -⟩ := Simulation.exists_ofConfiguration (check_eq_ok_iff.mp hc).1 e j
  obtain ⟨t, ht, -⟩ := Simulation.exists_ofConfiguration (check_eq_ok_iff.mp hd).1 f k
  have hcourse := Simulation.sameCourse_of_ofConfiguration hgrid hresolve hseed hdrawn hs ht
  exact ⟨s, t, hs, ht, fun commands => hcourse.course_eq _⟩

/-- **A fingerprint tells apart whatever can behave differently.** If the bytes that are digested
for two configurations are the same, their grid sections are equal, their thresholds with the
preset, their intensities and their seeds, to the last bit of each number. If moreover they have a
seed and no fault, both are set up, whatever streams and journals are given, and once seeded with
the intensities of their configurations they answer any list of commands alike, with the same grids
after each; the interval of the summaries has no influence. -/
theorem runs_of_fingerprintText (h : c.fingerprintText.toUTF8 = d.fingerprintText.toUTF8) :
    (c.grid = d.grid ∧ c.thresholds = d.thresholds ∧ c.init = d.init ∧ c.seed = d.seed) ∧
      (c.check = .ok c → d.check = .ok d → c.seed.isSome → ∀ e f j k, ∃ s t,
        Simulation.ofConfiguration e j c = .ok s ∧ Simulation.ofConfiguration f k d = .ok t ∧
          ∀ commands : List Simulation.Command,
            s.course (.randomize c.init :: commands) = t.course (.randomize d.init :: commands) ∧
              (s.run (.randomize c.init :: commands)).SameCourse
                (t.run (.randomize d.init :: commands))) := by
  have hequal := toUTF8_fingerprintText_eq_iff.mp h
  refine ⟨hequal, fun hc hd hsome e f j k => ?_⟩
  obtain ⟨hgrid, hthresholds, hinit, hseed⟩ := hequal
  rw [← hinit]
  refine exists_sameCourse hc hd hgrid (congrArg _ hthresholds) hseed (fun hnone => ?_) j k c.init
  rw [hnone] at hsome
  cases hsome

/-- Two configurations that differ in the interval of their summaries only, run with different
streams and journals. -/
theorem runs_of_fingerprintText_other_interval :
    let c : Configuration := { Configuration.standard with seed := some 5 }
    let d : Configuration := { c with logInterval := 1 }
    c ≠ d ∧ ∃ s t, Simulation.ofConfiguration (.ofSeed 7) .off c = .ok s ∧
      Simulation.ofConfiguration (.ofSeed 8) .off d = .ok t ∧
        ∀ commands, s.course (.randomize c.init :: commands) =
          t.course (.randomize d.init :: commands) := by
  intro c d
  have hc : c.check = .ok c := check_eq_ok_iff.mpr ⟨by decide, rfl⟩
  have hd : d.check = .ok d := check_eq_ok_iff.mpr ⟨by decide, rfl⟩
  obtain ⟨-, hruns⟩ := runs_of_fingerprintText (c := c) (d := d)
    (toUTF8_fingerprintText_eq_iff.mpr ⟨rfl, rfl, rfl, rfl⟩)
  obtain ⟨s, t, hs, ht, hcourse⟩ := hruns hc hd rfl (.ofSeed 7) (.ofSeed 8) .off .off
  exact ⟨by decide, s, t, hs, ht, fun commands => (hcourse commands).1⟩

/-- **A fingerprint tells apart more than what can behave differently.** Two configurations without
a fault that agree in the grid section, the intensity, the seed and the resolved thresholds run
alike. The bytes that are digested for them are the same exactly if they have the same preset, or
none, and with a preset the same pair beside it. Only without a preset does the pair, which is then
the resolved one, have to be the same. -/
theorem fingerprintText_of_resolve (hc : c.check = .ok c) (hd : d.check = .ok d)
    (hgrid : c.grid = d.grid) (hinit : c.init = d.init) (hseed : c.seed = d.seed)
    (hresolve : c.thresholds.resolve = d.thresholds.resolve) :
    (c.fingerprintText.toUTF8 = d.fingerprintText.toUTF8 ↔
        c.thresholds.preset = d.thresholds.preset ∧ (c.thresholds.preset.isSome →
          c.thresholds.lower = d.thresholds.lower ∧ c.thresholds.upper = d.thresholds.upper)) ∧
      ∀ e j k, ∃ s t,
        Simulation.ofConfiguration e j c = .ok s ∧ Simulation.ofConfiguration e k d = .ok t ∧
          ∀ commands : List Simulation.Command,
            s.course (.randomize c.init :: commands) = t.course (.randomize d.init :: commands) ∧
              (s.run (.randomize c.init :: commands)).SameCourse
                (t.run (.randomize d.init :: commands)) := by
  refine ⟨?_, fun e j k => ?_⟩
  · rw [toUTF8_fingerprintText_eq_iff]
    constructor
    · rintro ⟨-, hthresholds, -, -⟩
      rw [hthresholds]
      exact ⟨rfl, fun _ => ⟨rfl, rfl⟩⟩
    · rintro ⟨hpreset, hpair⟩
      exact ⟨hgrid, thresholds_eq_of_resolve (check_eq_ok_iff.mp hc).1 hresolve hpreset hpair,
        hinit, hseed⟩
  · rw [← hinit]
    exact exists_sameCourse hc hd hgrid hresolve hseed (fun _ => rfl) j k c.init

/-- A preset and the pair that it stands for: the bytes differ, and the runs do not. -/
theorem fingerprintText_of_resolve_spelled_out :
    let c : Configuration := { Configuration.standard with seed := some 5 }
    let d : Configuration := { c with thresholds := ⟨4, 9, some .stableLand⟩ }
    c.fingerprintText.toUTF8 ≠ d.fingerprintText.toUTF8 ∧
      ∃ s t, Simulation.ofConfiguration (.ofSeed 7) .off c = .ok s ∧
        Simulation.ofConfiguration (.ofSeed 7) .off d = .ok t ∧
          ∀ commands, s.course (.randomize c.init :: commands) =
            t.course (.randomize d.init :: commands) := by
  intro c d
  have hc : c.check = .ok c := check_eq_ok_iff.mpr ⟨by decide, rfl⟩
  have hd : d.check = .ok d := check_eq_ok_iff.mpr ⟨by decide, rfl⟩
  obtain ⟨hbytes, hruns⟩ := fingerprintText_of_resolve hc hd rfl rfl rfl (by decide)
  obtain ⟨s, t, hs, ht, hcourse⟩ := hruns (.ofSeed 7) .off .off
  refine ⟨fun h => ?_, s, t, hs, ht, fun commands => (hcourse commands).1⟩
  cases (hbytes.mp h).1

/-- **The pair beside a preset is digested although nothing depends on it**: two configurations
without a fault that differ in that pair only have different fingerprint texts. -/
theorem fingerprintText_beside_preset :
    let c : Configuration := { Configuration.standard with
      thresholds := ⟨4, 9, some .stableLand⟩ }
    let d : Configuration := { Configuration.standard with
      thresholds := ⟨0, 9, some .stableLand⟩ }
    c.check = .ok c ∧ d.check = .ok d ∧ c.grid = d.grid ∧ c.init = d.init ∧ c.seed = d.seed ∧
      c.thresholds.resolve = d.thresholds.resolve ∧
      c.fingerprintText.toUTF8 ≠ d.fingerprintText.toUTF8 := by
  intro c d
  have hc : c.check = .ok c := check_eq_ok_iff.mpr ⟨by decide, rfl⟩
  have hd : d.check = .ok d := check_eq_ok_iff.mpr ⟨by decide, rfl⟩
  refine ⟨hc, hd, rfl, rfl, rfl, rfl, fun h => ?_⟩
  obtain ⟨-, hthresholds, -, -⟩ := toUTF8_fingerprintText_eq_iff.mp h
  exact absurd (congrArg ThresholdSection.lower hthresholds) (by decide)

end Configuration

end Moorland
