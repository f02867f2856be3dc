import Moorland.Grid.Digest
import Moorland.Proofs.Ring.Population
/-!
# Signs of zeros

Two grids that are numerically equal (`Moorland.Grid.sameValue`) need not be the same, nor have the
same digest: a stored zero may have either sign. This file shows that a step by the thresholds alone
forgets the signs. Sums start from the zero without a sign, and adding a zero of either sign to a
number without one gives the same number, again without a sign
(`Moorland.Single.add_eq_of_beq`, `Moorland.Single.isUnsigned_add_level`). So the sums over the
windows of the two grids are the same, to the last bit, and what is stored of them has no sign
(`Moorland.Grid.generation_eq_of_sameValue`, `Moorland.Grid.unsigned_generation`).

The main statement, `Moorland.Grid.steps_of_sameValue`, is that after one step and any number of
further ones the two grids are the same, and no channel holds a zero with a sign, whichever way the
steps are taken.
-/

namespace Moorland

open Float.Model (UnpackedFloat)
open Float.Model.UnpackedFloat (Sign)

/-! ### Adding zeros -/

namespace Single

variable {v w acc : Float32}

/-- **Adding numerically equal numbers to one without a sign gives the same sum.** -/
theorem add_eq_of_beq (hacc : IsUnsigned acc.toModel.unpack) (h : (v == w) = true) :
    acc + v = acc + w := by
  have hzero : acc + 0 = acc + -0 := by
    change
      Float32.ofModel (.pack (UnpackedFloat.add .binary32 acc.toModel.unpack (.zero .positive))) =
        .ofModel (.pack (UnpackedFloat.add .binary32 acc.toModel.unpack (.zero .negative)))
    cases hu : acc.toModel.unpack with
    | notANumber | infinity | finite => rfl
    | zero s =>
      rw [hu] at hacc
      obtain rfl : s = .positive := hacc
      rfl
  rcases Float32.beq_iff_ne_nan_and_eq.mp h with ⟨-, -, rfl | ⟨rfl, rfl⟩ | ⟨rfl, rfl⟩⟩
  · rfl
  · exact hzero
  · exact hzero.symm

/-- **Adding a level to a number without a sign leaves it without one**, although the level may be a
zero that has one. -/
theorem isUnsigned_add_level (hacc : IsUnsigned acc.toModel.unpack) (hv : IsLevel v) :
    IsUnsigned (acc + v).toModel.unpack := by
  by_cases hpos : 0 < v
  · exact (hacc.add (isUnsigned_of_pos hpos)).unpack_pack
  · -- a zero of either sign adds up to what a zero without one does
    rw [add_eq_of_beq hacc (beq_zero_of_isZero (isZero_of_not_pos hv hpos))]
    exact (hacc.add (w := .zero .positive) rfl).unpack_pack

theorem ne_neg_zero (hv : IsUnsigned v.toModel.unpack) : v ≠ -0 := by
  rintro rfl
  cases hv

end Single

/-- **What is stored of a sum without a sign has no sign.** -/
theorem Thresholds.Sound.isUnsigned_storedLevel {t : Thresholds} (ht : t.Sound) {sum : Float32}
    (hsum : Single.IsUnsigned sum.toModel.unpack) :
    Single.IsUnsigned (storedLevel (t.channel sum)).toModel.unpack := by
  have hclamp : ∀ v : Float32, Single.IsUnsigned v.toModel.unpack →
      Single.IsUnsigned (unitClamp v).toModel.unpack := by
    intro v hv
    rw [unitClamp]
    split_ifs
    · rfl
    · rfl
    · exact hv
  have hchannel : Single.IsUnsigned (t.channel sum).toModel.unpack := by
    rw [channel]
    refine hclamp _ ?_
    split_ifs
    · rfl
    · exact (hsum.div ht.isUnsigned_midpoint).unpack_pack
    · rfl
  rw [storedLevel]
  split_ifs
  · rfl
  · exact hclamp _ hchannel

/-! ### One generation -/

/-- Numerically equal cells are so on every channel. -/
theorem Cell.beq_channel {c d : Cell} (h : c.sameValue d = true) (i : Channel) :
    (c.channel i == d.channel i) = true := by
  rw [sameValue, Bool.and_eq_true, Bool.and_eq_true] at h
  obtain ⟨⟨hred, hgreen⟩, hblue⟩ := h
  cases i with
  | red => exact hred
  | green => exact hgreen
  | blue => exact hblue

/-- **A cell without signs.** -/
def Cell.Unsigned (c : Cell) : Prop := ∀ i, Single.IsUnsigned (c.channel i).toModel.unpack

namespace Grid

variable {g h : Grid} {p q : Option Grid} {t : Thresholds} {width height : Nat}

theorem sameSize_of_sameValue (hsame : g.sameValue h = true) : g.sameSize h = true := by
  rw [sameValue, Bool.and_eq_true, Bool.and_eq_true] at hsame
  exact hsame.1.1

/-- **Numerically equal grids are so at every place.** -/
theorem beq_channel_cell (hsame : g.sameValue h = true) (hg : g.HasSize width height)
    (hh : h.HasSize width height) {x y : Nat} (hx : x < width) (hy : y < height) (i : Channel) :
    ((g.cell x y).channel i == (h.cell x y).channel i) = true := by
  rw [sameValue, Bool.and_eq_true, Array.all_eq_true_iff_forall_mem] at hsame
  refine Cell.beq_channel (hsame.2 (g.cell x y, h.cell x y) ?_) i
  refine Array.mem_of_getElem? (i := y * width + x) ?_
  rw [Array.getElem?_zip_eq_some]
  have hindex : ∀ k : Grid, k.HasSize width height → k.cells[y * width + x]? = some (k.cell x y) :=
    fun k hk => by
      have := hk.getElem?_index hx hy
      rwa [index, hk.width_eq] at this
  exact ⟨hindex g hg, hindex h hh⟩

/-- **The sums over the windows of numerically equal grids are the same**, and have no signs. -/
theorem sums_of_sameValue (hsame : g.sameValue h = true) (hg : g.HasSize width height)
    (hh : h.HasSize width height) (hstored : g.IsStored) {x y : Nat} (hx : x < width)
    (hy : y < height) : g.sums x y = h.sums x y ∧ (g.sums x y).Unsigned := by
  have hblack : Cell.black = Cell.black ∧ Cell.black.Unsigned :=
    ⟨rfl, fun i => by cases i <;> rfl⟩
  rw [sums, sums, hg.width_eq, hg.height_eq, hh.width_eq, hh.height_eq]
  -- what has been added up so far is the same and has no signs, from the black cell on
  refine List.foldl_rel (r := fun c d : Cell => c = d ∧ c.Unsigned) hblack fun u hu c d hcd => ?_
  refine List.foldl_rel (r := fun c d : Cell => c = d ∧ c.Unsigned) hcd fun v hv c d hcd => ?_
  obtain ⟨rfl, hc⟩ := hcd
  have hu' := ((mem_windowRange hx).mp hu).1
  have hv' := ((mem_windowRange hy).mp hv).1
  refine ⟨Cell.ext_channel fun i => ?_, fun i => ?_⟩
  · rw [Cell.channel_add, Cell.channel_add]
    exact Single.add_eq_of_beq (hc i) (beq_channel_cell hsame hg hh hu' hv' i)
  · rw [Cell.channel_add]
    exact Single.isUnsigned_add_level (hc i) (hg.forall_cell hstored hu' hv' i)

/-- **A step takes numerically equal grids to the same grid**, whatever generations were kept. -/
theorem generation_eq_of_sameValue (hsame : g.sameValue h = true) (hg : g.HasSize width height)
    (hh : h.HasSize width height) (hstored : g.IsStored) :
    g.generation p t.alone = h.generation q t.alone := by
  refine (hg.generation p t.alone).ext (hh.generation q t.alone) fun x y hx hy =>
    Cell.ext_channel fun i => ?_
  rw [channel_generation_alone (hg.width_eq ▸ hx) (hg.height_eq ▸ hy),
    channel_generation_alone (hh.width_eq ▸ hx) (hh.height_eq ▸ hy),
    (sums_of_sameValue hsame hg hh hstored hx hy).1]

theorem sameValue_self (hstored : g.IsStored) : g.sameValue g = true := by
  have hcell : ∀ c ∈ g.cells, c.sameValue c = true := by
    intro c hc
    have hchannel : ∀ i, (c.channel i == c.channel i) = true := fun i =>
      Float32.beq_self_iff.mpr fun hnan => by
        have := (hstored c hc i).1
        rw [hnan] at this
        cases this
    exact Bool.and_eq_true_iff.mpr
      ⟨Bool.and_eq_true_iff.mpr ⟨hchannel .red, hchannel .green⟩, hchannel .blue⟩
  have hsize : g.sameSize g = true := sameSize_iff.mpr ⟨rfl, rfl⟩
  rw [sameValue, hsize, beq_self_eq_true, Bool.true_and, Bool.true_and,
    Array.all_eq_true_iff_forall_mem]
  rintro ⟨c, d⟩ hcd
  obtain ⟨i, hi⟩ := Array.getElem?_of_mem hcd
  obtain ⟨hc, hd⟩ := Array.getElem?_zip_eq_some.mp hi
  obtain rfl : c = d := Option.some.inj (hc.symm.trans hd)
  exact hcell c (Array.mem_of_getElem? hc)

/-- **A step leaves no signs.** -/
theorem unsigned_generation (hg : g.HasSize width height) (hstored : g.IsStored) (ht : t.Sound) :
    ∀ c ∈ (g.generation p t.alone).cells, c.Unsigned := by
  refine (hg.generation p t.alone).forall_mem fun x y hx hy i => ?_
  rw [channel_generation_alone (hg.width_eq ▸ hx) (hg.height_eq ▸ hy)]
  exact ht.isUnsigned_storedLevel
    ((sums_of_sameValue (sameValue_self hstored) hg hg hstored hx hy).2 i)

/-! ### Runs -/

theorem Valid.generation (hg : g.Valid width height) (p : Option Grid) (law : Law) :
    (g.generation p law).Valid width height :=
  hg.writer (hg.toHasSize.generation p law) (isStored_generation g p law)

theorem Valid.next_eq (hg : g.Valid width height) (law : Law) :
    g.next law = .ok (g.generation none law) := by
  have hwidth : 0 < g.width := hg.width_eq ▸ hg.width_pos
  have hheight : 0 < g.height := hg.height_eq ▸ hg.height_pos
  obtain ⟨write, hblack⟩ : ∃ write, black g.width g.height = .ok write :=
    ⟨_, filled_eq_ok_iff.mpr ⟨hwidth, hheight, rfl⟩⟩
  have hsize := hasSize_filled hblack
  rw [hg.width_eq, hg.height_eq] at hsize
  rw [next, hblack]
  exact advance_eq hg.toHasSize hsize nofun

/-- **A run from a grid without signs** is not refused, and leaves no signs. -/
theorem Valid.exists_steps (hg : g.Valid width height) (hsigns : ∀ c ∈ g.cells, c.Unsigned)
    {ts : List Thresholds} (hts : ∀ t ∈ ts, t.Sound) :
    ∃ k, (ts.map Thresholds.alone).foldlM next g = .ok k ∧ ∀ c ∈ k.cells, c.Unsigned := by
  induction ts generalizing g with
  | nil => exact ⟨g, rfl, hsigns⟩
  | cons t ts ih =>
    obtain ⟨k, hk, hk'⟩ := ih (hg.generation none t.alone)
      (unsigned_generation hg.toHasSize hg.isStored (hts t List.mem_cons_self))
      fun t ht => hts t (List.mem_cons_of_mem _ ht)
    refine ⟨k, ?_, hk'⟩
    rw [List.map_cons, List.foldlM_cons, hg.next_eq]
    exact hk

end Grid

/-- **A ring steps through the grids that come after its current one**, however many generations it
keeps. -/
theorem Ring.Uniform.currentGrid_steps {r : Ring} {width height : Nat}
    (hr : r.Uniform width height) (hg : r.currentGrid.Valid width height) (ts : List Thresholds) :
    ∃ r', (ts.map Thresholds.alone).foldlM step r = .ok r' ∧
      (ts.map Thresholds.alone).foldlM Grid.next r.currentGrid = .ok r'.currentGrid := by
  induction ts generalizing r with
  | nil => exact ⟨r, rfl, rfl⟩
  | cons t ts ih =>
    have hcurrent := hr.currentGrid_advanced t.alone
    obtain ⟨r', hr', hk⟩ := ih (hr.advanced t.alone)
      (hcurrent.symm ▸ hg.generation r.previousGrid t.alone)
    refine ⟨r', ?_, ?_⟩
    · rw [List.map_cons, List.foldlM_cons, hr.step_eq]
      exact hr'
    · rw [List.map_cons, List.foldlM_cons, hg.next_eq]
      rw [hcurrent] at hk
      exact hk

namespace Grid

/-- **Steps forget the signs of zeros.** After one step by accepted thresholds, and any number of
further ones, numerically equal grids have become the same grid, to the last bit, in which no zero
has a sign. The same grid is the current one of any two rings that started with them, however many
generations the rings keep. -/
theorem steps_of_sameValue {g h : Grid} (hg : g.Valid g.width g.height)
    (hh : h.Valid h.width h.height) (hsame : g.sameValue h = true) {ts : List Thresholds}
    (hne : ts ≠ []) (hts : ∀ t ∈ ts, Thresholds.check t.lower t.upper = .ok t) :
    ∃ k, (ts.map Thresholds.alone).foldlM next g = .ok k ∧
      (ts.map Thresholds.alone).foldlM next h = .ok k ∧
      (∀ c ∈ k.cells, ∀ i, c.channel i ≠ -0) ∧
      ∀ r s : Ring, r.Uniform g.width g.height → s.Uniform h.width h.height →
        r.currentGrid = g → s.currentGrid = h →
        ∃ r' s', (ts.map Thresholds.alone).foldlM Ring.step r = .ok r' ∧
          (ts.map Thresholds.alone).foldlM Ring.step s = .ok s' ∧
          r'.currentGrid = k ∧ s'.currentGrid = k := by
  obtain ⟨t, ts, rfl⟩ := List.exists_cons_of_ne_nil hne
  obtain ⟨hwidth, hheight⟩ := sameSize_iff.mp (sameSize_of_sameValue hsame)
  have ht : ∀ u ∈ t :: ts, u.Sound := fun u hu => Thresholds.sound_of_check (hts u hu)
  have hh' : h.HasSize g.width g.height := hh.isFull.hasSize hwidth.symm hheight.symm
  -- after the first step the grids are the same, and from then on nothing has to be compared
  have hfirst : h.generation none t.alone = g.generation none t.alone :=
    (generation_eq_of_sameValue hsame hg.toHasSize hh' hg.isStored).symm
  obtain ⟨k, hk, hsigns⟩ := (hg.generation none t.alone).exists_steps
    (unsigned_generation hg.toHasSize hg.isStored (ht t List.mem_cons_self))
    fun u hu => ht u (List.mem_cons_of_mem _ hu)
  have hkg : ((t :: ts).map Thresholds.alone).foldlM next g = .ok k := by
    rw [List.map_cons, List.foldlM_cons, hg.next_eq]
    exact hk
  have hkh : ((t :: ts).map Thresholds.alone).foldlM next h = .ok k := by
    rw [List.map_cons, List.foldlM_cons, hh.next_eq, hfirst]
    exact hk
  refine ⟨k, hkg, hkh, fun c hc i => Single.ne_neg_zero (hsigns c hc i), ?_⟩
  rintro r s hr hs rfl rfl
  obtain ⟨r', hr', hrk⟩ := hr.currentGrid_steps hg (t :: ts)
  obtain ⟨s', hs', hsk⟩ := hs.currentGrid_steps hh (t :: ts)
  exact ⟨r', s', hr', hs', Except.ok.inj (hrk.symm.trans hkg), Except.ok.inj (hsk.symm.trans hkh)⟩

/-- Two grids that differ in the signs of two zeros, and two steps with a band that starts at a zero
with a sign. -/
theorem steps_of_sameValue_signed :
    (⟨2, 1, #[⟨-0, 1, 0⟩, .black]⟩ : Grid) ≠ ⟨2, 1, #[⟨0, 1, -0⟩, .black]⟩ ∧
      ∃ k, ([⟨-0, 1⟩, ⟨0.5, 1⟩].map Thresholds.alone).foldlM next ⟨2, 1, #[⟨-0, 1, 0⟩, .black]⟩ =
          .ok k ∧
        ([⟨-0, 1⟩, ⟨0.5, 1⟩].map Thresholds.alone).foldlM next ⟨2, 1, #[⟨0, 1, -0⟩, .black]⟩ =
          .ok k ∧
        ∀ c ∈ k.cells, ∀ i, c.channel i ≠ -0 := by
  refine ⟨by decide, ?_⟩
  obtain ⟨k, hg, hh, hsigns, -⟩ :=
    steps_of_sameValue (g := ⟨2, 1, #[⟨-0, 1, 0⟩, .black]⟩) (h := ⟨2, 1, #[⟨0, 1, -0⟩, .black]⟩)
      ⟨⟨rfl, rfl, rfl⟩, by decide, by decide, by decide⟩
      ⟨⟨rfl, rfl, rfl⟩, by decide, by decide, by decide⟩ (by decide +kernel)
      (List.cons_ne_nil ⟨-0, 1⟩ [⟨0.5, 1⟩]) (by decide)
  exact ⟨k, hg, hh, hsigns⟩

end Grid

end Moorland
