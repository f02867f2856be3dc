import Moorland.Grid.Statistics
import Moorland.Proofs.Band
import Moorland.Proofs.Grid.Valid
import Moorland.Proofs.Rounding.Double
import Moorland.Proofs.Window.Sums
/-!
# What the statistics of a grid say

A count of cells, a maximum and a mean are taken of each valid grid, and they should agree with each
other and with the cells. That there is population somewhere is the same as that a maximum is above
zero, since no level is below zero and none is a NaN. The maximum starts from zero and takes a level
that is above it only, so that the zero without a sign comes out where there are zeros of both
signs, and the result does not depend on the order of the cells
(`Moorland.Single.Highest.unique`). The mean is a level although its sum is rounded at each cell
(`Moorland.Grid.IsStored.isLevel_mean`). It is the one number here that may depend on the order of
the cells.

The main statement is `Moorland.Grid.statistics_consistent`.
-/

namespace Moorland

open Single (Nonneg size)

/-! ### The greatest of some levels -/

namespace Single

variable {v w top top' : Float32} {vs vs' : List Float32}

/-- **The higher of two numbers**: the first one, unless the second one is above it. -/
def higher (v w : Float32) : Float32 := if v < w then w else v

/-- **The highest of a number and those of a list.** It is the number itself if none is above it. -/
structure Highest (v : Float32) (vs : List Float32) (top : Float32) : Prop where
  /-- It is finite and not below zero. -/
  nonneg : Nonneg top
  /-- It is not below the first number. -/
  ge : size v ≤ size top
  /-- It is not below one of the list. -/
  le : ∀ w ∈ vs, size w ≤ size top
  /-- It is the first number, or one of the list that is above that. -/
  mem : top = v ∨ top ∈ vs ∧ size v < size top

/-- **Taking the higher number one after another** gives the highest one. -/
theorem highest_foldl (hv : Nonneg v) (hvs : ∀ w ∈ vs, Nonneg w) :
    Highest v vs (vs.foldl higher v) := by
  induction vs generalizing v with
  | nil => exact ⟨hv, le_rfl, nofun, .inl rfl⟩
  | cons w vs ih =>
    have hw := hvs w List.mem_cons_self
    rw [List.foldl_cons, higher]
    by_cases hlt : v < w
    · rw [if_pos hlt]
      rw [hv.lt_iff hw] at hlt
      obtain ⟨hnonneg, hge, hle, hmem⟩ := ih hw fun u hu => hvs u (List.mem_cons_of_mem w hu)
      refine ⟨hnonneg, hlt.le.trans hge, List.forall_mem_cons.mpr ⟨hge, hle⟩, .inr ⟨?_, ?_⟩⟩
      · exact List.mem_cons.mpr (hmem.imp_right And.left)
      · exact hlt.trans_le hge
    · rw [if_neg hlt]
      rw [hv.lt_iff hw, not_lt] at hlt
      obtain ⟨hnonneg, hge, hle, hmem⟩ := ih hv fun u hu => hvs u (List.mem_cons_of_mem w hu)
      refine ⟨hnonneg, hge, List.forall_mem_cons.mpr ⟨hlt.trans hge, hle⟩, hmem.imp_right ?_⟩
      exact fun h => ⟨List.mem_cons_of_mem w h.1, h.2⟩

/-- **There is one highest number**, to the last bit, and it does not depend on the order. -/
theorem Highest.unique (h : Highest v vs top) (h' : Highest v vs' top')
    (hperm : ∀ w, w ∈ vs ↔ w ∈ vs') : top = top' := by
  have hsize : size top = size top' := by
    refine le_antisymm ?_ ?_
    · rcases h.mem with rfl | hmem
      · exact h'.ge
      · exact h'.le top ((hperm top).mp hmem.1)
    · rcases h'.mem with rfl | hmem
      · exact h.ge
      · exact h.le top' ((hperm top').mpr hmem.1)
  rcases h.mem with heq | hmem
  · rcases h'.mem with heq' | hmem'
    · exact heq.trans heq'.symm
    · rw [← hsize, heq] at hmem'
      exact absurd hmem'.2 (lt_irrefl _)
  · exact h.nonneg.eq_of_size_eq h'.nonneg ((size_nonneg v).trans_lt hmem.2) hsize

end Single

/-! ### Cells with and without population -/

namespace Cell

variable {c : Cell}

theorem isBlack_iff : c.isBlack = true ↔ ∀ i, (c.channel i == 0) = true := by
  rw [isBlack, Bool.and_eq_true, Bool.and_eq_true]
  constructor
  · rintro ⟨⟨hred, hgreen⟩, hblue⟩ i
    cases i with
    | red => exact hred
    | green => exact hgreen
    | blue => exact hblue
  · exact fun h => ⟨⟨h .red, h .green⟩, h .blue⟩

theorem isAlive_iff : c.isAlive = true ↔ ∃ i, 0 < c.channel i := by
  rw [isAlive, Bool.or_eq_true, Bool.or_eq_true, decide_eq_true_iff, decide_eq_true_iff,
    decide_eq_true_iff]
  constructor
  · rintro ((hred | hgreen) | hblue)
    · exact ⟨.red, hred⟩
    · exact ⟨.green, hgreen⟩
    · exact ⟨.blue, hblue⟩
  · rintro ⟨i, hi⟩
    cases i with
    | red => exact .inl (.inl hi)
    | green => exact .inl (.inr hi)
    | blue => exact .inr hi

/-- **A stored cell has population exactly if it is not black.** -/
theorem IsStored.isAlive_eq (hc : c.IsStored) : c.isAlive = !c.isBlack := by
  rw [Bool.eq_iff_iff, Bool.not_eq_true', ← Bool.not_eq_true, isBlack_iff, isAlive_iff, not_forall]
  refine exists_congr fun i => ?_
  have hnonneg := Single.nonneg_of_isLevel (hc i)
  rw [hnonneg.pos_iff, hnonneg.beq_iff Single.nonneg_zero, Single.size_zero]
  exact (Single.size_nonneg _).lt_iff_ne'

end Cell

namespace Grid

variable {g h : Grid} {width height : Nat} {i : Channel}

/-! ### The maximum -/

/-- The levels of a channel, in the order of the cells. -/
def levels (g : Grid) (i : Channel) : List Float32 := g.cells.toList.map fun c => c.channel i

theorem mem_levels {v : Float32} : v ∈ g.levels i ↔ ∃ c ∈ g.cells, c.channel i = v := by
  rw [levels, List.mem_map]
  simp only [Array.mem_toList_iff]

theorem IsStored.isLevel (hg : g.IsStored) {v : Float32} (hv : v ∈ g.levels i) : IsLevel v := by
  obtain ⟨c, hc, rfl⟩ := mem_levels.mp hv
  exact hg c hc i

theorem greatest_eq (g : Grid) (i : Channel) :
    g.greatest i = (g.levels i).foldl Single.higher 0 := by
  rw [greatest, levels, List.foldl_map, Array.foldl_toList]
  rfl

/-- **The maximum of a channel is the highest level**, or zero if there is none above zero. -/
theorem IsStored.highest (hg : g.IsStored) (i : Channel) :
    Single.Highest 0 (g.levels i) (g.greatest i) := by
  rw [greatest_eq]
  exact Single.highest_foldl Single.nonneg_zero fun v hv => Single.nonneg_of_isLevel (hg.isLevel hv)

/-- **The maximum is zero exactly if every level is.** -/
theorem IsStored.greatest_eq_zero_iff (hg : g.IsStored) :
    g.greatest i = 0 ↔ ∀ c ∈ g.cells, (c.channel i == 0) = true := by
  obtain ⟨-, -, hle, hmem⟩ := hg.highest i
  constructor
  · intro hzero c hc
    rw [(Single.nonneg_of_isLevel (hg c hc i)).beq_iff Single.nonneg_zero, Single.size_zero]
    rw [hzero, Single.size_zero] at hle
    exact le_antisymm (hle _ (mem_levels.mpr ⟨c, hc, rfl⟩)) (Single.size_nonneg _)
  · intro hall
    refine hmem.resolve_right ?_
    rintro ⟨hlevel, hpos⟩
    obtain ⟨c, hc, hchannel⟩ := mem_levels.mp hlevel
    have hzero := hall c hc
    have hnonneg := Single.nonneg_of_isLevel (hg.isLevel hlevel)
    rw [hchannel, hnonneg.beq_iff Single.nonneg_zero] at hzero
    exact hpos.ne' hzero

/-- **The maximum is reached.** -/
theorem Valid.exists_greatest (hg : g.Valid width height) (i : Channel) :
    ∃ c ∈ g.cells, (c.channel i == g.greatest i) = true := by
  obtain ⟨hnonneg, -, -, hmem⟩ := hg.isStored.highest i
  rcases hmem with hzero | ⟨hlevel, -⟩
  · have hsize : 0 < g.cells.size := hg.size_cells ▸ Nat.mul_pos hg.width_pos hg.height_pos
    refine ⟨g.cells[0], Array.getElem_mem hsize, ?_⟩
    rw [hzero]
    exact hg.isStored.greatest_eq_zero_iff.mp hzero _ (Array.getElem_mem hsize)
  · obtain ⟨c, hc, hchannel⟩ := mem_levels.mp hlevel
    refine ⟨c, hc, ?_⟩
    rw [hchannel]
    exact (hnonneg.beq_iff hnonneg).mpr rfl

/-! ### The mean -/

theorem total_eq (g : Grid) (i : Channel) :
    g.total i = ((g.levels i).map widen).foldl (· + ·) 0 := by
  rw [total, levels, List.map_map, List.foldl_map, Array.foldl_toList]
  rfl

/-- **The mean of a channel is a level.** -/
theorem IsStored.isLevel_mean (hg : g.IsStored) (hsize : 0 < g.cells.size) (i : Channel) :
    IsLevel (g.mean i) := by
  have hstart : Double.AtMost 0 (Double.cap 0) := ⟨trivial, le_rfl⟩
  have htotal : Double.AtMost (g.total i) (Double.cap g.cells.size) := by
    have hwide : ∀ w ∈ (g.levels i).map widen, Double.AtMost w 1 := by
      intro w hw
      obtain ⟨v, hv, rfl⟩ := List.mem_map.mp hw
      have hlevel := hg.isLevel hv
      exact Double.atMost_widen (Single.nonneg_of_isLevel hlevel)
        (Single.size_le_one_of_isLevel hlevel)
    have hsum := hstart.foldl_add hwide
    rwa [← total_eq, Nat.zero_add, List.length_map, levels, List.length_map,
      Array.length_toList] at hsum
  rw [mean, Nat.max_eq_left hsize]
  obtain ⟨hnonneg, hle⟩ := (htotal.div_ofNat hsize).narrow
  exact hnonneg.isLevel hle

/-- **The mean of a channel without population is zero**, without a sign. -/
theorem mean_eq_zero (hzero : ∀ c ∈ g.cells, (c.channel i == 0) = true) : g.mean i = 0 := by
  have htotal : g.total i = 0 := by
    rw [total, ← Array.foldl_toList]
    refine List.foldlRecOn (motive := (· = 0)) _ _ rfl fun sum hsum c hc => ?_
    rw [hsum]
    exact Double.zero_add_widen (Single.isZero_of_beq (hzero c (Array.mem_toList_iff.mp hc)))
  rw [mean, htotal, Double.zero_div_ofNat (by omega), Double.narrow_zero]

/-! ### The statistics -/

/-- **The number of cells with population** is the number of those that are not black. -/
theorem IsStored.liveCells_eq (hg : g.IsStored) :
    g.liveCells = g.cells.countP fun c => !c.isBlack := by
  refine Array.countP_congr fun c hc => ?_
  rw [(hg c hc).isAlive_eq]

theorem IsStored.liveCells_eq_zero_iff (hg : g.IsStored) :
    g.liveCells = 0 ↔ ∀ c ∈ g.cells, c.isBlack = true := by
  rw [hg.liveCells_eq, Array.countP_eq_zero]
  simp

/-- **The statistics of a grid agree with each other and with the cells.** All cells are counted,
and those with population are the ones that are not black. Each maximum is the greatest level of its
channel, and some cell has it. There is no population exactly if all maxima are zero, and exactly if
all cells are black. Each mean is a level, and is zero where the maximum is. Of all this
only the means depend on the order of the cells. -/
theorem statistics_consistent (hg : g.Valid width height) :
    g.statistics.total = width * height ∧
      g.statistics.live = g.cells.countP (fun c => !c.isBlack) ∧
      (∀ i, (∀ c ∈ g.cells, c.channel i ≤ g.statistics.max.channel i) ∧
        ∃ c ∈ g.cells, (c.channel i == g.statistics.max.channel i) = true) ∧
      (g.statistics.live = 0 ↔ ∀ i, g.statistics.max.channel i = 0) ∧
      ((∀ i, g.statistics.max.channel i = 0) ↔ ∀ c ∈ g.cells, c.isBlack = true) ∧
      (∀ i, IsLevel (g.statistics.mean.channel i) ∧
        (g.statistics.max.channel i = 0 → g.statistics.mean.channel i = 0)) ∧
      ∀ h : Grid, h.cells.Perm g.cells →
        h.statistics.total = g.statistics.total ∧ h.statistics.live = g.statistics.live ∧
          h.statistics.max = g.statistics.max := by
  have hstored := hg.isStored
  have hmax : ∀ i, g.statistics.max.channel i = g.greatest i := Cell.channel_ofChannels _
  have hmean : ∀ i, g.statistics.mean.channel i = g.mean i := Cell.channel_ofChannels _
  simp only [hmax, hmean]
  have hsize : 0 < g.cells.size := hg.size_cells ▸ Nat.mul_pos hg.width_pos hg.height_pos
  have hblack : (∀ i, g.greatest i = 0) ↔ ∀ c ∈ g.cells, c.isBlack = true := by
    simp only [hstored.greatest_eq_zero_iff, Cell.isBlack_iff]
    exact ⟨fun h c hc i => h i c hc, fun h i c hc => h c hc i⟩
  refine ⟨hg.size_cells, hstored.liveCells_eq, fun i => ⟨fun c hc => ?_, hg.exists_greatest i⟩,
    hstored.liveCells_eq_zero_iff.trans hblack.symm, hblack,
    fun i => ⟨hstored.isLevel_mean hsize i, fun h => ?_⟩, fun h hperm => ⟨?_, ?_, ?_⟩⟩
  · have hhighest := hstored.highest i
    rw [(Single.nonneg_of_isLevel (hstored c hc i)).le_iff hhighest.nonneg]
    exact hhighest.le _ (mem_levels.mpr ⟨c, hc, rfl⟩)
  · exact mean_eq_zero (hstored.greatest_eq_zero_iff.mp h)
  · exact hperm.size_eq
  · change h.cells.countP _ = g.cells.countP _
    rw [← Array.countP_toList, ← Array.countP_toList]
    exact (Array.perm_iff_toList_perm.mp hperm).countP_eq _
  · have hstored' : h.IsStored := fun c hc => hstored c (hperm.mem_iff.mp hc)
    refine congrArg Cell.ofChannels (funext fun i => ?_)
    refine (hstored'.highest i).unique (hstored.highest i) fun v => ?_
    rw [mem_levels, mem_levels]
    exact exists_congr fun c => and_congr_left fun _ => hperm.mem_iff

/-- A grid of two cells with zeros of both signs on one channel, and the same cells in the other
order. -/
theorem statistics_consistent_two :
    let g : Grid := ⟨2, 1, #[⟨0.5, 0, -0⟩, ⟨0.25, 1, 0⟩]⟩
    let h : Grid := ⟨2, 1, #[⟨0.25, 1, 0⟩, ⟨0.5, 0, -0⟩]⟩
    g.Valid 2 1 ∧ g.statistics.live = 2 ∧ g.statistics.max = ⟨0.5, 1, 0⟩ ∧
      h.statistics.max = ⟨0.5, 1, 0⟩ ∧ g.statistics.mean.channel .blue = 0 ∧
      IsLevel (g.statistics.mean.channel .red) := by
  intro g h
  have hg : g.Valid 2 1 := ⟨⟨rfl, rfl, rfl⟩, by decide, by decide, by decide⟩
  have hperm : h.cells.Perm g.cells := by
    rw [Array.perm_iff_toList_perm]
    exact List.Perm.swap _ _ _
  obtain ⟨-, hlive, -, -, -, hmean, horder⟩ := statistics_consistent hg
  obtain ⟨-, -, hmax⟩ := horder h hperm
  have hgreatest : g.statistics.max = ⟨0.5, 1, 0⟩ := by decide
  refine ⟨hg, hlive.trans (by decide), hgreatest, hmax.trans hgreatest, ?_, (hmean .red).1⟩
  exact (hmean .blue).2 (congrArg (Cell.channel · .blue) hgreatest)

end Grid

end Moorland
