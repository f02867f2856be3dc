import Moorland.Proofs.Divisor
import Moorland.Proofs.Ring.Signs
import Moorland.Proofs.Rounding.Whole
import Moorland.Proofs.Window.Neighbours
/-!
# Sums within the window

A sum over a window adds up as many levels as the window has cells, and so it should be no greater
than their number. It is computed in single precision, which rounds after each addition, and the
bound holds all the same, without any slack (`Moorland.Grid.within_sums`). A partial sum of `n`
levels is at most `n`, and so the next one, before it is rounded, is at most `n + 1`. That is a
number of the format, and rounding does not pass it.

A window has nine cells at most. Where the lower threshold is above nine every sum is too small to
reproduce, and one step leaves nothing (`Moorland.Grid.generation_of_crowded`).
-/

namespace Moorland

/-! ### Sums of levels -/

namespace Single

variable {v w : Float32} {n : ℕ}

theorem nonneg_of_isLevel (hv : IsLevel v) : Nonneg v :=
  nonneg_zero.of_between nonneg_one hv.2.1 hv.2.2

theorem size_le_one_of_isLevel (hv : IsLevel v) : size v ≤ 1 :=
  size_one ▸ ((nonneg_of_isLevel hv).le_iff nonneg_one).mp hv.2.2

/-- **A number within a bound**: finite, not below zero, without a minus sign and not above the
bound. -/
structure Within (v : Float32) (n : ℕ) : Prop extends Nonneg v where
  /-- There is no minus sign, not even on a zero. -/
  isUnsigned : IsUnsigned v.toModel.unpack
  /-- The number is not above the bound. -/
  size_le : size v ≤ n

theorem within_zero : Within 0 0 := ⟨nonneg_zero, rfl, by rw [size, unpack_zero]; simp⟩

/-- **Adding a level raises the bound by one**, and rounding does not pass it. -/
theorem Within.add (hv : Within v n) (hw : IsLevel w) (hn : n + 1 < 2 ^ 24) :
    Within (v + w) (n + 1) := by
  have hexact : size v + size w ≤ (n + 1 : ℕ) := by
    rw [Nat.cast_succ]
    exact add_le_add hv.size_le (size_le_one_of_isLevel hw)
  obtain ⟨hnonneg, hsize⟩ :=
    hv.toNonneg.add (nonneg_of_isLevel hw) (hexact.trans (natCast_le_ceiling hn))
  refine ⟨hnonneg, isUnsigned_add_level hv.isUnsigned hw, ?_⟩
  rw [hsize]
  exact rounded_le (Rounding.isRepresentable_natCast (by decide) hn)
    (add_nonneg (size_nonneg v) (size_nonneg w)) hexact

/-- **Adding up levels** raises the bound by their number. -/
theorem Within.foldl_add {vs : List Float32} (hv : Within v n) (hvs : ∀ w ∈ vs, IsLevel w)
    (hn : n + vs.length < 2 ^ 24) : Within (vs.foldl (· + ·) v) (n + vs.length) := by
  induction vs generalizing v n with
  | nil => exact hv
  | cons w vs ih =>
    rw [List.length_cons, Nat.add_comm vs.length, ← Nat.add_assoc] at hn ⊢
    exact ih (hv.add (hvs w List.mem_cons_self) (by omega))
      (fun u hu => hvs u (List.mem_cons_of_mem w hu)) hn

end Single

/-! ### Sums over windows -/

namespace Grid

variable {g : Grid} {width height x y : Nat} {t : Thresholds}

/-- A window has nine cells at most. -/
theorem windowSize_le (g : Grid) (x y : Nat) : g.windowSize x y ≤ 9 :=
  Nat.mul_le_mul (windowCount_le x g.width) (windowCount_le y g.height)

/-- **A sum of levels over a window** is not above the number of its cells. -/
theorem within_sums (hg : g.HasSize width height) (hstored : g.IsStored) (hx : x < width)
    (hy : y < height) (i : Channel) :
    Single.Within ((g.sums x y).channel i) (g.windowSize x y) := by
  have hx' : x < g.width := hg.width_eq.symm ▸ hx
  have hy' : y < g.height := hg.height_eq.symm ▸ hy
  have hcount : ((g.neighbours x y).map fun p => (g.cell p.1 p.2).channel i).length =
      g.windowSize x y := by
    rw [List.length_map, length_neighbours hx' hy']
  have hlevels : ∀ v ∈ (g.neighbours x y).map fun p => (g.cell p.1 p.2).channel i, IsLevel v := by
    intro v hv
    obtain ⟨⟨a, b⟩, hp, rfl⟩ := List.mem_map.mp hv
    obtain ⟨ha, hb, -⟩ := mem_neighbours.mp hp
    exact hg.isFull.forall_cell hstored ha hb i
  have hnine := g.windowSize_le x y
  have hsum := Single.within_zero.foldl_add hlevels (by omega)
  rwa [hcount, Nat.zero_add, ← channel_sums_eq hx' hy'] at hsum

/-- **Where more than nine neighbours are asked for**, there is no population after a step. -/
theorem generation_of_crowded (hg : g.Valid width height) (previous : Option Grid)
    (ht : t.Sound) (hlower : 9 < t.lower) :
    .ok (g.generation previous t.alone) = black width height := by
  obtain ⟨k, hk⟩ : ∃ k, black width height = .ok k :=
    ⟨_, filled_eq_ok_iff.mpr ⟨hg.width_pos, hg.height_pos, rfl⟩⟩
  rw [hk]
  refine congrArg Except.ok ((hg.toHasSize.generation previous _).ext (hasSize_filled hk)
    fun x y hx hy => ?_)
  have hblack : k.cell x y = .black := by
    refine (hasSize_filled hk).forall_cell (P := (· = .black)) (fun c hc => ?_) hx hy
    obtain ⟨-, -, rfl⟩ := filled_eq_ok_iff.mp hk
    exact (Array.mem_replicate.mp hc).2
  rw [hblack]
  refine Cell.ext_channel fun i => ?_
  have hsum := within_sums hg.toHasSize hg.isStored hx hy i
  have hbelow : (g.sums x y).channel i < t.lower := by
    obtain ⟨hnine, hsize⟩ := Single.size_ofNat (n := 9) (by decide)
    have hlarge := (hnine.lt_iff ht.nonneg_lower).mp hlower
    have hwindow : ((g.windowSize x y : ℕ) : ℚ) ≤ (9 : ℕ) := Nat.cast_le.mpr (g.windowSize_le x y)
    rw [hsum.toNonneg.lt_iff ht.nonneg_lower]
    linarith [hsum.size_le]
  rw [channel_generation_alone (hg.width_eq.symm ▸ hx) (hg.height_eq.symm ▸ hy),
    Thresholds.channel_of_out (.inl hbelow), isLevel_zero.storedLevel_eq, Cell.channel_black]

/-- **No sum exceeds its window.** On a valid grid the sum of a channel over the window of a place
is a finite number that is not below zero, not the zero with a minus sign, and not above the number
of cells in the window, neither as a rational nor as a comparison in single precision. So where
accepted thresholds have a lower one above nine, a step without a rule leaves a black grid, whatever
it is written over, and so does a step of a ring. -/
theorem sums_within_window (hg : g.Valid width height) :
    (∀ x y, x < width → y < height → ∀ i,
      ((g.sums x y).channel i).isNaN = false ∧ ((g.sums x y).channel i).isFinite = true ∧
        (g.sums x y).channel i ≠ -0 ∧ 0 ≤ (g.sums x y).channel i ∧
        Single.size ((g.sums x y).channel i) ≤ g.windowSize x y ∧
        (g.sums x y).channel i ≤ Float32.ofNat (g.windowSize x y)) ∧
      ∀ lower upper t, Thresholds.check lower upper = .ok t → 9 < lower →
        (∀ write previous, write.HasSize width height →
          (∀ p ∈ previous, p.HasSize width height) →
          g.advance previous write t.alone = black width height) ∧
        ∀ r : Ring, r.Uniform width height → r.currentGrid = g →
          ∃ r', r.step t.alone = .ok r' ∧ black width height = .ok r'.currentGrid := by
  refine ⟨fun x y hx hy i => ?_, fun lower upper t hcheck hlower => ?_⟩
  · have hsum := within_sums hg.toHasSize hg.isStored hx hy i
    have hnine := g.windowSize_le x y
    obtain ⟨hnonneg, hsize⟩ := Single.size_ofNat (n := g.windowSize x y) (by omega)
    exact ⟨Single.isNaN_of_isFinite hsum.isFinite, hsum.isFinite,
      Single.ne_neg_zero hsum.isUnsigned, hsum.le, hsum.size_le,
      (hsum.toNonneg.le_iff hnonneg).mpr (hsize ▸ hsum.size_le)⟩
  · have ht := Thresholds.sound_of_check hcheck
    obtain ⟨-, rfl⟩ := Thresholds.check_eq_ok_iff.mp hcheck
    refine ⟨fun write previous hwrite hprevious => ?_, fun r hr hcurrent => ?_⟩
    · rw [advance_eq hg.toHasSize hwrite hprevious]
      exact generation_of_crowded hg previous ht hlower
    · refine ⟨_, hr.step_eq _, ?_⟩
      rw [hr.currentGrid_advanced, hcurrent]
      exact (generation_of_crowded hg _ ht hlower).symm

/-- **The bound is reached** in the middle of nine cells that are full, and the least number above
nine is too much for them. -/
theorem sums_within_window_full :
    let g : Grid := ⟨3, 3, Array.replicate 9 ⟨1, -0, 0.3⟩⟩
    let t : Thresholds := ⟨.ofBits 0x41100001, 10⟩
    (g.Valid 3 3 ∧ Thresholds.check (.ofBits 0x41100001) 10 = .ok t ∧ 9 < t.lower) ∧
      (g.sums 1 1).red = 9 ∧ (g.sums 1 1).red ≤ Float32.ofNat (g.windowSize 1 1) ∧
      (g.sums 1 1).green ≠ -0 ∧ g.advance none g t.alone = black 3 3 := by
  intro g t
  have hg : g.Valid 3 3 := ⟨⟨rfl, rfl, rfl⟩, by decide, by decide, by decide⟩
  have hcheck : Thresholds.check (.ofBits 0x41100001) 10 = .ok t := rfl
  have hnine : 9 < t.lower := by decide
  obtain ⟨hsums, hsteps⟩ := sums_within_window hg
  obtain ⟨-, -, -, -, -, hred⟩ := hsums 1 1 (by decide) (by decide) .red
  obtain ⟨-, -, hgreen, -⟩ := hsums 1 1 (by decide) (by decide) .green
  exact ⟨⟨hg, hcheck, hnine⟩, by decide +kernel, hred, hgreen,
    (hsteps _ _ t hcheck hnine).1 g none hg.toHasSize nofun⟩

end Grid

end Moorland
