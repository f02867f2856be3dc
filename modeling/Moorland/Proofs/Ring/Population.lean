import Moorland.Proofs.Grid.Valid
import Moorland.Proofs.Ring.Locality
import Moorland.Proofs.Zero
/-!
# Where population comes from

No channel comes to life by itself. What a step stores on a channel is above zero only if the
channel is above zero somewhere in the window of the place
(`Moorland.Grid.exists_pos_of_generation`), since zeros add up to zero and thresholds make nothing
out of that, whichever they are.

A run carries population one column and one row further with each of its steps. The main statement
is `Moorland.Ring.Uniform.population_spreads`: after `k` steps by the thresholds alone a channel is
above zero only where it was above zero at most `k` columns and rows away, and a grid without
population stays one. The zeros it holds have no sign after the first step, whatever their signs
were before, because the thresholds that pass the check have a midpoint without a minus sign.
-/

namespace Moorland

/-- **The distance of two places**: the number of columns or of rows between them, whichever is
greater. -/
def distance (x y u v : Nat) : Nat := max ((x : Int) - u).natAbs ((y : Int) - v).natAbs

theorem distance_le_iff {x y u v k : Nat} :
    distance x y u v ≤ k ↔ (x ≤ u + k ∧ u ≤ x + k) ∧ (y ≤ v + k ∧ v ≤ y + k) := by
  rw [distance, Nat.max_le]
  constructor
  · rintro ⟨hx, hy⟩
    omega
  · rintro ⟨hx, hy⟩
    omega

/-- What the next generation is computed by if the thresholds have the last word. -/
def Thresholds.alone (t : Thresholds) : Law := ⟨t, none⟩

namespace Grid

variable {g : Grid} {previous : Option Grid} {t : Thresholds} {width height x y : Nat} {i : Channel}

/-! ### One generation -/

/-- **Zeros add up to zero.** -/
theorem channel_sums_of_isZero (hx : x < g.width) (hy : y < g.height)
    (hz : ∀ u v, u < g.width → v < g.height → distance x y u v ≤ 1 →
      Single.IsZero ((g.cell u v).channel i)) : (g.sums x y).channel i = 0 := by
  rw [sums]
  -- what has been added up so far is zero, from the black cell on
  refine List.foldlRecOn (motive := fun c : Cell => c.channel i = 0) _ _ (Cell.channel_black i)
    fun acc hacc u hu => ?_
  refine List.foldlRecOn (motive := fun c : Cell => c.channel i = 0) _ _ hacc
    fun acc hacc v hv => ?_
  obtain ⟨hu, hu₁, hu₂⟩ := (mem_windowRange hx).mp hu
  obtain ⟨hv, hv₁, hv₂⟩ := (mem_windowRange hy).mp hv
  have hnear : distance x y u v ≤ 1 := distance_le_iff.mpr ⟨⟨hu₁, hu₂⟩, hv₁, hv₂⟩
  rw [Cell.channel_add, hacc]
  exact Single.zero_add_of_isZero (hz u v hu hv hnear)

theorem channel_generation_alone (hx : x < g.width) (hy : y < g.height) :
    ((g.generation previous t.alone).cell x y).channel i =
      storedLevel (t.channel ((g.sums x y).channel i)) := by
  rw [cell_generation hx hy, Cell.channel_clamped]
  exact congrArg storedLevel (Cell.channel_map t.channel (g.sums x y) i)

theorem isStored_generation (g : Grid) (previous : Option Grid) (law : Law) :
    (g.generation previous law).IsStored := by
  intro c hc
  obtain ⟨j, rfl⟩ := Array.mem_ofFn.mp hc
  exact Cell.isStored_clamped _

/-- **A channel does not come to life by itself**: what a step leaves above zero was above zero
somewhere at most one column and one row away. -/
theorem exists_pos_of_generation (hg : g.HasSize width height) (hstored : g.IsStored)
    (hx : x < width) (hy : y < height)
    (hpos : 0 < ((g.generation previous t.alone).cell x y).channel i) :
    ∃ u v, u < width ∧ v < height ∧ distance x y u v ≤ 1 ∧ 0 < (g.cell u v).channel i := by
  by_contra hnone
  have hx' : x < g.width := hg.width_eq.symm ▸ hx
  have hy' : y < g.height := hg.height_eq.symm ▸ hy
  have hsum : (g.sums x y).channel i = 0 := by
    refine channel_sums_of_isZero hx' hy' fun u v hu hv hnear => ?_
    rw [hg.width_eq] at hu
    rw [hg.height_eq] at hv
    have hlevel : IsLevel ((g.cell u v).channel i) := hg.forall_cell hstored hu hv i
    exact Single.isZero_of_not_pos hlevel fun h => hnone ⟨u, v, hu, hv, hnear, h⟩
  rw [channel_generation_alone hx' hy', hsum] at hpos
  exact t.isZero_channel_zero.not_pos hpos

/-- **A grid without population is black after a step**, whatever the signs of its zeros are. -/
theorem generation_of_isBlack (hg : g.HasSize width height) (ht : t.Sound)
    (hblack : ∀ c ∈ g.cells, c.isBlack = true) :
    ∀ c ∈ (g.generation previous t.alone).cells, c = .black := by
  have hzero : ∀ c : Cell, c.isBlack = true → ∀ i, Single.IsZero (c.channel i) := by
    intro c hc i
    simp only [Cell.isBlack, Bool.and_eq_true] at hc
    obtain ⟨⟨hred, hgreen⟩, hblue⟩ := hc
    cases i with
    | red => exact Single.isZero_of_beq hred
    | green => exact Single.isZero_of_beq hgreen
    | blue => exact Single.isZero_of_beq hblue
  refine (hg.generation previous t.alone).forall_mem fun x y hx hy => Cell.ext_channel fun i => ?_
  rw [← hg.width_eq] at hx
  rw [← hg.height_eq] at hy
  have hsum : (g.sums x y).channel i = 0 := by
    refine channel_sums_of_isZero hx hy fun u v hu hv _ => hzero _ ?_ i
    exact hg.forall_cell hblack (hg.width_eq ▸ hu) (hg.height_eq ▸ hv)
  rw [channel_generation_alone hx hy, hsum, ht.storedLevel_channel_zero, Cell.channel_black]

end Grid

/-! ### Runs -/

namespace Ring

variable {r : Ring} {ts : List Thresholds} {width height : Nat}

/-- **Population spreads by one column and one row with each step**, and no step is refused. -/
theorem Uniform.exists_pos_of_steps (hr : r.Uniform width height)
    (hstored : r.currentGrid.IsStored) (ts : List Thresholds) :
    ∃ r', (ts.map Thresholds.alone).foldlM step r = .ok r' ∧ r'.Uniform width height ∧
      ∀ i x y, x < width → y < height → 0 < (r'.currentGrid.cell x y).channel i →
        ∃ u v, u < width ∧ v < height ∧ distance x y u v ≤ ts.length ∧
          0 < (r.currentGrid.cell u v).channel i := by
  induction ts generalizing r with
  | nil =>
    refine ⟨r, rfl, hr, fun i x y hx hy hpos => ⟨x, y, hx, hy, ?_, hpos⟩⟩
    rw [distance_le_iff]
    omega
  | cons t ts ih =>
    have hcurrent := hr.currentGrid_advanced t.alone
    have hstored' : (r.advanced t.alone).currentGrid.IsStored :=
      hcurrent ▸ Grid.isStored_generation _ _ _
    obtain ⟨r', hr', hu', hspread⟩ := ih (hr.advanced t.alone) hstored'
    refine ⟨r', ?_, hu', fun i x y hx hy hpos => ?_⟩
    · rw [List.map_cons, List.foldlM_cons, hr.step_eq]
      exact hr'
    · -- from the end of the run back to the grid after its first step, and from there one step more
      obtain ⟨u, v, hu, hv, hfar, hpos⟩ := hspread i x y hx hy hpos
      rw [hcurrent] at hpos
      obtain ⟨m, n, hm, hn, hnear, hpos⟩ :=
        Grid.exists_pos_of_generation hr.currentGrid hstored hu hv hpos
      refine ⟨m, n, hm, hn, ?_, hpos⟩
      rw [distance_le_iff] at hfar hnear ⊢
      rw [List.length_cons]
      omega

/-- **A grid without population** is black after any number of steps but none. -/
theorem Uniform.black_of_steps (hr : r.Uniform width height) (hts : ∀ t ∈ ts, t.Sound)
    (hne : ts ≠ []) (hblack : ∀ c ∈ r.currentGrid.cells, c.isBlack = true) :
    ∃ r', (ts.map Thresholds.alone).foldlM step r = .ok r' ∧
      ∀ c ∈ r'.currentGrid.cells, c = .black := by
  induction ts generalizing r with
  | nil => exact absurd rfl hne
  | cons t ts ih =>
    have hfirst : ∀ c ∈ (r.advanced t.alone).currentGrid.cells, c = .black := by
      rw [hr.currentGrid_advanced]
      exact Grid.generation_of_isBlack hr.currentGrid (hts t List.mem_cons_self) hblack
    rw [List.map_cons, List.foldlM_cons, hr.step_eq]
    by_cases hlast : ts = []
    · subst hlast
      exact ⟨_, rfl, hfirst⟩
    · refine ih (hr.advanced t.alone) (fun s hs => hts s (List.mem_cons_of_mem t hs)) hlast ?_
      intro c hc
      rw [hfirst c hc]
      rfl

/-- **No channel comes to life by itself.** After `k` steps by accepted thresholds a channel of a
cell is above zero only if the channel was above zero, at the start, on a cell at a distance of `k`
at most. A grid that starts with zeros of whatever signs on all channels is black after each of the
steps, without a sign on any of its zeros; and all this however many generations the ring keeps. -/
theorem Uniform.population_spreads (hr : r.Uniform width height)
    (hstored : r.currentGrid.IsStored)
    (hts : ∀ t ∈ ts, ∃ lower upper, Thresholds.check lower upper = .ok t) :
    ∃ r', (ts.map Thresholds.alone).foldlM step r = .ok r' ∧
      (∀ i x y, x < width → y < height → 0 < (r'.currentGrid.cell x y).channel i →
        ∃ u v, u < width ∧ v < height ∧ distance x y u v ≤ ts.length ∧
          0 < (r.currentGrid.cell u v).channel i) ∧
      ((∀ c ∈ r.currentGrid.cells, c.isBlack = true) → ts ≠ [] →
        ∀ c ∈ r'.currentGrid.cells, c = ⟨0, 0, 0⟩) := by
  have hsound : ∀ t ∈ ts, t.Sound := fun t ht => by
    obtain ⟨lower, upper, hcheck⟩ := hts t ht
    exact Thresholds.sound_of_check hcheck
  obtain ⟨r', hr', -, hspread⟩ := hr.exists_pos_of_steps hstored ts
  refine ⟨r', hr', hspread, fun hblack hne => ?_⟩
  obtain ⟨s, hs, hzeros⟩ := hr.black_of_steps hsound hne hblack
  obtain rfl : s = r' := Except.ok.inj (hs.symm.trans hr')
  exact hzeros

/-- **The least number above zero in the corner**, and zeros of both signs beside it. The first pair
has no midpoint above zero to divide by, so that its step fills two columns; the second step fills
the third one, and the fourth stays empty. -/
theorem Uniform.population_spreads_from_corner :
    let field : Grid := ⟨4, 1, #[⟨Float32.ofBits 1, 0, 0⟩, ⟨0, -0, 0⟩, ⟨-0, -0, -0⟩, .black]⟩
    let r : Ring := ⟨.lookback, #[field, field, field], 0⟩
    let ts : List Thresholds := [⟨0, Float32.ofBits 1⟩, ⟨-0, 2⟩]
    (r.Uniform 4 1 ∧ r.currentGrid.IsStored ∧
      ∀ t ∈ ts, ∃ lower upper, Thresholds.check lower upper = .ok t) ∧
    ∃ r', (ts.map Thresholds.alone).foldlM step r = .ok r' ∧
      ∀ i, ¬0 < (r'.currentGrid.cell 3 0).channel i := by
  intro field r ts
  have hr : r.Uniform 4 1 := uniform_triple ⟨rfl, rfl, rfl⟩ ⟨rfl, rfl, rfl⟩ ⟨rfl, rfl, rfl⟩
  have hstored : r.currentGrid.IsStored := by decide
  have hts : ∀ t ∈ ts, ∃ lower upper, Thresholds.check lower upper = .ok t := by
    intro t ht
    simp only [ts, List.mem_cons, List.not_mem_nil, or_false] at ht
    rcases ht with rfl | rfl
    · exact ⟨0, Float32.ofBits 1, rfl⟩
    · exact ⟨-0, 2, rfl⟩
  refine ⟨⟨hr, hstored, hts⟩, ?_⟩
  obtain ⟨r', hr', hspread, -⟩ := hr.population_spreads hstored hts
  refine ⟨r', hr', fun i hpos => ?_⟩
  obtain ⟨u, v, hu, hv, hnear, hpos⟩ := hspread i 3 0 (by decide) (by decide) hpos
  obtain rfl : v = 0 := by omega
  have hu₁ : 1 ≤ u := by
    have h := (distance_le_iff.mp hnear).1.1
    change 3 ≤ u + 2 at h
    omega
  -- at the start the three columns on the right hold zeros only
  have hnone : ∀ u < 4, 1 ≤ u → ∀ i ∈ [Channel.red, .green, .blue],
      ¬0 < (field.cell u 0).channel i := by decide
  exact hnone u hu hu₁ i (by cases i <;> decide) hpos

end Ring

end Moorland
