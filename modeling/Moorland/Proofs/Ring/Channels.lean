import Moorland.Proofs.Ring.Population
/-!
# Channels

By the thresholds alone the three channels of a grid are three grids of their own. None of them
reads another, and all of them go the same way: what a channel holds after a step is a function of
what it held before, and the function is not that of one channel or the other.

So it does not matter which channel a number is on. A channel of one grid **carries** a channel of
another if it holds the same numbers (`Moorland.Grid.Carries`), and this is kept by a step, whether
the two channels are the same one or not (`Moorland.Grid.Carries.generation`), and by a run
(`Moorland.Ring.Uniform.carries_of_steps`). The main statement,
`Moorland.Ring.Uniform.steps_rewired`, is what this means for grids as a whole: to take every
channel from some other channel, or two from the same, comes to the same before a run and after it.
-/

namespace Moorland

/-! ### Taking channels from others -/

/-- **The cell with each of its channels taken from one of the old ones**, by a map that may
exchange channels or use one of them twice. -/
def Cell.rewired (σ : Channel → Channel) (c : Cell) : Cell := ofChannels fun i => c.channel (σ i)

@[simp] theorem Cell.channel_rewired (σ : Channel → Channel) (c : Cell) (i : Channel) :
    (c.rewired σ).channel i = c.channel (σ i) := channel_ofChannels _ i

namespace Grid

/-- **The grid with the channels of every cell taken from others.** -/
def rewired (σ : Channel → Channel) (g : Grid) : Grid :=
  { g with cells := g.cells.map (Cell.rewired σ) }

variable {g h : Grid} {p q : Option Grid} {t : Thresholds} {i j : Channel} {width height : Nat}

theorem HasSize.rewired (hg : g.HasSize width height) (σ : Channel → Channel) :
    (g.rewired σ).HasSize width height :=
  ⟨hg.width_eq, hg.height_eq, Array.size_map.trans hg.size_cells⟩

/-- Where there is no cell the black one is read, which is the same on all channels. -/
theorem cell_rewired (σ : Channel → Channel) (g : Grid) (x y : Nat) :
    (g.rewired σ).cell x y = (g.cell x y).rewired σ := by
  have hindex : (g.rewired σ).index x y = g.index x y := rfl
  rw [cell, cell, hindex, Array.getD_eq_getD_getElem?, Array.getD_eq_getD_getElem?, rewired,
    Array.getElem?_map]
  rcases g.cells[g.index x y]? with _ | c
  · refine Cell.ext_channel fun i => ?_
    rw [Cell.channel_rewired]
    exact (Cell.channel_black i).trans (Cell.channel_black (σ i)).symm
  · rfl

/-! ### One generation -/

/-- **A channel of one grid carries a channel of another**: at every place of the size, the one
holds what the other holds. -/
def Carries (width height : Nat) (i j : Channel) (g h : Grid) : Prop :=
  ∀ x y, x < width → y < height → (g.cell x y).channel i = (h.cell x y).channel j

theorem carries_rewired (σ : Channel → Channel) (g : Grid) (i : Channel) :
    Carries width height i (σ i) (g.rewired σ) g := by
  intro x y _ _
  rw [cell_rewired, Cell.channel_rewired]

/-- **A grid whose channels carry those of another** is that grid with its channels taken from
others. -/
theorem eq_rewired_of_carries {σ : Channel → Channel} (hg : g.HasSize width height)
    (hh : h.HasSize width height) (hcarries : ∀ i, Carries width height i (σ i) g h) :
    g = h.rewired σ := by
  refine hg.ext (hh.rewired σ) fun x y hx hy => Cell.ext_channel fun i => ?_
  rw [hcarries i x y hx hy, cell_rewired, Cell.channel_rewired]

namespace Carries

/-- **The sums over a window** are carried too: the same numbers are added up in the same order. -/
theorem channel_sums (hcarries : Carries width height i j g h) (hg : g.HasSize width height)
    (hh : h.HasSize width height) {x y : Nat} (hx : x < width) (hy : y < height) :
    (g.sums x y).channel i = (h.sums x y).channel j := by
  have hblack : Cell.black.channel i = Cell.black.channel j :=
    (Cell.channel_black i).trans (Cell.channel_black j).symm
  rw [sums, sums, hg.width_eq, hg.height_eq, hh.width_eq, hh.height_eq]
  refine List.foldl_rel (r := fun c d : Cell => c.channel i = d.channel j) hblack
    fun u hu c d hcd => ?_
  refine List.foldl_rel (r := fun c d : Cell => c.channel i = d.channel j) hcd
    fun v hv c d hcd => ?_
  rw [Cell.channel_add, Cell.channel_add, hcd,
    hcarries u v ((mem_windowRange hx).mp hu).1 ((mem_windowRange hy).mp hv).1]

/-- **A step by the thresholds alone** leaves on a channel what it leaves on a channel that the
first one carries, whatever generations were kept. -/
theorem generation (hcarries : Carries width height i j g h) (hg : g.HasSize width height)
    (hh : h.HasSize width height) :
    Carries width height i j (g.generation p t.alone) (h.generation q t.alone) := by
  intro x y hx hy
  rw [channel_generation_alone (hg.width_eq ▸ hx) (hg.height_eq ▸ hy),
    channel_generation_alone (hh.width_eq ▸ hx) (hh.height_eq ▸ hy),
    hcarries.channel_sums hg hh hx hy]

end Carries

end Grid

/-! ### Runs -/

namespace Ring

variable {r s : Ring} {i j : Channel} {width height : Nat}

/-- **A run by thresholds alone** keeps one channel carrying the other, and no step of it is
refused. The rings need not keep as many generations as each other. -/
theorem Uniform.carries_of_steps (hr : r.Uniform width height) (hs : s.Uniform width height)
    (ts : List Thresholds) :
    ∃ r' s', (ts.map Thresholds.alone).foldlM step r = .ok r' ∧
      (ts.map Thresholds.alone).foldlM step s = .ok s' ∧
      r'.Uniform width height ∧ s'.Uniform width height ∧
      ∀ i j, Grid.Carries width height i j r.currentGrid s.currentGrid →
        Grid.Carries width height i j r'.currentGrid s'.currentGrid := by
  induction ts generalizing r s with
  | nil => exact ⟨r, s, rfl, rfl, hr, hs, fun _ _ h => h⟩
  | cons t ts ih =>
    obtain ⟨r', s', hr', hs', hur, hus, hcarries⟩ := ih (hr.advanced t.alone) (hs.advanced t.alone)
    rw [List.map_cons, List.foldlM_cons, List.foldlM_cons, hr.step_eq, hs.step_eq]
    refine ⟨r', s', hr', hs', hur, hus, fun i j h => hcarries i j ?_⟩
    rw [hr.currentGrid_advanced, hs.currentGrid_advanced]
    exact h.generation hr.currentGrid hs.currentGrid

/-- **Channels go their ways by themselves, and all go the same way.** Let a ring start with the
current grid of another one, but for its channels, each of which has been taken from some channel of
that grid. After any steps by thresholds alone its current grid is that of the other ring with the
channels taken in the same way, to the last bit. And if all that the two grids have in common at the
start is what one of the channels holds, then that is still what they have in common. How many
generations the rings keep, and what is in their other slots, does not matter. -/
theorem Uniform.steps_rewired (hr : r.Uniform width height) (hs : s.Uniform width height)
    (ts : List Thresholds) :
    ∃ r' s', (ts.map Thresholds.alone).foldlM step r = .ok r' ∧
      (ts.map Thresholds.alone).foldlM step s = .ok s' ∧
      (∀ σ, s.currentGrid = r.currentGrid.rewired σ →
        s'.currentGrid = r'.currentGrid.rewired σ) ∧
      ∀ i, (∀ x y, x < width → y < height →
          (s.currentGrid.cell x y).channel i = (r.currentGrid.cell x y).channel i) →
        ∀ x y, x < width → y < height →
          (s'.currentGrid.cell x y).channel i = (r'.currentGrid.cell x y).channel i := by
  obtain ⟨s', r', hs', hr', hus, hur, hcarries⟩ := hs.carries_of_steps hr ts
  refine ⟨r', s', hr', hs', fun σ hσ => ?_, fun i => hcarries i i⟩
  refine Grid.eq_rewired_of_carries hus.currentGrid hur.currentGrid fun i => hcarries i (σ i) ?_
  rw [hσ]
  exact Grid.carries_rewired σ _ i

/-- **Red and green exchanged, and blue taken from red**, on a ring that keeps another generation
and has other grids in its other slots. -/
theorem Uniform.steps_rewired_of_exchange :
    let σ : Channel → Channel
      | .red => .green
      | .green => .red
      | .blue => .red
    let g : Grid := ⟨2, 1, #[⟨0.25, 1, 0⟩, ⟨0.75, 0.5, 1⟩]⟩
    let h : Grid := ⟨2, 1, #[⟨1, 0.25, 0.25⟩, ⟨0.5, 0.75, 0.75⟩]⟩
    let r : Ring := ⟨.double, #[g, h], 0⟩
    let s : Ring := ⟨.lookback, #[h, g, ⟨2, 1, #[.white, .white]⟩], 0⟩
    let ts : List Thresholds := [⟨0.5, 2⟩, ⟨0 / 0, 1⟩, ⟨-1, 3⟩]
    (r.Uniform 2 1 ∧ s.Uniform 2 1 ∧ s.currentGrid = r.currentGrid.rewired σ) ∧
    ∃ r' s', (ts.map Thresholds.alone).foldlM step r = .ok r' ∧
      (ts.map Thresholds.alone).foldlM step s = .ok s' ∧
      s'.currentGrid = r'.currentGrid.rewired σ := by
  intro σ g h r s ts
  have hr : r.Uniform 2 1 := uniform_pair ⟨rfl, rfl, rfl⟩ ⟨rfl, rfl, rfl⟩
  have hs : s.Uniform 2 1 := uniform_triple ⟨rfl, rfl, rfl⟩ ⟨rfl, rfl, rfl⟩ ⟨rfl, rfl, rfl⟩
  have hσ : s.currentGrid = r.currentGrid.rewired σ := by
    simp [Grid.rewired, Ring.currentGrid, slot, r, s, g, h, σ, Cell.rewired, Cell.ofChannels,
      Cell.channel]
  obtain ⟨r', s', hr', hs', hrewired, -⟩ := Uniform.steps_rewired hr hs ts
  exact ⟨⟨hr, hs, hσ⟩, r', s', hr', hs', hrewired σ hσ⟩

end Ring

end Moorland
