import Moorland.Proofs.Brush.Size
/-!
# A painted grid, place by place

Painting a brush writes its pixels one after the other. This file takes the loop away: after a stamp
a place holds the cell of the pixel that lies over it, if there is one and the mode does not skip
it, and what it held before otherwise (`Moorland.Grid.exists_stamp`).

The pixel over a place is found by turning the placement of a patch around
(`Moorland.Brush.covering`): integers are subtracted, and no check is made. Painting goes the other
way, with a check at each step that a coordinate is in range, and clips a pixel that fails it. For a
pixel that would lie on the grid no check fails (`Moorland.Grid.destination_of_covering`): from a
place of the grid the way back to the corner of the patch is shorter than the patch, and so stays in
range.
-/

namespace Moorland

/-! ### Coordinates -/

/-- **The lowest corner of a centred patch** is half of the size away from the centre. -/
theorem centeredCorner_eq_some_iff {cx cy x y : Int} {width height : Nat} :
    centeredCorner cx cy width height = some (x, y) ↔
      (IsCoordinate (width / 2 : Nat) ∧ IsCoordinate (height / 2 : Nat)) ∧
        (IsCoordinate (cx - (width / 2 : Nat)) ∧ cx - (width / 2 : Nat) = x) ∧
        (IsCoordinate (cy - (height / 2 : Nat)) ∧ cy - (height / 2 : Nat) = y) := by
  simp only [centeredCorner, Option.bind_eq_bind, Option.bind_eq_some_iff, coordinate_eq_some_iff]
  constructor
  · rintro ⟨m, ⟨hm, rfl⟩, n, ⟨hn, rfl⟩, u, ⟨hu, rfl⟩, v, ⟨hv, rfl⟩, heq⟩
    obtain ⟨rfl, rfl⟩ := Prod.mk.inj (Option.some.inj heq)
    exact ⟨⟨hm, hn⟩, ⟨hu, rfl⟩, hv, rfl⟩
  · rintro ⟨⟨hm, hn⟩, ⟨hu, rfl⟩, hv, rfl⟩
    exact ⟨_, ⟨hm, rfl⟩, _, ⟨hn, rfl⟩, _, ⟨hu, rfl⟩, _, ⟨hv, rfl⟩, rfl⟩

namespace Brush

variable {b : Brush} {p : Pixel}

/-- The pixel at coordinates, if they are those of a place inside the brush. -/
def seen (b : Brush) (x y : Int) : Option Pixel :=
  if 0 ≤ x ∧ 0 ≤ y then b.get? x.toNat y.toNat else none

/-- **The pixel that lies over a place** if the brush is centred on a point. Rows of a brush are
counted from above, and those of a grid from below. -/
def covering (b : Brush) (cx cy : Int) (u v : Nat) : Option Pixel :=
  b.seen (u - (cx - (b.width / 2 : Nat))) (b.height - 1 - (v - (cy - (b.height / 2 : Nat))))

theorem seen_natCast (x y : Nat) : b.seen x y = b.get? x y := by
  rw [seen, if_pos ⟨Int.natCast_nonneg x, Int.natCast_nonneg y⟩, Int.toNat_natCast,
    Int.toNat_natCast]

/-- **A pixel lies over a place** if it is read at some place of the brush that is as far from the
corner of the patch. -/
theorem covering_eq_some_iff {cx cy : Int} {u v : Nat} : b.covering cx cy u v = some p ↔
    ∃ x y : Nat, b.get? x y = some p ∧ cx - (b.width / 2 : Nat) + x = u ∧
      cy - (b.height / 2 : Nat) + (b.height - 1 - y : Nat) = v := by
  rw [covering]
  constructor
  · intro h
    rw [seen] at h
    split at h
    · next hin =>
      have hrow := (get?_eq_some_iff.mp h).2.1
      exact ⟨_, _, h, by omega, by omega⟩
    · cases h
  · rintro ⟨x, y, hp, hx, hy⟩
    have hrow := (get?_eq_some_iff.mp hp).2.1
    have hx' : (u : Int) - (cx - (b.width / 2 : Nat)) = x := by omega
    have hy' : (b.height : Int) - 1 - (v - (cy - (b.height / 2 : Nat))) = y := by omega
    rw [hx', hy', seen_natCast]
    exact hp

end Brush

namespace Grid

variable {g h : Grid} {b : Brush} {mode : StampMode} {corner : Option (Int × Int)}
  {width height rows : Nat} {p q : (Nat × Nat) × Pixel} {u v : Nat}

/-! ### Pixels and their destinations -/

/-- **Where a pixel is painted**, if it is painted at all. -/
def target (g : Grid) (mode : StampMode) (corner : Option (Int × Int)) (rows : Nat)
    (p : (Nat × Nat) × Pixel) : Option (Nat × Nat) :=
  if mode.skips p.2 then none else g.destination corner rows p.1

theorem target_eq_some_iff : g.target mode corner rows p = some (u, v) ↔
    mode.skips p.2 = false ∧ g.destination corner rows p.1 = some (u, v) := by
  rw [target]
  rcases mode.skips p.2 with _ | _
  · exact ⟨fun hd => ⟨rfl, hd⟩, fun hd => hd.2⟩
  · exact ⟨nofun, fun hd => nomatch hd.1⟩

theorem destination_eq_some_iff {place : Nat × Nat} :
    g.destination corner rows place = some (u, v) ↔
      (u < g.width ∧ v < g.height) ∧ place.2 < rows ∧ ∃ x₀ y₀, corner = some (x₀, y₀) ∧
        offset x₀ place.1 = some (u : Int) ∧
        offset y₀ (rows - 1 - place.2) = some (v : Int) := by
  simp only [destination, Option.bind_eq_bind, Option.bind_eq_some_iff, fromBelow?_eq_some_iff]
  constructor
  · rintro ⟨⟨x₀, y₀⟩, hcorner, x, hx, _, ⟨hrow, rfl⟩, y, hy, hin⟩
    split at hin
    · next hc =>
      obtain ⟨rfl, rfl⟩ := Prod.mk.inj (Option.some.inj hin)
      obtain ⟨⟨hx₀, hxlt⟩, hy₀, hylt⟩ := contains_iff.mp hc
      refine ⟨⟨by omega, by omega⟩, hrow, x₀, y₀, hcorner, ?_, ?_⟩
      · rwa [Int.toNat_of_nonneg hx₀]
      · rwa [Int.toNat_of_nonneg hy₀]
    · cases hin
  · rintro ⟨⟨hu, hv⟩, hrow, x₀, y₀, hcorner, hx, hy⟩
    refine ⟨(x₀, y₀), hcorner, _, hx, _, ⟨hrow, rfl⟩, _, hy, ?_⟩
    rw [if_pos (contains_natCast.mpr ⟨hu, hv⟩), Int.toNat_natCast, Int.toNat_natCast]

/-- **A pixel is painted only where it lies.** -/
theorem covering_of_destination (hb : b.IsFull) (hp : p ∈ b.placed) {cx cy : Int}
    (hd : g.destination (centeredCorner cx cy b.width b.height) b.height p.1 = some (u, v)) :
    b.covering cx cy u v = some p.2 := by
  obtain ⟨-, -, x₀, y₀, hcorner, hx, hy⟩ := destination_eq_some_iff.mp hd
  obtain ⟨-, ⟨-, rfl⟩, -, rfl⟩ := centeredCorner_eq_some_iff.mp hcorner
  obtain ⟨-, -, hx⟩ := offset_eq_some_iff.mp hx
  obtain ⟨-, -, hy⟩ := offset_eq_some_iff.mp hy
  exact Brush.covering_eq_some_iff.mpr ⟨_, _, (Brush.mem_placed_iff hb).mp hp, hx, hy⟩

/-- **The destination of a pixel is where it lies**, if that is a place of the grid. -/
theorem destination_centered_iff (hbrush : IsCoordinate b.width ∧ IsCoordinate b.height)
    (hgrid : IsCoordinate g.width ∧ IsCoordinate g.height) {cx cy : Int} {x y : Nat}
    (hx : x < b.width) (hy : y < b.height) :
    g.destination (centeredCorner cx cy b.width b.height) b.height (x, y) = some (u, v) ↔
      (u < g.width ∧ v < g.height) ∧ cx - (b.width / 2 : Nat) + x = u ∧
        cy - (b.height / 2 : Nat) + (b.height - 1 - y : Nat) = v := by
  rw [destination_eq_some_iff]
  constructor
  · rintro ⟨hin, -, x₀, y₀, hcorner, hu, hv⟩
    obtain ⟨-, ⟨-, rfl⟩, -, rfl⟩ := centeredCorner_eq_some_iff.mp hcorner
    exact ⟨hin, (offset_eq_some_iff.mp hu).2.2, (offset_eq_some_iff.mp hv).2.2⟩
  · rintro ⟨⟨hu, hv⟩, hcol, hrow⟩
    simp only [isCoordinate_iff] at hbrush hgrid
    refine ⟨⟨hu, hv⟩, hy, _, _, centeredCorner_eq_some_iff.mpr ⟨⟨?_, ?_⟩, ⟨?_, rfl⟩, ?_, rfl⟩,
      offset_eq_some_iff.mpr ⟨?_, ?_, hcol⟩, offset_eq_some_iff.mpr ⟨?_, ?_, hrow⟩⟩
    all_goals
      rw [isCoordinate_iff]
      omega

/-- **A pixel that lies over a place of the grid has its destination there.** -/
theorem destination_of_covering (hb : b.IsFull)
    (hbrush : IsCoordinate b.width ∧ IsCoordinate b.height)
    (hgrid : IsCoordinate g.width ∧ IsCoordinate g.height) (hu : u < g.width) (hv : v < g.height)
    {cx cy : Int} {p : Pixel} (hp : b.covering cx cy u v = some p) :
    ∃ place, (place, p) ∈ b.placed ∧
      g.destination (centeredCorner cx cy b.width b.height) b.height place = some (u, v) := by
  obtain ⟨x, y, hread, hx, hy⟩ := Brush.covering_eq_some_iff.mp hp
  obtain ⟨hcol, hrow, -⟩ := Brush.get?_eq_some_iff.mp hread
  exact ⟨(x, y), (Brush.mem_placed_iff hb).mpr hread,
    (destination_centered_iff hbrush hgrid hcol hrow).mpr ⟨⟨hu, hv⟩, hx, hy⟩⟩

/-! ### Painting -/

theorem fst_stampPixel_of_none {state : Grid × StampReport}
    (ht : state.1.target mode corner rows p = none) :
    (stampPixel mode corner rows state p).1 = state.1 := by
  rw [target] at ht
  rw [stampPixel]
  split
  · rfl
  · next hskip =>
    rw [if_neg hskip] at ht
    rw [ht]

theorem fst_stampPixel_of_some {state : Grid × StampReport}
    (ht : state.1.target mode corner rows p = some (u, v)) :
    (stampPixel mode corner rows state p).1 = state.1.put u v p.2.cell := by
  obtain ⟨hskip, hd⟩ := target_eq_some_iff.mp ht
  rw [stampPixel]
  simp only [hskip, hd, Bool.false_eq_true, if_false]

/-- Painting a pixel keeps the size, and so the destinations of the other pixels. -/
theorem HasSize.stampPixel {state : Grid × StampReport} (hg : state.1.HasSize width height)
    (p : (Nat × Nat) × Pixel) : (stampPixel mode corner rows state p).1.HasSize width height := by
  rcases ht : state.1.target mode corner rows p with _ | ⟨u, v⟩
  · rw [fst_stampPixel_of_none ht]
    exact hg
  · rw [fst_stampPixel_of_some ht]
    exact hg.put u v p.2.cell

theorem target_congr (hg : g.HasSize width height) (hh : h.HasSize width height) :
    g.target mode corner rows p = h.target mode corner rows p := by
  simp only [target, destination, contains, hg.width_eq, hg.height_eq, hh.width_eq, hh.height_eq]

/-- **A place that no pixel is painted on** reads as before. -/
theorem cell_foldl_stampPixel_of_not {pixels : List ((Nat × Nat) × Pixel)}
    {state : Grid × StampReport} (hg : state.1.HasSize width height) (hu : u < width)
    (hnot : ∀ p ∈ pixels, state.1.target mode corner rows p ≠ some (u, v)) :
    (pixels.foldl (stampPixel mode corner rows) state).1.cell u v = state.1.cell u v := by
  induction pixels generalizing state with
  | nil => rfl
  | cons p pixels ih =>
    have hsize : (stampPixel mode corner rows state p).1.HasSize width height := hg.stampPixel p
    have hrest : ∀ q ∈ pixels,
        (stampPixel mode corner rows state p).1.target mode corner rows q ≠ some (u, v) := by
      intro q hq
      rw [target_congr hsize hg]
      exact hnot q (List.mem_cons_of_mem p hq)
    rw [List.foldl_cons, ih hsize hrest]
    rcases ht : state.1.target mode corner rows p with _ | ⟨m, n⟩
    · rw [fst_stampPixel_of_none ht]
    · obtain ⟨hm, hn⟩ := (destination_eq_some_iff.mp (target_eq_some_iff.mp ht).2).1
      rw [fst_stampPixel_of_some ht, cell_put _ hm (hg.width_eq.symm ▸ hu)
        (hg.index_lt_size (hg.width_eq ▸ hm) (hg.height_eq ▸ hn)), if_neg]
      rintro ⟨rfl, rfl⟩
      exact hnot p List.mem_cons_self ht

/-- **A place that a pixel is painted on** holds its cell, if no other cell is painted there. -/
theorem cell_foldl_stampPixel_of_mem {pixels : List ((Nat × Nat) × Pixel)}
    {state : Grid × StampReport} (hg : state.1.HasSize width height) (hp : p ∈ pixels)
    (ht : state.1.target mode corner rows p = some (u, v))
    (hsame : ∀ q ∈ pixels, state.1.target mode corner rows q = some (u, v) →
      q.2.cell = p.2.cell) :
    (pixels.foldl (stampPixel mode corner rows) state).1.cell u v = p.2.cell.clamped := by
  induction pixels generalizing state p with
  | nil => exact absurd hp List.not_mem_nil
  | cons first pixels ih =>
    have hsize : (stampPixel mode corner rows state first).1.HasSize width height :=
      hg.stampPixel first
    have hkeep : ∀ q, (stampPixel mode corner rows state first).1.target mode corner rows q =
        state.1.target mode corner rows q := fun q => target_congr hsize hg
    rw [List.foldl_cons]
    by_cases hlater : ∃ q ∈ pixels, state.1.target mode corner rows q = some (u, v)
    · -- the place is painted again, with the same cell
      obtain ⟨q, hq, hqt⟩ := hlater
      have hqp : q.2.cell = p.2.cell := hsame q (List.mem_cons_of_mem first hq) hqt
      rw [ih hsize hq ((hkeep q).trans hqt) fun r hr hrt => ?_, hqp]
      rw [hqp]
      exact hsame r (List.mem_cons_of_mem first hr) ((hkeep r).symm.trans hrt)
    · have hfirst : p = first := by
        rcases List.mem_cons.mp hp with hp | hp
        · exact hp
        · exact absurd ⟨p, hp, ht⟩ hlater
      subst hfirst
      obtain ⟨hu, hv⟩ := (destination_eq_some_iff.mp (target_eq_some_iff.mp ht).2).1
      rw [cell_foldl_stampPixel_of_not hsize (hg.width_eq ▸ hu) fun q hq hqt =>
          hlater ⟨q, hq, (hkeep q).symm.trans hqt⟩,
        fst_stampPixel_of_some ht, cell_put _ hu hu
          (hg.index_lt_size (hg.width_eq ▸ hu) (hg.height_eq ▸ hv)), if_pos ⟨rfl, rfl⟩]

/-- **A painted grid.** Each place holds the cell of the pixel that lies over it, in stored form,
unless there is none or the mode skips it; and then it holds what it held before. -/
theorem exists_stamp (hg : g.HasSize width height) (hb : b.IsFull) (hw : 0 < b.width)
    (hh : 0 < b.height) (hbrush : IsCoordinate b.width ∧ IsCoordinate b.height)
    (hgrid : IsCoordinate width ∧ IsCoordinate height) (cx cy : Int) (mode : StampMode) :
    ∃ k report, g.stamp b cx cy mode = .ok (k, report) ∧ k.HasSize width height ∧
      (∀ u v p, u < width → v < height → b.covering cx cy u v = some p → mode.skips p = false →
        k.cell u v = p.cell.clamped) ∧
      ∀ u v, u < width → v < height →
        (∀ p, b.covering cx cy u v = some p → mode.skips p = true) → k.cell u v = g.cell u v := by
  have hstamp : g.stamp b cx cy mode =
      .ok (b.placed.foldl (stampPixel mode (centeredCorner cx cy b.width b.height) b.height)
        (g, ⟨0, 0, 0⟩)) := by
    rw [stamp, if_neg (by omega)]
  refine ⟨_, _, hstamp, hg.stamp hstamp, fun u v p hu hv hp hskip => ?_, fun u v hu hv hno => ?_⟩
  · obtain ⟨place, hplaced, hd⟩ := destination_of_covering hb hbrush
      (by rwa [hg.width_eq, hg.height_eq]) (hg.width_eq.symm ▸ hu) (hg.height_eq.symm ▸ hv) hp
    refine cell_foldl_stampPixel_of_mem (p := (place, p)) hg hplaced
      (target_eq_some_iff.mpr ⟨hskip, hd⟩) fun q hq hqt => ?_
    -- one pixel lies over a place
    have hcovering := covering_of_destination hb hq (target_eq_some_iff.mp hqt).2
    exact congrArg Pixel.cell (Option.some.inj (hcovering.symm.trans hp))
  · refine cell_foldl_stampPixel_of_not hg hu fun q hq hqt => ?_
    obtain ⟨hskip, hd⟩ := target_eq_some_iff.mp hqt
    rw [hno q.2 (covering_of_destination hb hq hd)] at hskip
    cases hskip

/-- **A brush that lies over its own cells** changes nothing. -/
theorem exists_stamp_self (hg : g.HasSize width height) (hb : b.IsFull) (hw : 0 < b.width)
    (hh : 0 < b.height) (hbrush : IsCoordinate b.width ∧ IsCoordinate b.height)
    (hgrid : IsCoordinate width ∧ IsCoordinate height) {cx cy : Int}
    (hsame : ∀ u v p, u < width → v < height → b.covering cx cy u v = some p →
      p.cell.clamped = g.cell u v) :
    ∃ report, g.stamp b cx cy mode = .ok (g, report) := by
  obtain ⟨k, report, hk, hsize, hpainted, hbare⟩ :=
    exists_stamp hg hb hw hh hbrush hgrid cx cy mode
  have hcells : k = g := by
    refine hsize.ext hg fun u v hu hv => ?_
    by_cases hbrushed : ∃ p, b.covering cx cy u v = some p ∧ mode.skips p = false
    · obtain ⟨p, hp, hskip⟩ := hbrushed
      rw [hpainted u v p hu hv hp hskip]
      exact hsame u v p hu hv hp
    · refine hbare u v hu hv fun p hp => ?_
      exact Bool.of_not_eq_false fun hskip => hbrushed ⟨p, hp, hskip⟩
  exact ⟨report, hcells ▸ hk⟩

end Grid

end Moorland
