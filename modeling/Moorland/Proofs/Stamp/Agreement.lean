import Moorland.Proofs.Simulation.Reachable
import Moorland.Proofs.Stamp.Footprint
import Moorland.Proofs.Stamp.Regions
/-!
# What a capture reads and a stamp writes

Capturing around a point and painting around the same point place a patch alike. They find out in
different ways whether it is on the grid: painting decides for each pixel, and clips those that are
not, while capturing looks at two corners, after a lowest corner that need not be a coordinate. The
main statement, `Moorland.Simulation.captureCentered_agrees`, is that they find the same.

Which cells an operation **reads** and which it **writes** is said without looking into it. A query
reads a cell if its answer depends on it (`Moorland.Simulation.Reads`), and a change writes a cell
if it does not leave there whatever was there (`Moorland.Simulation.Writes`). Capturing reads the
places of the region (`Moorland.Simulation.reads_captureCentered_iff`), and painting writes the
places with a pixel over them that is not skipped (`Moorland.Simulation.writes_stamp_iff`).

As before, the sides of the grid and of the brush are coordinates, which they are if their cells and
their pixels fit in memory.
-/

namespace Moorland

/-- No cell is the stored form of every cell. -/
theorem Cell.exists_clamped_ne (d : Cell) : ∃ c : Cell, c.clamped ≠ d := by
  by_cases hd : d = .black
  · exact ⟨.white, hd ▸ by decide⟩
  · exact ⟨.black, fun h => hd (h ▸ by decide)⟩

/-! ### Patches and the places under them -/

/-- **The region of a patch centred on a point.** -/
def Region.centered (cx cy : Int) (width height : Nat) : Region :=
  ⟨cx - (width / 2 : Nat), cy - (height / 2 : Nat), width, height⟩

/-- **The place is one of the region.** -/
def Region.Holds (r : Region) (u v : Nat) : Prop :=
  (r.x ≤ u ∧ u < r.x + r.width) ∧ r.y ≤ v ∧ v < r.y + r.height

/-- **A place of a region inside the grid** is that of a pixel of the patch. -/
theorem Region.exists_place {r : Region} {u v width height : Nat} (huv : r.Holds u v)
    (hin : r.Inside width height) : ∃ x y, x < r.width ∧ y < r.height ∧ r.x.toNat + x = u ∧
      r.y.toNat + (r.height - 1 - y) = v := by
  obtain ⟨hcol, hrow⟩ := huv
  obtain ⟨hcols, hrows⟩ := hin
  exact ⟨u - r.x.toNat, r.height - 1 - (v - r.y.toNat), by omega, by omega, by omega, by omega⟩

theorem Brush.IsFull.exists_get? {b : Brush} (hb : b.IsFull) {x y : Nat} (hx : x < b.width)
    (hy : y < b.height) : ∃ p, b.get? x y = some p :=
  ⟨_, get?_eq_some_iff.mpr ⟨hx, hy, Array.getElem?_eq_getElem (hb.symm ▸ index_lt hx hy)⟩⟩

theorem Brush.mem_pixels_of_covering {b : Brush} {cx cy : Int} {u v : Nat} {p : Pixel}
    (hp : b.covering cx cy u v = some p) : p ∈ b.pixels := by
  obtain ⟨x, y, hread, -⟩ := covering_eq_some_iff.mp hp
  exact mem_pixels_of_get? hread

/-- **A full brush has a pixel over each place of its region**, and over no other. -/
theorem Brush.IsFull.exists_covering_iff {b : Brush} (hb : b.IsFull) {cx cy : Int} {u v : Nat} :
    (∃ p, b.covering cx cy u v = some p) ↔
      (Region.centered cx cy b.width b.height).Holds u v := by
  simp only [covering_eq_some_iff, Region.Holds, Region.centered]
  constructor
  · rintro ⟨p, x, y, hp, hx, hy⟩
    obtain ⟨hcol, hrow, -⟩ := get?_eq_some_iff.mp hp
    omega
  · intro h
    obtain ⟨p, hp⟩ := hb.exists_get? (x := (u - (cx - (b.width / 2 : Nat))).toNat)
      (y := (b.height - 1 - (v - (cy - (b.height / 2 : Nat)))).toNat) (by omega) (by omega)
    exact ⟨p, _, _, hp, by omega, by omega⟩

namespace Grid

variable {g h : Grid} {b : Brush} {r : Region} {c d : Brush} {mode : StampMode}
  {width height : Nat} {report : StampReport} {k : Grid}

/-- **Patches are equal** if the grids are alike on the region. -/
theorem IsPatch.congr (hc : g.IsPatch r c) (hd : h.IsPatch r d) (hin : r.Inside width height)
    (hsame : ∀ u v, u < width → v < height → r.Holds u v → g.cell u v = h.cell u v) : c = d := by
  refine hc.isFull.ext hd.isFull (hc.width_eq.trans hd.width_eq.symm)
    (hc.height_eq.trans hd.height_eq.symm) fun x y p hp => ?_
  obtain ⟨hx, hy, -⟩ := Brush.get?_eq_some_iff.mp hp
  rw [hc.width_eq] at hx
  rw [hc.height_eq] at hy
  obtain ⟨hcols, hrows⟩ := hin
  rw [hd.get?_eq x y hx hy, ← hsame _ _ (by omega) (by omega) ⟨by omega, by omega⟩,
    ← hc.get?_eq x y hx hy, hp]

/-- **A pixel of a patch** that is centred on a point is the cell where the pixel of the brush
lands. -/
theorem IsPatch.get?_of_landing {cx cy : Int} {x y u v : Nat}
    (hc : g.IsPatch (.centered cx cy b.width b.height) c)
    (hin : (Region.centered cx cy b.width b.height).Inside width height) (hx : x < b.width)
    (hy : y < b.height) (hland : b.landing cx cy x y = (↑u, ↑v)) :
    (u < width ∧ v < height) ∧ c.get? x y = some (.opaquely (g.cell u v)) := by
  obtain ⟨hcol, hrow⟩ := Prod.mk.inj hland
  simp only [Region.Inside, Region.centered] at hin
  have hcolumn : (cx - (b.width / 2 : Nat)).toNat + x = u := by omega
  have hline : (cy - (b.height / 2 : Nat)).toNat + (b.height - 1 - y) = v := by omega
  have hread := hc.get?_eq x y hx hy
  simp only [Region.centered, hcolumn, hline] at hread
  exact ⟨⟨by omega, by omega⟩, hread⟩

/-- **Nothing is clipped** if the region of the brush lies inside the grid, and something is if not,
provided that no pixel is skipped. -/
theorem clipped_eq_zero_iff (hg : g.HasSize width height)
    (hgrid : IsCoordinate width ∧ IsCoordinate height) (hb : b.IsFull) (hw : 0 < b.width)
    (hh : 0 < b.height) (hbrush : IsCoordinate b.width ∧ IsCoordinate b.height)
    (hall : ∀ p ∈ b.pixels, mode.skips p = false) {cx cy : Int}
    (hk : g.stamp b cx cy mode = .ok (k, report)) :
    report.clipped = 0 ↔ (Region.centered cx cy b.width b.height).Inside width height := by
  rw [show report.clipped = report.tally .clipped from rfl, tally_stamp hg hgrid hb hbrush hk,
    Brush.count_eq_zero_iff]
  simp only [Fate.Applies, IsPlace, Brush.landing, Region.Inside, Region.centered, hg.width_eq,
    hg.height_eq]
  constructor
  · intro hland
    -- the lowest corner is that of the last row, and the highest that of the first
    obtain ⟨p, hp⟩ := hb.exists_get? (x := 0) (y := b.height - 1) hw (by omega)
    obtain ⟨q, hq⟩ := hb.exists_get? (x := b.width - 1) (y := 0) (by omega) hh
    have hlow := hland _ _ p hp
    have hhigh := hland _ _ q hq
    rw [hall p (Brush.mem_pixels_of_get? hp)] at hlow
    rw [hall q (Brush.mem_pixels_of_get? hq)] at hhigh
    simp only [true_and, not_not] at hlow hhigh
    omega
  · rintro ⟨hcols, hrows⟩ x y p hp ⟨-, hout⟩
    obtain ⟨hx, hy, -⟩ := Brush.get?_eq_some_iff.mp hp
    omega

end Grid

namespace Simulation

variable {s : Simulation} {b : Brush} {cx cy : Int} {width height w h u v : Nat}

theorem hasSize_currentGrid (hs : s.ring.Uniform width height) :
    s.currentGrid.HasSize width height :=
  hs.currentGrid

/-! ### Reading and writing -/

/-- The simulation with another cell at a place of the current generation. -/
def withCell (s : Simulation) (u v : Nat) (c : Cell) : Simulation :=
  { s with ring := s.ring.replaceCurrent (s.currentGrid.put u v c) }

/-- **A query reads the cell at a place** if there is a cell with which the answer is another. -/
def Reads {α : Type} (s : Simulation) (query : Simulation → α) (u v : Nat) : Prop :=
  ∃ c, query (s.withCell u v c) ≠ query s

/-- **A change writes the cell at a place** if there is a cell that it does not leave there. -/
def Writes (s : Simulation) (change : Simulation → Simulation) (u v : Nat) : Prop :=
  ∃ c, (change (s.withCell u v c)).currentGrid.cell u v ≠ (s.withCell u v c).currentGrid.cell u v

theorem currentGrid_withCell (hs : s.ring.Uniform width height) (u v : Nat) (c : Cell) :
    (s.withCell u v c).currentGrid = s.currentGrid.put u v c :=
  Ring.currentGrid_replaceCurrent (hs.size_slots ▸ hs.current_lt) _

theorem uniform_withCell (hs : s.ring.Uniform width height) (u v : Nat) (c : Cell) :
    (s.withCell u v c).ring.Uniform width height :=
  hs.replaceCurrent (hs.currentGrid.put u v c)

theorem cell_withCell (hs : s.ring.Uniform width height) (hu : u < width) (hv : v < height)
    (c : Cell) {x y : Nat} (hx : x < width) :
    (s.withCell u v c).currentGrid.cell x y =
      if u = x ∧ v = y then c.clamped else s.currentGrid.cell x y := by
  have hg := hasSize_currentGrid hs
  rw [currentGrid_withCell hs, Grid.cell_put c (hg.width_eq.symm ▸ hu) (hg.width_eq.symm ▸ hx)
    (hg.index_lt_size hu hv)]

/-! ### Capturing around a point -/

/-- **A patch inside the grid is captured** around its centre. -/
theorem captureCentered_of_inside (hs : s.ring.Uniform width height)
    (hgrid : IsCoordinate width ∧ IsCoordinate height) (hw : 0 < w) (hh : 0 < h)
    (hin : (Region.centered cx cy w h).Inside width height) :
    ∃ c, (s.captureCentered cx cy w h).1 = .ok c ∧
      s.currentGrid.IsPatch (.centered cx cy w h) c := by
  obtain ⟨c, hc, hpatch⟩ :=
    Grid.exists_capture_of_inside (hasSize_currentGrid hs) hgrid hw hh hin
  have hcorner : centeredCorner cx cy w h = some (cx - (w / 2 : Nat), cy - (h / 2 : Nat)) := by
    simp only [isCoordinate_iff, Region.Inside, Region.centered] at hgrid hin
    refine centeredCorner_eq_some_iff.mpr ⟨⟨?_, ?_⟩, ⟨?_, rfl⟩, ?_, rfl⟩
    all_goals
      rw [isCoordinate_iff]
      omega
  rw [Region.centered] at hc
  exact ⟨c, by simp only [captureCentered, hcorner, capture, hc], hpatch⟩

/-- **A patch that is not inside the grid is out of bounds**, whether it has a corner or not. -/
theorem captureCentered_of_not_inside (hs : s.ring.Uniform width height)
    (hgrid : IsCoordinate width ∧ IsCoordinate height) (hw : 0 < w) (hh : 0 < h)
    (hout : ¬(Region.centered cx cy w h).Inside width height) :
    ∃ r, (s.captureCentered cx cy w h).1 = .error (.outOfBounds r width height) := by
  rcases hcorner : centeredCorner cx cy w h with _ | ⟨x, y⟩
  · exact ⟨⟨cx, cy, w, h⟩, by simp only [captureCentered, hcorner, width_eq hs, height_eq hs]⟩
  · obtain ⟨-, ⟨-, rfl⟩, -, rfl⟩ := centeredCorner_eq_some_iff.mp hcorner
    have hrefused := Grid.capture_of_not_inside (hasSize_currentGrid hs) hgrid hw hh hout
    rw [Region.centered] at hrefused
    exact ⟨.centered cx cy w h, by
      simp only [captureCentered, hcorner, capture, hrefused, Region.centered]⟩

/-- **Capturing reads the places of the region**, and no others. -/
theorem reads_captureCentered_iff (hs : s.ring.Uniform width height)
    (hgrid : IsCoordinate width ∧ IsCoordinate height) (hw : 0 < w) (hh : 0 < h)
    (hin : (Region.centered cx cy w h).Inside width height) (hu : u < width) (hv : v < height) :
    s.Reads (fun t => (t.captureCentered cx cy w h).1) u v ↔
      (Region.centered cx cy w h).Holds u v := by
  obtain ⟨c, hc, hpatch⟩ := captureCentered_of_inside hs hgrid hw hh hin
  constructor
  · rintro ⟨e, hne⟩
    obtain ⟨d, hd, hpatch'⟩ :=
      captureCentered_of_inside (uniform_withCell hs u v e) hgrid hw hh hin
    by_contra hnot
    -- the cell is changed where the patch is not
    have hsame : d = c := hpatch'.congr hpatch hin fun x y hx _ hxy => by
      rw [cell_withCell hs hu hv e hx, if_neg]
      rintro ⟨rfl, rfl⟩
      exact hnot hxy
    exact hne (hd.trans (hsame ▸ hc.symm))
  · rintro ⟨hcol, hrow⟩
    obtain ⟨e, he⟩ := Cell.exists_clamped_ne (s.currentGrid.cell u v)
    obtain ⟨d, hd, hpatch'⟩ :=
      captureCentered_of_inside (uniform_withCell hs u v e) hgrid hw hh hin
    refine ⟨e, fun heq => he ?_⟩
    obtain rfl : d = c := Except.ok.inj (hd.symm.trans (heq.trans hc))
    -- the pixel that holds the cell is read from both
    obtain ⟨x, y, hx, hy, hcolumn, hline⟩ := Region.exists_place ⟨hcol, hrow⟩ hin
    have hpixels := (hpatch'.get?_eq x y hx hy).symm.trans (hpatch.get?_eq x y hx hy)
    rw [hcolumn, hline, cell_withCell hs hu hv e hu, if_pos ⟨rfl, rfl⟩] at hpixels
    exact congrArg Pixel.cell (Option.some.inj hpixels)

/-! ### Painting around a point -/

/-- **Painting writes the places with a pixel over them** that the mode does not skip, and no
others. -/
theorem writes_stamp_iff (hs : s.ring.Uniform width height)
    (hgrid : IsCoordinate width ∧ IsCoordinate height) (hb : b.IsFull) (hw : 0 < b.width)
    (hh : 0 < b.height) (hbrush : IsCoordinate b.width ∧ IsCoordinate b.height) (hu : u < width)
    (hv : v < height) :
    s.Writes (fun t => (t.stamp b cx cy).2) u v ↔
      ∃ p, b.covering cx cy u v = some p ∧ s.stampMode.skips p = false := by
  -- what is at the place afterwards, whatever was there before it was painted
  have hafter : ∀ e, ∃ k : Grid, ((s.withCell u v e).stamp b cx cy).2.currentGrid = k ∧
      (∀ p, b.covering cx cy u v = some p → s.stampMode.skips p = false →
        k.cell u v = p.cell.clamped) ∧
      ((∀ p, b.covering cx cy u v = some p → s.stampMode.skips p = true) →
        k.cell u v = (s.withCell u v e).currentGrid.cell u v) := by
    intro e
    have huniform := uniform_withCell hs u v e
    obtain ⟨k, report, hk, -, hpainted, hbare⟩ :=
      Grid.exists_stamp (hasSize_currentGrid huniform) hb hw hh hbrush hgrid cx cy s.stampMode
    obtain ⟨t, ht, hcurrent⟩ := currentGrid_stamp huniform hk
    exact ⟨k, by rw [ht, hcurrent], fun p => hpainted u v p hu hv, hbare u v hu hv⟩
  constructor
  · rintro ⟨e, hne⟩
    by_contra hnot
    obtain ⟨k, hk, -, hbare⟩ := hafter e
    refine hne ((congrArg (Grid.cell · u v) hk).trans (hbare fun p hp => ?_))
    exact Bool.of_not_eq_false fun hskip => hnot ⟨p, hp, hskip⟩
  · rintro ⟨p, hp, hskip⟩
    obtain ⟨e, he⟩ := Cell.exists_clamped_ne p.cell.clamped
    obtain ⟨k, hk, hpainted, -⟩ := hafter e
    refine ⟨e, fun heq => he ?_⟩
    have hwritten := (congrArg (Grid.cell · u v) hk).symm.trans heq
    rw [hpainted p hp hskip, cell_withCell hs hu hv e hu, if_pos ⟨rfl, rfl⟩] at hwritten
    exact hwritten.symm

/-! ### Agreement -/

/-- **Capturing and painting agree on what is on the grid**, for a brush of which no pixel is
skipped. A region around a point is captured exactly if painting the brush there clips nothing, and
is out of bounds otherwise, for any centre. What is captured has been read from the places that
painting writes: the two sets of cells are the same, and each pixel is the cell of the place where
the pixel of the brush lands. -/
theorem captureCentered_agrees (hs : Reachable width height s)
    (hgrid : IsCoordinate width ∧ IsCoordinate height) (hb : b.IsFull) (hw : 0 < b.width)
    (hh : 0 < b.height) (hbrush : IsCoordinate b.width ∧ IsCoordinate b.height)
    (hall : ∀ p ∈ b.pixels, s.stampMode.skips p = false) (cx cy : Int) :
    ∃ report t, s.stamp b cx cy = (.ok report, t) ∧
      ((∃ c, (s.captureCentered cx cy b.width b.height).1 = .ok c) ↔ report.clipped = 0) ∧
      (report.clipped ≠ 0 → ∃ r,
        (s.captureCentered cx cy b.width b.height).1 = .error (.outOfBounds r width height)) ∧
      ∀ c, (s.captureCentered cx cy b.width b.height).1 = .ok c →
        (∀ u v, u < width → v < height →
          (s.Reads (fun t => (t.captureCentered cx cy b.width b.height).1) u v ↔
            s.Writes (fun t => (t.stamp b cx cy).2) u v)) ∧
        ∀ x y p (u v : Nat), b.get? x y = some p → b.landing cx cy x y = (↑u, ↑v) →
          (u < width ∧ v < height) ∧ c.get? x y = some (.opaquely (s.currentGrid.cell u v)) := by
  have huniform := hs.ready.uniform
  have hg := hasSize_currentGrid huniform
  obtain ⟨k, report, hk, -⟩ := Grid.exists_stamp hg hb hw hh hbrush hgrid cx cy s.stampMode
  obtain ⟨t, ht, -⟩ := currentGrid_stamp huniform hk
  refine ⟨report, t, ht, ?_⟩
  rw [ne_eq, Grid.clipped_eq_zero_iff hg hgrid hb hw hh hbrush hall hk]
  by_cases hin : (Region.centered cx cy b.width b.height).Inside width height
  · obtain ⟨c, hc, hpatch⟩ := captureCentered_of_inside huniform hgrid hw hh hin
    refine ⟨⟨fun _ => hin, fun _ => ⟨c, hc⟩⟩, fun hout => absurd hin hout, fun d hd => ?_⟩
    obtain rfl : c = d := Except.ok.inj (hc.symm.trans hd)
    refine ⟨fun u v hu hv => ?_, fun x y p u v hp hland => ?_⟩
    · rw [reads_captureCentered_iff huniform hgrid hw hh hin hu hv,
        writes_stamp_iff huniform hgrid hb hw hh hbrush hu hv, ← hb.exists_covering_iff]
      exact exists_congr fun p => (and_iff_left_of_imp fun hp =>
        hall p (Brush.mem_pixels_of_covering hp)).symm
    · obtain ⟨hx, hy, -⟩ := Brush.get?_eq_some_iff.mp hp
      exact hpatch.get?_of_landing hin hx hy hland
  · obtain ⟨r, hr⟩ := captureCentered_of_not_inside huniform hgrid hw hh hin
    rw [hr]
    exact ⟨⟨nofun, fun h => absurd h hin⟩, fun _ => ⟨r, rfl⟩, nofun⟩

/-- A brush that fits between the edges, and the same brush one column over the left edge, over the
right edge, and around the least and the greatest coordinate. -/
theorem captureCentered_agrees_at_edges :
    let g : Grid := ⟨3, 2, Array.replicate 6 .black⟩
    let s : Simulation :=
      ⟨⟨.double, #[g, g], 0⟩, ⟨2, 3⟩, none, .alphaOnly, .ofSeed 1, none, 0, .standard, .off⟩
    let b : Brush := ⟨2, 2, #[⟨.white, 1⟩, ⟨.black, 0.5⟩, ⟨.white, -1⟩, ⟨⟨2, -1, 0⟩, 1⟩]⟩
    make (.ofSeed 1) .off 3 2 2 3 = .ok s ∧
      (∃ c, (s.captureCentered 1 1 2 2).1 = .ok c ∧ c.get? 1 1 = some ⟨.black, 1⟩ ∧
        ∀ u v, u < 3 → v < 2 → (s.Reads (fun t => (t.captureCentered 1 1 2 2).1) u v ↔
          s.Writes (fun t => (t.stamp b 1 1).2) u v)) ∧
      ∀ cx ∈ [0, 3, Int64.minValue.toInt, Int64.maxValue.toInt],
        ∃ r, (s.captureCentered cx 1 2 2).1 = .error (.outOfBounds r 3 2) := by
  intro g s b
  have hmade : make (.ofSeed 1) .off 3 2 2 3 = .ok s := rfl
  have hagree := captureCentered_agrees (b := b) (Reachable.made (by decide) hmade) (by decide) rfl
    (by decide) (by decide) (by decide) (by decide)
  have hclips : ∀ cx ∈ [0, 3, Int64.minValue.toInt, Int64.maxValue.toInt],
      (s.stamp b cx 1).1.toOption.map StampReport.clipped ≠ some 0 := by decide
  refine ⟨hmade, ?_, fun cx hcx => ?_⟩
  · obtain ⟨report, t, ht, hok, -, hsame⟩ := hagree 1 1
    have hclipped : report.clipped = 0 := by
      obtain rfl := Except.ok.inj (congrArg Prod.fst ht)
      decide
    obtain ⟨c, hc⟩ := hok.mpr hclipped
    obtain ⟨hcells, hpixels⟩ := hsame c hc
    exact ⟨c, hc, (hpixels 1 1 _ 1 0 rfl (by decide)).2.trans (by decide), hcells⟩
  · obtain ⟨report, t, ht, -, hout, -⟩ := hagree cx 1
    refine hout fun hzero => hclips cx hcx ?_
    rw [ht]
    exact congrArg some hzero

end Simulation

end Moorland
