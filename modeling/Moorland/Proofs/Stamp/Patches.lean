import Moorland.Proofs.Grid.Valid
import Moorland.Proofs.Simulation.Command
import Moorland.Proofs.Stamp.Cells
/-!
# Patches that are read back

Capturing reads a patch of a grid with the same turn of its rows with which painting writes one.
This file plays the two against each other, in both orders.

What is captured where a brush has been painted is the brush, with the old cells in the place of the
pixels that were skipped (`Moorland.Simulation.captureCentered_stamp`). What is captured and painted
again is moved, without any change to a cell: a stored cell is its own stored form, and the brush
that was captured does not change while it is painted, so that a patch may be moved over itself
(`Moorland.Grid.stamp_capture`).

Both need that the sides of the grid are coordinates. No row and no column of cells that fits in
memory is longer.
-/

namespace Moorland

/-- The last place of a row of `n` is in range if the row ends within a side that is. -/
theorem offset_last {x : Int} {n side : Nat} (hside : IsCoordinate side)
    (hx : 0 ≤ x ∧ x + n ≤ side) : offset x (n - 1) = some (x + (n - 1 : Nat)) := by
  rw [isCoordinate_iff] at hside
  refine offset_eq_some_iff.mpr ⟨?_, ?_, rfl⟩
  · rw [isCoordinate_iff]
    omega
  · rw [isCoordinate_iff]
    omega

theorem Pixel.isTransparent_of_alpha {p : Pixel} (h : p.alpha = 1) : p.isTransparent = false := by
  rw [isTransparent, h]
  rfl

namespace Grid

variable {g : Grid} {r : Region} {c : Brush} {width height : Nat}

/-! ### Capturing -/

/-- **A region fits** if its columns and its rows are among those of the grid. -/
theorem fits_iff (hgrid : IsCoordinate g.width ∧ IsCoordinate g.height) (hw : 0 < r.width)
    (hh : 0 < r.height) : g.fits r = true ↔
      (0 ≤ r.x ∧ r.x + r.width ≤ g.width) ∧ 0 ≤ r.y ∧ r.y + r.height ≤ g.height := by
  constructor
  · intro h
    rw [fits] at h
    split at h
    · next x y hx hy =>
      obtain ⟨-, -, rfl⟩ := offset_eq_some_iff.mp hx
      obtain ⟨-, -, rfl⟩ := offset_eq_some_iff.mp hy
      simp only [Bool.and_eq_true, contains_iff] at h
      omega
    · cases h
  · rintro ⟨hx, hy⟩
    simp only [fits, offset_last hgrid.1 hx, offset_last hgrid.2 hy, Bool.and_eq_true, contains_iff]
    omega

/-- **A brush is the patch of a grid in a region**: it has the size of the region, and in each place
an opaque pixel with the cell of the grid there, the top row first. -/
structure IsPatch (g : Grid) (r : Region) (c : Brush) : Prop where
  /-- It has the columns of the region. -/
  width_eq : c.width = r.width
  /-- It has the rows of the region. -/
  height_eq : c.height = r.height
  /-- It has a pixel for each place. -/
  isFull : c.IsFull
  /-- The pixels are the cells of the grid. -/
  get?_eq : ∀ x y, x < r.width → y < r.height → c.get? x y =
    some (.opaquely (g.cell (r.x.toNat + x) (r.y.toNat + (r.height - 1 - y))))

/-- **A region inside the grid is captured** as the patch that it holds. -/
theorem exists_capture (hgrid : IsCoordinate g.width ∧ IsCoordinate g.height) (hw : 0 < r.width)
    (hh : 0 < r.height) (hx : 0 ≤ r.x ∧ r.x + r.width ≤ g.width)
    (hy : 0 ≤ r.y ∧ r.y + r.height ≤ g.height) : ∃ c, g.capture r = .ok c ∧ g.IsPatch r c := by
  have hfits : g.fits r = true := (fits_iff hgrid hw hh).mpr ⟨hx, hy⟩
  have hcapture : g.capture r = .ok ⟨r.width, r.height, Array.ofFn
      fun i : Fin (r.width * r.height) => .opaquely
        (g.cell (r.x.toNat + i % r.width) (r.y.toNat + (r.height - 1 - i / r.width)))⟩ := by
    rw [capture, if_neg (by omega), if_pos hfits]
  refine ⟨_, hcapture, ⟨rfl, rfl, Array.size_ofFn, fun x y hcol hrow => ?_⟩⟩
  have hlt : y * r.width + x < r.width * r.height :=
    index_lt (g := ⟨r.width, r.height, #[]⟩) hcol hrow
  obtain ⟨hcolumn, hline⟩ := place_add (y := y) hcol
  refine Brush.get?_eq_some_iff.mpr ⟨hcol, hrow, ?_⟩
  rw [Array.getElem?_eq_getElem (by rwa [Array.size_ofFn]), Array.getElem_ofFn]
  simp only [hcolumn, hline]

/-- **The pixel of a patch over a place**, for a patch that has been moved away from its region, is
the cell that lies as far back. -/
theorem IsPatch.covering_eq_some_iff (hc : g.IsPatch r c) (hx : 0 ≤ r.x) (hy : 0 ≤ r.y)
    {dx dy : Int} {u v : Nat} {p : Pixel} :
    c.covering (r.x + (r.width / 2 : Nat) + dx) (r.y + (r.height / 2 : Nat) + dy) u v = some p ↔
      ((r.x ≤ u - dx ∧ u - dx < r.x + r.width) ∧ r.y ≤ v - dy ∧ v - dy < r.y + r.height) ∧
        p = .opaquely (g.cell (u - dx).toNat (v - dy).toNat) := by
  rw [Brush.covering_eq_some_iff, hc.width_eq, hc.height_eq]
  constructor
  · rintro ⟨x, y, hp, hu, hv⟩
    obtain ⟨hcol, hrow, -⟩ := Brush.get?_eq_some_iff.mp hp
    rw [hc.width_eq] at hcol
    rw [hc.height_eq] at hrow
    have hcolumn : r.x.toNat + x = (u - dx).toNat := by omega
    have hline : r.y.toNat + (r.height - 1 - y) = (v - dy).toNat := by omega
    rw [hc.get?_eq x y hcol hrow, hcolumn, hline] at hp
    exact ⟨⟨by omega, by omega⟩, (Option.some.inj hp).symm⟩
  · rintro ⟨hin, rfl⟩
    have hcolumn : r.x.toNat + (u - dx - r.x).toNat = (u - dx).toNat := by omega
    have hline : r.y.toNat + (r.height - 1 - (r.height - 1 - (v - dy - r.y).toNat)) =
        (v - dy).toNat := by omega
    refine ⟨(u - dx - r.x).toNat, r.height - 1 - (v - dy - r.y).toNat, ?_, by omega, by omega⟩
    rw [hc.get?_eq _ _ (by omega) (by omega), hcolumn, hline]

/-! ### Moving a patch -/

/-- **A patch that is captured and painted is moved**, without a change to any cell. The place
`(u, v)` then holds what lay `dx` columns and `dy` rows back, if that is in the rectangle, and what
it held before otherwise; the rectangle may be moved over itself or off the grid. Painted where it
was captured, a patch changes nothing in either mode. -/
theorem stamp_capture {x y w h : Nat} (hg : g.Valid width height)
    (hgrid : IsCoordinate width ∧ IsCoordinate height) (hw : 0 < w) (hh : 0 < h)
    (hx : x + w ≤ width) (hy : y + h ≤ height) :
    ∃ c, g.capture ⟨x, y, w, h⟩ = .ok c ∧
      (∀ dx dy : Int, ∃ k report,
        g.stamp c (x + (w / 2 : Nat) + dx) (y + (h / 2 : Nat) + dy) .alphaOnly = .ok (k, report) ∧
        k.HasSize width height ∧
        ∀ u v : Nat, u < width → v < height → k.cell u v =
          if ((x : Int) ≤ u - dx ∧ u - dx < x + w) ∧ (y : Int) ≤ v - dy ∧ v - dy < y + h then
            g.cell (u - dx).toNat (v - dy).toNat
          else g.cell u v) ∧
      ∀ mode, ∃ report,
        g.stamp c (x + (w / 2 : Nat)) (y + (h / 2 : Nat)) mode = .ok (g, report) := by
  have hcolumns : 0 ≤ (x : Int) ∧ (x : Int) + w ≤ g.width := by
    rw [hg.width_eq]
    omega
  have hrows : 0 ≤ (y : Int) ∧ (y : Int) + h ≤ g.height := by
    rw [hg.height_eq]
    omega
  obtain ⟨c, hcapture, hc⟩ := exists_capture (g := g) (r := ⟨x, y, w, h⟩)
    (by rwa [hg.width_eq, hg.height_eq]) hw hh hcolumns hrows
  have hbrush : IsCoordinate c.width ∧ IsCoordinate c.height := by
    simp only [isCoordinate_iff, hc.width_eq, hc.height_eq] at hgrid ⊢
    omega
  have hcw : 0 < c.width := hc.width_eq.symm ▸ hw
  have hch : 0 < c.height := hc.height_eq.symm ▸ hh
  have hcovering : ∀ (dx dy : Int) (u v : Nat) (p : Pixel),
      c.covering (x + (w / 2 : Nat) + dx) (y + (h / 2 : Nat) + dy) u v = some p ↔
        (((x : Int) ≤ u - dx ∧ u - dx < x + w) ∧ (y : Int) ≤ v - dy ∧ v - dy < y + h) ∧
          p = .opaquely (g.cell (u - dx).toNat (v - dy).toNat) :=
    fun _ _ _ _ _ => hc.covering_eq_some_iff hcolumns.1 hrows.1
  -- the cells of the patch are stored ones, so that painting them changes none of them
  have hkeep : ∀ u v, u < width → v < height → (g.cell u v).clamped = g.cell u v :=
    fun u v hu hv => (hg.forall_cell hg.isStored hu hv).clamped_eq
  refine ⟨c, hcapture, fun dx dy => ?_, fun mode => ?_⟩
  · obtain ⟨k, report, hk, hsize, hpainted, hbare⟩ :=
      exists_stamp hg.toHasSize hc.isFull hcw hch hbrush hgrid (x + (w / 2 : Nat) + dx)
        (y + (h / 2 : Nat) + dy) .alphaOnly
    refine ⟨k, report, hk, hsize, fun u v hu hv => ?_⟩
    split
    · next hin =>
      rw [hpainted u v _ hu hv ((hcovering dx dy u v _).mpr ⟨hin, rfl⟩)
        (Pixel.isTransparent_of_alpha rfl)]
      exact hkeep _ _ (by omega) (by omega)
    · next hout => exact hbare u v hu hv fun p hp => absurd ((hcovering dx dy u v p).mp hp).1 hout
  · refine exists_stamp_self hg.toHasSize hc.isFull hcw hch hbrush hgrid fun u v p hu hv hp => ?_
    rw [← Int.add_zero (x + (w / 2 : Nat)), ← Int.add_zero (y + (h / 2 : Nat))] at hp
    obtain ⟨-, rfl⟩ := (hcovering 0 0 u v p).mp hp
    rw [Int.sub_zero, Int.sub_zero, Int.toNat_natCast, Int.toNat_natCast]
    exact hkeep u v hu hv

/-- A square of four cells, moved over itself by one column to the right and one row up, so that its
upper row leaves the grid. A zero keeps its sign. -/
theorem stamp_capture_over_itself :
    let g : Grid := ⟨3, 2, #[⟨-0, 1, 0⟩, ⟨0.5, 0, 0⟩, .black, .white, ⟨0, 0.5, 0⟩, .white]⟩
    let h : Grid := ⟨3, 2, #[⟨-0, 1, 0⟩, ⟨0.5, 0, 0⟩, .black, .white, ⟨-0, 1, 0⟩, ⟨0.5, 0, 0⟩]⟩
    (g.Valid 3 2 ∧ IsCoordinate (3 : Nat) ∧ IsCoordinate (2 : Nat)) ∧
      ∃ c report, g.capture ⟨0, 0, 2, 2⟩ = .ok c ∧ g.stamp c 2 2 .alphaOnly = .ok (h, report) := by
  intro g h
  have hg : g.Valid 3 2 := ⟨⟨rfl, rfl, rfl⟩, by decide, by decide, by decide⟩
  have hgrid : IsCoordinate (3 : Nat) ∧ IsCoordinate (2 : Nat) := by decide
  obtain ⟨c, hc, hmoved, -⟩ := stamp_capture (x := 0) (y := 0) (w := 2) (h := 2) hg hgrid
    (by decide) (by decide) (by decide) (by decide)
  obtain ⟨k, report, hk, hsize, hcell⟩ := hmoved 1 1
  have hread : ∀ u < 3, ∀ v < 2, k.cell u v = h.cell u v := by
    intro u hu v hv
    rw [hcell u v hu hv]
    revert u v
    decide
  obtain rfl : k = h := hsize.ext ⟨rfl, rfl, rfl⟩ fun u v hu hv => hread u hu v hv
  exact ⟨⟨hg, hgrid⟩, c, report, hc, hk⟩

/-! ### Reading back what was painted -/

/-- **Capturing what a brush has covered** gives its pixels back, opaque and in stored form, and the
old cell in the place of a pixel that was skipped. -/
theorem exists_capture_of_stamp {b : Brush} {cx cy : Int} (hg : g.HasSize width height)
    (hgrid : IsCoordinate width ∧ IsCoordinate height) (hb : b.IsFull) (hw : 0 < b.width)
    (hh : 0 < b.height)
    (hx : 0 ≤ cx - (b.width / 2 : Nat) ∧ cx - (b.width / 2 : Nat) + b.width ≤ width)
    (hy : 0 ≤ cy - (b.height / 2 : Nat) ∧ cy - (b.height / 2 : Nat) + b.height ≤ height)
    (mode : StampMode) :
    ∃ k report c, g.stamp b cx cy mode = .ok (k, report) ∧
      k.capture ⟨cx - (b.width / 2 : Nat), cy - (b.height / 2 : Nat), b.width, b.height⟩ = .ok c ∧
      c.width = b.width ∧ c.height = b.height ∧ c.IsFull ∧
      ∀ x y p, b.get? x y = some p → c.get? x y = some (.opaquely
        (if mode.skips p then
          g.cell (cx - (b.width / 2 : Nat) + x).toNat
            (cy - (b.height / 2 : Nat) + (b.height - 1 - y : Nat)).toNat
        else p.cell.clamped)) := by
  have hbrush : IsCoordinate b.width ∧ IsCoordinate b.height := by
    simp only [isCoordinate_iff] at hgrid ⊢
    omega
  obtain ⟨k, report, hk, hsize, hpainted, hbare⟩ := exists_stamp hg hb hw hh hbrush hgrid cx cy mode
  obtain ⟨c, hcapture, hc⟩ := exists_capture (g := k)
    (r := ⟨cx - (b.width / 2 : Nat), cy - (b.height / 2 : Nat), b.width, b.height⟩)
    (by rwa [hsize.width_eq, hsize.height_eq]) hw hh (by rwa [hsize.width_eq])
    (by rwa [hsize.height_eq])
  refine ⟨k, report, c, hk, hcapture, hc.width_eq, hc.height_eq, hc.isFull, fun x y p hp => ?_⟩
  obtain ⟨hcol, hrow, -⟩ := Brush.get?_eq_some_iff.mp hp
  -- the pixel lies over the place from which it is read back
  obtain ⟨u, hu⟩ := Int.eq_ofNat_of_zero_le (show 0 ≤ cx - (b.width / 2 : Nat) + x by omega)
  obtain ⟨v, hv⟩ := Int.eq_ofNat_of_zero_le
    (show 0 ≤ cy - (b.height / 2 : Nat) + (b.height - 1 - y : Nat) by omega)
  have hcovering : b.covering cx cy u v = some p :=
    Brush.covering_eq_some_iff.mpr ⟨x, y, hp, hu, hv⟩
  have hcolumn : (cx - (b.width / 2 : Nat)).toNat + x = u := by omega
  have hline : (cy - (b.height / 2 : Nat)).toNat + (b.height - 1 - y) = v := by omega
  rw [hu, hv, Int.toNat_natCast, Int.toNat_natCast, hc.get?_eq x y hcol hrow, hcolumn, hline]
  rcases hskip : mode.skips p with _ | _
  · rw [hpainted u v p (by omega) (by omega) hcovering hskip]
    rfl
  · have hold : k.cell u v = g.cell u v := by
      refine hbare u v (by omega) (by omega) fun q hq => ?_
      rw [← Option.some.inj (hcovering.symm.trans hq)]
      exact hskip
    rw [hold]
    rfl

end Grid

/-! ### Reading back by the operations of a simulation -/

namespace Simulation

variable {s : Simulation} {b : Brush} {cx cy : Int} {width height : Nat}

theorem currentGrid_stamp (hs : s.ring.Uniform width height) {k : Grid} {report : StampReport}
    (hk : s.currentGrid.stamp b cx cy s.stampMode = .ok (k, report)) :
    ∃ t, s.stamp b cx cy = (.ok report, t) ∧ t.currentGrid = k := by
  have hcurrent : (s.ring.replaceCurrent k).currentGrid = k :=
    Ring.currentGrid_replaceCurrent (hs.size_slots ▸ hs.current_lt) k
  rw [stamp, hk]
  refine ⟨_, rfl, ?_⟩
  split
  · exact hcurrent
  · exact hcurrent

/-- **A brush that has been painted inside the grid is captured again.** Every pixel comes back
opaque and in stored form, except that the old cell comes in the place of a pixel that was skipped.
So a brush comes back as it was if its pixels are opaque and stored ones, unless the mode is the one
that skips black pixels and it has some. -/
theorem captureCentered_stamp (hs : s.ring.Uniform width height)
    (hgrid : IsCoordinate width ∧ IsCoordinate height) (hb : b.IsFull) (hw : 0 < b.width)
    (hh : 0 < b.height)
    (hx : 0 ≤ cx - (b.width / 2 : Nat) ∧ cx - (b.width / 2 : Nat) + b.width ≤ width)
    (hy : 0 ≤ cy - (b.height / 2 : Nat) ∧ cy - (b.height / 2 : Nat) + b.height ≤ height) :
    ∃ report t c u, s.stamp b cx cy = (.ok report, t) ∧
      t.captureCentered cx cy b.width b.height = (.ok c, u) ∧
      c.width = b.width ∧ c.height = b.height ∧ c.IsFull ∧
      (∀ x y p, b.get? x y = some p → c.get? x y = some (.opaquely
        (if s.stampMode.skips p then
          s.currentGrid.cell (cx - (b.width / 2 : Nat) + x).toNat
            (cy - (b.height / 2 : Nat) + (b.height - 1 - y : Nat)).toNat
        else p.cell.clamped))) ∧
      ((∀ p ∈ b.pixels, p.alpha = 1 ∧ p.cell.IsStored ∧
        (s.stampMode = .voidColor → p.cell.isBlack = false)) → c = b) := by
  obtain ⟨k, report, c, hk, hcapture, hcw, hch, hfull, hpixel⟩ :=
    Grid.exists_capture_of_stamp hs.currentGrid hgrid hb hw hh hx hy s.stampMode
  obtain ⟨t, ht, hcurrent⟩ := currentGrid_stamp hs hk
  have hcorner : centeredCorner cx cy b.width b.height =
      some (cx - (b.width / 2 : Nat), cy - (b.height / 2 : Nat)) := by
    simp only [isCoordinate_iff] at hgrid
    refine centeredCorner_eq_some_iff.mpr ⟨⟨?_, ?_⟩, ⟨?_, rfl⟩, ?_, rfl⟩
    all_goals
      rw [isCoordinate_iff]
      omega
  have hread : t.captureCentered cx cy b.width b.height = (.ok c, t.count "capture") := by
    simp only [captureCentered, hcorner, capture, hcurrent, hcapture]
  refine ⟨report, t, c, _, ht, hread, hcw, hch, hfull, hpixel, fun hall => ?_⟩
  refine (hb.ext hfull hcw.symm hch.symm fun x y p hp => ?_).symm
  obtain ⟨halpha, hstored, hblack⟩ := hall p (Brush.mem_pixels_of_get? hp)
  have hskip : s.stampMode.skips p = false := by
    have hsolid : p.isTransparent = false := Pixel.isTransparent_of_alpha halpha
    rcases hm : s.stampMode with _ | _
    · exact hsolid
    · exact Bool.or_eq_false_iff.mpr ⟨hsolid, hblack hm⟩
  rw [hpixel x y p hp, hskip, if_neg Bool.false_ne_true, hstored.clamped_eq, Pixel.opaquely,
    ← halpha]

/-- A black pixel and a transparent one are skipped, and the other two are painted, of which one is
out of range and the other is not opaque. -/
theorem captureCentered_stamp_skipping :
    let g : Grid := ⟨3, 2, #[⟨0.5, 0, 0⟩, .white, .black, .white, ⟨0, -0, 1⟩, .white]⟩
    let b : Brush := ⟨2, 2, #[⟨⟨2, -1, 0.5⟩, 1⟩, ⟨.black, 1⟩, ⟨.white, 0⟩, ⟨⟨0, 0, 1⟩, 0.5⟩]⟩
    let s : Simulation :=
      ⟨⟨.double, #[g, g], 0⟩, ⟨2, 3⟩, none, .voidColor, .ofSeed 1, none, 0, .standard, .off⟩
    (s.ring.Uniform 3 2 ∧ (IsCoordinate (3 : Nat) ∧ IsCoordinate (2 : Nat)) ∧ b.IsFull) ∧
      ∃ report t c u, s.stamp b 1 1 = (.ok report, t) ∧
        t.captureCentered 1 1 2 2 = (.ok c, u) ∧
        (c.get? 0 0 = some ⟨⟨1, 0, 0.5⟩, 1⟩ ∧ c.get? 1 0 = some ⟨⟨0, -0, 1⟩, 1⟩) ∧
        c.get? 0 1 = some ⟨⟨0.5, 0, 0⟩, 1⟩ ∧ c.get? 1 1 = some ⟨⟨0, 0, 1⟩, 1⟩ := by
  intro g b s
  have hg : g.HasSize 3 2 := ⟨rfl, rfl, rfl⟩
  have hs : s.ring.Uniform 3 2 := Ring.uniform_pair hg hg
  have hgrid : IsCoordinate (3 : Nat) ∧ IsCoordinate (2 : Nat) := by decide
  have hb : b.IsFull := rfl
  have hcolumns : 0 ≤ (1 : Int) - (b.width / 2 : Nat) ∧
      (1 : Int) - (b.width / 2 : Nat) + b.width ≤ (3 : Nat) := by decide
  have hrows : 0 ≤ (1 : Int) - (b.height / 2 : Nat) ∧
      (1 : Int) - (b.height / 2 : Nat) + b.height ≤ (2 : Nat) := by decide
  obtain ⟨report, t, c, u, ht, hu, -, -, -, hpixel, -⟩ :=
    captureCentered_stamp hs hgrid hb (by decide) (by decide) hcolumns hrows
  refine ⟨⟨hs, hgrid, hb⟩, report, t, c, u, ht, hu, ⟨?_, ?_⟩, ?_, ?_⟩
  · exact (hpixel 0 0 _ rfl).trans (by decide)
  · exact (hpixel 1 0 _ rfl).trans (by decide)
  · exact (hpixel 0 1 _ rfl).trans (by decide)
  · exact (hpixel 1 1 _ rfl).trans (by decide)

/-- **A black pixel is skipped in one of the modes**, however opaque it is, so that what is captured
is not the brush. -/
theorem captureCentered_stamp_black :
    ∃ s, make (.ofSeed 1) .off 1 1 2 3 = .ok s ∧
      let t := s.run [.withStampMode .voidColor, .resetTo ⟨1, 1, #[.white]⟩]
      let b : Brush := ⟨1, 1, #[.opaquely .black]⟩
      let c : Brush := ⟨1, 1, #[.opaquely .white]⟩
      (∀ p ∈ b.pixels, p.alpha = 1 ∧ p.cell.IsStored) ∧
        (t.stamp b 0 0).1 = .ok ⟨0, 0, 1⟩ ∧
        ((t.stamp b 0 0).2.captureCentered 0 0 1 1).1 = .ok c ∧ c ≠ b := by
  have hmade : make (.ofSeed 1) .off 1 1 2 3 =
      .ok ⟨⟨.double, #[⟨1, 1, #[.black]⟩, ⟨1, 1, #[.black]⟩], 0⟩, ⟨2, 3⟩, none, .alphaOnly,
        .ofSeed 1, none, 0, .standard, .off⟩ := rfl
  exact ⟨_, hmade, by decide, rfl, rfl, by decide⟩

end Simulation

end Moorland
