import Moorland.Proofs.Stamp.Footprint
/-!
# Void pixels

There are two ways not to paint black. A stamp mode skips black pixels along with the transparent
ones, and `Moorland.Brush.purgeVoid` makes them transparent beforehand, for the mode that skips
nothing else. Here the two are compared (`Moorland.Grid.stamp_purgeVoid`): they give the same grid
and the same report, because the mode skips exactly the pixels that are replaced, and what replaces
them is skipped. Alphas and channels are compared as floating-point numbers on both sides, so that a
negative zero makes a pixel void and a NaN does not.

A brush of void pixels only is the exception, since purging leaves an eraser as it is: skipping
black pixels paints nothing of it, and purging it first paints every pixel that is not transparent.
-/

namespace Moorland

/-! ### Purging a pixel -/

namespace Pixel

/-- The pixel, or the transparent one if it is void. -/
def purged (p : Pixel) : Pixel := if p.isVoid then .transparent else p

theorem isTransparent_purged (p : Pixel) : p.purged.isTransparent = p.isVoid := by
  rw [purged]
  split
  · next hvoid => exact hvoid.symm
  · next hvoid =>
    have hsolid : p.isVoid = false := Bool.of_not_eq_true hvoid
    exact (Bool.or_eq_false_iff.mp hsolid).1.trans hsolid.symm

theorem purged_of_not_void {p : Pixel} (hp : p.isVoid = false) : p.purged = p :=
  if_neg (Bool.not_eq_true _ ▸ hp)

theorem isVoid_transparent : transparent.isVoid = true := by decide

theorem purged_purged (p : Pixel) : p.purged.purged = p.purged := by
  rcases hp : p.isVoid with _ | _
  · rw [purged_of_not_void hp, purged_of_not_void hp]
  · have hpurged : p.purged = transparent := if_pos hp
    rw [hpurged]
    exact if_pos isVoid_transparent

end Pixel

/-! ### Purging a brush -/

namespace Brush

variable {b : Brush}

/-- The brush with a function applied to its pixels. -/
def mapPixels (b : Brush) (f : Pixel → Pixel) : Brush := { b with pixels := b.pixels.map f }

theorem placed_mapPixels (b : Brush) (f : Pixel → Pixel) :
    (b.mapPixels f).placed = b.placed.map fun q => (q.1, f q.2) := by
  simp only [placed, mapPixels, Array.toList_map, List.zipIdx_map, List.map_map]
  rfl

theorem purgeVoid_of_all (hall : ∀ p ∈ b.pixels, p.isVoid = true) : b.purgeVoid = b :=
  if_pos (Array.all_eq_true'.mpr hall)

/-- **A brush that is not an eraser is purged** pixel by pixel. -/
theorem purgeVoid_of_exists (hsome : ∃ p ∈ b.pixels, p.isVoid = false) :
    b.purgeVoid = b.mapPixels Pixel.purged := by
  obtain ⟨p, hp, hvoid⟩ := hsome
  refine if_neg fun hall => ?_
  rw [Array.all_eq_true'.mp hall p hp] at hvoid
  cases hvoid

theorem purgeVoid_purgeVoid (b : Brush) : b.purgeVoid.purgeVoid = b.purgeVoid := by
  by_cases hsome : ∃ p ∈ b.pixels, p.isVoid = false
  · -- a pixel that is not void is kept, so that what is left is not an eraser
    obtain ⟨p, hp, hvoid⟩ := hsome
    have hkept : ∃ q ∈ (b.mapPixels Pixel.purged).pixels, q.isVoid = false :=
      ⟨p, Array.mem_map.mpr ⟨p, hp, Pixel.purged_of_not_void hvoid⟩, hvoid⟩
    have htwice : Pixel.purged ∘ Pixel.purged = Pixel.purged := funext Pixel.purged_purged
    rw [purgeVoid_of_exists ⟨p, hp, hvoid⟩, purgeVoid_of_exists hkept, mapPixels, mapPixels]
    simp only [Array.map_map, htwice]
  · have hall : ∀ p ∈ b.pixels, p.isVoid = true := fun p hp =>
      Bool.of_not_eq_false fun hvoid => hsome ⟨p, hp, hvoid⟩
    rw [purgeVoid_of_all hall, purgeVoid_of_all hall]

end Brush

/-! ### Painting -/

namespace Grid

variable {g k : Grid} {b : Brush} {mode : StampMode} {width height : Nat} {report : StampReport}

/-- **A pixel is painted alike** if it is purged first and if the mode skips void pixels. -/
theorem stampPixel_purged (corner : Option (Int × Int)) (rows : Nat) (state : Grid × StampReport)
    (q : (Nat × Nat) × Pixel) :
    stampPixel .alphaOnly corner rows state (q.1, q.2.purged) =
      stampPixel .voidColor corner rows state q := by
  have hskips : StampMode.alphaOnly.skips q.2.purged = StampMode.voidColor.skips q.2 :=
    Pixel.isTransparent_purged q.2
  rw [stampPixel, stampPixel]
  simp only [hskips]
  rcases hvoid : StampMode.voidColor.skips q.2 with _ | _
  · rw [Pixel.purged_of_not_void hvoid]
  · rfl

/-- **Purging first is skipping void pixels**, but for an eraser. -/
theorem stamp_purgeVoid_of_exists (hsome : ∃ p ∈ b.pixels, p.isVoid = false) (cx cy : Int) :
    g.stamp b.purgeVoid cx cy .alphaOnly = g.stamp b cx cy .voidColor := by
  have hstep (corner : Option (Int × Int)) :
      (fun state (q : (Nat × Nat) × Pixel) =>
        stampPixel .alphaOnly corner b.height state (q.1, q.2.purged)) =
        stampPixel .voidColor corner b.height :=
    funext₂ (stampPixel_purged corner b.height)
  rw [Brush.purgeVoid_of_exists hsome, stamp, stamp, Brush.placed_mapPixels]
  simp only [List.foldl_map, Brush.mapPixels, hstep]

/-- **A brush of which every pixel is skipped** changes nothing and is counted as skipped. -/
theorem stamp_of_all_skipped (hg : g.HasSize width height)
    (hgrid : IsCoordinate width ∧ IsCoordinate height) (hb : b.IsFull) (hw : 0 < b.width)
    (hh : 0 < b.height) (hbrush : IsCoordinate b.width ∧ IsCoordinate b.height)
    (hall : ∀ p ∈ b.pixels, mode.skips p = true) (cx cy : Int) :
    g.stamp b cx cy mode = .ok (g, ⟨0, 0, b.width * b.height⟩) := by
  obtain ⟨k, report, hk, hsize, -, hbare⟩ :=
    exists_stamp_landing hg hb hw hh hbrush hgrid cx cy mode
  obtain rfl : k = g := hsize.ext hg fun u v hu hv =>
    hbare u v hu hv fun _ _ p hp _ => hall p (Brush.mem_pixels_of_get? hp)
  have hnone : ∀ f, f ≠ .skipped → report.tally f = 0 := by
    intro f hf
    rw [tally_stamp hg hgrid hb hbrush hk, Brush.count_eq_zero_iff]
    intro x y p hp
    rw [hall p (Brush.mem_pixels_of_get? hp)]
    cases f with
    | written => exact fun h => nomatch h.1
    | clipped => exact fun h => nomatch h.1
    | skipped => exact absurd rfl hf
  have hwritten : report.written = 0 := hnone .written nofun
  have hclipped : report.clipped = 0 := hnone .clipped nofun
  have htotal := total_stamp hb hk
  rw [StampReport.total, hwritten, hclipped, Nat.zero_add] at htotal
  obtain ⟨written, clipped, skipped⟩ := report
  subst hwritten hclipped htotal
  exact hk

/-- **Skipping void pixels is purging the brush first.** If some pixel is not void, the two give the
same grid and the same report. If all are void, the brush is an eraser and purging does not change
it; then the mode that skips void pixels changes nothing, and the other one writes exactly the
pixels that land on the grid and are not transparent. Purging twice is purging once. -/
theorem stamp_purgeVoid (hg : g.HasSize width height)
    (hgrid : IsCoordinate width ∧ IsCoordinate height) (hb : b.IsFull) (hw : 0 < b.width)
    (hh : 0 < b.height) (hbrush : IsCoordinate b.width ∧ IsCoordinate b.height) (cx cy : Int) :
    ((∃ p ∈ b.pixels, p.isVoid = false) → ∃ k report,
      g.stamp b cx cy .voidColor = .ok (k, report) ∧
        g.stamp b.purgeVoid cx cy .alphaOnly = .ok (k, report)) ∧
    ((∀ p ∈ b.pixels, p.isVoid = true) → b.purgeVoid = b ∧
      g.stamp b cx cy .voidColor = .ok (g, ⟨0, 0, b.width * b.height⟩) ∧
      ∃ k report, g.stamp b.purgeVoid cx cy .alphaOnly = .ok (k, report) ∧
        (∀ x y p u v, b.get? x y = some p → p.isTransparent = false → u < width → v < height →
          b.landing cx cy x y = (↑u, ↑v) → k.cell u v = p.cell.clamped) ∧
        (∀ u v, u < width → v < height →
          (∀ x y p, b.get? x y = some p → b.landing cx cy x y = (↑u, ↑v) →
            p.isTransparent = true) → k.cell u v = g.cell u v) ∧
        report.written =
          b.count (fun x y p => p.isTransparent = false ∧ g.IsPlace (b.landing cx cy x y))) ∧
    ∀ c : Brush, c.purgeVoid.purgeVoid = c.purgeVoid := by
  refine ⟨fun hsome => ?_, fun hall => ?_, Brush.purgeVoid_purgeVoid⟩
  · obtain ⟨k, report, hk, -⟩ := exists_stamp hg hb hw hh hbrush hgrid cx cy .voidColor
    exact ⟨k, report, hk, (stamp_purgeVoid_of_exists hsome cx cy).trans hk⟩
  · have hkept := Brush.purgeVoid_of_all hall
    obtain ⟨k, report, hk, -, hpainted, hbare⟩ :=
      exists_stamp_landing hg hb hw hh hbrush hgrid cx cy .alphaOnly
    have hskipped : ∀ p ∈ b.pixels, StampMode.voidColor.skips p = true := hall
    refine ⟨hkept, stamp_of_all_skipped hg hgrid hb hw hh hbrush hskipped cx cy, k, report, ?_,
      hpainted, hbare, ?_⟩
    · rw [hkept]
      exact hk
    · exact (tally_stamp hg hgrid hb hbrush hk .written).trans
        (Brush.count_congr fun _ _ _ _ => Iff.rfl)

/-- A brush with a NaN and a negative zero for alphas and a black pixel with negative zeros; and an
eraser, of which a pixel with a NaN for its alpha is painted after purging, one is transparent and
two lie outside the grid. -/
theorem stamp_purgeVoid_at_edges :
    let g : Grid := ⟨2, 2, #[.white, ⟨0.5, 0, 0⟩, .white, .white]⟩
    let nan : Float32 := 0 / 0
    let b : Brush := ⟨2, 2, #[⟨.white, nan⟩, ⟨.white, -0⟩, ⟨⟨-0, 0, -0⟩, 1⟩, ⟨⟨nan, 2, 0⟩, -1⟩]⟩
    let e : Brush := ⟨2, 2, #[⟨.black, 1⟩, ⟨.white, -0⟩, ⟨.black, 0.5⟩, ⟨⟨-0, 0, 0⟩, nan⟩]⟩
    (g.HasSize 2 2 ∧ IsCoordinate (2 : Nat)) ∧
      (b.purgeVoid ≠ b ∧ ∃ k report, g.stamp b 1 1 .voidColor = .ok (k, report) ∧
        g.stamp b.purgeVoid 1 1 .alphaOnly = .ok (k, report)) ∧
      e.purgeVoid = e ∧ g.stamp e 0 1 .voidColor = .ok (g, ⟨0, 0, 4⟩) ∧
        ∃ k report, g.stamp e.purgeVoid 0 1 .alphaOnly = .ok (k, report) ∧ report.written = 1 ∧
          k.cell 0 0 = ⟨-0, 0, 0⟩ ∧ k.cell 0 1 = .white := by
  intro g nan b e
  have hg : g.HasSize 2 2 := ⟨rfl, rfl, rfl⟩
  have hgrid : IsCoordinate (2 : Nat) ∧ IsCoordinate (2 : Nat) := by decide
  obtain ⟨hsame, -⟩ :=
    stamp_purgeVoid (b := b) hg hgrid rfl (by decide) (by decide) (by decide) 1 1
  obtain ⟨-, heraser, -⟩ :=
    stamp_purgeVoid (b := e) hg hgrid rfl (by decide) (by decide) (by decide) 0 1
  obtain ⟨hkept, hnothing, k, report, hk, hpainted, hbare, hwritten⟩ := heraser (by decide)
  refine ⟨⟨hg, hgrid.1⟩, ⟨by decide +kernel, hsame (by decide)⟩, hkept, hnothing, k, report, hk,
    hwritten.trans (by decide), ?_, ?_⟩
  · exact (hpainted 1 1 _ 0 0 rfl (by decide) (by decide) (by decide) (by decide)).trans
      (by decide)
  · refine hbare 0 1 (by decide) (by decide) fun x y p hp hland => ?_
    -- the transparent pixel is the only one that lands there
    have hpixel : e.landing 0 1 1 0 = (↑(0 : Nat), ↑(1 : Nat)) := by decide
    obtain ⟨rfl, rfl⟩ := Brush.landing_inj (hland.trans hpixel.symm)
    obtain rfl := Option.some.inj hp
    decide

end Grid

end Moorland
