import Moorland.Proofs.Generation.Workers
import Moorland.Proofs.Stamp.Footprint
/-!
# Brushes upside down

To turn a brush upside down its pixels are cut into rows, and the rows are put together again from
the last one on. If the brush is full these are the rows of a rectangle, so that the pixel at a
place of the turned brush is the one in the same column and as far from the other end
(`Moorland.Brush.get?_flipped`). A brush without a column or without a row has no pixels, and is
turned into itself.

Painting turns the rows of a brush around as well, since those of a grid are counted from below. The
two turns cancel: a pixel of the turned brush lands as many rows above the lowest one as the pixel
is below the highest row of the brush that was turned (`Moorland.Brush.landing_flipped`), for even
and odd heights alike, on the grid and off it. The main statement is
`Moorland.Grid.stamp_flipped`.
-/

namespace Moorland

/-! ### Rows in the reverse order -/

section Rows

variable {α : Type} {rows : List (List α)} {width height : Nat}

theorem Rectangular.reverse (h : Rectangular rows width height) :
    Rectangular rows.reverse width height := by
  refine ⟨List.length_reverse.trans h.length_eq, fun row hrow => ?_⟩
  exact h.length_row row (List.mem_reverse.mp hrow)

/-- **A row is as far from one end** as it is from the other one in the reverse order. -/
theorem Rectangular.pick_reverse (h : Rectangular rows width height) {y : Nat} (hy : y < height)
    (x : Nat) : pick rows.reverse x y = pick rows x (height - 1 - y) := by
  rw [pick, pick, List.getElem?_reverse (h.length_eq.symm ▸ hy), h.length_eq]

end Rows

namespace Brush

variable {b : Brush} {x y : Nat}

/-! ### The turned brush -/

/-- Taking rows from the first one on and putting each before the others gives them in the reverse
order. -/
theorem rowsFromLast_eq (width : Nat) (below : List (List Pixel)) (ps : List Pixel) :
    rowsFromLast width below ps = (rowsOf width ps).reverse ++ below := by
  fun_induction rowsFromLast width below ps with
  | case1 => rw [rowsOf, List.reverse_nil, List.nil_append]
  | case2 below p ps ih =>
    rw [ih, rowsOf, List.reverse_cons, List.append_assoc, List.singleton_append]

theorem flatten_rowsOf (width : Nat) (ps : List Pixel) : (rowsOf width ps).flatten = ps := by
  have h := flatten_reverse_rowsFromLast width [] ps
  rwa [rowsFromLast_eq, List.append_nil, List.reverse_reverse] at h

theorem toList_pixels_flipped (b : Brush) :
    b.flipped.pixels.toList = (rowsOf b.width b.pixels.toList).reverse.flatten := by
  rw [flipped, rowsFromLast_eq, List.append_nil]

theorem IsFull.flipped (hb : b.IsFull) : b.flipped.IsFull := b.size_pixels_flipped.trans hb

/-- **The pixels of a row of the turned brush** are those of the row as far from the other end. -/
theorem IsFull.getElem?_flipped (hb : b.IsFull) (hx : x < b.width) (hy : y < b.height) :
    b.flipped.pixels[y * b.width + x]? = b.pixels[(b.height - 1 - y) * b.width + x]? := by
  have hlength : b.pixels.toList.length = b.width * b.height := hb
  have hrows := rectangular_rowsOf (Nat.zero_lt_of_lt hx) hlength
  calc b.flipped.pixels[y * b.width + x]?
      = (rowsOf b.width b.pixels.toList).reverse.flatten[y * b.width + x]? := by
        rw [← Array.getElem?_toList, toList_pixels_flipped]
    _ = pick (rowsOf b.width b.pixels.toList) x (b.height - 1 - y) := by
        rw [getElem?_flatten hrows.reverse.length_row hx, hrows.pick_reverse hy]
    _ = b.pixels[(b.height - 1 - y) * b.width + x]? := by
        rw [← getElem?_flatten hrows.length_row hx, flatten_rowsOf, Array.getElem?_toList]

/-- **The pixel at a place of the turned brush** is the one in the same column and as far from the
other end. -/
theorem IsFull.get?_flipped (hb : b.IsFull) (hy : y < b.height) (x : Nat) :
    b.flipped.get? x y = b.get? x (b.height - 1 - y) := by
  have hrow : b.height - 1 - y < b.height := by omega
  by_cases hx : x < b.width
  · have hin : b.flipped.inside x y = true := inside_iff.mpr ⟨hx, hy⟩
    rw [get?, get?, if_pos hin, if_pos (inside_iff.mpr ⟨hx, hrow⟩)]
    exact hb.getElem?_flipped hx hy
  · have hout : ¬b.flipped.inside x y = true := fun h => hx (inside_iff.mp h).1
    rw [get?, get?, if_neg hout, if_neg fun h => hx (inside_iff.mp h).1]

/-- **Turning twice changes nothing.** -/
theorem IsFull.flipped_flipped (hb : b.IsFull) : b.flipped.flipped = b := by
  refine hb.flipped.flipped.ext hb rfl rfl fun x y p hp => ?_
  have hy : y < b.height := (get?_eq_some_iff.mp hp).2.1
  have hback : b.height - 1 - (b.height - 1 - y) = y := by omega
  rw [hb.flipped.get?_flipped hy] at hp
  change b.flipped.get? x (b.height - 1 - y) = some p at hp
  rwa [hb.get?_flipped (by omega), hback] at hp

/-! ### Painting the turned brush -/

/-- **Where a pixel lands if rows are counted from below** in the brush too, as they are in the
grid. -/
def uprightLanding (b : Brush) (cx cy : Int) (x y : Nat) : Int × Int :=
  (cx - (b.width / 2 : Nat) + x, cy - (b.height / 2 : Nat) + y)

/-- **The two turns cancel.** -/
theorem landing_flipped (hy : y < b.height) (cx cy : Int) (x : Nat) :
    b.flipped.landing cx cy x y = b.uprightLanding cx cy x (b.height - 1 - y) := by
  change b.landing cx cy x y = _
  rw [landing, uprightLanding, Prod.mk.injEq]
  omega

section Count

variable {P : Nat → Nat → Pixel → Prop} [∀ x y p, Decidable (P x y p)]

/-- The places at which the pixel has a property. -/
def counted (b : Brush) (P : Nat → Nat → Pixel → Prop) [∀ x y p, Decidable (P x y p)] :
    Finset (Nat × Nat) :=
  (Finset.range b.width ×ˢ Finset.range b.height).filter fun q => ∃ p ∈ b.get? q.1 q.2, P q.1 q.2 p

theorem mem_counted : (x, y) ∈ b.counted P ↔ ∃ p, b.get? x y = some p ∧ P x y p := by
  rw [counted, Finset.mem_filter, Finset.mem_product, Finset.mem_range, Finset.mem_range]
  constructor
  · rintro ⟨-, p, hp, hP⟩
    exact ⟨p, hp, hP⟩
  · rintro ⟨p, hp, hP⟩
    obtain ⟨hx, hy, -⟩ := get?_eq_some_iff.mp hp
    exact ⟨⟨hx, hy⟩, p, hp, hP⟩

theorem lt_height_of_mem_counted (h : (x, y) ∈ b.counted P) : y < b.height := by
  obtain ⟨p, hp, -⟩ := mem_counted.mp h
  exact (get?_eq_some_iff.mp hp).2.1

/-- **Mirror images have as many pixels with mirrored properties.** -/
theorem count_mirrored {c : Brush} (hheight : c.height = b.height)
    (hread : ∀ x y, y < b.height → c.get? x y = b.get? x (b.height - 1 - y)) :
    c.count (fun x y p => P x (b.height - 1 - y) p) = b.count P := by
  have hback : ∀ y, y < b.height → b.height - 1 - (b.height - 1 - y) = y := by
    intro y hy
    omega
  change (c.counted fun x y p => P x (b.height - 1 - y) p).card = (b.counted P).card
  refine Finset.card_bij' (fun q _ => (q.1, b.height - 1 - q.2))
    (fun q _ => (q.1, b.height - 1 - q.2)) ?_ ?_ ?_ ?_
  · rintro ⟨x, y⟩ hq
    have hy := hheight ▸ lt_height_of_mem_counted hq
    obtain ⟨p, hp, hP⟩ := mem_counted.mp hq
    exact mem_counted.mpr ⟨p, (hread x y hy).symm.trans hp, hP⟩
  · rintro ⟨x, y⟩ hq
    have hy := lt_height_of_mem_counted hq
    obtain ⟨p, hp, hP⟩ := mem_counted.mp hq
    refine mem_counted.mpr ⟨p, ?_, ?_⟩
    · rwa [hread x _ (by omega), hback y hy]
    · rwa [hback y hy]
  · rintro ⟨x, y⟩ hq
    exact congrArg (Prod.mk x) (hback y (hheight ▸ lt_height_of_mem_counted hq))
  · rintro ⟨x, y⟩ hq
    exact congrArg (Prod.mk x) (hback y (lt_height_of_mem_counted hq))

end Count

end Brush

/-- **A report is told by its counts.** -/
theorem StampReport.eq_of_tally {r s : StampReport} (h : ∀ f, r.tally f = s.tally f) : r = s := by
  obtain ⟨written, clipped, skipped⟩ := r
  obtain rfl : written = _ := h .written
  obtain rfl : clipped = _ := h .clipped
  obtain rfl : skipped = _ := h .skipped
  rfl

namespace Grid

variable {g k : Grid} {b : Brush} {mode : StampMode} {width height : Nat} {report : StampReport}
  {cx cy : Int}

/-- **The report of the turned brush**, by where the pixels of the brush land with their rows
counted from below. -/
theorem tally_stamp_flipped (hg : g.HasSize width height)
    (hgrid : IsCoordinate width ∧ IsCoordinate height) (hb : b.IsFull)
    (hbrush : IsCoordinate b.width ∧ IsCoordinate b.height)
    (hk : g.stamp b.flipped cx cy mode = .ok (k, report)) (f : Fate) :
    report.tally f = b.count fun x y p =>
      f.Applies (mode.skips p) (g.IsPlace (b.uprightLanding cx cy x y)) := by
  have hmirror := @Brush.count_mirrored b (fun x y p =>
    f.Applies (mode.skips p) (g.IsPlace (b.uprightLanding cx cy x y))) _ b.flipped rfl
    fun x y hy => hb.get?_flipped hy x
  rw [tally_stamp hg hgrid hb.flipped hbrush hk, ← hmirror]
  refine Brush.count_congr fun x y p hp => ?_
  have hy : y < b.height := (Brush.get?_eq_some_iff.mp hp).2.1
  rw [Brush.landing_flipped hy]

/-- **Where all rows of a brush are rows of the grid**, a pixel lands on the grid in its row exactly
if it does in the row as far from the other end. -/
theorem isPlace_uprightLanding_iff
    (hrows : 0 ≤ cy - (b.height / 2 : Nat) ∧ cy - (b.height / 2 : Nat) + b.height ≤ g.height)
    {x y : Nat} (hy : y < b.height) :
    g.IsPlace (b.uprightLanding cx cy x y) ↔ g.IsPlace (b.landing cx cy x y) := by
  simp only [IsPlace, Brush.uprightLanding, Brush.landing]
  omega

/-- **Painting a brush upside down mirrors what it paints.** Turning a full brush upside down gives
a full brush of the same size, with the pixel at a place taken from the same column and as far from
the other end; and turning it again gives the first brush, all of this also where the brush has no
column or no row. If it has both, painting the turned brush writes every pixel of the first one that
the mode does not skip in stored form to the place that is as far to the right of the lowest corner
and as far above it as the pixel is from the first pixel of the brush, if that is a place of the
grid, and no other cell changes. The report counts just these pixels as written, and is that of the
first brush wherever all rows of the footprint are rows of the grid. -/
theorem stamp_flipped (hb : b.IsFull) :
    (b.flipped.width = b.width ∧ b.flipped.height = b.height ∧ b.flipped.IsFull) ∧
    (∀ x y, x < b.width → y < b.height → b.flipped.get? x y = b.get? x (b.height - 1 - y)) ∧
    b.flipped.flipped = b ∧
    (0 < b.width → 0 < b.height → IsCoordinate b.width ∧ IsCoordinate b.height →
      ∀ (g : Grid) (width height : Nat), g.HasSize width height →
        IsCoordinate width ∧ IsCoordinate height → ∀ (cx cy : Int) (mode : StampMode),
      ∃ k report, g.stamp b.flipped cx cy mode = .ok (k, report) ∧ k.HasSize width height ∧
        (∀ x y p u v, b.get? x y = some p → mode.skips p = false → u < width → v < height →
          b.uprightLanding cx cy x y = (↑u, ↑v) → k.cell u v = p.cell.clamped) ∧
        (∀ u v, u < width → v < height →
          (∀ x y p, b.get? x y = some p → b.uprightLanding cx cy x y = (↑u, ↑v) →
            mode.skips p = true) → k.cell u v = g.cell u v) ∧
        report.skipped = b.count (fun _ _ p => mode.skips p = true) ∧
        report.written = b.count (fun x y p =>
          mode.skips p = false ∧ g.IsPlace (b.uprightLanding cx cy x y)) ∧
        report.clipped = b.count (fun x y p =>
          mode.skips p = false ∧ ¬g.IsPlace (b.uprightLanding cx cy x y)) ∧
        ∃ upright report', g.stamp b cx cy mode = .ok (upright, report') ∧
          (0 ≤ cy - (b.height / 2 : Nat) ∧ cy - (b.height / 2 : Nat) + b.height ≤ height →
            report = report')) := by
  refine ⟨⟨rfl, rfl, hb.flipped⟩, fun x y _ hy => hb.get?_flipped hy x, hb.flipped_flipped,
    fun hw hh hbrush g width height hg hgrid cx cy mode => ?_⟩
  obtain ⟨k, report, hk, hsize, hpainted, hbare⟩ :=
    exists_stamp_landing hg hb.flipped hw hh hbrush hgrid cx cy mode
  obtain ⟨upright, report', hupright, -⟩ :=
    exists_stamp_landing hg hb hw hh hbrush hgrid cx cy mode
  have htally := tally_stamp_flipped hg hgrid hb hbrush hk
  refine ⟨k, report, hk, hsize, fun x y p u v hp hskip hu hv hland => ?_,
    fun u v hu hv hno => ?_, (htally .skipped).trans (Brush.count_congr fun _ _ _ _ => Iff.rfl),
    (htally .written).trans (Brush.count_congr fun _ _ _ _ => Iff.rfl),
    (htally .clipped).trans (Brush.count_congr fun _ _ _ _ => Iff.rfl),
    upright, report', hupright, fun hrows => ?_⟩
  · -- the pixel is read in the turned brush as far from the other end
    have hy : y < b.height := (Brush.get?_eq_some_iff.mp hp).2.1
    have hback : b.height - 1 - (b.height - 1 - y) = y := by omega
    refine hpainted x (b.height - 1 - y) p u v ?_ hskip hu hv ?_
    · rwa [hb.get?_flipped (by omega), hback]
    · rwa [Brush.landing_flipped (by omega), hback]
  · refine hbare u v hu hv fun x y p hp hland => ?_
    have hy : y < b.height := (Brush.get?_eq_some_iff.mp hp).2.1
    rw [hb.get?_flipped hy] at hp
    rw [Brush.landing_flipped hy] at hland
    exact hno x _ p hp hland
  · have hsame : ∀ f, report.tally f = report'.tally f := by
      intro f
      rw [htally, tally_stamp hg hgrid hb hbrush hupright]
      refine Brush.count_congr fun x y p hp => ?_
      rw [isPlace_uprightLanding_iff (hg.height_eq.symm ▸ hrows) (Brush.get?_eq_some_iff.mp hp).2.1]
    exact StampReport.eq_of_tally hsame

/-- A brush of odd height with a transparent pixel in the middle, half of it to the left of the
grid. -/
theorem stamp_flipped_half_off :
    let g : Grid := ⟨2, 3, #[.black, .white, ⟨0.5, 0, 0⟩, .white, .black, ⟨-0, 1, 0⟩]⟩
    let b : Brush := ⟨2, 3, #[⟨.white, 1⟩, ⟨.white, 1⟩, ⟨.white, 1⟩, .transparent,
      ⟨.white, 1⟩, ⟨⟨2, -1, 0.5⟩, 1⟩]⟩
    (b.IsFull ∧ g.HasSize 2 3 ∧ (IsCoordinate b.width ∧ IsCoordinate b.height) ∧
        IsCoordinate (2 : Nat) ∧ IsCoordinate (3 : Nat)) ∧
      b.flipped.get? 1 0 = some ⟨⟨2, -1, 0.5⟩, 1⟩ ∧ b.flipped.flipped = b ∧
      ∃ k upright report, g.stamp b.flipped 0 1 .alphaOnly = .ok (k, report) ∧
        g.stamp b 0 1 .alphaOnly = .ok (upright, report) ∧ report = ⟨2, 3, 1⟩ ∧
        k.cell 0 2 = ⟨1, 0, 0.5⟩ ∧ k.cell 1 0 = .white := by
  intro g b
  have hb : b.IsFull := rfl
  have hg : g.HasSize 2 3 := ⟨rfl, rfl, rfl⟩
  have hgrid : IsCoordinate (2 : Nat) ∧ IsCoordinate (3 : Nat) := by decide
  have hbrush : IsCoordinate b.width ∧ IsCoordinate b.height := by decide
  obtain ⟨-, hread, hback, hpaint⟩ := stamp_flipped hb
  obtain ⟨k, ⟨written, clipped, skipped⟩, hk, -, hpainted, hbare, rfl, rfl, rfl, upright, report,
    hupright, hreport⟩ := hpaint (by decide) (by decide) hbrush g 2 3 hg hgrid 0 1 .alphaOnly
  obtain rfl := hreport (by decide)
  refine ⟨⟨hb, hg, hbrush, hgrid⟩, hread 1 0 (by decide) (by decide), hback, k, upright, _,
    hk, hupright, by decide, ?_, ?_⟩
  · exact (hpainted 1 2 _ 0 2 rfl (by decide) (by decide) (by decide) (by decide)).trans (by decide)
  · -- no pixel lands to the right of the centre
    refine hbare 1 0 (by decide) (by decide) fun x y p hp hland => ?_
    obtain ⟨hx, -, -⟩ := Brush.get?_eq_some_iff.mp hp
    have hcol := (Prod.mk.inj hland).1
    simp only [b] at hx hcol
    omega

end Grid

end Moorland
