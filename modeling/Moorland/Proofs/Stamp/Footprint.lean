import Mathlib.Data.Finset.Card
import Mathlib.Data.Finset.Prod
import Mathlib.Data.List.Nodup
import Moorland.Proofs.Brush.Guarded
import Moorland.Proofs.Simulation.Refused
/-!
# The footprint of a stamp

The pixel at a place of a brush **lands** at a point of the plane (`Moorland.Brush.landing`), which
is a sum of integers and need not be a place of the grid. This file says all that painting does in
terms of where pixels land: which cells it replaces, which it leaves alone, and how many pixels it
counts as painted, as clipped and as skipped (`Moorland.Grid.stamp_footprint`).

The cells have been settled place by place in `Moorland.Grid.exists_stamp`. The counts go by the
**fate** of a pixel (`Moorland.Fate`): painting counts every pixel once, under its fate, so that the
report of a stamp is a tally of fates (`Moorland.Grid.tally_stamp`). The fate depends on whether the
pixel has a destination, and with sides that are coordinates it has one exactly if it lands on the
grid (`Moorland.Grid.fate_centered`), at the ends of the range of coordinates as well, where the
corner of the brush is no coordinate.

A count of pixels is the size of a set of places (`Moorland.Brush.count`), and painting goes through
a list of pixels with their places; the two agree since no place comes twice.
-/

namespace Moorland

/-! ### Counting pixels -/

namespace Brush

variable {b : Brush} {P Q : Nat → Nat → Pixel → Prop} [∀ x y p, Decidable (P x y p)]
  [∀ x y p, Decidable (Q x y p)]

/-- **How many pixels have a property**, which may depend on the place of the pixel. -/
def count (b : Brush) (P : Nat → Nat → Pixel → Prop) [∀ x y p, Decidable (P x y p)] : Nat :=
  ((Finset.range b.width ×ˢ Finset.range b.height).filter
    fun q => ∃ p ∈ b.get? q.1 q.2, P q.1 q.2 p).card

theorem count_congr (h : ∀ x y p, b.get? x y = some p → (P x y p ↔ Q x y p)) :
    b.count P = b.count Q := by
  refine congrArg Finset.card (Finset.filter_congr fun q _ => ?_)
  exact exists_congr fun p => and_congr_right fun hp => h q.1 q.2 p hp

theorem count_eq_zero_iff : b.count P = 0 ↔ ∀ x y p, b.get? x y = some p → ¬P x y p := by
  rw [count, Finset.card_eq_zero, Finset.filter_eq_empty_iff]
  constructor
  · intro h x y p hp hP
    obtain ⟨hx, hy, -⟩ := get?_eq_some_iff.mp hp
    have hplace : (x, y) ∈ Finset.range b.width ×ˢ Finset.range b.height :=
      Finset.mem_product.mpr ⟨Finset.mem_range.mpr hx, Finset.mem_range.mpr hy⟩
    exact h hplace ⟨p, hp, hP⟩
  · rintro h q - ⟨p, hp, hP⟩
    exact h q.1 q.2 p hp hP

/-- **No place comes twice** among the pixels with their places. -/
theorem nodup_places_placed (hb : b.IsFull) : (b.placed.map Prod.fst).Nodup := by
  have hplaces : b.placed.map Prod.fst = (List.range' 0 b.pixels.size).map b.place := by
    rw [placed, List.map_map, ← Array.length_toList, ← List.zipIdx_map_snd, List.map_map]
    rfl
  rw [hplaces]
  refine List.Nodup.map_on (fun i hi j hj hij => ?_) List.nodup_range'
  have hlt : ∀ {n}, n ∈ List.range' 0 b.pixels.size → n < b.width * b.height := by
    intro n hn
    have := List.mem_range'_1.mp hn
    rw [← hb]
    omega
  -- the number of a pixel can be read off its place
  obtain ⟨hcol, -, hsum⟩ := Grid.place_of_lt (hlt hi)
  obtain ⟨-, -, hsum'⟩ := Grid.place_of_lt (hlt hj)
  have hwidth : max b.width 1 = b.width := Nat.max_eq_left (Nat.zero_lt_of_lt hcol)
  rw [place, place, hwidth] at hij
  obtain ⟨hx, hy⟩ := Prod.mk.inj hij
  rw [← hsum, ← hsum', hx, hy]

/-- **Pixels are counted along the list of them.** -/
theorem count_eq_countP (hb : b.IsFull) :
    b.count P = b.placed.countP fun q => decide (P q.1.1 q.1.2 q.2) := by
  have hnodup : ((b.placed.filter fun q => decide (P q.1.1 q.1.2 q.2)).map Prod.fst).Nodup :=
    (nodup_places_placed hb).sublist (List.filter_sublist.map Prod.fst)
  rw [List.countP_eq_length_filter, ← List.length_map Prod.fst,
    ← List.toFinset_card_of_nodup hnodup, count]
  congr 1
  ext ⟨x, y⟩
  simp only [Finset.mem_filter, Finset.mem_product, Finset.mem_range, List.mem_toFinset,
    List.mem_map, List.mem_filter, decide_eq_true_eq, Prod.exists]
  constructor
  · rintro ⟨-, p, hp, hP⟩
    exact ⟨x, y, p, ⟨(mem_placed_iff hb).mpr hp, hP⟩, rfl⟩
  · rintro ⟨x', y', p, ⟨hp, hP⟩, hxy⟩
    obtain ⟨rfl, rfl⟩ := Prod.mk.inj hxy
    have hread := (mem_placed_iff hb).mp hp
    obtain ⟨hx, hy, -⟩ := get?_eq_some_iff.mp hread
    exact ⟨⟨hx, hy⟩, p, hread, hP⟩

theorem length_placed (hb : b.IsFull) : b.placed.length = b.width * b.height := by
  rw [placed, List.length_map, List.length_zipIdx, Array.length_toList, hb]

end Brush

/-! ### Where pixels land -/

/-- **The point is a place of the grid.** -/
def Grid.IsPlace (g : Grid) (q : Int × Int) : Prop :=
  (0 ≤ q.1 ∧ q.1 < g.width) ∧ 0 ≤ q.2 ∧ q.2 < g.height

instance (g : Grid) (q : Int × Int) : Decidable (g.IsPlace q) :=
  inferInstanceAs (Decidable ((0 ≤ q.1 ∧ q.1 < g.width) ∧ 0 ≤ q.2 ∧ q.2 < g.height))

namespace Brush

/-- **Where the pixel at a place of a brush lands** if the brush is centred on a point. Rows of a
brush are counted from above, and those of a grid from below. -/
def landing (b : Brush) (cx cy : Int) (x y : Nat) : Int × Int :=
  (cx - (b.width / 2 : Nat) + x, cy - (b.height / 2 : Nat) + b.height - 1 - y)

variable {b : Brush} {cx cy : Int} {u v : Nat} {p : Pixel}

/-- **No two pixels land at the same point.** -/
theorem landing_inj {x y x' y' : Nat} (h : b.landing cx cy x y = b.landing cx cy x' y') :
    x = x' ∧ y = y' := by
  obtain ⟨hcol, hrow⟩ := Prod.mk.inj h
  omega

/-- **The pixel over a place** is the one that lands there. -/
theorem covering_eq_some_iff_landing : b.covering cx cy u v = some p ↔
    ∃ x y, b.get? x y = some p ∧ b.landing cx cy x y = (↑u, ↑v) := by
  rw [covering_eq_some_iff]
  refine exists_congr fun x => exists_congr fun y => and_congr_right fun hp => ?_
  have hrow := (get?_eq_some_iff.mp hp).2.1
  rw [landing, Prod.mk.injEq]
  omega

end Brush

/-! ### The fate of a pixel -/

/-- **What becomes of a pixel** when its brush is painted. -/
inductive Fate
  /-- It is painted. -/
  | written
  /-- It has no destination. -/
  | clipped
  /-- The mode skips it. -/
  | skipped
deriving DecidableEq

/-- **A fate applies** to a pixel that the mode skips or not and that lands on the grid or not. -/
def Fate.Applies (skip : Bool) (lands : Prop) : Fate → Prop
  | .written => skip = false ∧ lands
  | .clipped => skip = false ∧ ¬lands
  | .skipped => skip = true

instance (skip : Bool) (lands : Prop) [Decidable lands] (f : Fate) :
    Decidable (f.Applies skip lands) :=
  match f with
  | .written => inferInstanceAs (Decidable (skip = false ∧ lands))
  | .clipped => inferInstanceAs (Decidable (skip = false ∧ ¬lands))
  | .skipped => inferInstanceAs (Decidable (skip = true))

namespace StampReport

/-- How many pixels are counted for a fate. -/
def tally (r : StampReport) : Fate → Nat
  | .written => r.written
  | .clipped => r.clipped
  | .skipped => r.skipped

/-- How many pixels are counted. -/
def total (r : StampReport) : Nat := r.written + r.clipped + r.skipped

theorem tally_le_total (r : StampReport) (f : Fate) : r.tally f ≤ r.total := by
  cases f <;>
    · simp only [tally, total]
      omega

end StampReport

namespace Grid

variable {g k : Grid} {b : Brush} {mode : StampMode} {corner : Option (Int × Int)}
  {width height rows : Nat} {report : StampReport}

/-- The fate of a pixel of a brush with so many rows and its lowest corner there. -/
def fate (g : Grid) (mode : StampMode) (corner : Option (Int × Int)) (rows : Nat)
    (p : (Nat × Nat) × Pixel) : Fate :=
  if mode.skips p.2 then .skipped
  else if (g.destination corner rows p.1).isSome then .written else .clipped

theorem fate_congr {h : Grid} (hg : g.HasSize width height) (hh : h.HasSize width height)
    (p : (Nat × Nat) × Pixel) : g.fate mode corner rows p = h.fate mode corner rows p := by
  simp only [fate, destination, contains, hg.width_eq, hg.height_eq, hh.width_eq, hh.height_eq]

/-- **Painting a pixel counts it** under its fate. -/
theorem tally_stampPixel (mode : StampMode) (corner : Option (Int × Int)) (rows : Nat)
    (state : Grid × StampReport) (p : (Nat × Nat) × Pixel) (f : Fate) :
    (stampPixel mode corner rows state p).2.tally f =
      state.2.tally f + if state.1.fate mode corner rows p = f then 1 else 0 := by
  obtain ⟨g, report⟩ := state
  rw [stampPixel, fate]
  by_cases hskip : mode.skips p.2 = true
  · rw [if_pos hskip, if_pos hskip]
    cases f <;> rfl
  · rw [if_neg hskip, if_neg hskip]
    rcases g.destination corner rows p.1 with _ | ⟨u, v⟩
    · cases f <;> rfl
    · cases f <;> rfl

/-- **Painting pixels counts each of them** under its fate on the grid that painting began with. -/
theorem tally_foldl_stampPixel (mode : StampMode) (corner : Option (Int × Int)) (rows : Nat)
    (pixels : List ((Nat × Nat) × Pixel)) {state : Grid × StampReport}
    (hg : state.1.HasSize width height) (f : Fate) :
    (pixels.foldl (stampPixel mode corner rows) state).2.tally f = state.2.tally f +
      pixels.countP fun p => decide (state.1.fate mode corner rows p = f) := by
  induction pixels generalizing state with
  | nil => rfl
  | cons p pixels ih =>
    have hsize : (stampPixel mode corner rows state p).1.HasSize width height := hg.stampPixel p
    have hfates : (fun q => decide ((stampPixel mode corner rows state p).1.fate mode corner rows q
        = f)) = fun q => decide (state.1.fate mode corner rows q = f) :=
      funext fun q => by rw [fate_congr hsize hg]
    rw [List.foldl_cons, ih hsize, hfates, tally_stampPixel, List.countP_cons]
    simp only [decide_eq_true_eq]
    omega

theorem total_stampPixel (mode : StampMode) (corner : Option (Int × Int)) (rows : Nat)
    (state : Grid × StampReport) (p : (Nat × Nat) × Pixel) :
    (stampPixel mode corner rows state p).2.total = state.2.total + 1 := by
  have htally := tally_stampPixel mode corner rows state p
  have hwritten := htally .written
  have hclipped := htally .clipped
  have hskipped := htally .skipped
  simp only [StampReport.tally] at hwritten hclipped hskipped
  rw [StampReport.total, StampReport.total, hwritten, hclipped, hskipped]
  cases state.1.fate mode corner rows p <;>
    · simp only [reduceCtorEq, if_true, if_false]
      omega

theorem total_foldl_stampPixel (mode : StampMode) (corner : Option (Int × Int)) (rows : Nat)
    (pixels : List ((Nat × Nat) × Pixel)) (state : Grid × StampReport) :
    (pixels.foldl (stampPixel mode corner rows) state).2.total =
      state.2.total + pixels.length := by
  induction pixels generalizing state with
  | nil => rfl
  | cons p pixels ih =>
    rw [List.foldl_cons, ih, total_stampPixel, List.length_cons]
    omega

/-- **A pixel of a centred brush has its destination on the grid** if it lands there. -/
theorem isSome_destination_iff (hbrush : IsCoordinate b.width ∧ IsCoordinate b.height)
    (hgrid : IsCoordinate g.width ∧ IsCoordinate g.height) {cx cy : Int} {x y : Nat}
    (hx : x < b.width) (hy : y < b.height) :
    (g.destination (centeredCorner cx cy b.width b.height) b.height (x, y)).isSome = true ↔
      g.IsPlace (b.landing cx cy x y) := by
  rw [Option.isSome_iff_exists, IsPlace, Brush.landing]
  constructor
  · rintro ⟨⟨u, v⟩, hd⟩
    obtain ⟨⟨hu, hv⟩, hcol, hrow⟩ := (destination_centered_iff hbrush hgrid hx hy).mp hd
    omega
  · rintro ⟨⟨hcol, hcol'⟩, hrow, hrow'⟩
    refine ⟨((cx - (b.width / 2 : Nat) + x).toNat,
      (cy - (b.height / 2 : Nat) + (b.height - 1 - y : Nat)).toNat),
      (destination_centered_iff hbrush hgrid hx hy).mpr ⟨⟨?_, ?_⟩, ?_, ?_⟩⟩
    all_goals omega

/-- **The fate of a pixel of a centred brush** is decided by the mode and by where it lands. -/
theorem fate_centered_iff (hbrush : IsCoordinate b.width ∧ IsCoordinate b.height)
    (hgrid : IsCoordinate g.width ∧ IsCoordinate g.height) {cx cy : Int} {x y : Nat}
    (hx : x < b.width) (hy : y < b.height) (p : Pixel) (f : Fate) :
    g.fate mode (centeredCorner cx cy b.width b.height) b.height ((x, y), p) = f ↔
      f.Applies (mode.skips p) (g.IsPlace (b.landing cx cy x y)) := by
  rw [fate, ← isSome_destination_iff hbrush hgrid hx hy]
  rcases mode.skips p with _ | _
  · rcases (g.destination (centeredCorner cx cy b.width b.height) b.height (x, y)).isSome with _ | _
    · cases f <;> simp [Fate.Applies]
    · cases f <;> simp [Fate.Applies]
  · cases f <;> simp [Fate.Applies]

/-- **The report of a stamp** counts every pixel under its fate. -/
theorem tally_stamp (hg : g.HasSize width height) (hgrid : IsCoordinate width ∧ IsCoordinate height)
    (hb : b.IsFull) (hbrush : IsCoordinate b.width ∧ IsCoordinate b.height) {cx cy : Int}
    (hk : g.stamp b cx cy mode = .ok (k, report)) (f : Fate) :
    report.tally f = b.count fun x y p =>
      f.Applies (mode.skips p) (g.IsPlace (b.landing cx cy x y)) := by
  rw [stamp] at hk
  split at hk
  · cases hk
  · have hstate : ((g, ⟨0, 0, 0⟩) : Grid × StampReport).1.HasSize width height := hg
    have hfold := tally_foldl_stampPixel mode (centeredCorner cx cy b.width b.height) b.height
      b.placed hstate f
    have hstart : (⟨0, 0, 0⟩ : StampReport).tally f = 0 := by
      cases f <;> rfl
    rw [Except.ok.inj hk, hstart, Nat.zero_add] at hfold
    rw [Brush.count_eq_countP hb]
    refine hfold.trans (List.countP_congr fun q hq => ?_)
    obtain ⟨hx, hy, -⟩ := Brush.get?_eq_some_iff.mp ((Brush.mem_placed_iff hb).mp hq)
    rw [decide_eq_true_iff, decide_eq_true_iff]
    exact fate_centered_iff hbrush (by rwa [hg.width_eq, hg.height_eq]) hx hy q.2 f

/-! ### Counting in words -/

/-- Paint one pixel, if every number that is computed is a number and the counters are words. -/
def countedStampPixel (mode : StampMode) (corner : Option (Int × Int)) (rows : Nat)
    (state : Grid × StampReport) (pixel : (Nat × Nat) × Pixel) : Option (Grid × StampReport) := do
  let (g, report) ← guardedStampPixel mode corner rows state pixel
  return (g, ⟨← guardedWord report.written, ← guardedWord report.clipped,
    ← guardedWord report.skipped⟩)

/-- **Paint a brush centred on a point**, if every number that is computed is a number and the
counters are words all the way. -/
def countedStamp (g : Grid) (b : Brush) (cx cy : Int) (mode : StampMode) :
    Option (Except Refusal (Grid × StampReport)) :=
  if b.width = 0 ∨ b.height = 0 then
    some (.error (.sizeMismatch (.emptyBrush b.width b.height)))
  else do
    let corner := centeredCorner cx cy b.width b.height
    return .ok (← b.placed.foldlM (countedStampPixel mode corner b.height) (g, ⟨0, 0, 0⟩))

theorem countedStampPixel_eq {state : Grid × StampReport} (hg : state.1.HasSize width height)
    (hsize : width * height < UInt64.size) {pixel : (Nat × Nat) × Pixel} (hpixel : pixel.1.2 < rows)
    (hroom : state.2.total + 1 < UInt64.size) :
    countedStampPixel mode corner rows state pixel =
      some (stampPixel mode corner rows state pixel) := by
  have htotal := total_stampPixel mode corner rows state pixel
  have hword : ∀ f, (stampPixel mode corner rows state pixel).2.tally f < UInt64.size := fun f =>
    Nat.lt_of_le_of_lt (StampReport.tally_le_total _ f) (htotal ▸ hroom)
  rw [countedStampPixel, guardedStampPixel_eq hg hsize fun _ => hpixel]
  simp only [Option.bind_eq_bind, Option.bind_some]
  have hwritten := guardedWord_eq (hword .written)
  have hclipped := guardedWord_eq (hword .clipped)
  have hskipped := guardedWord_eq (hword .skipped)
  simp only [StampReport.tally] at hwritten hclipped hskipped
  rw [hwritten, hclipped, hskipped]
  rfl

/-- **Counting pixels does not leave the words** as long as there are words for all of them. -/
theorem foldlM_countedStampPixel {pixels : List ((Nat × Nat) × Pixel)} {state : Grid × StampReport}
    (hg : state.1.HasSize width height) (hsize : width * height < UInt64.size)
    (hpixels : ∀ q ∈ pixels, q.1.2 < rows) (hroom : state.2.total + pixels.length < UInt64.size) :
    pixels.foldlM (countedStampPixel mode corner rows) state =
      some (pixels.foldl (stampPixel mode corner rows) state) := by
  induction pixels generalizing state with
  | nil => rfl
  | cons p pixels ih =>
    rw [List.length_cons] at hroom
    rw [List.foldlM_cons, countedStampPixel_eq hg hsize (hpixels p List.mem_cons_self) (by omega)]
    refine ih (hg.stampPixel p) (fun q hq => hpixels q (List.mem_cons_of_mem p hq)) ?_
    rw [total_stampPixel]
    omega

theorem countedStamp_eq (hg : g.HasSize width height) (hsize : width * height < UInt64.size)
    (hb : b.IsFull) (hpixels : b.width * b.height < UInt64.size) (cx cy : Int) (mode : StampMode) :
    g.countedStamp b cx cy mode = some (g.stamp b cx cy mode) := by
  rw [countedStamp, stamp]
  split
  · rfl
  · have hrows : ∀ q ∈ b.placed, q.1.2 < b.height := fun q hq =>
      (Brush.get?_eq_some_iff.mp ((Brush.mem_placed_iff hb).mp hq)).2.1
    have hstate : ((g, ⟨0, 0, 0⟩) : Grid × StampReport).1.HasSize width height := hg
    have hroom : (⟨0, 0, 0⟩ : StampReport).total + b.placed.length < UInt64.size := by
      rw [Brush.length_placed hb]
      exact (Nat.zero_add _).symm ▸ hpixels
    simp only [foldlM_countedStampPixel hstate hsize hrows hroom]
    rfl

theorem total_stamp (hb : b.IsFull) {cx cy : Int} (hk : g.stamp b cx cy mode = .ok (k, report)) :
    report.total = b.width * b.height := by
  rw [stamp] at hk
  split at hk
  · cases hk
  · have htotal := total_foldl_stampPixel mode (centeredCorner cx cy b.width b.height) b.height
      b.placed (g, ⟨0, 0, 0⟩)
    rw [Except.ok.inj hk, Brush.length_placed hb] at htotal
    exact htotal.trans (Nat.zero_add _)

/-! ### The footprint -/

/-- **A painted grid**, in terms of where pixels land. -/
theorem exists_stamp_landing (hg : g.HasSize width height) (hb : b.IsFull) (hw : 0 < b.width)
    (hh : 0 < b.height) (hbrush : IsCoordinate b.width ∧ IsCoordinate b.height)
    (hgrid : IsCoordinate width ∧ IsCoordinate height) (cx cy : Int) (mode : StampMode) :
    ∃ k report, g.stamp b cx cy mode = .ok (k, report) ∧ k.HasSize width height ∧
      (∀ x y p u v, b.get? x y = some p → mode.skips p = false → u < width → v < height →
        b.landing cx cy x y = (↑u, ↑v) → k.cell u v = p.cell.clamped) ∧
      ∀ u v, u < width → v < height →
        (∀ x y p, b.get? x y = some p → b.landing cx cy x y = (↑u, ↑v) → mode.skips p = true) →
        k.cell u v = g.cell u v := by
  obtain ⟨k, report, hk, hsize, hpainted, hbare⟩ :=
    exists_stamp hg hb hw hh hbrush hgrid cx cy mode
  refine ⟨k, report, hk, hsize, fun x y p u v hp hskip hu hv hland => ?_, fun u v hu hv hno => ?_⟩
  · exact hpainted u v p hu hv (Brush.covering_eq_some_iff_landing.mpr ⟨x, y, hp, hland⟩) hskip
  · refine hbare u v hu hv fun p hp => ?_
    obtain ⟨x, y, hread, hland⟩ := Brush.covering_eq_some_iff_landing.mp hp
    exact hno x y p hread hland

/-- **Painting replaces the cells that pixels land on, and counts the pixels.** A pixel that the
mode does not skip is written in stored form to the place where it lands, if that is a place of the
grid, and clipped otherwise. All other cells are as before. No write is refused, and no number that
is computed leaves its range, however far away the centre is. -/
theorem stamp_footprint (hg : g.HasSize width height) (hsize : width * height < UInt64.size)
    (hgrid : IsCoordinate width ∧ IsCoordinate height) (hb : b.IsFull) (hw : 0 < b.width)
    (hh : 0 < b.height) (hpixels : b.width * b.height < UInt64.size)
    (hbrush : IsCoordinate b.width ∧ IsCoordinate b.height) (cx cy : Int) (mode : StampMode) :
    ∃ k report, g.stamp b cx cy mode = .ok (k, report) ∧ k.HasSize width height ∧
      (∀ x y p u v, b.get? x y = some p → mode.skips p = false → u < width → v < height →
        b.landing cx cy x y = (↑u, ↑v) → k.cell u v = p.cell.clamped) ∧
      (∀ u v, u < width → v < height →
        (∀ x y p, b.get? x y = some p → b.landing cx cy x y = (↑u, ↑v) → mode.skips p = true) →
        k.cell u v = g.cell u v) ∧
      report.skipped = b.count (fun _ _ p => mode.skips p = true) ∧
      report.written =
        b.count (fun x y p => mode.skips p = false ∧ g.IsPlace (b.landing cx cy x y)) ∧
      report.clipped =
        b.count (fun x y p => mode.skips p = false ∧ ¬g.IsPlace (b.landing cx cy x y)) ∧
      report.written + report.clipped + report.skipped = b.width * b.height ∧
      g.stampInPlace b cx cy mode = (k, .ok report) ∧
      g.countedStamp b cx cy mode = some (.ok (k, report)) := by
  obtain ⟨k, report, hk, hsize', hpainted, hbare⟩ :=
    exists_stamp_landing hg hb hw hh hbrush hgrid cx cy mode
  have htally := tally_stamp hg hgrid hb hbrush hk
  refine ⟨k, report, hk, hsize', hpainted, hbare,
    (htally .skipped).trans (Brush.count_congr fun _ _ _ _ => Iff.rfl),
    (htally .written).trans (Brush.count_congr fun _ _ _ _ => Iff.rfl),
    (htally .clipped).trans (Brush.count_congr fun _ _ _ _ => Iff.rfl), total_stamp hb hk, ?_, ?_⟩
  · rw [stampInPlace_eq, hk]
    rfl
  · rw [countedStamp_eq hg hsize hb hpixels, hk]

/-- A brush half over the edge of a grid, with a pixel that is skipped and one that is out of range;
and the same brush around the least and the greatest coordinate, where it has no corner. -/
theorem stamp_footprint_at_edges :
    let g : Grid := ⟨3, 2, #[.white, ⟨-0, 1, 0⟩, .black, .black, ⟨0.5, 0, 0⟩, .white]⟩
    let b : Brush := ⟨2, 2, #[⟨.white, 1⟩, ⟨.white, -0⟩, ⟨.black, 0.5⟩, ⟨⟨2, -1, 0.5⟩, 1⟩]⟩
    (g.HasSize 3 2 ∧ (IsCoordinate (3 : Nat) ∧ IsCoordinate (2 : Nat)) ∧ b.IsFull ∧
        IsCoordinate b.width ∧ IsCoordinate b.height) ∧
      (∃ k report, g.stamp b 0 1 .alphaOnly = .ok (k, report) ∧ report = ⟨1, 2, 1⟩ ∧
        k.cell 0 0 = ⟨1, 0, 0.5⟩ ∧ k.cell 0 1 = .black) ∧
      ∃ k report, g.stamp b Int64.minValue.toInt Int64.maxValue.toInt .alphaOnly =
        .ok (k, report) ∧ report = ⟨0, 3, 1⟩ ∧ k.cell 0 0 = .white := by
  intro g b
  have hg : g.HasSize 3 2 := ⟨rfl, rfl, rfl⟩
  have hgrid : IsCoordinate (3 : Nat) ∧ IsCoordinate (2 : Nat) := by decide
  have hb : b.IsFull := rfl
  have hbrush : IsCoordinate b.width ∧ IsCoordinate b.height := by decide
  have hpainted :=
    stamp_footprint hg (by decide) hgrid hb (by decide) (by decide) (by decide) hbrush
  refine ⟨⟨hg, hgrid, hb, hbrush⟩, ?_, ?_⟩
  · obtain ⟨k, ⟨written, clipped, skipped⟩, hk, -, hcell, hbare, rfl, rfl, rfl, -⟩ :=
      hpainted 0 1 .alphaOnly
    refine ⟨k, _, hk, by decide, ?_, ?_⟩
    · exact (hcell 1 1 _ 0 0 rfl (by decide) (by decide) (by decide) (by decide)).trans (by decide)
    · refine hbare 0 1 (by decide) (by decide) fun x y p hp hland => ?_
      -- the transparent pixel is the only one that lands there
      have hpixel : b.landing 0 1 1 0 = (↑(0 : Nat), ↑(1 : Nat)) := by decide
      obtain ⟨rfl, rfl⟩ := Brush.landing_inj (hland.trans hpixel.symm)
      obtain rfl := Option.some.inj hp
      decide
  · obtain ⟨k, ⟨written, clipped, skipped⟩, hk, -, -, hbare, rfl, rfl, rfl, -⟩ :=
      hpainted Int64.minValue.toInt Int64.maxValue.toInt .alphaOnly
    refine ⟨k, _, hk, by decide, hbare 0 0 (by decide) (by decide) fun x y p hp hland => ?_⟩
    obtain ⟨hx, -, -⟩ := Brush.get?_eq_some_iff.mp hp
    have hfar : Int64.minValue.toInt = -9223372036854775808 := rfl
    have hcol := (Prod.mk.inj hland).1
    simp only [b, hfar] at hx hcol
    omega

end Grid

end Moorland
