import Moorland.Proofs.Generation.Workers
import Moorland.Proofs.Guarded
import Moorland.Proofs.Stamp.Patches
/-!
# Regions that can be captured

A region is captured if it is not empty and lies inside the grid, and nothing else is looked at
(`Moorland.Grid.capture_exact`). Whether it lies inside is decided by its lowest and its highest
corner, the second of which is computed in coordinates; a region that ends beyond them ends beyond
the grid too.

Reading then goes row by row, from the top, with a check of every place and a count of the cells at
the end. The guarded form of this, `Moorland.Grid.guardedCapture`, has both, and besides gives up
where a number would leave its range. It never does, and neither of the two checks ever fails, since
the places between two corners inside the grid are inside.
-/

namespace Moorland

/-- A value that is there is not refused either. -/
theorem liftM_some {ε α : Type} (a : α) : (liftM (some a) : ExceptT ε Option α) = pure a := rfl

/-- **An integer that is a number.** -/
def guardedNat (i : Int) : Option Nat := if 0 ≤ i then some i.toNat else none

theorem guardedNat_eq {i : Int} (h : 0 ≤ i) : guardedNat i = some i.toNat := if_pos h

/-- **A table read row by row** is the table read by number. -/
theorem toArray_flatten_rows {α : Type} (width height : Nat) (f : Nat → Nat → α) :
    ((List.range height).map fun y => (List.range width).map fun x => f x y).flatten.toArray =
      Array.ofFn fun i : Fin (width * height) => f (i % width) (i / width) := by
  have hrect : Rectangular ((List.range height).map fun y => (List.range width).map fun x => f x y)
      width height := by
    refine ⟨by rw [List.length_map, List.length_range], fun row hrow => ?_⟩
    obtain ⟨y, -, rfl⟩ := List.mem_map.mp hrow
    rw [List.length_map, List.length_range]
  refine Array.ext (by simpa using hrect.length_flatten) fun i h₁ h₂ => ?_
  rw [Array.size_ofFn] at h₂
  obtain ⟨hcol, hrow, hsum⟩ := Grid.place_of_lt h₂
  have hread := getElem?_flatten hrect.length_row hcol (i / width)
  rw [hsum, pick, List.getElem?_map, List.getElem?_range hrow, Option.map_some, Option.bind_some,
    List.getElem?_map, List.getElem?_range hcol, Option.map_some] at hread
  rw [Array.getElem_ofFn, List.getElem_toArray]
  exact Option.some.inj ((List.getElem?_eq_getElem _).symm.trans hread)

/-- **The region lies inside a grid** of that size. -/
def Region.Inside (r : Region) (width height : Nat) : Prop :=
  (0 ≤ r.x ∧ r.x + r.width ≤ width) ∧ 0 ≤ r.y ∧ r.y + r.height ≤ height

namespace Grid

variable {g : Grid} {r : Region} {width height : Nat}

/-! ### Guarded capturing -/

/-- The cell at a place, or a refusal, if the cells of the grid are there. -/
def guardedRead (g : Grid) (x y : Nat) : ExceptT Refusal Option Cell :=
  if g.inside x y then g.guardedCell x y else throw (g.refuse x y)

/-- The region lies inside the grid, if its sides can be made shorter by one. -/
def guardedFits (g : Grid) (r : Region) : Option Bool := do
  let right ← guardedSub r.width 1
  let top ← guardedSub r.height 1
  return match offset r.x right, offset r.y top with
    | some x, some y => g.contains r.x r.y && g.contains x y
    | _, _ => false

/-- The rows of a region, the top row first, up to the first cell that is refused. -/
def guardedRows (g : Grid) (r : Region) : ExceptT Refusal Option (List (List Cell)) := do
  let x ← guardedNat r.x
  let y ← guardedNat r.y
  (List.range r.height).mapM fun j => do
    let top ← guardedSub r.height 1
    let up ← guardedSub top j
    let line ← guardedWord (y + up)
    (List.range r.width).mapM fun i => do
      let column ← guardedWord (x + i)
      g.guardedRead column line

/-- **Read a region into an opaque brush**, if every number that is computed is a number. Every cell
is read by a checked read, and the cells are counted at the end. -/
def guardedCapture (g : Grid) (r : Region) : ExceptT Refusal Option Brush :=
  if r.width = 0 ∨ r.height = 0 then throw (.sizeMismatch (.emptyCapture r.width r.height))
  else do
    if ← g.guardedFits r then
      let rows ← g.guardedRows r
      let _ ← guardedWord (r.width * r.height)
      match Brush.ofCells? r.width r.height rows.flatten.toArray with
      | some c => return c
      | none => throw (.sizeMismatch (.described "captured cell count"))
    else throw (.outOfBounds r g.width g.height)

theorem guardedFits_eq (hw : 0 < r.width) (hh : 0 < r.height) :
    g.guardedFits r = some (g.fits r) := by
  rw [guardedFits, guardedSub_eq hw, guardedSub_eq hh]
  rfl

theorem guardedRead_eq (hg : g.HasSize width height) (hsize : width * height < UInt64.size)
    {x y : Nat} (hx : x < width) (hy : y < height) : g.guardedRead x y = pure (g.cell x y) := by
  have hin : g.inside x y = true := by
    rw [inside, hg.width_eq, hg.height_eq, decide_eq_true hx, decide_eq_true hy, Bool.and_self]
  rw [guardedRead, if_pos hin, hg.guardedCell_eq hsize hx hy]
  rfl

/-- **The rows of a region inside the grid** are read without a refusal. -/
theorem guardedRows_eq (hg : g.HasSize width height) (hsize : width * height < UInt64.size)
    (hgrid : IsCoordinate width ∧ IsCoordinate height) (hx : 0 ≤ r.x ∧ r.x + r.width ≤ width)
    (hy : 0 ≤ r.y ∧ r.y + r.height ≤ height) :
    g.guardedRows r = pure ((List.range r.height).map fun j => (List.range r.width).map fun i =>
      g.cell (r.x.toNat + i) (r.y.toNat + (r.height - 1 - j))) := by
  have hword : ∀ {n side : Nat}, IsCoordinate side → n < side → guardedWord n = some n := by
    intro n side hside hn
    have hmax : side ≤ 9223372036854775807 := by
      rw [isCoordinate_iff] at hside
      omega
    refine guardedWord_eq (Nat.lt_trans (Nat.lt_of_lt_of_le hn hmax) ?_)
    decide
  rw [guardedRows, guardedNat_eq hx.1, guardedNat_eq hy.1]
  refine mapM_of_pure fun j hj => ?_
  have hj : j < r.height := List.mem_range.mp hj
  have hline : r.y.toNat + (r.height - 1 - j) < height := by omega
  rw [guardedSub_eq (by omega)]
  simp only [liftM_some, pure_bind]
  rw [guardedSub_eq (by omega)]
  simp only [liftM_some, pure_bind, hword hgrid.2 hline]
  refine mapM_of_pure fun i hi => ?_
  have hi : i < r.width := List.mem_range.mp hi
  have hcolumn : r.x.toNat + i < width := by omega
  simp only [hword hgrid.1 hcolumn, liftM_some, pure_bind]
  exact guardedRead_eq hg hsize hcolumn hline

/-- **The guarded form of capturing** is capturing. -/
theorem guardedCapture_eq (hg : g.HasSize width height) (hsize : width * height < UInt64.size)
    (hgrid : IsCoordinate width ∧ IsCoordinate height) (r : Region) :
    (g.guardedCapture r).run = some (g.capture r) := by
  rw [guardedCapture, capture]
  split
  · rfl
  next hempty =>
    have hw : 0 < r.width := by omega
    have hh : 0 < r.height := by omega
    rw [guardedFits_eq hw hh, liftM_some, pure_bind]
    split
    next hfits =>
      obtain ⟨hx, hy⟩ := (fits_iff (by rwa [hg.width_eq, hg.height_eq]) hw hh).mp hfits
      rw [hg.width_eq] at hx
      rw [hg.height_eq] at hy
      -- the region is not larger than the grid
      have hproduct : r.width * r.height < UInt64.size :=
        Nat.lt_of_le_of_lt (Nat.mul_le_mul (by omega) (by omega)) hsize
      rw [guardedRows_eq hg hsize hgrid hx hy, pure_bind, guardedWord_eq hproduct, liftM_some,
        pure_bind, toArray_flatten_rows, Brush.ofCells?, Brush.ofPixels?, if_pos (by simp)]
      simp only [Array.map_ofFn]
      rfl
    · rfl

/-! ### What is captured -/

/-- **A region outside the grid is refused**, with the size of the grid. -/
theorem capture_of_not_inside (hg : g.HasSize width height)
    (hgrid : IsCoordinate width ∧ IsCoordinate height) (hw : 0 < r.width) (hh : 0 < r.height)
    (hout : ¬r.Inside width height) : g.capture r = .error (.outOfBounds r width height) := by
  have hfits : ¬g.fits r = true := by
    rw [fits_iff (by rwa [hg.width_eq, hg.height_eq]) hw hh, hg.width_eq, hg.height_eq]
    exact hout
  rw [capture, if_neg (by omega), if_neg hfits, hg.width_eq, hg.height_eq]

/-- **A region inside the grid is captured.** -/
theorem exists_capture_of_inside (hg : g.HasSize width height)
    (hgrid : IsCoordinate width ∧ IsCoordinate height) (hw : 0 < r.width) (hh : 0 < r.height)
    (hin : r.Inside width height) : ∃ c, g.capture r = .ok c ∧ g.IsPatch r c :=
  exists_capture (by rwa [hg.width_eq, hg.height_eq]) hw hh (hg.width_eq.symm ▸ hin.1)
    (hg.height_eq.symm ▸ hin.2)

/-- **Exactly the regions with a place and inside the grid are captured.** A region without a place
is refused for its size, and any other one that is not inside the grid is refused with the size of
the grid. What is captured has the size of the region, and in each place an opaque pixel with the
cell of the grid there. No cell is refused, the cells are as many as the size asks for, and no
number that is computed leaves its range, however large the region is. -/
theorem capture_exact (hg : g.HasSize width height) (hsize : width * height < UInt64.size)
    (hgrid : IsCoordinate width ∧ IsCoordinate height) (r : Region) :
    (∀ cause, g.capture r = .error (.sizeMismatch cause) ↔
      (r.width = 0 ∨ r.height = 0) ∧ cause = .emptyCapture r.width r.height) ∧
    (0 < r.width → 0 < r.height →
      ((∃ c, g.capture r = .ok c) ↔ (0 ≤ r.x ∧ r.x + r.width ≤ width) ∧
        0 ≤ r.y ∧ r.y + r.height ≤ height) ∧
      ((¬∃ c, g.capture r = .ok c) → g.capture r = .error (.outOfBounds r width height))) ∧
    (∀ c, g.capture r = .ok c → c.width = r.width ∧ c.height = r.height ∧ c.IsFull ∧
      ∀ x y, x < r.width → y < r.height → c.get? x y =
        some (.opaquely (g.cell (r.x + x).toNat (r.y + r.height - 1 - y).toNat))) ∧
    (g.guardedCapture r).run = some (g.capture r) := by
  rw [guardedCapture_eq hg hsize hgrid r]
  by_cases hempty : r.width = 0 ∨ r.height = 0
  · have hc : g.capture r = .error (.sizeMismatch (.emptyCapture r.width r.height)) := if_pos hempty
    rw [hc]
    refine ⟨fun cause => ⟨fun h => ⟨hempty, ?_⟩, fun h => by rw [h.2]⟩, fun hw hh => by omega,
      nofun, rfl⟩
    exact (Refusal.sizeMismatch.inj (Except.error.inj h)).symm
  · have hw : 0 < r.width := by omega
    have hh : 0 < r.height := by omega
    by_cases hin : r.Inside width height
    · obtain ⟨c, hc, hpatch⟩ := exists_capture_of_inside hg hgrid hw hh hin
      rw [hc]
      refine ⟨fun cause => ⟨nofun, fun h => absurd h.1 hempty⟩,
        fun _ _ => ⟨⟨fun _ => hin, fun _ => ⟨c, rfl⟩⟩, fun h => absurd ⟨c, rfl⟩ h⟩,
        fun d hd => ?_, rfl⟩
      obtain rfl := Except.ok.inj hd
      refine ⟨hpatch.width_eq, hpatch.height_eq, hpatch.isFull, fun x y hx hy => ?_⟩
      have hcolumn : r.x.toNat + x = (r.x + x).toNat := by
        have := hin.1
        omega
      have hline : r.y.toNat + (r.height - 1 - y) = (r.y + r.height - 1 - y).toNat := by
        have := hin.2
        omega
      rw [hpatch.get?_eq x y hx hy, hcolumn, hline]
    · rw [capture_of_not_inside hg hgrid hw hh hin]
      exact ⟨fun cause => ⟨nofun, fun h => absurd h.1 hempty⟩,
        fun _ _ => ⟨⟨fun ⟨_, h⟩ => (nomatch h), fun h => absurd h hin⟩, fun _ => rfl⟩, nofun, rfl⟩

/-- The last column of a grid is captured. A region that is as wide as a word allows, one that
begins at the greatest coordinate and one that begins below zero are out of bounds. -/
theorem capture_exact_at_edges :
    let g : Grid := ⟨2, 2, #[.white, ⟨-0, 1, 0⟩, .black, ⟨0.5, 0, 0⟩]⟩
    let wide : Region := ⟨1, 0, UInt64.size - 1, 1⟩
    let last : Region := ⟨Int64.maxValue.toInt, 0, 2, 1⟩
    let below : Region := ⟨0, Int64.minValue.toInt, 1, 2⟩
    (g.HasSize 2 2 ∧ IsCoordinate (2 : Nat) ∧ IsCoordinate (2 : Nat)) ∧
      (∃ c, g.capture ⟨1, 0, 1, 2⟩ = .ok c ∧ c.get? 0 0 = some ⟨⟨0.5, 0, 0⟩, 1⟩ ∧
        c.get? 0 1 = some ⟨⟨-0, 1, 0⟩, 1⟩) ∧
      ∀ r ∈ [wide, last, below], g.capture r = .error (.outOfBounds r 2 2) ∧
        (g.guardedCapture r).run = some (.error (.outOfBounds r 2 2)) := by
  intro g wide last below
  have hg : g.HasSize 2 2 := ⟨rfl, rfl, rfl⟩
  have hgrid : IsCoordinate (2 : Nat) ∧ IsCoordinate (2 : Nat) := by decide
  have houtside : ∀ r ∈ [wide, last, below], 0 < r.width ∧ 0 < r.height ∧
      ¬((0 ≤ r.x ∧ r.x + r.width ≤ (2 : Nat)) ∧ 0 ≤ r.y ∧ r.y + r.height ≤ (2 : Nat)) := by decide
  refine ⟨⟨hg, hgrid⟩, ?_, fun r hr => ?_⟩
  · obtain ⟨-, hok, hread, -⟩ := capture_exact hg (by decide) hgrid ⟨1, 0, 1, 2⟩
    obtain ⟨c, hc⟩ := (hok (by decide) (by decide)).1.mpr (by decide)
    obtain ⟨-, -, -, hpixel⟩ := hread c hc
    exact ⟨c, hc, (hpixel 0 0 (by decide) (by decide)).trans (by decide),
      (hpixel 0 1 (by decide) (by decide)).trans (by decide)⟩
  · obtain ⟨-, hok, -, hguarded⟩ := capture_exact hg (by decide) hgrid r
    obtain ⟨hw, hh, hout⟩ := houtside r hr
    obtain ⟨hinside, hrefused⟩ := hok hw hh
    have hcapture := hrefused fun h => hout (hinside.mp h)
    rw [hguarded, hcapture]
    exact ⟨rfl, rfl⟩

end Grid

end Moorland
