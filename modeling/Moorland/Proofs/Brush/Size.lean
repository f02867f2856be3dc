import Moorland.Proofs.Grid.Size
/-!
# The size of a brush

A brush is **full** if it has one pixel for each of its places (`Moorland.Brush.IsFull`). Its pixels
with their places are then the same thing as a table by place (`Moorland.Brush.mem_placed_iff`), and
two full brushes of one size that read alike are equal (`Moorland.Brush.IsFull.ext`).
-/

namespace Moorland

namespace Brush

variable {b c : Brush} {x y : Nat} {p : Pixel}

/-- **A brush is full** if it has a pixel for each place. -/
def IsFull (b : Brush) : Prop := b.pixels.size = b.width * b.height

theorem get?_eq_some_iff : b.get? x y = some p ↔
    x < b.width ∧ y < b.height ∧ b.pixels[y * b.width + x]? = some p := by
  rw [get?, inside]
  by_cases h : (decide (x < b.width) && decide (y < b.height)) = true
  · rw [if_pos h]
    simp only [Bool.and_eq_true, decide_eq_true_eq] at h
    exact ⟨fun hp => ⟨h.1, h.2, hp⟩, fun hp => hp.2.2⟩
  · rw [if_neg h]
    simp only [Bool.and_eq_true, decide_eq_true_eq] at h
    exact ⟨nofun, fun hp => absurd ⟨hp.1, hp.2.1⟩ h⟩

theorem place_add (hx : x < b.width) : b.place (y * b.width + x) = (x, y) := by
  obtain ⟨hcol, hrow⟩ := Grid.place_add (y := y) hx
  rw [place, Nat.max_eq_left (Nat.zero_lt_of_lt hx), hcol, hrow]

/-- The pixels with their places are those of the array with the places of their numbers. -/
theorem mem_placed {q : (Nat × Nat) × Pixel} :
    q ∈ b.placed ↔ ∃ i, b.pixels[i]? = some q.2 ∧ b.place i = q.1 := by
  simp only [placed, List.mem_map, Prod.exists, List.mem_zipIdx_iff_getElem?, Array.getElem?_toList]
  constructor
  · rintro ⟨p, i, hp, rfl⟩
    exact ⟨i, hp, rfl⟩
  · rintro ⟨i, hp, hplace⟩
    exact ⟨q.2, i, hp, Prod.ext hplace rfl⟩

/-- **The pixels with their places are those that are read there.** -/
theorem mem_placed_iff (hb : b.IsFull) : ((x, y), p) ∈ b.placed ↔ b.get? x y = some p := by
  rw [mem_placed, get?_eq_some_iff]
  constructor
  · rintro ⟨i, hi, hplace⟩
    have hlt : i < b.width * b.height := hb ▸ (Array.getElem?_eq_some_iff.mp hi).1
    obtain ⟨hcol, hrow, hsum⟩ := Grid.place_of_lt hlt
    -- the number of the pixel is that of its place
    rw [← hsum, place_add hcol] at hplace
    obtain ⟨rfl, rfl⟩ := Prod.mk.inj hplace
    rw [hsum]
    exact ⟨hcol, hrow, hi⟩
  · rintro ⟨hx, hy, hp⟩
    exact ⟨y * b.width + x, hp, place_add hx⟩

theorem mem_pixels_of_get? (hp : b.get? x y = some p) : p ∈ b.pixels :=
  Array.mem_of_getElem? (get?_eq_some_iff.mp hp).2.2

/-- **Every pixel of a full brush is read at some place.** -/
theorem IsFull.exists_place (hb : b.IsFull) (hp : p ∈ b.pixels) : ∃ x y, b.get? x y = some p := by
  obtain ⟨i, hi, rfl⟩ := Array.mem_iff_getElem.mp hp
  have hlt : i < b.width * b.height := hb ▸ hi
  obtain ⟨hcol, hrow, hsum⟩ := Grid.place_of_lt hlt
  refine ⟨i % b.width, i / b.width, get?_eq_some_iff.mpr ⟨hcol, hrow, ?_⟩⟩
  rw [hsum]
  exact Array.getElem?_eq_getElem hi

/-- **Full brushes of one size that read alike are equal.** -/
theorem IsFull.ext (hb : b.IsFull) (hc : c.IsFull) (hw : b.width = c.width)
    (hh : b.height = c.height) (hread : ∀ x y p, b.get? x y = some p → c.get? x y = some p) :
    b = c := by
  have hsize : b.pixels.size = c.pixels.size := by rw [hb, hc, hw, hh]
  have hpixels : b.pixels = c.pixels := by
    refine Array.ext hsize fun i h₁ h₂ => ?_
    have hlt : i < b.width * b.height := hb ▸ h₁
    obtain ⟨hcol, hrow, hsum⟩ := Grid.place_of_lt hlt
    have hb' : b.get? (i % b.width) (i / b.width) = some b.pixels[i] := by
      rw [get?_eq_some_iff, hsum]
      exact ⟨hcol, hrow, Array.getElem?_eq_getElem h₁⟩
    have hc' := (get?_eq_some_iff.mp (hread _ _ _ hb')).2.2
    rw [← hw, hsum, Array.getElem?_eq_getElem h₂] at hc'
    exact (Option.some.inj hc').symm
  obtain ⟨w, h, ps⟩ := b
  obtain ⟨v, l, qs⟩ := c
  obtain rfl : w = v := hw
  obtain rfl : h = l := hh
  exact congrArg (Brush.mk w h) hpixels

end Brush

end Moorland
