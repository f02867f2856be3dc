import Moorland.Document.Codec
import Moorland.Document.Json
import Moorland.Proofs.Brush.Size
import Moorland.Proofs.Guarded
import Moorland.Proofs.Stamp.Cells
/-!
# Guarded brushes

A brush keeps its pixels in an array, and counts on a pixel for each place: reading a place, masking
and stamping compute the number of a pixel from its place without looking at how many there are.
This file makes that visible, in the manner of `Moorland.Grid.guardedAdvance`: a **guarded**
function gives up, with `none`, if a number is not that of a pixel, a product or sum does not fit in
a word, or a difference is below zero. On a full brush none of them gives up
(`Moorland.Brush.Secure`, `Moorland.Brush.IsFull.secure`). With too few pixels there is a place that
cannot be read (`Moorland.Brush.forall_guardedGet_iff`). With too many, the rest has no row in the
brush, and stamping gives up on it unless it is transparent (`Moorland.Brush.HidesRest`,
`Moorland.Brush.forall_guardedStamp_iff`); masking leaves it alone.

Every way to change a brush keeps the number of its pixels (`Moorland.Brush.isFull_changed_iff`).
Every way to make one gives a full brush, except for reading it from a document, which does not
count the pixels: `Moorland.Brush.secure_of_origin` is the main statement and
`Moorland.Brush.document_without_pixels` the document that goes wrong.
-/

namespace Moorland

/-! ### Folds with an invariant -/

/-- A fold in which nothing is missing, as long as an invariant holds, is a fold. -/
theorem foldlM_of_invariant {α β : Type} {P : β → Prop} {f : β → α → Option β} {g : β → α → β}
    {as : List α} (hf : ∀ a ∈ as, ∀ b, P b → f b a = some (g b a))
    (hg : ∀ a ∈ as, ∀ b, P b → P (g b a)) {b : β} (hb : P b) :
    as.foldlM f b = some (as.foldl g b) := by
  induction as generalizing b with
  | nil => rfl
  | cons a as ih =>
    rw [List.foldlM_cons, hf a List.mem_cons_self b hb]
    exact ih (fun c hc => hf c (List.mem_cons_of_mem a hc))
      (fun c hc => hg c (List.mem_cons_of_mem a hc)) (hg a List.mem_cons_self b hb)

/-- A fold in which something is missing at one element, whatever comes before it, gives up. -/
theorem foldlM_eq_none_of_mem {α β : Type} {f : β → α → Option β} {as : List α} {a : α}
    (ha : a ∈ as) (hf : ∀ b, f b a = none) (b : β) : as.foldlM f b = none := by
  induction as generalizing b with
  | nil => exact absurd ha List.not_mem_nil
  | cons first as ih =>
    rw [List.foldlM_cons]
    rcases List.mem_cons.mp ha with rfl | ha
    · rw [hf b]
      rfl
    · rcases f b first with _ | c
      · rfl
      · exact ih ha c

namespace Brush

/-! ### Making and changing brushes -/

/-- **The ways to make a brush.** -/
inductive Origin
  /-- A brush that paints nothing. -/
  | blank (width height : Nat)
  /-- A brush from its cells. -/
  | cells (width height : Nat) (cells : Array Cell)
  /-- A brush from its pixels. -/
  | pixels (width height : Nat) (pixels : Array Pixel)
  /-- A square brush that paints one cell. -/
  | solid (size : Nat) (c : Cell)
  /-- A region of a grid. -/
  | captured (g : Grid) (r : Region)
  /-- A document, in either format. -/
  | document (dialect : Dialect) (d : Document)

/-- **The brush that is made**, unless it is refused. -/
def Origin.brush? : Origin → Option Brush
  | .blank width height => some (Brush.blank width height)
  | .cells width height cs => ofCells? width height cs
  | .pixels width height ps => ofPixels? width height ps
  | .solid size c => some (Brush.solid size c)
  | .captured g r => (g.capture r).toOption
  | .document dialect d => Brush.read? dialect d

/-- The brush is not read from a document. -/
def Origin.IsDirect : Origin → Prop
  | .document _ _ => False
  | _ => True

/-- **The ways to change a brush.** -/
inductive Change
  /-- Replace the pixel at a place, if there is one. -/
  | put (x y : Nat) (p : Pixel)
  /-- Make void pixels transparent. -/
  | purgeVoid
  /-- Make the pixels outside the disc transparent. -/
  | roundMask
  /-- Turn the brush upside down. -/
  | flip

/-- The brush after a change. -/
def Change.apply (b : Brush) : Change → Brush
  | .put x y p => (b.set? x y p).getD b
  | .purgeVoid => b.purgeVoid
  | .roundMask => b.roundMask
  | .flip => b.flipped

/-- **The brush after some changes.** -/
def changed (b : Brush) (changes : List Change) : Brush := changes.foldl Change.apply b

variable {b c : Brush} {x y i : Nat} {p : Pixel}

theorem Change.keeps (b : Brush) (change : Change) :
    (change.apply b).width = b.width ∧ (change.apply b).height = b.height ∧
      (change.apply b).pixels.size = b.pixels.size := by
  cases change with
  | put x y p =>
    rw [apply, set?]
    split
    · exact ⟨rfl, rfl, Array.size_setIfInBounds⟩
    · exact ⟨rfl, rfl, rfl⟩
  | purgeVoid =>
    refine ⟨?_, ?_, b.size_pixels_purgeVoid⟩ <;>
      · rw [apply, Brush.purgeVoid]
        split <;> rfl
  | roundMask => exact ⟨rfl, rfl, b.size_pixels_roundMask⟩
  | flip => exact ⟨rfl, rfl, b.size_pixels_flipped⟩

theorem changed_keeps (b : Brush) (changes : List Change) :
    (b.changed changes).width = b.width ∧ (b.changed changes).height = b.height ∧
      (b.changed changes).pixels.size = b.pixels.size :=
  List.foldlRecOn (motive := fun c : Brush =>
      c.width = b.width ∧ c.height = b.height ∧ c.pixels.size = b.pixels.size)
    changes _ ⟨rfl, rfl, rfl⟩ fun c hc change _ =>
      let ⟨hw, hh, hs⟩ := change.keeps c
      ⟨hw.trans hc.1, hh.trans hc.2.1, hs.trans hc.2.2⟩

/-- **Changes leave a brush full, or as far from it as it was.** -/
theorem isFull_changed_iff (b : Brush) (changes : List Change) :
    (b.changed changes).IsFull ↔ b.IsFull := by
  obtain ⟨hw, hh, hs⟩ := b.changed_keeps changes
  rw [IsFull, IsFull, hw, hh, hs]

/-- **Every brush that is not read from a document is full.** -/
theorem Origin.IsDirect.isFull {o : Origin} (ho : o.IsDirect) (hb : o.brush? = some b) :
    b.IsFull := by
  cases o with
  | blank | solid =>
    obtain rfl := Option.some.inj hb
    exact Array.size_replicate
  | cells width height cs =>
    rw [brush?, ofCells?, ofPixels?, Option.ite_none_right_eq_some] at hb
    obtain ⟨hsize, hb⟩ := hb
    obtain rfl := Option.some.inj hb
    exact hsize
  | pixels width height ps =>
    rw [brush?, ofPixels?, Option.ite_none_right_eq_some] at hb
    obtain ⟨hsize, hb⟩ := hb
    obtain rfl := Option.some.inj hb
    exact hsize
  | captured g r =>
    rw [brush?, Grid.capture] at hb
    split at hb
    · cases hb
    · split at hb
      · obtain rfl := Option.some.inj hb
        exact Array.size_ofFn
      · cases hb
  | document => exact ho.elim

/-! ### Reading -/

/-- **The number of the pixel at a place**, row by row. -/
def guardedIndex (b : Brush) (x y : Nat) : Option Nat := do
  let start ← guardedWord (y * b.width)
  guardedWord (start + x)

/-- **The pixel at a place**, if the place is inside and the pixel is there. -/
def guardedGet (b : Brush) (x y : Nat) : Option (Option Pixel) :=
  if b.inside x y then do
    let i ← b.guardedIndex x y
    return some (← b.pixels[i]?)
  else some none

theorem index_lt (hx : x < b.width) (hy : y < b.height) :
    y * b.width + x < b.width * b.height :=
  Grid.index_lt (g := ⟨b.width, b.height, #[]⟩) hx hy

theorem guardedIndex_eq (hsize : b.width * b.height < UInt64.size) (hx : x < b.width)
    (hy : y < b.height) : b.guardedIndex x y = some (y * b.width + x) := by
  have hi := index_lt hx hy
  rw [guardedIndex, guardedWord_eq (by omega)]
  exact guardedWord_eq (by omega)

theorem inside_iff : b.inside x y = true ↔ x < b.width ∧ y < b.height := by
  rw [inside, Bool.and_eq_true, decide_eq_true_iff, decide_eq_true_iff]

theorem IsFull.guardedGet_eq (hb : b.IsFull) (hsize : b.width * b.height < UInt64.size)
    (x y : Nat) : b.guardedGet x y = some (b.get? x y) := by
  rw [guardedGet, get?]
  split
  next hin =>
    obtain ⟨hx, hy⟩ := inside_iff.mp hin
    have hi : y * b.width + x < b.pixels.size := hb ▸ index_lt hx hy
    rw [guardedIndex_eq hsize hx hy]
    change (b.pixels[y * b.width + x]?).bind _ = _
    rw [Array.getElem?_eq_getElem hi]
    rfl
  · rfl

/-! ### Masking -/

/-- The places of a brush, row by row. -/
def places (b : Brush) : List (Nat × Nat) :=
  (List.range b.height).flatMap fun y => (List.range b.width).map fun x => (x, y)

/-- Make the pixel at a place transparent if it is outside the disc of `b`. -/
def maskPlace (b c : Brush) (place : Nat × Nat) : Brush :=
  if inDisc b.width b.height place.1 place.2 then c
  else { c with pixels := c.pixels.setIfInBounds (place.2 * c.width + place.1) .transparent }

/-- Make the pixel at a place transparent, if it is there. -/
def guardedMaskPlace (b c : Brush) (place : Nat × Nat) : Option Brush :=
  if inDisc b.width b.height place.1 place.2 then some c
  else do
    let i ← c.guardedIndex place.1 place.2
    if i < c.pixels.size then
      return { c with pixels := c.pixels.setIfInBounds i .transparent }
    else none

/-- **The brush with the pixels outside the disc made transparent**, place by place. -/
def guardedRoundMask (b : Brush) : Option Brush := b.places.foldlM (guardedMaskPlace b) b

theorem mem_places : (x, y) ∈ b.places ↔ x < b.width ∧ y < b.height :=
  Grid.mem_places (g := ⟨b.width, b.height, #[]⟩)

/-- **The brush has the size of another, and a pixel for each place.** It may have more pixels. -/
structure Covers (b c : Brush) : Prop where
  /-- It is as wide. -/
  width_eq : c.width = b.width
  /-- It is as high. -/
  height_eq : c.height = b.height
  /-- There is a pixel for each place. -/
  le_size : b.width * b.height ≤ c.pixels.size

theorem Covers.maskPlace (hc : b.Covers c) (place : Nat × Nat) :
    b.Covers (b.maskPlace c place) := by
  rw [Brush.maskPlace]
  split
  · exact hc
  · exact ⟨hc.width_eq, hc.height_eq, Array.size_setIfInBounds.symm ▸ hc.le_size⟩

theorem guardedMaskPlace_eq (hsize : b.width * b.height < UInt64.size) (hc : b.Covers c)
    {place : Nat × Nat} (hplace : place.1 < b.width ∧ place.2 < b.height) :
    b.guardedMaskPlace c place = some (b.maskPlace c place) := by
  obtain ⟨hw, hh, hle⟩ := hc
  have hx : place.1 < c.width := hw ▸ hplace.1
  have hy : place.2 < c.height := hh ▸ hplace.2
  have hindex := guardedIndex_eq (hw.symm ▸ hh.symm ▸ hsize) hx hy
  rw [guardedMaskPlace, maskPlace, hindex]
  split
  · rfl
  · refine if_pos (Nat.lt_of_lt_of_le (index_lt hx hy) ?_)
    rwa [hw, hh]

theorem getElem?_maskPlace (hc : b.Covers c) (hx : x < b.width) (hy : y < b.height) :
    (b.maskPlace c (x, y)).pixels[i]? =
      if (i % b.width, i / b.width) = (x, y) ∧ inDisc b.width b.height x y = false then
        some .transparent
      else c.pixels[i]? := by
  obtain ⟨hw, hh, hle⟩ := hc
  have hplace : (i % b.width, i / b.width) = (x, y) ↔ y * b.width + x = i := by
    constructor
    · intro h
      obtain ⟨rfl, rfl⟩ := Prod.mk.inj h
      exact Nat.div_add_mod' i b.width
    · rintro rfl
      obtain ⟨hcol, hrow⟩ := Grid.place_add (y := y) hx
      rw [hcol, hrow]
  simp only [maskPlace, hplace]
  rcases hdisc : inDisc b.width b.height x y with _ | _
  · rw [if_neg Bool.false_ne_true, Array.getElem?_setIfInBounds, hw]
    by_cases hindex : y * b.width + x = i
    · subst hindex
      rw [if_pos rfl, if_pos (Nat.lt_of_lt_of_le (index_lt hx hy) hle), if_pos ⟨rfl, rfl⟩]
    · rw [if_neg hindex, if_neg fun h => hindex h.1]
  · rw [if_pos rfl, if_neg fun h => Bool.false_ne_true h.2.symm]

/-- **Masking a list of places** makes those of them transparent that are outside the disc, and
leaves the others alone. -/
theorem getElem?_foldl_maskPlace (hc : b.Covers c) {places : List (Nat × Nat)}
    (hplaces : ∀ p ∈ places, p.1 < b.width ∧ p.2 < b.height) :
    (places.foldl b.maskPlace c).pixels[i]? =
      if (i % b.width, i / b.width) ∈ places ∧
          inDisc b.width b.height (i % b.width) (i / b.width) = false then some .transparent
      else c.pixels[i]? := by
  induction places generalizing c with
  | nil =>
    rw [if_neg fun h => List.not_mem_nil h.1]
    rfl
  | cons q places ih =>
    obtain ⟨x, y⟩ := q
    obtain ⟨hx, hy⟩ : x < b.width ∧ y < b.height := hplaces _ List.mem_cons_self
    rw [List.foldl_cons, ih (hc.maskPlace _) fun p hp => hplaces p (List.mem_cons_of_mem _ hp),
      getElem?_maskPlace hc hx hy]
    by_cases hhere : (i % b.width, i / b.width) = (x, y)
    · obtain ⟨hcol, hrow⟩ := Prod.mk.inj hhere
      simp only [hcol, hrow, List.mem_cons, true_or, true_and]
      rcases inDisc b.width b.height x y <;> simp
    · simp only [hhere, List.mem_cons, false_and, false_or, if_false]

/-- **Which pixels the mask clears**: those of a place outside the disc. -/
theorem masks_place_iff : b.masks (b.place i) = true ↔ (i % b.width, i / b.width) ∈ b.places ∧
    inDisc b.width b.height (i % b.width) (i / b.width) = false := by
  rw [mem_places, masks, Bool.and_eq_true, inside_iff, Bool.not_eq_true', place]
  rcases Nat.eq_zero_or_pos b.width with hw | hw
  · simp only [hw, Nat.not_lt_zero, false_and]
  · rw [Nat.max_eq_left hw]

/-- **The mask is what is made place by place**, as long as there is a pixel for each place. -/
theorem guardedRoundMask_eq (hle : b.width * b.height ≤ b.pixels.size)
    (hsize : b.width * b.height < UInt64.size) : b.guardedRoundMask = some b.roundMask := by
  have hplaces : ∀ q ∈ b.places, q.1 < b.width ∧ q.2 < b.height := fun q hq => mem_places.mp hq
  have hb : b.Covers b := ⟨rfl, rfl, hle⟩
  have hkept : b.Covers (b.places.foldl b.maskPlace b) :=
    List.foldlRecOn (motive := b.Covers) _ _ hb fun c hc q _ => hc.maskPlace q
  have hfold : b.guardedRoundMask = some (b.places.foldl b.maskPlace b) :=
    foldlM_of_invariant (P := b.Covers)
      (fun q hq c hc => guardedMaskPlace_eq hsize hc (hplaces q hq))
      (fun q _ c hc => hc.maskPlace q) hb
  have hpixels : (b.places.foldl b.maskPlace b).pixels = b.roundMask.pixels := by
    refine Array.ext_getElem? fun i => ?_
    rw [getElem?_foldl_maskPlace hb hplaces, roundMask, Array.getElem?_mapIdx]
    by_cases hmasks : b.masks (b.place i) = true
    · obtain ⟨hplace, hdisc⟩ := masks_place_iff.mp hmasks
      have hi : i < b.pixels.size := by
        refine Nat.lt_of_lt_of_le ?_ hle
        have hlt := index_lt (hplaces _ hplace).1 (hplaces _ hplace).2
        rwa [Nat.div_add_mod'] at hlt
      rw [if_pos ⟨hplace, hdisc⟩, Array.getElem?_eq_getElem hi, Option.map_some, if_pos hmasks]
    · rw [if_neg (mt masks_place_iff.mpr hmasks)]
      simp [hmasks]
  rw [hfold, Option.some_inj]
  obtain ⟨hw, hh, -⟩ := hkept
  cases hc : b.places.foldl b.maskPlace b
  rw [hc] at hw hh hpixels
  obtain rfl := hw
  obtain rfl := hh
  exact congrArg _ hpixels

/-! ### Pixels that the size does not ask for -/

/-- **The pixels that the size does not ask for are transparent.** A full brush has none. -/
def HidesRest (b : Brush) : Prop :=
  ∀ i p, b.width * b.height ≤ i → b.pixels[i]? = some p → p.isTransparent = true

theorem IsFull.hidesRest (hb : b.IsFull) : b.HidesRest := fun _ _ hi hp =>
  absurd (Array.getElem?_eq_some_iff.mp hp).1 (Nat.not_lt.mpr (hb ▸ hi))

/-- A pixel has a row of the brush exactly if the size asks for it. -/
theorem row_place_lt_iff (hw : 0 < b.width) :
    (b.place i).2 < b.height ↔ i < b.width * b.height := by
  rw [place, Nat.max_eq_left (show 1 ≤ b.width from hw), Nat.div_lt_iff_lt_mul hw, Nat.mul_comm]

/-- **Only transparent pixels have no row**, so that every mode skips them. -/
theorem HidesRest.row_lt (hb : b.HidesRest) (hw : 0 < b.width) {mode : StampMode}
    {q : (Nat × Nat) × Pixel} (hq : q ∈ b.placed) (hskip : mode.skips q.2 = false) :
    q.1.2 < b.height := by
  obtain ⟨i, hp, hplace⟩ := mem_placed.mp hq
  rw [← hplace, row_place_lt_iff hw]
  refine Nat.lt_of_not_le fun hi => ?_
  rw [StampMode.skips_of_isTransparent mode (hb i _ hi hp)] at hskip
  cases hskip

end Brush

/-! ### Stamping -/

namespace Grid

/-- The grid with one cell replaced, if the cell is there. -/
def guardedPut (g : Grid) (x y : Nat) (c : Cell) : Option Grid := do
  let start ← guardedWord (y * g.width)
  let i ← guardedWord (start + x)
  if i < g.cells.size then return g.put x y c else none

/-- **Where a pixel lies**, if it lies inside the grid. The row is counted down from the top one,
and only if the column is a coordinate. -/
def guardedDestination (g : Grid) (corner : Option (Int × Int)) (height : Nat) (place : Nat × Nat) :
    Option (Option (Nat × Nat)) :=
  match corner with
  | none => some none
  | some (x₀, y₀) =>
    match offset x₀ place.1 with
    | none => some none
    | some x => do
      let top ← guardedSub height 1
      let up ← guardedSub top place.2
      match offset y₀ up with
      | none => return none
      | some y => return if g.contains x y then some (x.toNat, y.toNat) else none

/-- Paint one pixel and count it. -/
def guardedStampPixel (mode : StampMode) (corner : Option (Int × Int)) (height : Nat)
    (state : Grid × StampReport) (pixel : (Nat × Nat) × Pixel) : Option (Grid × StampReport) := do
  let (g, report) := state
  if mode.skips pixel.2 then return (g, { report with skipped := report.skipped + 1 })
  else
    match ← g.guardedDestination corner height pixel.1 with
    | some (x, y) =>
      return (← g.guardedPut x y pixel.2.cell, { report with written := report.written + 1 })
    | none => return (g, { report with clipped := report.clipped + 1 })

/-- **Paint a brush centred on a point**, if every number that is computed is a number. -/
def guardedStamp (g : Grid) (b : Brush) (cx cy : Int) (mode : StampMode) :
    Option (Except Refusal (Grid × StampReport)) :=
  if b.width = 0 ∨ b.height = 0 then
    some (.error (.sizeMismatch (.emptyBrush b.width b.height)))
  else do
    let corner := centeredCorner cx cy b.width b.height
    return .ok (← b.placed.foldlM (guardedStampPixel mode corner b.height) (g, ⟨0, 0, 0⟩))

variable {g : Grid} {width height : Nat} {mode : StampMode} {corner : Option (Int × Int)}

theorem guardedPut_eq (hg : g.HasSize width height) (hsize : width * height < UInt64.size)
    {x y : Nat} (hx : x < width) (hy : y < height) (c : Cell) :
    g.guardedPut x y c = some (g.put x y c) := by
  have hi := hg.index_lt_size hx hy
  have hlt : g.index x y < width * height := hg.size_cells ▸ hi
  rw [index] at hi hlt
  rw [guardedPut, guardedWord_eq (n := y * g.width) (by omega)]
  change (guardedWord (y * g.width + x)).bind _ = _
  rw [guardedWord_eq (by omega)]
  exact if_pos hi

theorem guardedDestination_eq {rows : Nat} {place : Nat × Nat} (hplace : place.2 < rows) :
    g.guardedDestination corner rows place = some (g.destination corner rows place) := by
  rcases corner with _ | ⟨x₀, y₀⟩
  · rfl
  rw [guardedDestination, destination, guardedSub_eq (by omega), fromBelow?, if_pos hplace]
  simp only [Option.bind_eq_bind, Option.bind_some]
  rcases offset x₀ place.1 with _ | x
  · rfl
  simp only [guardedSub_eq (Nat.le_sub_one_of_lt hplace), Option.bind_some]
  rcases offset y₀ (rows - 1 - place.2) with _ | y
  · rfl
  · rfl

theorem guardedStampPixel_eq {state : Grid × StampReport}
    (hg : state.1.HasSize width height) (hsize : width * height < UInt64.size) {rows : Nat}
    {pixel : (Nat × Nat) × Pixel} (hpixel : mode.skips pixel.2 = false → pixel.1.2 < rows) :
    guardedStampPixel mode corner rows state pixel =
      some (stampPixel mode corner rows state pixel) := by
  obtain ⟨g, report⟩ := state
  rw [guardedStampPixel, stampPixel]
  split
  · rfl
  · next hskip =>
    rw [guardedDestination_eq (hpixel (Bool.of_not_eq_true hskip))]
    rcases hd : g.destination corner rows pixel.1 with _ | ⟨u, v⟩
    · simp only [Option.bind_eq_bind, Option.bind_some]
      rfl
    · obtain ⟨⟨hu, hv⟩, -⟩ := destination_eq_some_iff.mp hd
      have hput := guardedPut_eq hg hsize (hg.width_eq ▸ hu) (hg.height_eq ▸ hv) pixel.2.cell
      simp only [Option.bind_eq_bind, Option.bind_some, hput]
      rfl

/-- **Stamping a brush on a full grid** computes no number that is not there, as long as all pixels
that the size of the brush does not ask for are transparent. -/
theorem guardedStamp_eq {b : Brush} (hg : g.HasSize width height)
    (hsize : width * height < UInt64.size) (hb : b.HidesRest) (cx cy : Int) (mode : StampMode) :
    g.guardedStamp b cx cy mode = some (g.stamp b cx cy mode) := by
  rw [guardedStamp, stamp]
  split
  · rfl
  have hpixel : ∀ q ∈ b.placed, mode.skips q.2 = false → q.1.2 < b.height := fun q hq =>
    hb.row_lt (by omega) hq
  have hfold : b.placed.foldlM (guardedStampPixel mode (centeredCorner cx cy b.width b.height)
      b.height) (g, ⟨0, 0, 0⟩) = some (b.placed.foldl (stampPixel mode
      (centeredCorner cx cy b.width b.height) b.height) (g, ⟨0, 0, 0⟩)) :=
    foldlM_of_invariant (P := fun state : Grid × StampReport => state.1.HasSize width height)
      (fun q hq state hs => guardedStampPixel_eq hs hsize (hpixel q hq))
      (fun q _ state hs => hs.stampPixel q) hg
  simp only [hfold]
  rfl

/-- **Below the last row** of its patch a pixel has no place, and looking for it gives up. -/
theorem guardedDestination_eq_none {rows : Nat} {place : Nat × Nat} (hrows : 0 < rows)
    (hplace : rows ≤ place.2) {x₀ y₀ x : Int} (hx : offset x₀ place.1 = some x) :
    g.guardedDestination (some (x₀, y₀)) rows place = none := by
  have hsub : guardedSub (rows - 1) place.2 = none := if_neg (by omega)
  simp only [guardedDestination, hx, guardedSub_eq (Nat.succ_le_of_lt hrows), hsub,
    Option.bind_eq_bind, Option.bind_some, Option.bind_none]

/-- **A pixel that the size of a brush does not ask for** makes stamping give up, on any grid,
unless the mode skips it or its column is no coordinate. -/
theorem guardedStamp_eq_none {b : Brush} {i : Nat} {p : Pixel} (hw : 0 < b.width)
    (hh : 0 < b.height) (hi : b.width * b.height ≤ i) (hp : b.pixels[i]? = some p)
    (hskip : mode.skips p = false) {cx cy x₀ y₀ x : Int}
    (hcorner : centeredCorner cx cy b.width b.height = some (x₀, y₀))
    (hx : offset x₀ (b.place i).1 = some x) : g.guardedStamp b cx cy mode = none := by
  have hrow : b.height ≤ (b.place i).2 :=
    Nat.le_of_not_lt fun hlt => Nat.not_lt.mpr hi ((Brush.row_place_lt_iff hw).mp hlt)
  have hpixel : ∀ state,
      guardedStampPixel mode (some (x₀, y₀)) b.height state (b.place i, p) = none := by
    intro state
    simp only [guardedStampPixel, hskip, Bool.false_eq_true, if_false,
      guardedDestination_eq_none hh hrow hx, Option.bind_eq_bind, Option.bind_none]
  rw [guardedStamp, if_neg (by omega)]
  simp only [hcorner, foldlM_eq_none_of_mem (Brush.mem_placed.mpr ⟨i, hp, rfl⟩) hpixel,
    Option.bind_eq_bind, Option.bind_none]

end Grid

/-! ### Secure brushes -/

namespace Brush

variable {b : Brush}

/-- **A secure brush**: reading a place, masking and stamping compute no number that is not there.
-/
structure Secure (b : Brush) : Prop where
  /-- Every place can be read. -/
  get : ∀ x y, b.guardedGet x y = some (b.get? x y)
  /-- The brush can be masked. -/
  roundMask : b.guardedRoundMask = some b.roundMask
  /-- The brush can be stamped anywhere, on any full grid whose cells fit in a word. -/
  stamp : ∀ (g : Grid) (cx cy : Int) (mode : StampMode), g.IsFull →
    g.width * g.height < UInt64.size → g.guardedStamp b cx cy mode = some (g.stamp b cx cy mode)

/-- **A full brush is secure.** -/
theorem IsFull.secure (hb : b.IsFull) (hsize : b.width * b.height < UInt64.size) : b.Secure :=
  ⟨hb.guardedGet_eq hsize, guardedRoundMask_eq (Nat.le_of_eq hb.symm) hsize,
    fun _ cx cy mode hg hcells => Grid.guardedStamp_eq hg hcells hb.hidesRest cx cy mode⟩

/-- **Every place can be read** exactly if there are at least as many pixels as places. -/
theorem forall_guardedGet_iff (hsize : b.width * b.height < UInt64.size) :
    (∀ x y, b.guardedGet x y ≠ none) ↔ b.width * b.height ≤ b.pixels.size := by
  have hget : ∀ {x y}, x < b.width → y < b.height →
      (b.guardedGet x y ≠ none ↔ y * b.width + x < b.pixels.size) := by
    intro x y hx hy
    rw [guardedGet, if_pos (inside_iff.mpr ⟨hx, hy⟩), guardedIndex_eq hsize hx hy]
    change (b.pixels[y * b.width + x]?).bind _ ≠ none ↔ _
    rcases Nat.lt_or_ge (y * b.width + x) b.pixels.size with hi | hi
    · rw [Array.getElem?_eq_getElem hi]
      exact ⟨fun _ => hi, fun _ => nofun⟩
    · rw [Array.getElem?_eq_none hi]
      exact ⟨fun h => absurd rfl h, fun h => absurd h (Nat.not_lt.mpr hi)⟩
  constructor
  · intro hall
    refine Nat.le_of_not_lt fun hlt => ?_
    -- the first place without a pixel
    obtain ⟨hcol, hrow, hsum⟩ := Grid.place_of_lt hlt
    have := (hget hcol hrow).mp (hall _ _)
    omega
  · intro hle x y
    by_cases hin : x < b.width ∧ y < b.height
    · exact (hget hin.1 hin.2).mpr (Nat.lt_of_lt_of_le (index_lt hin.1 hin.2) hle)
    · rw [guardedGet, if_neg fun h => hin (inside_iff.mp h)]
      exact nofun

/-- **A brush can be stamped** anywhere and on every grid exactly if stamping it is refused for its
size, or all pixels that the size does not ask for are transparent. -/
theorem forall_guardedStamp_iff (hwidth : IsCoordinate b.width)
    (hsize : b.width * b.height < UInt64.size) :
    (∀ (g : Grid) (cx cy : Int) (mode : StampMode), g.IsFull →
      g.width * g.height < UInt64.size → g.guardedStamp b cx cy mode ≠ none) ↔
        b.width = 0 ∨ b.height = 0 ∨ b.HidesRest := by
  constructor
  · intro hall
    rcases Nat.eq_zero_or_pos b.width with hw | hw
    · exact .inl hw
    rcases Nat.eq_zero_or_pos b.height with hh | hh
    · exact .inr (.inl hh)
    refine .inr (.inr fun i p hi hp => Bool.of_not_eq_false fun hskip => ?_)
    have hheight : b.height < 18446744073709551616 :=
      Nat.lt_of_le_of_lt (Nat.le_mul_of_pos_left _ hw) hsize
    have hcolumn : (b.place i).1 < b.width := by
      rw [place, Nat.max_eq_left hw]
      exact Nat.mod_lt i hw
    rw [isCoordinate_iff] at hwidth
    -- the brush is placed with its lowest corner at the origin
    have hcorner : centeredCorner (b.width / 2 : Nat) (b.height / 2 : Nat) b.width b.height =
        some (0, 0) := by
      refine centeredCorner_eq_some_iff.mpr
        ⟨⟨?_, ?_⟩, ⟨?_, Int.sub_self _⟩, ?_, Int.sub_self _⟩
      all_goals
        rw [isCoordinate_iff]
        omega
    have hoffset : offset 0 (b.place i).1 = some ((b.place i).1 : Int) := by
      refine offset_eq_some_iff.mpr ⟨?_, ?_, Int.zero_add _⟩
      all_goals
        rw [isCoordinate_iff]
        omega
    have hpainted : StampMode.alphaOnly.skips p = false := hskip
    exact hall ⟨1, 1, #[.black]⟩ _ _ .alphaOnly (Grid.isFull_iff.mpr rfl) (by decide)
      (Grid.guardedStamp_eq_none hw hh hi hp hpainted hcorner hoffset)
  · rintro hb g cx cy mode hg hcells
    by_cases hempty : b.width = 0 ∨ b.height = 0
    · rw [Grid.guardedStamp, if_pos hempty]
      exact Option.some_ne_none _
    · rw [Grid.guardedStamp_eq hg hcells ((or_assoc.mpr hb).resolve_left hempty)]
      exact Option.some_ne_none _

/-- One pixel too many is looked for below the only row. -/
example : (Grid.mk 1 1 #[.black]).guardedStamp
    ⟨1, 1, #[.opaquely .white, .opaquely .white]⟩ 0 0 .alphaOnly = none := rfl

/-- **Which brushes are secure.** A brush that is not read from a document is full. A brush that is
full, whatever it has been made from, stays full when it is changed, and is secure then; and one
that is not stays so. With too few pixels, reading a place of it gives up somewhere; with enough of
them, it can be masked. With too many, stamping it gives up somewhere, unless the rest is
transparent. -/
theorem secure_of_origin {o : Origin} (hb : o.brush? = some b)
    (hsize : b.width * b.height < UInt64.size) (changes : List Change) :
    (o.IsDirect → b.IsFull) ∧ (b.IsFull → (b.changed changes).Secure) ∧
      ((b.changed changes).IsFull ↔ b.IsFull) ∧
      ((∀ x y, (b.changed changes).guardedGet x y ≠ none) ↔
        b.width * b.height ≤ b.pixels.size) ∧
      (b.width * b.height ≤ b.pixels.size →
        (b.changed changes).guardedRoundMask = some (b.changed changes).roundMask) ∧
      (IsCoordinate b.width →
        ((∀ (g : Grid) (cx cy : Int) (mode : StampMode), g.IsFull →
          g.width * g.height < UInt64.size →
            g.guardedStamp (b.changed changes) cx cy mode ≠ none) ↔
          b.width = 0 ∨ b.height = 0 ∨ (b.changed changes).HidesRest)) := by
  obtain ⟨hw, hh, hs⟩ := b.changed_keeps changes
  have hsize' : (b.changed changes).width * (b.changed changes).height < UInt64.size := by
    rwa [hw, hh]
  refine ⟨fun ho => ho.isFull hb, fun hfull => ?_, b.isFull_changed_iff changes, ?_,
    fun hle => ?_, fun hwidth => ?_⟩
  · exact ((b.isFull_changed_iff changes).mpr hfull).secure hsize'
  · rw [forall_guardedGet_iff hsize', hw, hh, hs]
  · exact guardedRoundMask_eq (by rwa [hw, hh, hs]) hsize'
  · rw [forall_guardedStamp_iff (hw ▸ hwidth) hsize', hw, hh]

/-- A square brush that is masked, turned and written to. -/
theorem secure_of_origin_solid :
    ((Brush.solid 2 .white).changed [.roundMask, .flip, .put 0 1 .transparent]).Secure :=
  (secure_of_origin (o := .solid 2 .white) rfl (by decide)
    [.roundMask, .flip, .put 0 1 .transparent]).2.1 rfl

/-- **A document of one place without a pixel** is read, and reading the place gives up. -/
theorem document_without_pixels :
    ∃ d, Json.read? "\x7b\"width\":1,\"height\":1,\"pixels\":[]\x7d" = some d ∧
      (Origin.document .json d).brush? = some ⟨1, 1, #[]⟩ ∧ ¬IsFull ⟨1, 1, #[]⟩ ∧
      guardedGet ⟨1, 1, #[]⟩ 0 0 = none :=
  ⟨_, rfl, rfl, nofun, rfl⟩

end Brush

end Moorland
