import Mathlib.Data.List.Basic
import Moorland.Proofs.Ring.Uniform
/-!
# Locality

What a place holds after `k` steps depends on the cells at most `k` columns and rows away and on
nothing else: not on the rest of the grid, not on its size, and not on where in the grid the place
is, unless a rule looks at the coordinates.

Two places of two grids are **alike** up to a distance if they see the same cells there, and the
same edges (`Moorland.Grid.AlikeAround`). To see an edge is to see that there is no cell, so that
`Moorland.Grid.seen` reads a grid at any coordinates. The window of a place is then what is seen at
nine offsets, whether an edge clips it or not (`Moorland.Grid.sums_eq_foldl_window`), and since the
cells come in the same order the sums are equal to the last bit.

One step costs one column and one row of likeness (`Moorland.Grid.AlikeAround.generation`), and the
generation that is kept is one that was more alike. A run goes on from there
(`Moorland.Ring.AlikeAround.steps`).
-/

namespace Moorland

/-! ### Windows by offset -/

/-- The offsets of a window along one axis, upwards. -/
def windowOffsets : List Int := [-1, 0, 1]

/-- The coordinate as one of an axis of the given length, if it is on the axis. -/
def onAxis (length : Nat) (i : Int) : Option Nat :=
  if 0 ≤ i ∧ i < length then some i.toNat else none

theorem onAxis_of_lt {length i : Nat} (h : i < length) : onAxis length i = some i := by
  rw [onAxis, if_pos (by omega), Int.toNat_natCast]

theorem onAxis_of_not {length : Nat} {i : Int} (h : ¬(0 ≤ i ∧ i < length)) :
    onAxis length i = none :=
  if_neg h

theorem onAxis_below {c length : Nat} (h : c < length) :
    onAxis length (c + -1) = if 0 < c then some (c - 1) else none := by
  by_cases hc : 0 < c
  · have hpred : (c : Int) + -1 = (c - 1 : Nat) := by omega
    rw [if_pos hc, hpred, onAxis_of_lt (by omega)]
  · rw [if_neg hc, onAxis_of_not (by omega)]

theorem onAxis_above {c length : Nat} :
    onAxis length (c + 1) = if c + 1 < length then some (c + 1) else none := by
  by_cases hc : c + 1 < length
  · rw [if_pos hc]
    exact onAxis_of_lt hc
  · rw [if_neg hc, onAxis_of_not (by omega)]

/-- **A window along an axis** is what is on the axis of the three coordinates around its place. -/
theorem windowRange_eq_filterMap {c length : Nat} (h : c < length) :
    windowRange c length = windowOffsets.filterMap fun d => onAxis length (c + d) := by
  have hmid : onAxis length (c + 0) = some c := onAxis_of_lt h
  have hdef : windowCount c length = min (c + 1) (length - 1) + 1 - (c - 1) := rfl
  rw [windowRange, windowLow, windowOffsets]
  simp only [List.filterMap_cons, List.filterMap_nil, hmid, onAxis_below h, onAxis_above]
  -- the axis may end just before the place and just after it
  rcases c with _ | c
  · by_cases hend : 0 + 1 < length
    · have hcount : windowCount 0 length = 2 := by omega
      rw [hcount, if_pos hend]
      rfl
    · have hcount : windowCount 0 length = 1 := by omega
      rw [hcount, if_neg hend]
      rfl
  · by_cases hend : c + 1 + 1 < length
    · have hcount : windowCount (c + 1) length = 3 := by omega
      rw [hcount, if_pos hend, if_pos (Nat.zero_lt_succ c)]
      rfl
    · have hcount : windowCount (c + 1) length = 2 := by omega
      rw [hcount, if_neg hend, if_pos (Nat.zero_lt_succ c)]
      rfl

namespace Grid

/-! ### What is seen at coordinates -/

/-- **The cell at coordinates**, if they are those of a place inside the grid. -/
def seen (g : Grid) (x y : Int) : Option Cell :=
  if g.contains x y then some (g.cell x.toNat y.toNat) else none

variable {g h : Grid} {x y u v : Int} {k : Nat}

theorem exists_place (hc : g.contains x y = true) :
    ∃ i j : Nat, x = i ∧ y = j ∧ i < g.width ∧ j < g.height := by
  obtain ⟨hx, hy⟩ := contains_iff.mp hc
  exact ⟨x.toNat, y.toNat, by omega, by omega, by omega, by omega⟩

theorem seen_natCast {i j : Nat} (hi : i < g.width) (hj : j < g.height) :
    g.seen i j = some (g.cell i j) := by
  rw [seen, if_pos (contains_natCast.mpr ⟨hi, hj⟩), Int.toNat_natCast, Int.toNat_natCast]

theorem isSome_seen : (g.seen x y).isSome = g.contains x y := by
  rw [seen]
  split <;> simp_all

theorem seen_eq_bind : g.seen x y =
    (onAxis g.width x).bind fun i => (onAxis g.height y).map fun j => g.cell i j := by
  rw [seen, onAxis, onAxis]
  by_cases hx : 0 ≤ x ∧ x < g.width
  · by_cases hy : 0 ≤ y ∧ y < g.height
    · rw [if_pos (contains_iff.mpr ⟨hx, hy⟩), if_pos hx, if_pos hy]
      rfl
    · rw [if_neg fun hc => hy (contains_iff.mp hc).2, if_pos hx, if_neg hy]
      rfl
  · rw [if_neg fun hc => hx (contains_iff.mp hc).1, if_neg hx]
    rfl

/-- **The cells of a window**, in the order in which they are added up. -/
def window (g : Grid) (x y : Int) : List Cell :=
  windowOffsets.flatMap fun dx => windowOffsets.filterMap fun dy => g.seen (x + dx) (y + dy)

/-- **The sums over a window add up what is seen at nine offsets.** -/
theorem sums_eq_foldl_window {i j : Nat} (hi : i < g.width) (hj : j < g.height) :
    g.sums i j = (g.window i j).foldl (· + ·) .black := by
  rw [sums, window, List.foldl_flatMap, windowRange_eq_filterMap hi, List.foldl_filterMap,
    windowRange_eq_filterMap hj]
  -- a column off the grid adds nothing, and neither does a row
  refine congrArg (fun f => windowOffsets.foldl f Cell.black) (funext₂ fun acc dx => ?_)
  simp only [seen_eq_bind]
  cases onAxis g.width (i + dx) with
  | none => rfl
  | some m =>
    simp only [Option.bind_some, List.foldl_filterMap]
    refine congrArg (fun f => windowOffsets.foldl f acc) (funext₂ fun acc dy => ?_)
    cases onAxis g.height (j + dy) <;> rfl

/-! ### Places that see alike -/

/-- **Two places see alike** up to a distance: at every offset within it they see the same cell, or
both of them none. -/
def AlikeAround (k : Nat) (x y u v : Int) (g h : Grid) : Prop :=
  ∀ dx dy : Int, dx.natAbs ≤ k → dy.natAbs ≤ k → g.seen (x + dx) (y + dy) = h.seen (u + dx) (v + dy)

theorem rel_imp {R S : Grid → Grid → Prop} {gp hp : Option Grid} (himp : ∀ p q, R p q → S p q)
    (hkept : Option.Rel R gp hp) : Option.Rel S gp hp := by
  cases hkept with
  | none => exact .none
  | some hpq => exact .some (himp _ _ hpq)

namespace AlikeAround

theorem mono {l : Nat} (hgh : AlikeAround k x y u v g h) (hl : l ≤ k) :
    AlikeAround l x y u v g h :=
  fun dx dy hdx hdy => hgh dx dy (Nat.le_trans hdx hl) (Nat.le_trans hdy hl)

theorem seen_eq (hgh : AlikeAround k x y u v g h) : g.seen x y = h.seen u v := by
  have h0 := hgh 0 0 (Nat.zero_le k) (Nat.zero_le k)
  rwa [Int.add_zero, Int.add_zero, Int.add_zero, Int.add_zero] at h0

theorem contains_eq (hgh : AlikeAround k x y u v g h) : g.contains x y = h.contains u v := by
  rw [← isSome_seen, ← isSome_seen, hgh.seen_eq]

theorem inside {i j m n : Nat} (hgh : AlikeAround k i j m n g h) (hi : i < g.width)
    (hj : j < g.height) : m < h.width ∧ n < h.height :=
  contains_natCast.mp (hgh.contains_eq ▸ contains_natCast.mpr ⟨hi, hj⟩)

theorem cell_eq {i j m n : Nat} (hgh : AlikeAround k i j m n g h) (hi : i < g.width)
    (hj : j < g.height) : g.cell i j = h.cell m n := by
  obtain ⟨hm, hn⟩ := hgh.inside hi hj
  have hseen := hgh.seen_eq
  rw [seen_natCast hi hj, seen_natCast hm hn] at hseen
  exact Option.some.inj hseen

/-- **Around places next to them**, both see alike up to a distance less by what was moved. -/
theorem moved {j : Nat} (hgh : AlikeAround (k + j) x y u v g h) {dx dy : Int}
    (hdx : dx.natAbs ≤ j) (hdy : dy.natAbs ≤ j) :
    AlikeAround k (x + dx) (y + dy) (u + dx) (v + dy) g h := by
  intro ex ey hex hey
  -- an offset from the new places is a longer one from the old ones
  rw [Int.add_assoc, Int.add_assoc, Int.add_assoc, Int.add_assoc]
  exact hgh (dx + ex) (dy + ey) (by omega) (by omega)

/-- **Places inside the grids**, as far as the distance reaches, see alike if the cells are the
same. -/
theorem of_interior {i j m n : Nat}
    (hg : i + 2 * k < g.width ∧ j + 2 * k < g.height)
    (hh : m + 2 * k < h.width ∧ n + 2 * k < h.height)
    (hcells : ∀ a < 2 * k + 1, ∀ b < 2 * k + 1, g.cell (i + a) (j + b) = h.cell (m + a) (n + b)) :
    AlikeAround k (i + k : Nat) (j + k : Nat) (m + k : Nat) (n + k : Nat) g h := by
  intro dx dy hdx hdy
  -- offsets from the corner of the part that is seen are not negative
  obtain ⟨a, ha⟩ : ∃ a : Nat, (k : Int) + dx = a := Int.eq_ofNat_of_zero_le (by omega)
  obtain ⟨b, hb⟩ : ∃ b : Nat, (k : Int) + dy = b := Int.eq_ofNat_of_zero_le (by omega)
  have hx (c : Nat) : ((c + k : Nat) : Int) + dx = (c + a : Nat) := by omega
  have hy (c : Nat) : ((c + k : Nat) : Int) + dy = (c + b : Nat) := by omega
  rw [hx, hx, hy, hy, seen_natCast (by omega) (by omega), seen_natCast (by omega) (by omega),
    hcells a (by omega) b (by omega)]

end AlikeAround

end Grid

/-! ### Laws that do not look at the place -/

/-- **The rule does not look at the coordinates.** -/
def Rule.IgnoresPlace (rule : Rule) : Prop :=
  ∀ (site : Site) (x y : Nat), rule { site with x, y } = rule site

/-- **The law does not look at the coordinates**: it has no rule, or one that does not. -/
def Law.IgnoresPlace (law : Law) : Prop := ∀ rule ∈ law.rule, rule.IgnoresPlace

namespace Grid

variable {g h : Grid} {gp hp : Option Grid} {law : Law} {x y u v : Int} {k : Nat}

namespace AlikeAround

/-! ### One generation -/

theorem window_eq (hgh : AlikeAround 1 x y u v g h) : g.window x y = h.window u v := by
  have hoffset : ∀ d ∈ windowOffsets, d.natAbs ≤ 1 := by decide
  have hcolumn : ∀ dx ∈ windowOffsets,
      (windowOffsets.filterMap fun dy => g.seen (x + dx) (y + dy)) =
        windowOffsets.filterMap fun dy => h.seen (u + dx) (v + dy) := fun dx hdx =>
    List.filterMap_congr fun dy hdy => hgh dx dy (hoffset dx hdx) (hoffset dy hdy)
  exact List.flatMap_congr hcolumn

/-- **The sums depend on the nine cells around a place only**, and on their order. -/
theorem sums_eq {i j m n : Nat} (hgh : AlikeAround 1 i j m n g h) (hi : i < g.width)
    (hj : j < g.height) : g.sums i j = h.sums m n := by
  obtain ⟨hm, hn⟩ := hgh.inside hi hj
  rw [sums_eq_foldl_window hi hj, sums_eq_foldl_window hm hn, hgh.window_eq]

theorem map_cell_eq {i j m n : Nat} (hkept : Option.Rel (AlikeAround k i j m n) gp hp)
    (hgp : ∀ p ∈ gp, i < p.width ∧ j < p.height) :
    gp.map (fun p => p.cell i j) = hp.map fun p => p.cell m n := by
  cases hkept with
  | none => rfl
  | some halike =>
    obtain ⟨hi, hj⟩ := hgp _ rfl
    exact congrArg some (halike.cell_eq hi hj)

/-- **The next cells are the same** where the grids are alike up to the distance one, and the kept
grids at the places themselves. -/
theorem nextCell_eq {i j m n : Nat} (hgh : AlikeAround 1 i j m n g h) (hi : i < g.width)
    (hj : j < g.height) (hkept : Option.Rel (AlikeAround 0 i j m n) gp hp)
    (hgp : ∀ p ∈ gp, i < p.width ∧ j < p.height)
    (hlaw : (i = m ∧ j = n) ∨ law.IgnoresPlace) :
    g.nextCell gp law i j = h.nextCell hp law m n := by
  have hsums := hgh.sums_eq hi hj
  rcases hrule : law.rule with _ | rule
  · simp only [nextCell, hrule, hsums]
  · simp only [nextCell, hrule, hsums, hgh.cell_eq hi hj, map_cell_eq hkept hgp]
    rcases hlaw with ⟨rfl, rfl⟩ | hlaw
    · rfl
    · exact hlaw rule hrule ⟨_, _, _, m, n, _⟩ i j

end AlikeAround

/-- **One step costs one column and one row**: the generations are alike up to a distance less by
one. -/
theorem AlikeAround.generation {width height : Nat} (hg : g.HasSize width height)
    (hgp : ∀ p ∈ gp, p.HasSize width height) (hgh : AlikeAround (k + 1) x y u v g h)
    (hkept : Option.Rel (AlikeAround k x y u v) gp hp)
    (hlaw : (x = u ∧ y = v) ∨ law.IgnoresPlace) :
    AlikeAround k x y u v (g.generation gp law) (h.generation hp law) := by
  intro dx dy hdx hdy
  have hmoved : AlikeAround 1 (x + dx) (y + dy) (u + dx) (v + dy) g h :=
    AlikeAround.moved (Nat.add_comm k 1 ▸ hgh) hdx hdy
  by_cases hc : g.contains (x + dx) (y + dy) = true
  · have hkept' : Option.Rel (AlikeAround 0 (x + dx) (y + dy) (u + dx) (v + dy)) gp hp :=
      rel_imp (fun p q hpq => AlikeAround.moved ((Nat.zero_add k).symm ▸ hpq) hdx hdy) hkept
    obtain ⟨i, j, hx, hy, hi, hj⟩ := exists_place hc
    obtain ⟨m, n, hu, hv, hm, hn⟩ := exists_place (hmoved.contains_eq ▸ hc)
    rw [hx, hy, hu, hv] at hmoved hkept' ⊢
    have hnext : g.nextCell gp law i j = h.nextCell hp law m n := by
      refine hmoved.nextCell_eq hi hj hkept' (fun p hp => ?_) (hlaw.imp_left fun h => by omega)
      rw [(hgp p hp).width_eq, (hgp p hp).height_eq, ← hg.width_eq, ← hg.height_eq]
      exact ⟨hi, hj⟩
    rw [seen_natCast (g := g.generation gp law) hi hj,
      seen_natCast (g := h.generation hp law) hm hn, cell_generation hi hj, cell_generation hm hn,
      hnext]
  · -- there is nothing outside, before the step and after it
    have hg' : (g.generation gp law).contains (x + dx) (y + dy) ≠ true := hc
    have hh' : (h.generation hp law).contains (u + dx) (v + dy) ≠ true := hmoved.contains_eq ▸ hc
    rw [seen, seen, if_neg hg', if_neg hh']

end Grid

namespace Ring

variable {r s : Ring} {law : Law} {x y u v : Int} {k width height width' height' : Nat}

/-! ### Runs -/

/-- **Two places of two rings see alike** up to a distance: in the current generations, and in the
ones before where these are kept. -/
structure AlikeAround (k : Nat) (x y u v : Int) (r s : Ring) : Prop where
  /-- The current generations are alike. -/
  current : Grid.AlikeAround k x y u v r.currentGrid s.currentGrid
  /-- The generations before are alike, or neither ring keeps one. -/
  previous : Option.Rel (Grid.AlikeAround k x y u v) r.previousGrid s.previousGrid

theorem Uniform.step_eq (hr : r.Uniform width height) (law : Law) :
    r.step law = .ok (r.advanced law) := by
  rw [step, hr.turn_eq]

/-- **A step**: afterwards the rings are alike up to a distance less by one. -/
theorem AlikeAround.advanced (hr : r.Uniform width height) (hs : s.Uniform width' height')
    (halike : AlikeAround (k + 1) x y u v r s) (hlaw : (x = u ∧ y = v) ∨ law.IgnoresPlace) :
    AlikeAround k x y u v (r.advanced law) (s.advanced law) := by
  obtain ⟨hcurrent, hprevious⟩ := halike
  have hkept : Option.Rel (Grid.AlikeAround k x y u v) r.previousGrid s.previousGrid :=
    Grid.rel_imp (fun p q hpq => hpq.mono (Nat.le_succ k)) hprevious
  constructor
  · rw [hr.currentGrid_advanced, hs.currentGrid_advanced]
    exact hcurrent.generation hr.currentGrid hr.previousGrid hkept hlaw
  · -- what is kept now is what was current
    rw [hr.previousGrid_advanced, hs.previousGrid_advanced]
    generalize r.previousGrid = gp, s.previousGrid = hp at hkept
    cases hkept with
    | none => exact .none
    | some _ => exact .some (hcurrent.mono (Nat.le_succ k))

/-- **A run**: each of its steps costs a column and a row, and none is refused. -/
theorem AlikeAround.steps {laws : List Law} (hr : r.Uniform width height)
    (hs : s.Uniform width' height') (halike : AlikeAround (k + laws.length) x y u v r s)
    (hlaws : (x = u ∧ y = v) ∨ ∀ law ∈ laws, law.IgnoresPlace) :
    ∃ r' s', laws.foldlM step r = .ok r' ∧ laws.foldlM step s = .ok s' ∧
      r'.Uniform width height ∧ s'.Uniform width' height' ∧ AlikeAround k x y u v r' s' := by
  induction laws generalizing r s with
  | nil => exact ⟨r, s, rfl, rfl, hr, hs, halike⟩
  | cons law laws ih =>
    -- the first step costs one, and the rest of the run begins with rings that are alike as far
    -- as its length
    have hone := AlikeAround.advanced hr hs halike
      (hlaws.imp_right fun h => h law List.mem_cons_self)
    rw [List.foldlM_cons, List.foldlM_cons, hr.step_eq, hs.step_eq]
    exact ih (hr.advanced law) (hs.advanced law) hone
      (hlaws.imp_right fun h law' hmem => h law' (List.mem_cons_of_mem law hmem))

/-- **What a place holds after `k` steps depends on what is seen up to the distance `k`.** Where two
places, of rings of whatever size, see the same cells and the same edges, the same steps leave the
same cell, to the last bit; provided that no rule looks at the coordinates, or that these are the
same too. -/
theorem Uniform.steps_local {laws : List Law} {i j m n : Nat} (hr : r.Uniform width height)
    (hs : s.Uniform width' height') (hi : i < width) (hj : j < height)
    (halike : AlikeAround laws.length i j m n r s)
    (hlaws : (i = m ∧ j = n) ∨ ∀ law ∈ laws, law.IgnoresPlace) :
    ∃ r' s', laws.foldlM step r = .ok r' ∧ laws.foldlM step s = .ok s' ∧
      r'.currentGrid.cell i j = s'.currentGrid.cell m n := by
  have hplace : ((i : Int) = m ∧ (j : Int) = n) ∨ ∀ law ∈ laws, law.IgnoresPlace :=
    hlaws.imp_left fun h => by omega
  obtain ⟨r', s', hr', hs', hu, -, halike'⟩ :=
    AlikeAround.steps (k := 0) hr hs ((Nat.zero_add laws.length).symm ▸ halike) hplace
  have hsize := hu.currentGrid
  exact ⟨r', s', hr', hs', halike'.current.cell_eq (hsize.width_eq ▸ hi) (hsize.height_eq ▸ hj)⟩

/-- **A pattern in the middle of a field** of five by five, and the same pattern off the middle of a
larger one with something else in the corner: after a step by a rule that looks back and a step by
the thresholds alone, the places in the middle of the patterns hold the same. -/
theorem Uniform.steps_local_interior :
    let field (width height : Nat) (i j : Nat) : Grid :=
      Grid.put ⟨width, height, Array.replicate (width * height) .black⟩ i j .white
    let r : Ring := ⟨.lookback, #[field 5 5 2 2, field 5 5 0 0, field 5 5 2 3], 0⟩
    let s : Ring := ⟨.lookback,
      #[(field 6 7 3 4).put 0 0 .white, field 6 7 1 1, (field 6 7 3 5).put 0 1 .white], 0⟩
    let laws : List Law := [⟨⟨1, 2⟩, some fun site => site.previous.getD site.proposed⟩,
      ⟨⟨1, 2⟩, none⟩]
    (r.Uniform 5 5 ∧ s.Uniform 6 7 ∧ AlikeAround 2 2 2 3 4 r s ∧
      ∀ law ∈ laws, law.IgnoresPlace) ∧
    ∃ r' s', laws.foldlM step r = .ok r' ∧ laws.foldlM step s = .ok s' ∧
      r'.currentGrid.cell 2 2 = s'.currentGrid.cell 3 4 := by
  intro field r s laws
  have hr : r.Uniform 5 5 := uniform_triple ⟨rfl, rfl, rfl⟩ ⟨rfl, rfl, rfl⟩ ⟨rfl, rfl, rfl⟩
  have hs : s.Uniform 6 7 := uniform_triple ⟨rfl, rfl, rfl⟩ ⟨rfl, rfl, rfl⟩ ⟨rfl, rfl, rfl⟩
  have halike : AlikeAround 2 2 2 3 4 r s :=
    ⟨Grid.AlikeAround.of_interior (i := 0) (j := 0) (m := 1) (n := 2) (by decide) (by decide)
        (by decide),
      .some (Grid.AlikeAround.of_interior (i := 0) (j := 0) (m := 1) (n := 2) (by decide)
        (by decide) (by decide))⟩
  have hlaws : ∀ law ∈ laws, law.IgnoresPlace := by
    intro law hlaw rule hrule site x y
    simp only [laws, List.mem_cons, List.not_mem_nil, or_false] at hlaw
    rcases hlaw with rfl | rfl
    · cases hrule
      rfl
    · cases hrule
  exact ⟨⟨hr, hs, halike, hlaws⟩,
    Uniform.steps_local hr hs (by decide) (by decide) halike (.inr hlaws)⟩

end Ring

end Moorland
