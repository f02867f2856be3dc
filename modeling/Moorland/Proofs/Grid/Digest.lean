import Moorland.Grid.Digest
import Moorland.Proofs.Grid.Valid
import Moorland.Proofs.Rounding.Packing
/-!
# What a digest tells apart

Two grids are compared by their digests where it would take too long to compare them cell by cell.
A digest is that of a byte string, and this file shows that the string tells all grids apart: it
holds the width, the height and the bits of every level, each in a field of fixed length, so that it
can be cut into them in one way only. Without the size it could not, since a grid and one that is
turned on its side hold the same cells in the same order.

The byte string is written piece by piece at the end of an array, by shifts.
`Moorland.Grid.toList_digestBytes` says what is written as a list of bytes, and everything else is
about lists: numbers of a fixed length in bytes are told apart (`Moorland.littleEndian_inj`), and so
are lists whose elements are written in a fixed length one after another
(`Moorland.flatMap_inj_of_length`). Numbers in hexadecimal are written in this way too, and
the text of a digest says no less than the digest itself (`Moorland.Sha256.hexDigest_eq_iff`).

The main statement is `Moorland.Grid.digestBytes_eq_iff_identical`.
-/

namespace Moorland

/-! ### Fields of fixed length -/

/-- **Fields of one length can be cut apart**: a list whose elements are written one after another
can be read off what is written. -/
theorem flatMap_inj_of_length {α β : Type} {f : α → List β} {length : ℕ} (hpos : 0 < length)
    (hlength : ∀ a, (f a).length = length) (hf : Function.Injective f) {as bs : List α}
    (h : as.flatMap f = bs.flatMap f) : as = bs := by
  have hnonempty : ∀ a, f a ≠ [] := by
    intro a ha
    rw [← hlength a, ha] at hpos
    exact lt_irrefl 0 hpos
  induction as generalizing bs with
  | nil =>
    cases bs with
    | nil => rfl
    | cons b bs =>
      rw [List.flatMap_nil, List.flatMap_cons] at h
      exact absurd (List.append_eq_nil_iff.mp h.symm).1 (hnonempty b)
  | cons a as ih =>
    cases bs with
    | nil =>
      rw [List.flatMap_nil, List.flatMap_cons] at h
      exact absurd (List.append_eq_nil_iff.mp h).1 (hnonempty a)
    | cons b bs =>
      rw [List.flatMap_cons, List.flatMap_cons] at h
      obtain ⟨hhead, htail⟩ := List.append_inj h ((hlength a).trans (hlength b).symm)
      rw [hf hhead, ih htail]

@[simp] theorem length_littleEndian (count n : ℕ) : (littleEndian count n).length = count := by
  induction count generalizing n with
  | zero => rfl
  | succ count ih => rw [littleEndian, List.length_cons, ih]

/-- **Numbers that fit are told apart by their bytes.** -/
theorem littleEndian_inj {count m n : ℕ} (hm : m < 256 ^ count) (hn : n < 256 ^ count)
    (h : littleEndian count m = littleEndian count n) : m = n := by
  induction count generalizing m n with
  | zero =>
    rw [pow_zero] at hm hn
    omega
  | succ count ih =>
    rw [pow_succ] at hm hn
    obtain ⟨hlow, hhigh⟩ := List.cons.inj h
    have hquotient : m / 256 = n / 256 :=
      ih (Nat.div_lt_of_lt_mul (by omega)) (Nat.div_lt_of_lt_mul (by omega)) hhigh
    have hremainder : m % 256 = n % 256 := congrArg UInt8.toNat hlow
    omega

/-! ### The bytes of a cell -/

theorem toList_pushBytes (bytes : ByteArray) (more : List UInt8) :
    (pushBytes bytes more).data.toList = bytes.data.toList ++ more := by
  induction more generalizing bytes with
  | nil => exact (List.append_nil _).symm
  | cons b more ih =>
    rw [pushBytes, List.foldl_cons]
    exact (ih (bytes.push b)).trans (by simp [ByteArray.data_push])

/-- One byte of a word, by shifting and by dividing. -/
theorem toUInt8_shifted (w : UInt32) {k : ℕ} (hk : k < 32) :
    (w >>> UInt32.ofNat k).toUInt8 = UInt8.ofNat (w.toNat / 2 ^ k) := by
  rw [← UInt8.toNat_inj, UInt32.toNat_toUInt8, UInt32.toNat_shiftRight, UInt8.toNat_ofNat',
    UInt32.toNat_ofNat_of_lt' (hk.trans (by decide)), Nat.mod_eq_of_lt hk,
    Nat.shiftRight_eq_div_pow]

/-- **The bytes of a level**: its bits, as a number of four bytes. -/
def levelBytes (v : Float32) : List UInt8 := littleEndian 4 v.toBits.toNat

theorem length_levelBytes (v : Float32) : (levelBytes v).length = 4 := length_littleEndian 4 _

theorem levelBytes_injective : Function.Injective levelBytes := by
  intro v w h
  have hbits := littleEndian_inj v.toBits.toNat_lt w.toBits.toNat_lt h
  exact Float32.toBits_inj.mp (UInt32.toNat_inj.mp hbits)

theorem toList_pushBits (bytes : ByteArray) (v : Float32) :
    (pushBits bytes v).data.toList = bytes.data.toList ++ levelBytes v := by
  have h0 : v.toBits.toUInt8 = UInt8.ofNat v.toBits.toNat := by simp
  have h1 : (v.toBits >>> 8).toUInt8 = _ := toUInt8_shifted v.toBits (k := 8) (by decide)
  have h2 : (v.toBits >>> 16).toUInt8 = _ := toUInt8_shifted v.toBits (k := 16) (by decide)
  have h3 : (v.toBits >>> 24).toUInt8 = _ := toUInt8_shifted v.toBits (k := 24) (by decide)
  rw [pushBits, h0, h1, h2, h3, levelBytes]
  simp [littleEndian, ByteArray.data_push, Nat.div_div_eq_div_mul]

/-- **The bytes of a cell**: those of the level on each channel. -/
def Cell.bytes (c : Cell) : List UInt8 := [c.red, c.green, c.blue].flatMap levelBytes

theorem Cell.length_bytes (c : Cell) : c.bytes.length = 12 := by
  simp [bytes, length_levelBytes]

theorem Cell.bytes_injective : Function.Injective bytes := by
  intro c d h
  have hlevels := flatMap_inj_of_length (by decide) length_levelBytes levelBytes_injective h
  simp only [List.cons.injEq, and_true] at hlevels
  obtain ⟨hred, hgreen, hblue⟩ := hlevels
  refine Cell.ext_channel fun i => ?_
  cases i with
  | red => exact hred
  | green => exact hgreen
  | blue => exact hblue

theorem toList_foldl_pushBits (bytes : ByteArray) (cells : List Cell) :
    (cells.foldl (fun bytes c => pushBits (pushBits (pushBits bytes c.red) c.green) c.blue)
      bytes).data.toList = bytes.data.toList ++ cells.flatMap Cell.bytes := by
  induction cells generalizing bytes with
  | nil => exact (List.append_nil _).symm
  | cons c cells ih =>
    rw [List.foldl_cons, ih, toList_pushBits, toList_pushBits, toList_pushBits]
    simp [Cell.bytes]

/-! ### Digests in hexadecimal -/

namespace Sha256

/-- **Numbers that fit are told apart by their hexadecimal digits.** -/
theorem eq_of_digits (count : ℕ) {m n : ℕ} (hm : m < 16 ^ count) (hn : n < 16 ^ count)
    (h : ∀ k < count, m >>> (4 * k) % 16 = n >>> (4 * k) % 16) : m = n := by
  induction count generalizing m n with
  | zero =>
    rw [pow_zero] at hm hn
    omega
  | succ count ih =>
    rw [pow_succ] at hm hn
    have hlow : m % 16 = n % 16 := h 0 (Nat.succ_pos count)
    have hhigh : m / 16 = n / 16 := by
      refine ih (Nat.div_lt_of_lt_mul (by omega)) (Nat.div_lt_of_lt_mul (by omega)) fun k hk => ?_
      have hdigit := h (k + 1) (Nat.succ_lt_succ hk)
      rwa [Nat.mul_succ, Nat.add_comm, Nat.shiftRight_add, Nat.shiftRight_add,
        Nat.shiftRight_eq_div_pow m, Nat.shiftRight_eq_div_pow n] at hdigit
    omega

theorem length_toList_hexWord (w : UInt32) : (hexWord w).toList.length = 8 := by
  rw [hexWord, String.toList_ofList, List.length_map, List.length_range]

theorem hexWord_injective : Function.Injective hexWord := by
  intro w v h
  have hdigits := List.map_inj_left.mp (String.ofList_injective h)
  refine UInt32.toNat_inj.mp (eq_of_digits 8 w.toNat_lt v.toNat_lt fun k hk => ?_)
  have hdigit := hdigits (7 - k) (List.mem_range.mpr (by omega))
  rw [Nat.sub_sub_self (Nat.le_of_lt_succ hk)] at hdigit
  exact Text.hexDigit_inj (Nat.mod_lt _ (by decide)) (Nat.mod_lt _ (by decide)) hdigit

/-- **Two digests have the same text only if they are the same.** -/
theorem hexDigest_eq_iff {bytes more : ByteArray} :
    hexDigest bytes = hexDigest more ↔ digest bytes = digest more := by
  rw [hexDigest, hexDigest]
  generalize digest bytes = r
  generalize digest more = s
  constructor
  · intro h
    rw [← String.toList_inj, String.toList_join, String.toList_join, List.flatMap_map,
      List.flatMap_map] at h
    have hword : Function.Injective fun w => (hexWord w).toList := fun _ _ hwords =>
      hexWord_injective (String.toList_inj.mp hwords)
    have hregisters := flatMap_inj_of_length (by decide) length_toList_hexWord hword h
    cases r
    cases s
    simpa using hregisters
  · rintro rfl
    rfl

end Sha256

/-! ### The bytes of a grid -/

namespace Grid

variable {g h : Grid} {width height width' height' : ℕ}

/-- **What is written for a grid**: its size, and then its cells one after another. -/
theorem toList_digestBytes (g : Grid) :
    g.digestBytes.data.toList = g.sizeBytes ++ g.cells.toList.flatMap Cell.bytes := by
  rw [digestBytes, ← Array.foldl_toList, toList_foldl_pushBits, toList_pushBytes]
  rfl

/-- **Grids whose sizes fit in words are told apart by their bytes.** -/
theorem digestBytes_inj (hgw : g.width < UInt64.size) (hgh : g.height < UInt64.size)
    (hhw : h.width < UInt64.size) (hhh : h.height < UInt64.size)
    (hbytes : g.digestBytes = h.digestBytes) : g = h := by
  have hlist : g.sizeBytes ++ g.cells.toList.flatMap Cell.bytes =
      h.sizeBytes ++ h.cells.toList.flatMap Cell.bytes := by
    rw [← toList_digestBytes, ← toList_digestBytes, hbytes]
  obtain ⟨hsize, hcells⟩ := List.append_inj hlist (by simp [sizeBytes])
  obtain ⟨hwidth, hheight⟩ := List.append_inj hsize (by simp)
  have hw := littleEndian_inj hgw hhw hwidth
  have hh := littleEndian_inj hgh hhh hheight
  have hc := flatMap_inj_of_length (by decide) Cell.length_bytes Cell.bytes_injective hcells
  cases g
  cases h
  rw [Grid.mk.injEq]
  exact ⟨hw, hh, Array.toList_inj.mp hc⟩

/-- **Two grids are identical**: they have the same size, and at each place every channel has the
same bits. -/
structure Identical (g h : Grid) : Prop where
  /-- They are equally wide. -/
  width_eq : g.width = h.width
  /-- They are equally high. -/
  height_eq : g.height = h.height
  /-- Their levels are the same to the last bit. -/
  toBits_eq : ∀ x y, x < g.width → y < g.height → ∀ i,
    ((g.cell x y).channel i).toBits = ((h.cell x y).channel i).toBits

/-- Grids that hold one cell for each place are identical only if they are equal. -/
theorem IsFull.identical_iff (hg : g.IsFull) (hh : h.IsFull) : g.Identical h ↔ g = h := by
  constructor
  · rintro ⟨hwidth, hheight, hbits⟩
    refine hg.ext (hh.hasSize hwidth.symm hheight.symm) fun x y hx hy =>
      Cell.ext_channel fun i => ?_
    exact Float32.toBits_inj.mp (hbits x y hx hy i)
  · rintro rfl
    exact ⟨rfl, rfl, fun _ _ _ _ _ => rfl⟩

/-- **The bytes of a grid say which grid it is**, and its digest does unless two different byte
strings have the same digest. Both are the same for identical grids. -/
theorem digestBytes_eq_iff_identical (hg : g.Valid width height) (hh : h.Valid width' height')
    (hw : width < UInt64.size) (hl : height < UInt64.size)
    (hw' : width' < UInt64.size) (hl' : height' < UInt64.size) :
    (g.digestBytes = h.digestBytes ↔ g.Identical h) ∧
      (g.digest = h.digest ↔ g.Identical h ∨
        g.digestBytes ≠ h.digestBytes ∧
          Sha256.digest g.digestBytes = Sha256.digest h.digestBytes) := by
  have hbytes : g.digestBytes = h.digestBytes ↔ g.Identical h := by
    rw [hg.isFull.identical_iff hh.isFull]
    refine ⟨digestBytes_inj ?_ ?_ ?_ ?_, congrArg digestBytes⟩
    · rwa [hg.width_eq]
    · rwa [hg.height_eq]
    · rwa [hh.width_eq]
    · rwa [hh.height_eq]
  refine ⟨hbytes, ?_⟩
  rw [digest, digest, Sha256.hexDigest_eq_iff, ← hbytes]
  by_cases heq : g.digestBytes = h.digestBytes
  · exact iff_of_true (congrArg Sha256.digest heq) (.inl heq)
  · exact ⟨fun hdigest => .inr ⟨heq, hdigest⟩, fun hdigest => (hdigest.resolve_left heq).2⟩

/-- **A column and a row of the same two cells**, and the row again with a zero of the other sign,
which is numerically the same grid: their bytes are all different. -/
theorem digestBytes_eq_iff_identical_turned :
    let column : Grid := ⟨1, 2, #[.black, .white]⟩
    let row : Grid := ⟨2, 1, #[.black, .white]⟩
    let signed : Grid := ⟨2, 1, #[⟨0, -0, 0⟩, .white]⟩
    column.Valid 1 2 ∧ row.Valid 2 1 ∧ signed.Valid 2 1 ∧ row.sameValue signed = true ∧
      column.digestBytes ≠ row.digestBytes ∧ row.digestBytes ≠ signed.digestBytes := by
  intro column row signed
  have hcolumn : column.Valid 1 2 := ⟨⟨rfl, rfl, rfl⟩, by decide, by decide, by decide⟩
  have hrow : row.Valid 2 1 := ⟨⟨rfl, rfl, rfl⟩, by decide, by decide, by decide⟩
  have hsigned : signed.Valid 2 1 := ⟨⟨rfl, rfl, rfl⟩, by decide, by decide, by decide⟩
  refine ⟨hcolumn, hrow, hsigned, by decide +kernel, fun h => ?_, fun h => ?_⟩
  · have hsame := (digestBytes_eq_iff_identical hcolumn hrow (by decide) (by decide) (by decide)
      (by decide)).1.mp h
    exact absurd hsame.width_eq (by decide)
  · have hsame := (digestBytes_eq_iff_identical hrow hsigned (by decide) (by decide) (by decide)
      (by decide)).1.mp h
    exact absurd (hsame.toBits_eq 0 0 (by decide) (by decide) .green) (by decide)

end Grid

end Moorland
