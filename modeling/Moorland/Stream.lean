/-!
# The random stream

The random numbers of a simulation are the words of a ChaCha stream with **eight rounds**: block
number `n` of a key is a fixed function of the two (`Moorland.Stream.block`), and the stream is
the words of its blocks one after the other (`Moorland.Stream.word`). A key is eight words and is
expanded from a seed of 64 bits by a permuted congruential generator.

`Moorland.Stream.draw` turns a word into a number in the unit interval by its upper 24 bits.
`Moorland.Stream.draws` takes many at once, block by block.
-/

namespace Moorland

/-- **A random stream**: its key, and how many words have been drawn. -/
structure Stream where
  /-- The eight words of the key. -/
  key : Vector UInt32 8
  /-- The number of words drawn so far. -/
  drawn : Nat
deriving DecidableEq, Repr

namespace Stream

/-! ### Blocks -/

/-- The word turned left by `n` places. -/
def rotateLeft (x n : UInt32) : UInt32 := (x <<< n) ||| (x >>> (32 - n))

/-- The sixteen words that a block is mixed in. -/
abbrev State := Vector UInt32 16

/-- **A quarter round**: mix four of the words. -/
def quarterRound (s : State) (i j k l : Fin 16) : State :=
  let a := s[i] + s[j]
  let d := rotateLeft (s[l] ^^^ a) 16
  let c := s[k] + d
  let b := rotateLeft (s[j] ^^^ c) 12
  let a := a + b
  let d := rotateLeft (d ^^^ a) 8
  let c := c + d
  let b := rotateLeft (b ^^^ c) 7
  (((s.set i a).set j b).set k c).set l d

/-- **A double round**: quarter rounds down the columns and along the diagonals of the square of
words. -/
def doubleRound (s : State) : State :=
  let s := quarterRound s 0 4 8 12
  let s := quarterRound s 1 5 9 13
  let s := quarterRound s 2 6 10 14
  let s := quarterRound s 3 7 11 15
  let s := quarterRound s 0 5 10 15
  let s := quarterRound s 1 6 11 12
  let s := quarterRound s 2 7 8 13
  quarterRound s 3 4 9 14

/-- The words before mixing: four fixed ones, the key, the number of the block, and two zeros. -/
def initial (key : Vector UInt32 8) (n : Nat) : State :=
  #v[0x61707865, 0x3320646e, 0x79622d32, 0x6b206574,
    key[0], key[1], key[2], key[3], key[4], key[5], key[6], key[7],
    UInt32.ofNat n, UInt32.ofNat (n / UInt32.size), 0, 0]

/-- **A block of the stream**: four double rounds, and the words before mixing added. -/
def block (key : Vector UInt32 8) (n : Nat) : State :=
  let s := initial key n
  (doubleRound (doubleRound (doubleRound (doubleRound s)))).zipWith (· + ·) s

/-- **Word `i` of the stream.** -/
def word (key : Vector UInt32 8) (i : Nat) : UInt32 :=
  (block key (i / 16)).get ⟨i % 16, Nat.mod_lt i (by decide)⟩

/-! ### Seeds -/

/-- One step of the generator that expands a seed. -/
def advanceSeed (state : UInt64) : UInt64 := state * 6364136223846793005 + 11634580027462260723

/-- The word that the generator gives out in a state. -/
def seedWord (state : UInt64) : UInt32 :=
  let mixed := (((state >>> 18) ^^^ state) >>> 27).toUInt32
  let turn := (state >>> 59).toUInt32
  (mixed >>> turn) ||| (mixed <<< ((32 - turn) % 32))

/-- The state of the generator after `n` steps. -/
def seedState (seed : UInt64) : (n : Nat) → UInt64
  | 0 => seed
  | n + 1 => advanceSeed (seedState seed n)

/-- **The stream of a seed**, from its first word. -/
def ofSeed (seed : UInt64) : Stream where
  key := .ofFn fun i => seedWord (seedState seed (i + 1))
  drawn := 0

/-! ### Draws -/

/-- The number in the unit interval that a word stands for: its upper 24 bits over 2^24. -/
def unitOfWord (w : UInt32) : Float32 := (w >>> 8).toFloat32 * Float32.ofBits 0x33800000

/-- **Draw number `i` of the stream with a key.** -/
def draw (key : Vector UInt32 8) (i : Nat) : Float32 := unitOfWord (word key i)

/-- The draws of `count` blocks, from block `n` on, pushed to an array. -/
def pushBlocks (key : Vector UInt32 8) (acc : Array Float32) (n : Nat) :
    (count : Nat) → Array Float32
  | 0 => acc
  | count + 1 => pushBlocks key ((block key n).toArray.foldl (fun a w => a.push (unitOfWord w)) acc)
      (n + 1) count

/-- Pushing blocks appends the draws of their words, in order. -/
theorem pushBlocks_eq (key : Vector UInt32 8) (acc : Array Float32) (n count : Nat) :
    pushBlocks key acc n count =
      acc ++ Array.ofFn fun i : Fin (16 * count) => draw key (16 * n + i) := by
  induction count generalizing acc n with
  | zero => simp [pushBlocks]
  | succ count ih =>
    rw [pushBlocks, Array.foldl_push_eq_append rfl, ih, Array.append_assoc]
    congr 1
    apply Array.ext
    · simp
      omega
    · intro i h₁ h₂
      rw [Array.getElem_append, Array.getElem_ofFn]
      split
      · next h =>
        have hi : i < 16 := by simpa using h
        have hq : (16 * n + i) / 16 = n := by omega
        have hr : (16 * n + i) % 16 = i := by omega
        simp only [Array.getElem_map, Vector.getElem_toArray, draw, word, hq, hr]
        rfl
      · next h =>
        have hi : 16 ≤ i := by simpa using h
        rw [Array.getElem_ofFn]
        congr 1
        simp only [Array.size_map, Vector.size_toArray]
        omega

/-- **The next `count` draws of a stream**, and the stream after them. -/
def draws (s : Stream) (count : Nat) : Array Float32 × Stream :=
  let first := s.drawn / 16
  let skipped := s.drawn % 16
  let all := pushBlocks s.key #[] first ((skipped + count + 15) / 16)
  (all.extract skipped (skipped + count), { s with drawn := s.drawn + count })

/-- **The next draws are the draws with the next numbers**, whatever blocks they lie in. -/
theorem draws_fst (s : Stream) (count : Nat) :
    (s.draws count).1 = Array.ofFn fun i : Fin count => draw s.key (s.drawn + i) := by
  apply Array.ext
  · simp [draws, pushBlocks_eq]
    omega
  · intro i h₁ h₂
    simp only [draws, pushBlocks_eq, Array.getElem_extract, Array.empty_append, Array.getElem_ofFn]
    congr 1
    omega

end Stream

end Moorland
