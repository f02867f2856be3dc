import Moorland.Text.Hexadecimal
/-!
# SHA-256

The digest of a byte string: the string is padded to whole blocks (`Moorland.Sha256.pad`), each
block is spread to sixty-four words (`Moorland.Sha256.schedule`), and the words are mixed one by
one into eight registers (`Moorland.Sha256.round`), which start from fixed words and are added to
their former values after each block. `Moorland.Sha256.hexDigest` writes the registers in
hexadecimal.
-/

namespace Moorland.Sha256

/-- The words that are added in the sixty-four rounds. -/
def roundWords : Array UInt32 := #[
  0x428a2f98, 0x71374491, 0xb5c0fbcf, 0xe9b5dba5, 0x3956c25b, 0x59f111f1, 0x923f82a4, 0xab1c5ed5,
  0xd807aa98, 0x12835b01, 0x243185be, 0x550c7dc3, 0x72be5d74, 0x80deb1fe, 0x9bdc06a7, 0xc19bf174,
  0xe49b69c1, 0xefbe4786, 0x0fc19dc6, 0x240ca1cc, 0x2de92c6f, 0x4a7484aa, 0x5cb0a9dc, 0x76f988da,
  0x983e5152, 0xa831c66d, 0xb00327c8, 0xbf597fc7, 0xc6e00bf3, 0xd5a79147, 0x06ca6351, 0x14292967,
  0x27b70a85, 0x2e1b2138, 0x4d2c6dfc, 0x53380d13, 0x650a7354, 0x766a0abb, 0x81c2c92e, 0x92722c85,
  0xa2bfe8a1, 0xa81a664b, 0xc24b8b70, 0xc76c51a3, 0xd192e819, 0xd6990624, 0xf40e3585, 0x106aa070,
  0x19a4c116, 0x1e376c08, 0x2748774c, 0x34b0bcb5, 0x391c0cb3, 0x4ed8aa4a, 0x5b9cca4f, 0x682e6ff3,
  0x748f82ee, 0x78a5636f, 0x84c87814, 0x8cc70208, 0x90befffa, 0xa4506ceb, 0xbef9a3f7, 0xc67178f2]

/-- The word turned right by `n` places. -/
def rotateRight (x n : UInt32) : UInt32 := (x >>> n) ||| (x <<< (32 - n))

/-- **The eight registers** into which a message is mixed. -/
structure Registers where
  /-- The first register. -/
  a : UInt32
  /-- The second register. -/
  b : UInt32
  /-- The third register. -/
  c : UInt32
  /-- The fourth register. -/
  d : UInt32
  /-- The fifth register. -/
  e : UInt32
  /-- The sixth register. -/
  f : UInt32
  /-- The seventh register. -/
  g : UInt32
  /-- The eighth register. -/
  h : UInt32
deriving DecidableEq, Repr

/-- The registers before the first block. -/
def start : Registers :=
  ⟨0x6a09e667, 0xbb67ae85, 0x3c6ef372, 0xa54ff53a, 0x510e527f, 0x9b05688c, 0x1f83d9ab, 0x5be0cd19⟩

/-- Registerwise sum. -/
def Registers.add (r s : Registers) : Registers :=
  ⟨r.a + s.a, r.b + s.b, r.c + s.c, r.d + s.d, r.e + s.e, r.f + s.f, r.g + s.g, r.h + s.h⟩

/-- **One round**: mix a word of the schedule and a round word into the registers. -/
def round (r : Registers) (word constant : UInt32) : Registers :=
  let s1 := rotateRight r.e 6 ^^^ rotateRight r.e 11 ^^^ rotateRight r.e 25
  let choice := (r.e &&& r.f) ^^^ (~~~r.e &&& r.g)
  let t1 := r.h + s1 + choice + constant + word
  let s0 := rotateRight r.a 2 ^^^ rotateRight r.a 13 ^^^ rotateRight r.a 22
  let majority := (r.a &&& r.b) ^^^ (r.a &&& r.c) ^^^ (r.b &&& r.c)
  ⟨t1 + (s0 + majority), r.a, r.b, r.c, r.d + t1, r.e, r.f, r.g⟩

/-- The bytes of a word, the most significant first. -/
def bytesOfWord (w : UInt32) : List UInt8 :=
  [(w >>> 24).toUInt8, (w >>> 16).toUInt8, (w >>> 8).toUInt8, w.toUInt8]

/-- The word made of four bytes from position `i` on, the most significant first. -/
def wordAt (bytes : ByteArray) (i : Nat) : UInt32 :=
  let byte (j : Nat) : UInt32 := (bytes[i + j]?.getD 0).toUInt32
  (byte 0 <<< 24) ||| (byte 1 <<< 16) ||| (byte 2 <<< 8) ||| byte 3

/-- The next word of a schedule from the words before it. -/
def nextWord (words : Array UInt32) : UInt32 :=
  let back (k : Nat) : UInt32 := words.getD (words.size - k) 0
  let x := back 15
  let y := back 2
  let s0 := rotateRight x 7 ^^^ rotateRight x 18 ^^^ (x >>> 3)
  let s1 := rotateRight y 17 ^^^ rotateRight y 19 ^^^ (y >>> 10)
  back 16 + s0 + back 7 + s1

/-- Lengthen a schedule by `n` words. -/
def extend (words : Array UInt32) : (n : Nat) → Array UInt32
  | 0 => words
  | n + 1 => extend (words.push (nextWord words)) n

/-- **The sixty-four words** of the block that starts at byte `i`. -/
def schedule (bytes : ByteArray) (i : Nat) : Array UInt32 :=
  extend (Array.ofFn fun j : Fin 16 => wordAt bytes (i + 4 * j)) 48

/-- The registers after the rounds from `k` on, of which `n` are left. -/
def rounds (words : Array UInt32) (r : Registers) (k : Nat) : (n : Nat) → Registers
  | 0 => r
  | n + 1 => rounds words (round r (words.getD k 0) (roundWords.getD k 0)) (k + 1) n

/-- **The registers after the block** that starts at byte `i`. -/
def compress (bytes : ByteArray) (r : Registers) (i : Nat) : Registers :=
  r.add (rounds (schedule bytes i) r 0 64)

/-- Append `n` zero bytes. -/
def pushZeros (bytes : ByteArray) : (n : Nat) → ByteArray
  | 0 => bytes
  | n + 1 => pushZeros (bytes.push 0) n

/-- **The padded message**: a one bit, zeros up to the last eight bytes of a block, and the length
in bits. -/
def pad (bytes : ByteArray) : ByteArray :=
  let bits := UInt64.ofNat (8 * bytes.size)
  let marked := pushZeros (bytes.push 0x80) ((119 - bytes.size % 64) % 64)
  (bytesOfWord (bits >>> 32).toUInt32 ++ bytesOfWord bits.toUInt32).foldl ByteArray.push marked

/-- The registers after `n` blocks from byte `i` on. -/
def compressAll (bytes : ByteArray) (r : Registers) (i : Nat) : (n : Nat) → Registers
  | 0 => r
  | n + 1 => compressAll bytes (compress bytes r i) (i + 64) n

/-- **The digest** of a byte string. -/
def digest (bytes : ByteArray) : Registers :=
  let padded := pad bytes
  compressAll padded start 0 (padded.size / 64)

/-- The eight hexadecimal digits of a word. -/
def hexWord (w : UInt32) : String :=
  String.ofList ((List.range 8).map fun i => Text.hexDigit (w.toNat >>> (4 * (7 - i)) % 16))

/-- **The digest in hexadecimal.** -/
def hexDigest (bytes : ByteArray) : String :=
  let r := digest bytes
  String.join ([r.a, r.b, r.c, r.d, r.e, r.f, r.g, r.h].map hexWord)

end Moorland.Sha256
