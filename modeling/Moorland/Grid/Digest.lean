import Moorland.Grid
import Moorland.Sha256
/-!
# The digest of a grid

`Moorland.Grid.digestBytes` writes a grid as a byte string: its width and its height in eight bytes
each, then the bit pattern of every channel of every cell in four bytes, all of them with the least
significant byte first. The digest of a grid is that of this string.
-/

namespace Moorland

/-- The `count` least significant bytes of a number, the least significant first. -/
def littleEndian : (count : Nat) → (n : Nat) → List UInt8
  | 0, _ => []
  | count + 1, n => UInt8.ofNat n :: littleEndian count (n / 256)

/-- Append bytes. -/
def pushBytes (bytes : ByteArray) (more : List UInt8) : ByteArray := more.foldl ByteArray.push bytes

/-- Append the four bytes of a bit pattern, the least significant first. -/
def pushBits (bytes : ByteArray) (v : Float32) : ByteArray :=
  let bits := v.toBits
  (((bytes.push bits.toUInt8).push (bits >>> 8).toUInt8).push (bits >>> 16).toUInt8).push
    (bits >>> 24).toUInt8

namespace Grid

/-- The bytes of a size. -/
def sizeBytes (g : Grid) : List UInt8 := littleEndian 8 g.width ++ littleEndian 8 g.height

/-- **The byte string that stands for a grid.** -/
def digestBytes (g : Grid) : ByteArray :=
  g.cells.foldl (fun bytes c => pushBits (pushBits (pushBits bytes c.red) c.green) c.blue)
    (pushBytes .empty g.sizeBytes)

/-- **The digest of a grid**, in hexadecimal. -/
def digest (g : Grid) : String := Sha256.hexDigest g.digestBytes

end Grid

end Moorland
