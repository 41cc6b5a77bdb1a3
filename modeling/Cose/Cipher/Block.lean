import Cose.Bytes

/-!
# Blocks

A block is sixteen bytes, kept as two words. A block cipher under a fixed key is a pair of maps on blocks;
the modes of operation know nothing else of it.
-/

set_option autoImplicit false

namespace Cose

structure Block where
  hi : UInt64
  lo : UInt64
  deriving DecidableEq

namespace Block

def zero : Block := ⟨0, 0⟩

instance : XorOp Block := ⟨fun a b => ⟨a.hi ^^^ b.hi, a.lo ^^^ b.lo⟩⟩

def wordBytes (w : UInt64) : Bytes :=
  [(w >>> 56).toUInt8, (w >>> 48).toUInt8, (w >>> 40).toUInt8, (w >>> 32).toUInt8,
   (w >>> 24).toUInt8, (w >>> 16).toUInt8, (w >>> 8).toUInt8, w.toUInt8]

def wordOfBytes (bs : Bytes) : UInt64 := bs.foldl (fun w b => 256 * w + b.toUInt64) 0

def toBytes (b : Block) : Bytes := wordBytes b.hi ++ wordBytes b.lo

def ofBytes (bs : Bytes) : Block :=
  let bs := Bytes.padRight 16 bs
  ⟨wordOfBytes (bs.take 8), wordOfBytes ((bs.drop 8).take 8)⟩

@[simp] theorem length_wordBytes (w : UInt64) : (wordBytes w).length = 8 := rfl

@[simp] theorem length_toBytes (b : Block) : b.toBytes.length = 16 := rfl

end Block

structure BlockCipher where
  encrypt : Block → Block
  decrypt : Block → Block

namespace BlockCipher

def chain (c : BlockCipher) (start : Block) (blocks : List Block) : Block :=
  blocks.foldl (fun s b => c.encrypt (s ^^^ b)) start

/-- The encryptions of `count` counter blocks, the first of them with number `i`. -/
def keystream (c : BlockCipher) (counter : Nat → Block) : Nat → Nat → Bytes
  | 0, _ => []
  | count + 1, i => (c.encrypt (counter i)).toBytes ++ keystream c counter count (i + 1)

def stream (c : BlockCipher) (counter : Nat → Block) (i : Nat) (text : Bytes) : Bytes :=
  Bytes.xor text (keystream c counter ((text.length + 15) / 16) i)

end BlockCipher

end Cose
