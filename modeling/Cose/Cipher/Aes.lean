import Cose.Cipher.Block

/-!
# AES

The state is four columns of four bytes. A round substitutes every byte, moves row `i` by `i` columns, mixes
each column and adds a round key; the last round does not mix. Decryption undoes the steps in reverse. The
column map has order four, so its inverse is its cube, which is computed as the map after its square.
-/

set_option autoImplicit false

namespace Cose

namespace Aes

structure Column where
  b0 : UInt8
  b1 : UInt8
  b2 : UInt8
  b3 : UInt8
  deriving DecidableEq

structure State where
  c0 : Column
  c1 : Column
  c2 : Column
  c3 : Column
  deriving DecidableEq

set_option maxRecDepth 4000 in
/-- The inverse in the field of bytes, followed by an affine map of its bits. -/
def sBox : Vector UInt8 256 :=
  ⟨#[0x63, 0x7c, 0x77, 0x7b, 0xf2, 0x6b, 0x6f, 0xc5, 0x30, 0x01, 0x67, 0x2b, 0xfe, 0xd7, 0xab, 0x76,
    0xca, 0x82, 0xc9, 0x7d, 0xfa, 0x59, 0x47, 0xf0, 0xad, 0xd4, 0xa2, 0xaf, 0x9c, 0xa4, 0x72, 0xc0,
    0xb7, 0xfd, 0x93, 0x26, 0x36, 0x3f, 0xf7, 0xcc, 0x34, 0xa5, 0xe5, 0xf1, 0x71, 0xd8, 0x31, 0x15,
    0x04, 0xc7, 0x23, 0xc3, 0x18, 0x96, 0x05, 0x9a, 0x07, 0x12, 0x80, 0xe2, 0xeb, 0x27, 0xb2, 0x75,
    0x09, 0x83, 0x2c, 0x1a, 0x1b, 0x6e, 0x5a, 0xa0, 0x52, 0x3b, 0xd6, 0xb3, 0x29, 0xe3, 0x2f, 0x84,
    0x53, 0xd1, 0x00, 0xed, 0x20, 0xfc, 0xb1, 0x5b, 0x6a, 0xcb, 0xbe, 0x39, 0x4a, 0x4c, 0x58, 0xcf,
    0xd0, 0xef, 0xaa, 0xfb, 0x43, 0x4d, 0x33, 0x85, 0x45, 0xf9, 0x02, 0x7f, 0x50, 0x3c, 0x9f, 0xa8,
    0x51, 0xa3, 0x40, 0x8f, 0x92, 0x9d, 0x38, 0xf5, 0xbc, 0xb6, 0xda, 0x21, 0x10, 0xff, 0xf3, 0xd2,
    0xcd, 0x0c, 0x13, 0xec, 0x5f, 0x97, 0x44, 0x17, 0xc4, 0xa7, 0x7e, 0x3d, 0x64, 0x5d, 0x19, 0x73,
    0x60, 0x81, 0x4f, 0xdc, 0x22, 0x2a, 0x90, 0x88, 0x46, 0xee, 0xb8, 0x14, 0xde, 0x5e, 0x0b, 0xdb,
    0xe0, 0x32, 0x3a, 0x0a, 0x49, 0x06, 0x24, 0x5c, 0xc2, 0xd3, 0xac, 0x62, 0x91, 0x95, 0xe4, 0x79,
    0xe7, 0xc8, 0x37, 0x6d, 0x8d, 0xd5, 0x4e, 0xa9, 0x6c, 0x56, 0xf4, 0xea, 0x65, 0x7a, 0xae, 0x08,
    0xba, 0x78, 0x25, 0x2e, 0x1c, 0xa6, 0xb4, 0xc6, 0xe8, 0xdd, 0x74, 0x1f, 0x4b, 0xbd, 0x8b, 0x8a,
    0x70, 0x3e, 0xb5, 0x66, 0x48, 0x03, 0xf6, 0x0e, 0x61, 0x35, 0x57, 0xb9, 0x86, 0xc1, 0x1d, 0x9e,
    0xe1, 0xf8, 0x98, 0x11, 0x69, 0xd9, 0x8e, 0x94, 0x9b, 0x1e, 0x87, 0xe9, 0xce, 0x55, 0x28, 0xdf,
    0x8c, 0xa1, 0x89, 0x0d, 0xbf, 0xe6, 0x42, 0x68, 0x41, 0x99, 0x2d, 0x0f, 0xb0, 0x54, 0xbb, 0x16], rfl⟩

set_option maxRecDepth 4000 in
def invSBox : Vector UInt8 256 :=
  ⟨#[0x52, 0x09, 0x6a, 0xd5, 0x30, 0x36, 0xa5, 0x38, 0xbf, 0x40, 0xa3, 0x9e, 0x81, 0xf3, 0xd7, 0xfb,
    0x7c, 0xe3, 0x39, 0x82, 0x9b, 0x2f, 0xff, 0x87, 0x34, 0x8e, 0x43, 0x44, 0xc4, 0xde, 0xe9, 0xcb,
    0x54, 0x7b, 0x94, 0x32, 0xa6, 0xc2, 0x23, 0x3d, 0xee, 0x4c, 0x95, 0x0b, 0x42, 0xfa, 0xc3, 0x4e,
    0x08, 0x2e, 0xa1, 0x66, 0x28, 0xd9, 0x24, 0xb2, 0x76, 0x5b, 0xa2, 0x49, 0x6d, 0x8b, 0xd1, 0x25,
    0x72, 0xf8, 0xf6, 0x64, 0x86, 0x68, 0x98, 0x16, 0xd4, 0xa4, 0x5c, 0xcc, 0x5d, 0x65, 0xb6, 0x92,
    0x6c, 0x70, 0x48, 0x50, 0xfd, 0xed, 0xb9, 0xda, 0x5e, 0x15, 0x46, 0x57, 0xa7, 0x8d, 0x9d, 0x84,
    0x90, 0xd8, 0xab, 0x00, 0x8c, 0xbc, 0xd3, 0x0a, 0xf7, 0xe4, 0x58, 0x05, 0xb8, 0xb3, 0x45, 0x06,
    0xd0, 0x2c, 0x1e, 0x8f, 0xca, 0x3f, 0x0f, 0x02, 0xc1, 0xaf, 0xbd, 0x03, 0x01, 0x13, 0x8a, 0x6b,
    0x3a, 0x91, 0x11, 0x41, 0x4f, 0x67, 0xdc, 0xea, 0x97, 0xf2, 0xcf, 0xce, 0xf0, 0xb4, 0xe6, 0x73,
    0x96, 0xac, 0x74, 0x22, 0xe7, 0xad, 0x35, 0x85, 0xe2, 0xf9, 0x37, 0xe8, 0x1c, 0x75, 0xdf, 0x6e,
    0x47, 0xf1, 0x1a, 0x71, 0x1d, 0x29, 0xc5, 0x89, 0x6f, 0xb7, 0x62, 0x0e, 0xaa, 0x18, 0xbe, 0x1b,
    0xfc, 0x56, 0x3e, 0x4b, 0xc6, 0xd2, 0x79, 0x20, 0x9a, 0xdb, 0xc0, 0xfe, 0x78, 0xcd, 0x5a, 0xf4,
    0x1f, 0xdd, 0xa8, 0x33, 0x88, 0x07, 0xc7, 0x31, 0xb1, 0x12, 0x10, 0x59, 0x27, 0x80, 0xec, 0x5f,
    0x60, 0x51, 0x7f, 0xa9, 0x19, 0xb5, 0x4a, 0x0d, 0x2d, 0xe5, 0x7a, 0x9f, 0x93, 0xc9, 0x9c, 0xef,
    0xa0, 0xe0, 0x3b, 0x4d, 0xae, 0x2a, 0xf5, 0xb0, 0xc8, 0xeb, 0xbb, 0x3c, 0x83, 0x53, 0x99, 0x61,
    0x17, 0x2b, 0x04, 0x7e, 0xba, 0x77, 0xd6, 0x26, 0xe1, 0x69, 0x14, 0x63, 0x55, 0x21, 0x0c, 0x7d], rfl⟩

def sub (b : UInt8) : UInt8 := sBox.get b.toFin

def invSub (b : UInt8) : UInt8 := invSBox.get b.toFin

namespace Column

def map (f : UInt8 → UInt8) (c : Column) : Column := ⟨f c.b0, f c.b1, f c.b2, f c.b3⟩

instance : XorOp Column :=
  ⟨fun x y => ⟨x.b0 ^^^ y.b0, x.b1 ^^^ y.b1, x.b2 ^^^ y.b2, x.b3 ^^^ y.b3⟩⟩

def rotate (c : Column) : Column := ⟨c.b1, c.b2, c.b3, c.b0⟩

def ofWord (w : UInt32) : Column :=
  ⟨(w >>> 24).toUInt8, (w >>> 16).toUInt8, (w >>> 8).toUInt8, w.toUInt8⟩

def toWord (c : Column) : UInt32 :=
  256 * (256 * (256 * c.b0.toUInt32 + c.b1.toUInt32) + c.b2.toUInt32) + c.b3.toUInt32

end Column

def double (b : UInt8) : UInt8 := if b < 0x80 then b <<< 1 else b <<< 1 ^^^ 0x1b

def mix (c : Column) : Column :=
  let all := c.b0 ^^^ c.b1 ^^^ c.b2 ^^^ c.b3
  ⟨c.b0 ^^^ all ^^^ double (c.b0 ^^^ c.b1), c.b1 ^^^ all ^^^ double (c.b1 ^^^ c.b2),
   c.b2 ^^^ all ^^^ double (c.b2 ^^^ c.b3), c.b3 ^^^ all ^^^ double (c.b3 ^^^ c.b0)⟩

def mixTwice (c : Column) : Column :=
  let even := double (double (c.b0 ^^^ c.b2))
  let odd := double (double (c.b1 ^^^ c.b3))
  ⟨c.b0 ^^^ even, c.b1 ^^^ odd, c.b2 ^^^ even, c.b3 ^^^ odd⟩

def invMix (c : Column) : Column := mix (mixTwice c)

namespace State

def map (f : Column → Column) (s : State) : State := ⟨f s.c0, f s.c1, f s.c2, f s.c3⟩

instance : XorOp State :=
  ⟨fun s t => ⟨s.c0 ^^^ t.c0, s.c1 ^^^ t.c1, s.c2 ^^^ t.c2, s.c3 ^^^ t.c3⟩⟩

def shiftRows (s : State) : State :=
  ⟨⟨s.c0.b0, s.c1.b1, s.c2.b2, s.c3.b3⟩, ⟨s.c1.b0, s.c2.b1, s.c3.b2, s.c0.b3⟩,
   ⟨s.c2.b0, s.c3.b1, s.c0.b2, s.c1.b3⟩, ⟨s.c3.b0, s.c0.b1, s.c1.b2, s.c2.b3⟩⟩

def invShiftRows (s : State) : State :=
  ⟨⟨s.c0.b0, s.c3.b1, s.c2.b2, s.c1.b3⟩, ⟨s.c1.b0, s.c0.b1, s.c3.b2, s.c2.b3⟩,
   ⟨s.c2.b0, s.c1.b1, s.c0.b2, s.c3.b3⟩, ⟨s.c3.b0, s.c2.b1, s.c1.b2, s.c0.b3⟩⟩

def ofBlock (b : Block) : State :=
  ⟨.ofWord (b.hi >>> 32).toUInt32, .ofWord b.hi.toUInt32, .ofWord (b.lo >>> 32).toUInt32,
   .ofWord b.lo.toUInt32⟩

def toBlock (s : State) : Block :=
  ⟨4294967296 * s.c0.toWord.toUInt64 + s.c1.toWord.toUInt64,
   4294967296 * s.c2.toWord.toUInt64 + s.c3.toWord.toUInt64⟩

end State

def rounds : List State → State → State
  | [], s => s
  | [k], s => (s.map (·.map sub)).shiftRows ^^^ k
  | k :: ks, s => rounds ks (((s.map (·.map sub)).shiftRows.map mix) ^^^ k)

def invRounds : List State → State → State
  | [], s => s
  | [k], s => (s ^^^ k).invShiftRows.map (·.map invSub)
  | k :: ks, s => ((invRounds ks s ^^^ k).map invMix).invShiftRows.map (·.map invSub)

/-- Extends a key schedule by `count` columns. The columns stand with the latest one first; `i` is the number
of the next one, `n` the number of columns in the key, and `rcon` the next round constant. -/
def extendKey (n : Nat) : Nat → Nat → UInt8 → List Column → List Column
  | 0, _, _, cs => cs
  | count + 1, i, rcon, cs =>
    let last := cs.headD ⟨0, 0, 0, 0⟩
    let back := cs.getD (n - 1) ⟨0, 0, 0, 0⟩
    if i % n = 0 then
      let t := last.rotate.map sub
      extendKey n count (i + 1) (double rcon) ((back ^^^ t ^^^ ⟨rcon, 0, 0, 0⟩) :: cs)
    else if 6 < n ∧ i % n = 4 then extendKey n count (i + 1) rcon ((back ^^^ last.map sub) :: cs)
    else extendKey n count (i + 1) rcon ((back ^^^ last) :: cs)

def statesOf : List Column → List State
  | c0 :: c1 :: c2 :: c3 :: cs => ⟨c0, c1, c2, c3⟩ :: statesOf cs
  | _ => []

def columnsOf : Bytes → List Column
  | b0 :: b1 :: b2 :: b3 :: bs => ⟨b0, b1, b2, b3⟩ :: columnsOf bs
  | _ => []

def roundKeys (key : Bytes) : List State :=
  let cs := columnsOf key
  let n := cs.length
  statesOf (extendKey n (4 * (n + 7) - n) n 1 cs.reverse).reverse

def encryptWith : List State → Block → Block
  | [], b => b
  | k :: ks, b => (rounds ks (State.ofBlock b ^^^ k)).toBlock

def decryptWith : List State → Block → Block
  | [], b => b
  | k :: ks, b => (invRounds ks (State.ofBlock b) ^^^ k).toBlock

def cipher (key : Bytes) : BlockCipher :=
  let ks := roundKeys key
  ⟨encryptWith ks, decryptWith ks⟩

end Aes

end Cose
