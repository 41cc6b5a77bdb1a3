import Cose.Cbor.Map

/-!
# Writing CBOR

Every item has one written form: a head of the shortest width, then its content; map entries are written in
the order of the map. Nothing that can be represented fails to be written.
-/

set_option autoImplicit false

namespace Cose

namespace Cbor

inductive Major where
  | unsigned | negative | bytes | text | array | map | tag | simple
  deriving DecidableEq, Repr

def Major.code : Major → UInt8
  | unsigned => 0x00
  | negative => 0x20
  | bytes => 0x40
  | text => 0x60
  | array => 0x80
  | map => 0xa0
  | tag => 0xc0
  | simple => 0xe0

/-- The shortest head with a given argument. -/
def head (major : Major) (n : Nat) : Bytes :=
  if n < 24 then [major.code + UInt8.ofNat n]
  else if n < 2 ^ 8 then (major.code + 24) :: Bytes.ofNat 1 n
  else if n < 2 ^ 16 then (major.code + 25) :: Bytes.ofNat 2 n
  else if n < 2 ^ 32 then (major.code + 26) :: Bytes.ofNat 4 n
  else (major.code + 27) :: Bytes.ofNat 8 n

/-- A negative integer `i` is written as the natural number `-1 - i`. -/
def encodeInt (i : Int64) : Bytes :=
  if i < 0 then head .negative (-1 - i.toInt).toNat else head .unsigned i.toInt.toNat

def encodeBytes (bs : Bytes) : Bytes := head .bytes bs.length ++ bs

def encodeText (s : String) : Bytes :=
  let bs := Bytes.ofText s
  head .text bs.length ++ bs

def encodeLabel : Label → Bytes
  | .int i => encodeInt i
  | .text s => encodeText s

mutual

def encode : Value → Bytes
  | .int i => encodeInt i
  | .bytes bs => encodeBytes bs
  | .text s => encodeText s
  | .array items => head .array items.length ++ encodeItems items
  | .map entries => head .map entries.length ++ encodeEntries entries
  | .bool b => [if b then 0xf5 else 0xf4]
  | .null => [0xf6]

def encodeItems : List Value → Bytes
  | [] => []
  | x :: xs => encode x ++ encodeItems xs

def encodeEntries : List (Label × Value) → Bytes
  | [] => []
  | (l, x) :: es => encodeLabel l ++ (encode x ++ encodeEntries es)

end

def encodeMap (m : Map) : Bytes := encode (.map m)

end Cbor

end Cose
