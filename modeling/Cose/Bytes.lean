/-!
# Byte strings

A byte string is a list of bytes, so its laws are those of lists. Numbers are written with the most
significant byte first; the width is always given, and a number that does not fit keeps its low part.
-/

set_option autoImplicit false

-- Powers are those of the natural numbers, also where a module imports powers in monoids.
attribute [default_instance high, instance (high)] instPowNat

namespace Cose

abbrev Bytes := List UInt8

namespace Bytes

def ofText (s : String) : Bytes := s.toByteArray.data.toList

/-- The text whose UTF-8 form is given, if there is one. -/
def toText? (bs : Bytes) : Option String := String.fromUTF8? ⟨bs.toArray⟩

def ofNat : Nat → Nat → Bytes
  | 0, _ => []
  | width + 1, n => ofNat width (n / 256) ++ [UInt8.ofNat n]

def toNat (bs : Bytes) : Nat := bs.foldl (fun n b => 256 * n + b.toNat) 0

def ofNatLE (width n : Nat) : Bytes := (ofNat width n).reverse

def toNatLE (bs : Bytes) : Nat := toNat bs.reverse

def xor (a b : Bytes) : Bytes := List.zipWith (· ^^^ ·) a b

def zeros (n : Nat) : Bytes := List.replicate n 0

/-- Left-pads with zero bytes; longer strings stay as they are. -/
def padLeft (width : Nat) (bs : Bytes) : Bytes := zeros (width - bs.length) ++ bs

def pieces (size : Nat) : Nat → Bytes → List Bytes
  | 0, _ => []
  | count + 1, bs => bs.take size :: pieces size count (bs.drop size)

/-- Cuts into pieces of `size` bytes, of which only the last one may be shorter. -/
def chunks (size : Nat) (bs : Bytes) : List Bytes := pieces size ((bs.length + size - 1) / size) bs

def padRight (size : Nat) (bs : Bytes) : Bytes := bs ++ zeros ((size - bs.length % size) % size)

@[simp] theorem length_ofNat (width n : Nat) : (ofNat width n).length = width := by
  induction width generalizing n with
  | zero => rfl
  | succ w ih => simp [ofNat, ih]

@[simp] theorem length_zeros (n : Nat) : (zeros n).length = n := by simp [zeros]

@[simp] theorem length_xor (a b : Bytes) : (xor a b).length = min a.length b.length := by simp [xor]

end Bytes

end Cose
