/-!
# Arithmetic modulo a prime

Numbers stand for their residues. Subtraction expects its operands reduced; powers are taken bit by bit from
the highest one, and a power gives the inverse.
-/

set_option autoImplicit false

namespace Cose

namespace Modular

def sub (p a b : Nat) : Nat := (a + p - b) % p

def powBits (p b e : Nat) : Nat → Nat → Nat
  | 0, acc => acc
  | i + 1, acc =>
    let square := acc * acc % p
    powBits p b e i (if e.testBit i then square * b % p else square)

def pow (p b e : Nat) : Nat := powBits p b e (e.log2 + 1) 1

def inverse (p a : Nat) : Nat := pow p a (p - 2)

end Modular

end Cose
