import Cose.Bytes
import Cose.Curve.Modular
import Cose.Hash.Sha2

/-!
# Signatures on the Edwards curve

The points of `y² - x² = 1 + d x² y²` over the field of `2²⁵⁵ - 19` elements. Keys and points are strings of
thirty-two bytes: a point is its second coordinate with the parity of the first in the highest bit. Reading
is lenient, comparing is not: a verifier computes the point that the signature should begin with, and
compares its bytes.
-/

set_option autoImplicit false

namespace Cose

namespace Edwards

def p : Nat := 2 ^ 255 - 19

def order : Nat := 2 ^ 252 + 27742317777372353535851937790883648493

def d : Nat := 0x52036cee2b6ffe738cc740797779e89800700a4d4141d8ab75eb4dca135978a3

def imaginary : Nat := 0x2b8324804fc1df0b2b4d00993dfbd7a72f431806ad2fe478c4ee1b274a0ea0b0

/-- The coordinates `x / z` and `y / z`, with `t = x y / z`. -/
structure Extended where
  x : Nat
  y : Nat
  z : Nat
  t : Nat

def ofAffine (x y : Nat) : Extended := ⟨x, y, 1, x * y % p⟩

def neutral : Extended := ⟨0, 1, 1, 0⟩

def base : Extended :=
  ofAffine 0x216936d3cd6e53fec0a4e231fdd6dc5c692cc7609525a7b2c9562d608f25d51a
    0x6666666666666666666666666666666666666666666666666666666666666658

def add (q r : Extended) : Extended :=
  let a := Modular.sub p q.y q.x * Modular.sub p r.y r.x % p
  let b := (q.y + q.x) * (r.y + r.x) % p
  let c := 2 * q.t * r.t % p * d % p
  let e := 2 * q.z * r.z % p
  let u := Modular.sub p b a
  let f := Modular.sub p e c
  let g := (e + c) % p
  let h := (b + a) % p
  ⟨u * f % p, g * h % p, f * g % p, u * h % p⟩

def neg (q : Extended) : Extended := ⟨(p - q.x) % p, q.y, q.z, (p - q.t) % p⟩

def mulBits (k : Nat) (q : Extended) : Nat → Extended → Extended
  | 0, acc => acc
  | i + 1, acc =>
    let twice := add acc acc
    mulBits k q i (if k.testBit i then add twice q else twice)

def mul (k : Nat) (q : Extended) : Extended := mulBits k q (k.log2 + 1) neutral

def compress (q : Extended) : Bytes :=
  let i := Modular.inverse p q.z
  let x := q.x * i % p
  let y := q.y * i % p
  Bytes.ofNatLE 32 (y + x % 2 * 2 ^ 255)

def sqrtRatio? (u v : Nat) : Option Nat :=
  let v3 := v * v % p * v % p
  let r := u * v3 % p * Modular.pow p (u * (v3 * v3 % p * v % p) % p) ((p - 5) / 8) % p
  let check := v * (r * r % p) % p
  let even (r : Nat) : Nat := if r % 2 = 0 then r else p - r
  if check = u then some (even r)
  else if (check + u) % p = 0 then some (even (r * imaginary % p))
  else none

/-- The point that bytes stand for. The second coordinate is taken modulo `p`, and the highest bit is
disregarded where the first coordinate is zero. -/
def decompress? (bs : Bytes) : Option Extended := do
  let n := Bytes.toNatLE bs
  let y := n % 2 ^ 255 % p
  let yy := y * y % p
  let x ← sqrtRatio? (Modular.sub p yy 1) ((d * yy + 1) % p)
  some (ofAffine (if n.testBit 255 then (p - x) % p else x) y)

def clamp (n : Nat) : Nat := n / 8 * 8 % 2 ^ 254 + 2 ^ 254

def secretFactor (key : Bytes) : Nat := clamp (Bytes.toNatLE ((Hash.sha512.digest key).take 32))

def publicKey (key : Bytes) : Bytes := compress (mul (secretFactor key) base)

def challenge (commitment pub message : Bytes) : Nat :=
  Bytes.toNatLE (Hash.sha512.digest (commitment ++ pub ++ message)) % order

def sign (key message : Bytes) : Bytes :=
  let a := secretFactor key
  let r := Bytes.toNatLE (Hash.sha512.digest ((Hash.sha512.digest key).drop 32 ++ message)) % order
  let commitment := compress (mul r base)
  commitment ++ Bytes.ofNatLE 32 ((r + challenge commitment (publicKey key) message * a) % order)

def isPublicKey (pub : Bytes) : Bool := (decompress? pub).isSome

def verify (pub message signature : Bytes) : Bool :=
  let commitment := signature.take 32
  let s := Bytes.toNatLE (signature.drop 32)
  (decompress? pub).any fun a =>
    signature.length = 64 && s < order &&
      compress (add (mul s base) (mul (challenge commitment pub message) (neg a))) == commitment

end Edwards

end Cose
