import Cose.Curve.Group
import Cose.Curve.Modular
import Cose.Hash.Hmac

/-!
# Elliptic curve signatures

A signature is two numbers below the group order, each written in the length of a coordinate. It depends on a
number that must never be used twice. That number may be derived from the private key and the message, so
that signing needs no randomness, or be given.
-/

set_option autoImplicit false

namespace Cose

namespace Ecdsa

/-- The high bits of the digest, as many as the order has. -/
def digestNumber (g : Group) (h : Hash) (message : Bytes) : Nat :=
  Bytes.toNat (h.digest message) / 2 ^ (8 * h.size - (g.order.log2 + 1))

def encode (g : Group) (r s : Nat) : Bytes := Bytes.ofNat g.size r ++ Bytes.ofNat g.size s

/-- Signs with the private key `d` and the number `k`, which few values make impossible. -/
def sign? (g : Group) (h : Hash) (d k : Nat) (message : Bytes) : Option Bytes :=
  if g.isScalar k then
    match g.mul k g.base with
    | .infinity => none
    | .affine x _ =>
      let r := x % g.order
      let s := Modular.inverse g.order k * (digestNumber g h message + r * d) % g.order
      if r = 0 ∨ s = 0 then none else some (encode g r s)
  else none

def verify (g : Group) (h : Hash) (q : Point) (message signature : Bytes) : Bool :=
  let r := Bytes.toNat (signature.take g.size)
  let s := Bytes.toNat (signature.drop g.size)
  if signature.length = 2 * g.size ∧ g.isScalar r ∧ g.isScalar s then
    let w := Modular.inverse g.order s
    let u := digestNumber g h message * w % g.order
    let v := r * w % g.order
    match g.add (g.mul u g.base) (g.mul v q) with
    | .infinity => false
    | .affine x _ => x % g.order == r
  else false

/-! Numbers derived from key and message: a chain of keyed hashes, seeded with both. -/

structure Chain where
  key : Bytes
  value : Bytes

def Chain.next (h : Hash) (c : Chain) : Chain := ⟨c.key, h.hmac c.key c.value⟩

def Chain.reseed (h : Hash) (c : Chain) (data : Bytes) : Chain :=
  let key := h.hmac c.key (c.value ++ data)
  ⟨key, h.hmac key c.value⟩

def Chain.take (h : Hash) : Nat → Chain → Bytes × Chain
  | 0, c => ([], c)
  | count + 1, c =>
    let c := c.next h
    let (rest, after) := take h count c
    (c.value ++ rest, after)

def Chain.search? (g : Group) (h : Hash) : Nat → Chain → Option Nat
  | 0, _ => none
  | attempts + 1, c =>
    let (bytes, after) := c.take h ((g.size + h.size - 1) / h.size)
    let k := Bytes.toNat bytes / 2 ^ (8 * bytes.length - (g.order.log2 + 1))
    if g.isScalar k then some k else search? g h attempts (after.reseed h [0])

/-- All but a vanishing share of chains end at the first attempt. -/
def attempts : Nat := 1000

def derivedNumber? (g : Group) (h : Hash) (d : Nat) (message : Bytes) : Option Nat :=
  let seed := Bytes.ofNat g.size d ++ Bytes.ofNat g.size (digestNumber g h message % g.order)
  let start : Chain := ⟨Bytes.zeros h.size, List.replicate h.size 1⟩
  ((start.reseed h (0 :: seed)).reseed h (1 :: seed)).search? g h attempts

def signDerived? (g : Group) (h : Hash) (d : Nat) (message : Bytes) : Option Bytes := do
  let k ← derivedNumber? g h d message
  sign? g h d k message

end Ecdsa

end Cose
