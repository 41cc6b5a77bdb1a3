import Cose.Bytes

/-!
# Groups of points

What signatures and key agreement need of a curve in two coordinates: which pairs of coordinates are points,
how points are added and multiplied, and a base point of known order. Points are compared by their
coordinates, so however a group computes, equal points are equal.
-/

set_option autoImplicit false

namespace Cose

inductive Point where
  | infinity
  | affine (x y : Nat)
  deriving DecidableEq, Repr

structure Group where
  /-- The length of a coordinate in bytes, and the greatest length of a private key. -/
  size : Nat
  order : Nat
  base : Point
  onCurve : Nat → Nat → Bool
  add : Point → Point → Point
  mul : Nat → Point → Point

namespace Group

/-- Private keys of fewer bytes are refused, whatever their value. -/
def shortestScalar : Nat := 24

def isScalar (g : Group) (n : Nat) : Bool := 0 < n && n < g.order

def scalar? (g : Group) (bs : Bytes) : Option Nat :=
  if shortestScalar ≤ bs.length ∧ bs.length ≤ g.size ∧ g.isScalar (Bytes.toNat bs) then
    some (Bytes.toNat bs)
  else none

/-- The point whose coordinates follow the initial byte 4, the first half of the bytes being one of them and
the rest the other. -/
def point? (g : Group) : Bytes → Option Point
  | 4 :: coordinates =>
    let x := Bytes.toNat (coordinates.take g.size)
    let y := Bytes.toNat (coordinates.drop g.size)
    if coordinates.length = 2 * g.size ∧ g.onCurve x y then some (.affine x y) else none
  | _ => none

def publicKey (g : Group) (d : Nat) : Point := g.mul d g.base

def shared (g : Group) (d : Nat) (q : Point) : Bytes :=
  match g.mul d q with
  | .affine x _ => Bytes.ofNat g.size x
  | .infinity => Bytes.zeros g.size

end Group

end Cose
