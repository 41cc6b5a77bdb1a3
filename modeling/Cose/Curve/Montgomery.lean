import Cose.Curve.Edwards

/-!
# Key agreement on the Montgomery curve

Points of `y² = x³ + 486662 x² + x` over the same field as the Edwards curve, known by their first coordinate
alone. A ladder keeps two neighbouring multiples of a point.
-/

set_option autoImplicit false

namespace Cose

namespace Montgomery

open Edwards (p clamp)

/-- Two multiples that differ by the point, the first coordinates as fractions `x / z`. -/
structure Rungs where
  x : Nat
  z : Nat
  x' : Nat
  z' : Nat

def Rungs.swap (s : Rungs) : Rungs := ⟨s.x', s.z', s.x, s.z⟩

def Rungs.step (u : Nat) (s : Rungs) : Rungs :=
  let a := (s.x + s.z) % p
  let aa := a * a % p
  let b := Modular.sub p s.x s.z
  let bb := b * b % p
  let e := Modular.sub p aa bb
  let da := Modular.sub p s.x' s.z' * a % p
  let cb := (s.x' + s.z') * b % p
  let plus := (da + cb) % p
  let minus := Modular.sub p da cb
  ⟨aa * bb % p, e * ((aa + 121665 * e) % p) % p, plus * plus % p, u * (minus * minus % p) % p⟩

def ladder (u k : Nat) : Nat → Rungs → Rungs
  | 0, s => s
  | i + 1, s => ladder u k i (if k.testBit i then (s.swap.step u).swap else s.step u)

def multiply (secret point : Bytes) : Bytes :=
  let u := Bytes.toNatLE point % 2 ^ 255 % p
  let top := ladder u (clamp (Bytes.toNatLE secret)) 255 ⟨1, 0, u, 1⟩
  Bytes.ofNatLE 32 (top.x * Modular.inverse p top.z % p)

end Montgomery

end Cose
