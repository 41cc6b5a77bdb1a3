import Cose.Curve.Group
import Cose.Curve.Modular

/-!
# Weierstrass curves

The points of `y² = x³ + a x + b` over a prime field. Sums are computed in Jacobian coordinates, where
`(x, y, z)` stands for `(x / z², y / z³)` and for the point at infinity if `z` is zero, and only a result is
brought back to plain coordinates.
-/

set_option autoImplicit false

namespace Cose

structure Weierstrass where
  size : Nat
  p : Nat
  a : Nat
  b : Nat
  order : Nat
  baseX : Nat
  baseY : Nat

namespace Weierstrass

structure Jacobian where
  x : Nat
  y : Nat
  z : Nat

def ofPoint : Point → Jacobian
  | .infinity => ⟨1, 1, 0⟩
  | .affine x y => ⟨x, y, 1⟩

def toPoint (w : Weierstrass) (q : Jacobian) : Point :=
  if q.z = 0 then .infinity
  else
    let i := Modular.inverse w.p q.z
    let ii := i * i % w.p
    .affine (q.x * ii % w.p) (q.y * (ii * i % w.p) % w.p)

def double (w : Weierstrass) (q : Jacobian) : Jacobian :=
  let yy := q.y * q.y % w.p
  let s := 4 * q.x * yy % w.p
  let zz := q.z * q.z % w.p
  let m := (3 * q.x * q.x + w.a * (zz * zz % w.p)) % w.p
  let x := (m * m + 2 * (w.p - s)) % w.p
  ⟨x, (m * Modular.sub w.p s x + 8 * (w.p - yy * yy % w.p)) % w.p, 2 * q.y * q.z % w.p⟩

def sum (w : Weierstrass) (q r : Jacobian) : Jacobian :=
  if q.z = 0 then r
  else if r.z = 0 then q
  else
    let qzz := q.z * q.z % w.p
    let rzz := r.z * r.z % w.p
    let qx := q.x * rzz % w.p
    let rx := r.x * qzz % w.p
    let qy := q.y * (rzz * r.z % w.p) % w.p
    let ry := r.y * (qzz * q.z % w.p) % w.p
    if qx = rx then
      if qy = ry then w.double q else ⟨1, 1, 0⟩
    else
      let h := Modular.sub w.p rx qx
      let e := Modular.sub w.p ry qy
      let hh := h * h % w.p
      let hhh := hh * h % w.p
      let v := qx * hh % w.p
      let x := (e * e + (w.p - hhh) + 2 * (w.p - v)) % w.p
      ⟨x, (e * Modular.sub w.p v x + qy * (w.p - hhh)) % w.p, q.z * r.z % w.p * h % w.p⟩

def mulBits (w : Weierstrass) (k : Nat) (q : Jacobian) : Nat → Jacobian → Jacobian
  | 0, acc => acc
  | i + 1, acc =>
    let twice := w.double acc
    mulBits w k q i (if k.testBit i then w.sum twice q else twice)

def onCurve (w : Weierstrass) (x y : Nat) : Bool :=
  x < w.p && y < w.p && y * y % w.p == (x * x * x + w.a * x + w.b) % w.p

def group (w : Weierstrass) : Group where
  size := w.size
  order := w.order
  base := .affine w.baseX w.baseY
  onCurve := w.onCurve
  add q r := w.toPoint (w.sum (ofPoint q) (ofPoint r))
  mul k q := w.toPoint (w.mulBits k (ofPoint q) (k.log2 + 1) ⟨1, 1, 0⟩)

def p256 : Weierstrass where
  size := 32
  p := 0xffffffff00000001000000000000000000000000ffffffffffffffffffffffff
  a := 0xffffffff00000001000000000000000000000000fffffffffffffffffffffffc
  b := 0x5ac635d8aa3a93e7b3ebbd55769886bc651d06b0cc53b0f63bce3c3e27d2604b
  order := 0xffffffff00000000ffffffffffffffffbce6faada7179e84f3b9cac2fc632551
  baseX := 0x6b17d1f2e12c4247f8bce6e563a440f277037d812deb33a0f4a13945d898c296
  baseY := 0x4fe342e2fe1a7f9b8ee7eb4a7c0f9e162bce33576b315ececbb6406837bf51f5

def p384 : Weierstrass where
  size := 48
  p := 2 ^ 384 - 2 ^ 128 - 2 ^ 96 + 2 ^ 32 - 1
  a := 2 ^ 384 - 2 ^ 128 - 2 ^ 96 + 2 ^ 32 - 4
  b := 0xb3312fa7e23ee7e4988e056be3f82d19181d9c6efe8141120314088f5013875ac656398d8a2ed19d2a85c8edd3ec2aef
  order :=
    0xffffffffffffffffffffffffffffffffffffffffffffffffc7634d81f4372ddf581a0db248b0a77aecec196accc52973
  baseX :=
    0xaa87ca22be8b05378eb1c71ef320ad746e1d3b628ba79b9859f741e082542a385502f25dbf55296c3a545e3872760ab7
  baseY :=
    0x3617de4a96262c6f5d9e98bf9292dc29f8f41dbd289a147ce9da3113b5f0b8c00a60b1ce1d7e819d7a431d7c90ea0e5f

def p521 : Weierstrass where
  size := 66
  p := 2 ^ 521 - 1
  a := 2 ^ 521 - 4
  b := 0x51953eb9618e1c9a1f929a21a0b68540eea2da725b99b315f3b8b489918ef109e156193951ec7e937b1652c0bd3bb1bf073573df883d2c34f1ef451fd46b503f00
  order :=
    0x1fffffffffffffffffffffffffffffffffffffffffffffffffffffffffffffffffa51868783bf2f966b7fcc0148f709a5d03bb5c9b8899c47aebb6fb71e91386409
  baseX :=
    0xc6858e06b70404e9cd9e3ecb662395b4429c648139053fb521f828af606b4d3dbaa14b5e77efe75928fe1dc127a2ffa8de3348b3c1856a429bf97e7e31c2e5bd66
  baseY :=
    0x11839296a789a3bc0045c8a5fb42c7d1bd998f54449579b446817afbd17273e662c97ee72995ef42640c550b9013fad0761353c7086a272c24088be94769fd16650

end Weierstrass

end Cose
