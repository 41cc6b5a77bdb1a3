import Cose.Curve.Ecdsa
import Cose.Curve.Montgomery
import Cose.Curve.Weierstrass
import Cose.Identifier.EllipticCurve

/-!
# The curves in use

Signing and key agreement are written against a suite, which says how each curve computes. What they promise
beyond that, such as that both sides of an agreement get the same secret, holds for every suite whose curves
keep their part of it. The standard suite holds the curves themselves.
-/

set_option autoImplicit false

namespace Cose

structure EdwardsScheme where
  publicKey : Bytes → Bytes
  isPublicKey : Bytes → Bool
  sign : Bytes → Bytes → Bytes
  verify : Bytes → Bytes → Bytes → Bool

structure Suite where
  p256 : Group
  p384 : Group
  p521 : Group
  ed25519 : EdwardsScheme
  /-- The multiple of a point by a secret factor, both strings of thirty-two bytes. -/
  x25519 : Bytes → Bytes → Bytes

def Suite.group? (s : Suite) : EllipticCurve → Option (Group × Hash)
  | .p256 => some (s.p256, .sha256)
  | .p384 => some (s.p384, .sha384)
  | .p521 => some (s.p521, .sha512)
  | _ => none

def Suite.standard : Suite where
  p256 := Weierstrass.p256.group
  p384 := Weierstrass.p384.group
  p521 := Weierstrass.p521.group
  ed25519 := ⟨Edwards.publicKey, Edwards.isPublicKey, Edwards.sign, Edwards.verify⟩
  x25519 := Montgomery.multiply

end Cose
