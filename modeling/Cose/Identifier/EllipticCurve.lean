import Cose.Identifier.KeyType

/-!
# Elliptic curves

The registered curves and the key type that each is used with.
-/

set_option autoImplicit false

namespace Cose

inductive EllipticCurve where
  | reserved | p256 | p384 | p521 | x25519 | x448 | ed25519 | ed448 | secp256k1
  deriving DecidableEq, Repr

namespace EllipticCurve

def id : EllipticCurve → Int64
  | reserved => 0
  | p256 => 1
  | p384 => 2
  | p521 => 3
  | x25519 => 4
  | x448 => 5
  | ed25519 => 6
  | ed448 => 7
  | secp256k1 => 8

def name : EllipticCurve → String
  | reserved => "Reserved"
  | p256 => "P-256"
  | p384 => "P-384"
  | p521 => "P-521"
  | x25519 => "X25519"
  | x448 => "X448"
  | ed25519 => "Ed25519"
  | ed448 => "Ed448"
  | secp256k1 => "secp256k1"

def all : List EllipticCurve := [reserved, p256, p384, p521, x25519, x448, ed25519, ed448, secp256k1]

theorem mem_all (c : EllipticCurve) : c ∈ all := by cases c <;> decide

def ofId? : Int64 → Option EllipticCurve
  | 0 => some reserved
  | 1 => some p256
  | 2 => some p384
  | 3 => some p521
  | 4 => some x25519
  | 5 => some x448
  | 6 => some ed25519
  | 7 => some ed448
  | 8 => some secp256k1
  | _ => none

theorem ofId?_id (c : EllipticCurve) : ofId? c.id = some c := by cases c <;> decide

theorem ofId?_eq_some_iff (n : Int64) (c : EllipticCurve) : ofId? n = some c ↔ n = c.id := by
  constructor
  · intro found
    rw [ofId?.eq_def] at found
    split at found <;> cases found <;> rfl
  · rintro rfl
    exact ofId?_id c

instance : ToString EllipticCurve := ⟨name⟩

/-- Weierstrass curves belong to EC2 keys, the others to octet key pairs, the reserved number to neither. -/
def keyType? : EllipticCurve → Option KeyType
  | p256 | p384 | p521 | secp256k1 => some .ec2
  | x25519 | x448 | ed25519 | ed448 => some .okp
  | reserved => none

end EllipticCurve

abbrev CurveOf (kty : KeyType) := { crv : EllipticCurve // crv.keyType? = some kty }

end Cose
