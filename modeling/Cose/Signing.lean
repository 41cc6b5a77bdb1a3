import Cose.Curve.Suite
import Cose.Key.Required

/-!
# Signatures

An algorithm bound to a curve signs on that curve, EdDSA on the key's. From there the curve alone decides how
a signature is made and checked: with coordinates of the key and the hash that goes with the curve, or as
bytes. A key is refused for its own reasons, before the signature is looked at; every signature that is not
accepted is refused in the same way.

Signing is deterministic but for P-521, where the caller gives the number that must never be used twice.
-/

set_option autoImplicit false

namespace Cose

namespace Signing

def curve (alg : Algorithm) (key : Key) : Result EllipticCurve :=
  match alg with
  | .edDsa => key.requireCurve
  | _ =>
    match alg.signatureCurve? with
    | none => .error (.unsupportedSignature (.algorithm alg))
    | some expected =>
      match key.curve with
      | none => .ok expected
      | some found =>
        if found = expected then .ok expected
        else .error (.invalidKeyParameter (.signingCurve alg expected found))

def scalar (g : Group) (crv : EllipticCurve) (key : Key) : Result Nat := do
  let k ← key.requireEc2
  let d ← Key.requirePart "private key d" k.d
  match g.scalar? d with
  | some d => .ok d
  | none => .error (.invalidKeyParameter (.badKey crv))

/-- The public key, taken from the coordinates if there are both and else computed. -/
def point (g : Group) (crv : EllipticCurve) (key : Key) : Result Point := do
  let k ← key.requireEc2
  if k.x.isSome ∧ k.y.isSome then
    let q ← k.pointBytes
    match g.point? q with
    | some q => .ok q
    | none => .error (.invalidKeyParameter (.badKey crv))
  else
    let d ← scalar g crv key
    .ok (g.publicKey d)

def made : Option Bytes → Result Bytes
  | some signature => .ok signature
  | none => .error (.unsupportedSignature .noSignature)

def signOn (g : Group) (h : Hash) (crv : EllipticCurve) (d nonce : Nat) (message : Bytes) : Result Bytes :=
  made (if crv = .p521 then Ecdsa.sign? g h d nonce message else Ecdsa.signDerived? g h d message)

def sign (s : Suite) (alg : Algorithm) (key : Key) (nonce : Nat) (message : Bytes) : Result Bytes := do
  let crv ← curve alg key
  match s.group? crv with
  | some (g, h) =>
    let d ← scalar g crv key
    signOn g h crv d nonce message
  | none =>
    if crv = .ed25519 then
      let k ← key.requireOkp
      let d ← Key.requirePart "private key d" k.d
      let d ← Key.requireLength 32 "Ed25519 private key" d
      .ok (s.ed25519.sign d message)
    else .error (.unsupportedSignature (.curve alg crv))

def octets (e : EdwardsScheme) (key : Key) : Result Bytes := do
  let k ← key.requireOkp
  match k.x with
  | some x =>
    let x ← Key.requireLength 32 "Ed25519 public key" x
    if e.isPublicKey x then .ok x else .error (.invalidKeyParameter (.badKey .ed25519))
  | none =>
    let d ← Key.requirePart "public key x or private key d" k.d
    let d ← Key.requireLength 32 "Ed25519 private key" d
    .ok (e.publicKey d)

def accepted (b : Bool) : Result Unit := if b then .ok () else .error .signatureVerificationFailed

def verify (s : Suite) (alg : Algorithm) (key : Key) (message signature : Bytes) : Result Unit := do
  let crv ← curve alg key
  match s.group? crv with
  | some (g, h) =>
    let q ← point g crv key
    accepted (Ecdsa.verify g h q message signature)
  | none =>
    if crv = .ed25519 then
      let q ← octets s.ed25519 key
      accepted (s.ed25519.verify q message signature)
    else .error (.unsupportedSignature (.curve alg crv))

end Signing

end Cose
