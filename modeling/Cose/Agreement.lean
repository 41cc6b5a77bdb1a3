import Cose.Curve.Suite
import Cose.Key.Required

/-!
# Key agreement

A private key and a peer's public key on the same curve give a shared secret, from which a key is derived for
a context. Both are returned. Keys are checked before anything is computed, the private one first.
-/

set_option autoImplicit false

namespace Cose

namespace Agreement

structure Output where
  shared : Bytes
  derived : Bytes
  deriving DecidableEq

def Output.describe (o : Output) : String :=
  "EcdhOutput \x7b shared_secret_len: " ++ toString o.shared.length ++ ", derived_key_len: " ++
    toString o.derived.length ++ " \x7d"

def derive (ikm : Bytes) (length : Nat) (info : Bytes) : Result Bytes :=
  match Hash.Hkdf.derive? .sha256 ikm info length with
  | some okm => .ok okm
  | none => .error (.invalidKeyParameter (.derivedLength length))

def groupSecret (g : Group) (crv : EllipticCurve) (key peer : Key) : Result Bytes := do
  let ours ← key.requireEc2
  let d ← Key.requirePart "private key d" ours.d
  let theirs ← peer.requireEc2
  let q ← theirs.pointBytes
  match g.scalar? d with
  | none => .error (.keyAgreementFailed (.privateKey crv))
  | some d =>
    match g.point? q with
    | none => .error (.keyAgreementFailed (.publicKey crv))
    | some q => .ok (g.shared d q)

/-- The shared secret of two octet key pairs; a point of low order would make it zero. -/
def octetSecret (multiply : Bytes → Bytes → Bytes) (key peer : Key) : Result Bytes := do
  let ours ← key.requireOkp
  let d ← Key.requirePart "private key d" ours.d
  let theirs ← peer.requireOkp
  let x ← Key.requirePart "public key x" theirs.x
  let d ← Key.requireLength 32 "X25519 private key" d
  let x ← Key.requireLength 32 "X25519 public key" x
  let shared := multiply d x
  if shared.all (· == 0) then .error (.keyAgreementFailed .lowOrder) else .ok shared

def secret (s : Suite) (crv : EllipticCurve) (key peer : Key) : Result Bytes :=
  match s.group? crv with
  | some (g, _) => groupSecret g crv key peer
  | none =>
    if crv = .x25519 then octetSecret s.x25519 key peer
    else .error (.keyAgreementFailed (.unsupportedCurve crv))

def agree (s : Suite) (key peer : Key) (length : Nat) (context : Bytes) : Result Output := do
  let crv ← key.requireCurve
  let theirs ← peer.requireCurve
  if crv = theirs then
    let shared ← secret s crv key peer
    let derived ← derive shared length context
    .ok ⟨shared, derived⟩
  else .error (.keyAgreementFailed (.differentCurves crv theirs))

end Agreement

end Cose
