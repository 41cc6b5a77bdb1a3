import Cose.Agreement
import Cose.Authentication
import Cose.Encryption
import Cose.Key.Resolution
import Cose.KeyWrapping
import Cose.Signing

/-!
# Operations on keys

Each operation resolves the key configuration before it touches key material, so a key that is bound to
another algorithm, curve or operation is refused first. The algorithm may be left to the key.
-/

set_option autoImplicit false

namespace Cose

namespace Key

def symmetricFor (key : Key) (alg : Option Algorithm) (op : KeyOperation) :
    Result (Algorithm × Bytes) := do
  let keys ← key.resolve none ⟨alg, some op, none⟩
  let alg ← keys.alg
  let k ← keys.key.requireSymmetric
  .ok (alg, k)

def encrypt (key : Key) (alg : Option Algorithm) (nonce aad plain : Bytes) : Result Bytes := do
  let (alg, k) ← key.symmetricFor alg .encrypt
  Encryption.encrypt alg k nonce aad plain

def decrypt (key : Key) (alg : Option Algorithm) (nonce aad sealed : Bytes) : Result Bytes := do
  let (alg, k) ← key.symmetricFor alg .decrypt
  Encryption.decrypt alg k nonce aad sealed

def createMac (key : Key) (alg : Option Algorithm) (message : Bytes) : Result Bytes := do
  let (alg, k) ← key.symmetricFor alg .macCreate
  Authentication.tag alg k message

def verifyMac (key : Key) (alg : Option Algorithm) (message tag : Bytes) : Result Unit := do
  let (alg, k) ← key.symmetricFor alg .macVerify
  Authentication.verify alg k message tag

def wrap (kek : Key) (alg : Option Algorithm) (content : Bytes) : Result Bytes := do
  let (alg, k) ← kek.symmetricFor alg .wrap
  KeyWrapping.wrap alg k content

def unwrap (kek : Key) (alg : Option Algorithm) (wrapped : Bytes) : Result Bytes := do
  let (alg, k) ← kek.symmetricFor alg .unwrap
  KeyWrapping.unwrap alg k wrapped

def deriveShared (s : Suite) (key peer : Key) (alg : Option Algorithm) (length : Nat) (context : Bytes) :
    Result Agreement.Output := do
  let keys ← key.resolve (some peer) ⟨alg, some .deriveKey, none⟩
  match keys.peer with
  | none => .error (.keyAgreementFailed .noPeer)
  | some peer => Agreement.agree s keys.key peer length context

/-- A signature algorithm that is bound to a curve asks for it. -/
def signatureRequest (key : Key) (alg : Option Algorithm) (op : KeyOperation) : Request :=
  ⟨alg, some op, (alg.or key.alg).bind (·.signatureCurve?)⟩

def sign (s : Suite) (key : Key) (alg : Option Algorithm) (nonce : Nat) (message : Bytes) :
    Result Bytes := do
  let keys ← key.resolve none (key.signatureRequest alg .sign)
  let alg ← keys.alg
  Signing.sign s alg keys.key nonce message

def verify (s : Suite) (key : Key) (alg : Option Algorithm) (message signature : Bytes) :
    Result Unit := do
  let keys ← key.resolve none (key.signatureRequest alg .verify)
  let alg ← keys.alg
  Signing.verify s alg keys.key message signature

end Key

end Cose
