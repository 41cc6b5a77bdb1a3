import Cose.Identifier.Algorithm
import Cose.Identifier.KeyOperation
import Cose.Cbor.Value
import Cose.Cbor.Error

/-!
# Errors

An error has a class, which tells a caller what kind of thing was refused, and a cause with the values that
the message needs. The wording stands here alone.
-/

set_option autoImplicit false

namespace Cose

inductive Field where
  | algorithm | curve | keyOperation
  deriving DecidableEq, Repr

def Field.name : Field → String
  | algorithm => "algorithm"
  | curve => "curve"
  | keyOperation => "key operation"

inductive EncryptionError where
  | algorithm (alg : Algorithm)
  | textTooLong (alg : Algorithm)
  deriving DecidableEq

inductive SignatureError where
  | algorithm (alg : Algorithm)
  | curve (alg : Algorithm) (crv : EllipticCurve)
  | noSignature
  deriving DecidableEq

inductive KeyTypeError where
  | unassigned (id : Int64)
  | notInt (found : Value.Kind)
  | unexpected (expected found : KeyType)
  deriving DecidableEq

inductive AlgorithmError where
  | unassigned (id : Int64)
  | notInt (found : Value.Kind)
  | headerNotInt (found : Value.Kind)
  deriving DecidableEq

inductive KeyOperationError where
  | unassigned (id : Int64)
  | entryNotInt
  | several
  | notIntOrArray (found : Value.Kind)
  deriving DecidableEq

inductive KeyParameterError where
  | unassignedCurve (id : Int64)
  | notBytes (name : String) (found : Value.Kind)
  | curveNotInt (found : Value.Kind)
  | curveFamily (crv : EllipticCurve) (kty : KeyType)
  | noCurve (kty : KeyType)
  | keyLength (alg : Algorithm) (expected found : Nat)
  | nonceLength (alg : Algorithm) (expected found : Nat)
  | notEncryption (alg : Algorithm)
  | cipherKeyLength
  | kekLength (alg : Algorithm) (expected found : Nat)
  | macKeyLength (found : Nat)
  | baseIvLength (expected found : Nat)
  | partialIvLength (found available : Nat)
  | plainKeyLength (found : Nat)
  | wrappedKeyLength (found : Nat)
  | derivedLength (asked : Nat)
  | fixedLength (name : String) (expected found : Nat)
  | signingCurve (alg : Algorithm) (expected found : EllipticCurve)
  | badKey (crv : EllipticCurve)
  deriving DecidableEq

inductive UnknownKeyTypeError where
  | missing
  | notInt (found : Value.Kind)
  | unregistered (id : Int64)
  deriving DecidableEq

inductive MalformedKeyError where
  | missingKeyType
  | noIntegerKeyType
  | okpWithoutMaterial
  | ec2WithoutMaterial
  | symmetricEmpty
  | symmetricMissing
  | setEntryNotMap (found : Value.Kind)
  deriving DecidableEq

/-- Two values of one field that ought to agree. -/
inductive Mismatch (α : Type) where
  | requested (held asked : α)
  | peer (theirs ours : α)
  | assigned (held given : α)
  deriving DecidableEq

inductive Conflict where
  | algorithm (values : Mismatch Algorithm)
  | curve (values : Mismatch EllipticCurve)
  | curveFamily (crv : EllipticCurve) (kty : KeyType)
  | keyOperation (values : Mismatch KeyOperation)
  deriving DecidableEq

inductive MissingError where
  | field (f : Field)
  | material (name : String)
  | curve (kty : KeyType)
  | signatureKey
  deriving DecidableEq

inductive AgreementError where
  | differentCurves (ours theirs : EllipticCurve)
  | privateKey (crv : EllipticCurve)
  | publicKey (crv : EllipticCurve)
  | lowOrder
  | unsupportedCurve (crv : EllipticCurve)
  | noPeer
  deriving DecidableEq

inductive Base64Error where
  | length (size : Nat)
  | symbol (byte : UInt8) (offset : Nat)
  | lastSymbol (byte : UInt8) (offset : Nat)
  deriving DecidableEq

inductive StructureError where
  | notArray (found : Value.Kind)
  | itemCount (found : Nat)
  | signatureNotBytes
  | protectedNotBytes
  | unprotectedNotMap
  deriving DecidableEq

inductive EncodingError where
  | item (cause : Cbor.Error)
  | keySetNotArray
  deriving DecidableEq

inductive Error where
  | unsupportedEncryption (cause : EncryptionError)
  | unsupportedMac (alg : Algorithm)
  | unsupportedKeyWrap (alg : Algorithm)
  | unsupportedSignature (cause : SignatureError)
  | authenticationFailed
  | invalidTag
  | signatureVerificationFailed
  | invalidKeyType (cause : KeyTypeError)
  | invalidAlgorithm (cause : AlgorithmError)
  | invalidKeyOperation (cause : KeyOperationError)
  | invalidKeyParameter (cause : KeyParameterError)
  | keyTypeUnknown (cause : UnknownKeyTypeError)
  | keyTypeAlreadyRegistered (id : Int64)
  | malformedKey (cause : MalformedKeyError)
  | keyConfigurationConflict (cause : Conflict)
  | missingKeyParameter (cause : MissingError)
  | keyAgreementFailed (cause : AgreementError)
  | invalidBase64 (cause : Base64Error)
  | malformedStructure (cause : StructureError)
  | cbor (cause : EncodingError)
  deriving DecidableEq

namespace EncryptionError

def message : EncryptionError → String
  | algorithm alg => alg.name
  | textTooLong alg => s!"{alg}: plaintext too long for nonce size"

end EncryptionError

namespace SignatureError

def message : SignatureError → String
  | algorithm alg => alg.name
  | curve alg crv => s!"{alg} over {crv}"
  | noSignature => "signing failed: signature error"

end SignatureError

namespace KeyTypeError

def message : KeyTypeError → String
  | unassigned id => s!"unknown COSE key type: {id}"
  | notInt found => s!"kty must be an int, got {found.name}"
  | unexpected expected found => s!"expected {expected} key, got {found}"

end KeyTypeError

namespace AlgorithmError

def message : AlgorithmError → String
  | unassigned id => s!"unknown COSE algorithm: {id}"
  | notInt found => s!"alg must be an int, got {found.name}"
  | headerNotInt found => s!"alg header must be an int, got {found.name}"

end AlgorithmError

namespace KeyOperationError

def message : KeyOperationError → String
  | unassigned id => s!"unknown COSE key operation: {id}"
  | entryNotInt => "key_ops entries must be ints"
  | several => "a key may declare at most one key operation"
  | notIntOrArray found => s!"key_ops must be an int or array, got {found.name}"

end KeyOperationError

namespace KeyParameterError

def message : KeyParameterError → String
  | unassignedCurve id => s!"unknown COSE elliptic curve: {id}"
  | notBytes name found => s!"{name} attribute must be of type bstr, got {found.name}"
  | curveNotInt found => s!"crv must be an int, got {found.name}"
  | curveFamily crv kty => s!"curve {crv} cannot be used with a {kty} key"
  | noCurve kty => s!"{kty} keys do not have a curve"
  | keyLength alg expected found => s!"{alg} requires a {expected}-byte key, got {found}"
  | nonceLength alg expected found => s!"{alg} requires a {expected}-byte nonce, got {found}"
  | notEncryption alg => s!"{alg} is not a content encryption algorithm"
  | cipherKeyLength => "invalid key length"
  | kekLength alg expected found => s!"{alg} requires a {expected}-byte key encryption key, got {found}"
  | macKeyLength found => s!"invalid MAC key length {found}"
  | baseIvLength expected found => s!"base IV must be {expected} bytes, got {found}"
  | partialIvLength found available =>
    s!"partial IV of {found} bytes does not fit a {available}-byte nonce"
  | plainKeyLength found => s!"key to wrap must be a multiple of 8 bytes and at least 16, got {found}"
  | wrappedKeyLength found => s!"wrapped key has invalid length {found}"
  | derivedLength asked => s!"HKDF-SHA-256 cannot produce {asked} bytes"
  | fixedLength name expected found => s!"{name} must be {expected} bytes, got {found}"
  | signingCurve alg expected found => s!"{alg} requires a {expected} key, got {found}"
  | badKey .ed25519 => "bad Ed25519 key: signature error: Cannot decompress Edwards point"
  | badKey crv => s!"bad {crv} key: signature error"

end KeyParameterError

namespace UnknownKeyTypeError

def message : UnknownKeyTypeError → String
  | missing => "key map has no kty"
  | notInt found => s!"kty must be an int, got {found.name}"
  | unregistered id => s!"no key type registered for kty {id}"

end UnknownKeyTypeError

namespace MalformedKeyError

def message : MalformedKeyError → String
  | missingKeyType => "missing kty"
  | noIntegerKeyType => "missing or non-integer kty"
  | okpWithoutMaterial => "OKP key requires the public key x or the private key d"
  | ec2WithoutMaterial => "EC2 key requires the x and y coordinates or the private key d"
  | symmetricEmpty => "symmetric key value k is empty"
  | symmetricMissing => "symmetric key is missing k"
  | setEntryNotMap found => s!"COSE_KeySet entries must be maps, got {found.name}"

end MalformedKeyError

namespace Conflict

def field : Conflict → Field
  | algorithm _ => .algorithm
  | curve _ | curveFamily _ _ => .curve
  | keyOperation _ => .keyOperation

private def wording {α : Type} [ToString α] (f : Field) : Mismatch α → String
  | .requested held asked => s!"key has {f.name} {held}, requested {asked}"
  | .peer theirs ours => s!"peer key has {f.name} {theirs}, expected {ours}"
  | .assigned held given => s!"COSE key {f.name} {held} does not match {given}"

def message : Conflict → String
  | keyOperation (.assigned held given) => s!"COSE key operation should be {given}, instead {held}"
  | algorithm values => wording .algorithm values
  | curve values => wording .curve values
  | keyOperation values => wording .keyOperation values
  | curveFamily crv kty => s!"curve {crv} cannot be used with a {kty} key"

end Conflict

namespace MissingError

def message : MissingError → String
  | field f => s!"selected {f.name} cannot be empty"
  | material name => s!"key has no {name}"
  | curve kty => s!"{kty} key has no curve"
  | signatureKey => "no key attached to the signature"

end MissingError

namespace AgreementError

def message : AgreementError → String
  | differentCurves ours theirs => s!"keys are on different curves: {ours} and {theirs}"
  | privateKey crv => s!"invalid {crv} private key: crypto error"
  | publicKey crv => s!"invalid {crv} public key: crypto error"
  | lowOrder => "X25519 peer key is a low-order point"
  | unsupportedCurve crv => s!"key agreement over {crv} is not supported"
  | noPeer => "no peer key"

end AgreementError

namespace Base64Error

def message : Base64Error → String
  | length size => s!"illegal base64url string length {size}"
  | symbol byte offset => s!"Invalid symbol {byte}, offset {offset}."
  | lastSymbol byte offset => s!"Invalid last symbol {byte}, offset {offset}."

end Base64Error

namespace StructureError

def message : StructureError → String
  | notArray found => s!"signature must be an array, got {found.name}"
  | itemCount found => s!"signature array must have 2 or 3 elements, got {found}"
  | signatureNotBytes => "signature must be a bstr"
  | protectedNotBytes => "protected header must be a bstr"
  | unprotectedNotMap => "unprotected header must be a map"

end StructureError

namespace EncodingError

def message : EncodingError → String
  | item cause => cause.message
  | keySetNotArray => "COSE_KeySet must be an array"

end EncodingError

namespace Error

def message : Error → String
  | unsupportedEncryption cause => s!"unsupported content encryption algorithm: {cause.message}"
  | unsupportedMac alg => s!"unsupported MAC algorithm: {alg}"
  | unsupportedKeyWrap alg => s!"unsupported key wrap algorithm: {alg}"
  | unsupportedSignature cause => s!"unsupported signature algorithm: {cause.message}"
  | authenticationFailed => "authentication failed"
  | invalidTag => "the authentication tags do not match"
  | signatureVerificationFailed => "signature verification failed"
  | invalidKeyType cause => s!"invalid key type: {cause.message}"
  | invalidAlgorithm cause => s!"invalid algorithm: {cause.message}"
  | invalidKeyOperation cause => s!"invalid key operation: {cause.message}"
  | invalidKeyParameter cause => s!"invalid key parameter: {cause.message}"
  | keyTypeUnknown cause => s!"key type is not recognized: {cause.message}"
  | keyTypeAlreadyRegistered id => s!"key type {id} is already registered with a different factory"
  | malformedKey cause => s!"malformed key: {cause.message}"
  | keyConfigurationConflict cause =>
    s!"key configuration conflict on {cause.field.name}: {cause.message}"
  | missingKeyParameter cause => s!"missing key parameter: {cause.message}"
  | keyAgreementFailed cause => s!"key agreement failed: {cause.message}"
  | invalidBase64 cause => s!"invalid base64url input: {cause.message}"
  | malformedStructure cause => s!"malformed COSE structure: {cause.message}"
  | cbor cause => s!"CBOR error: {cause.message}"

end Error

abbrev Result (α : Type) := Except Error α

instance {α : Type} [DecidableEq α] : DecidableEq (Result α)
  | .ok a, .ok b => decidable_of_iff (a = b) (by simp)
  | .error e, .error f => decidable_of_iff (e = f) (by simp)
  | .ok _, .error _ => isFalse (by simp)
  | .error _, .ok _ => isFalse (by simp)

def KeyType.ofId (id : Int64) : Result KeyType :=
  match ofId? id with
  | some kty => .ok kty
  | none => .error (.invalidKeyType (.unassigned id))

def Algorithm.ofId (id : Int64) : Result Algorithm :=
  match ofId? id with
  | some alg => .ok alg
  | none => .error (.invalidAlgorithm (.unassigned id))

def KeyOperation.ofId (id : Int64) : Result KeyOperation :=
  match ofId? id with
  | some op => .ok op
  | none => .error (.invalidKeyOperation (.unassigned id))

def EllipticCurve.ofId (id : Int64) : Result EllipticCurve :=
  match ofId? id with
  | some crv => .ok crv
  | none => .error (.invalidKeyParameter (.unassignedCurve id))

end Cose
