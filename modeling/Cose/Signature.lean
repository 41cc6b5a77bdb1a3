import Cose.Header
import Cose.Key.Use

/-!
# Signature structures

One signer's headers and signature, or those of a countersignature. What is signed is an array of the context
text, both protected headers, the external data and the payload; the unprotected header takes no part in it
but may name the algorithm if the protected one does not.
-/

set_option autoImplicit false

namespace Cose

inductive SignatureContext where
  | signature | counterSignature
  deriving DecidableEq, Repr

def SignatureContext.text : SignatureContext → String
  | signature => "Signature"
  | counterSignature => "CounterSignature"

structure Signature where
  context : SignatureContext
  protectedHeader : Header
  unprotectedHeader : Header
  /-- Empty until the structure is signed. -/
  signature : Bytes
  externalAad : Bytes
  key : Option Key
  deriving DecidableEq

namespace Signature

def algLabel : Int64 := 1

def unsigned (context : SignatureContext) (protectedHeader unprotectedHeader : Header) (key : Option Key) :
    Signature :=
  ⟨context, protectedHeader, unprotectedHeader, [], [], key⟩

/-- Splits the elements of the array; the signature may be left out. -/
def splitItems : List Value → Result (Value × Value × Bytes)
  | [p, u, .bytes s] => .ok (p, u, s)
  | [_, _, _] => .error (.malformedStructure .signatureNotBytes)
  | [p, u] => .ok (p, u, [])
  | items => .error (.malformedStructure (.itemCount items.length))

def ofItems (items : List Value) : Result Signature := do
  let (p, u, signature) ← splitItems items
  let protectedHeader ← match p with
    | .bytes bs => Header.ofProtected bs
    | _ => .error (.malformedStructure .protectedNotBytes)
  match u with
  | .map m => .ok ⟨.signature, protectedHeader, .ofMap m, signature, [], none⟩
  | _ => .error (.malformedStructure .unprotectedNotMap)

def ofBytes (bs : Bytes) : Result Signature := do
  let v ← Value.ofBytes bs
  match v with
  | .array items => ofItems items
  | v => .error (.malformedStructure (.notArray v.kind))

/-- The algorithm that the headers name. A value that is none is refused, in the protected header even if the
unprotected one names an algorithm. -/
def headerAlg (s : Signature) : Result (Option Algorithm) :=
  match (s.protectedHeader.map.find? algLabel).or (s.unprotectedHeader.map.find? algLabel) with
  | none => .ok none
  | some (.int id) => (Algorithm.ofId id).map some
  | some v => .error (.invalidAlgorithm (.headerNotInt v.kind))

/-- The elements of the array for a given signature, which is left out if it is empty. -/
def items (s : Signature) (signature : Bytes) : List Value :=
  let headers := [.bytes s.protectedHeader.protectedBytes, .map s.unprotectedHeader.map]
  if signature.isEmpty then headers else headers ++ [.bytes signature]

def toBytes (s : Signature) : Bytes := (Value.array (s.items s.signature)).toBytes

def toBeSigned (s : Signature) (bodyProtected payload : Bytes) : Bytes :=
  (Value.array [.text s.context.text, .bytes bodyProtected, .bytes s.protectedHeader.protectedBytes,
    .bytes s.externalAad, .bytes payload]).toBytes

def compute (suite : Suite) (alg : Option Algorithm) (key : Key) (nonce : Nat) (message : Bytes) :
    Result Bytes :=
  match alg with
  | none => key.sign suite none nonce message
  | some a =>
    if a.isSignature then key.sign suite (some a) nonce message
    else .error (.unsupportedSignature (.algorithm a))

def requireKey (s : Signature) : Result Key :=
  match s.key with
  | some key => .ok key
  | none => .error (.missingKeyParameter .signatureKey)

def sign (suite : Suite) (s : Signature) (nonce : Nat) (bodyProtected payload : Bytes) :
    Result Signature := do
  let key ← s.requireKey
  let alg ← s.headerAlg
  let signature ← compute suite alg key nonce (s.toBeSigned bodyProtected payload)
  .ok { s with signature := signature }

def verify (suite : Suite) (s : Signature) (bodyProtected payload : Bytes) : Result Unit := do
  let key ← s.requireKey
  let alg ← s.headerAlg
  key.verify suite alg (s.toBeSigned bodyProtected payload) s.signature

end Signature

end Cose
