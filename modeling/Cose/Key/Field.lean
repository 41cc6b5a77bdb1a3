import Cose.Cbor.Map
import Cose.Error
import Cose.Identifier.Parameter

/-!
# Reading the fields of a key map

Each field of a received key map is an untyped value. These functions turn it into what the field means, or
say why they cannot. Except for the key type, a field may be absent.
-/

set_option autoImplicit false

namespace Cose

def KeyType.ofValue : Value → Result KeyType
  | .int id => KeyType.ofId id
  | v => .error (.invalidKeyType (.notInt v.kind))

def Algorithm.ofField : Option Value → Result (Option Algorithm)
  | none => .ok none
  | some (.int id) => (Algorithm.ofId id).map some
  | some v => .error (.invalidAlgorithm (.notInt v.kind))

def Bytes.ofField (name : String) : Option Value → Result (Option Bytes)
  | none => .ok none
  | some (.bytes bs) => .ok (some bs)
  | some v => .error (.invalidKeyParameter (.notBytes name v.kind))

/-- A single operation, or an array of at most one. -/
def KeyOperation.ofField : Option Value → Result (Option KeyOperation)
  | none => .ok none
  | some (.int id) => (KeyOperation.ofId id).map some
  | some (.array []) => .ok none
  | some (.array [.int id]) => (KeyOperation.ofId id).map some
  | some (.array [_]) => .error (.invalidKeyOperation .entryNotInt)
  | some (.array (_ :: _ :: _)) => .error (.invalidKeyOperation .several)
  | some v => .error (.invalidKeyOperation (.notIntOrArray v.kind))

def EllipticCurve.within (crv : EllipticCurve) (kty : KeyType) : Result (CurveOf kty) :=
  if h : crv.keyType? = some kty then .ok ⟨crv, h⟩
  else .error (.invalidKeyParameter (.curveFamily crv kty))

def EllipticCurve.ofField (kty : KeyType) : Option Value → Result (Option (CurveOf kty))
  | none => .ok none
  | some (.int id) => do
    let crv ← EllipticCurve.ofId id
    let crv ← crv.within kty
    .ok (some crv)
  | some v => .error (.invalidKeyParameter (.curveNotInt v.kind))

def KeyType.expect (expected : KeyType) (m : Map) : Result Unit :=
  match m.find? Parameter.kty.label with
  | none => .error (.malformedKey .missingKeyType)
  | some v => do
    let found ← KeyType.ofValue v
    if found = expected then .ok () else .error (.invalidKeyType (.unexpected expected found))

end Cose
