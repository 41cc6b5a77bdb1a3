import Cose.Base64Url
import Cose.Key.Field

/-!
# Keys

A key is its material together with the attributes that every key may carry. The types say what a
constructible key is: a curve belongs to the key type, an octet key pair holds one of its halves, an EC2 key
both coordinates or the private scalar, a symmetric key at least one byte. Algorithm, operation and curve
may be filled in and are never changed after that.
-/

set_option autoImplicit false

namespace Cose

namespace Key

structure Okp where
  crv : Option (CurveOf .okp)
  x : Option Bytes
  d : Option Bytes
  material : x.isSome ∨ d.isSome
  deriving DecidableEq

/-- A key on a Weierstrass curve: coordinates `x` and `y` and private scalar `d`, all uninterpreted. -/
structure Ec2 where
  crv : Option (CurveOf .ec2)
  x : Option Bytes
  y : Option Bytes
  d : Option Bytes
  material : x.isSome ∧ y.isSome ∨ d.isSome
  deriving DecidableEq

structure Symmetric where
  k : Bytes
  nonempty : k ≠ []
  deriving DecidableEq

/-- A key of a type that a registry added; its parameters are kept as they came. -/
structure Registered where
  keyType : KeyType
  params : Map
  deriving DecidableEq

inductive Material where
  | okp (key : Okp)
  | ec2 (key : Ec2)
  | symmetric (key : Symmetric)
  | registered (key : Registered)
  deriving DecidableEq

structure Attributes where
  kid : Option Bytes
  alg : Option Algorithm
  keyOps : Option KeyOperation
  baseIv : Option Bytes
  deriving DecidableEq

def Attributes.none : Attributes := ⟨.none, .none, .none, .none⟩

def Okp.make (crv : Option (CurveOf .okp)) (x d : Option Bytes) : Result Okp :=
  if h : x.isSome ∨ d.isSome then .ok ⟨crv, x, d, h⟩
  else .error (.malformedKey .okpWithoutMaterial)

def Ec2.make (crv : Option (CurveOf .ec2)) (x y d : Option Bytes) : Result Ec2 :=
  if h : x.isSome ∧ y.isSome ∨ d.isSome then .ok ⟨crv, x, y, d, h⟩
  else .error (.malformedKey .ec2WithoutMaterial)

def Symmetric.make (k : Bytes) : Result Symmetric :=
  if h : k ≠ [] then .ok ⟨k, h⟩ else .error (.malformedKey .symmetricEmpty)

end Key

structure Key where
  material : Key.Material
  attributes : Key.Attributes
  deriving DecidableEq

namespace Key

def bare (m : Material) : Key := ⟨m, .none⟩

def okp (crv : Option EllipticCurve) (x d : Option Bytes) : Result Key := do
  let crv ← crv.mapM (·.within .okp)
  let key ← Okp.make crv x d
  .ok (bare (.okp key))

def ec2 (crv : Option EllipticCurve) (x y d : Option Bytes) : Result Key := do
  let crv ← crv.mapM (·.within .ec2)
  let key ← Ec2.make crv x y d
  .ok (bare (.ec2 key))

def symmetric (k : Bytes) : Result Key := do
  let key ← Symmetric.make k
  .ok (bare (.symmetric key))

def registered (kty : KeyType) (params : Map) : Key := bare (.registered ⟨kty, params⟩)

def keyType (key : Key) : KeyType :=
  match key.material with
  | .okp _ => .okp
  | .ec2 _ => .ec2
  | .symmetric _ => .symmetric
  | .registered k => k.keyType

def kid (key : Key) : Option Bytes := key.attributes.kid

def alg (key : Key) : Option Algorithm := key.attributes.alg

def keyOps (key : Key) : Option KeyOperation := key.attributes.keyOps

def baseIv (key : Key) : Option Bytes := key.attributes.baseIv

def hasCurve (key : Key) : Bool :=
  match key.material with
  | .okp _ | .ec2 _ => true
  | _ => false

def curve (key : Key) : Option EllipticCurve :=
  match key.material with
  | .okp k => k.crv.map (·.val)
  | .ec2 k => k.crv.map (·.val)
  | _ => none

def setKid (key : Key) (kid : Option Bytes) : Key :=
  { key with attributes := { key.attributes with kid := kid } }

def setBaseIv (key : Key) (iv : Option Bytes) : Key :=
  { key with attributes := { key.attributes with baseIv := iv } }

def assign {α : Type} [DecidableEq α] (conflict : Mismatch α → Conflict) (held : Option α) (given : α) :
    Result α :=
  match held with
  | none => .ok given
  | some current =>
    if current = given then .ok given
    else .error (.keyConfigurationConflict (conflict (.assigned current given)))

def setAlg (key : Key) (alg : Algorithm) : Result Key := do
  let alg ← assign .algorithm key.alg alg
  .ok { key with attributes := { key.attributes with alg := some alg } }

def setKeyOps (key : Key) (op : KeyOperation) : Result Key := do
  let op ← assign .keyOperation key.keyOps op
  .ok { key with attributes := { key.attributes with keyOps := some op } }

/-- Only a key on a curve takes one, of its own family, and none but the one that it is on already. -/
def setCurve (key : Key) (crv : EllipticCurve) : Result Key :=
  match key.material with
  | .okp k => do
    let c ← crv.within .okp
    let _ ← assign .curve key.curve crv
    .ok { key with material := .okp { k with crv := some c } }
  | .ec2 k => do
    let c ← crv.within .ec2
    let _ ← assign .curve key.curve crv
    .ok { key with material := .ec2 { k with crv := some c } }
  | _ => .error (.invalidKeyParameter (.noCurve key.keyType))

def describe (key : Key) : String :=
  s!"<COSE_Key(kty={key.keyType}" ++
  (match key.kid with | some kid => s!", kid={Base64Url.encode kid}" | none => "") ++
  (match key.alg with | some alg => s!", alg={alg}" | none => "") ++
  (match key.curve with | some crv => s!", crv={crv}" | none => "") ++
  (match key.keyOps with | some op => s!", key_ops={op}" | none => "") ++
  ")>"

end Key

end Cose
