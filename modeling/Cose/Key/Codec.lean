import Cose.Cbor.Codec
import Cose.Key.Basic

/-!
# Keys as maps

Every key type has labels of its own beside the common ones. Writing a key inserts the key type, the common
parameters it carries and then its own; reading one checks the key type first, then the key's own
parameters, then the common ones.
-/

set_option autoImplicit false

namespace Cose

namespace Key

def crvLabel : Int64 := -1

def xLabel : Int64 := -2

def yLabel : Int64 := -3

def dLabel : Int64 := -4

def kLabel : Int64 := -1

namespace Attributes

def ofMap (m : Map) : Result Attributes := do
  let kid ← Bytes.ofField "kid" (m.find? Parameter.kid.label)
  let alg ← Algorithm.ofField (m.find? Parameter.alg.label)
  let keyOps ← KeyOperation.ofField (m.find? Parameter.keyOps.label)
  let baseIv ← Bytes.ofField "base_iv" (m.find? Parameter.baseIv.label)
  .ok ⟨kid, alg, keyOps, baseIv⟩

def value? (a : Attributes) : Parameter → Option Value
  | .kty => Option.none
  | .kid => a.kid.map .bytes
  | .alg => a.alg.map fun alg => .int alg.id
  | .keyOps => a.keyOps.map fun op => .array [.int op.id]
  | .baseIv => a.baseIv.map .bytes

def insertInto (a : Attributes) (m : Map) : Map :=
  [Parameter.kid, .alg, .keyOps, .baseIv].foldl (fun m p => m.insert? p.label (a.value? p)) m

end Attributes

def Okp.insertInto (k : Okp) (m : Map) : Map :=
  ((m.insert? crvLabel (k.crv.map fun c => .int c.val.id)).insert? xLabel (k.x.map .bytes)).insert?
    dLabel (k.d.map .bytes)

def Ec2.insertInto (k : Ec2) (m : Map) : Map :=
  (((m.insert? crvLabel (k.crv.map fun c => .int c.val.id)).insert? xLabel (k.x.map .bytes)).insert?
    yLabel (k.y.map .bytes)).insert? dLabel (k.d.map .bytes)

def Material.insertInto (material : Material) (m : Map) : Map :=
  match material with
  | .okp k => k.insertInto m
  | .ec2 k => k.insertInto m
  | .symmetric k => m.insert (.int kLabel) (.bytes k.k)
  | .registered k => m.insertAll k.params

def keyTypeEntry (key : Key) : Map := Map.ofList [(.int Parameter.kty.label, .int key.keyType.id)]

def toMap (key : Key) : Map := key.material.insertInto (key.attributes.insertInto key.keyTypeEntry)

def toBytes (key : Key) : Bytes := key.toMap.toBytes

/-- The key type and the named common parameters that the key carries. Unknown names are passed over. -/
def fields (key : Key) (names : List String) : Map :=
  (names.filterMap Parameter.ofName?).foldl (fun m p => m.insert? p.label (key.attributes.value? p))
    key.keyTypeEntry

def okpOfMap (m : Map) : Result Key := do
  KeyType.expect .okp m
  let crv ← EllipticCurve.ofField .okp (m.find? crvLabel)
  let x ← Bytes.ofField "x" (m.find? xLabel)
  let d ← Bytes.ofField "d" (m.find? dLabel)
  let key ← Okp.make crv x d
  let attributes ← Attributes.ofMap m
  .ok ⟨.okp key, attributes⟩

def ec2OfMap (m : Map) : Result Key := do
  KeyType.expect .ec2 m
  let crv ← EllipticCurve.ofField .ec2 (m.find? crvLabel)
  let x ← Bytes.ofField "x" (m.find? xLabel)
  let y ← Bytes.ofField "y" (m.find? yLabel)
  let d ← Bytes.ofField "d" (m.find? dLabel)
  let key ← Ec2.make crv x y d
  let attributes ← Attributes.ofMap m
  .ok ⟨.ec2 key, attributes⟩

def symmetricOfMap (m : Map) : Result Key := do
  KeyType.expect .symmetric m
  let k ← Bytes.ofField "k" (m.find? kLabel)
  match k with
  | none => .error (.malformedKey .symmetricMissing)
  | some k =>
    let key ← Symmetric.make k
    let attributes ← Attributes.ofMap m
    .ok ⟨.symmetric key, attributes⟩

def isCommonLabel : Label → Bool
  | .int i => 1 ≤ i && i ≤ 5
  | .text _ => false

/-- A key of any type, which keeps all but the common labels as its parameters. -/
def registeredOfMap (m : Map) : Result Key :=
  match m.find? Parameter.kty.label with
  | some (.int id) => do
    let attributes ← Attributes.ofMap m
    let params := m.filter (fun e => !isCommonLabel e.1)
    .ok ⟨.registered ⟨KeyType.ofRegistered id, params⟩, attributes⟩
  | _ => .error (.malformedKey .noIntegerKeyType)

end Key

end Cose
