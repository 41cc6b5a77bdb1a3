import Cose.Key.Basic

/-!
# Key material

What the cryptographic operations take out of a key, with the error for a key that does not have it.
-/

set_option autoImplicit false

namespace Cose

namespace Key

def requireCurve (key : Key) : Result EllipticCurve :=
  match key.curve with
  | some crv => .ok crv
  | none => .error (.missingKeyParameter (.curve key.keyType))

def requireOkp (key : Key) : Result Okp :=
  match key.material with
  | .okp k => .ok k
  | _ => .error (.invalidKeyType (.unexpected .okp key.keyType))

def requireEc2 (key : Key) : Result Ec2 :=
  match key.material with
  | .ec2 k => .ok k
  | _ => .error (.invalidKeyType (.unexpected .ec2 key.keyType))

def requireSymmetric (key : Key) : Result Bytes :=
  match key.material with
  | .symmetric k => .ok k.k
  | _ => .error (.invalidKeyType (.unexpected .symmetric key.keyType))

def requirePart (name : String) : Option Bytes → Result Bytes
  | some bs => .ok bs
  | none => .error (.missingKeyParameter (.material name))

def requireLength (length : Nat) (name : String) (bs : Bytes) : Result Bytes :=
  if bs.length = length then .ok bs
  else .error (.invalidKeyParameter (.fixedLength name length bs.length))

/-- The coordinates one after the other, with the initial byte of an uncompressed point. -/
def Ec2.pointBytes (k : Ec2) : Result Bytes := do
  let x ← requirePart "x coordinate" k.x
  let y ← requirePart "y coordinate" k.y
  .ok (4 :: x ++ y)

end Key

end Cose
