import Cose.Key.Basic

/-!
# Resolution of a key configuration

Before key material is used, the algorithm, curve and operation that are asked for are brought together with
those that the key, and in key agreement the peer's key, carry. The result is copies of the keys with these
fields filled in, or the first contradiction in the order algorithm, curve, operation.
-/

set_option autoImplicit false

namespace Cose

/-- What an operation asks of the keys that it is given. -/
structure Request where
  alg : Option Algorithm
  keyOp : Option KeyOperation
  curve : Option EllipticCurve
  deriving DecidableEq

structure Resolved where
  key : Key
  peer : Option Key
  deriving DecidableEq

namespace Resolution

def settle {α : Type} [DecidableEq α] (conflict : Mismatch α → Conflict) (held asked : Option α) :
    Result (Option α) :=
  match held, asked with
  | some h, some a =>
    if h = a then .ok (some a) else .error (.keyConfigurationConflict (conflict (.requested h a)))
  | none, some a => .ok (some a)
  | h, none => .ok h

def agree {α : Type} [DecidableEq α] (conflict : Mismatch α → Conflict) (ours theirs : Option α) :
    Result (Option α) :=
  match ours, theirs with
  | some o, some t =>
    if o = t then .ok (some o) else .error (.keyConfigurationConflict (conflict (.peer t o)))
  | some o, none => .ok (some o)
  | none, t => .ok t

def required {α : Type} (f : Field) : Option α → Result α
  | some a => .ok a
  | none => .error (.missingKeyParameter (.field f))

def resolveAlgorithm (request : Request) (keys : Resolved) : Result Resolved := do
  let alg ← settle .algorithm keys.key.alg request.alg
  let alg ← required .algorithm alg
  let key ← keys.key.setAlg alg
  match keys.peer with
  | none => .ok ⟨key, none⟩
  | some peer =>
    let _ ← agree .algorithm (some alg) peer.alg
    let peer ← peer.setAlg alg
    .ok ⟨key, some peer⟩

/-- Only a key on a curve has one to settle, and a peer takes part if it is on a curve too. -/
def resolveCurve (request : Request) (keys : Resolved) : Result Resolved :=
  if keys.key.hasCurve then do
    let crv ← settle .curve keys.key.curve request.curve
    let crv ← required .curve crv
    if crv.keyType? = some keys.key.keyType then
      let key ← keys.key.setCurve crv
      match keys.peer with
      | none => .ok ⟨key, none⟩
      | some peer =>
        if peer.hasCurve then
          let _ ← agree .curve (some crv) peer.curve
          let peer ← peer.setCurve crv
          .ok ⟨key, some peer⟩
        else .ok ⟨key, some peer⟩
    else .error (.keyConfigurationConflict (.curveFamily crv keys.key.keyType))
  else .ok keys

def fillKeyOps (key : Key) : Option KeyOperation → Result Key
  | none => .ok key
  | some op => key.setKeyOps op

/-- The operation may stay open; a peer's operation settles it if nothing else does. -/
def resolveKeyOps (request : Request) (keys : Resolved) : Result Resolved := do
  let op ← settle .keyOperation keys.key.keyOps request.keyOp
  match keys.peer with
  | none =>
    let key ← fillKeyOps keys.key op
    .ok ⟨key, none⟩
  | some peer =>
    let op ← agree .keyOperation op peer.keyOps
    let peer ← fillKeyOps peer op
    let key ← fillKeyOps keys.key op
    .ok ⟨key, some peer⟩

end Resolution

def Key.resolve (key : Key) (peer : Option Key) (request : Request) : Result Resolved := do
  let keys ← Resolution.resolveAlgorithm request ⟨key, peer⟩
  let keys ← Resolution.resolveCurve request keys
  Resolution.resolveKeyOps request keys

def Resolved.alg (keys : Resolved) : Result Algorithm := Resolution.required .algorithm keys.key.alg

end Cose
