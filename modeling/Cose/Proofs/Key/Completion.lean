import Cose.Proofs.Key.Coherence

/-!
# Completed keys

A coherent configuration leaves each key with its three fields filled in and all else as it was. That says what
the key is: there is only one such key, and filling in the fields one after the other gives it.
-/

set_option autoImplicit false

namespace Cose

namespace Key

/-! Keys of the same parts differ in the curve only. -/

theorem Material.SameParts.symm {m n : Material} (h : m.SameParts n) : n.SameParts m := by
  cases h with
  | same => exact .same _
  | okp k crv => exact .okp { k with crv := crv } k.crv
  | ec2 k crv => exact .ec2 { k with crv := crv } k.crv

theorem Material.SameParts.trans {l m n : Material} (left : l.SameParts m) (right : m.SameParts n) :
    l.SameParts n := by
  cases left with
  | same => exact right
  | okp k crv =>
    cases right with
    | same => exact .okp k crv
    | okp _ other => exact .okp k other
  | ec2 k crv =>
    cases right with
    | same => exact .ec2 k crv
    | ec2 _ other => exact .ec2 k other

theorem material_eq_of_curve {a b : Key} (parts : a.material.SameParts b.material) (same : a.curve = b.curve) :
    a.material = b.material := by
  obtain ⟨am, aa⟩ := a
  obtain ⟨bm, ba⟩ := b
  have crv_eq {kty : KeyType} {x y : Option (CurveOf kty)} (h : x.map (·.val) = y.map (·.val)) : x = y :=
    Option.map_injective (fun _ _ => Subtype.ext) h
  cases parts with
  | same => rfl
  | okp k crv =>
    obtain rfl := crv_eq same
    rfl
  | ec2 k crv =>
    obtain rfl := crv_eq same
    rfl

theorem keyType_of_sameParts {a b : Key} (h : a.material.SameParts b.material) : b.keyType = a.keyType := by
  obtain ⟨am, aa⟩ := a
  obtain ⟨bm, ba⟩ := b
  cases h <;> rfl

theorem eq_of_fields {a b : Key} (material : a.material = b.material) (kid : a.kid = b.kid)
    (alg : a.alg = b.alg) (keyOps : a.keyOps = b.keyOps) (baseIv : a.baseIv = b.baseIv) : a = b := by
  obtain ⟨am, akid, aalg, aops, aiv⟩ := a
  obtain ⟨bm, bkid, balg, bops, biv⟩ := b
  simp only [Key.kid, Key.alg, Key.keyOps, Key.baseIv] at material kid alg keyOps baseIv
  rw [material, kid, alg, keyOps, baseIv]

def onCurve? (key : Key) : Option EllipticCurve → Key
  | some crv => key.onCurve crv
  | none => key

def filled (key : Key) (alg : Algorithm) (crv : Option EllipticCurve) (op : Option KeyOperation) : Key :=
  ((key.withAlg alg).onCurve? crv).withKeyOps op

@[simp] theorem keyOps_onCurve? (key : Key) (crv : Option EllipticCurve) :
    (key.onCurve? crv).keyOps = key.keyOps := by
  cases crv <;> rfl

@[simp] theorem alg_filled (k : Key) (alg : Algorithm) (crv : Option EllipticCurve)
    (op : Option KeyOperation) : (k.filled alg crv op).alg = some alg := by
  cases crv <;> rfl

theorem sameParts_filled (k : Key) (alg : Algorithm) (crv : Option EllipticCurve) (op : Option KeyOperation) :
    k.material.SameParts (k.filled alg crv op).material := by
  cases crv with
  | none => exact .same _
  | some crv => exact k.material.sameParts_onCurve crv

theorem curve_filled (k : Key) (alg : Algorithm) (crv : Option EllipticCurve) (op : Option KeyOperation)
    (family : k.hasCurve = true → ∀ c ∈ crv, c.keyType? = some k.keyType) :
    (k.filled alg crv op).curve = if k.hasCurve = true then crv.or k.curve else k.curve := by
  cases crv with
  | none => simp [filled, onCurve?]
  | some c =>
    by_cases h : k.hasCurve = true
    · have on_curve : (k.withAlg alg).hasCurve = true := h
      rw [if_pos h]
      exact curve_onCurve on_curve (family h c rfl)
    · have no_curve : (k.withAlg alg).hasCurve = false := by simpa using h
      rw [if_neg h, filled, onCurve?, onCurve_of_no_curve no_curve]
      rfl

end Key

namespace Resolution

def chosenCurve (key : Key) (request : Request) : Option EllipticCurve :=
  if key.hasCurve then key.curve.or request.curve else none

def agreedKeyOps (key : Key) (peer : Option Key) (request : Request) : Option KeyOperation :=
  (key.keyOps.or request.keyOp).or (peer.bind Key.keyOps)

/-- One of the keys with the values of the configuration, the same in all else. -/
structure Completed (key : Key) (peer : Option Key) (request : Request) (before after : Key) : Prop where
  alg : after.alg = key.alg.or request.alg
  curve : after.curve =
    if key.hasCurve = true ∧ before.hasCurve = true then key.curve.or request.curve else before.curve
  keyOps : after.keyOps = (key.keyOps.or request.keyOp).or (peer.bind Key.keyOps)
  kid : after.kid = before.kid
  baseIv : after.baseIv = before.baseIv
  keyType : after.keyType = before.keyType
  material : before.material.SameParts after.material

section

variable {key : Key} {peer : Option Key} {request : Request}

theorem completed_filled (coherent : Coherent key peer request) {alg : Algorithm}
    (named : key.alg.or request.alg = some alg) {k : Key} (member : k = key ∨ k ∈ peer) :
    Completed key peer request k
      (k.filled alg (chosenCurve key request) (agreedKeyOps key peer request)) := by
  have family (on_curve : k.hasCurve = true) :
      ∀ c ∈ chosenCurve key request, c.keyType? = some k.keyType := by
    intro c chosen
    by_cases h : key.hasCurve = true
    · rw [chosenCurve, if_pos h] at chosen
      have curve := coherent.curve h
      have same : k.keyType = key.keyType := by
        rcases member with rfl | member
        · rfl
        · exact curve.peer_family k member on_curve
      rw [same]
      exact curve.family c chosen
    · simp [chosenCurve, h] at chosen
  have material := k.sameParts_filled alg (chosenCurve key request) (agreedKeyOps key peer request)
  refine ⟨?_, ?_, rfl, ?_, ?_, Key.keyType_of_sameParts material, material⟩
  · rw [named, Key.alg_filled]
  · rw [k.curve_filled _ _ _ family]
    by_cases h : key.hasCurve = true
    · by_cases on_curve : k.hasCurve = true
      · obtain ⟨-, crv, chosen, -⟩ := curveCoherent_iff.mp (coherent.curve h)
        simp [chosenCurve, h, on_curve, chosen]
      · simp [on_curve]
    · simp [chosenCurve, h]
  · cases chosenCurve key request <;> rfl
  · cases chosenCurve key request <;> rfl

theorem completed_unique {k a b : Key} (left : Completed key peer request k a)
    (right : Completed key peer request k b) : a = b := by
  have parts := left.material.symm.trans right.material
  have material := Key.material_eq_of_curve parts (left.curve.trans right.curve.symm)
  exact Key.eq_of_fields material (left.kid.trans right.kid.symm) (left.alg.trans right.alg.symm)
    (left.keyOps.trans right.keyOps.symm) (left.baseIv.trans right.baseIv.symm)

end

end Resolution

end Cose
