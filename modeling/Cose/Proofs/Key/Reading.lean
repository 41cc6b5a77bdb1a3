import Cose.Key.Registry
import Cose.Proofs.Key.Fields
import Cose.Proofs.Key.Written

/-!
# What reading a key accepts

A field is read as a value exactly if it stands there as that value is written; only the operation has other
spellings. So a map is read as a key exactly if it holds the parameters of the key, and what else it holds
plays no part, except for the further parameters of a registered key.
-/

set_option autoImplicit false

namespace Cose

open Result

/-! Identifiers are read back from their numbers. -/

theorem Algorithm.ofId_eq_ok_iff (n : Int64) (alg : Algorithm) :
    Algorithm.ofId n = .ok alg ↔ n = alg.id := by
  rw [← ofId?_eq_some_iff, ofId]
  cases ofId? n <;> simp

theorem KeyOperation.ofId_eq_ok_iff (n : Int64) (op : KeyOperation) :
    KeyOperation.ofId n = .ok op ↔ n = op.id := by
  rw [← ofId?_eq_some_iff, ofId]
  cases ofId? n <;> simp

theorem EllipticCurve.ofId_eq_ok_iff (n : Int64) (crv : EllipticCurve) :
    EllipticCurve.ofId n = .ok crv ↔ n = crv.id := by
  rw [← ofId?_eq_some_iff, ofId]
  cases ofId? n <;> simp

theorem KeyType.ofId_eq_ok_iff (n : Int64) (kty : KeyType) :
    KeyType.ofId n = .ok kty ↔ n = kty.id ∧ kty ∈ assigned := by
  rw [← ofId?_eq_some_iff, ofId]
  cases ofId? n <;> simp

theorem KeyType.id_ofRegistered (n : Int64) : (ofRegistered n).id = n := by
  rw [ofRegistered]
  cases found : ofId? n with
  | none => rfl
  | some kty => exact ((ofId?_eq_some_iff n kty).mp found).1.symm

/-! A field is read as what is written for it. -/

theorem Bytes.ofField_eq_ok_iff (name : String) (v : Option Value) (bs : Option Bytes) :
    Bytes.ofField name v = .ok bs ↔ v = bs.map .bytes := by
  rcases v with _ | v
  · cases bs <;> simp [ofField]
  · cases v <;> cases bs <;> simp [ofField]

theorem Algorithm.ofField_eq_ok_iff (v : Option Value) (alg : Option Algorithm) :
    Algorithm.ofField v = .ok alg ↔ v = alg.map fun alg => .int alg.id := by
  rcases v with _ | v
  · cases alg <;> simp [ofField]
  · cases v <;> cases alg <;> simp [ofField, map_eq_ok_iff, ofId_eq_ok_iff]

theorem EllipticCurve.ofField_eq_ok_iff (kty : KeyType) (v : Option Value) (crv : Option (CurveOf kty)) :
    EllipticCurve.ofField kty v = .ok crv ↔ v = crv.map fun c => .int c.val.id := by
  rcases v with _ | v
  · cases crv <;> simp [ofField]
  · cases v <;> cases crv <;>
      simp [ofField, bind_eq_ok_iff, ofId_eq_ok_iff, within_eq_ok_iff]

/-- The value that a key writes where this one was read as its operation: the operation in an array, and nothing
for an empty array. -/
def KeyOperation.restated (v : Value) : Option Value :=
  match v.int? with
  | some id => some (.array [.int id])
  | none => if v = .array [] then none else some v

/-! The shapes in which an operation may come, one after the other. -/

theorem KeyOperation.ofField_int (id : Int64) : ofField (some (.int id)) = (ofId id).map some := rfl

theorem KeyOperation.ofField_nil : ofField (some (.array [])) = .ok none := rfl

theorem KeyOperation.ofField_entry (x : Value) : ofField (some (.array [x])) =
    match x.int? with
    | some id => (ofId id).map some
    | none => .error (.invalidKeyOperation .entryNotInt) := by
  cases x <;> rfl

theorem KeyOperation.ofField_several (x y : Value) (items : List Value) :
    ofField (some (.array (x :: y :: items))) = .error (.invalidKeyOperation .several) := by
  cases x <;> rfl

theorem KeyOperation.ofField_other {v : Value} (scalar : v.kind ≠ .int) (single : v.kind ≠ .array) :
    ofField (some v) = .error (.invalidKeyOperation (.notIntOrArray v.kind)) := by
  cases v with
  | int id => exact absurd rfl scalar
  | array items => exact absurd rfl single
  | _ => rfl

theorem KeyOperation.restated_other {v : Value} (scalar : v.kind ≠ .int) (single : v.kind ≠ .array) :
    restated v = some v := by
  cases v with
  | int id => exact absurd rfl scalar
  | array items => exact absurd rfl single
  | _ => rfl

theorem KeyOperation.ofField_items_eq_ok_iff (items : List Value) (op : Option KeyOperation) :
    ofField (some (.array items)) = .ok op ↔
      restated (.array items) = op.map fun op => .array [.int op.id] := by
  rcases items with _ | ⟨x, _ | ⟨y, items⟩⟩
  · rw [ofField_nil]
    cases op <;> simp [restated, Value.int?]
  · rw [ofField_entry]
    cases x <;> cases op <;> simp [restated, Value.int?, map_eq_ok_iff, ofId_eq_ok_iff]
  · rw [ofField_several]
    cases op <;> simp [restated, Value.int?]

theorem KeyOperation.ofField_eq_ok_iff (v : Option Value) (op : Option KeyOperation) :
    KeyOperation.ofField v = .ok op ↔ v.bind restated = op.map fun op => .array [.int op.id] := by
  rcases v with _ | v
  · have absent : ofField none = .ok none := rfl
    cases op <;> simp [absent]
  · by_cases scalar : v.kind = .int
    · cases v <;> cases scalar
      rw [ofField_int]
      cases op <;> simp [restated, Value.int?, map_eq_ok_iff, ofId_eq_ok_iff]
    · by_cases single : v.kind = .array
      · cases v <;> cases single
        exact ofField_items_eq_ok_iff _ op
      · rw [ofField_other scalar single, Option.bind_some, restated_other scalar single]
        have no_array : ∀ i, v ≠ .array [.int i] := by
          rintro i rfl
          exact single rfl
        cases op <;> simp [no_array]

theorem KeyType.expect_eq_ok_iff {expected : KeyType} (known : expected ∈ assigned) (m : Map) :
    KeyType.expect expected m = .ok () ↔ m.find? Parameter.kty.label = some (.int expected.id) := by
  rw [expect]
  cases m.find? Parameter.kty.label with
  | none => simp
  | some v =>
    cases v with
    | int id =>
      simp only [ofValue, bind_eq_ok_iff, ofId_eq_ok_iff, Option.some.injEq, Value.int.injEq]
      constructor
      · rintro ⟨kty, ⟨rfl, -⟩, same⟩
        split_ifs at same with h
        rw [h]
      · rintro rfl
        exact ⟨expected, ⟨rfl, known⟩, if_pos rfl⟩
    | _ => simp [ofValue]

namespace Key

theorem Okp.make_eq_ok_iff (crv : Option (CurveOf .okp)) (x d : Option Bytes) (k : Okp) :
    Okp.make crv x d = .ok k ↔ crv = k.crv ∧ x = k.x ∧ d = k.d := by
  obtain ⟨crv', x', d', material⟩ := k
  rw [make]
  split
  · simp
  · next missing =>
    simp only [reduceCtorEq, false_iff]
    rintro ⟨rfl, rfl, rfl⟩
    exact missing material

theorem Ec2.make_eq_ok_iff (crv : Option (CurveOf .ec2)) (x y d : Option Bytes) (k : Ec2) :
    Ec2.make crv x y d = .ok k ↔ crv = k.crv ∧ x = k.x ∧ y = k.y ∧ d = k.d := by
  obtain ⟨crv', x', y', d', material⟩ := k
  rw [make]
  split
  · simp
  · next missing =>
    simp only [reduceCtorEq, false_iff]
    rintro ⟨rfl, rfl, rfl, rfl⟩
    exact missing material

theorem Symmetric.make_eq_ok_iff (bs : Bytes) (k : Symmetric) : Symmetric.make bs = .ok k ↔ bs = k.k := by
  obtain ⟨k', nonempty⟩ := k
  rw [make]
  split
  · simp
  · next empty =>
    simp only [reduceCtorEq, false_iff]
    rintro rfl
    exact empty nonempty

def restated (l : Label) (v : Value) : Option Value :=
  if l = .int Parameter.keyOps.label then KeyOperation.restated v else some v

theorem restated_of_ne {l : Label} (h : l ≠ .int Parameter.keyOps.label) : restated l = some := by
  funext v
  rw [restated, if_neg h]

theorem restated_label {p : Parameter} (h : p ≠ .keyOps) : restated (.int p.label) = some := by
  apply restated_of_ne
  cases p with
  | keyOps => exact absurd rfl h
  | _ => decide

theorem restated_keyOps : restated (.int Parameter.keyOps.label) = KeyOperation.restated := by
  funext v
  rw [restated, if_pos rfl]

theorem Attributes.ofMap_eq_ok_iff_fields (m : Map) (a : Attributes) : Attributes.ofMap m = .ok a ↔
    m.find? Parameter.kid.label = a.kid.map .bytes ∧
    (m.find? Parameter.alg.label = a.alg.map fun alg => .int alg.id) ∧
    KeyOperation.ofField (m.find? Parameter.keyOps.label) = .ok a.keyOps ∧
    m.find? Parameter.baseIv.label = a.baseIv.map .bytes := by
  obtain ⟨kid, alg, keyOps, baseIv⟩ := a
  simp [ofMap, bind_eq_ok_iff, Bytes.ofField_eq_ok_iff, Algorithm.ofField_eq_ok_iff]

theorem Attributes.ofMap_eq_ok_iff (m : Map) (a : Attributes) :
    Attributes.ofMap m = .ok a ↔ ∀ p ∈ [Parameter.kid, .alg, .keyOps, .baseIv],
      (m.find? p.label).bind (restated (.int p.label)) = a.value? p := by
  rw [ofMap_eq_ok_iff_fields, KeyOperation.ofField_eq_ok_iff]
  simp [restated_keyOps, restated_label, value?]

theorem uncommon_of_mem {material : Material} {p : Int64 × Option Value} (hp : p ∈ material.parameters) :
    isCommonLabel (.int p.1) = false := by
  cases material with
  | okp k =>
    simp only [Material.parameters, List.mem_cons, List.not_mem_nil, or_false] at hp
    rcases hp with rfl | rfl | rfl <;> rfl
  | ec2 k =>
    simp only [Material.parameters, List.mem_cons, List.not_mem_nil, or_false] at hp
    rcases hp with rfl | rfl | rfl | rfl <;> rfl
  | symmetric k =>
    obtain rfl := List.mem_singleton.mp hp
    rfl
  | registered k => cases hp

theorem restated_of_uncommon {l : Label} (h : isCommonLabel l = false) : restated l = some := by
  apply restated_of_ne
  rintro rfl
  cases h

def ReadFrom (key : Key) (m : Map) : Prop :=
  ∀ p ∈ key.parameters, (m.find? p.1).bind (restated (.int p.1)) = p.2

theorem readFrom_iff (key : Key) (m : Map) : key.ReadFrom m ↔
    m.find? Parameter.kty.label = some (.int key.keyType.id) ∧ Attributes.ofMap m = .ok key.attributes ∧
      ∀ p ∈ key.material.parameters, m.find? p.1 = p.2 := by
  rw [ReadFrom, parameters, List.forall_mem_append, Attributes.ofMap_eq_ok_iff, ← and_assoc]
  refine and_congr ?_ ?_
  · rw [commonParameters, List.forall_mem_cons, List.forall_mem_map]
    rw [restated_label (by decide), Option.bind_fun_some]
  · refine forall₂_congr fun p hp => ?_
    rw [restated_of_uncommon (uncommon_of_mem hp), Option.bind_fun_some]

/-! What the factories accept. -/

theorem okpOfMap_eq_ok_iff (m : Map) (key : Key) :
    okpOfMap m = .ok key ↔ (∃ k, key.material = .okp k) ∧ key.ReadFrom m := by
  obtain ⟨material, attributes⟩ := key
  simp only [okpOfMap, bind_eq_ok_iff, KeyType.expect_eq_ok_iff (by decide : KeyType.okp ∈ KeyType.assigned),
    EllipticCurve.ofField_eq_ok_iff, Bytes.ofField_eq_ok_iff, Okp.make_eq_ok_iff, readFrom_iff]
  constructor
  · rintro ⟨-, kty, crv, curve, x, left, d, right, k, ⟨rfl, rfl, rfl⟩, a, common, made⟩
    obtain ⟨rfl, rfl⟩ := Key.mk.inj (Except.ok.inj made)
    refine ⟨⟨k, rfl⟩, kty, common, ?_⟩
    simp [Material.parameters, curve, left, right]
  · rintro ⟨⟨k, rfl⟩, kty, common, own⟩
    simp only [Material.parameters, List.forall_mem_cons] at own
    obtain ⟨curve, left, right, -⟩ := own
    exact ⟨(), kty, k.crv, curve, k.x, left, k.d, right, k, ⟨rfl, rfl, rfl⟩, attributes, common, rfl⟩

theorem ec2OfMap_eq_ok_iff (m : Map) (key : Key) :
    ec2OfMap m = .ok key ↔ (∃ k, key.material = .ec2 k) ∧ key.ReadFrom m := by
  obtain ⟨material, attributes⟩ := key
  simp only [ec2OfMap, bind_eq_ok_iff, KeyType.expect_eq_ok_iff (by decide : KeyType.ec2 ∈ KeyType.assigned),
    EllipticCurve.ofField_eq_ok_iff, Bytes.ofField_eq_ok_iff, Ec2.make_eq_ok_iff, readFrom_iff]
  constructor
  · rintro ⟨-, kty, crv, curve, x, left, y, right, d, scalar, k, ⟨rfl, rfl, rfl, rfl⟩, a, common, made⟩
    obtain ⟨rfl, rfl⟩ := Key.mk.inj (Except.ok.inj made)
    refine ⟨⟨k, rfl⟩, kty, common, ?_⟩
    simp [Material.parameters, curve, left, right, scalar]
  · rintro ⟨⟨k, rfl⟩, kty, common, own⟩
    simp only [Material.parameters, List.forall_mem_cons] at own
    obtain ⟨curve, left, right, scalar, -⟩ := own
    exact ⟨(), kty, k.crv, curve, k.x, left, k.y, right, k.d, scalar, k, ⟨rfl, rfl, rfl, rfl⟩, attributes,
      common, rfl⟩

theorem symmetricOfMap_eq_ok_iff (m : Map) (key : Key) :
    symmetricOfMap m = .ok key ↔ (∃ k, key.material = .symmetric k) ∧ key.ReadFrom m := by
  obtain ⟨material, attributes⟩ := key
  simp only [symmetricOfMap, bind_eq_ok_iff,
    KeyType.expect_eq_ok_iff (by decide : KeyType.symmetric ∈ KeyType.assigned), Bytes.ofField_eq_ok_iff,
    readFrom_iff]
  constructor
  · rintro ⟨-, kty, bs, held, made⟩
    cases bs with
    | none => cases made
    | some bs =>
      simp only [bind_eq_ok_iff, Symmetric.make_eq_ok_iff] at made
      obtain ⟨k, rfl, a, common, made⟩ := made
      obtain ⟨rfl, rfl⟩ := Key.mk.inj (Except.ok.inj made)
      refine ⟨⟨k, rfl⟩, kty, common, ?_⟩
      simp [Material.parameters, held]
  · rintro ⟨⟨k, rfl⟩, kty, common, own⟩
    have held : m.find? kLabel = some (.bytes k.k) := own _ List.mem_cons_self
    refine ⟨(), kty, some k.k, held, ?_⟩
    simp only [bind_eq_ok_iff, Symmetric.make_eq_ok_iff]
    exact ⟨k, rfl, attributes, common, rfl⟩

theorem registeredOfMap_eq_ok_iff (m : Map) (key : Key) :
    registeredOfMap m = .ok key ↔
      (∃ id, key.material =
        .registered ⟨KeyType.ofRegistered id, m.filter (fun e => !isCommonLabel e.1)⟩) ∧ key.ReadFrom m := by
  obtain ⟨material, attributes⟩ := key
  rw [registeredOfMap, readFrom_iff]
  constructor
  · intro read
    split at read
    · next id kty =>
      obtain ⟨a, common, made⟩ := bind_eq_ok_iff.mp read
      obtain ⟨rfl, rfl⟩ := Key.mk.inj (Except.ok.inj made)
      refine ⟨⟨id, rfl⟩, ?_, common, List.forall_mem_nil _⟩
      rw [kty, keyType, KeyType.id_ofRegistered]
    · cases read
  · rintro ⟨⟨id, rfl⟩, kty, common, -⟩
    rw [keyType, KeyType.id_ofRegistered] at kty
    rw [kty]
    exact bind_eq_ok_iff.mpr ⟨attributes, common, rfl⟩

end Key

end Cose
