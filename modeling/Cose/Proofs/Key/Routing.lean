import Cose.Proofs.Key.RoundTrip

/-!
# How maps find their way of reading

The key type of a map chooses the way in which it is read. Ways of reading may stand under identifiers that they
are not meant for; the key that comes out still has the key type of the map, or there is none. A map that
reaches no way of reading is refused with an error that no way of reading gives.
-/

set_option autoImplicit false

namespace Cose

open Result

inductive AboutFields : Error → Prop
  | keyType (cause : KeyTypeError) : AboutFields (.invalidKeyType cause)
  | algorithm (cause : AlgorithmError) : AboutFields (.invalidAlgorithm cause)
  | keyOperation (cause : KeyOperationError) : AboutFields (.invalidKeyOperation cause)
  | keyParameter (cause : KeyParameterError) : AboutFields (.invalidKeyParameter cause)
  | malformed (cause : MalformedKeyError) : AboutFields (.malformedKey cause)

theorem Algorithm.ofId_fails (n : Int64) : FailsOnly AboutFields (Algorithm.ofId n) := by
  rw [ofId]
  cases ofId? n with
  | none => exact failsOnly_error (.algorithm _)
  | some alg => exact failsOnly_ok alg

theorem KeyOperation.ofId_fails (n : Int64) : FailsOnly AboutFields (KeyOperation.ofId n) := by
  rw [ofId]
  cases ofId? n with
  | none => exact failsOnly_error (.keyOperation _)
  | some op => exact failsOnly_ok op

theorem EllipticCurve.ofId_fails (n : Int64) : FailsOnly AboutFields (EllipticCurve.ofId n) := by
  rw [ofId]
  cases ofId? n with
  | none => exact failsOnly_error (.keyParameter _)
  | some crv => exact failsOnly_ok crv

theorem KeyType.ofId_fails (n : Int64) : FailsOnly AboutFields (KeyType.ofId n) := by
  rw [ofId]
  cases ofId? n with
  | none => exact failsOnly_error (.keyType _)
  | some kty => exact failsOnly_ok kty

theorem Bytes.ofField_fails (name : String) (v : Option Value) :
    FailsOnly AboutFields (Bytes.ofField name v) := by
  rw [ofField.eq_def]
  split
  · exact failsOnly_ok _
  · exact failsOnly_ok _
  · exact failsOnly_error (.keyParameter _)

theorem Algorithm.ofField_fails (v : Option Value) : FailsOnly AboutFields (Algorithm.ofField v) := by
  rw [ofField.eq_def]
  split
  · exact failsOnly_ok _
  · exact (ofId_fails _).map some
  · exact failsOnly_error (.algorithm _)

theorem KeyOperation.ofField_items_fails (items : List Value) :
    FailsOnly AboutFields (KeyOperation.ofField (some (.array items))) := by
  rcases items with _ | ⟨x, _ | ⟨y, items⟩⟩
  · exact failsOnly_ok none
  · rw [ofField_entry]
    cases x.int? with
    | none => exact failsOnly_error (.keyOperation _)
    | some id => exact (ofId_fails id).map some
  · rw [ofField_several]
    exact failsOnly_error (.keyOperation _)

theorem KeyOperation.ofField_fails (v : Option Value) : FailsOnly AboutFields (KeyOperation.ofField v) := by
  cases v with
  | none => exact failsOnly_ok none
  | some v =>
    by_cases scalar : v.kind = .int
    · cases v <;> cases scalar
      exact (ofId_fails _).map some
    · by_cases single : v.kind = .array
      · cases v <;> cases single
        exact ofField_items_fails _
      · rw [ofField_other scalar single]
        exact failsOnly_error (.keyOperation _)

theorem EllipticCurve.within_fails (crv : EllipticCurve) (kty : KeyType) :
    FailsOnly AboutFields (crv.within kty) :=
  failsOnly_dite _ (.keyParameter _)

theorem EllipticCurve.ofField_fails (kty : KeyType) (v : Option Value) :
    FailsOnly AboutFields (EllipticCurve.ofField kty v) := by
  rw [ofField.eq_def]
  split
  · exact failsOnly_ok _
  · exact (ofId_fails _).bind fun crv => (crv.within_fails kty).bind fun crv => failsOnly_ok _
  · exact failsOnly_error (.keyParameter _)

theorem KeyType.expect_fails (expected : KeyType) (m : Map) : FailsOnly AboutFields (KeyType.expect expected m) := by
  rw [expect]
  split
  · exact failsOnly_error (.malformed _)
  · next v _ =>
    have read : FailsOnly AboutFields (KeyType.ofValue v) := by
      rw [ofValue.eq_def]
      split
      · exact ofId_fails _
      · exact failsOnly_error (.keyType _)
    refine read.bind fun found => ?_
    split
    · exact failsOnly_ok ()
    · exact failsOnly_error (.keyType _)

namespace Key

theorem Okp.make_fails (crv : Option (CurveOf .okp)) (x d : Option Bytes) :
    FailsOnly AboutFields (Okp.make crv x d) :=
  failsOnly_dite _ (.malformed _)

theorem Ec2.make_fails (crv : Option (CurveOf .ec2)) (x y d : Option Bytes) :
    FailsOnly AboutFields (Ec2.make crv x y d) :=
  failsOnly_dite _ (.malformed _)

theorem Symmetric.make_fails (k : Bytes) : FailsOnly AboutFields (Symmetric.make k) :=
  failsOnly_dite _ (.malformed _)

theorem Attributes.ofMap_fails (m : Map) : FailsOnly AboutFields (Attributes.ofMap m) := by
  rw [ofMap]
  refine (Bytes.ofField_fails _ _).bind fun kid => ?_
  refine (Algorithm.ofField_fails _).bind fun alg => ?_
  refine (KeyOperation.ofField_fails _).bind fun keyOps => ?_
  refine (Bytes.ofField_fails _ _).bind fun baseIv => ?_
  exact failsOnly_ok _

end Key

theorem Factory.build_fails (f : Factory) (m : Map) : FailsOnly AboutFields (f.build m) := by
  cases f with
  | okp =>
    refine (KeyType.expect_fails _ m).bind fun _ => ?_
    refine (EllipticCurve.ofField_fails _ _).bind fun crv => ?_
    refine (Bytes.ofField_fails _ _).bind fun x => ?_
    refine (Bytes.ofField_fails _ _).bind fun d => ?_
    refine (Key.Okp.make_fails crv x d).bind fun key => ?_
    exact (Key.Attributes.ofMap_fails m).bind fun a => failsOnly_ok _
  | ec2 =>
    refine (KeyType.expect_fails _ m).bind fun _ => ?_
    refine (EllipticCurve.ofField_fails _ _).bind fun crv => ?_
    refine (Bytes.ofField_fails _ _).bind fun x => ?_
    refine (Bytes.ofField_fails _ _).bind fun y => ?_
    refine (Bytes.ofField_fails _ _).bind fun d => ?_
    refine (Key.Ec2.make_fails crv x y d).bind fun key => ?_
    exact (Key.Attributes.ofMap_fails m).bind fun a => failsOnly_ok _
  | symmetric =>
    refine (KeyType.expect_fails _ m).bind fun _ => ?_
    refine (Bytes.ofField_fails _ _).bind fun k => ?_
    cases k with
    | none => exact failsOnly_error (.malformed _)
    | some k =>
      refine (Key.Symmetric.make_fails k).bind fun key => ?_
      exact (Key.Attributes.ofMap_fails m).bind fun a => failsOnly_ok _
  | registered =>
    change FailsOnly AboutFields (Key.registeredOfMap m)
    rw [Key.registeredOfMap.eq_def]
    split
    · exact (Key.Attributes.ofMap_fails m).bind fun a => failsOnly_ok _
    · exact failsOnly_error (.malformed _)

theorem Key.ofRegistered_keyType {f : Factory} {m : Map} {key : Key} (built : f.build m = .ok key) :
    KeyType.ofRegistered key.keyType.id = key.keyType := by
  obtain ⟨fits, -⟩ := (f.build_eq_ok_iff m key).mp built
  cases f with
  | registered =>
    obtain ⟨id, material⟩ := fits
    rw [keyType, material]
    exact congrArg KeyType.ofRegistered (KeyType.id_ofRegistered id)
  | _ =>
    obtain ⟨k, material⟩ := fits
    rw [keyType, material]
    rfl

namespace Registry

/-- Why a map reaches no way of reading. -/
inductive Unroutable (r : Registry) (m : Map) : UnknownKeyTypeError → Prop
  | missing (absent : m.find? Parameter.kty.label = none) : Unroutable r m .missing
  | notInt (v : Value) (held : m.find? Parameter.kty.label = some v) (other : v.kind ≠ .int) :
    Unroutable r m (.notInt v.kind)
  | unregistered (id : Int64) (held : m.find? Parameter.kty.label = some (.int id))
    (free : r.isRegistered id = false) : Unroutable r m (.unregistered id)

theorem decode_of_unroutable {r : Registry} {m : Map} {cause : UnknownKeyTypeError}
    (reason : r.Unroutable m cause) : r.decode m = .error (.keyTypeUnknown cause) := by
  cases reason with
  | missing absent => rw [decode, absent]
  | notInt v held other =>
    rw [decode, held]
    cases v with
    | int id => exact absurd rfl other
    | _ => rfl
  | unregistered id held free =>
    have absent : r.find? id = none := by simpa [isRegistered] using free
    simp only [decode, held, absent]

theorem unroutable_or_routed (r : Registry) (m : Map) :
    (∃ cause, r.Unroutable m cause) ∨
      ∃ id reg, m.find? Parameter.kty.label = some (.int id) ∧ r.find? id = some reg := by
  cases held : m.find? Parameter.kty.label with
  | none => exact Or.inl ⟨.missing, .missing held⟩
  | some v =>
    cases v with
    | int id =>
      cases found : r.find? id with
      | none =>
        have free : r.isRegistered id = false := by rw [isRegistered, found, Option.isSome_none]
        exact Or.inl ⟨.unregistered id, .unregistered id held free⟩
      | some reg => exact Or.inr ⟨id, reg, rfl, found⟩
    | _ => exact Or.inl ⟨_, .notInt _ held (by simp [Value.kind])⟩

theorem decode_of_routed {r : Registry} {m : Map} {id : Int64} {reg : Registration}
    (held : m.find? Parameter.kty.label = some (.int id)) (found : r.find? id = some reg) :
    r.decode m = reg.factory.build m := by
  simp only [decode, held, found]
  rfl

theorem decode_unknown_iff (r : Registry) (m : Map) (cause : UnknownKeyTypeError) :
    r.decode m = .error (.keyTypeUnknown cause) ↔ r.Unroutable m cause := by
  constructor
  · intro refused
    rcases r.unroutable_or_routed m with ⟨found, reason⟩ | ⟨id, reg, held, found⟩
    · have same := (decode_of_unroutable reason).symm.trans refused
      obtain rfl : found = cause := by simpa using same
      exact reason
    · have about := reg.factory.build_fails m _ ((decode_of_routed held found).symm.trans refused)
      cases about
  · exact decode_of_unroutable

/-- Whatever ways of reading a registry has under whatever identifiers: a key that is read has the key type of its
map, which is registered, as the registry names it; and it is of a built-in kind only under the identifier of
that kind. A map is refused as one of unknown key type exactly if its key type is absent, no number or not
registered. -/
theorem decode_routed (r : Registry) (m : Map) :
    (∀ key, r.decode m = .ok key →
      m.find? Parameter.kty.label = some (.int key.keyType.id) ∧
      r.isRegistered key.keyType.id = true ∧
      r.keyType? key.keyType.id = some key.keyType ∧
      (key.IsOkp → key.keyType.id = 1) ∧
      (key.IsEc2 → key.keyType.id = 2) ∧
      ∀ k, key.IsSymmetric k → key.keyType.id = 4) ∧
    ∀ cause, r.decode m = .error (.keyTypeUnknown cause) ↔ r.Unroutable m cause := by
  refine ⟨?_, decode_unknown_iff r m⟩
  intro key read
  obtain ⟨reg, found, built⟩ := (r.decode_eq_ok_iff m key).mp read
  have registered : r.isRegistered key.keyType.id = true := by rw [isRegistered, found, Option.isSome_some]
  refine ⟨Key.keyType_of_build built, registered, ?_, ?_, ?_, ?_⟩
  · rw [keyType?, if_pos registered, Key.ofRegistered_keyType built]
  · rintro ⟨k, material⟩
    rw [Key.keyType, material]
    rfl
  · rintro ⟨k, material⟩
    rw [Key.keyType, material]
    rfl
  · rintro _ ⟨k, material, -⟩
    rw [Key.keyType, material]
    rfl

theorem decode_routed_extended :
    let r := builtin.extendAll [⟨3, "RSA", .registered⟩, ⟨-70000, "linked-test", .okp⟩]
    (∃ key, r.decode [(.int 1, .int 3), (.text "n", .null)] = .ok key ∧ key.keyType.id = 3 ∧
      r.keyType? key.keyType.id = some key.keyType) ∧
    (∀ key, r.decode [(.int (-2), .bytes [7]), (.int 1, .int (-70000))] = .ok key → ¬ key.IsOkp) ∧
    r.decode [(.int 1, .int 7)] = .error (.keyTypeUnknown (.unregistered 7)) := by
  intro r
  refine ⟨?_, ?_, ?_⟩
  · have read : r.decode [(.int 1, .int 3), (.text "n", .null)] =
        .ok ⟨.registered ⟨.rsa, [(.text "n", .null)]⟩, .none⟩ := by decide +kernel
    obtain ⟨-, -, named, -⟩ := (decode_routed r _).1 _ read
    exact ⟨_, read, rfl, named⟩
  · intro key read okp
    obtain ⟨held, -, -, one, -⟩ := (decode_routed r _).1 key read
    rw [one okp] at held
    exact absurd held (by decide)
  · exact ((decode_routed r _).2 _).mpr (.unregistered 7 rfl rfl)

end Registry

end Cose
