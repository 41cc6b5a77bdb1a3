import Cose.Proofs.Key.Routing

/-!
# The maps of the built-in key types

Which maps are keys is said here by the labels and the numbers in them, without regard to the way in which they
are read. The built-in registry accepts these maps and no others, the key that it makes of one holds what stands
there, and what else stands in the map makes no difference.
-/

set_option autoImplicit false

namespace Cose

open Result

namespace Value

def IsBytes (v : Value) : Prop := ∃ bs, v = .bytes bs

def IsNumberIn (numbers : List Int64) (v : Value) : Prop := ∃ n ∈ numbers, v = .int n

inductive IsOperation : Value → Prop
  | none : IsOperation (.array [])
  | alone (n : Int64) (known : 1 ≤ n ∧ n ≤ 10) : IsOperation (.int n)
  | entry (n : Int64) (known : 1 ≤ n ∧ n ≤ 10) : IsOperation (.array [.int n])

end Value

namespace Map

variable (m : Map)

def Present (label : Int64) : Prop := (m.find? label).isSome = true

/-- The label is absent, or what stands under it is of this kind. -/
def Optional (label : Int64) (kind : Value → Prop) : Prop := ∀ v, m.find? label = some v → kind v

structure CommonFields : Prop where
  kid : m.Optional 2 Value.IsBytes
  alg : m.Optional 3 fun v => ∃ alg : Algorithm, v = .int alg.id
  keyOps : m.Optional 4 Value.IsOperation
  baseIv : m.Optional 5 Value.IsBytes

/-- The key type with what belongs to it: a curve of its own and enough of the key material. -/
inductive OwnFields : Prop
  | okp (kty : m.find? 1 = some (.int 1)) (crv : m.Optional (-1) (Value.IsNumberIn [4, 5, 6, 7]))
    (x : m.Optional (-2) Value.IsBytes) (d : m.Optional (-4) Value.IsBytes)
    (material : m.Present (-2) ∨ m.Present (-4))
  | ec2 (kty : m.find? 1 = some (.int 2)) (crv : m.Optional (-1) (Value.IsNumberIn [1, 2, 3, 8]))
    (x : m.Optional (-2) Value.IsBytes) (y : m.Optional (-3) Value.IsBytes) (d : m.Optional (-4) Value.IsBytes)
    (material : m.Present (-2) ∧ m.Present (-3) ∨ m.Present (-4))
  | symmetric (kty : m.find? 1 = some (.int 4)) (k : Bytes) (nonempty : k ≠ [])
    (held : m.find? (-1) = some (.bytes k))

/-- The labels that have a meaning for the key type of the map. -/
def meaningful : List Int64 :=
  if m.find? 1 = some (.int 1) then [1, 2, 3, 4, 5, -1, -2, -4]
  else if m.find? 1 = some (.int 2) then [1, 2, 3, 4, 5, -1, -2, -3, -4]
  else if m.find? 1 = some (.int 4) then [1, 2, 3, 4, 5, -1]
  else [1]

theorem optional_iff {α : Type} {kind : Value → Prop} {write : α → Value}
    (written : ∀ v, kind v ↔ ∃ a, v = write a) (label : Int64) :
    m.Optional label kind ↔ ∃ a : Option α, m.find? label = a.map write := by
  rw [Optional]
  cases m.find? label with
  | none =>
    simp only [reduceCtorEq, false_imp_iff, implies_true, true_iff]
    exact ⟨none, rfl⟩
  | some v =>
    simp only [Option.some.injEq, forall_eq', written, Option.exists, Option.map_none, Option.map_some,
      reduceCtorEq, false_or]

theorem optional_bytes_iff (label : Int64) :
    m.Optional label Value.IsBytes ↔ ∃ bs : Option Bytes, m.find? label = bs.map .bytes :=
  m.optional_iff (fun v => Iff.refl v.IsBytes) label

end Map

namespace Key

inductive Material.HeldIn (m : Map) : Material → Prop
  | okp (k : Okp) (kty : m.find? 1 = some (.int 1)) (crv : m.find? (-1) = k.crv.map fun c => .int c.val.id)
    (x : m.find? (-2) = k.x.map .bytes) (d : m.find? (-4) = k.d.map .bytes) : HeldIn m (.okp k)
  | ec2 (k : Ec2) (kty : m.find? 1 = some (.int 2)) (crv : m.find? (-1) = k.crv.map fun c => .int c.val.id)
    (x : m.find? (-2) = k.x.map .bytes) (y : m.find? (-3) = k.y.map .bytes) (d : m.find? (-4) = k.d.map .bytes) :
    HeldIn m (.ec2 k)
  | symmetric (k : Symmetric) (kty : m.find? 1 = some (.int 4)) (held : m.find? (-1) = some (.bytes k.k)) :
    HeldIn m (.symmetric k)

/-- Whatever the key carries stands in the map, and whatever stands there under a label of the key it carries. -/
structure HeldIn (key : Key) (m : Map) : Prop where
  kid : m.find? 2 = key.kid.map .bytes
  alg : m.find? 3 = key.alg.map fun alg => .int alg.id
  keyOps : ∀ op, key.keyOps = some op ↔
    m.find? 4 = some (.int op.id) ∨ m.find? 4 = some (.array [.int op.id])
  baseIv : m.find? 5 = key.baseIv.map .bytes
  material : key.material.HeldIn m

end Key

/-! The numbers of operations and curves. -/

theorem KeyOperation.exists_id_iff (n : Int64) :
    (∃ op : KeyOperation, n = op.id) ↔ 1 ≤ n ∧ n ≤ 10 := by
  constructor
  · rintro ⟨op, rfl⟩
    cases op <;> decide
  · intro range
    have number : n = 1 ∨ n = 2 ∨ n = 3 ∨ n = 4 ∨ n = 5 ∨ n = 6 ∨ n = 7 ∨ n = 8 ∨ n = 9 ∨ n = 10 := by
      simp only [Int64.le_iff_toInt_le, ← Int64.toInt_inj, Int64.reduceToInt] at range ⊢
      omega
    rcases number with rfl | rfl | rfl | rfl | rfl | rfl | rfl | rfl | rfl | rfl
    exacts [⟨.sign, rfl⟩, ⟨.verify, rfl⟩, ⟨.encrypt, rfl⟩, ⟨.decrypt, rfl⟩, ⟨.wrap, rfl⟩, ⟨.unwrap, rfl⟩,
      ⟨.deriveKey, rfl⟩, ⟨.deriveBits, rfl⟩, ⟨.macCreate, rfl⟩, ⟨.macVerify, rfl⟩]

theorem KeyOperation.id_injective {a b : KeyOperation} (same : a.id = b.id) : a = b := by
  have found := (ofId?_id a).symm.trans ((congrArg ofId? same).trans (ofId?_id b))
  exact Option.some.inj found

theorem EllipticCurve.isNumberIn_iff (kty : KeyType) (v : Value) :
    v.IsNumberIn ((all.filter fun c => c.keyType? = some kty).map id) ↔ ∃ c : CurveOf kty, v = .int c.val.id := by
  simp only [Value.IsNumberIn, List.mem_map, List.mem_filter, mem_all, true_and, decide_eq_true_eq]
  constructor
  · rintro ⟨_, ⟨c, family, rfl⟩, rfl⟩
    exact ⟨⟨c, family⟩, rfl⟩
  · rintro ⟨⟨c, family⟩, rfl⟩
    exact ⟨c.id, ⟨c, family, rfl⟩, rfl⟩

/-! The operation, which comes in more than one shape. -/

theorem KeyOperation.restated_eq_none_iff (v : Value) : restated v = none ↔ v = .array [] := by
  cases v <;> simp [restated, Value.int?]

theorem KeyOperation.restated_eq_entry_iff (v : Value) (n : Int64) :
    restated v = some (.array [.int n]) ↔ v = .int n ∨ v = .array [.int n] := by
  cases v <;> simp [restated, Value.int?]
  rintro rfl
  simp

theorem KeyOperation.ofField_accepts_iff (v : Option Value) :
    (∃ op, KeyOperation.ofField v = .ok op) ↔ ∀ w, v = some w → w.IsOperation := by
  simp only [ofField_eq_ok_iff]
  cases v with
  | none => simp
  | some v =>
    simp only [Option.bind_some, Option.exists, Option.map_none, Option.map_some, restated_eq_none_iff,
      restated_eq_entry_iff, Option.some.injEq, forall_eq']
    constructor
    · rintro (rfl | ⟨op, rfl | rfl⟩)
      · exact .none
      · exact .alone op.id ((exists_id_iff _).mp ⟨op, rfl⟩)
      · exact .entry op.id ((exists_id_iff _).mp ⟨op, rfl⟩)
    · rintro (_ | ⟨n, known⟩ | ⟨n, known⟩)
      · exact Or.inl rfl
      · obtain ⟨op, rfl⟩ := (exists_id_iff n).mpr known
        exact Or.inr ⟨op, Or.inl rfl⟩
      · obtain ⟨op, rfl⟩ := (exists_id_iff n).mpr known
        exact Or.inr ⟨op, Or.inr rfl⟩

theorem KeyOperation.eq_some_iff_of_ofField {v : Option Value} {held : Option KeyOperation}
    (read : KeyOperation.ofField v = .ok held) (op : KeyOperation) :
    held = some op ↔ v = some (.int op.id) ∨ v = some (.array [.int op.id]) := by
  have written := (ofField_eq_ok_iff v held).mp read
  have same : held = some op ↔ v.bind restated = some (.array [.int op.id]) := by
    rw [written]
    cases held with
    | none => simp
    | some o =>
      simp only [Option.map_some, Option.some.injEq, Value.array.injEq, List.cons.injEq, Value.int.injEq,
        and_true]
      exact ⟨congrArg id, id_injective⟩
  rw [same, Option.bind_eq_some_iff]
  simp only [restated_eq_entry_iff, and_or_left, exists_or, exists_eq_right]

namespace Key

variable {m : Map}

theorem Attributes.ofMap_accepts_iff (m : Map) : (∃ a, Attributes.ofMap m = .ok a) ↔ m.CommonFields := by
  have bytes := m.optional_bytes_iff
  have number := m.optional_iff (fun v => Iff.refl (∃ alg : Algorithm, v = .int alg.id)) 3
  simp only [ofMap_eq_ok_iff_fields]
  constructor
  · rintro ⟨a, kid, alg, keyOps, baseIv⟩
    refine ⟨(bytes 2).mpr ⟨_, kid⟩, number.mpr ⟨_, alg⟩, ?_, (bytes 5).mpr ⟨_, baseIv⟩⟩
    exact (KeyOperation.ofField_accepts_iff _).mp ⟨_, keyOps⟩
  · rintro ⟨kid, alg, keyOps, baseIv⟩
    obtain ⟨kid, held_kid⟩ := (bytes 2).mp kid
    obtain ⟨alg, held_alg⟩ := number.mp alg
    obtain ⟨op, held_op⟩ := (KeyOperation.ofField_accepts_iff _).mpr keyOps
    obtain ⟨iv, held_iv⟩ := (bytes 5).mp baseIv
    exact ⟨⟨kid, alg, op, iv⟩, held_kid, held_alg, held_op, held_iv⟩

theorem Material.heldIn_iff (material : Material) (m : Map) : material.HeldIn m ↔
    (∀ k, material ≠ .registered k) ∧ m.find? 1 = some (.int (bare material).keyType.id) ∧
      ∀ p ∈ material.parameters, m.find? p.1 = p.2 := by
  cases material with
  | okp k =>
    simp only [parameters, List.forall_mem_cons]
    constructor
    · intro held
      cases held with
      | okp _ kty crv x d => exact ⟨by simp, kty, crv, x, d, List.forall_mem_nil _⟩
    · rintro ⟨-, kty, crv, x, d, -⟩
      exact .okp k kty crv x d
  | ec2 k =>
    simp only [parameters, List.forall_mem_cons]
    constructor
    · intro held
      cases held with
      | ec2 _ kty crv x y d => exact ⟨by simp, kty, crv, x, y, d, List.forall_mem_nil _⟩
    · rintro ⟨-, kty, crv, x, y, d, -⟩
      exact .ec2 k kty crv x y d
  | symmetric k =>
    simp only [parameters, List.forall_mem_cons]
    constructor
    · intro held
      cases held with
      | symmetric _ kty held => exact ⟨by simp, kty, held, List.forall_mem_nil _⟩
    · rintro ⟨-, kty, held, -⟩
      exact .symmetric k kty held
  | registered k =>
    constructor
    · rintro ⟨⟩
    · rintro ⟨own, -⟩
      exact absurd rfl (own k)

theorem present_iff {label : Int64} {part : Option Bytes} (held : m.find? label = part.map .bytes) :
    m.Present label ↔ part.isSome = true := by
  rw [Map.Present, held, Option.isSome_map]

theorem Material.exists_heldIn_iff (m : Map) : (∃ material : Material, material.HeldIn m) ↔ m.OwnFields := by
  have bytes := m.optional_bytes_iff
  have okp_curve := m.optional_iff (EllipticCurve.isNumberIn_iff .okp) (-1)
  have ec2_curve := m.optional_iff (EllipticCurve.isNumberIn_iff .ec2) (-1)
  constructor
  · rintro ⟨_, held⟩
    cases held with
    | okp k kty crv x d =>
      refine .okp kty (okp_curve.mpr ⟨_, crv⟩) ((bytes _).mpr ⟨_, x⟩) ((bytes _).mpr ⟨_, d⟩) ?_
      rw [present_iff x, present_iff d]
      exact k.material
    | ec2 k kty crv x y d =>
      refine .ec2 kty (ec2_curve.mpr ⟨_, crv⟩) ((bytes _).mpr ⟨_, x⟩) ((bytes _).mpr ⟨_, y⟩)
        ((bytes _).mpr ⟨_, d⟩) ?_
      rw [present_iff x, present_iff y, present_iff d]
      exact k.material
    | symmetric k kty held => exact .symmetric kty k.k k.nonempty held
  · intro own
    cases own with
    | okp kty crv x d material =>
      obtain ⟨crv, held_crv⟩ := okp_curve.mp crv
      obtain ⟨x, held_x⟩ := (bytes _).mp x
      obtain ⟨d, held_d⟩ := (bytes _).mp d
      rw [present_iff held_x, present_iff held_d] at material
      exact ⟨_, .okp ⟨crv, x, d, material⟩ kty held_crv held_x held_d⟩
    | ec2 kty crv x y d material =>
      obtain ⟨crv, held_crv⟩ := ec2_curve.mp crv
      obtain ⟨x, held_x⟩ := (bytes _).mp x
      obtain ⟨y, held_y⟩ := (bytes _).mp y
      obtain ⟨d, held_d⟩ := (bytes _).mp d
      rw [present_iff held_x, present_iff held_y, present_iff held_d] at material
      exact ⟨_, .ec2 ⟨crv, x, y, d, material⟩ kty held_crv held_x held_y held_d⟩
    | symmetric kty k nonempty held => exact ⟨_, .symmetric ⟨k, nonempty⟩ kty held⟩

end Key

/-! Each way of reading looks under its own labels only. -/

section

variable {m n : Map}

theorem KeyType.expect_congr (kty : KeyType) (agree : n.find? 1 = m.find? 1) :
    KeyType.expect kty n = KeyType.expect kty m := by
  simp only [expect, Parameter.label, agree]

namespace Key

theorem Attributes.ofMap_congr (agree : ∀ l ∈ ([2, 3, 4, 5] : List Int64), n.find? l = m.find? l) :
    Attributes.ofMap n = Attributes.ofMap m := by
  simp only [List.forall_mem_cons] at agree
  obtain ⟨kid, alg, keyOps, baseIv, -⟩ := agree
  simp only [ofMap, Parameter.label, kid, alg, keyOps, baseIv]

theorem okpOfMap_congr (agree : ∀ l ∈ ([1, 2, 3, 4, 5, -1, -2, -4] : List Int64), n.find? l = m.find? l) :
    okpOfMap n = okpOfMap m := by
  simp only [List.forall_mem_cons] at agree
  obtain ⟨kty, kid, alg, keyOps, baseIv, crv, x, d, -⟩ := agree
  have attributes : Attributes.ofMap n = Attributes.ofMap m :=
    Attributes.ofMap_congr (by simp [kid, alg, keyOps, baseIv])
  simp only [okpOfMap, KeyType.expect_congr .okp kty, crvLabel, xLabel, dLabel, crv, x, d, attributes]

theorem ec2OfMap_congr (agree : ∀ l ∈ ([1, 2, 3, 4, 5, -1, -2, -3, -4] : List Int64), n.find? l = m.find? l) :
    ec2OfMap n = ec2OfMap m := by
  simp only [List.forall_mem_cons] at agree
  obtain ⟨kty, kid, alg, keyOps, baseIv, crv, x, y, d, -⟩ := agree
  have attributes : Attributes.ofMap n = Attributes.ofMap m :=
    Attributes.ofMap_congr (by simp [kid, alg, keyOps, baseIv])
  simp only [ec2OfMap, KeyType.expect_congr .ec2 kty, crvLabel, xLabel, yLabel, dLabel, crv, x, y, d, attributes]

theorem symmetricOfMap_congr (agree : ∀ l ∈ ([1, 2, 3, 4, 5, -1] : List Int64), n.find? l = m.find? l) :
    symmetricOfMap n = symmetricOfMap m := by
  simp only [List.forall_mem_cons] at agree
  obtain ⟨kty, kid, alg, keyOps, baseIv, k, -⟩ := agree
  have attributes : Attributes.ofMap n = Attributes.ofMap m :=
    Attributes.ofMap_congr (by simp [kid, alg, keyOps, baseIv])
  simp only [symmetricOfMap, KeyType.expect_congr .symmetric kty, kLabel, k, attributes]

end Key

end

namespace Registry

theorem builtin_decode_heldIn_iff (m : Map) (key : Key) : builtin.decode m = .ok key ↔
    key.material.HeldIn m ∧ Key.Attributes.ofMap m = .ok key.attributes := by
  have kty : (Key.bare key.material).keyType = key.keyType := rfl
  have label : Parameter.kty.label = 1 := rfl
  rw [builtin_decode_eq_ok_iff, Key.readFrom_iff, Key.Material.heldIn_iff, kty, label]
  tauto

theorem builtin_decode_accepts_iff (m : Map) :
    (∃ key, builtin.decode m = .ok key) ↔ m.CommonFields ∧ m.OwnFields := by
  rw [← Key.Attributes.ofMap_accepts_iff, ← Key.Material.exists_heldIn_iff]
  simp only [builtin_decode_heldIn_iff]
  constructor
  · rintro ⟨key, material, attributes⟩
    exact ⟨⟨_, attributes⟩, ⟨_, material⟩⟩
  · rintro ⟨⟨attributes, read⟩, ⟨material, held⟩⟩
    exact ⟨⟨material, attributes⟩, held, read⟩

theorem heldIn_of_builtin_decode {m : Map} {key : Key} (read : builtin.decode m = .ok key) : key.HeldIn m := by
  obtain ⟨material, attributes⟩ := (builtin_decode_heldIn_iff m key).mp read
  obtain ⟨kid, alg, keyOps, baseIv⟩ := (Key.Attributes.ofMap_eq_ok_iff_fields m _).mp attributes
  exact ⟨kid, alg, KeyOperation.eq_some_iff_of_ofField keyOps, baseIv, material⟩

theorem Unroutable.congr {r : Registry} {m n : Map} {cause : UnknownKeyTypeError} (reason : r.Unroutable m cause)
    (agree : n.find? 1 = m.find? 1) : r.Unroutable n cause := by
  cases reason with
  | missing absent => exact .missing (agree.trans absent)
  | notInt v held other => exact .notInt v (agree.trans held) other
  | unregistered id held free => exact .unregistered id (agree.trans held) free

theorem builtin_decode_congr {m n : Map} (agree : ∀ l ∈ m.meaningful, n.find? l = m.find? l) :
    builtin.decode n = builtin.decode m := by
  have kty : n.find? 1 = m.find? 1 := by
    apply agree
    rw [Map.meaningful]
    split_ifs <;> exact List.mem_cons_self
  rcases builtin.unroutable_or_routed m with ⟨cause, reason⟩ | ⟨id, reg, held, found⟩
  · rw [decode_of_unroutable reason, decode_of_unroutable (reason.congr kty)]
  · rw [decode_of_routed held found, decode_of_routed (kty.trans held) found]
    have own : reg.id = id := by simpa using List.find?_some found
    have known := List.mem_of_find?_eq_some found
    change m.find? 1 = some (.int id) at held
    rw [← own] at held
    -- the labels that matter are those of the one way of reading that the key type leads to
    simp only [builtin, List.mem_cons, List.not_mem_nil, or_false] at known
    rcases known with rfl | rfl | rfl
    · exact Key.okpOfMap_congr (by simpa [Map.meaningful, held] using agree)
    · exact Key.ec2OfMap_congr (by simpa [Map.meaningful, held] using agree)
    · exact Key.symmetricOfMap_congr (by simpa [Map.meaningful, held] using agree)

/-- The built-in registry makes a key of exactly those maps whose fields are in order, the common ones and those of
one of its key types. The key holds what stands in the map. No field without a meaning for the key type of the map
has a part in this, nor in the error if there is no key. -/
theorem builtin_accepts (m : Map) :
    ((∃ key, builtin.decode m = .ok key) ↔ m.CommonFields ∧ m.OwnFields) ∧
    (∀ key, builtin.decode m = .ok key → key.HeldIn m) ∧
    ∀ n : Map, (∀ l ∈ m.meaningful, n.find? l = m.find? l) → builtin.decode n = builtin.decode m := by
  refine ⟨builtin_decode_accepts_iff m, ?_, ?_⟩
  · intro key read
    exact heldIn_of_builtin_decode read
  · intro n agree
    exact builtin_decode_congr agree

theorem builtin_accepts_secp256k1 :
    let m : Map := [(.int (-4), .bytes [9]), (.int (-1), .int 8), (.int 1, .int 2), (.int 4, .int 1),
      (.text "n", .null)]
    (∃ key, builtin.decode m = .ok key ∧ key.keyOps = some .sign) ∧
    builtin.decode m.dropLast = builtin.decode m ∧
    ∀ key, builtin.decode [(.int (-4), .bytes [9]), (.int (-1), .int 4), (.int 1, .int 2)] ≠ .ok key := by
  intro m
  obtain ⟨accepted, held, unmoved⟩ := builtin_accepts m
  refine ⟨?_, ?_, ?_⟩
  · have common : m.CommonFields := by
      refine ⟨?_, ?_, ?_, ?_⟩
      · rintro v ⟨⟩
      · rintro v ⟨⟩
      · rintro v ⟨⟩
        exact .alone 1 (by decide)
      · rintro v ⟨⟩
    have own : m.OwnFields := by
      refine .ec2 rfl ?_ ?_ ?_ ?_ (Or.inr rfl)
      · rintro v ⟨⟩
        exact ⟨8, by decide, rfl⟩
      · rintro v ⟨⟩
      · rintro v ⟨⟩
      · rintro v ⟨⟩
        exact ⟨[9], rfl⟩
    obtain ⟨key, read⟩ := accepted.mpr ⟨common, own⟩
    exact ⟨key, read, ((held key read).keyOps .sign).mpr (Or.inl rfl)⟩
  · have alike : m.meaningful.all (fun l => decide (Map.find? m.dropLast l = m.find? l)) = true := by decide
    apply unmoved
    intro l mem
    exact of_decide_eq_true (List.all_eq_true.mp alike l mem)
  · intro key read
    obtain ⟨-, own⟩ := (builtin_accepts _).1.mp ⟨key, read⟩
    cases own with
    | okp kty => exact absurd kty (by decide)
    | ec2 kty crv =>
      obtain ⟨n, known, same⟩ := crv (.int 4) rfl
      obtain rfl := Value.int.inj same
      exact absurd known (by decide)
    | symmetric kty => exact absurd kty (by decide)

end Registry

end Cose
