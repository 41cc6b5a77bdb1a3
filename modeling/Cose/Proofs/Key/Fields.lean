import Cose.Key.Required
import Cose.Key.Resolution
import Cose.Proofs.Result

/-!
# Filling in the fields of a key

Algorithm, curve and operation of a key are filled in once and stay. What a successful assignment leaves is
the key with that one field set; the material is the same but for its curve. What operations take out of the
material is said here as well.
-/

set_option autoImplicit false

namespace Cose

open Result

def Compatible {α : Type} (a b : Option α) : Prop := ∀ x y, a = some x → b = some y → x = y

theorem compatible_self {α : Type} (a : Option α) : Compatible a a := by
  intro x y hx hy
  exact Option.some.inj (hx.symm.trans hy)

theorem compatible_some_iff {α : Type} (a : Option α) (x : α) :
    Compatible a (some x) ↔ a = none ∨ a = some x := by
  cases a <;> simp [Compatible]

theorem within_eq_ok_iff (crv : EllipticCurve) (kty : KeyType) (c : CurveOf kty) :
    crv.within kty = .ok c ↔ crv = c.val := by
  rw [EllipticCurve.within]
  by_cases h : crv.keyType? = some kty
  · rw [dif_pos h, Except.ok.injEq, Subtype.ext_iff]
  · rw [dif_neg h]
    simp only [reduceCtorEq, false_iff]
    intro same
    exact h (same ▸ c.property)

namespace Key

def withAlg (key : Key) (alg : Algorithm) : Key :=
  { key with attributes := { key.attributes with alg := some alg } }

def withKeyOps (key : Key) (op : Option KeyOperation) : Key :=
  { key with attributes := { key.attributes with keyOps := op } }

/-- Material that is on no curve, or on none of the other family, stays as it is. -/
def Material.onCurve (crv : EllipticCurve) : Material → Material
  | .okp k => if h : crv.keyType? = some .okp then .okp { k with crv := some ⟨crv, h⟩ } else .okp k
  | .ec2 k => if h : crv.keyType? = some .ec2 then .ec2 { k with crv := some ⟨crv, h⟩ } else .ec2 k
  | m => m

def onCurve (key : Key) (crv : EllipticCurve) : Key := { key with material := key.material.onCurve crv }

@[simp] theorem alg_withAlg (key : Key) (alg : Algorithm) : (key.withAlg alg).alg = some alg := rfl

@[simp] theorem curve_withAlg (key : Key) (alg : Algorithm) : (key.withAlg alg).curve = key.curve := rfl

@[simp] theorem keyOps_withAlg (key : Key) (alg : Algorithm) : (key.withAlg alg).keyOps = key.keyOps := rfl

@[simp] theorem keyType_withAlg (key : Key) (alg : Algorithm) : (key.withAlg alg).keyType = key.keyType := rfl

@[simp] theorem hasCurve_withAlg (key : Key) (alg : Algorithm) : (key.withAlg alg).hasCurve = key.hasCurve :=
  rfl

@[simp] theorem material_withAlg (key : Key) (alg : Algorithm) : (key.withAlg alg).material = key.material :=
  rfl

@[simp] theorem alg_withKeyOps (key : Key) (op : Option KeyOperation) : (key.withKeyOps op).alg = key.alg := rfl

@[simp] theorem curve_withKeyOps (key : Key) (op : Option KeyOperation) :
    (key.withKeyOps op).curve = key.curve := rfl

@[simp] theorem material_withKeyOps (key : Key) (op : Option KeyOperation) :
    (key.withKeyOps op).material = key.material := rfl

@[simp] theorem alg_onCurve (key : Key) (crv : EllipticCurve) : (key.onCurve crv).alg = key.alg := rfl

@[simp] theorem keyOps_onCurve (key : Key) (crv : EllipticCurve) : (key.onCurve crv).keyOps = key.keyOps := rfl

@[simp] theorem material_onCurve (key : Key) (crv : EllipticCurve) :
    (key.onCurve crv).material = key.material.onCurve crv := rfl

/-- The material is the same but for the curve that it may be on. -/
inductive Material.SameParts : Material → Material → Prop
  | same (m : Material) : SameParts m m
  | okp (k : Okp) (crv : Option (CurveOf .okp)) : SameParts (.okp k) (.okp { k with crv := crv })
  | ec2 (k : Ec2) (crv : Option (CurveOf .ec2)) : SameParts (.ec2 k) (.ec2 { k with crv := crv })

theorem hasCurve_of_sameParts {a b : Key} (h : a.material.SameParts b.material) :
    b.hasCurve = a.hasCurve := by
  obtain ⟨am, aa⟩ := a
  obtain ⟨bm, ba⟩ := b
  cases h <;> rfl

theorem Material.sameParts_onCurve (m : Material) (crv : EllipticCurve) : m.SameParts (m.onCurve crv) := by
  cases m with
  | okp k =>
    by_cases h : crv.keyType? = some .okp
    · rw [onCurve, dif_pos h]
      exact .okp k _
    · rw [onCurve, dif_neg h]
      exact .same _
  | ec2 k =>
    by_cases h : crv.keyType? = some .ec2
    · rw [onCurve, dif_pos h]
      exact .ec2 k _
    · rw [onCurve, dif_neg h]
      exact .same _
  | _ => exact .same _

theorem withKeyOps_self (key : Key) : key.withKeyOps key.keyOps = key := rfl

theorem onCurve_of_no_curve {key : Key} (h : key.hasCurve = false) (crv : EllipticCurve) :
    key.onCurve crv = key := by
  obtain ⟨material, attributes⟩ := key
  cases material with
  | okp k => simp [hasCurve] at h
  | ec2 k => simp [hasCurve] at h
  | _ => rfl

/-! Only a key that may be on a curve holds one, and the curve is of its type. -/

theorem curve_of_no_curve {key : Key} (h : key.hasCurve = false) : key.curve = none := by
  obtain ⟨material, attributes⟩ := key
  cases material with
  | okp k => simp [hasCurve] at h
  | ec2 k => simp [hasCurve] at h
  | _ => rfl

theorem hasCurve_of_curve {key : Key} {crv : EllipticCurve} (held : key.curve = some crv) :
    key.hasCurve = true := by
  cases on_curve : key.hasCurve with
  | true => rfl
  | false => simp [curve_of_no_curve on_curve] at held

theorem keyType?_of_curve {key : Key} {crv : EllipticCurve} (held : key.curve = some crv) :
    crv.keyType? = some key.keyType := by
  obtain ⟨material, attributes⟩ := key
  cases material with
  | okp k =>
    obtain ⟨c, -, rfl⟩ := Option.map_eq_some_iff.mp held
    exact c.property
  | ec2 k =>
    obtain ⟨c, -, rfl⟩ := Option.map_eq_some_iff.mp held
    exact c.property
  | _ => simp [curve] at held

def IsEc2 (key : Key) : Prop := ∃ k, key.material = .ec2 k

def IsOkp (key : Key) : Prop := ∃ k, key.material = .okp k

def IsSymmetric (key : Key) (k : Bytes) : Prop := ∃ m, key.material = .symmetric m ∧ m.k = k

theorem curve_onCurve {key : Key} {crv : EllipticCurve} (h : key.hasCurve = true)
    (family : crv.keyType? = some key.keyType) : (key.onCurve crv).curve = some crv := by
  obtain ⟨material, attributes⟩ := key
  cases material with
  | okp k =>
    rw [keyType] at family
    simp [curve, Material.onCurve, family]
  | ec2 k =>
    rw [keyType] at family
    simp [curve, Material.onCurve, family]
  | _ => simp [hasCurve] at h

/-! What the operations take out of a key. -/

theorem requireCurve_eq_ok_iff (key : Key) (crv : EllipticCurve) :
    key.requireCurve = .ok crv ↔ key.curve = some crv := by
  rw [requireCurve]
  cases key.curve <;> simp

theorem requireEc2_eq_ok_iff (key : Key) (k : Ec2) : key.requireEc2 = .ok k ↔ key.material = .ec2 k := by
  rw [requireEc2]
  cases key.material <;> simp

theorem requireOkp_eq_ok_iff (key : Key) (k : Okp) : key.requireOkp = .ok k ↔ key.material = .okp k := by
  rw [requireOkp]
  cases key.material <;> simp

theorem requirePart_eq_ok_iff (name : String) (part : Option Bytes) (bs : Bytes) :
    requirePart name part = .ok bs ↔ part = some bs := by
  cases part <;> simp [requirePart]

theorem Ec2.pointBytes_eq_ok_iff (k : Ec2) (bs : Bytes) :
    k.pointBytes = .ok bs ↔ ∃ x y, k.x = some x ∧ k.y = some y ∧ bs = 4 :: (x ++ y) := by
  simp only [pointBytes, bind_eq_ok_iff, requirePart_eq_ok_iff, Except.ok.injEq, eq_comm (b := bs)]
  constructor
  · rintro ⟨x, hx, y, hy, rfl⟩
    exact ⟨x, y, hx, hy, rfl⟩
  · rintro ⟨x, y, hx, hy, rfl⟩
    exact ⟨x, hx, y, hy, rfl⟩

theorem requireLength_eq_ok_iff (length : Nat) (name : String) (bs taken : Bytes) :
    requireLength length name bs = .ok taken ↔ bs.length = length ∧ bs = taken := by
  rw [requireLength]
  by_cases h : bs.length = length <;> simp [h]

theorem requireSymmetric_eq_ok_iff (key : Key) (k : Bytes) :
    key.requireSymmetric = .ok k ↔ key.IsSymmetric k := by
  rw [requireSymmetric, IsSymmetric]
  cases key.material <;> simp

/-! What the assignments accept. -/

theorem assign_eq_ok_iff {α : Type} [DecidableEq α] (conflict : Mismatch α → Conflict) (held : Option α)
    (given r : α) : assign conflict held given = .ok r ↔ Compatible held (some given) ∧ r = given := by
  rw [compatible_some_iff]
  cases held with
  | none => simp [assign, eq_comm]
  | some current =>
    by_cases h : current = given
    · simp [assign, h, eq_comm]
    · simp [assign, h]

theorem setAlg_eq_ok_iff (key : Key) (alg : Algorithm) (result : Key) :
    key.setAlg alg = .ok result ↔ Compatible key.alg (some alg) ∧ result = key.withAlg alg := by
  simp only [setAlg, bind_eq_ok_iff, assign_eq_ok_iff]
  constructor
  · rintro ⟨_, ⟨compatible, rfl⟩, set⟩
    exact ⟨compatible, (Except.ok.inj set).symm⟩
  · rintro ⟨compatible, rfl⟩
    exact ⟨alg, ⟨compatible, rfl⟩, rfl⟩

theorem setKeyOps_eq_ok_iff (key : Key) (op : KeyOperation) (result : Key) :
    key.setKeyOps op = .ok result ↔
      Compatible key.keyOps (some op) ∧ result = key.withKeyOps (some op) := by
  simp only [setKeyOps, bind_eq_ok_iff, assign_eq_ok_iff]
  constructor
  · rintro ⟨_, ⟨compatible, rfl⟩, set⟩
    exact ⟨compatible, (Except.ok.inj set).symm⟩
  · rintro ⟨compatible, rfl⟩
    exact ⟨op, ⟨compatible, rfl⟩, rfl⟩

theorem assignWithin_eq_ok_iff {kty : KeyType} (held : Option EllipticCurve) (crv : EllipticCurve)
    (make : CurveOf kty → Key) (result : Key) : (do
      let c ← crv.within kty
      let _ ← assign .curve held crv
      Except.ok (make c)) = .ok result ↔
    ∃ family : crv.keyType? = some kty, Compatible held (some crv) ∧ result = make ⟨crv, family⟩ := by
  simp only [bind_eq_ok_iff, assign_eq_ok_iff, within_eq_ok_iff]
  constructor
  · rintro ⟨c, rfl, _, ⟨compatible, rfl⟩, set⟩
    exact ⟨c.property, compatible, (Except.ok.inj set).symm⟩
  · rintro ⟨family, compatible, rfl⟩
    exact ⟨⟨crv, family⟩, rfl, crv, ⟨compatible, rfl⟩, rfl⟩

theorem onCurve_okp (k : Okp) (attributes : Attributes) {crv : EllipticCurve}
    (family : crv.keyType? = some .okp) : (⟨.okp k, attributes⟩ : Key).onCurve crv =
      ⟨.okp { k with crv := some ⟨crv, family⟩ }, attributes⟩ := by
  simp [onCurve, Material.onCurve, family]

theorem onCurve_ec2 (k : Ec2) (attributes : Attributes) {crv : EllipticCurve}
    (family : crv.keyType? = some .ec2) : (⟨.ec2 k, attributes⟩ : Key).onCurve crv =
      ⟨.ec2 { k with crv := some ⟨crv, family⟩ }, attributes⟩ := by
  simp [onCurve, Material.onCurve, family]

theorem setCurve_eq_ok_iff (key : Key) (crv : EllipticCurve) (result : Key) :
    key.setCurve crv = .ok result ↔ key.hasCurve = true ∧ crv.keyType? = some key.keyType ∧
      Compatible key.curve (some crv) ∧ result = key.onCurve crv := by
  obtain ⟨material, attributes⟩ := key
  cases material with
  | okp k =>
    apply (assignWithin_eq_ok_iff _ crv _ result).trans
    constructor
    · rintro ⟨family, compatible, rfl⟩
      exact ⟨rfl, family, compatible, (onCurve_okp k attributes family).symm⟩
    · rintro ⟨-, family, compatible, rfl⟩
      exact ⟨family, compatible, onCurve_okp k attributes family⟩
  | ec2 k =>
    apply (assignWithin_eq_ok_iff _ crv _ result).trans
    constructor
    · rintro ⟨family, compatible, rfl⟩
      exact ⟨rfl, family, compatible, (onCurve_ec2 k attributes family).symm⟩
    · rintro ⟨-, family, compatible, rfl⟩
      exact ⟨family, compatible, onCurve_ec2 k attributes family⟩
  | symmetric k => simp [setCurve, hasCurve]
  | registered k => simp [setCurve, hasCurve]

end Key

end Cose
