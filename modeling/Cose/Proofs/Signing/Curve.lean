import Mathlib.Tactic.SplitIfs
import Cose.Proofs.Key.Fields
import Cose.Signing

/-!
# The curve that a signature is made on

Signing and verifying look at the algorithm once, to find the curve, and after that only at the curve. Whoever
succeeds therefore had a key of the curve's kind, and with EdDSA the curve is whatever the key says.
-/

set_option autoImplicit false

namespace Cose

open Result

namespace Key

/-- The key is of the kind and on the curve that the algorithm is meant for. A key for ECDSA may leave its
curve open. -/
inductive Suits (key : Key) : Algorithm → Prop
  | ecdsa {alg : Algorithm} {crv : EllipticCurve} (bound : alg.signatureCurve? = some crv)
      (material : key.IsEc2) (curve : key.curve = none ∨ key.curve = some crv) : Suits key alg
  | edDsa (material : key.IsOkp) (curve : key.curve = some .ed25519) : Suits key .edDsa

structure OnCurveOf (key : Key) (alg : Algorithm) : Prop where
  material : key.IsEc2
  curve : ∃ crv, alg.signatureCurve? = some crv ∧ key.curve = some crv

/-- The key suits the algorithm, or the algorithm is EdDSA and the key is one for ECDSA. -/
def Usable (key : Key) (alg : Algorithm) : Prop := key.Suits alg ∨ alg = .edDsa ∧ ∃ other, key.OnCurveOf other

theorem OnCurveOf.suits {key : Key} {alg : Algorithm} (h : key.OnCurveOf alg) : key.Suits alg := by
  obtain ⟨crv, bound, curve⟩ := h.curve
  exact .ecdsa bound h.material (Or.inr curve)

theorem OnCurveOf.not_edDsa {key : Key} {alg : Algorithm} (h : key.OnCurveOf alg) : ¬ key.Suits .edDsa := by
  obtain ⟨k, ec2⟩ := h.material
  intro suits
  cases suits with
  | ecdsa bound material curve => simp [Algorithm.signatureCurve?] at bound
  | edDsa material curve =>
    obtain ⟨k', okp⟩ := material
    simp [ec2] at okp

end Key

namespace Signing

theorem curve_edDsa_eq_ok_iff (key : Key) (crv : EllipticCurve) :
    curve .edDsa key = .ok crv ↔ key.curve = some crv :=
  key.requireCurve_eq_ok_iff crv

theorem curve_ecdsa_eq_ok_iff (alg : Algorithm) (key : Key) (crv : EllipticCurve) (h : alg ≠ .edDsa) :
    curve alg key = .ok crv ↔ alg.signatureCurve? = some crv ∧ (key.curve = none ∨ key.curve = some crv) := by
  rw [curve]
  · cases alg.signatureCurve? with
    | none => simp
    | some expected =>
      cases key.curve with
      | none => simp
      | some found =>
        by_cases same : found = expected
        · simp [same]
        · have different : expected = crv → ¬ found = crv := fun h => h ▸ same
          simpa [same] using different
  · exact h

theorem group?_isSome_iff (s : Suite) (crv : EllipticCurve) :
    (s.group? crv).isSome = true ↔ ∃ alg : Algorithm, alg.signatureCurve? = some crv := by
  constructor
  · intro h
    cases crv with
    | p256 => exact ⟨.es256, rfl⟩
    | p384 => exact ⟨.es384, rfl⟩
    | p521 => exact ⟨.es512, rfl⟩
    | _ => simp [Suite.group?] at h
  · rintro ⟨alg, bound⟩
    cases alg <;> simp [Algorithm.signatureCurve?] at bound <;> simp [← bound, Suite.group?]

theorem signatureCurve?_family {alg : Algorithm} {crv : EllipticCurve}
    (bound : alg.signatureCurve? = some crv) : crv.keyType? = some .ec2 := by
  cases alg <;> simp [Algorithm.signatureCurve?] at bound <;> simp [← bound, EllipticCurve.keyType?]

theorem usable_of_ec2 (s : Suite) {alg : Algorithm} {key : Key} {crv : EllipticCurve}
    (found : curve alg key = .ok crv) (group : (s.group? crv).isSome = true) (material : key.IsEc2) :
    key.Usable alg := by
  by_cases h : alg = .edDsa
  · subst h
    obtain ⟨other, bound⟩ := (group?_isSome_iff s crv).mp group
    have held := (curve_edDsa_eq_ok_iff key crv).mp found
    exact Or.inr ⟨rfl, other, material, crv, bound, held⟩
  · obtain ⟨bound, held⟩ := (curve_ecdsa_eq_ok_iff alg key crv h).mp found
    exact Or.inl (.ecdsa bound material held)

theorem usable_of_okp {alg : Algorithm} {key : Key} (found : curve alg key = .ok .ed25519)
    (material : key.IsOkp) : key.Usable alg := by
  by_cases h : alg = .edDsa
  · subst h
    exact Or.inl (.edDsa material ((curve_edDsa_eq_ok_iff key .ed25519).mp found))
  · obtain ⟨bound, -⟩ := (curve_ecdsa_eq_ok_iff alg key .ed25519 h).mp found
    cases alg <;> simp [Algorithm.signatureCurve?] at bound

theorem scalar_isEc2 {g : Group} {crv : EllipticCurve} {key : Key} {d : Nat}
    (h : scalar g crv key = .ok d) : key.IsEc2 := by
  obtain ⟨k, required, -⟩ := bind_eq_ok_iff.mp h
  exact ⟨k, (key.requireEc2_eq_ok_iff k).mp required⟩

theorem point_isEc2 {g : Group} {crv : EllipticCurve} {key : Key} {q : Point}
    (h : point g crv key = .ok q) : key.IsEc2 := by
  obtain ⟨k, required, -⟩ := bind_eq_ok_iff.mp h
  exact ⟨k, (key.requireEc2_eq_ok_iff k).mp required⟩

theorem octets_isOkp {e : EdwardsScheme} {key : Key} {q : Bytes} (h : octets e key = .ok q) : key.IsOkp := by
  obtain ⟨k, required, -⟩ := bind_eq_ok_iff.mp h
  exact ⟨k, (key.requireOkp_eq_ok_iff k).mp required⟩

theorem sign_usable {s : Suite} {alg : Algorithm} {key : Key} {nonce : Nat} {message signature : Bytes}
    (h : sign s alg key nonce message = .ok signature) : key.Usable alg := by
  obtain ⟨crv, found, h⟩ := bind_eq_ok_iff.mp h
  split at h
  · next g hash group =>
    obtain ⟨d, scalar, -⟩ := bind_eq_ok_iff.mp h
    exact usable_of_ec2 s found (by simp [group]) (scalar_isEc2 scalar)
  · split_ifs at h with edwards
    · subst edwards
      obtain ⟨k, required, -⟩ := bind_eq_ok_iff.mp h
      exact usable_of_okp found ⟨k, (key.requireOkp_eq_ok_iff k).mp required⟩

theorem verify_usable {s : Suite} {alg : Algorithm} {key : Key} {message signature : Bytes}
    (h : verify s alg key message signature = .ok ()) : key.Usable alg := by
  obtain ⟨crv, found, h⟩ := bind_eq_ok_iff.mp h
  split at h
  · next g hash group =>
    obtain ⟨q, point, -⟩ := bind_eq_ok_iff.mp h
    exact usable_of_ec2 s found (by simp [group]) (point_isEc2 point)
  · split_ifs at h with edwards
    · subst edwards
      obtain ⟨q, octets, -⟩ := bind_eq_ok_iff.mp h
      exact usable_of_okp found (octets_isOkp octets)

/-! Only the parts of a key and the curve found for it matter. -/

theorem sign_congr (s : Suite) {alg : Algorithm} {key other : Key}
    (parts : key.material.SameParts other.material) (found : curve alg other = curve alg key) (nonce : Nat)
    (message : Bytes) : sign s alg other nonce message = sign s alg key nonce message := by
  obtain ⟨material, attributes⟩ := key
  obtain ⟨material', attributes'⟩ := other
  cases parts <;> simp only [sign, found] <;> rfl

theorem verify_congr (s : Suite) {alg : Algorithm} {key other : Key}
    (parts : key.material.SameParts other.material) (found : curve alg other = curve alg key)
    (message signature : Bytes) :
    verify s alg other message signature = verify s alg key message signature := by
  obtain ⟨material, attributes⟩ := key
  obtain ⟨material', attributes'⟩ := other
  cases parts <;> simp only [verify, found] <;> rfl

/-! An EC2 key turns EdDSA into the algorithm of its curve. -/

theorem curve_of_onCurveOf {key : Key} {other : Algorithm} (h : key.OnCurveOf other) :
    ∃ crv, curve .edDsa key = .ok crv ∧ curve other key = .ok crv ∧ other.signatureCurve? = some crv := by
  obtain ⟨crv, bound, held⟩ := h.curve
  have different : other ≠ .edDsa := by
    rintro rfl
    simp [Algorithm.signatureCurve?] at bound
  refine ⟨crv, (curve_edDsa_eq_ok_iff key crv).mpr held, ?_, bound⟩
  exact (curve_ecdsa_eq_ok_iff other key crv different).mpr ⟨bound, Or.inr held⟩

theorem sign_edDsa_eq (s : Suite) {key : Key} {other : Algorithm} (h : key.OnCurveOf other) (nonce : Nat)
    (message : Bytes) : sign s .edDsa key nonce message = sign s other key nonce message := by
  obtain ⟨crv, ours, theirs, bound⟩ := curve_of_onCurveOf h
  have group := (group?_isSome_iff s crv).mpr ⟨other, bound⟩
  obtain ⟨⟨g, hash⟩, group⟩ := Option.isSome_iff_exists.mp group
  simp [sign, ours, theirs, group]

theorem verify_edDsa_eq (s : Suite) {key : Key} {other : Algorithm} (h : key.OnCurveOf other)
    (message signature : Bytes) :
    verify s .edDsa key message signature = verify s other key message signature := by
  obtain ⟨crv, ours, theirs, bound⟩ := curve_of_onCurveOf h
  have group := (group?_isSome_iff s crv).mpr ⟨other, bound⟩
  obtain ⟨⟨g, hash⟩, group⟩ := Option.isSome_iff_exists.mp group
  simp [verify, ours, theirs, group]

end Signing

end Cose
