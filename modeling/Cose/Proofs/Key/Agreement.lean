import Cose.Key.Use
import Cose.Proofs.Key.Configuration

/-!
# Key agreement between resolved keys

Agreement looks at the material of the two keys only. Resolving them first changes one thing there: a peer of
the same type that leaves its curve open is put on the curve of the private key.
-/

set_option autoImplicit false

namespace Cose

open Result

namespace Key

/-- The peer on the curve of this key, if it is of the same type and leaves its curve open. -/
def completedBy (peer key : Key) : Key :=
  if peer.curve = none ∧ peer.keyType = key.keyType then peer.onCurve? key.curve else peer

theorem onCurve?_of_no_curve {key : Key} (h : key.hasCurve = false) (crv : Option EllipticCurve) :
    key.onCurve? crv = key := by
  cases crv with
  | none => rfl
  | some crv => exact onCurve_of_no_curve h crv

theorem material_filled (k : Key) (alg : Algorithm) (crv : Option EllipticCurve)
    (op : Option KeyOperation) : (k.filled alg crv op).material = (k.onCurve? crv).material := by
  cases crv <;> rfl

theorem onCurve?_self (key : Key) : (key.onCurve? key.curve).material = key.material := by
  cases held : key.curve with
  | none => rfl
  | some crv =>
    have on_curve := hasCurve_of_curve held
    have same := curve_onCurve on_curve (keyType?_of_curve held)
    exact (material_eq_of_curve (key.material.sameParts_onCurve crv) (held.trans same.symm)).symm

end Key

namespace Agreement

theorem agree_congr (s : Suite) {a b p q : Key} (keys : a.material = b.material)
    (peers : p.material = q.material) (length : Nat) (context : Bytes) :
    agree s a p length context = agree s b q length context := by
  obtain ⟨am, aa⟩ := a
  obtain ⟨bm, ba⟩ := b
  obtain ⟨pm, pa⟩ := p
  obtain ⟨qm, qa⟩ := q
  obtain rfl : am = bm := keys
  obtain rfl : pm = qm := peers
  rfl

theorem agree_eq_ok_iff (s : Suite) (key peer : Key) (length : Nat) (context : Bytes) (o : Output) :
    agree s key peer length context = .ok o ↔ ∃ crv, key.curve = some crv ∧ peer.curve = some crv ∧
      secret s crv key peer = .ok o.shared ∧ derive o.shared length context = .ok o.derived := by
  simp only [agree, bind_eq_ok_iff, Key.requireCurve_eq_ok_iff]
  constructor
  · rintro ⟨crv, held, theirs, peer_held, h⟩
    split_ifs at h with same
    obtain ⟨shared, made, h⟩ := bind_eq_ok_iff.mp h
    obtain ⟨derived, made_derived, h⟩ := bind_eq_ok_iff.mp h
    obtain rfl := Except.ok.inj h
    exact ⟨crv, held, same ▸ peer_held, made, made_derived⟩
  · rintro ⟨crv, held, peer_held, made, made_derived⟩
    refine ⟨crv, held, crv, peer_held, ?_⟩
    simp [made, made_derived]

end Agreement

namespace Resolution

variable {key peer : Key} {request : Request}

theorem chosenCurve_unasked (unasked : request.curve = none) : chosenCurve key request = key.curve := by
  rw [chosenCurve, unasked, Option.or_none]
  by_cases h : key.hasCurve = true
  · rw [if_pos h]
  · rw [if_neg h, Key.curve_of_no_curve (by simpa using h)]

theorem completedBy_of_coherent (coherent : Coherent key (some peer) request)
    (unasked : request.curve = none) :
    (peer.onCurve? key.curve).material = (peer.completedBy key).material := by
  rw [Key.completedBy]
  split_ifs with completed
  · rfl
  · by_cases peer_on_curve : peer.hasCurve = true
    · by_cases on_curve : key.hasCurve = true
      · obtain ⟨-, crv, held, -, theirs⟩ := curveCoherent_iff.mp (coherent.curve on_curve)
        rw [unasked, Option.or_none] at held
        obtain ⟨agrees, same⟩ := theirs peer rfl peer_on_curve
        -- a peer of this type that is not completed was on the curve before
        have peer_held : peer.curve = some crv := by
          rcases (compatible_some_iff _ _).mp agrees with unset | set
          · exact absurd ⟨unset, same⟩ completed
          · exact set
        rw [held, ← peer_held]
        exact peer.onCurve?_self
      · rw [Key.curve_of_no_curve (by simpa using on_curve)]
        rfl
    · rw [Key.onCurve?_of_no_curve (by simpa using peer_on_curve)]

/-- Agreement gives the same for the keys that resolution fills in as for the private key and the peer that it
completes. -/
theorem agree_filled (s : Suite) (coherent : Coherent key (some peer) request)
    (unasked : request.curve = none) (alg : Algorithm) (op : Option KeyOperation) (length : Nat)
    (context : Bytes) :
    Agreement.agree s (key.filled alg (chosenCurve key request) op)
        (peer.filled alg (chosenCurve key request) op) length context =
      Agreement.agree s key (peer.completedBy key) length context := by
  rw [chosenCurve_unasked unasked]
  apply Agreement.agree_congr
  · rw [Key.material_filled, Key.onCurve?_self]
  · rw [Key.material_filled, completedBy_of_coherent coherent unasked]

theorem curveCoherent_of_completed {crv : EllipticCurve} (held : key.curve = some crv)
    (completed : (peer.completedBy key).curve = some crv) (unasked : request.curve = none) :
    CurveCoherent key (some peer) request := by
  rw [curveCoherent_iff, unasked, held]
  refine ⟨by simp [Compatible], crv, rfl, Key.keyType?_of_curve held, ?_⟩
  rintro _ ⟨⟩ -
  rw [compatible_some_iff]
  rw [Key.completedBy] at completed
  split_ifs at completed with filled
  · exact ⟨Or.inl filled.1, filled.2⟩
  · -- a curve belongs to one type only, so both keys are of that type
    have same := (Key.keyType?_of_curve completed).symm.trans (Key.keyType?_of_curve held)
    exact ⟨Or.inr completed, Option.some.inj same⟩

end Resolution

namespace Key

theorem deriveShared_eq_ok_iff (s : Suite) (key peer : Key) (asked : Option Algorithm) (length : Nat)
    (context : Bytes) (o : Agreement.Output) : key.deriveShared s peer asked length context = .ok o ↔
      Resolution.AlgorithmCoherent key (some peer) ⟨asked, some .deriveKey, none⟩ ∧
      Resolution.KeyOpsCoherent key (some peer) ⟨asked, some .deriveKey, none⟩ ∧
      Agreement.agree s key (peer.completedBy key) length context = .ok o := by
  simp only [deriveShared, bind_eq_ok_iff, Resolution.resolve_eq_ok_iff]
  constructor
  · rintro ⟨_, ⟨coherent, alg, -, rfl⟩, agreed⟩
    refine ⟨coherent.algorithm, coherent.keyOps, ?_⟩
    exact (Resolution.agree_filled s coherent rfl alg _ length context).symm.trans agreed
  · rintro ⟨algorithm, keyOps, agreed⟩
    obtain ⟨crv, held, completed, -⟩ := (Agreement.agree_eq_ok_iff _ _ _ _ _ _).mp agreed
    obtain ⟨-, alg, named, -⟩ := Resolution.algorithmCoherent_iff.mp algorithm
    have coherent : Resolution.Coherent key (some peer) ⟨asked, some .deriveKey, none⟩ :=
      ⟨algorithm, fun _ => Resolution.curveCoherent_of_completed held completed rfl, keyOps⟩
    refine ⟨_, ⟨coherent, alg, named, rfl⟩, ?_⟩
    exact (Resolution.agree_filled s coherent rfl alg _ length context).trans agreed

end Key

end Cose
