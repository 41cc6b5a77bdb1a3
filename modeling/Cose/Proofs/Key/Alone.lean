import Cose.Proofs.Key.Configuration

/-!
# Keys resolved alone

Without a peer a coherent configuration is a key and a request that do not contradict each other. The key ends
with the values that it held or, where it held none, with those that were asked for.
-/

set_option autoImplicit false

namespace Cose

open Result

def Key.onSettled (key : Key) (request : Request) : Key :=
  match key.curve.or request.curve with
  | some crv => key.onCurve crv
  | none => key

namespace Key

def settled (key : Key) (request : Request) (alg : Algorithm) : Key :=
  ((key.withAlg alg).onSettled request).withKeyOps (key.keyOps.or request.keyOp)

/-- What a request without a peer has to satisfy: nothing in it contradicts the key, and together they name
the algorithm and, for a key on a curve, a curve of its family. -/
structure Accepts (key : Key) (request : Request) (alg : Algorithm) : Prop where
  named : key.alg.or request.alg = some alg
  alg_agrees : Compatible key.alg request.alg
  keyOps_agree : Compatible key.keyOps request.keyOp
  curve_agrees : key.hasCurve = true → Compatible key.curve request.curve
  family : key.hasCurve = true → ∃ crv, key.curve.or request.curve = some crv ∧
    crv.keyType? = some key.keyType

theorem accepts_iff_coherent (key : Key) (request : Request) (alg : Algorithm) :
    key.Accepts request alg ↔
      Resolution.Coherent key none request ∧ key.alg.or request.alg = some alg := by
  constructor
  · intro accepts
    refine ⟨⟨?_, ?_, ?_⟩, accepts.named⟩
    · exact Resolution.algorithmCoherent_iff.mpr ⟨accepts.alg_agrees, alg, accepts.named, by simp⟩
    · intro h
      obtain ⟨crv, chosen, family⟩ := accepts.family h
      exact Resolution.curveCoherent_iff.mpr ⟨accepts.curve_agrees h, crv, chosen, family, by simp⟩
    · exact Resolution.keyOpsCoherent_iff.mpr ⟨accepts.keyOps_agree, by simp⟩
  · rintro ⟨coherent, named⟩
    have curve (h : key.hasCurve = true) := Resolution.curveCoherent_iff.mp (coherent.curve h)
    refine ⟨named, (Resolution.algorithmCoherent_iff.mp coherent.algorithm).1,
      (Resolution.keyOpsCoherent_iff.mp coherent.keyOps).1, fun h => (curve h).1, fun h => ?_⟩
    obtain ⟨-, crv, chosen, family, -⟩ := curve h
    exact ⟨crv, chosen, family⟩

theorem onSettled_eq_onCurve? (key : Key) (request : Request) :
    key.onSettled request = key.onCurve? (Resolution.chosenCurve key request) := by
  rw [onSettled, Resolution.chosenCurve]
  by_cases h : key.hasCurve = true
  · rw [if_pos h]
    cases key.curve.or request.curve <;> rfl
  · have no_curve : key.hasCurve = false := by simpa using h
    rw [if_neg h]
    cases key.curve.or request.curve with
    | none => rfl
    | some crv => exact onCurve_of_no_curve no_curve crv

theorem settled_eq_filled (key : Key) (request : Request) (alg : Algorithm) :
    key.settled request alg = key.filled alg (Resolution.chosenCurve key request)
      (Resolution.agreedKeyOps key none request) := by
  have none_agrees : Resolution.agreedKeyOps key none request = key.keyOps.or request.keyOp := by
    simp [Resolution.agreedKeyOps]
  rw [settled, onSettled_eq_onCurve?, none_agrees]
  rfl

theorem resolve_alone_eq_ok_iff (key : Key) (request : Request) (keys : Resolved) :
    key.resolve none request = .ok keys ↔
      ∃ alg, key.Accepts request alg ∧ keys = ⟨key.settled request alg, none⟩ := by
  rw [Resolution.resolve_eq_ok_iff, ← exists_and_left]
  apply exists_congr
  intro alg
  rw [accepts_iff_coherent, settled_eq_filled, and_assoc]
  rfl

/-- What resolution settles on is what the key itself holds, if it holds it. -/
theorem curve_settled {key : Key} {request : Request} {alg : Algorithm} (accepts : key.Accepts request alg)
    (h : key.hasCurve = true) : (key.settled request alg).curve = key.curve.or request.curve := by
  obtain ⟨crv, chosen, family⟩ := accepts.family h
  have settles : Resolution.chosenCurve key request = some crv := by
    rw [Resolution.chosenCurve, if_pos h, chosen]
  rw [settled_eq_filled, settles, curve_filled, if_pos h, chosen]
  · rfl
  · rintro - _ ⟨⟩
    exact family

theorem settled_of_no_curve {key : Key} (h : key.hasCurve = false) (request : Request) (alg : Algorithm) :
    key.settled request alg = (key.withAlg alg).withKeyOps (key.keyOps.or request.keyOp) := by
  have h' : (key.withAlg alg).hasCurve = false := h
  rw [settled, onSettled_eq_onCurve?, Resolution.chosenCurve, h']
  rfl

theorem alg_settled (key : Key) (request : Request) (alg : Algorithm) :
    (key.settled request alg).alg = some alg := by
  rw [settled_eq_filled, alg_filled]

theorem resolved_eq_ok_iff {β : Type} (key : Key) (request : Request) (run : Algorithm → Key → Result β)
    (b : β) : (do
      let keys ← key.resolve none request
      let alg ← keys.alg
      run alg keys.key) = .ok b ↔
    ∃ alg, key.Accepts request alg ∧ run alg (key.settled request alg) = .ok b := by
  simp only [bind_eq_ok_iff, resolve_alone_eq_ok_iff]
  constructor
  · rintro ⟨_, ⟨alg, accepts, rfl⟩, a, named, result⟩
    rw [Resolved.alg, alg_settled] at named
    obtain rfl := Except.ok.inj named
    exact ⟨alg, accepts, result⟩
  · rintro ⟨alg, accepts, result⟩
    refine ⟨_, ⟨alg, accepts, rfl⟩, alg, ?_, result⟩
    rw [Resolved.alg, alg_settled]
    rfl

theorem settled_sameParts (key : Key) (request : Request) (alg : Algorithm) :
    key.material.SameParts (key.settled request alg).material := by
  rw [settled_eq_filled]
  exact key.sameParts_filled alg _ _

end Key

end Cose
