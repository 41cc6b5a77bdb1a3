import Mathlib.Tactic.SplitIfs
import Cose.Proofs.Key.Fields

/-!
# The steps of resolution

Each of the three steps accepts exactly what does not disagree, and leaves keys in which one more field is
settled.
-/

set_option autoImplicit false

namespace Cose

open Result

section

variable {α : Type} {a b : Option α} {x : α}

theorem Compatible.symm (h : Compatible a b) : Compatible b a :=
  fun x y hx hy => (h y x hy hx).symm

theorem compatible_of_or (h : a.or b = some x) : Compatible a (some x) := by
  cases a with
  | none => simp [Compatible]
  | some y => simpa [Compatible] using h

theorem Compatible.or_comm (h : Compatible a b) : a.or b = b.or a := by
  cases a with
  | none => simp
  | some x =>
    cases b with
    | none => simp
    | some y => simpa using h x y rfl rfl

end

namespace Resolution

section

variable {α : Type} [DecidableEq α]

theorem settle_eq_ok_iff (conflict : Mismatch α → Conflict) (held asked r : Option α) :
    settle conflict held asked = .ok r ↔ Compatible held asked ∧ r = held.or asked := by
  cases asked with
  | none => cases held <;> simp [settle, Compatible, eq_comm]
  | some y =>
    rw [compatible_some_iff]
    cases held with
    | none => simp [settle, eq_comm]
    | some x =>
      by_cases h : x = y
      · simp [settle, h, eq_comm]
      · simp [settle, h]

theorem agree_eq_ok_iff (conflict : Mismatch α → Conflict) (ours theirs r : Option α) :
    agree conflict ours theirs = .ok r ↔ Compatible ours theirs ∧ r = ours.or theirs := by
  cases theirs with
  | none => cases ours <;> simp [agree, Compatible, eq_comm]
  | some y =>
    rw [compatible_some_iff]
    cases ours with
    | none => simp [agree, eq_comm]
    | some x =>
      by_cases h : x = y
      · simp [agree, h, eq_comm]
      · simp [agree, h]

omit [DecidableEq α] in
theorem required_eq_ok_iff (f : Field) (o : Option α) (x : α) : required f o = .ok x ↔ o = some x := by
  cases o <;> simp [required]

end

theorem resolveAlgorithm_eq_ok_iff (request : Request) (key : Key) (peer : Option Key) (keys : Resolved) :
    resolveAlgorithm request ⟨key, peer⟩ = .ok keys ↔ Compatible key.alg request.alg ∧
      ∃ alg, key.alg.or request.alg = some alg ∧ (∀ p ∈ peer, Compatible p.alg (some alg)) ∧
        keys = ⟨key.withAlg alg, peer.map (·.withAlg alg)⟩ := by
  simp only [resolveAlgorithm, bind_eq_ok_iff, settle_eq_ok_iff, required_eq_ok_iff, Key.setAlg_eq_ok_iff]
  constructor
  · rintro ⟨_, ⟨compatible, rfl⟩, alg, settled, _, ⟨-, rfl⟩, rest⟩
    refine ⟨compatible, alg, settled, ?_⟩
    cases peer with
    | none =>
      obtain rfl := Except.ok.inj rest
      simp
    | some p =>
      simp only [bind_eq_ok_iff, agree_eq_ok_iff, Key.setAlg_eq_ok_iff] at rest
      obtain ⟨_, -, _, ⟨theirs, rfl⟩, rest⟩ := rest
      obtain rfl := Except.ok.inj rest
      simpa using theirs
  · rintro ⟨compatible, alg, settled, theirs, rfl⟩
    refine ⟨_, ⟨compatible, rfl⟩, alg, settled, _, ⟨compatible_of_or settled, rfl⟩, ?_⟩
    cases peer with
    | none => rfl
    | some p =>
      have theirs := theirs p rfl
      simp only [bind_eq_ok_iff, agree_eq_ok_iff, Key.setAlg_eq_ok_iff]
      exact ⟨_, ⟨theirs.symm, rfl⟩, _, ⟨theirs, rfl⟩, rfl⟩

theorem resolveCurve_of_no_curve (request : Request) (key : Key) (peer : Option Key)
    (h : key.hasCurve = false) : resolveCurve request ⟨key, peer⟩ = .ok ⟨key, peer⟩ := by
  simp [resolveCurve, h]

theorem resolveCurve_eq_ok_iff (request : Request) (key : Key) (peer : Option Key) (keys : Resolved)
    (h : key.hasCurve = true) : resolveCurve request ⟨key, peer⟩ = .ok keys ↔
      Compatible key.curve request.curve ∧
      ∃ crv, key.curve.or request.curve = some crv ∧ crv.keyType? = some key.keyType ∧
        (∀ p ∈ peer, p.hasCurve = true → Compatible p.curve (some crv) ∧ p.keyType = key.keyType) ∧
        keys = ⟨key.onCurve crv, peer.map (·.onCurve crv)⟩ := by
  simp only [resolveCurve, h, if_true, bind_eq_ok_iff, settle_eq_ok_iff, required_eq_ok_iff]
  constructor
  · rintro ⟨_, ⟨compatible, rfl⟩, crv, settled, rest⟩
    split_ifs at rest with family
    obtain ⟨_, set, rest⟩ := bind_eq_ok_iff.mp rest
    obtain ⟨-, -, -, rfl⟩ := (Key.setCurve_eq_ok_iff _ _ _).mp set
    refine ⟨compatible, crv, settled, family, ?_⟩
    cases peer with
    | none =>
      obtain rfl := Except.ok.inj rest
      simp
    | some p =>
      by_cases hp : p.hasCurve = true
      · simp only [hp, if_true, bind_eq_ok_iff, agree_eq_ok_iff, Key.setCurve_eq_ok_iff] at rest
        obtain ⟨_, -, _, ⟨-, their_family, theirs, rfl⟩, rest⟩ := rest
        obtain rfl := Except.ok.inj rest
        have same : p.keyType = key.keyType := Option.some.inj (their_family.symm.trans family)
        simp [theirs, same]
      · simp only [hp, if_false, Bool.false_eq_true, Except.ok.injEq] at rest
        have unchanged := Key.onCurve_of_no_curve (Bool.not_eq_true _ ▸ hp) crv
        simp [← rest, hp, unchanged]
  · rintro ⟨compatible, crv, settled, family, theirs, rfl⟩
    refine ⟨_, ⟨compatible, rfl⟩, crv, settled, ?_⟩
    rw [if_pos family]
    have set := (Key.setCurve_eq_ok_iff key crv _).mpr ⟨h, family, compatible_of_or settled, rfl⟩
    refine bind_eq_ok_iff.mpr ⟨_, set, ?_⟩
    cases peer with
    | none => rfl
    | some p =>
      by_cases hp : p.hasCurve = true
      · obtain ⟨theirs, same⟩ := theirs p rfl hp
        simp only [hp, if_true, bind_eq_ok_iff, agree_eq_ok_iff, Key.setCurve_eq_ok_iff]
        exact ⟨_, ⟨theirs.symm, rfl⟩, _, ⟨trivial, same ▸ family, theirs, rfl⟩, rfl⟩
      · have unchanged := Key.onCurve_of_no_curve (Bool.not_eq_true _ ▸ hp) crv
        simp [hp, unchanged]

theorem fillKeyOps_eq_ok_iff (key : Key) (op : Option KeyOperation) (result : Key) :
    fillKeyOps key op = .ok result ↔
      Compatible key.keyOps op ∧ result = key.withKeyOps (key.keyOps.or op) := by
  cases op with
  | none => simp [fillKeyOps, Compatible, Key.withKeyOps_self, eq_comm]
  | some op =>
    rw [fillKeyOps, Key.setKeyOps_eq_ok_iff, compatible_some_iff]
    constructor
    · rintro ⟨held, rfl⟩
      refine ⟨held, ?_⟩
      rcases held with held | held <;> simp [held]
    · rintro ⟨held, rfl⟩
      refine ⟨held, ?_⟩
      rcases held with held | held <;> simp [held]

theorem fillKeyOps_or (key : Key) (op : Option KeyOperation) :
    fillKeyOps key (key.keyOps.or op) = .ok (key.withKeyOps (key.keyOps.or op)) := by
  rw [fillKeyOps_eq_ok_iff]
  cases key.keyOps <;> simp [Compatible]

/-- The operation of the key and the request stands; the peer's is taken only if there is none. -/
theorem resolveKeyOps_eq_ok_iff (request : Request) (key : Key) (peer : Option Key) (keys : Resolved) :
    resolveKeyOps request ⟨key, peer⟩ = .ok keys ↔ Compatible key.keyOps request.keyOp ∧
      (∀ p ∈ peer, Compatible (key.keyOps.or request.keyOp) p.keyOps) ∧
      keys = ⟨key.withKeyOps ((key.keyOps.or request.keyOp).or (peer.bind Key.keyOps)),
        peer.map (·.withKeyOps ((key.keyOps.or request.keyOp).or (peer.bind Key.keyOps)))⟩ := by
  cases peer with
  | none =>
    have ours := fillKeyOps_or key request.keyOp
    rw [eq_comm (a := keys)]
    simp [resolveKeyOps, bind_eq_ok_iff, settle_eq_ok_iff, and_assoc, ours]
  | some p =>
    have ours := fillKeyOps_or key (request.keyOp.or p.keyOps)
    rw [← Option.or_assoc] at ours
    have theirs (agrees : Compatible (key.keyOps.or request.keyOp) p.keyOps) :
        fillKeyOps p ((key.keyOps.or request.keyOp).or p.keyOps) =
          .ok (p.withKeyOps ((key.keyOps.or request.keyOp).or p.keyOps)) := by
      rw [agrees.or_comm]
      exact fillKeyOps_or p _
    simp only [resolveKeyOps, bind_eq_ok_iff, settle_eq_ok_iff, agree_eq_ok_iff]
    constructor
    · rintro ⟨_, ⟨compatible, rfl⟩, _, ⟨agrees, rfl⟩, rest⟩
      rw [theirs agrees, ours] at rest
      simpa [compatible, agrees, eq_comm] using rest
    · rintro ⟨compatible, agrees, rfl⟩
      have agrees := agrees p rfl
      refine ⟨_, ⟨compatible, rfl⟩, _, ⟨agrees, rfl⟩, ?_⟩
      rw [theirs agrees, ours]
      simp

end Resolution

end Cose
