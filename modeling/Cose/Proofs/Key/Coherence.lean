import Cose.Proofs.Key.Resolution

/-!
# Coherent key configurations

Three fields are brought together, each from up to three sources. What that takes is said here without the
steps of resolution: algorithm and curve are known to the key or the request, the curve is one of the key's
type, and no two values of a field differ. A configuration that is not coherent has a first field that is
broken, and for every such field there is a reason to refuse it.
-/

set_option autoImplicit false

namespace Cose

open Result

def Consistent {α : Type} (values : List (Option α)) : Prop :=
  ∀ a ∈ values, ∀ b ∈ values, Compatible a b

theorem compatible_bind_iff {α β : Type} {a : Option α} {o : Option β} {f : β → Option α} :
    Compatible a (o.bind f) ↔ ∀ b ∈ o, Compatible a (f b) := by
  cases o <;> simp [Compatible]

/-- Two sources of a field with different values: the key and the request or, if these agree, they and the
peer. -/
inductive Contradiction {α : Type} (held asked theirs : Option α) : Mismatch α → Prop
  | requested {h a : α} (key : held = some h) (request : asked = some a) (differ : h ≠ a) :
      Contradiction held asked theirs (.requested h a)
  | peer {o t : α} (agree : Compatible held asked) (ours : held.or asked = some o) (peer : theirs = some t)
      (differ : o ≠ t) : Contradiction held asked theirs (.peer t o)

section

variable {α : Type} {held asked theirs : Option α}

theorem not_compatible_iff : ¬ Compatible held asked ↔ ∃ h a, held = some h ∧ asked = some a ∧ h ≠ a := by
  simp [Compatible]

theorem compatible_or_iff (agree : Compatible held asked) :
    Compatible (held.or asked) theirs ↔ Compatible held theirs ∧ Compatible asked theirs := by
  cases held with
  | none => simp [Compatible]
  | some h =>
    cases asked with
    | none => simp [Compatible]
    | some a =>
      obtain rfl := agree h a rfl rfl
      simp

theorem consistent_iff : Consistent [held, asked, theirs] ↔
    Compatible held asked ∧ Compatible (held.or asked) theirs := by
  constructor
  · intro h
    have agree : Compatible held asked := h held (by simp) asked (by simp)
    exact ⟨agree, (compatible_or_iff agree).mpr ⟨h held (by simp) theirs (by simp),
      h asked (by simp) theirs (by simp)⟩⟩
  · rintro ⟨agree, rest⟩
    obtain ⟨left, right⟩ := (compatible_or_iff agree).mp rest
    simp [Consistent, compatible_self, agree, agree.symm, left, left.symm, right, right.symm]

theorem not_consistent_iff : ¬ Consistent [held, asked, theirs] ↔ ∃ m, Contradiction held asked theirs m := by
  rw [consistent_iff]
  constructor
  · intro h
    by_cases agree : Compatible held asked
    · have differ : ¬ Compatible (held.or asked) theirs := fun rest => h ⟨agree, rest⟩
      obtain ⟨o, t, ours, peer, differ⟩ := not_compatible_iff.mp differ
      exact ⟨_, .peer agree ours peer differ⟩
    · obtain ⟨h, a, key, request, differ⟩ := not_compatible_iff.mp agree
      exact ⟨_, .requested key request differ⟩
  · rintro ⟨m, contradiction⟩ ⟨agree, rest⟩
    cases contradiction with
    | requested key request differ => exact differ (agree _ _ key request)
    | peer agree ours peer differ => exact differ (rest _ _ ours peer)

end

def Error.field? : Error → Option Field
  | .keyConfigurationConflict cause => some cause.field
  | .missingKeyParameter (.field f) => some f
  | .invalidKeyParameter (.curveFamily _ _) => some .curve
  | _ => none

namespace Resolution

section

variable (key : Key) (peer : Option Key) (request : Request)

/-! The conditions on the three fields. -/

structure AlgorithmCoherent : Prop where
  known : key.alg.isSome ∨ request.alg.isSome
  consistent : Consistent [key.alg, request.alg, peer.bind Key.alg]

/-- A peer that is on no curve takes no part, since it holds none. -/
structure CurveCoherent : Prop where
  known : key.curve.isSome ∨ request.curve.isSome
  consistent : Consistent [key.curve, request.curve, peer.bind Key.curve]
  family : ∀ crv ∈ key.curve.or request.curve, crv.keyType? = some key.keyType
  peer_family : ∀ p ∈ peer, p.hasCurve = true → p.keyType = key.keyType

def KeyOpsCoherent : Prop := Consistent [key.keyOps, request.keyOp, peer.bind Key.keyOps]

structure Coherent : Prop where
  algorithm : AlgorithmCoherent key peer request
  curve : key.hasCurve = true → CurveCoherent key peer request
  keyOps : KeyOpsCoherent key peer request

/-- The first field, in the order algorithm, curve, operation, of which the condition does not hold. -/
inductive FirstBroken : Field → Prop
  | algorithm (broken : ¬ AlgorithmCoherent key peer request) : FirstBroken .algorithm
  | curve (algorithm : AlgorithmCoherent key peer request) (on_curve : key.hasCurve = true)
      (broken : ¬ CurveCoherent key peer request) : FirstBroken .curve
  | keyOperation (algorithm : AlgorithmCoherent key peer request)
      (curve : key.hasCurve = true → CurveCoherent key peer request)
      (broken : ¬ KeyOpsCoherent key peer request) : FirstBroken .keyOperation

inductive Refusal : Error → Prop
  | algorithm {m : Mismatch Algorithm}
      (contradiction : Contradiction key.alg request.alg (peer.bind Key.alg) m) :
      Refusal (.keyConfigurationConflict (.algorithm m))
  | algorithmMissing (held : key.alg = none) (asked : request.alg = none) :
      Refusal (.missingKeyParameter (.field .algorithm))
  | curve {m : Mismatch EllipticCurve} (algorithm : AlgorithmCoherent key peer request)
      (on_curve : key.hasCurve = true)
      (contradiction : Contradiction key.curve request.curve (peer.bind Key.curve) m)
      (family : Compatible key.curve request.curve →
        ∀ crv ∈ key.curve.or request.curve, crv.keyType? = some key.keyType) :
      Refusal (.keyConfigurationConflict (.curve m))
  | curveMissing (algorithm : AlgorithmCoherent key peer request) (on_curve : key.hasCurve = true)
      (held : key.curve = none) (asked : request.curve = none) :
      Refusal (.missingKeyParameter (.field .curve))
  | curveFamily {crv : EllipticCurve} (algorithm : AlgorithmCoherent key peer request)
      (on_curve : key.hasCurve = true) (agree : Compatible key.curve request.curve)
      (chosen : key.curve.or request.curve = some crv) (foreign : crv.keyType? ≠ some key.keyType) :
      Refusal (.keyConfigurationConflict (.curveFamily crv key.keyType))
  | peerFamily {p : Key} {crv : EllipticCurve} (algorithm : AlgorithmCoherent key peer request)
      (on_curve : key.hasCurve = true)
      (consistent : Consistent [key.curve, request.curve, peer.bind Key.curve])
      (chosen : key.curve.or request.curve = some crv) (family : crv.keyType? = some key.keyType)
      (held : peer = some p) (peer_on_curve : p.hasCurve = true) (foreign : p.keyType ≠ key.keyType) :
      Refusal (.invalidKeyParameter (.curveFamily crv p.keyType))
  | keyOps {m : Mismatch KeyOperation} (algorithm : AlgorithmCoherent key peer request)
      (curve : key.hasCurve = true → CurveCoherent key peer request)
      (contradiction : Contradiction key.keyOps request.keyOp (peer.bind Key.keyOps) m) :
      Refusal (.keyConfigurationConflict (.keyOperation m))

end

section

variable {key : Key} {peer : Option Key} {request : Request}

/-! The conditions as the steps of resolution check them. -/

theorem algorithmCoherent_iff : AlgorithmCoherent key peer request ↔ Compatible key.alg request.alg ∧
    ∃ alg, key.alg.or request.alg = some alg ∧ ∀ p ∈ peer, Compatible p.alg (some alg) := by
  constructor
  · rintro ⟨known, consistent⟩
    obtain ⟨agree, rest⟩ := consistent_iff.mp consistent
    have named : (key.alg.or request.alg).isSome := by simpa using known
    obtain ⟨alg, named⟩ := Option.isSome_iff_exists.mp named
    rw [named, compatible_bind_iff] at rest
    exact ⟨agree, alg, named, fun p hp => (rest p hp).symm⟩
  · rintro ⟨agree, alg, named, theirs⟩
    have known : (key.alg.or request.alg).isSome := Option.isSome_iff_exists.mpr ⟨alg, named⟩
    refine ⟨by simpa using known, consistent_iff.mpr ⟨agree, ?_⟩⟩
    rw [named, compatible_bind_iff]
    exact fun p hp => (theirs p hp).symm

theorem curveCoherent_iff : CurveCoherent key peer request ↔ Compatible key.curve request.curve ∧
    ∃ crv, key.curve.or request.curve = some crv ∧ crv.keyType? = some key.keyType ∧
      ∀ p ∈ peer, p.hasCurve = true → Compatible p.curve (some crv) ∧ p.keyType = key.keyType := by
  constructor
  · rintro ⟨known, consistent, family, peer_family⟩
    obtain ⟨agree, rest⟩ := consistent_iff.mp consistent
    have chosen : (key.curve.or request.curve).isSome := by simpa using known
    obtain ⟨crv, chosen⟩ := Option.isSome_iff_exists.mp chosen
    rw [chosen, compatible_bind_iff] at rest
    exact ⟨agree, crv, chosen, family crv chosen, fun p hp h => ⟨(rest p hp).symm, peer_family p hp h⟩⟩
  · rintro ⟨agree, crv, chosen, family, theirs⟩
    have known : (key.curve.or request.curve).isSome := Option.isSome_iff_exists.mpr ⟨crv, chosen⟩
    refine ⟨by simpa using known, consistent_iff.mpr ⟨agree, ?_⟩, ?_, fun p hp h => (theirs p hp h).2⟩
    · rw [chosen, compatible_bind_iff]
      intro p hp
      by_cases h : p.hasCurve = true
      · exact (theirs p hp h).1.symm
      · rw [Key.curve_of_no_curve (Bool.not_eq_true _ ▸ h)]
        simp [Compatible]
    · intro other other_chosen
      obtain rfl := Option.some.inj (chosen.symm.trans other_chosen)
      exact family

theorem keyOpsCoherent_iff : KeyOpsCoherent key peer request ↔ Compatible key.keyOps request.keyOp ∧
    ∀ p ∈ peer, Compatible (key.keyOps.or request.keyOp) p.keyOps := by
  rw [KeyOpsCoherent, consistent_iff, compatible_bind_iff]

theorem coherent_or_broken : Coherent key peer request ∨ ∃ f, FirstBroken key peer request f := by
  by_cases algorithm : AlgorithmCoherent key peer request
  · by_cases curve : key.hasCurve = true → CurveCoherent key peer request
    · by_cases keyOps : KeyOpsCoherent key peer request
      · exact Or.inl ⟨algorithm, curve, keyOps⟩
      · exact Or.inr ⟨_, .keyOperation algorithm curve keyOps⟩
    · obtain ⟨on_curve, broken⟩ := Classical.not_imp.mp curve
      exact Or.inr ⟨_, .curve algorithm on_curve broken⟩
  · exact Or.inr ⟨_, .algorithm algorithm⟩

/-! A broken field is a reason to refuse, and the error says which field it is. -/

theorem unset_of_unknown {α : Type} {held asked : Option α} (unknown : ¬ (held.isSome ∨ asked.isSome)) :
    held = none ∧ asked = none := by
  cases held <;> cases asked <;> simp at unknown ⊢

theorem algorithm_refused (broken : ¬ AlgorithmCoherent key peer request) :
    ∃ e, Refusal key peer request e ∧ e.field? = some .algorithm := by
  by_cases known : key.alg.isSome ∨ request.alg.isSome
  · have differ : ¬ Consistent [key.alg, request.alg, peer.bind Key.alg] := fun h => broken ⟨known, h⟩
    obtain ⟨m, contradiction⟩ := not_consistent_iff.mp differ
    exact ⟨_, .algorithm contradiction, rfl⟩
  · obtain ⟨held, asked⟩ := unset_of_unknown known
    exact ⟨_, .algorithmMissing held asked, rfl⟩

theorem curve_refused (algorithm : AlgorithmCoherent key peer request) (on_curve : key.hasCurve = true)
    (broken : ¬ CurveCoherent key peer request) :
    ∃ e, Refusal key peer request e ∧ e.field? = some .curve := by
  by_cases known : key.curve.isSome ∨ request.curve.isSome
  · by_cases family : Compatible key.curve request.curve →
        ∀ crv ∈ key.curve.or request.curve, crv.keyType? = some key.keyType
    · by_cases consistent : Consistent [key.curve, request.curve, peer.bind Key.curve]
      · -- only the type of the peer is left to be wrong
        have family := family (consistent_iff.mp consistent).1
        have foreign : ¬ ∀ p ∈ peer, p.hasCurve = true → p.keyType = key.keyType :=
          fun h => broken ⟨known, consistent, family, h⟩
        simp only [Classical.not_forall] at foreign
        obtain ⟨p, held, peer_on_curve, foreign⟩ := foreign
        have chosen : (key.curve.or request.curve).isSome := by simpa using known
        obtain ⟨crv, chosen⟩ := Option.isSome_iff_exists.mp chosen
        exact ⟨_, .peerFamily algorithm on_curve consistent chosen (family crv chosen) held peer_on_curve
          foreign, rfl⟩
      · obtain ⟨m, contradiction⟩ := not_consistent_iff.mp consistent
        exact ⟨_, .curve algorithm on_curve contradiction family, rfl⟩
    · simp only [Classical.not_forall] at family
      obtain ⟨agree, crv, chosen, foreign⟩ := family
      exact ⟨_, .curveFamily algorithm on_curve agree chosen foreign, rfl⟩
  · obtain ⟨held, asked⟩ := unset_of_unknown known
    exact ⟨_, .curveMissing algorithm on_curve held asked, rfl⟩

theorem keyOps_refused (algorithm : AlgorithmCoherent key peer request)
    (curve : key.hasCurve = true → CurveCoherent key peer request)
    (broken : ¬ KeyOpsCoherent key peer request) :
    ∃ e, Refusal key peer request e ∧ e.field? = some .keyOperation := by
  obtain ⟨m, contradiction⟩ := not_consistent_iff.mp broken
  exact ⟨_, .keyOps algorithm curve contradiction, rfl⟩

theorem refused_of_broken {f : Field} (broken : FirstBroken key peer request f) :
    ∃ e, Refusal key peer request e ∧ e.field? = some f := by
  cases broken with
  | algorithm broken => exact algorithm_refused broken
  | curve algorithm on_curve broken => exact curve_refused algorithm on_curve broken
  | keyOperation algorithm curve broken => exact keyOps_refused algorithm curve broken

theorem broken_of_refused {e : Error} (refusal : Refusal key peer request e) :
    ∃ f, e.field? = some f ∧ FirstBroken key peer request f := by
  cases refusal with
  | algorithm contradiction =>
    exact ⟨_, rfl, .algorithm fun h => not_consistent_iff.mpr ⟨_, contradiction⟩ h.consistent⟩
  | algorithmMissing held asked =>
    refine ⟨_, rfl, .algorithm fun h => ?_⟩
    simpa [held, asked] using h.known
  | curve algorithm on_curve contradiction _ =>
    exact ⟨_, rfl, .curve algorithm on_curve fun h =>
      not_consistent_iff.mpr ⟨_, contradiction⟩ h.consistent⟩
  | curveMissing algorithm on_curve held asked =>
    refine ⟨_, rfl, .curve algorithm on_curve fun h => ?_⟩
    simpa [held, asked] using h.known
  | curveFamily algorithm on_curve _ chosen foreign =>
    exact ⟨_, rfl, .curve algorithm on_curve fun h => foreign (h.family _ chosen)⟩
  | peerFamily algorithm on_curve _ _ _ held peer_on_curve foreign =>
    exact ⟨_, rfl, .curve algorithm on_curve fun h => foreign (h.peer_family _ held peer_on_curve)⟩
  | keyOps algorithm curve contradiction =>
    exact ⟨_, rfl, .keyOperation algorithm curve (not_consistent_iff.mpr ⟨_, contradiction⟩)⟩

end

end Resolution

end Cose
