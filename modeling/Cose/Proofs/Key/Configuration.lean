import Cose.Proofs.Key.Completion

/-!
# What resolution does

Each step of resolution accepts its field exactly if it is coherent and fills in the value that this leaves.
Together they accept the coherent configurations, and every other one is refused for its first broken field.
-/

set_option autoImplicit false

namespace Cose

open Result

namespace Key

theorem setCurve_foreign (key : Key) {crv : EllipticCurve} (on_curve : key.hasCurve = true)
    (outside : crv.keyType? ≠ some key.keyType) :
    key.setCurve crv = .error (.invalidKeyParameter (.curveFamily crv key.keyType)) := by
  obtain ⟨material, attributes⟩ := key
  cases material with
  | okp k =>
    rw [keyType] at outside
    simp [setCurve, EllipticCurve.within, outside, keyType]
  | ec2 k =>
    rw [keyType] at outside
    simp [setCurve, EllipticCurve.within, outside, keyType]
  | _ => simp [hasCurve] at on_curve

end Key

namespace Resolution

section

variable {key : Key} {peer : Option Key} {request : Request}

theorem resolveAlgorithm_coherent (keys : Resolved) : resolveAlgorithm request ⟨key, peer⟩ = .ok keys ↔
    AlgorithmCoherent key peer request ∧ ∃ alg, key.alg.or request.alg = some alg ∧
      keys = ⟨key.withAlg alg, peer.map (·.withAlg alg)⟩ := by
  rw [resolveAlgorithm_eq_ok_iff, algorithmCoherent_iff]
  constructor
  · rintro ⟨agree, alg, named, theirs, rfl⟩
    exact ⟨⟨agree, alg, named, theirs⟩, alg, named, rfl⟩
  · rintro ⟨⟨agree, alg, named, theirs⟩, other, other_named, rfl⟩
    obtain rfl := Option.some.inj (named.symm.trans other_named)
    exact ⟨agree, alg, named, theirs, rfl⟩

theorem resolveCurve_coherent (keys : Resolved) : resolveCurve request ⟨key, peer⟩ = .ok keys ↔
    (key.hasCurve = true → CurveCoherent key peer request) ∧
      keys = ⟨key.onCurve? (chosenCurve key request), peer.map (·.onCurve? (chosenCurve key request))⟩ := by
  by_cases h : key.hasCurve = true
  · rw [resolveCurve_eq_ok_iff request key peer keys h, curveCoherent_iff, chosenCurve, if_pos h]
    constructor
    · rintro ⟨agree, crv, chosen, family, theirs, rfl⟩
      rw [chosen]
      exact ⟨fun _ => ⟨agree, crv, rfl, family, theirs⟩, rfl⟩
    · rintro ⟨coherent, rfl⟩
      obtain ⟨agree, crv, chosen, family, theirs⟩ := coherent h
      rw [chosen]
      exact ⟨agree, crv, rfl, family, theirs, rfl⟩
  · have no_curve : key.hasCurve = false := by simpa using h
    have unchanged : (fun p : Key => p.onCurve? none) = id := rfl
    rw [resolveCurve_of_no_curve request key peer no_curve, chosenCurve, if_neg h, unchanged]
    simp [h, Key.onCurve?, eq_comm]

theorem resolveKeyOps_coherent (keys : Resolved) : resolveKeyOps request ⟨key, peer⟩ = .ok keys ↔
    KeyOpsCoherent key peer request ∧
      keys = ⟨key.withKeyOps (agreedKeyOps key peer request),
        peer.map (·.withKeyOps (agreedKeyOps key peer request))⟩ := by
  rw [resolveKeyOps_eq_ok_iff, keyOpsCoherent_iff, and_assoc]
  rfl

/-! Filling in one field changes nothing that the next ones depend on. -/

theorem curveCoherent_withAlg (alg : Algorithm) :
    CurveCoherent (key.withAlg alg) (peer.map (·.withAlg alg)) request ↔ CurveCoherent key peer request := by
  rw [curveCoherent_iff, curveCoherent_iff]
  cases peer <;> simp

theorem keyOpsCoherent_map {f : Key → Key} (kept : ∀ k, (f k).keyOps = k.keyOps) :
    KeyOpsCoherent (f key) (peer.map f) request ↔ KeyOpsCoherent key peer request := by
  rw [keyOpsCoherent_iff, keyOpsCoherent_iff]
  cases peer <;> simp [kept]

theorem agreedKeyOps_map {f : Key → Key} (kept : ∀ k, (f k).keyOps = k.keyOps) :
    agreedKeyOps (f key) (peer.map f) request = agreedKeyOps key peer request := by
  cases peer <;> simp [agreedKeyOps, kept]

theorem resolve_eq_ok_iff (keys : Resolved) : key.resolve peer request = .ok keys ↔
    Coherent key peer request ∧ ∃ alg, key.alg.or request.alg = some alg ∧
      keys = ⟨key.filled alg (chosenCurve key request) (agreedKeyOps key peer request),
        peer.map (·.filled alg (chosenCurve key request) (agreedKeyOps key peer request))⟩ := by
  have chosen_kept (alg : Algorithm) : chosenCurve (key.withAlg alg) request = chosenCurve key request := rfl
  have kept (alg : Algorithm) (crv : Option EllipticCurve) (k : Key) :
      ((k.withAlg alg).onCurve? crv).keyOps = k.keyOps := by simp
  simp only [Key.resolve, bind_eq_ok_iff, resolveAlgorithm_coherent]
  constructor
  · rintro ⟨_, ⟨algorithm, alg, named, rfl⟩, _, curve, keyOps⟩
    obtain ⟨on_curve, rfl⟩ := (resolveCurve_coherent _).mp curve
    rw [curveCoherent_withAlg] at on_curve
    rw [resolveKeyOps_coherent, chosen_kept, Option.map_map, Option.map_map] at keyOps
    simp only [Function.comp_def] at keyOps
    rw [keyOpsCoherent_map (kept alg _), agreedKeyOps_map (kept alg _)] at keyOps
    exact ⟨⟨algorithm, on_curve, keyOps.1⟩, alg, named, keyOps.2⟩
  · rintro ⟨⟨algorithm, curve, keyOps⟩, alg, named, rfl⟩
    have curve : (key.withAlg alg).hasCurve = true →
        CurveCoherent (key.withAlg alg) (peer.map (·.withAlg alg)) request :=
      fun h => (curveCoherent_withAlg alg).mpr (curve h)
    refine ⟨_, ⟨algorithm, alg, named, rfl⟩, _, (resolveCurve_coherent _).mpr ⟨curve, rfl⟩, ?_⟩
    rw [resolveKeyOps_coherent, chosen_kept, Option.map_map, Option.map_map]
    simp only [Function.comp_def]
    rw [keyOpsCoherent_map (kept alg _), agreedKeyOps_map (kept alg _)]
    exact ⟨keyOps, rfl⟩

/-! Each contradiction stops the step whose field it is about. -/

section

variable {α : Type} [DecidableEq α] {held asked theirs : Option α}

theorem settle_refused (conflict : Mismatch α → Conflict) {h a : α} (key : held = some h)
    (request : asked = some a) (differ : h ≠ a) :
    settle conflict held asked = .error (.keyConfigurationConflict (conflict (.requested h a))) := by
  simp [settle, key, request, differ]

theorem settle_chosen (conflict : Mismatch α → Conflict) (agree : Compatible held asked) :
    settle conflict held asked = .ok (held.or asked) :=
  (settle_eq_ok_iff conflict held asked _).mpr ⟨agree, rfl⟩

theorem agree_refused (conflict : Mismatch α → Conflict) {o t : α} (peer : theirs = some t) (differ : o ≠ t) :
    agree conflict (some o) theirs = .error (.keyConfigurationConflict (conflict (.peer t o))) := by
  simp [agree, peer, differ]

end

theorem resolveAlgorithm_refused {m : Mismatch Algorithm}
    (contradiction : Contradiction key.alg request.alg (peer.bind Key.alg) m) :
    resolveAlgorithm request ⟨key, peer⟩ = .error (.keyConfigurationConflict (.algorithm m)) := by
  cases contradiction with
  | requested held asked differ => simp [resolveAlgorithm, settle_refused _ held asked differ]
  | peer agree ours theirs differ =>
    obtain ⟨p, rfl, held⟩ := Option.bind_eq_some_iff.mp theirs
    have set := (key.setAlg_eq_ok_iff _ _).mpr ⟨compatible_of_or ours, rfl⟩
    simp [resolveAlgorithm, settle_chosen _ agree, ours, required, set, agree_refused _ held differ]

theorem resolveCurve_refused {m : Mismatch EllipticCurve} (on_curve : key.hasCurve = true)
    (contradiction : Contradiction key.curve request.curve (peer.bind Key.curve) m)
    (family : Compatible key.curve request.curve →
      ∀ crv ∈ key.curve.or request.curve, crv.keyType? = some key.keyType) :
    resolveCurve request ⟨key, peer⟩ = .error (.keyConfigurationConflict (.curve m)) := by
  cases contradiction with
  | requested held asked differ => simp [resolveCurve, on_curve, settle_refused _ held asked differ]
  | peer agree ours theirs differ =>
    obtain ⟨p, rfl, held⟩ := Option.bind_eq_some_iff.mp theirs
    have family := family agree _ ours
    have set := (key.setCurve_eq_ok_iff _ _).mpr ⟨on_curve, family, compatible_of_or ours, rfl⟩
    simp [resolveCurve, on_curve, settle_chosen _ agree, ours, required, family, set,
      Key.hasCurve_of_curve held, agree_refused _ held differ]

theorem resolveKeyOps_refused {m : Mismatch KeyOperation}
    (contradiction : Contradiction key.keyOps request.keyOp (peer.bind Key.keyOps) m) :
    resolveKeyOps request ⟨key, peer⟩ = .error (.keyConfigurationConflict (.keyOperation m)) := by
  cases contradiction with
  | requested held asked differ => simp [resolveKeyOps, settle_refused _ held asked differ]
  | peer agree ours theirs differ =>
    obtain ⟨p, rfl, held⟩ := Option.bind_eq_some_iff.mp theirs
    simp [resolveKeyOps, settle_chosen _ agree, ours, agree_refused _ held differ]

theorem resolveCurve_peer_refused {p : Key} {crv : EllipticCurve} (on_curve : key.hasCurve = true)
    (consistent : Consistent [key.curve, request.curve, (some p).bind Key.curve])
    (chosen : key.curve.or request.curve = some crv) (family : crv.keyType? = some key.keyType)
    (peer_on_curve : p.hasCurve = true) (foreign : p.keyType ≠ key.keyType) :
    resolveCurve request ⟨key, some p⟩ = .error (.invalidKeyParameter (.curveFamily crv p.keyType)) := by
  obtain ⟨compatible, theirs⟩ := consistent_iff.mp consistent
  rw [chosen] at theirs
  have set := (key.setCurve_eq_ok_iff _ _).mpr ⟨on_curve, family, compatible_of_or chosen, rfl⟩
  have agreed := (agree_eq_ok_iff .curve (some crv) p.curve _).mpr ⟨theirs, rfl⟩
  have outside : crv.keyType? ≠ some p.keyType := fun h => foreign (Option.some.inj (h.symm.trans family))
  simp [resolveCurve, on_curve, settle_chosen _ compatible, chosen, required, family, set, peer_on_curve,
    agreed, p.setCurve_foreign peer_on_curve outside]

/-- Every reason for a refusal is reported as such: the steps before it succeed, and its own step stops. -/
theorem resolve_of_refusal {e : Error} (refusal : Refusal key peer request e) :
    key.resolve peer request = .error e := by
  have first (algorithm : AlgorithmCoherent key peer request) :
      ∃ alg, resolveAlgorithm request ⟨key, peer⟩ = .ok ⟨key.withAlg alg, peer.map (·.withAlg alg)⟩ := by
    obtain ⟨-, alg, named, -⟩ := algorithmCoherent_iff.mp algorithm
    exact ⟨alg, (resolveAlgorithm_coherent _).mpr ⟨algorithm, alg, named, rfl⟩⟩
  rw [Key.resolve]
  cases refusal with
  | algorithm contradiction => rw [resolveAlgorithm_refused contradiction, error_bind]
  | algorithmMissing held asked => simp [resolveAlgorithm, settle, held, asked, required]
  | @curve m algorithm on_curve contradiction family =>
    obtain ⟨alg, done⟩ := first algorithm
    have curve_kept : (peer.map (·.withAlg alg)).bind Key.curve = peer.bind Key.curve := by
      cases peer <;> rfl
    rw [← curve_kept] at contradiction
    have stop : resolveCurve request ⟨key.withAlg alg, peer.map (·.withAlg alg)⟩ =
        .error (.keyConfigurationConflict (.curve m)) :=
      resolveCurve_refused on_curve contradiction family
    rw [done, ok_bind, stop, error_bind]
  | curveMissing algorithm on_curve held asked =>
    obtain ⟨alg, done⟩ := first algorithm
    rw [done, ok_bind]
    simp [resolveCurve, on_curve, settle, held, asked, required]
  | curveFamily algorithm on_curve agree chosen foreign =>
    obtain ⟨alg, done⟩ := first algorithm
    rw [done, ok_bind]
    simp [resolveCurve, on_curve, settle_chosen _ agree, chosen, required, foreign]
  | @peerFamily p crv algorithm on_curve consistent chosen family held peer_on_curve foreign =>
    obtain ⟨alg, done⟩ := first algorithm
    subst held
    have stop : resolveCurve request ⟨key.withAlg alg, some (p.withAlg alg)⟩ =
        .error (.invalidKeyParameter (.curveFamily crv p.keyType)) :=
      resolveCurve_peer_refused on_curve consistent chosen family peer_on_curve foreign
    rw [done, ok_bind, Option.map_some, stop, error_bind]
  | keyOps algorithm curve contradiction =>
    obtain ⟨alg, done⟩ := first algorithm
    have on_curve : (key.withAlg alg).hasCurve = true →
        CurveCoherent (key.withAlg alg) (peer.map (·.withAlg alg)) request :=
      fun h => (curveCoherent_withAlg alg).mpr (curve h)
    rw [done, ok_bind, (resolveCurve_coherent _).mpr ⟨on_curve, rfl⟩, ok_bind]
    apply resolveKeyOps_refused
    cases peer <;> simpa using contradiction

theorem resolve_completed (keys : Resolved) : key.resolve peer request = .ok keys ↔
    Coherent key peer request ∧ Completed key peer request key keys.key ∧
      Option.Rel (Completed key peer request) peer keys.peer := by
  rw [resolve_eq_ok_iff]
  apply and_congr_right
  intro coherent
  obtain ⟨-, alg, named, -⟩ := algorithmCoherent_iff.mp coherent.algorithm
  have ours := completed_filled coherent named (k := key) (Or.inl rfl)
  constructor
  · rintro ⟨other, other_named, rfl⟩
    obtain rfl := Option.some.inj (named.symm.trans other_named)
    refine ⟨ours, ?_⟩
    cases peer with
    | none => exact .none
    | some p => exact .some (completed_filled coherent named (Or.inr rfl))
  · rintro ⟨key_completed, peer_completed⟩
    refine ⟨alg, named, ?_⟩
    obtain ⟨resolved, peer'⟩ := keys
    obtain rfl := completed_unique key_completed ours
    cases peer_completed with
    | none => rfl
    | some completed =>
      obtain rfl := completed_unique completed (completed_filled coherent named (Or.inr rfl))
      rfl

/-- Resolution in full. It succeeds on the coherent configurations and leaves both keys with the values that
these settle on and no other change. Every other one is refused, for the first field that is broken in the
order algorithm, curve, operation: with a conflict on that field if two values differ or the curve is not one of
the key's type, as missing if neither key nor request has a value, and with an invalid parameter if a peer
without a curve is of the other type. -/
theorem resolve_coherent_or_refused (key : Key) (peer : Option Key) (request : Request) :
    ((∃ keys, key.resolve peer request = .ok keys) ↔ Coherent key peer request) ∧
    (∀ keys, key.resolve peer request = .ok keys ↔
      Coherent key peer request ∧ Completed key peer request key keys.key ∧
        Option.Rel (Completed key peer request) peer keys.peer) ∧
    (∀ f, (∃ e, key.resolve peer request = .error e ∧ e.field? = some f) ↔
      FirstBroken key peer request f) ∧
    (∀ e, key.resolve peer request = .error e ↔ Refusal key peer request e) := by
  have succeeds (coherent : Coherent key peer request) : ∃ keys, key.resolve peer request = .ok keys := by
    obtain ⟨-, alg, named, -⟩ := algorithmCoherent_iff.mp coherent.algorithm
    exact ⟨_, (resolve_eq_ok_iff _).mpr ⟨coherent, alg, named, rfl⟩⟩
  have refused (e : Error) : key.resolve peer request = .error e ↔ Refusal key peer request e := by
    refine ⟨fun stopped => ?_, resolve_of_refusal⟩
    rcases coherent_or_broken with coherent | ⟨f, broken⟩
    · obtain ⟨keys, resolved⟩ := succeeds coherent
      simp [resolved] at stopped
    · obtain ⟨other, refusal, -⟩ := refused_of_broken broken
      obtain rfl := Except.error.inj ((resolve_of_refusal refusal).symm.trans stopped)
      exact refusal
  refine ⟨⟨?_, succeeds⟩, resolve_completed, fun f => ⟨?_, ?_⟩, refused⟩
  · rintro ⟨keys, resolved⟩
    exact ((resolve_completed keys).mp resolved).1
  · rintro ⟨e, stopped, field⟩
    obtain ⟨g, other, broken⟩ := broken_of_refused ((refused e).mp stopped)
    obtain rfl := Option.some.inj (field.symm.trans other)
    exact broken
  · intro broken
    obtain ⟨e, refusal, field⟩ := refused_of_broken broken
    exact ⟨e, resolve_of_refusal refusal, field⟩

end

end Resolution

end Cose
