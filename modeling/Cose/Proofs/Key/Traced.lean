import Cose.Proofs.Key.Configuration

/-!
# Where resolution stops

Resolution compares values before it assigns them. Traced resolution is resolution with a mark on every error
that says which comparison or assignment it comes from; without the marks it is resolution. Every assignment but
one is made to a field that takes the value, because a comparison before it has let the value through. The
exception is the curve of a peer that names none, since there is nothing to compare.
-/

set_option autoImplicit false

namespace Cose

open Result

namespace Resolution

/-- What may fail in resolution: a comparison of its own, or an assignment to a field of the key or the peer. -/
inductive Step where
  | compare
  | setKey (f : Field)
  | setPeer (f : Field)
  deriving DecidableEq

abbrev Traced (α : Type) := Except (Step × Error) α

def trace {α : Type} (step : Step) (r : Result α) : Traced α := r.mapError (Prod.mk step)

def erase {α : Type} (r : Traced α) : Result α := r.mapError Prod.snd

def tracedAlgorithm (request : Request) (keys : Resolved) : Traced Resolved := do
  let alg ← trace .compare (settle .algorithm keys.key.alg request.alg)
  let alg ← trace .compare (required .algorithm alg)
  let key ← trace (.setKey .algorithm) (keys.key.setAlg alg)
  match keys.peer with
  | none => .ok ⟨key, none⟩
  | some peer =>
    let _ ← trace .compare (agree .algorithm (some alg) peer.alg)
    let peer ← trace (.setPeer .algorithm) (peer.setAlg alg)
    .ok ⟨key, some peer⟩

def tracedCurve (request : Request) (keys : Resolved) : Traced Resolved :=
  if keys.key.hasCurve then do
    let crv ← trace .compare (settle .curve keys.key.curve request.curve)
    let crv ← trace .compare (required .curve crv)
    if crv.keyType? = some keys.key.keyType then
      let key ← trace (.setKey .curve) (keys.key.setCurve crv)
      match keys.peer with
      | none => .ok ⟨key, none⟩
      | some peer =>
        if peer.hasCurve then
          let _ ← trace .compare (agree .curve (some crv) peer.curve)
          let peer ← trace (.setPeer .curve) (peer.setCurve crv)
          .ok ⟨key, some peer⟩
        else .ok ⟨key, some peer⟩
    else trace .compare (.error (.keyConfigurationConflict (.curveFamily crv keys.key.keyType)))
  else .ok keys

def tracedKeyOps (request : Request) (keys : Resolved) : Traced Resolved := do
  let op ← trace .compare (settle .keyOperation keys.key.keyOps request.keyOp)
  match keys.peer with
  | none =>
    let key ← trace (.setKey .keyOperation) (fillKeyOps keys.key op)
    .ok ⟨key, none⟩
  | some peer =>
    let op ← trace .compare (agree .keyOperation op peer.keyOps)
    let peer ← trace (.setPeer .keyOperation) (fillKeyOps peer op)
    let key ← trace (.setKey .keyOperation) (fillKeyOps keys.key op)
    .ok ⟨key, some peer⟩

def traced (key : Key) (peer : Option Key) (request : Request) : Traced Resolved := do
  let keys ← tracedAlgorithm request ⟨key, peer⟩
  let keys ← tracedCurve request keys
  tracedKeyOps request keys

section

variable {α β : Type}

@[simp] theorem erase_ok (a : α) : erase (.ok a) = .ok a := rfl

@[simp] theorem erase_trace (step : Step) (r : Result α) : erase (trace step r) = r := by
  cases r <;> rfl

@[simp] theorem erase_bind (r : Traced α) (f : α → Traced β) :
    erase (r >>= f) = erase r >>= fun a => erase (f a) := by
  cases r <;> rfl

theorem erase_eq_ok_iff {r : Traced α} {a : α} : erase r = .ok a ↔ r = .ok a := mapError_eq_ok_iff

theorem trace_eq_ok_iff {step : Step} {r : Result α} {a : α} : trace step r = .ok a ↔ r = .ok a :=
  mapError_eq_ok_iff

theorem trace_ok_bind {step : Step} {r : Result α} {a : α} (done : r = .ok a) (f : α → Traced β) :
    trace step r >>= f = f a := by
  rw [trace_eq_ok_iff.mpr done, ok_bind]

theorem trace_fails {step : Step} {r : Result α} {p : Step × Error → Prop}
    (h : ∀ e, r = .error e → p (step, e)) : FailsOnly p (trace step r) := by
  cases r with
  | ok a => exact failsOnly_ok a
  | error e => exact failsOnly_error (h e rfl)

end

/-! Without the marks every step is the step of resolution. -/

theorem erase_tracedAlgorithm (request : Request) (keys : Resolved) :
    erase (tracedAlgorithm request keys) = resolveAlgorithm request keys := by
  obtain ⟨key, peer⟩ := keys
  cases peer <;> simp [tracedAlgorithm, resolveAlgorithm]

theorem erase_tracedCurve (request : Request) (keys : Resolved) :
    erase (tracedCurve request keys) = resolveCurve request keys := by
  obtain ⟨key, peer⟩ := keys
  rw [tracedCurve, resolveCurve, apply_ite erase]
  congr 1
  cases peer <;> simp [apply_ite erase]

theorem erase_tracedKeyOps (request : Request) (keys : Resolved) :
    erase (tracedKeyOps request keys) = resolveKeyOps request keys := by
  obtain ⟨key, peer⟩ := keys
  cases peer <;> simp [tracedKeyOps, resolveKeyOps]

theorem erase_traced (key : Key) (peer : Option Key) (request : Request) :
    erase (traced key peer request) = key.resolve peer request := by
  simp only [traced, Key.resolve, erase_bind, erase_tracedAlgorithm, erase_tracedCurve, erase_tracedKeyOps]

/-- The failures that are left: a comparison, or the curve given to a peer of the other family that names no
curve. -/
def Stops (key : Key) (peer : Option Key) (failure : Step × Error) : Prop :=
  failure.1 = .compare ∨ failure.1 = .setPeer .curve ∧
    ∃ p, peer = some p ∧ p.hasCurve = true ∧ p.curve = none ∧ p.keyType ≠ key.keyType

section

variable {key : Key} {peer : Option Key}

theorem compare_stops {α : Type} (r : Result α) : FailsOnly (Stops key peer) (trace .compare r) :=
  trace_fails fun _ _ => Or.inl rfl

/-! What a comparison has let through is taken by the field that it is assigned to. -/

theorem tracedAlgorithm_stops (request : Request) (keys : Resolved) :
    FailsOnly (Stops key peer) (tracedAlgorithm request keys) := by
  refine (compare_stops _).bind_of_ok fun held settled => ?_
  refine (compare_stops _).bind_of_ok fun alg named => ?_
  obtain ⟨-, rfl⟩ := (settle_eq_ok_iff _ _ _ _).mp (trace_eq_ok_iff.mp settled)
  have named := (required_eq_ok_iff _ _ _).mp (trace_eq_ok_iff.mp named)
  have set := (keys.key.setAlg_eq_ok_iff _ _).mpr ⟨compatible_of_or named, rfl⟩
  rw [trace_ok_bind set]
  cases keys.peer with
  | none => exact failsOnly_ok _
  | some p =>
    refine (compare_stops _).bind_of_ok fun _ agreed => ?_
    obtain ⟨agrees, -⟩ := (agree_eq_ok_iff _ _ _ _).mp (trace_eq_ok_iff.mp agreed)
    have set := (p.setAlg_eq_ok_iff _ _).mpr ⟨agrees.symm, rfl⟩
    rw [trace_ok_bind set]
    exact failsOnly_ok _

theorem foreign_of_setCurve_error {p : Key} {crv : EllipticCurve} {e : Error} (on_curve : p.hasCurve = true)
    (agrees : Compatible p.curve (some crv)) (failed : p.setCurve crv = .error e) :
    p.curve = none ∧ crv.keyType? ≠ some p.keyType := by
  have foreign : crv.keyType? ≠ some p.keyType := by
    intro family
    have set := (p.setCurve_eq_ok_iff crv _).mpr ⟨on_curve, family, agrees, rfl⟩
    simp [set] at failed
  rcases (compatible_some_iff _ _).mp agrees with unset | held
  · exact ⟨unset, foreign⟩
  · exact absurd (Key.keyType?_of_curve held) foreign

theorem tracedCurve_stops (request : Request) (key : Key) (peer : Option Key) :
    FailsOnly (Stops key peer) (tracedCurve request ⟨key, peer⟩) := by
  rw [tracedCurve]
  split_ifs with on_curve
  · refine (compare_stops _).bind_of_ok fun held settled => ?_
    refine (compare_stops _).bind_of_ok fun crv chosen => ?_
    obtain ⟨-, rfl⟩ := (settle_eq_ok_iff _ _ _ _).mp (trace_eq_ok_iff.mp settled)
    have chosen := (required_eq_ok_iff _ _ _).mp (trace_eq_ok_iff.mp chosen)
    split_ifs with family
    · have set := (key.setCurve_eq_ok_iff _ _).mpr ⟨on_curve, family, compatible_of_or chosen, rfl⟩
      rw [trace_ok_bind set]
      cases peer with
      | none => exact failsOnly_ok _
      | some p =>
        dsimp only
        split_ifs with peer_on_curve
        · refine (compare_stops _).bind_of_ok fun _ agreed => ?_
          obtain ⟨agrees, -⟩ := (agree_eq_ok_iff _ _ _ _).mp (trace_eq_ok_iff.mp agreed)
          have exception (e : Error) (failed : p.setCurve crv = .error e) :
              Stops key (some p) (.setPeer .curve, e) := by
            obtain ⟨unset, foreign⟩ := foreign_of_setCurve_error peer_on_curve agrees.symm failed
            exact Or.inr ⟨rfl, p, rfl, peer_on_curve, unset, fun same => foreign (same ▸ family)⟩
          exact (trace_fails exception).bind fun _ => failsOnly_ok _
        · exact failsOnly_ok _
    · exact compare_stops _
  · exact failsOnly_ok _

theorem tracedKeyOps_stops (request : Request) (keys : Resolved) :
    FailsOnly (Stops key peer) (tracedKeyOps request keys) := by
  refine (compare_stops _).bind_of_ok fun op settled => ?_
  obtain ⟨-, rfl⟩ := (settle_eq_ok_iff _ _ _ _).mp (trace_eq_ok_iff.mp settled)
  cases keys.peer with
  | none =>
    rw [trace_ok_bind (fillKeyOps_or keys.key request.keyOp)]
    exact failsOnly_ok _
  | some p =>
    refine (compare_stops _).bind_of_ok fun op agreed => ?_
    obtain ⟨agrees, rfl⟩ := (agree_eq_ok_iff _ _ _ _).mp (trace_eq_ok_iff.mp agreed)
    have theirs := fillKeyOps_or p (keys.key.keyOps.or request.keyOp)
    rw [← agrees.or_comm] at theirs
    have ours := fillKeyOps_or keys.key (request.keyOp.or p.keyOps)
    rw [← Option.or_assoc] at ours
    rw [trace_ok_bind theirs, trace_ok_bind ours]
    exact failsOnly_ok _

end

theorem Stops.of_withAlg {key : Key} {peer : Option Key} {alg : Algorithm} {failure : Step × Error}
    (stops : Stops (key.withAlg alg) (peer.map (·.withAlg alg)) failure) : Stops key peer failure := by
  rcases stops with compared | ⟨step, p, held, on_curve, unset, foreign⟩
  · exact Or.inl compared
  · obtain ⟨q, rfl, rfl⟩ := Option.map_eq_some_iff.mp held
    exact Or.inr ⟨step, q, rfl, on_curve, unset, foreign⟩

theorem traced_stops (key : Key) (peer : Option Key) (request : Request) :
    FailsOnly (Stops key peer) (traced key peer request) := by
  refine (tracedAlgorithm_stops request ⟨key, peer⟩).bind_of_ok fun keys first => ?_
  -- the exception is about the keys that the curve step gets, so their form is needed
  have first : resolveAlgorithm request ⟨key, peer⟩ = .ok keys := by
    rw [← erase_tracedAlgorithm]
    exact erase_eq_ok_iff.mpr first
  obtain ⟨-, alg, -, rfl⟩ := (resolveAlgorithm_coherent keys).mp first
  refine FailsOnly.bind ?_ fun keys => tracedKeyOps_stops request keys
  exact (tracedCurve_stops request _ _).mono fun _ stops => stops.of_withAlg

end Resolution

end Cose
