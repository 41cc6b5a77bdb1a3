import Cose.Proofs.Key.Configuration

/-!
# Resolved keys resolved again

Resolution leaves keys that hold all that was asked and the same values where both have the field. Such keys
are settled. To resolve settled keys changes nothing, whether the request is made again or nothing is asked any
more, and if both keys are on a curve or neither is, they may change places.
-/

set_option autoImplicit false

namespace Cose

def Request.none : Request := ⟨.none, .none, .none⟩

def Holds {α : Type} (held asked : Option α) : Prop := ∀ a, asked = some a → held = some a

section

variable {α : Type} {held asked : Option α}

theorem holds_none (held : Option α) : Holds held none := by
  intro a h
  cases h

theorem holds_or (agree : Compatible held asked) : Holds (held.or asked) asked := by
  intro a h
  rw [agree.or_comm, h, Option.some_or]

theorem Holds.or_eq (h : Holds held asked) : held.or asked = held := by
  cases asked with
  | none => exact Option.or_none
  | some a => rw [h a rfl, Option.some_or]

theorem Holds.compatible (h : Holds held asked) : Compatible held asked := by
  intro x y hx hy
  exact Option.some.inj (hx.symm.trans (h y hy))

end

namespace Resolution

/-- The keys hold what the request asks for, and what they both have is the same. -/
structure Settled (key : Key) (peer : Option Key) (request : Request) : Prop where
  alg_known : ∃ alg, key.alg = some alg
  alg : Holds key.alg request.alg
  keyOps : Holds key.keyOps request.keyOp
  curve_known : key.hasCurve = true → ∃ crv, key.curve = some crv
  curve : key.hasCurve = true → Holds key.curve request.curve
  peer_alg : ∀ p, peer = some p → p.alg = key.alg
  peer_keyOps : ∀ p, peer = some p → p.keyOps = key.keyOps
  peer_curve : ∀ p, peer = some p → key.hasCurve = true → p.hasCurve = true → p.curve = key.curve

section

variable {key : Key} {peer : Option Key} {request : Request}

/-! Settled keys are coherent, and complete as they are. -/

theorem Settled.algorithmCoherent (h : Settled key peer request) : AlgorithmCoherent key peer request := by
  rw [algorithmCoherent_iff]
  obtain ⟨alg, known⟩ := h.alg_known
  have named : key.alg.or request.alg = some alg := by rw [h.alg.or_eq, known]
  have theirs : ∀ p ∈ peer, Compatible p.alg (some alg) := by
    intro p hp
    rw [h.peer_alg p hp, known]
    exact compatible_self _
  exact ⟨h.alg.compatible, alg, named, theirs⟩

theorem Settled.curveCoherent (h : Settled key peer request) (on_curve : key.hasCurve = true) :
    CurveCoherent key peer request := by
  rw [curveCoherent_iff]
  obtain ⟨crv, known⟩ := h.curve_known on_curve
  have asked := h.curve on_curve
  have family := Key.keyType?_of_curve known
  have chosen : key.curve.or request.curve = some crv := by rw [asked.or_eq, known]
  have theirs : ∀ p ∈ peer, p.hasCurve = true → Compatible p.curve (some crv) ∧ p.keyType = key.keyType := by
    intro p hp peer_on_curve
    have same : p.curve = some crv := (h.peer_curve p hp on_curve peer_on_curve).trans known
    constructor
    · rw [same]
      exact compatible_self _
    · exact Option.some.inj ((Key.keyType?_of_curve same).symm.trans family)
  exact ⟨asked.compatible, crv, chosen, family, theirs⟩

theorem Settled.keyOpsCoherent (h : Settled key peer request) : KeyOpsCoherent key peer request := by
  rw [keyOpsCoherent_iff]
  constructor
  · exact h.keyOps.compatible
  · intro p hp
    rw [h.keyOps.or_eq, h.peer_keyOps p hp]
    exact compatible_self _

theorem Settled.coherent (h : Settled key peer request) : Coherent key peer request :=
  ⟨h.algorithmCoherent, h.curveCoherent, h.keyOpsCoherent⟩

theorem Settled.agreedKeyOps_eq (h : Settled key peer request) : agreedKeyOps key peer request = key.keyOps := by
  rw [agreedKeyOps, h.keyOps.or_eq]
  cases peer with
  | none => exact Option.or_none
  | some p =>
    show key.keyOps.or p.keyOps = key.keyOps
    rw [h.peer_keyOps p rfl, Option.or_self]

theorem Settled.completed (h : Settled key peer request) {k : Key} (member : k = key ∨ peer = some k) :
    Completed key peer request k k := by
  have alg : k.alg = key.alg := by
    rcases member with rfl | hk
    · rfl
    · exact h.peer_alg k hk
  have keyOps : k.keyOps = key.keyOps := by
    rcases member with rfl | hk
    · rfl
    · exact h.peer_keyOps k hk
  have curve (on_curve : key.hasCurve = true) (k_on_curve : k.hasCurve = true) : k.curve = key.curve := by
    rcases member with rfl | hk
    · rfl
    · exact h.peer_curve k hk on_curve k_on_curve
  constructor
  · rw [alg, h.alg.or_eq]
  · by_cases both : key.hasCurve = true ∧ k.hasCurve = true
    · rw [if_pos both, curve both.1 both.2, (h.curve both.1).or_eq]
    · rw [if_neg both]
  · show k.keyOps = agreedKeyOps key peer request
    rw [keyOps, h.agreedKeyOps_eq]
  · rfl
  · rfl
  · rfl
  · exact .same _

theorem resolve_settled (h : Settled key peer request) : key.resolve peer request = .ok ⟨key, peer⟩ := by
  rw [resolve_completed]
  constructor
  · exact h.coherent
  · constructor
    · exact h.completed (Or.inl rfl)
    · cases peer with
      | none => exact .none
      | some p => exact .some (h.completed (Or.inr rfl))

/-! Resolution settles the keys, and they stay settled if less is asked or if they change places. -/

theorem Completed.hasCurve {before after : Key} (done : Completed key peer request before after) :
    after.hasCurve = before.hasCurve :=
  Key.hasCurve_of_sameParts done.material

theorem settled_of_resolved {keys : Resolved} (resolved : key.resolve peer request = .ok keys) :
    Settled keys.key keys.peer request := by
  obtain ⟨coherent, ours, theirs⟩ := (resolve_completed keys).mp resolved
  obtain ⟨alg_agrees, alg, named, -⟩ := algorithmCoherent_iff.mp coherent.algorithm
  have keyOps_agree := (keyOpsCoherent_iff.mp coherent.keyOps).1
  have curve (on_curve : keys.key.hasCurve = true) : Compatible key.curve request.curve ∧
      (∃ crv, key.curve.or request.curve = some crv) ∧
      keys.key.curve = key.curve.or request.curve := by
    rw [ours.hasCurve] at on_curve
    obtain ⟨agrees, crv, chosen, -⟩ := curveCoherent_iff.mp (coherent.curve on_curve)
    have filled := ours.curve
    rw [if_pos ⟨on_curve, on_curve⟩] at filled
    exact ⟨agrees, ⟨crv, chosen⟩, filled⟩
  have member {p : Key} (hp : keys.peer = some p) : ∃ q, Completed key peer request q p := by
    rw [hp] at theirs
    cases theirs with
    | some done => exact ⟨_, done⟩
  constructor
  · exact ⟨alg, ours.alg.trans named⟩
  · rw [ours.alg]
    exact holds_or alg_agrees
  · intro op asked
    rw [ours.keyOps, holds_or keyOps_agree op asked, Option.some_or]
  · intro on_curve
    obtain ⟨-, ⟨crv, chosen⟩, filled⟩ := curve on_curve
    exact ⟨crv, filled.trans chosen⟩
  · intro on_curve
    obtain ⟨agrees, -, filled⟩ := curve on_curve
    rw [filled]
    exact holds_or agrees
  · intro p hp
    obtain ⟨q, done⟩ := member hp
    exact done.alg.trans ours.alg.symm
  · intro p hp
    obtain ⟨q, done⟩ := member hp
    exact done.keyOps.trans ours.keyOps.symm
  · intro p hp on_curve peer_on_curve
    obtain ⟨q, done⟩ := member hp
    have filled := done.curve
    rw [if_pos ⟨ours.hasCurve.symm.trans on_curve, done.hasCurve.symm.trans peer_on_curve⟩] at filled
    exact filled.trans (curve on_curve).2.2.symm

theorem Settled.unasked (h : Settled key peer request) : Settled key peer .none where
  alg_known := h.alg_known
  alg := holds_none _
  keyOps := holds_none _
  curve_known := h.curve_known
  curve _ := holds_none _
  peer_alg := h.peer_alg
  peer_keyOps := h.peer_keyOps
  peer_curve := h.peer_curve

theorem Settled.swap {p : Key} (h : Settled key (some p) request) (alike : key.hasCurve = p.hasCurve) :
    Settled p (some key) request := by
  have alg := h.peer_alg p rfl
  have keyOps := h.peer_keyOps p rfl
  have curve (on_curve : p.hasCurve = true) : p.curve = key.curve :=
    h.peer_curve p rfl (alike.trans on_curve) on_curve
  constructor
  · rw [alg]
    exact h.alg_known
  · rw [alg]
    exact h.alg
  · rw [keyOps]
    exact h.keyOps
  · intro on_curve
    rw [curve on_curve]
    exact h.curve_known (alike.trans on_curve)
  · intro on_curve
    rw [curve on_curve]
    exact h.curve (alike.trans on_curve)
  · intro q hq
    cases hq
    exact alg.symm
  · intro q hq
    cases hq
    exact keyOps.symm
  · intro q hq on_curve _
    cases hq
    exact (curve on_curve).symm

end

/-- Resolution reaches a fixed point: keys that it gives are given back by it, for the same request and for an
empty one. A peer is there if it was there before, and then has the algorithm, the operation and, where both are
on a curve, the curve of the key; if they are alike in being on a curve, each may take the other's place. -/
theorem resolved_again (key : Key) (peer : Option Key) (request : Request) (keys : Resolved)
    (resolved : key.resolve peer request = .ok keys) :
    keys.key.resolve keys.peer request = .ok keys ∧
    keys.key.resolve keys.peer .none = .ok keys ∧
    keys.peer.isSome = peer.isSome ∧
    ∀ p, keys.peer = some p →
      keys.key.alg = p.alg ∧ keys.key.keyOps = p.keyOps ∧
      (keys.key.hasCurve = true → p.hasCurve = true → keys.key.curve = p.curve) ∧
      (keys.key.hasCurve = p.hasCurve → p.resolve (some keys.key) request = .ok ⟨p, some keys.key⟩) := by
  have settled := settled_of_resolved resolved
  have present : keys.peer.isSome = peer.isSome := by
    obtain ⟨-, -, theirs⟩ := (resolve_completed keys).mp resolved
    generalize keys.peer = other at theirs
    cases theirs <;> rfl
  refine ⟨resolve_settled settled, resolve_settled settled.unasked, present, ?_⟩
  intro p hp
  rw [hp] at settled
  refine ⟨(settled.peer_alg p rfl).symm, (settled.peer_keyOps p rfl).symm, ?_, ?_⟩
  · intro on_curve peer_on_curve
    exact (settled.peer_curve p rfl on_curve peer_on_curve).symm
  · intro alike
    exact resolve_settled (settled.swap alike)

theorem resolved_again_agreement :
    let ours : Key := ⟨.ec2 ⟨none, none, none, some [1], Or.inr rfl⟩, .none⟩
    let theirs : Key := ⟨.ec2 ⟨none, some [2], some [3], none, Or.inl ⟨rfl, rfl⟩⟩,
      { Key.Attributes.none with keyOps := some .deriveKey }⟩
    let request : Request := ⟨some .ecdhEsHkdf256, none, some .p256⟩
    ∃ key peer, ours.resolve (some theirs) request = .ok ⟨key, some peer⟩ ∧ key ≠ ours ∧ peer ≠ theirs ∧
      key.resolve (some peer) request = .ok ⟨key, some peer⟩ ∧
      key.resolve (some peer) .none = .ok ⟨key, some peer⟩ ∧
      peer.resolve (some key) request = .ok ⟨peer, some key⟩ := by
  intro ours theirs request
  let crv : Option (CurveOf .ec2) := some ⟨.p256, rfl⟩
  let attributes : Key.Attributes := ⟨none, some .ecdhEsHkdf256, some .deriveKey, none⟩
  let key : Key := ⟨.ec2 ⟨crv, none, none, some [1], Or.inr rfl⟩, attributes⟩
  let peer : Key := ⟨.ec2 ⟨crv, some [2], some [3], none, Or.inl ⟨rfl, rfl⟩⟩, attributes⟩
  have resolved : ours.resolve (some theirs) request = .ok ⟨key, some peer⟩ := by decide +kernel
  obtain ⟨again, unasked, -, both⟩ := resolved_again ours (some theirs) request _ resolved
  obtain ⟨-, -, -, swapped⟩ := both peer rfl
  exact ⟨key, peer, resolved, by decide, by decide, again, unasked, swapped rfl⟩

end Resolution

end Cose
