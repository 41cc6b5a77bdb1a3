import Cose.Key.Use
import Cose.Proofs.Key.FixedPoint
import Cose.Proofs.Key.Traced
import Cose.Proofs.Signing.Binding

/-!
# Errors that resolution keeps out of reach

The operations check again what resolution has settled: that there is an algorithm and a peer, that two keys are
on one curve, that a key is on the curve of its signature algorithm. Whatever key, peer and request they get,
these checks never fail.
-/

set_option autoImplicit false

namespace Cose

open Result

inductive AboutMaterial : Error → Prop
  | keyType (expected found : KeyType) : AboutMaterial (.invalidKeyType (.unexpected expected found))
  | curve (kty : KeyType) : AboutMaterial (.missingKeyParameter (.curve kty))
  | part (name : String) : AboutMaterial (.missingKeyParameter (.material name))
  | length (name : String) (expected found : Nat) :
      AboutMaterial (.invalidKeyParameter (.fixedLength name expected found))

namespace Key

theorem requireCurve_fails (key : Key) : FailsOnly AboutMaterial key.requireCurve := by
  rw [requireCurve]
  cases key.curve with
  | none => exact failsOnly_error (.curve _)
  | some crv => exact failsOnly_ok crv

theorem requireOkp_fails (key : Key) : FailsOnly AboutMaterial key.requireOkp := by
  rw [requireOkp]
  cases key.material with
  | okp k => exact failsOnly_ok k
  | _ => exact failsOnly_error (.keyType _ _)

theorem requireEc2_fails (key : Key) : FailsOnly AboutMaterial key.requireEc2 := by
  rw [requireEc2]
  cases key.material with
  | ec2 k => exact failsOnly_ok k
  | _ => exact failsOnly_error (.keyType _ _)

theorem requirePart_fails (name : String) (part : Option Bytes) :
    FailsOnly AboutMaterial (requirePart name part) := by
  cases part with
  | none => exact failsOnly_error (.part name)
  | some bs => exact failsOnly_ok bs

theorem requireLength_fails (length : Nat) (name : String) (bs : Bytes) :
    FailsOnly AboutMaterial (requireLength length name bs) := by
  rw [requireLength]
  split_ifs
  · exact failsOnly_ok bs
  · exact failsOnly_error (.length name length bs.length)

theorem Ec2.pointBytes_fails (k : Ec2) : FailsOnly AboutMaterial k.pointBytes :=
  (requirePart_fails _ _).bind fun _ => (requirePart_fails _ _).bind fun _ => failsOnly_ok _

end Key

namespace Agreement

/-- The errors of agreement between keys that are not on different curves. -/
inductive Refused : Error → Prop
  | material {e : Error} (about : AboutMaterial e) : Refused e
  | privateKey (crv : EllipticCurve) : Refused (.keyAgreementFailed (.privateKey crv))
  | publicKey (crv : EllipticCurve) : Refused (.keyAgreementFailed (.publicKey crv))
  | lowOrder : Refused (.keyAgreementFailed .lowOrder)
  | unsupported (crv : EllipticCurve) : Refused (.keyAgreementFailed (.unsupportedCurve crv))
  | length (asked : Nat) : Refused (.invalidKeyParameter (.derivedLength asked))

theorem refused_of_material {α : Type} {r : Result α} (fails : FailsOnly AboutMaterial r) :
    FailsOnly Refused r :=
  fails.mono fun _ => .material

theorem groupSecret_fails (g : Group) (crv : EllipticCurve) (key peer : Key) :
    FailsOnly Refused (groupSecret g crv key peer) := by
  refine (refused_of_material key.requireEc2_fails).bind fun ours => ?_
  refine (refused_of_material (Key.requirePart_fails _ _)).bind fun d => ?_
  refine (refused_of_material peer.requireEc2_fails).bind fun theirs => ?_
  refine (refused_of_material theirs.pointBytes_fails).bind fun q => ?_
  cases g.scalar? d with
  | none => exact failsOnly_error (.privateKey crv)
  | some d =>
    cases g.point? q with
    | none => exact failsOnly_error (.publicKey crv)
    | some q => exact failsOnly_ok _

theorem octetSecret_fails (multiply : Bytes → Bytes → Bytes) (key peer : Key) :
    FailsOnly Refused (octetSecret multiply key peer) := by
  refine (refused_of_material key.requireOkp_fails).bind fun ours => ?_
  refine (refused_of_material (Key.requirePart_fails _ _)).bind fun d => ?_
  refine (refused_of_material peer.requireOkp_fails).bind fun theirs => ?_
  refine (refused_of_material (Key.requirePart_fails _ _)).bind fun x => ?_
  refine (refused_of_material (Key.requireLength_fails _ _ _)).bind fun d => ?_
  refine (refused_of_material (Key.requireLength_fails _ _ _)).bind fun x => ?_
  dsimp only
  split_ifs
  · exact failsOnly_error .lowOrder
  · exact failsOnly_ok _

theorem secret_fails (s : Suite) (crv : EllipticCurve) (key peer : Key) :
    FailsOnly Refused (secret s crv key peer) := by
  rw [secret]
  split
  · exact groupSecret_fails _ crv key peer
  · split_ifs
    · exact octetSecret_fails _ key peer
    · exact failsOnly_error (.unsupported crv)

theorem derive_fails (ikm : Bytes) (length : Nat) (info : Bytes) :
    FailsOnly Refused (derive ikm length info) := by
  rw [derive]
  split
  · exact failsOnly_ok _
  · exact failsOnly_error (.length length)

theorem agree_fails (s : Suite) {key peer : Key}
    (alike : ∀ ours theirs, key.curve = some ours → peer.curve = some theirs → ours = theirs) (length : Nat)
    (context : Bytes) : FailsOnly Refused (agree s key peer length context) := by
  refine (refused_of_material key.requireCurve_fails).bind_of_ok fun ours held => ?_
  refine (refused_of_material peer.requireCurve_fails).bind_of_ok fun theirs peer_held => ?_
  have same := alike ours theirs ((key.requireCurve_eq_ok_iff ours).mp held)
    ((peer.requireCurve_eq_ok_iff theirs).mp peer_held)
  rw [if_pos same]
  refine (secret_fails s ours key peer).bind fun shared => ?_
  exact (derive_fails shared length context).bind fun _ => failsOnly_ok _

end Agreement

namespace Signing

/-- The errors of signing and verifying with a key that is not on another curve than the algorithm. -/
inductive Refused : Error → Prop
  | material {e : Error} (about : AboutMaterial e) : Refused e
  | unsupported (cause : SignatureError) : Refused (.unsupportedSignature cause)
  | badKey (crv : EllipticCurve) : Refused (.invalidKeyParameter (.badKey crv))
  | verification : Refused .signatureVerificationFailed

theorem refused_of_material {α : Type} {r : Result α} (fails : FailsOnly AboutMaterial r) :
    FailsOnly Refused r :=
  fails.mono fun _ => .material

def Fits (alg : Algorithm) (key : Key) : Prop :=
  ∀ expected found, alg.signatureCurve? = some expected → key.curve = some found → found = expected

theorem curve_fails {alg : Algorithm} {key : Key} (fits : Fits alg key) : FailsOnly Refused (curve alg key) := by
  by_cases edDsa : alg = .edDsa
  · subst edDsa
    exact refused_of_material key.requireCurve_fails
  · rw [curve]
    · cases bound : alg.signatureCurve? with
      | none => exact failsOnly_error (.unsupported _)
      | some expected =>
        cases held : key.curve with
        | none => exact failsOnly_ok expected
        | some found =>
          dsimp only
          rw [if_pos (fits expected found bound held)]
          exact failsOnly_ok expected
    · exact edDsa

theorem scalar_fails (g : Group) (crv : EllipticCurve) (key : Key) : FailsOnly Refused (scalar g crv key) := by
  refine (refused_of_material key.requireEc2_fails).bind fun k => ?_
  refine (refused_of_material (Key.requirePart_fails _ _)).bind fun d => ?_
  cases g.scalar? d with
  | none => exact failsOnly_error (.badKey crv)
  | some d => exact failsOnly_ok d

theorem point_fails (g : Group) (crv : EllipticCurve) (key : Key) : FailsOnly Refused (point g crv key) := by
  refine (refused_of_material key.requireEc2_fails).bind fun k => ?_
  split_ifs
  · refine (refused_of_material k.pointBytes_fails).bind fun q => ?_
    cases g.point? q with
    | none => exact failsOnly_error (.badKey crv)
    | some q => exact failsOnly_ok q
  · exact (scalar_fails g crv key).bind fun _ => failsOnly_ok _

theorem octets_fails (e : EdwardsScheme) (key : Key) : FailsOnly Refused (octets e key) := by
  refine (refused_of_material key.requireOkp_fails).bind fun k => ?_
  cases k.x with
  | some x =>
    refine (refused_of_material (Key.requireLength_fails _ _ _)).bind fun x => ?_
    split_ifs
    · exact failsOnly_ok x
    · exact failsOnly_error (.badKey _)
  | none =>
    refine (refused_of_material (Key.requirePart_fails _ _)).bind fun d => ?_
    exact (refused_of_material (Key.requireLength_fails _ _ _)).bind fun d => failsOnly_ok _

theorem made_fails (signature : Option Bytes) : FailsOnly Refused (made signature) := by
  cases signature with
  | none => exact failsOnly_error (.unsupported _)
  | some signature => exact failsOnly_ok signature

theorem accepted_fails (b : Bool) : FailsOnly Refused (accepted b) := by
  cases b
  · exact failsOnly_error .verification
  · exact failsOnly_ok ()

theorem sign_fails (s : Suite) {alg : Algorithm} {key : Key} (fits : Fits alg key) (nonce : Nat)
    (message : Bytes) : FailsOnly Refused (sign s alg key nonce message) := by
  refine (curve_fails fits).bind fun crv => ?_
  split
  · next g h _ =>
    exact (scalar_fails g crv key).bind fun d => made_fails _
  · split_ifs
    · refine (refused_of_material key.requireOkp_fails).bind fun k => ?_
      refine (refused_of_material (Key.requirePart_fails _ _)).bind fun d => ?_
      exact (refused_of_material (Key.requireLength_fails _ _ _)).bind fun d => failsOnly_ok _
    · exact failsOnly_error (.unsupported _)

theorem verify_fails (s : Suite) {alg : Algorithm} {key : Key} (fits : Fits alg key)
    (message signature : Bytes) : FailsOnly Refused (verify s alg key message signature) := by
  refine (curve_fails fits).bind fun crv => ?_
  split
  · next g h _ =>
    exact (point_fails g crv key).bind fun q => accepted_fails _
  · split_ifs
    · exact (octets_fails s.ed25519 key).bind fun q => accepted_fails _
    · exact failsOnly_error (.unsupported _)

end Signing

namespace Resolution

variable {key : Key} {peer : Option Key} {request : Request}

theorem refused_of_not_coherent (broken : ¬ Coherent key peer request) :
    ∃ e, Refusal key peer request e ∧ key.resolve peer request = .error e := by
  rcases coherent_or_broken with coherent | ⟨f, broken⟩
  · exact absurd coherent broken
  · obtain ⟨e, refusal, -⟩ := refused_of_broken broken
    exact ⟨e, refusal, resolve_of_refusal refusal⟩

theorem resolve_fails (key : Key) (peer : Option Key) (request : Request) :
    FailsOnly (Refusal key peer request) (key.resolve peer request) := by
  by_cases coherent : Coherent key peer request
  · obtain ⟨-, alg, named, -⟩ := algorithmCoherent_iff.mp coherent.algorithm
    rw [(resolve_eq_ok_iff _).mpr ⟨coherent, alg, named, rfl⟩]
    exact failsOnly_ok _
  · obtain ⟨e, refusal, stopped⟩ := refused_of_not_coherent coherent
    rw [stopped]
    exact failsOnly_error refusal

theorem alg_of_resolved {keys : Resolved} (resolved : key.resolve peer request = .ok keys) :
    ∃ alg, keys.alg = .ok alg := by
  obtain ⟨alg, known⟩ := (settled_of_resolved resolved).alg_known
  exact ⟨alg, (required_eq_ok_iff _ _ _).mpr known⟩

theorem peer_of_resolved {p : Key} {keys : Resolved} (resolved : key.resolve (some p) request = .ok keys) :
    ∃ q, keys.peer = some q := by
  obtain ⟨-, alg, -, rfl⟩ := (resolve_eq_ok_iff keys).mp resolved
  exact ⟨_, rfl⟩

/-- Keys that name different curves are refused because of them, or earlier because of the algorithm. -/
theorem refusal_of_different_curves (request : Request) {p : Key} {ours theirs : EllipticCurve}
    (held : key.curve = some ours) (peer_held : p.curve = some theirs) (differ : ours ≠ theirs) :
    ∃ e, key.resolve (some p) request = .error e ∧
      ((∃ cause, e = .keyConfigurationConflict cause) ∨ e = .missingKeyParameter (.field .algorithm)) := by
  have on_curve := Key.hasCurve_of_curve held
  have inconsistent : ¬ Consistent [key.curve, request.curve, (some p).bind Key.curve] := by
    intro consistent
    exact differ (consistent key.curve (by simp) p.curve (by simp) ours theirs held peer_held)
  have broken : ¬ Coherent key (some p) request := fun coherent =>
    inconsistent (coherent.curve on_curve).consistent
  obtain ⟨e, refusal, stopped⟩ := refused_of_not_coherent broken
  refine ⟨e, stopped, ?_⟩
  cases refusal with
  | algorithm contradiction => exact Or.inl ⟨_, rfl⟩
  | algorithmMissing _ _ => exact Or.inr rfl
  | curve _ _ contradiction _ => exact Or.inl ⟨_, rfl⟩
  | curveMissing _ _ unset _ => simp [held] at unset
  | curveFamily _ _ _ _ foreign => exact Or.inl ⟨_, rfl⟩
  | peerFamily _ _ consistent => exact absurd consistent inconsistent
  | keyOps _ _ contradiction => exact Or.inl ⟨_, rfl⟩

end Resolution

namespace Key

open Resolution

/-- After resolution two keys that are both on a curve are on the same one. -/
theorem deriveShared_fails (s : Suite) (key peer : Key) (asked : Option Algorithm) (length : Nat)
    (context : Bytes) :
    FailsOnly (fun e => Refusal key (some peer) ⟨asked, some .deriveKey, none⟩ e ∨ Agreement.Refused e)
      (key.deriveShared s peer asked length context) := by
  refine ((resolve_fails key _ _).mono fun _ => Or.inl).bind_of_ok fun keys resolved => ?_
  obtain ⟨p, held⟩ := peer_of_resolved resolved
  have settled := settled_of_resolved resolved
  have alike (ours theirs : EllipticCurve) (our_curve : keys.key.curve = some ours)
      (their_curve : p.curve = some theirs) : ours = theirs := by
    have same := settled.peer_curve p held (hasCurve_of_curve our_curve) (hasCurve_of_curve their_curve)
    exact Option.some.inj (our_curve.symm.trans (same.symm.trans their_curve))
  simp only [held]
  exact (Agreement.agree_fails s alike length context).mono fun _ => Or.inr

theorem fits_settled {key : Key} {request : Request} {alg : Algorithm} (accepts : key.Accepts request alg)
    (asked : request.curve = alg.signatureCurve?) : Signing.Fits alg (key.settled request alg) := by
  intro expected found bound held
  have on_curve : key.hasCurve = true := by
    rw [← hasCurve_of_sameParts (key.settled_sameParts request alg)]
    exact hasCurve_of_curve held
  rw [curve_settled accepts on_curve] at held
  have filled := holds_or (accepts.curve_agrees on_curve) expected (asked.trans bound)
  exact Option.some.inj (held.symm.trans filled)

theorem signature_fails {β : Type} (key : Key) (asked : Option Algorithm) (op : KeyOperation)
    {run : Algorithm → Key → Result β}
    (fails : ∀ alg key, Signing.Fits alg key → FailsOnly Signing.Refused (run alg key)) :
    FailsOnly (fun e => Refusal key none (key.signatureRequest asked op) e ∨ Signing.Refused e) (do
      let keys ← key.resolve none (key.signatureRequest asked op)
      let alg ← keys.alg
      run alg keys.key) := by
  refine ((resolve_fails key _ _).mono fun _ => Or.inl).bind_of_ok fun keys resolved => ?_
  obtain ⟨alg, accepts, rfl⟩ := (key.resolve_alone_eq_ok_iff _ keys).mp resolved
  have named : Resolved.alg ⟨key.settled (key.signatureRequest asked op) alg, none⟩ = .ok alg :=
    (required_eq_ok_iff _ _ _).mpr (alg_settled key _ alg)
  rw [named, ok_bind]
  have fits := fits_settled accepts (signature_settles accepts).2
  exact (fails alg _ fits).mono fun _ => Or.inr

theorem sign_fails (s : Suite) (key : Key) (asked : Option Algorithm) (nonce : Nat) (message : Bytes) :
    FailsOnly (fun e => Refusal key none (key.signatureRequest asked .sign) e ∨ Signing.Refused e)
      (key.sign s asked nonce message) :=
  signature_fails key asked .sign fun _ _ fits => Signing.sign_fails s fits nonce message

theorem verify_fails (s : Suite) (key : Key) (asked : Option Algorithm) (message signature : Bytes) :
    FailsOnly (fun e => Refusal key none (key.signatureRequest asked .verify) e ∨ Signing.Refused e)
      (key.verify s asked message signature) :=
  signature_fails key asked .verify fun _ _ fits => Signing.verify_fails s fits message signature

theorem deriveShared_shielded {s : Suite} {key peer : Key} {asked : Option Algorithm} {length : Nat}
    {context : Bytes} {cause : AgreementError}
    (failed : key.deriveShared s peer asked length context = .error (.keyAgreementFailed cause)) :
    cause ≠ .noPeer ∧ ∀ ours theirs, cause ≠ .differentCurves ours theirs := by
  rcases deriveShared_fails s key peer asked length context _ failed with refusal | refused
  · cases refusal
  · cases refused with
    | material about => cases about
    | _ => simp

theorem signature_shielded {key : Key} {request : Request} {alg : Algorithm} {expected found : EllipticCurve} :
    ¬ (Refusal key none request (.invalidKeyParameter (.signingCurve alg expected found)) ∨
      Signing.Refused (.invalidKeyParameter (.signingCurve alg expected found))) := by
  rintro (refusal | refused)
  · cases refusal
  · cases refused with
    | material about => cases about

/-- The checks behind resolution never fail, and neither does any assignment in it but one: a peer of the other
family that names no curve refuses the curve of the key. Resolved keys have an algorithm. Key agreement finds its
peer, and keys that name different curves have been refused by resolution. Signing and verifying find the key on
the curve of the algorithm. -/
theorem shielded_by_resolution (key : Key) (peer : Option Key) (request : Request) :
    erase (traced key peer request) = key.resolve peer request ∧
    (∀ step e, traced key peer request = .error (step, e) →
      step = .compare ∨ step = .setPeer .curve ∧
        ∃ p, peer = some p ∧ p.hasCurve = true ∧ p.curve = none ∧ p.keyType ≠ key.keyType) ∧
    (∀ keys, key.resolve peer request = .ok keys → ∃ alg, keys.alg = .ok alg) ∧
    (∀ s p asked length context,
      key.deriveShared s p asked length context ≠ .error (.keyAgreementFailed .noPeer) ∧
      (∀ ours theirs, key.deriveShared s p asked length context ≠
        .error (.keyAgreementFailed (.differentCurves ours theirs))) ∧
      ∀ ours theirs, key.curve = some ours → p.curve = some theirs → ours ≠ theirs →
        (∃ cause, key.deriveShared s p asked length context = .error (.keyConfigurationConflict cause)) ∨
        key.deriveShared s p asked length context = .error (.missingKeyParameter (.field .algorithm))) ∧
    (∀ s asked nonce message alg expected found, key.sign s asked nonce message ≠
      .error (.invalidKeyParameter (.signingCurve alg expected found))) ∧
    (∀ s asked message signature alg expected found, key.verify s asked message signature ≠
      .error (.invalidKeyParameter (.signingCurve alg expected found))) := by
  refine ⟨erase_traced key peer request, ?_, ?_, ?_, ?_, ?_⟩
  · intro step e failed
    exact traced_stops key peer request _ failed
  · intro keys resolved
    exact alg_of_resolved resolved
  · intro s p asked length context
    refine ⟨?_, ?_, ?_⟩
    · intro failed
      exact (deriveShared_shielded failed).1 rfl
    · intro ours theirs failed
      exact (deriveShared_shielded failed).2 ours theirs rfl
    · intro ours theirs held peer_held differ
      obtain ⟨e, stopped, cause⟩ :=
        refusal_of_different_curves ⟨asked, some .deriveKey, none⟩ held peer_held differ
      have refused : key.deriveShared s p asked length context = .error e := by
        rw [deriveShared, stopped, error_bind]
      rw [refused]
      rcases cause with ⟨cause, rfl⟩ | rfl
      · exact Or.inl ⟨cause, rfl⟩
      · exact Or.inr rfl
  · intro s asked nonce message alg expected found failed
    exact signature_shielded (sign_fails s key asked nonce message _ failed)
  · intro s asked message signature alg expected found failed
    exact signature_shielded (verify_fails s key asked message signature _ failed)

theorem shielded_by_resolution_p256 :
    let key : Key := ⟨.ec2 ⟨some ⟨.p256, rfl⟩, none, none, some [1], Or.inr rfl⟩,
      { Attributes.none with alg := some .ecdhEsHkdf256 }⟩
    let foreign : Key := ⟨.okp ⟨none, some [2], none, Or.inl rfl⟩, .none⟩
    let other : Key := ⟨.ec2 ⟨some ⟨.p384, rfl⟩, some [3], some [4], none, Or.inl ⟨rfl, rfl⟩⟩, .none⟩
    let request : Request := ⟨none, some .deriveKey, none⟩
    (∃ e, traced key (some foreign) request = .error (.setPeer .curve, e) ∧ foreign.curve = none ∧
      foreign.keyType ≠ key.keyType) ∧
    (∃ keys alg, key.resolve none request = .ok keys ∧ keys.alg = .ok alg) ∧
    ∃ e, key.deriveShared .standard other none 16 [] = .error e ∧
      ((∃ cause, e = .keyConfigurationConflict cause) ∨ e = .missingKeyParameter (.field .algorithm)) := by
  intro key foreign other request
  refine ⟨?_, ?_, ?_⟩
  · have failed : traced key (some foreign) request =
        .error (.setPeer .curve, .invalidKeyParameter (.curveFamily .p256 .okp)) := rfl
    obtain ⟨-, places, -⟩ := shielded_by_resolution key (some foreign) request
    rcases places _ _ failed with compared | ⟨-, p, held, -, unset, differ⟩
    · cases compared
    · obtain rfl := Option.some.inj held
      exact ⟨_, failed, unset, differ⟩
  · obtain ⟨-, -, known, -⟩ := shielded_by_resolution key none request
    obtain ⟨keys, resolved⟩ : ∃ keys, key.resolve none request = .ok keys := ⟨_, rfl⟩
    obtain ⟨alg, named⟩ := known keys resolved
    exact ⟨keys, alg, resolved, named⟩
  · obtain ⟨-, -, -, derives, -⟩ := shielded_by_resolution key none request
    obtain ⟨-, -, differ⟩ := derives .standard other none 16 []
    rcases differ .p256 .p384 rfl rfl (by decide) with ⟨cause, refused⟩ | refused
    · exact ⟨_, refused, Or.inl ⟨cause, rfl⟩⟩
    · exact ⟨_, refused, Or.inr rfl⟩

end Key

end Cose
