import Cose.Proofs.Key.Agreement
import Cose.Proofs.Signing.Binding

/-!
# Operations on keys behind one gate

Every operation on a key is a primitive behind the same gate: the key is not bound to another operation, and
it and the caller name one algorithm between them. Nothing of what resolution fills in changes what the
primitive gives.
-/

set_option autoImplicit false

namespace Cose

open Result

namespace Key

def Permits (key : Key) (op : KeyOperation) : Prop := key.keyOps = none ∨ key.keyOps = some op

/-- The gate of an operation: what the key is bound to allows it, under this algorithm. -/
structure Admits (key : Key) (asked : Option Algorithm) (op : KeyOperation) (alg : Algorithm) : Prop where
  settles : key.Settles asked alg
  permits : key.Permits op

/-- What resolution asks beyond the gate concerns the curve. -/
theorem accepts_iff (key : Key) (asked : Option Algorithm) (op : KeyOperation) (crv : Option EllipticCurve)
    (alg : Algorithm) : key.Accepts ⟨asked, some op, crv⟩ alg ↔ key.Admits asked op alg ∧
      (key.hasCurve = true → Compatible key.curve crv ∧
        ∃ c, key.curve.or crv = some c ∧ c.keyType? = some key.keyType) := by
  constructor
  · rintro ⟨named, agrees, permits, curve_agrees, family⟩
    have settles := (settles_iff key asked alg).mpr ⟨agrees, named⟩
    exact ⟨⟨settles, (compatible_some_iff _ _).mp permits⟩, fun h => ⟨curve_agrees h, family h⟩⟩
  · rintro ⟨⟨settles, permits⟩, curve⟩
    obtain ⟨agrees, named⟩ := (settles_iff key asked alg).mp settles
    exact ⟨named, agrees, (compatible_some_iff _ _).mpr permits, fun h => (curve h).1,
      fun h => (curve h).2⟩

/-! Symmetric keys are on no curve, so nothing is asked of them beyond the gate. -/

theorem IsSymmetric.no_curve {key : Key} {k : Bytes} (h : key.IsSymmetric k) : key.hasCurve = false := by
  obtain ⟨m, material, -⟩ := h
  rw [hasCurve, material]

theorem isSymmetric_of_sameParts {a b : Key} (parts : a.material.SameParts b.material) (k : Bytes) :
    b.IsSymmetric k ↔ a.IsSymmetric k := by
  obtain ⟨am, aa⟩ := a
  obtain ⟨bm, ba⟩ := b
  cases parts <;> simp [IsSymmetric]

theorem symmetricFor_eq_ok_iff (key : Key) (asked : Option Algorithm) (op : KeyOperation) (alg : Algorithm)
    (k : Bytes) : key.symmetricFor asked op = .ok (alg, k) ↔
      key.IsSymmetric k ∧ key.Admits asked op alg := by
  apply (resolved_eq_ok_iff key ⟨asked, some op, none⟩ (fun alg key => do
    let k ← key.requireSymmetric
    .ok (alg, k)) (alg, k)).trans
  constructor
  · rintro ⟨a, accepts, taken⟩
    obtain ⟨bytes, required, made⟩ := bind_eq_ok_iff.mp taken
    obtain ⟨rfl, rfl⟩ : a = alg ∧ bytes = k := by simpa using made
    have symmetric := (requireSymmetric_eq_ok_iff _ _).mp required
    exact ⟨(isSymmetric_of_sameParts (key.settled_sameParts _ _) _).mp symmetric,
      ((accepts_iff key asked op none _).mp accepts).1⟩
  · rintro ⟨symmetric, admits⟩
    have accepts := (accepts_iff key asked op none alg).mpr ⟨admits, by simp [symmetric.no_curve]⟩
    have symmetric := (isSymmetric_of_sameParts (key.settled_sameParts ⟨asked, some op, none⟩ alg) k).mpr
      symmetric
    exact ⟨alg, accepts, bind_eq_ok_iff.mpr ⟨k, (requireSymmetric_eq_ok_iff _ _).mpr symmetric, rfl⟩⟩

theorem symmetric_eq_ok_iff {β : Type} (key : Key) (asked : Option Algorithm) (op : KeyOperation)
    (run : Algorithm → Bytes → Result β) (y : β) :
    (do let (alg, k) ← key.symmetricFor asked op
        run alg k) = .ok y ↔
      ∃ k alg, key.IsSymmetric k ∧ key.Admits asked op alg ∧ run alg k = .ok y := by
  rw [bind_eq_ok_iff]
  constructor
  · rintro ⟨⟨alg, k⟩, taken, result⟩
    obtain ⟨symmetric, admits⟩ := (symmetricFor_eq_ok_iff key asked op alg k).mp taken
    exact ⟨k, alg, symmetric, admits, result⟩
  · rintro ⟨k, alg, symmetric, admits, result⟩
    exact ⟨(alg, k), (symmetricFor_eq_ok_iff key asked op alg k).mpr ⟨symmetric, admits⟩, result⟩

/-! A peer has to fit in with the algorithm and the operation that the private key has. -/

theorem or_of_permits {key : Key} {op : KeyOperation} (permits : key.Permits op) :
    key.keyOps.or (some op) = some op := by
  rcases permits with unset | bound
  · simp [unset]
  · simp [bound]

theorem deriveShared_coherent_iff (key peer : Key) (asked : Option Algorithm) :
    Resolution.AlgorithmCoherent key (some peer) ⟨asked, some .deriveKey, none⟩ ∧
    Resolution.KeyOpsCoherent key (some peer) ⟨asked, some .deriveKey, none⟩ ↔
      ∃ alg, key.Admits asked .deriveKey alg ∧ (peer.alg = none ∨ peer.alg = some alg) ∧
        peer.Permits .deriveKey := by
  rw [Resolution.algorithmCoherent_iff, Resolution.keyOpsCoherent_iff]
  constructor
  · rintro ⟨⟨agrees, alg, named, theirs⟩, permits, peer_permits⟩
    have settles := (settles_iff key asked alg).mpr ⟨agrees, named⟩
    have permits : key.Permits .deriveKey := (compatible_some_iff _ _).mp permits
    have peer_permits := (peer_permits peer rfl).symm
    rw [or_of_permits permits] at peer_permits
    exact ⟨alg, ⟨settles, permits⟩, (compatible_some_iff _ _).mp (theirs peer rfl),
      (compatible_some_iff _ _).mp peer_permits⟩
  · rintro ⟨alg, ⟨settles, permits⟩, theirs, peer_permits⟩
    obtain ⟨agrees, named⟩ := (settles_iff key asked alg).mp settles
    refine ⟨⟨agrees, alg, named, ?_⟩, (compatible_some_iff _ _).mpr permits, ?_⟩
    · rintro _ ⟨⟩
      exact (compatible_some_iff _ _).mpr theirs
    · rintro _ ⟨⟩
      rw [or_of_permits permits]
      exact ((compatible_some_iff _ _).mpr peer_permits).symm

/-! A key that is usable for a signature is on the curve that the request asks for, or open to it. -/

theorem curve_of_usable {key : Key} {alg : Algorithm} (usable : key.Usable alg) :
    Compatible key.curve alg.signatureCurve? ∧
      ∃ c, key.curve.or alg.signatureCurve? = some c ∧ c.keyType? = some key.keyType := by
  have own {crv : EllipticCurve} (held : key.curve = some crv) : Compatible key.curve none ∧
      ∃ c, key.curve.or none = some c ∧ c.keyType? = some key.keyType :=
    ⟨by simp [Compatible], crv, by simp [held], keyType?_of_curve held⟩
  rcases usable with suits | ⟨rfl, other, on_curve⟩
  · cases suits with
    | @ecdsa alg crv bound material curve =>
      obtain ⟨k, material⟩ := material
      have family : crv.keyType? = some key.keyType := by
        rw [keyType, material]
        exact Signing.signatureCurve?_family bound
      rw [bound]
      refine ⟨(compatible_some_iff _ _).mpr curve, crv, ?_, family⟩
      rcases curve with unset | held
      · simp [unset]
      · simp [held]
    | edDsa material curve => exact own curve
  · obtain ⟨crv, -, held⟩ := on_curve.curve
    exact own held

theorem signature_admits_iff {β : Type} {key : Key} (asked : Option Algorithm) (op : KeyOperation)
    {run : Algorithm → Result β} {b : β} (usable : ∀ alg, run alg = .ok b → key.Usable alg) :
    (∃ alg, key.Accepts (key.signatureRequest asked op) alg ∧ run alg = .ok b) ↔
      ∃ alg, key.Admits asked op alg ∧ run alg = .ok b := by
  apply exists_congr
  intro alg
  apply and_congr_left
  intro result
  rw [signatureRequest, accepts_iff]
  constructor
  · exact And.left
  · intro admits
    refine ⟨admits, fun _ => ?_⟩
    rw [admits.settles.1]
    exact curve_of_usable (usable alg result)

/-- Each operation on a key succeeds exactly if its gate is passed and the primitive behind it succeeds, and
with the same result. The primitives get the key as it was; only a peer of the same type that leaves its curve
open is put on the curve of the private key. -/
theorem operations_eq_ok_iff (s : Suite) (key : Key) (asked : Option Algorithm) :
    (∀ nonce aad plain sealed, key.encrypt asked nonce aad plain = .ok sealed ↔
      ∃ k alg, key.IsSymmetric k ∧ key.Admits asked .encrypt alg ∧
        Encryption.encrypt alg k nonce aad plain = .ok sealed) ∧
    (∀ nonce aad sealed plain, key.decrypt asked nonce aad sealed = .ok plain ↔
      ∃ k alg, key.IsSymmetric k ∧ key.Admits asked .decrypt alg ∧
        Encryption.decrypt alg k nonce aad sealed = .ok plain) ∧
    (∀ message tag, key.createMac asked message = .ok tag ↔
      ∃ k alg, key.IsSymmetric k ∧ key.Admits asked .macCreate alg ∧
        Authentication.tag alg k message = .ok tag) ∧
    (∀ message tag, key.verifyMac asked message tag = .ok () ↔
      ∃ k alg, key.IsSymmetric k ∧ key.Admits asked .macVerify alg ∧
        Authentication.verify alg k message tag = .ok ()) ∧
    (∀ content wrapped, key.wrap asked content = .ok wrapped ↔
      ∃ k alg, key.IsSymmetric k ∧ key.Admits asked .wrap alg ∧
        KeyWrapping.wrap alg k content = .ok wrapped) ∧
    (∀ wrapped content, key.unwrap asked wrapped = .ok content ↔
      ∃ k alg, key.IsSymmetric k ∧ key.Admits asked .unwrap alg ∧
        KeyWrapping.unwrap alg k wrapped = .ok content) ∧
    (∀ nonce message signature, key.sign s asked nonce message = .ok signature ↔
      ∃ alg, key.Admits asked .sign alg ∧ Signing.sign s alg key nonce message = .ok signature) ∧
    (∀ message signature, key.verify s asked message signature = .ok () ↔
      ∃ alg, key.Admits asked .verify alg ∧ Signing.verify s alg key message signature = .ok ()) ∧
    (∀ peer length context output, key.deriveShared s peer asked length context = .ok output ↔
      ∃ alg, key.Admits asked .deriveKey alg ∧ (peer.alg = none ∨ peer.alg = some alg) ∧
        peer.Permits .deriveKey ∧
        Agreement.agree s key (peer.completedBy key) length context = .ok output) := by
  refine ⟨?_, ?_, ?_, ?_, ?_, ?_, ?_, ?_, ?_⟩
  · intro nonce aad plain sealed
    exact symmetric_eq_ok_iff key asked .encrypt (Encryption.encrypt · · nonce aad plain) sealed
  · intro nonce aad sealed plain
    exact symmetric_eq_ok_iff key asked .decrypt (Encryption.decrypt · · nonce aad sealed) plain
  · intro message tag
    exact symmetric_eq_ok_iff key asked .macCreate (Authentication.tag · · message) tag
  · intro message tag
    exact symmetric_eq_ok_iff key asked .macVerify (Authentication.verify · · message tag) ()
  · intro content wrapped
    exact symmetric_eq_ok_iff key asked .wrap (KeyWrapping.wrap · · content) wrapped
  · intro wrapped content
    exact symmetric_eq_ok_iff key asked .unwrap (KeyWrapping.unwrap · · wrapped) content
  · intro nonce message signature
    rw [sign_eq_ok_iff]
    exact signature_admits_iff asked .sign fun alg made => Signing.sign_usable made
  · intro message signature
    rw [verify_eq_ok_iff]
    exact signature_admits_iff asked .verify fun alg verified => Signing.verify_usable verified
  · intro peer length context output
    rw [deriveShared_eq_ok_iff, ← and_assoc, deriveShared_coherent_iff, ← exists_and_right]
    simp only [and_assoc]

end Key

end Cose
