import Cose.Proofs.Key.Alone
import Cose.Proofs.Signing.Curve
import Cose.Signature

/-!
# Algorithms bound to keys

Which pairs of algorithm and key get a signature made or accepted, at the level of the primitives, of keys and
of signature structures. ECDSA is kept to its curves. EdDSA is not: with an EC2 key it is the ECDSA algorithm
of the key's curve under another name.
-/

set_option autoImplicit false

namespace Cose

open Result

namespace Key

/-- The algorithm that an operation settles on when asked for one or none. -/
def Settles (key : Key) (asked : Option Algorithm) (alg : Algorithm) : Prop :=
  asked.or key.alg = some alg ∧ Compatible asked key.alg

theorem settles_iff (key : Key) (asked : Option Algorithm) (alg : Algorithm) :
    key.Settles asked alg ↔ Compatible key.alg asked ∧ key.alg.or asked = some alg := by
  constructor
  · rintro ⟨named, agrees⟩
    exact ⟨agrees.symm, agrees.or_comm.symm.trans named⟩
  · rintro ⟨agrees, named⟩
    exact ⟨agrees.or_comm.symm.trans named, agrees.symm⟩

theorem signature_settles {key : Key} {asked : Option Algorithm} {op : KeyOperation} {alg : Algorithm}
    (accepts : key.Accepts (key.signatureRequest asked op) alg) : key.Settles asked alg ∧
      (key.signatureRequest asked op).curve = alg.signatureCurve? := by
  have settles := (settles_iff key asked alg).mpr ⟨accepts.alg_agrees, accepts.named⟩
  refine ⟨settles, ?_⟩
  rw [signatureRequest, settles.1]
  rfl

/-- The curve that resolution fills in is the one that signing would have taken. -/
theorem curve_of_settled {key : Key} {request : Request} {alg : Algorithm}
    (accepts : key.Accepts request alg) (asked : request.curve = alg.signatureCurve?) :
    Signing.curve alg (key.settled request alg) = Signing.curve alg key := by
  by_cases h : key.hasCurve = true
  · have filled := curve_settled accepts h
    obtain ⟨crv, settled, -⟩ := accepts.family h
    rw [settled] at filled
    rw [asked] at settled
    by_cases edDsa : alg = .edDsa
    · subst edDsa
      have held : key.curve = some crv := by simpa [Algorithm.signatureCurve?] using settled
      rw [(Signing.curve_edDsa_eq_ok_iff key crv).mpr held]
      exact (Signing.curve_edDsa_eq_ok_iff _ crv).mpr filled
    · rw [Signing.curve, Signing.curve, filled]
      · cases bound : alg.signatureCurve? with
        | none => rfl
        | some expected =>
          rw [bound] at settled
          cases held : key.curve with
          | none =>
            obtain rfl : expected = crv := by simpa [held] using settled
            simp
          | some found =>
            obtain rfl : found = crv := by simpa [held] using settled
            rfl
      · exact edDsa
      · exact edDsa
  · have none_held : key.hasCurve = false := by simpa using h
    rw [settled_of_no_curve none_held]
    rfl

theorem signature_eq_ok_iff {β : Type} (key : Key) (asked : Option Algorithm) (op : KeyOperation)
    (run : Algorithm → Key → Result β)
    (depends : ∀ alg other, key.material.SameParts other.material →
      Signing.curve alg other = Signing.curve alg key → run alg other = run alg key) (b : β) : (do
      let keys ← key.resolve none (key.signatureRequest asked op)
      let alg ← keys.alg
      run alg keys.key) = .ok b ↔
    ∃ alg, key.Accepts (key.signatureRequest asked op) alg ∧ run alg key = .ok b := by
  rw [resolved_eq_ok_iff]
  apply exists_congr
  intro alg
  apply and_congr_right
  intro accepts
  rw [depends alg _ (settled_sameParts key _ alg) (curve_of_settled accepts (signature_settles accepts).2)]

theorem sign_eq_ok_iff (s : Suite) (key : Key) (asked : Option Algorithm) (nonce : Nat)
    (message signature : Bytes) : key.sign s asked nonce message = .ok signature ↔
      ∃ alg, key.Accepts (key.signatureRequest asked .sign) alg ∧
        Signing.sign s alg key nonce message = .ok signature := by
  apply signature_eq_ok_iff key asked .sign (Signing.sign s · · nonce message)
  intro alg other parts found
  exact Signing.sign_congr s parts found nonce message

theorem verify_eq_ok_iff (s : Suite) (key : Key) (asked : Option Algorithm) (message signature : Bytes) :
    key.verify s asked message signature = .ok () ↔
      ∃ alg, key.Accepts (key.signatureRequest asked .verify) alg ∧
        Signing.verify s alg key message signature = .ok () := by
  apply signature_eq_ok_iff key asked .verify (Signing.verify s · · message signature)
  intro alg other parts found
  exact Signing.verify_congr s parts found message signature

theorem sign_settles {s : Suite} {key : Key} {asked : Option Algorithm} {nonce : Nat}
    {message signature : Bytes} (h : key.sign s asked nonce message = .ok signature) :
    ∃ alg, key.Settles asked alg ∧ Signing.sign s alg key nonce message = .ok signature := by
  obtain ⟨alg, accepts, signed⟩ := (sign_eq_ok_iff s key asked nonce message signature).mp h
  exact ⟨alg, (signature_settles accepts).1, signed⟩

theorem verify_settles {s : Suite} {key : Key} {asked : Option Algorithm} {message signature : Bytes}
    (h : key.verify s asked message signature = .ok ()) :
    ∃ alg, key.Settles asked alg ∧ Signing.verify s alg key message signature = .ok () := by
  obtain ⟨alg, accepts, verified⟩ := (verify_eq_ok_iff s key asked message signature).mp h
  exact ⟨alg, (signature_settles accepts).1, verified⟩

end Key

namespace Signature

theorem requireKey_eq_ok_iff (s : Signature) (key : Key) : s.requireKey = .ok key ↔ s.key = some key := by
  rw [requireKey]
  cases s.key <;> simp

theorem compute_eq_ok {suite : Suite} {asked : Option Algorithm} {key : Key} {nonce : Nat}
    {message signature : Bytes} (h : compute suite asked key nonce message = .ok signature) :
    key.sign suite asked nonce message = .ok signature := by
  cases asked with
  | none => exact h
  | some alg =>
    rw [compute] at h
    split_ifs at h
    exact h

theorem sign_eq_ok {suite : Suite} {s signed : Signature} {nonce : Nat} {body payload : Bytes}
    (h : s.sign suite nonce body payload = .ok signed) :
    ∃ key asked signature, s.key = some key ∧ s.headerAlg = .ok asked ∧
      key.sign suite asked nonce (s.toBeSigned body payload) = .ok signature ∧
      signed = { s with signature := signature } := by
  obtain ⟨key, attached, h⟩ := bind_eq_ok_iff.mp h
  obtain ⟨asked, header, h⟩ := bind_eq_ok_iff.mp h
  obtain ⟨signature, computed, h⟩ := bind_eq_ok_iff.mp h
  exact ⟨key, asked, signature, (s.requireKey_eq_ok_iff key).mp attached, header, compute_eq_ok computed,
    (Except.ok.inj h).symm⟩

theorem sign_settles {suite : Suite} {s signed : Signature} {nonce : Nat} {body payload : Bytes}
    (h : s.sign suite nonce body payload = .ok signed) :
    ∃ key asked alg, s.key = some key ∧ s.headerAlg = .ok asked ∧ key.Settles asked alg ∧
      Signing.sign suite alg key nonce (s.toBeSigned body payload) = .ok signed.signature := by
  obtain ⟨key, asked, signature, attached, header, made, rfl⟩ := sign_eq_ok h
  obtain ⟨alg, settles, made⟩ := Key.sign_settles made
  exact ⟨key, asked, alg, attached, header, settles, made⟩

theorem verify_settles {suite : Suite} {s : Signature} {body payload : Bytes}
    (h : s.verify suite body payload = .ok ()) :
    ∃ key asked alg, s.key = some key ∧ s.headerAlg = .ok asked ∧ key.Settles asked alg ∧
      Signing.verify suite alg key (s.toBeSigned body payload) s.signature = .ok () := by
  obtain ⟨key, attached, h⟩ := bind_eq_ok_iff.mp h
  obtain ⟨asked, header, h⟩ := bind_eq_ok_iff.mp h
  obtain ⟨alg, settles, verified⟩ := Key.verify_settles h
  exact ⟨key, asked, alg, (s.requireKey_eq_ok_iff key).mp attached, header, settles, verified⟩

end Signature

/-- A signature is made or accepted only for a key that suits the algorithm, with one exception: under EdDSA
an EC2 key signs and verifies as under the ECDSA algorithm of its curve, which it suits, while it never suits
EdDSA. The operations on keys and on signature structures do so for the algorithm that they settle on. -/
theorem signature_binding (suite : Suite) :
    (∀ (alg : Algorithm) (key : Key) (nonce : Nat) (message signature : Bytes),
      Signing.sign suite alg key nonce message = .ok signature → key.Usable alg) ∧
    (∀ (alg : Algorithm) (key : Key) (message signature : Bytes),
      Signing.verify suite alg key message signature = .ok () → key.Usable alg) ∧
    (∀ (key : Key) (other : Algorithm), key.OnCurveOf other →
      key.Suits other ∧ ¬ key.Suits .edDsa ∧
      (∀ nonce message,
        Signing.sign suite .edDsa key nonce message = Signing.sign suite other key nonce message) ∧
      (∀ message signature,
        Signing.verify suite .edDsa key message signature =
          Signing.verify suite other key message signature)) ∧
    (∀ (key : Key) (asked : Option Algorithm) (nonce : Nat) (message signature : Bytes),
      key.sign suite asked nonce message = .ok signature →
      ∃ alg, key.Settles asked alg ∧ key.Usable alg ∧
        Signing.sign suite alg key nonce message = .ok signature) ∧
    (∀ (key : Key) (asked : Option Algorithm) (message signature : Bytes),
      key.verify suite asked message signature = .ok () →
      ∃ alg, key.Settles asked alg ∧ key.Usable alg ∧
        Signing.verify suite alg key message signature = .ok ()) ∧
    (∀ (s signed : Signature) (nonce : Nat) (body payload : Bytes),
      s.sign suite nonce body payload = .ok signed →
      ∃ key asked alg, s.key = some key ∧ s.headerAlg = .ok asked ∧ key.Settles asked alg ∧
        key.Usable alg ∧
        Signing.sign suite alg key nonce (s.toBeSigned body payload) = .ok signed.signature) ∧
    (∀ (s : Signature) (body payload : Bytes),
      s.verify suite body payload = .ok () →
      ∃ key asked alg, s.key = some key ∧ s.headerAlg = .ok asked ∧ key.Settles asked alg ∧
        key.Usable alg ∧
        Signing.verify suite alg key (s.toBeSigned body payload) s.signature = .ok ()) := by
  refine ⟨?_, ?_, ?_, ?_, ?_, ?_, ?_⟩
  · intro alg key nonce message signature h
    exact Signing.sign_usable h
  · intro alg key message signature h
    exact Signing.verify_usable h
  · intro key other h
    exact ⟨h.suits, h.not_edDsa, Signing.sign_edDsa_eq suite h, Signing.verify_edDsa_eq suite h⟩
  · intro key asked nonce message signature h
    obtain ⟨alg, settles, made⟩ := Key.sign_settles h
    exact ⟨alg, settles, Signing.sign_usable made, made⟩
  · intro key asked message signature h
    obtain ⟨alg, settles, verified⟩ := Key.verify_settles h
    exact ⟨alg, settles, Signing.verify_usable verified, verified⟩
  · intro s signed nonce body payload h
    obtain ⟨key, asked, alg, attached, header, settles, made⟩ := Signature.sign_settles h
    exact ⟨key, asked, alg, attached, header, settles, Signing.sign_usable made, made⟩
  · intro s body payload h
    obtain ⟨key, asked, alg, attached, header, settles, verified⟩ := Signature.verify_settles h
    exact ⟨key, asked, alg, attached, header, settles, Signing.verify_usable verified, verified⟩

def p256Key : Key where
  material := .ec2 ⟨some ⟨.p256, rfl⟩,
    some (Bytes.ofNat 32 0x9e98d868086beb35776ea4b823d1b7026d5ec63e051c754d99105aa2ffa56c2b),
    some (Bytes.ofNat 32 0x103ff177fa41fd7efb0f2644c20f03937731b062083e467d5863f6336255f660),
    none, Or.inl ⟨rfl, rfl⟩⟩
  attributes := { Key.Attributes.none with alg := some .edDsa }

def p256Signature : Signature where
  context := .signature
  protectedHeader := .empty
  unprotectedHeader := .empty
  signature := Ecdsa.encode Suite.standard.p256
    0x2312fb58136d40dd4cd6bc9b695865ce714fe93cd21875a61491c624f92e5bb8
    0x2312fb58136d40dd4cd6bc9b695865ce714fe93cd21875a61491c624f92e5bb8
  externalAad := []
  key := some p256Key

theorem p256Key_onCurveOf : p256Key.OnCurveOf .es256 := ⟨⟨_, rfl⟩, .p256, rfl, rfl⟩

/-- EdDSA accepts a signature on P-256. -/
theorem edDsa_accepts_p256 :
    Signing.verify .standard .edDsa p256Key (p256Signature.toBeSigned [] [1]) p256Signature.signature =
      .ok () ∧ ¬ p256Key.Suits .edDsa := by
  constructor
  · decide +kernel
  · exact p256Key_onCurveOf.not_edDsa

def p521Key : Key where
  material := .ec2 ⟨some ⟨.p521, rfl⟩, none, none, some (Bytes.ofNat 24 1), Or.inr rfl⟩
  attributes := { Key.Attributes.none with alg := some .es512 }

def p521Signature : Signature := .unsigned .signature .empty .empty (some p521Key)

theorem signature_binding_standard :
    (∃ signature, Signing.sign .standard .es512 p521Key 1 [] = .ok signature ∧ p521Key.Usable .es512) ∧
    p256Key.Usable .edDsa ∧ (p256Key.Suits .es256 ∧ ¬ p256Key.Suits .edDsa) ∧
    (∃ alg, p521Key.Settles none alg ∧ p521Key.Usable alg) ∧
    (∃ alg, p256Key.Settles none alg ∧ p256Key.Usable alg) ∧
    (∃ key asked alg, p521Signature.key = some key ∧ p521Signature.headerAlg = .ok asked ∧
      key.Settles asked alg ∧ key.Usable alg) ∧
    ∃ key asked alg, p256Signature.key = some key ∧ p256Signature.headerAlg = .ok asked ∧
      key.Settles asked alg ∧ key.Usable alg := by
  obtain ⟨signs, verifies, confuses, key_signs, key_verifies, signature_signs, signature_verifies⟩ :=
    signature_binding .standard
  have made : (Signing.sign .standard .es512 p521Key 1 []).isOk = true := by decide +kernel
  have key_made : (p521Key.sign .standard none 1 []).isOk = true := by decide +kernel
  have signature_made : (p521Signature.sign .standard 1 [] []).isOk = true := by decide +kernel
  obtain ⟨signature, made⟩ := ok_of_isOk made
  obtain ⟨_, key_made⟩ := ok_of_isOk key_made
  obtain ⟨_, signature_made⟩ := ok_of_isOk signature_made
  refine ⟨⟨signature, made, signs _ _ _ _ _ made⟩, ?_, ?_, ?_, ?_, ?_, ?_⟩
  · apply verifies .edDsa p256Key (p256Signature.toBeSigned [] [1]) p256Signature.signature
    decide +kernel
  · obtain ⟨suits, unsuited, -⟩ := confuses p256Key .es256 p256Key_onCurveOf
    exact ⟨suits, unsuited⟩
  · obtain ⟨alg, settles, usable, -⟩ := key_signs _ _ _ _ _ key_made
    exact ⟨alg, settles, usable⟩
  · obtain ⟨alg, settles, usable, -⟩ := key_verifies p256Key none (p256Signature.toBeSigned [] [1])
      p256Signature.signature (by decide +kernel)
    exact ⟨alg, settles, usable⟩
  · obtain ⟨key, asked, alg, attached, header, settles, usable, -⟩ :=
      signature_signs _ _ _ _ _ signature_made
    exact ⟨key, asked, alg, attached, header, settles, usable⟩
  · obtain ⟨key, asked, alg, attached, header, settles, usable, -⟩ :=
      signature_verifies p256Signature [] [1] (by decide +kernel)
    exact ⟨key, asked, alg, attached, header, settles, usable⟩

end Cose
