import Cose.Proofs.Signing.Binding

/-!
# Refusals of the key and refusals of the signature

Verifying has two stages. The first one sees algorithm and key and may refuse them with an error of its own; it
ends with a test. The second one puts message and signature to that test and has one error only. So whoever
controls message and signature learns of the key what everyone learns, and no signature is refused for its form.
-/

set_option autoImplicit false

namespace Cose

open Result

def EllipticCurve.signatureLength? : EllipticCurve → Option Nat
  | .p256 => some 64
  | .p384 => some 96
  | .p521 => some 132
  | .ed25519 => some 64
  | _ => none

theorem Ecdsa.length_of_verify {g : Group} {h : Hash} {q : Point} {message signature : Bytes}
    (passes : Ecdsa.verify g h q message signature = true) : signature.length = 2 * g.size := by
  rw [Ecdsa.verify] at passes
  split_ifs at passes with formed
  exact formed.1

theorem Edwards.length_of_verify {pub message signature : Bytes}
    (passes : Edwards.verify pub message signature = true) : signature.length = 64 := by
  rw [Edwards.verify, Option.any_eq_true] at passes
  obtain ⟨a, -, passes⟩ := passes
  simp only [Bool.and_eq_true, decide_eq_true_eq] at passes
  exact passes.1.1

theorem Suite.standard_ed25519_verify : Suite.standard.ed25519.verify = Edwards.verify := by
  simp only [Suite.standard]

theorem signatureLength?_of_group? {crv : EllipticCurve} {g : Group} {h : Hash}
    (group : Suite.standard.group? crv = some (g, h)) : crv.signatureLength? = some (2 * g.size) := by
  cases crv <;> cases group <;> rfl

namespace Signing

/-- The first stage: the test that messages and signatures are put to. -/
def verifier (s : Suite) (alg : Algorithm) (key : Key) : Result (Bytes → Bytes → Bool) := do
  let crv ← curve alg key
  match s.group? crv with
  | some (g, h) =>
    let q ← point g crv key
    .ok (Ecdsa.verify g h q)
  | none =>
    if crv = .ed25519 then
      let q ← octets s.ed25519 key
      .ok (s.ed25519.verify q)
    else .error (.unsupportedSignature (.curve alg crv))

def judge (test : Result (Bytes → Bytes → Bool)) (message signature : Bytes) : Result Unit := do
  let passes ← test
  accepted (passes message signature)

theorem verify_eq_judge (s : Suite) (alg : Algorithm) (key : Key) (message signature : Bytes) :
    verify s alg key message signature = judge (verifier s alg key) message signature := by
  rw [judge, verify, verifier]
  cases curve alg key with
  | error e => rfl
  | ok crv =>
    cases group : s.group? crv with
    | some gh =>
      cases located : point gh.1 crv key <;> simp [group, located]
    | none =>
      by_cases ed25519 : crv = .ed25519
      · subst ed25519
        cases octets s.ed25519 key <;> simp [group]
      · simp [group, ed25519]

theorem verifier_eq_ok {s : Suite} {alg : Algorithm} {key : Key} {passes : Bytes → Bytes → Bool}
    (test : verifier s alg key = .ok passes) : ∃ crv, curve alg key = .ok crv ∧
      ((∃ g h q, s.group? crv = some (g, h) ∧ passes = Ecdsa.verify g h q) ∨
        (crv = .ed25519 ∧ ∃ q, passes = s.ed25519.verify q)) := by
  obtain ⟨crv, found, test⟩ := bind_eq_ok_iff.mp test
  refine ⟨crv, found, ?_⟩
  split at test
  · next g h group =>
    obtain ⟨q, -, test⟩ := bind_eq_ok_iff.mp test
    exact Or.inl ⟨g, h, q, group, (Except.ok.inj test).symm⟩
  · split_ifs at test with ed25519
    obtain ⟨q, -, test⟩ := bind_eq_ok_iff.mp test
    exact Or.inr ⟨ed25519, q, (Except.ok.inj test).symm⟩

theorem accepted_eq_ok_iff (b : Bool) : accepted b = .ok () ↔ b = true := by
  cases b <;> simp [accepted]

theorem accepted_eq_error {b : Bool} {e : Error} (h : accepted b = .error e) :
    e = .signatureVerificationFailed := by
  cases b
  · exact (Except.error.inj h).symm
  · cases h

section

variable {test : Result (Bytes → Bytes → Bool)} {message signature : Bytes}

theorem judge_eq_ok_iff :
    judge test message signature = .ok () ↔ ∃ passes, test = .ok passes ∧ passes message signature = true := by
  simp only [judge, bind_eq_ok_iff, accepted_eq_ok_iff]

/-- Every error but one comes from the first stage, which sees neither message nor signature. -/
theorem judge_eq_error {e : Error} (refused : judge test message signature = .error e)
    (other : e ≠ .signatureVerificationFailed) (message' signature' : Bytes) :
    judge test message' signature' = .error e := by
  rcases bind_eq_error_iff.mp refused with first | ⟨passes, -, second⟩
  · exact bind_eq_error_iff.mpr (Or.inl first)
  · exact absurd (accepted_eq_error second) other

end

theorem length_of_verifier {alg : Algorithm} {key : Key} {passes : Bytes → Bytes → Bool}
    (test : verifier .standard alg key = .ok passes) :
    ∃ crv, curve alg key = .ok crv ∧ ∀ message signature, passes message signature = true →
      crv.signatureLength? = some signature.length := by
  obtain ⟨crv, found, ⟨g, h, q, group, rfl⟩ | ⟨rfl, q, rfl⟩⟩ := verifier_eq_ok test
  · refine ⟨crv, found, ?_⟩
    intro message signature passed
    rw [signatureLength?_of_group? group, Ecdsa.length_of_verify passed]
  · refine ⟨.ed25519, found, ?_⟩
    intro message signature passed
    rw [Suite.standard_ed25519_verify] at passed
    rw [Edwards.length_of_verify passed]
    rfl

theorem verify_eq_error {s : Suite} {alg : Algorithm} {key : Key} {message signature : Bytes} {e : Error}
    (refused : verify s alg key message signature = .error e) (other : e ≠ .signatureVerificationFailed)
    (message' signature' : Bytes) : verify s alg key message' signature' = .error e := by
  rw [verify_eq_judge] at refused ⊢
  exact judge_eq_error refused other message' signature'

theorem length_of_verify {alg : Algorithm} {key : Key} {message signature : Bytes}
    (verified : verify .standard alg key message signature = .ok ()) :
    ∃ crv, curve alg key = .ok crv ∧ crv.signatureLength? = some signature.length := by
  rw [verify_eq_judge] at verified
  obtain ⟨passes, test, passed⟩ := judge_eq_ok_iff.mp verified
  obtain ⟨crv, found, lengths⟩ := length_of_verifier test
  exact ⟨crv, found, lengths message signature passed⟩

end Signing

namespace Key

def verifier (s : Suite) (key : Key) (asked : Option Algorithm) : Result (Bytes → Bytes → Bool) := do
  let keys ← key.resolve none (key.signatureRequest asked .verify)
  let alg ← keys.alg
  Signing.verifier s alg keys.key

theorem verify_eq_judge (s : Suite) (key : Key) (asked : Option Algorithm) (message signature : Bytes) :
    key.verify s asked message signature = Signing.judge (key.verifier s asked) message signature := by
  simp only [verify, verifier, Signing.judge, bind_assoc, Signing.verify_eq_judge]

end Key

/-- Message and signature decide no error but the failure of the verification: any other error is returned
for every message and every signature. An accepted signature has the length that goes with the curve. Both
hold with the algorithm given and with an algorithm asked of the key. -/
theorem refusal_independent_of_signature :
    (∀ (s : Suite) (alg : Algorithm) (key : Key) (message₁ signature₁ message₂ signature₂ : Bytes) (e : Error),
      Signing.verify s alg key message₁ signature₁ = .error e → e ≠ .signatureVerificationFailed →
      Signing.verify s alg key message₂ signature₂ = .error e) ∧
    (∀ (alg : Algorithm) (key : Key) (message signature : Bytes),
      Signing.verify .standard alg key message signature = .ok () →
      ∃ crv, Signing.curve alg key = .ok crv ∧ crv.signatureLength? = some signature.length) ∧
    (∀ (s : Suite) (key : Key) (asked : Option Algorithm)
        (message₁ signature₁ message₂ signature₂ : Bytes) (e : Error),
      key.verify s asked message₁ signature₁ = .error e → e ≠ .signatureVerificationFailed →
      key.verify s asked message₂ signature₂ = .error e) ∧
    (∀ (key : Key) (asked : Option Algorithm) (message signature : Bytes),
      key.verify .standard asked message signature = .ok () →
      ∃ alg crv, key.Settles asked alg ∧ Signing.curve alg key = .ok crv ∧
        crv.signatureLength? = some signature.length) := by
  refine ⟨?_, ?_, ?_, ?_⟩
  · intro s alg key message₁ signature₁ message₂ signature₂ e refused other
    exact Signing.verify_eq_error refused other message₂ signature₂
  · intro alg key message signature verified
    exact Signing.length_of_verify verified
  · intro s key asked message₁ signature₁ message₂ signature₂ e refused other
    rw [Key.verify_eq_judge] at refused ⊢
    exact Signing.judge_eq_error refused other message₂ signature₂
  · intro key asked message signature verified
    obtain ⟨alg, settles, verified⟩ := Key.verify_settles verified
    obtain ⟨crv, found, length⟩ := Signing.length_of_verify verified
    exact ⟨alg, crv, settles, found, length⟩

theorem refusals_on_p256 :
    Signing.verify .standard .es384 p256Key (p256Signature.toBeSigned [] [1]) p256Signature.signature =
      .error (.invalidKeyParameter (.signingCurve .es384 .p384 .p256)) ∧
    (∃ crv, Signing.curve .es256 p256Key = .ok crv ∧
      crv.signatureLength? = some p256Signature.signature.length) ∧
    p256Key.verify .standard (some .es384) (p256Signature.toBeSigned [] [1]) p256Signature.signature =
      .error (.keyConfigurationConflict (.algorithm (.requested .edDsa .es384))) ∧
    ∃ alg crv, p256Key.Settles none alg ∧ Signing.curve alg p256Key = .ok crv ∧
      crv.signatureLength? = some p256Signature.signature.length := by
  obtain ⟨refused, length, key_refused, key_length⟩ := refusal_independent_of_signature
  refine ⟨?_, ?_, ?_, ?_⟩
  · exact refused .standard .es384 p256Key [] [] _ _ _ rfl (by decide)
  · exact length .es256 p256Key (p256Signature.toBeSigned [] [1]) p256Signature.signature (by decide +kernel)
  · exact key_refused .standard p256Key (some .es384) [] [] _ _ _ rfl (by decide)
  · exact key_length p256Key none (p256Signature.toBeSigned [] [1]) p256Signature.signature (by decide +kernel)

end Cose
