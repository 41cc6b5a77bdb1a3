import Cose.Proofs.Signing.OwnSignature

/-!
# Signing a structure

Signing sets the signature of a structure, or fails and leaves the structure as it was. What is signed and the
algorithm do not depend on the signature, so a key that accepts its own signatures accepts the one that it
just made.
-/

set_option autoImplicit false

namespace Cose

open Result

namespace Signature

def SignsOn (s : Signature) (key : Key) (crv : EllipticCurve) : Prop :=
  s.key = some key ∧ ∃ asked, s.headerAlg = .ok asked ∧ key.SignsOn asked crv

/-- Signing a structure in place. Each step finds the structure as the steps before have left it, also if it
fails. -/
def signInPlace (suite : Suite) (nonce : Nat) (bodyProtected payload : Bytes) :
    EStateM Error Signature Unit := do
  let key ← MonadExcept.ofExcept (← get).requireKey
  let alg ← MonadExcept.ofExcept (← get).headerAlg
  let message := (← get).toBeSigned bodyProtected payload
  let signature ← MonadExcept.ofExcept (compute suite alg key nonce message)
  modify fun s => { s with signature := signature }

theorem run_signInPlace (suite : Suite) (s : Signature) (nonce : Nat) (body payload : Bytes) :
    (signInPlace suite nonce body payload).run s = inPlace (s.sign suite nonce body payload) s := by
  simp only [sign, signInPlace, EStateM.run_bind, EStateM.run_get, EStateM.run_modify, run_ofExcept]
  cases s.requireKey with
  | error e => rfl
  | ok key =>
    cases header : s.headerAlg with
    | error e => simp [header]
    | ok asked =>
      cases made : compute suite asked key nonce (s.toBeSigned body payload) <;> simp [header, made]

theorem verify_of_sign {suite : Suite} {s signed : Signature} {nonce : Nat} {body payload : Bytes}
    (unbound : ∀ key, s.key = some key → key.keyOps = none)
    (own : ∀ key crv, s.SignsOn key crv → key.OwnPublic suite crv)
    (accepts : ∀ key crv, s.SignsOn key crv →
      suite.AcceptsOwn crv key nonce (s.toBeSigned body payload))
    (signs : s.sign suite nonce body payload = .ok signed) : signed.verify suite body payload = .ok () := by
  obtain ⟨key, asked, signature, attached, header, made, rfl⟩ := sign_eq_ok signs
  have verified : key.verify suite asked (s.toBeSigned body payload) signature = .ok () := by
    apply Key.verify_of_sign (unbound key attached) _ _ made
    · intro crv signs_on
      exact own key crv ⟨attached, asked, header, signs_on⟩
    · intro crv signs_on
      exact accepts key crv ⟨attached, asked, header, signs_on⟩
  -- neither the key nor the algorithm nor what is signed depends on the signature
  apply bind_eq_ok_iff.mpr
  refine ⟨key, (requireKey_eq_ok_iff _ key).mpr attached, ?_⟩
  apply bind_eq_ok_iff.mpr
  exact ⟨asked, header, verified⟩

/-- Let the key of a structure be bound to no operation and hold no complete public part but its own. Once the
structure is signed it verifies, over the same body and payload, and nothing but its signature has changed.
Signing in place comes to the same, and if it fails the structure is as it was. -/
theorem own_signature_accepted (suite : Suite) (s : Signature) (nonce : Nat) (body payload : Bytes)
    (unbound : ∀ key, s.key = some key → key.keyOps = none)
    (own : ∀ key crv, s.SignsOn key crv → key.OwnPublic suite crv)
    (accepts : ∀ key crv, s.SignsOn key crv →
      suite.AcceptsOwn crv key nonce (s.toBeSigned body payload)) :
    (∀ signed, s.sign suite nonce body payload = .ok signed →
      signed.verify suite body payload = .ok () ∧ signed = { s with signature := signed.signature }) ∧
    (∀ signed, (signInPlace suite nonce body payload).run s = .ok () signed ↔
      s.sign suite nonce body payload = .ok signed) ∧
    (∀ e left, (signInPlace suite nonce body payload).run s = .error e left ↔
      s.sign suite nonce body payload = .error e ∧ left = s) := by
  refine ⟨?_, ?_, ?_⟩
  · intro signed made
    obtain ⟨_, _, _, -, -, -, set⟩ := sign_eq_ok made
    refine ⟨verify_of_sign unbound own accepts made, ?_⟩
    rw [set]
  · intro signed
    rw [run_signInPlace, inPlace_eq_ok_iff]
  · intro e left
    rw [run_signInPlace, inPlace_eq_error_iff]

def baseKey : Key := .bare (.ec2 ⟨none, some (Bytes.ofNat 66 Weierstrass.p521.baseX),
  some (Bytes.ofNat 66 Weierstrass.p521.baseY), some (Bytes.ofNat 32 1), Or.inl ⟨rfl, rfl⟩⟩)

def baseSignature : Signature :=
  { unsigned .counterSignature (.ofMap [(.int 1, .int (-36))]) .empty (some baseKey) with
    externalAad := [0x41] }

theorem baseSignature_signsOn {key : Key} {crv : EllipticCurve} (h : baseSignature.SignsOn key crv) :
    key = baseKey ∧ crv = .p521 := by
  obtain ⟨⟨⟩, asked, header, alg, ⟨named, -⟩, found⟩ := h
  obtain rfl : some .es512 = asked := Except.ok.inj header
  obtain rfl : .es512 = alg := Option.some.inj named
  obtain rfl : .p521 = crv := Except.ok.inj found
  exact ⟨rfl, rfl⟩

theorem scalar_baseKey {d : Nat} (secret : Signing.scalar Suite.standard.p521 .p521 baseKey = .ok d) :
    d = 1 := by
  have one : Signing.scalar Suite.standard.p521 .p521 baseKey = .ok 1 := by decide +kernel
  exact Except.ok.inj (secret.symm.trans one)

theorem baseKey_ownPublic : baseKey.OwnPublic .standard .p521 where
  coordinates := by
    rintro g h k d q ⟨⟩ ⟨⟩ secret ⟨⟩
    obtain rfl := scalar_baseKey secret
    decide +kernel
  octets := by simp [baseKey, Key.bare]

theorem baseKey_acceptsOwn :
    Suite.standard.AcceptsOwn .p521 baseKey 1 (baseSignature.toBeSigned [0xa0] [1, 2]) where
  ecdsa := by
    rintro g h d signature ⟨⟩ secret made
    obtain rfl := scalar_baseKey secret
    have accepted : (Signing.signOn Suite.standard.p521 .sha512 .p521 1 1
        (baseSignature.toBeSigned [0xa0] [1, 2])).toOption.all
          (Ecdsa.verify Suite.standard.p521 .sha512 (Suite.standard.p521.publicKey 1)
            (baseSignature.toBeSigned [0xa0] [1, 2])) = true := by
      decide +kernel
    rw [made] at accepted
    exact accepted
  edDsa := by simp

theorem own_signature_accepted_p521 : ∃ signed,
    (signInPlace .standard 1 [0xa0] [1, 2]).run baseSignature = .ok () signed ∧
    signed.verify .standard [0xa0] [1, 2] = .ok () ∧
    signed = { baseSignature with signature := signed.signature } := by
  have made : (baseSignature.sign .standard 1 [0xa0] [1, 2]).isOk = true := by decide +kernel
  have unbound : ∀ key, baseSignature.key = some key → key.keyOps = none := by
    rintro _ ⟨⟩
    rfl
  have own : ∀ key crv, baseSignature.SignsOn key crv → key.OwnPublic .standard crv := by
    intro key crv signs_on
    obtain ⟨rfl, rfl⟩ := baseSignature_signsOn signs_on
    exact baseKey_ownPublic
  have accepts : ∀ key crv, baseSignature.SignsOn key crv →
      Suite.standard.AcceptsOwn crv key 1 (baseSignature.toBeSigned [0xa0] [1, 2]) := by
    intro key crv signs_on
    obtain ⟨rfl, rfl⟩ := baseSignature_signsOn signs_on
    exact baseKey_acceptsOwn
  obtain ⟨accepted, in_place, -⟩ :=
    own_signature_accepted .standard baseSignature 1 [0xa0] [1, 2] unbound own accepts
  obtain ⟨signed, made⟩ := ok_of_isOk made
  obtain ⟨verified, unchanged⟩ := accepted signed made
  exact ⟨signed, (in_place signed).mpr made, verified, unchanged⟩

end Signature

end Cose
