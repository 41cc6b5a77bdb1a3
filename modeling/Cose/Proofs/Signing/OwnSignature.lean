import Cose.Proofs.Signing.Binding

/-!
# Signatures under one's own key

Signing takes the private part of a key and verifying the public one, or else the private one again. The two
meet if the public part is nothing but what the private part gives, and if the primitives of the curve keep
their part: what they sign they accept.
-/

set_option autoImplicit false

namespace Cose

open Result

/-- What the primitives of a curve sign with the private part of the key they accept under the public key
computed from it, the number that P-521 signs with and the message being these. -/
structure Suite.AcceptsOwn (s : Suite) (crv : EllipticCurve) (key : Key) (nonce : Nat) (message : Bytes) :
    Prop where
  ecdsa : ∀ g h d signature, s.group? crv = some (g, h) → Signing.scalar g crv key = .ok d →
    Signing.signOn g h crv d nonce message = .ok signature →
    Ecdsa.verify g h (g.publicKey d) message signature = true
  edDsa : ∀ k d, crv = .ed25519 → key.material = .okp k → k.d = some d → d.length = 32 →
    (s.ed25519.publicKey d).length = 32 ∧ s.ed25519.isPublicKey (s.ed25519.publicKey d) = true ∧
      s.ed25519.verify (s.ed25519.publicKey d) message (s.ed25519.sign d message) = true

namespace Key

theorem Ec2.pointBytes_of_isSome {k : Ec2} (complete : k.x.isSome ∧ k.y.isSome) :
    ∃ q, k.pointBytes = .ok q := by
  obtain ⟨x, hx⟩ := Option.isSome_iff_exists.mp complete.1
  obtain ⟨y, hy⟩ := Option.isSome_iff_exists.mp complete.2
  exact ⟨_, (k.pointBytes_eq_ok_iff _).mpr ⟨x, y, hx, hy, rfl⟩⟩

/-- The public part of the key is absent, incomplete or the one that its private part gives on the curve. -/
structure OwnPublic (key : Key) (s : Suite) (crv : EllipticCurve) : Prop where
  coordinates : ∀ g h k d q, s.group? crv = some (g, h) → key.material = .ec2 k →
    Signing.scalar g crv key = .ok d → k.pointBytes = .ok q → g.point? q = some (g.publicKey d)
  octets : ∀ k d x, key.material = .okp k → k.d = some d → k.x = some x → x = s.ed25519.publicKey d

end Key

namespace Signing

variable {s : Suite} {key : Key} {crv : EllipticCurve}

theorem point_of_own (own : key.OwnPublic s crv) {g : Group} {h : Hash} {d : Nat}
    (group : s.group? crv = some (g, h)) (secret : scalar g crv key = .ok d) :
    point g crv key = .ok (g.publicKey d) := by
  obtain ⟨k, material⟩ := scalar_isEc2 secret
  have required := (key.requireEc2_eq_ok_iff k).mpr material
  by_cases complete : k.x.isSome ∧ k.y.isSome
  · obtain ⟨q, written⟩ := Key.Ec2.pointBytes_of_isSome complete
    have read := own.coordinates g h k d q group material secret written
    simp [point, required, complete, written, read]
  · simp [point, required, complete, secret]

theorem octets_of_own (own : key.OwnPublic s crv) {k : Key.Okp} {d : Bytes} (material : key.material = .okp k)
    (held : k.d = some d) (length : d.length = 32) (sized : (s.ed25519.publicKey d).length = 32)
    (valid : s.ed25519.isPublicKey (s.ed25519.publicKey d) = true) :
    octets s.ed25519 key = .ok (s.ed25519.publicKey d) := by
  have required := (key.requireOkp_eq_ok_iff k).mpr material
  cases hx : k.x with
  | none => simp [octets, required, hx, held, Key.requirePart, Key.requireLength, length]
  | some x =>
    obtain rfl := own.octets k d x material held hx
    simp [octets, required, hx, Key.requireLength, sized, valid]

theorem verify_of_sign {alg : Algorithm} {nonce : Nat} {message signature : Bytes}
    (found : curve alg key = .ok crv) (own : key.OwnPublic s crv)
    (accepts : s.AcceptsOwn crv key nonce message)
    (made : sign s alg key nonce message = .ok signature) : verify s alg key message signature = .ok () := by
  obtain ⟨crv', found', made⟩ := bind_eq_ok_iff.mp made
  obtain rfl : crv = crv' := Except.ok.inj (found.symm.trans found')
  rw [verify, found, ok_bind]
  split at made
  · next g h group =>
    obtain ⟨d, secret, made⟩ := bind_eq_ok_iff.mp made
    have accepted_own := accepts.ecdsa g h d signature group secret made
    simp [point_of_own own group secret, accepted, accepted_own]
  · split_ifs at made with edwards
    subst edwards
    obtain ⟨k, required, made⟩ := bind_eq_ok_iff.mp made
    obtain ⟨d, held, made⟩ := bind_eq_ok_iff.mp made
    obtain ⟨_, taken, made⟩ := bind_eq_ok_iff.mp made
    have material := (key.requireOkp_eq_ok_iff k).mp required
    have held := (Key.requirePart_eq_ok_iff _ _ _).mp held
    obtain ⟨length, rfl⟩ := (Key.requireLength_eq_ok_iff _ _ _ _).mp taken
    obtain rfl := Except.ok.inj made
    obtain ⟨sized, valid, accepted_own⟩ := accepts.edDsa k d rfl material held length
    simp [octets_of_own own material held length sized valid, accepted, accepted_own]

end Signing

namespace Key

def SignsOn (key : Key) (asked : Option Algorithm) (crv : EllipticCurve) : Prop :=
  ∃ alg, key.Settles asked alg ∧ Signing.curve alg key = .ok crv

theorem Accepts.verifying {key : Key} {asked : Option Algorithm} {alg : Algorithm}
    (accepts : key.Accepts (key.signatureRequest asked .sign) alg) (unbound : key.keyOps = none) :
    key.Accepts (key.signatureRequest asked .verify) alg where
  named := accepts.named
  alg_agrees := accepts.alg_agrees
  keyOps_agree := (compatible_some_iff _ _).mpr (Or.inl unbound)
  curve_agrees := accepts.curve_agrees
  family := accepts.family

theorem verify_of_sign {s : Suite} {key : Key} {asked : Option Algorithm} {nonce : Nat}
    {message signature : Bytes} (unbound : key.keyOps = none)
    (own : ∀ crv, key.SignsOn asked crv → key.OwnPublic s crv)
    (accepts : ∀ crv, key.SignsOn asked crv → s.AcceptsOwn crv key nonce message)
    (made : key.sign s asked nonce message = .ok signature) :
    key.verify s asked message signature = .ok () := by
  obtain ⟨alg, accepted, made⟩ := (sign_eq_ok_iff s key asked nonce message signature).mp made
  obtain ⟨crv, found, -⟩ := bind_eq_ok_iff.mp made
  have signs_on : key.SignsOn asked crv := ⟨alg, (signature_settles accepted).1, found⟩
  have verified := Signing.verify_of_sign found (own crv signs_on) (accepts crv signs_on) made
  exact (verify_eq_ok_iff s key asked message signature).mpr ⟨alg, accepted.verifying unbound, verified⟩

end Key

end Cose
