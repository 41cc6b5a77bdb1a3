import Cose.Proofs.Key.Operations

/-!
# The algorithm of a key agreement

A key agreement settles on an algorithm like every operation, and then does not look at it: the key is derived
with HKDF and SHA-256 whatever the algorithm asks for, and also if it asks for no key agreement at all.
-/

set_option autoImplicit false

namespace Cose

open Result

def Algorithm.agreementHash? : Algorithm → Option Hash
  | ecdhEsHkdf256 | ecdhSsHkdf256
  | ecdhEsA128kw | ecdhEsA192kw | ecdhEsA256kw
  | ecdhSsA128kw | ecdhSsA192kw | ecdhSsA256kw => some .sha256
  | ecdhEsHkdf512 | ecdhSsHkdf512 => some .sha512
  | _ => none

namespace Agreement

theorem derive_eq_ok_iff (ikm : Bytes) (length : Nat) (info okm : Bytes) :
    derive ikm length info = .ok okm ↔ Hash.Hkdf.derive? .sha256 ikm info length = some okm := by
  rw [derive]
  cases Hash.Hkdf.derive? .sha256 ikm info length <;> simp

theorem agree_derived {s : Suite} {key peer : Key} {length : Nat} {context : Bytes} {o : Output}
    (h : agree s key peer length context = .ok o) :
    Hash.Hkdf.derive? .sha256 o.shared context length = some o.derived := by
  obtain ⟨crv, -, -, -, made⟩ := (agree_eq_ok_iff s key peer length context o).mp h
  exact (derive_eq_ok_iff _ _ _ _).mp made

end Agreement

namespace Key

/-- The key and a peer settle on one algorithm when asked for one or none. -/
def SettlesWith (key peer : Key) (asked : Option Algorithm) : Prop :=
  ∃ alg, key.Settles asked alg ∧ (peer.alg = none ∨ peer.alg = some alg)

theorem deriveShared_iff (s : Suite) (key peer : Key) (asked : Option Algorithm) (length : Nat)
    (context : Bytes) (o : Agreement.Output) : key.deriveShared s peer asked length context = .ok o ↔
      key.SettlesWith peer asked ∧ key.Permits .deriveKey ∧ peer.Permits .deriveKey ∧
        Agreement.agree s key (peer.completedBy key) length context = .ok o := by
  rw [deriveShared_eq_ok_iff, ← and_assoc, deriveShared_coherent_iff]
  constructor
  · rintro ⟨⟨alg, ⟨settles, permits⟩, theirs, peer_permits⟩, agreed⟩
    exact ⟨⟨alg, settles, theirs⟩, permits, peer_permits, agreed⟩
  · rintro ⟨⟨alg, settles, theirs⟩, permits, peer_permits, agreed⟩
    exact ⟨⟨alg, ⟨settles, permits⟩, theirs, peer_permits⟩, agreed⟩

def withoutAlg (key : Key) : Key := { key with attributes := { key.attributes with alg := none } }

theorem settlesWith_withoutAlg (key peer : Key) (alg : Algorithm) :
    key.withoutAlg.SettlesWith peer.withoutAlg (some alg) :=
  ⟨alg, ⟨rfl, by simp [Compatible, withoutAlg, Key.alg]⟩, Or.inl rfl⟩

theorem material_completedBy_withoutAlg (peer key : Key) :
    (peer.withoutAlg.completedBy key.withoutAlg).material = (peer.completedBy key).material := by
  have same_curve : key.withoutAlg.curve = key.curve := rfl
  by_cases completed : peer.curve = none ∧ peer.keyType = key.keyType
  · have completed' : peer.withoutAlg.curve = none ∧ peer.withoutAlg.keyType = key.withoutAlg.keyType :=
      completed
    rw [completedBy, completedBy, if_pos completed, if_pos completed', same_curve]
    cases key.curve <;> rfl
  · have completed' : ¬ (peer.withoutAlg.curve = none ∧ peer.withoutAlg.keyType = key.withoutAlg.keyType) :=
      completed
    rw [completedBy, completedBy, if_neg completed, if_neg completed']
    rfl

/-- Keys that are bound to no algorithm agree on the same whichever one is asked for. -/
theorem deriveShared_withoutAlg_iff (s : Suite) (key peer : Key) (alg : Algorithm) (length : Nat)
    (context : Bytes) (o : Agreement.Output) :
    key.withoutAlg.deriveShared s peer.withoutAlg (some alg) length context = .ok o ↔
      key.Permits .deriveKey ∧ peer.Permits .deriveKey ∧
        Agreement.agree s key (peer.completedBy key) length context = .ok o := by
  have same : Agreement.agree s key.withoutAlg (peer.withoutAlg.completedBy key.withoutAlg) length context =
      Agreement.agree s key (peer.completedBy key) length context :=
    Agreement.agree_congr s rfl (material_completedBy_withoutAlg peer key) length context
  rw [deriveShared_iff, same]
  exact and_iff_right (settlesWith_withoutAlg key peer alg)

/-- A key agreement needs an algorithm that nothing contradicts, and any will do: it succeeds exactly if the
keys, bound to none, agree whichever one is asked for, and with the same result. The key is derived from the
shared secret with HKDF and SHA-256 every time. -/
theorem deriveShared_any_algorithm (s : Suite) (key peer : Key) (asked : Option Algorithm) (length : Nat)
    (context : Bytes) (output : Agreement.Output) :
    (key.deriveShared s peer asked length context = .ok output ↔
      key.SettlesWith peer asked ∧
        ∀ other, key.withoutAlg.deriveShared s peer.withoutAlg (some other) length context = .ok output) ∧
    (key.deriveShared s peer asked length context = .ok output →
      Hash.Hkdf.derive? .sha256 output.shared context length = some output.derived) := by
  constructor
  · rw [deriveShared_iff]
    simp only [deriveShared_withoutAlg_iff]
    constructor
    · rintro ⟨settled, rest⟩
      exact ⟨settled, fun _ => rest⟩
    · rintro ⟨⟨alg, settled⟩, rest⟩
      exact ⟨⟨alg, settled⟩, rest alg⟩
  · intro derived
    obtain ⟨-, -, -, agreed⟩ := (deriveShared_iff s key peer asked length context output).mp derived
    exact Agreement.agree_derived agreed

def x25519Key : Key := .bare (.okp ⟨some ⟨.x25519, rfl⟩, none, some (List.replicate 32 1), Or.inr rfl⟩)

def x25519Peer : Key := .bare (.okp ⟨some ⟨.x25519, rfl⟩, some (9 :: Bytes.zeros 31), none, Or.inl rfl⟩)

theorem deriveShared_any_algorithm_x25519 : ∃ output,
    x25519Key.deriveShared .standard x25519Peer (some .ecdhEsHkdf256) 16 [] = .ok output ∧
    x25519Key.withoutAlg.deriveShared .standard x25519Peer.withoutAlg (some .direct) 16 [] = .ok output ∧
    Hash.Hkdf.derive? .sha256 output.shared [] 16 = some output.derived := by
  have made : (x25519Key.deriveShared .standard x25519Peer (some .ecdhEsHkdf256) 16 []).isOk = true := by
    decide +kernel
  obtain ⟨output, made⟩ := ok_of_isOk made
  obtain ⟨exactly, derived⟩ :=
    deriveShared_any_algorithm .standard x25519Key x25519Peer (some .ecdhEsHkdf256) 16 [] output
  obtain ⟨-, any⟩ := exactly.mp made
  exact ⟨output, made, any .direct, derived made⟩

/-- Keys agree under a signature algorithm. -/
theorem deriveShared_es256 :
    (x25519Key.deriveShared .standard x25519Peer (some .es256) 16 []).isOk = true ∧
    x25519Key.Settles (some .es256) .es256 ∧ Algorithm.es256.agreementHash? ≠ some .sha256 := by
  refine ⟨?_, ⟨rfl, ?_⟩, ?_⟩
  · decide +kernel
  · simp [Compatible, x25519Key, bare, alg, Attributes.none]
  · simp [Algorithm.agreementHash?]

end Key

end Cose
