import Cose.Proofs.Hash.Hkdf
import Cose.Proofs.Key.Derivation

/-!
# What a key agreement derives

A key agreement first makes a secret, which the keys alone decide, and then derives as many bytes from it as are
asked for, at most 255 blocks. What is derived for one context are beginnings of one stream.
-/

set_option autoImplicit false

namespace Cose

open Result

namespace Agreement

open Hash.Hkdf (stream extract)

theorem agree_on_curve (s : Suite) {key peer : Key} {crv : EllipticCurve} (ours : key.curve = some crv)
    (theirs : peer.curve = some crv) (length : Nat) (context : Bytes) :
    agree s key peer length context = (do
      let shared ← secret s crv key peer
      (derive shared length context).map (Output.mk shared)) := by
  rw [agree, (key.requireCurve_eq_ok_iff crv).mpr ours, (peer.requireCurve_eq_ok_iff crv).mpr theirs, ok_bind,
    ok_bind, if_pos rfl]
  cases secret s crv key peer with
  | error e => rfl
  | ok shared => cases h : derive shared length context <;> simp [h, Except.map]

theorem derive_eq_stream_iff (ikm info okm : Bytes) (length : Nat) : derive ikm length info = .ok okm ↔
    length ≤ 255 * 32 ∧ (stream .sha256 (extract .sha256 ikm) info 255).take length = okm := by
  have positive : 0 < Hash.sha256.size := by decide
  rw [derive_eq_ok_iff, Hash.Hkdf.derive?_eq_some_iff positive]
  rfl

theorem exists_derive_iff (ikm info : Bytes) (length : Nat) :
    (∃ okm, derive ikm length info = .ok okm) ↔ length ≤ 255 * 32 := by
  simp [derive_eq_stream_iff]

section

variable {ikm info okm : Bytes} {length : Nat}

theorem length_derive (h : derive ikm length info = .ok okm) : okm.length = length := by
  obtain ⟨bounded, rfl⟩ := (derive_eq_stream_iff ikm info okm length).mp h
  exact Hash.Hkdf.length_take_stream _ info bounded

theorem derive_of_le {shorter : Nat} (le : shorter ≤ length) (h : derive ikm length info = .ok okm) :
    derive ikm shorter info = .ok (okm.take shorter) := by
  obtain ⟨bounded, rfl⟩ := (derive_eq_stream_iff ikm info okm length).mp h
  refine (derive_eq_stream_iff ikm info _ shorter).mpr ⟨Nat.le_trans le bounded, ?_⟩
  rw [List.take_take, Nat.min_eq_left le]

end

/-- Once keys have agreed, any length and context give an output with the same secret, or what is wrong with
that length. -/
theorem agree_again {s : Suite} {key peer : Key} {length : Nat} {context : Bytes} {o : Output}
    (h : agree s key peer length context = .ok o) (length' : Nat) (context' : Bytes) :
    agree s key peer length' context' = (derive o.shared length' context').map (Output.mk o.shared) := by
  obtain ⟨crv, ours, theirs, made, -⟩ := (agree_eq_ok_iff s key peer length context o).mp h
  rw [agree_on_curve s ours theirs, made, ok_bind]

/-- Up to 255 blocks of the hash can be derived, as many bytes as are asked for: the beginning of a stream that
the secret and the context decide, so a shorter output is the beginning of a longer one. An agreement derives
its key from its secret in this way, and neither length nor context has an influence on the secret. -/
theorem derived_from_stream :
    (∀ ikm info length, (∃ okm, derive ikm length info = .ok okm) ↔ length ≤ 255 * 32) ∧
    (∀ ikm info length okm, derive ikm length info = .ok okm →
      okm.length = length ∧ okm = (stream .sha256 (extract .sha256 ikm) info 255).take length) ∧
    (∀ ikm info shorter longer okm, shorter ≤ longer → derive ikm longer info = .ok okm →
      derive ikm shorter info = .ok (okm.take shorter)) ∧
    (∀ (s : Suite) (key peer : Key) (length : Nat) (context : Bytes) (o : Output),
      agree s key peer length context = .ok o →
      derive o.shared length context = .ok o.derived ∧
      ∀ length' context', agree s key peer length' context' =
        (derive o.shared length' context').map (Output.mk o.shared)) := by
  refine ⟨exists_derive_iff, ?_, ?_, ?_⟩
  · intro ikm info length okm h
    obtain ⟨-, begins⟩ := (derive_eq_stream_iff ikm info okm length).mp h
    exact ⟨length_derive h, begins.symm⟩
  · intro ikm info shorter longer okm le h
    exact derive_of_le le h
  · intro s key peer length context o h
    exact ⟨(derive_eq_ok_iff _ _ _ _).mpr (agree_derived h), agree_again h⟩

theorem derived_from_stream_x25519 :
    (∃ okm, derive [1] 8160 [2] = .ok okm ∧ okm.length = 8160 ∧ derive [1] 33 [2] = .ok (okm.take 33)) ∧
    ∃ o, agree .standard Key.x25519Key Key.x25519Peer 33 [2] = .ok o ∧
      derive o.shared 33 [2] = .ok o.derived ∧
      agree .standard Key.x25519Key Key.x25519Peer 16 [] = (derive o.shared 16 []).map (Output.mk o.shared) := by
  obtain ⟨bounded, sized, begins, agrees⟩ := derived_from_stream
  constructor
  · obtain ⟨okm, made⟩ := (bounded [1] [2] 8160).mpr (by decide)
    exact ⟨okm, made, (sized _ _ _ _ made).1, begins _ _ 33 8160 _ (by decide) made⟩
  · have made : (agree .standard Key.x25519Key Key.x25519Peer 33 [2]).isOk = true := by decide +kernel
    obtain ⟨o, made⟩ := ok_of_isOk made
    obtain ⟨derived, again⟩ := agrees _ _ _ _ _ _ made
    exact ⟨o, made, derived, again 16 []⟩

end Agreement

end Cose
