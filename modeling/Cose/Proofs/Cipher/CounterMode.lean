import Mathlib.Data.LawfulXor.Basic
import Cose.Cipher.Sealing

/-!
# Modes of operation undone

Counter mode adds a keystream that depends on the text only through its length, so it is its own inverse under
any block cipher. Both authenticated modes append a tag of fixed length to the text under counter mode. A sealed
text therefore falls apart in one way only, and it opens to a plaintext exactly if it is that plaintext sealed:
opening undoes sealing for each mode, whatever the block cipher is.
-/

set_option autoImplicit false

namespace Cose

namespace Bytes

theorem xor_xor (text stream : Bytes) (covers : text.length ≤ stream.length) :
    xor (xor text stream) stream = text := by
  induction text generalizing stream with
  | nil => rfl
  | cons b text ih =>
    cases stream with
    | nil => simp at covers
    | cons s stream =>
      have rest := ih stream (by simpa using covers)
      simp only [xor, List.zipWith_cons_cons] at rest ⊢
      rw [xor_cancel_right, rest]

theorem append_eq_iff (text tag whole : Bytes) : text ++ tag = whole ↔
    tag.length ≤ whole.length ∧ whole.take (whole.length - tag.length) = text ∧
      whole.drop (whole.length - tag.length) = tag := by
  constructor
  · rintro rfl
    simp
  · rintro ⟨-, front, back⟩
    calc
      text ++ tag = whole.take (whole.length - tag.length) ++ whole.drop (whole.length - tag.length) := by
        rw [front, back]
      _ = whole := List.take_append_drop _ _

end Bytes

namespace BlockCipher

variable (c : BlockCipher) (counter : Nat → Block)

theorem length_keystream (count i : Nat) : (c.keystream counter count i).length = 16 * count := by
  induction count generalizing i with
  | zero => rfl
  | succ count ih =>
    rw [keystream, List.length_append, ih, Block.length_toBytes]
    omega

theorem keystream_covers (i : Nat) (text : Bytes) :
    text.length ≤ (c.keystream counter ((text.length + 15) / 16) i).length := by
  rw [length_keystream]
  omega

@[simp] theorem length_stream (i : Nat) (text : Bytes) : (c.stream counter i text).length = text.length := by
  rw [stream, Bytes.length_xor]
  exact Nat.min_eq_left (c.keystream_covers counter i text)

@[simp] theorem stream_stream (i : Nat) (text : Bytes) :
    c.stream counter i (c.stream counter i text) = text := by
  rw [stream, length_stream, stream]
  exact Bytes.xor_xor text _ (c.keystream_covers counter i text)

end BlockCipher

namespace Gcm

variable (c : BlockCipher) (nonce aad : Bytes)

theorem length_tag (text : Bytes) : (tag c nonce aad text).length = 16 := rfl

theorem length_encrypt (plain : Bytes) : (encrypt c nonce aad plain).length = plain.length + 16 := by
  rw [encrypt, List.length_append, length_tag, BlockCipher.length_stream]

theorem decrypt?_eq_some_iff (sealed plain : Bytes) :
    decrypt? c nonce aad sealed = some plain ↔ encrypt c nonce aad plain = sealed := by
  rw [encrypt, Bytes.append_eq_iff, length_tag]
  simp only [decrypt?, Option.ite_none_right_eq_some, Option.some.injEq]
  constructor
  · rintro ⟨long, tagged, rfl⟩
    rw [BlockCipher.stream_stream]
    exact ⟨long, rfl, tagged.symm⟩
  · rintro ⟨long, front, back⟩
    rw [front, back, BlockCipher.stream_stream]
    exact ⟨long, rfl, rfl⟩

end Gcm

namespace Ccm

variable (c : BlockCipher) {tagLength : Nat} (nonce aad : Bytes)

theorem length_tag (short : tagLength ≤ 16) (plain : Bytes) :
    (tag c tagLength nonce aad plain).length = tagLength := by
  rw [tag, List.length_take, Block.length_toBytes]
  exact Nat.min_eq_left short

theorem encrypt?_eq_some_iff (plain sealed : Bytes) :
    encrypt? c tagLength nonce aad plain = some sealed ↔ fits nonce plain.length = true ∧
      c.stream (counter nonce) 1 plain ++ tag c tagLength nonce aad plain = sealed := by
  simp only [encrypt?, Option.ite_none_right_eq_some, Option.some.injEq]

theorem length_encrypt? (short : tagLength ≤ 16) {plain sealed : Bytes}
    (done : encrypt? c tagLength nonce aad plain = some sealed) :
    sealed.length = plain.length + tagLength := by
  obtain ⟨-, rfl⟩ := (encrypt?_eq_some_iff c nonce aad plain sealed).mp done
  rw [List.length_append, length_tag c nonce aad short, BlockCipher.length_stream]

theorem decrypt?_eq_some_iff (short : tagLength ≤ 16) (sealed plain : Bytes) :
    decrypt? c tagLength nonce aad sealed = some plain ↔
      encrypt? c tagLength nonce aad plain = some sealed := by
  rw [encrypt?_eq_some_iff, Bytes.append_eq_iff, length_tag c nonce aad short]
  simp only [decrypt?, Option.ite_none_right_eq_some, Option.some.injEq]
  have length : (sealed.take (sealed.length - tagLength)).length = sealed.length - tagLength := by
    rw [List.length_take]
    omega
  constructor
  · rintro ⟨⟨long, fit⟩, tagged, rfl⟩
    rw [BlockCipher.stream_stream, BlockCipher.length_stream, length]
    exact ⟨fit, long, rfl, tagged.symm⟩
  · rintro ⟨fit, long, front, back⟩
    -- the text without its tag has the length of the plaintext, which the nonce has room for
    rw [front, BlockCipher.length_stream] at length
    rw [front, back, BlockCipher.stream_stream, ← length]
    exact ⟨⟨long, fit⟩, rfl, rfl⟩

end Ccm

namespace SealingCipher

variable (s : SealingCipher) (c : BlockCipher) (nonce aad : Bytes)

/-- Opening is the exact inverse of sealing over every block cipher. -/
theorem open?_eq_some_iff (sealed plain : Bytes) :
    s.open? c nonce aad sealed = some plain ↔ s.seal? c nonce aad plain = some sealed := by
  cases s with
  | gcm keyLength =>
    rw [open?, seal?, Option.some.injEq]
    exact Gcm.decrypt?_eq_some_iff c nonce aad sealed plain
  | ccm keyLength tagLength nonceLength short => exact Ccm.decrypt?_eq_some_iff c nonce aad short sealed plain

theorem length_seal? {plain sealed : Bytes} (done : s.seal? c nonce aad plain = some sealed) :
    sealed.length = plain.length + s.tagLength := by
  cases s with
  | gcm keyLength =>
    obtain rfl := Option.some.inj done
    exact Gcm.length_encrypt c nonce aad plain
  | ccm keyLength tagLength nonceLength short => exact Ccm.length_encrypt? c nonce aad short done

def Fits : SealingCipher → Bytes → Bytes → Prop
  | gcm _, _, _ => True
  | ccm _ _ _ _, nonce, plain => Ccm.fits nonce plain.length = true

theorem exists_seal?_iff (plain : Bytes) :
    (∃ sealed, s.seal? c nonce aad plain = some sealed) ↔ s.Fits nonce plain := by
  cases s with
  | gcm keyLength => simp [seal?, Fits]
  | ccm keyLength tagLength nonceLength short => simp [seal?, Fits, Ccm.encrypt?_eq_some_iff]

end SealingCipher

end Cose
