import Cose.Hash.Hmac

/-!
# The chain of derived blocks

Expansion writes block after block, each the keyed hash of the block before it, the context and its own number.
The blocks do not depend on how many of them are asked for, so all outputs for one key and one context are
beginnings of the same stream. Its numbers end at 255, the last one that a byte holds.
-/

set_option autoImplicit false

namespace Cose

namespace Hash.Hkdf

def extract (h : Hash) (ikm : Bytes) : Bytes := h.hmac (Bytes.zeros h.size) ikm

def block (h : Hash) (key info : Bytes) : Nat → Bytes
  | 0 => []
  | n + 1 => h.hmac key (block h key info n ++ info ++ [UInt8.ofNat (n + 1)])

/-- The blocks up to a number, one after the other. -/
def stream (h : Hash) (key info : Bytes) : Nat → Bytes
  | 0 => []
  | n + 1 => stream h key info n ++ block h key info (n + 1)

variable (h : Hash) (key info : Bytes)

@[simp] theorem length_block (n : Nat) : (block h key info (n + 1)).length = h.size := by
  rw [block, length_hmac]

@[simp] theorem length_stream (n : Nat) : (stream h key info n).length = n * h.size := by
  induction n with
  | zero => simp [stream]
  | succ n ih => rw [stream, List.length_append, ih, length_block, Nat.succ_mul]

/-- Expansion after some blocks goes on with the stream. -/
theorem stream_append_blocks (count n : Nat) :
    stream h key info n ++ blocks h key info count (n + 1) (block h key info n) =
      stream h key info (n + count) := by
  induction count generalizing n with
  | zero => simp [blocks]
  | succ count ih =>
    have next : blocks h key info (count + 1) (n + 1) (block h key info n) =
        block h key info (n + 1) ++ blocks h key info count (n + 2) (block h key info (n + 1)) := rfl
    have rest := ih (n + 1)
    rw [stream, List.append_assoc] at rest
    rw [next, rest, Nat.add_assoc, Nat.add_comm 1 count]

theorem blocks_eq_stream (count : Nat) : blocks h key info count 1 [] = stream h key info count := by
  simpa [stream, block] using stream_append_blocks h key info count 0

theorem take_stream {length count more : Nat} (covers : length ≤ count * h.size) (le : count ≤ more) :
    (stream h key info more).take length = (stream h key info count).take length := by
  obtain ⟨extra, rfl⟩ := Nat.exists_eq_add_of_le le
  rw [← stream_append_blocks, List.take_append_of_le_length]
  rw [length_stream]
  exact covers

variable {h}

theorem blocks_cover (positive : 0 < h.size) (length : Nat) :
    length ≤ (length + h.size - 1) / h.size * h.size := by
  have remainder := Nat.mod_lt (length + h.size - 1) positive
  have whole := Nat.div_add_mod (length + h.size - 1) h.size
  rw [Nat.mul_comm] at whole
  omega

theorem blocks_le {length : Nat} (positive : 0 < h.size) (bounded : length ≤ maxLength h) :
    (length + h.size - 1) / h.size ≤ 255 := by
  rw [maxLength] at bounded
  rw [← Nat.lt_succ_iff, Nat.div_lt_iff_lt_mul positive]
  omega

theorem derive?_eq_some_iff (positive : 0 < h.size) (ikm info okm : Bytes) (length : Nat) :
    derive? h ikm info length = some okm ↔
      length ≤ maxLength h ∧ (stream h (extract h ikm) info 255).take length = okm := by
  by_cases bounded : length ≤ maxLength h
  · have covers := blocks_cover positive length
    have few := blocks_le positive bounded
    rw [take_stream h _ info covers few, ← blocks_eq_stream]
    simp [derive?, bounded, extract]
  · simp [derive?, bounded]

theorem length_take_stream {length : Nat} (bounded : length ≤ maxLength h) :
    ((stream h key info 255).take length).length = length := by
  rw [List.length_take, length_stream]
  exact Nat.min_eq_left bounded

end Hash.Hkdf

end Cose
