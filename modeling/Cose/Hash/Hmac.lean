import Cose.Hash.Sha2

/-!
# HMAC and HKDF

A keyed hash, and the derivation of keys from it: an extraction under a key of zero bytes, then a chain of
blocks in which each one depends on the one before it, the context and its own number.
-/

set_option autoImplicit false

namespace Cose

namespace Hash

/-- A key is hashed if it is longer than a block, and then filled up with zero bytes. -/
def blockKey (h : Hash) (key : Bytes) : Bytes :=
  let key := if key.length ≤ h.blockSize then key else h.digest key
  key ++ Bytes.zeros (h.blockSize - key.length)

def hmac (h : Hash) (key m : Bytes) : Bytes :=
  let key := h.blockKey key
  h.digest (key.map (· ^^^ 0x5c) ++ h.digest (key.map (· ^^^ 0x36) ++ m))

@[simp] theorem length_hmac (h : Hash) (key m : Bytes) : (h.hmac key m).length = h.size :=
  h.length_digest _

namespace Hkdf

def blocks (h : Hash) (key info : Bytes) : Nat → Nat → Bytes → Bytes
  | 0, _, _ => []
  | count + 1, i, previous =>
    let t := h.hmac key (previous ++ info ++ [UInt8.ofNat i])
    t ++ blocks h key info count (i + 1) t

/-- Block numbers are one byte, which bounds the output. -/
def maxLength (h : Hash) : Nat := 255 * h.size

def derive? (h : Hash) (ikm info : Bytes) (length : Nat) : Option Bytes :=
  if length ≤ maxLength h then
    let key := h.hmac (Bytes.zeros h.size) ikm
    some ((blocks h key info ((length + h.size - 1) / h.size) 1 []).take length)
  else none

end Hkdf

end Hash

end Cose
