import Cose.Cipher.Block

/-!
# Galois/counter mode

Counter mode with a tag from a polynomial hash of the additional data and the ciphertext. Nonces have twelve
bytes, tags sixteen. A ciphertext carries its tag at the end, and is decrypted only if the tag is the one that
its text would have.
-/

set_option autoImplicit false

namespace Cose

namespace Gcm

/-- Adds to `z` the product of `x` and `v`, of which `x` is taken bit by bit from its highest bit, while `v`
is multiplied by the generator of the field. -/
def multiplyAdd : Nat → UInt64 → UInt64 → UInt64 → UInt64 → UInt64 → UInt64 → Block
  | 0, _, _, _, _, zhi, zlo => ⟨zhi, zlo⟩
  | n + 1, xhi, xlo, vhi, vlo, zhi, zlo =>
    let set := xhi >>> 63 == 1
    let zhi' := if set then zhi ^^^ vhi else zhi
    let zlo' := if set then zlo ^^^ vlo else zlo
    let vhi' := if vlo &&& 1 == 1 then vhi >>> 1 ^^^ 0xe100000000000000 else vhi >>> 1
    multiplyAdd n (xhi <<< 1 ||| xlo >>> 63) (xlo <<< 1) vhi' (vhi <<< 63 ||| vlo >>> 1) zhi' zlo'

def multiply (x y : Block) : Block := multiplyAdd 128 x.hi x.lo y.hi y.lo 0 0

def polynomial (h : Block) (blocks : List Block) : Block :=
  blocks.foldl (fun s b => multiply (s ^^^ b) h) .zero

/-- The blocks that are hashed: both strings filled up with zero bytes, then their lengths in bits. -/
def hashedBlocks (aad text : Bytes) : List Block :=
  (Bytes.chunks 16 aad).map .ofBytes ++ (Bytes.chunks 16 text).map .ofBytes ++
    [⟨UInt64.ofNat (8 * aad.length), UInt64.ofNat (8 * text.length)⟩]

def counter (nonce : Bytes) (i : Nat) : Block := .ofBytes (nonce ++ Bytes.ofNat 4 i)

def tag (c : BlockCipher) (nonce aad text : Bytes) : Bytes :=
  let h := c.encrypt .zero
  (polynomial h (hashedBlocks aad text) ^^^ c.encrypt (counter nonce 1)).toBytes

def encrypt (c : BlockCipher) (nonce aad plain : Bytes) : Bytes :=
  let text := c.stream (counter nonce) 2 plain
  text ++ tag c nonce aad text

def decrypt? (c : BlockCipher) (nonce aad sealed : Bytes) : Option Bytes :=
  if 16 ≤ sealed.length then
    let text := sealed.take (sealed.length - 16)
    if tag c nonce aad text = sealed.drop (sealed.length - 16) then some (c.stream (counter nonce) 2 text)
    else none
  else none

end Gcm

end Cose
