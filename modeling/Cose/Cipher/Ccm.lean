import Cose.Cipher.Block

/-!
# Counter mode with chained blocks

The tag is the last block of a chain over the nonce, the lengths, the additional data and the plaintext,
encrypted like the text. The length of the text is written in the bytes that the nonce leaves free, which
bounds the text. A ciphertext carries its tag at the end.
-/

set_option autoImplicit false

namespace Cose

namespace Ccm

def lengthSize (nonce : Bytes) : Nat := 15 - nonce.length

def fits (nonce : Bytes) (length : Nat) : Bool := length < 256 ^ lengthSize nonce

def counter (nonce : Bytes) (i : Nat) : Block :=
  .ofBytes (UInt8.ofNat (lengthSize nonce - 1) :: nonce ++ Bytes.ofNat (lengthSize nonce) i)

def firstBlock (tagLength : Nat) (nonce aad : Bytes) (length : Nat) : Block :=
  let flags := (if aad.isEmpty then 0 else 64) + 8 * ((tagLength - 2) / 2) + (lengthSize nonce - 1)
  .ofBytes (UInt8.ofNat flags :: nonce ++ Bytes.ofNat (lengthSize nonce) length)

def aadLength (n : Nat) : Bytes :=
  if n = 0 then []
  else if n < 0xff00 then Bytes.ofNat 2 n
  else if n < 2 ^ 32 then 0xff :: 0xfe :: Bytes.ofNat 4 n
  else 0xff :: 0xff :: Bytes.ofNat 8 n

def chainedBlocks (tagLength : Nat) (nonce aad plain : Bytes) : List Block :=
  firstBlock tagLength nonce aad plain.length ::
    (Bytes.chunks 16 (aadLength aad.length ++ aad)).map .ofBytes ++ (Bytes.chunks 16 plain).map .ofBytes

def tag (c : BlockCipher) (tagLength : Nat) (nonce aad plain : Bytes) : Bytes :=
  let mac := c.chain .zero (chainedBlocks tagLength nonce aad plain)
  (mac ^^^ c.encrypt (counter nonce 0)).toBytes.take tagLength

/-- Fails for a text whose length the nonce leaves no room for. -/
def encrypt? (c : BlockCipher) (tagLength : Nat) (nonce aad plain : Bytes) : Option Bytes :=
  if fits nonce plain.length then
    some (c.stream (counter nonce) 1 plain ++ tag c tagLength nonce aad plain)
  else none

def decrypt? (c : BlockCipher) (tagLength : Nat) (nonce aad sealed : Bytes) : Option Bytes :=
  if tagLength ≤ sealed.length ∧ fits nonce (sealed.length - tagLength) then
    let plain := c.stream (counter nonce) 1 (sealed.take (sealed.length - tagLength))
    if tag c tagLength nonce aad plain = sealed.drop (sealed.length - tagLength) then some plain
    else none
  else none

end Ccm

end Cose
