import Cose.Cipher.Block

/-!
# Block cipher MAC

The blocks of the message are chained, the last one after adding a key to it: one key if the block is full,
another if it had to be filled up. Both keys come from the cipher's image of zero.
-/

set_option autoImplicit false

namespace Cose

namespace Cmac

def double (b : Block) : Block :=
  let lo := if b.hi >>> 63 == 1 then b.lo <<< 1 ^^^ 0x87 else b.lo <<< 1
  ⟨b.hi <<< 1 ||| b.lo >>> 63, lo⟩

def lastBlock (key : Block) (piece : Bytes) : Block :=
  if piece.length = 16 then .ofBytes piece ^^^ double key
  else .ofBytes (piece ++ [0x80]) ^^^ double (double key)

def blocks (key : Block) : List Bytes → List Block
  | [] => [lastBlock key []]
  | [piece] => [lastBlock key piece]
  | piece :: rest => .ofBytes piece :: blocks key rest

def tag (c : BlockCipher) (message : Bytes) : Bytes :=
  (c.chain .zero (blocks (c.encrypt .zero) (Bytes.chunks 16 message))).toBytes

end Cmac

end Cose
