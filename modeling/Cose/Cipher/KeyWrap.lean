import Cose.Cipher.Block

/-!
# Key wrap

A key is a list of words. A pass takes a check word through them: each word is encrypted together with it,
and the pass's running number is added to the check word. Six passes wrap a key; undone in reverse they give
it back, and it is accepted if the check word has its initial value.
-/

set_option autoImplicit false

namespace Cose

namespace KeyWrap

def initialCheck : UInt64 := 0xa6a6a6a6a6a6a6a6

def pass (c : BlockCipher) (t check : UInt64) : List UInt64 → UInt64 × List UInt64
  | [] => (check, [])
  | r :: rs =>
    let b := c.encrypt ⟨check, r⟩
    let rest := pass c (t + 1) (b.hi ^^^ t) rs
    (rest.1, b.lo :: rest.2)

def invPass (c : BlockCipher) (t check : UInt64) : List UInt64 → UInt64 × List UInt64
  | [] => (check, [])
  | r :: rs =>
    let rest := invPass c (t + 1) check rs
    let b := c.decrypt ⟨rest.1 ^^^ t, r⟩
    (b.hi, b.lo :: rest.2)

def passes (c : BlockCipher) (n : UInt64) : Nat → UInt64 → UInt64 × List UInt64 → UInt64 × List UInt64
  | 0, _, s => s
  | count + 1, t, s => passes c n count (t + n) (pass c t s.1 s.2)

def invPasses (c : BlockCipher) (n : UInt64) : Nat → UInt64 → UInt64 × List UInt64 → UInt64 × List UInt64
  | 0, _, s => s
  | count + 1, t, s =>
    let later := invPasses c n count (t + n) s
    invPass c t later.1 later.2

def wordsOf (bs : Bytes) : List UInt64 := (Bytes.chunks 8 bs).map Block.wordOfBytes

def bytesOf (ws : List UInt64) : Bytes := ws.flatMap Block.wordBytes

def wrap (c : BlockCipher) (key : Bytes) : Bytes :=
  let ws := wordsOf key
  let (check, ws) := passes c (UInt64.ofNat ws.length) 6 1 (initialCheck, ws)
  bytesOf (check :: ws)

def unwrap? (c : BlockCipher) (wrapped : Bytes) : Option Bytes :=
  match wordsOf wrapped with
  | [] => none
  | check :: ws =>
    let (check, ws) := invPasses c (UInt64.ofNat ws.length) 6 1 (check, ws)
    if check = initialCheck then some (bytesOf ws) else none

end KeyWrap

end Cose
