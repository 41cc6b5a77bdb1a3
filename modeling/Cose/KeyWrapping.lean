import Cose.Cipher.Aes
import Cose.Cipher.KeyWrap
import Cose.Error

/-!
# Wrapping of content keys

Algorithms that end in a key wrap are told apart only by the length of the key that wraps. Direct algorithms
carry no wrapped key, for which the empty byte string stands.
-/

set_option autoImplicit false

namespace Cose

def Algorithm.kekLength? : Algorithm → Option Nat
  | a128kw | ecdhEsA128kw | ecdhSsA128kw => some 16
  | a192kw | ecdhEsA192kw | ecdhSsA192kw => some 24
  | a256kw | ecdhEsA256kw | ecdhSsA256kw => some 32
  | _ => none

namespace KeyWrapping

def checkKek (alg : Algorithm) (kek : Bytes) : Result Unit :=
  match alg.kekLength? with
  | none => .error (.unsupportedKeyWrap alg)
  | some n =>
    if kek.length = n then .ok () else .error (.invalidKeyParameter (.kekLength alg n kek.length))

def wrap (alg : Algorithm) (kek key : Bytes) : Result Bytes :=
  if alg.isDirect then .ok []
  else do
    checkKek alg kek
    if key.length < 16 ∨ key.length % 8 ≠ 0 then
      .error (.invalidKeyParameter (.plainKeyLength key.length))
    else .ok (KeyWrap.wrap (Aes.cipher kek) key)

def unwrap (alg : Algorithm) (kek wrapped : Bytes) : Result Bytes :=
  if alg.isDirect then .ok []
  else do
    checkKek alg kek
    if wrapped.length < 24 ∨ wrapped.length % 8 ≠ 0 then
      .error (.invalidKeyParameter (.wrappedKeyLength wrapped.length))
    else
      match KeyWrap.unwrap? (Aes.cipher kek) wrapped with
      | some key => .ok key
      | none => .error .authenticationFailed

end KeyWrapping

end Cose
