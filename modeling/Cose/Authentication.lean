import Cose.Cipher.Aes
import Cose.Cipher.Cmac
import Cose.Hash.Hmac
import Cose.Error

/-!
# Message authentication

Each MAC algorithm fixes a primitive and how many bytes of its result are the tag. Keyed hashes take keys of
any length, block cipher MACs only keys of the cipher's length.
-/

set_option autoImplicit false

namespace Cose

inductive MacPrimitive where
  | cmacAes128 | cmacAes256 | hmacSha256 | hmacSha384 | hmacSha512
  deriving DecidableEq, Repr

structure MacParameters where
  primitive : MacPrimitive
  tagLength : Nat
  deriving DecidableEq, Repr

def Algorithm.mac? : Algorithm → Option MacParameters
  | aesMac128_64 => some ⟨.cmacAes128, 8⟩
  | aesMac256_64 => some ⟨.cmacAes256, 8⟩
  | aesMac128_128 => some ⟨.cmacAes128, 16⟩
  | aesMac256_128 => some ⟨.cmacAes256, 16⟩
  | hmac256_64 => some ⟨.hmacSha256, 8⟩
  | hmac256_256 => some ⟨.hmacSha256, 32⟩
  | hmac384_384 => some ⟨.hmacSha384, 48⟩
  | hmac512_512 => some ⟨.hmacSha512, 64⟩
  | _ => none

namespace MacPrimitive

def cmac (keyLength : Nat) (key message : Bytes) : Result Bytes :=
  if key.length = keyLength then .ok (Cmac.tag (Aes.cipher key) message)
  else .error (.invalidKeyParameter (.macKeyLength key.length))

def compute : MacPrimitive → Bytes → Bytes → Result Bytes
  | cmacAes128, key, message => cmac 16 key message
  | cmacAes256, key, message => cmac 32 key message
  | hmacSha256, key, message => .ok (Hash.sha256.hmac key message)
  | hmacSha384, key, message => .ok (Hash.sha384.hmac key message)
  | hmacSha512, key, message => .ok (Hash.sha512.hmac key message)

end MacPrimitive

namespace Authentication

def tag (alg : Algorithm) (key message : Bytes) : Result Bytes :=
  match alg.mac? with
  | none => .error (.unsupportedMac alg)
  | some p => do
    let full ← p.primitive.compute key message
    .ok (full.take p.tagLength)

def verify (alg : Algorithm) (key message given : Bytes) : Result Unit := do
  let expected ← tag alg key message
  if expected = given then .ok () else .error .invalidTag

end Authentication

end Cose
