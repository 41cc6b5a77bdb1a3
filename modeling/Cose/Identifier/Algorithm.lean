import Cose.Identifier.EllipticCurve

/-!
# Algorithms

The registered algorithms with their numbers and names. Which of them encrypt, authenticate, wrap or sign,
and with which parameters, is stated beside the operation; here stands only what the number alone fixes.
-/

set_option autoImplicit false

namespace Cose

inductive Algorithm where
  | a128gcm | a192gcm | a256gcm
  | hmac256_64 | hmac256_256 | hmac384_384 | hmac512_512
  | aesCcm16_64_128 | aesCcm16_64_256 | aesCcm64_64_128 | aesCcm64_64_256
  | aesMac128_64 | aesMac256_64 | aesMac128_128 | aesMac256_128
  | aesCcm16_128_128 | aesCcm16_128_256 | aesCcm64_128_128 | aesCcm64_128_256
  | a128kw | a192kw | a256kw
  | direct
  | es256 | edDsa
  | directHkdfSha256 | directHkdfSha512 | directHkdfAes128 | directHkdfAes256
  | ecdhEsHkdf256 | ecdhEsHkdf512 | ecdhSsHkdf256 | ecdhSsHkdf512
  | ecdhEsA128kw | ecdhEsA192kw | ecdhEsA256kw
  | ecdhSsA128kw | ecdhSsA192kw | ecdhSsA256kw
  | es384 | es512
  deriving DecidableEq, Repr

namespace Algorithm

def id : Algorithm → Int64
  | a128gcm => 1
  | a192gcm => 2
  | a256gcm => 3
  | hmac256_64 => 4
  | hmac256_256 => 5
  | hmac384_384 => 6
  | hmac512_512 => 7
  | aesCcm16_64_128 => 10
  | aesCcm16_64_256 => 11
  | aesCcm64_64_128 => 12
  | aesCcm64_64_256 => 13
  | aesMac128_64 => 14
  | aesMac256_64 => 15
  | aesMac128_128 => 25
  | aesMac256_128 => 26
  | aesCcm16_128_128 => 30
  | aesCcm16_128_256 => 31
  | aesCcm64_128_128 => 32
  | aesCcm64_128_256 => 33
  | a128kw => -3
  | a192kw => -4
  | a256kw => -5
  | direct => -6
  | es256 => -7
  | edDsa => -8
  | directHkdfSha256 => -10
  | directHkdfSha512 => -11
  | directHkdfAes128 => -12
  | directHkdfAes256 => -13
  | ecdhEsHkdf256 => -25
  | ecdhEsHkdf512 => -26
  | ecdhSsHkdf256 => -27
  | ecdhSsHkdf512 => -28
  | ecdhEsA128kw => -29
  | ecdhEsA192kw => -30
  | ecdhEsA256kw => -31
  | ecdhSsA128kw => -32
  | ecdhSsA192kw => -33
  | ecdhSsA256kw => -34
  | es384 => -35
  | es512 => -36

def name : Algorithm → String
  | a128gcm => "A128GCM"
  | a192gcm => "A192GCM"
  | a256gcm => "A256GCM"
  | hmac256_64 => "HMAC 256/64"
  | hmac256_256 => "HMAC 256/256"
  | hmac384_384 => "HMAC 384/384"
  | hmac512_512 => "HMAC 512/512"
  | aesCcm16_64_128 => "AES-CCM-16-64-128"
  | aesCcm16_64_256 => "AES-CCM-16-64-256"
  | aesCcm64_64_128 => "AES-CCM-64-64-128"
  | aesCcm64_64_256 => "AES-CCM-64-64-256"
  | aesMac128_64 => "AES-MAC 128/64"
  | aesMac256_64 => "AES-MAC 256/64"
  | aesMac128_128 => "AES-MAC 128/128"
  | aesMac256_128 => "AES-MAC 256/128"
  | aesCcm16_128_128 => "AES-CCM-16-128-128"
  | aesCcm16_128_256 => "AES-CCM-16-128-256"
  | aesCcm64_128_128 => "AES-CCM-64-128-128"
  | aesCcm64_128_256 => "AES-CCM-64-128-256"
  | a128kw => "A128KW"
  | a192kw => "A192KW"
  | a256kw => "A256KW"
  | direct => "direct"
  | es256 => "ES256"
  | edDsa => "EdDSA"
  | directHkdfSha256 => "direct+HKDF-SHA-256"
  | directHkdfSha512 => "direct+HKDF-SHA-512"
  | directHkdfAes128 => "direct+HKDF-AES-128"
  | directHkdfAes256 => "direct+HKDF-AES-256"
  | ecdhEsHkdf256 => "ECDH-ES + HKDF-256"
  | ecdhEsHkdf512 => "ECDH-ES + HKDF-512"
  | ecdhSsHkdf256 => "ECDH-SS + HKDF-256"
  | ecdhSsHkdf512 => "ECDH-SS + HKDF-512"
  | ecdhEsA128kw => "ECDH-ES + A128KW"
  | ecdhEsA192kw => "ECDH-ES + A192KW"
  | ecdhEsA256kw => "ECDH-ES + A256KW"
  | ecdhSsA128kw => "ECDH-SS + A128KW"
  | ecdhSsA192kw => "ECDH-SS + A192KW"
  | ecdhSsA256kw => "ECDH-SS + A256KW"
  | es384 => "ES384"
  | es512 => "ES512"

def all : List Algorithm :=
  [a128gcm, a192gcm, a256gcm, hmac256_64, hmac256_256, hmac384_384, hmac512_512,
   aesCcm16_64_128, aesCcm16_64_256, aesCcm64_64_128, aesCcm64_64_256,
   aesMac128_64, aesMac256_64, aesMac128_128, aesMac256_128,
   aesCcm16_128_128, aesCcm16_128_256, aesCcm64_128_128, aesCcm64_128_256,
   a128kw, a192kw, a256kw, direct, es256, edDsa,
   directHkdfSha256, directHkdfSha512, directHkdfAes128, directHkdfAes256,
   ecdhEsHkdf256, ecdhEsHkdf512, ecdhSsHkdf256, ecdhSsHkdf512,
   ecdhEsA128kw, ecdhEsA192kw, ecdhEsA256kw, ecdhSsA128kw, ecdhSsA192kw, ecdhSsA256kw,
   es384, es512]

theorem mem_all (a : Algorithm) : a ∈ all := by cases a <;> decide

def ofId? (id : Int64) : Option Algorithm := all.find? (·.id == id)

theorem ofId?_id (a : Algorithm) : ofId? a.id = some a := by cases a <;> decide

theorem ofId?_eq_some_iff (n : Int64) (a : Algorithm) : ofId? n = some a ↔ n = a.id := by
  constructor
  · intro found
    have same := List.find?_some found
    exact (beq_iff_eq.mp same).symm
  · rintro rfl
    exact ofId?_id a

instance : ToString Algorithm := ⟨name⟩

instance : Ord Algorithm := ⟨fun a b => compare a.id b.id⟩

def sort (as : List Algorithm) : List Algorithm := as.mergeSort (fun a b => (compare a b).isLE)

/-- A recipient of a direct algorithm carries no wrapped key: the content key is the shared secret or is
derived from it. -/
def isDirect : Algorithm → Bool
  | direct
  | directHkdfSha256 | directHkdfSha512 | directHkdfAes128 | directHkdfAes256
  | ecdhEsHkdf256 | ecdhEsHkdf512 | ecdhSsHkdf256 | ecdhSsHkdf512 => true
  | _ => false

def nonceLength? : Algorithm → Option Nat
  | a128gcm | a192gcm | a256gcm => some 12
  | aesCcm16_64_128 | aesCcm16_64_256 | aesCcm16_128_128 | aesCcm16_128_256 => some 13
  | aesCcm64_64_128 | aesCcm64_64_256 | aesCcm64_128_128 | aesCcm64_128_256 => some 7
  | _ => none

/-- The curve of a signature algorithm that is bound to exactly one. EdDSA is not. -/
def signatureCurve? : Algorithm → Option EllipticCurve
  | es256 => some .p256
  | es384 => some .p384
  | es512 => some .p521
  | _ => none

def isSignature : Algorithm → Bool
  | es256 | es384 | es512 | edDsa => true
  | _ => false

end Algorithm

end Cose
