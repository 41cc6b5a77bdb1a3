import Cose.Authentication
import Cose.Proofs.Result

/-!
# Tags and their verification

A tag is the first bytes of a primitive's result, as many as the algorithm says, so an algorithm with short tags
gives the beginning of what its full-length relative gives. Which algorithms there are and which keys they take is
said here once more, apart from the table that names primitives, and decides when there is a tag.
Verification computes the tag again; nothing but that tag is accepted.
-/

set_option autoImplicit false

namespace Cose

open Result

namespace Algorithm

def IsHmac (alg : Algorithm) : Prop :=
  alg = .hmac256_64 ∨ alg = .hmac256_256 ∨ alg = .hmac384_384 ∨ alg = .hmac512_512

def cmacKeyLength? : Algorithm → Option Nat
  | aesMac128_64 | aesMac128_128 => some 16
  | aesMac256_64 | aesMac256_128 => some 32
  | _ => none

end Algorithm

namespace MacPrimitive

def size : MacPrimitive → Nat
  | cmacAes128 | cmacAes256 => 16
  | hmacSha256 => 32
  | hmacSha384 => 48
  | hmacSha512 => 64

def Takes : MacPrimitive → Bytes → Prop
  | cmacAes128, key => key.length = 16
  | cmacAes256, key => key.length = 32
  | _, _ => True

theorem length_cmac_tag (c : BlockCipher) (message : Bytes) : (Cmac.tag c message).length = 16 := rfl

theorem compute_of_takes {p : MacPrimitive} {key : Bytes} (takes : p.Takes key) (message : Bytes) :
    ∃ full, p.compute key message = .ok full ∧ full.length = p.size := by
  cases p with
  | cmacAes128 => exact ⟨_, if_pos takes, length_cmac_tag _ message⟩
  | cmacAes256 => exact ⟨_, if_pos takes, length_cmac_tag _ message⟩
  | hmacSha256 => exact ⟨_, rfl, Hash.length_hmac Hash.sha256 key message⟩
  | hmacSha384 => exact ⟨_, rfl, Hash.length_hmac Hash.sha384 key message⟩
  | hmacSha512 => exact ⟨_, rfl, Hash.length_hmac Hash.sha512 key message⟩

theorem compute_of_not_takes {p : MacPrimitive} {key : Bytes} (refuses : ¬ p.Takes key) (message : Bytes) :
    p.compute key message = .error (.invalidKeyParameter (.macKeyLength key.length)) := by
  cases p with
  | cmacAes128 => exact if_neg refuses
  | cmacAes256 => exact if_neg refuses
  | _ => exact absurd trivial refuses

end MacPrimitive

theorem MacParameters.tagLength_le_size {alg : Algorithm} {p : MacParameters} (listed : alg.mac? = some p) :
    p.tagLength ≤ p.primitive.size := by
  cases alg <;> simp only [Algorithm.mac?, Option.some.injEq, reduceCtorEq] at listed <;> subst listed <;> decide

namespace Authentication

/-- The algorithm is a MAC and takes the key. -/
def Takes (alg : Algorithm) (key : Bytes) : Prop := alg.IsHmac ∨ alg.cmacKeyLength? = some key.length

def Refuses (alg : Algorithm) (key : Bytes) : Prop := ∃ n, alg.cmacKeyLength? = some n ∧ key.length ≠ n

def Unlisted (alg : Algorithm) : Prop := ¬ alg.IsHmac ∧ alg.cmacKeyLength? = none

theorem takes_or_refuses_or_unlisted (alg : Algorithm) (key : Bytes) :
    Takes alg key ∨ Refuses alg key ∨ Unlisted alg := by
  by_cases hash : alg.IsHmac
  · exact Or.inl (Or.inl hash)
  cases needed : alg.cmacKeyLength? with
  | none => exact Or.inr (Or.inr ⟨hash, needed⟩)
  | some n =>
    by_cases same : key.length = n
    · exact Or.inl (Or.inr (by rw [needed, same]))
    · exact Or.inr (Or.inl ⟨n, needed, same⟩)

/-! What is said of the algorithms agrees with the table of the primitives. -/

theorem mac?_of_takes {alg : Algorithm} {key : Bytes} (takes : Takes alg key) :
    ∃ p, alg.mac? = some p ∧ p.primitive.Takes key := by
  rcases takes with hash | needed
  · rcases hash with rfl | rfl | rfl | rfl <;> exact ⟨_, rfl, trivial⟩
  · cases alg <;> simp only [Algorithm.cmacKeyLength?, Option.some.injEq, reduceCtorEq] at needed <;>
      exact ⟨_, rfl, needed.symm⟩

theorem mac?_of_refuses {alg : Algorithm} {key : Bytes} (refuses : Refuses alg key) :
    ∃ p, alg.mac? = some p ∧ ¬ p.primitive.Takes key := by
  obtain ⟨n, needed, other⟩ := refuses
  cases alg <;> simp only [Algorithm.cmacKeyLength?, Option.some.injEq, reduceCtorEq] at needed <;> subst needed <;>
    exact ⟨_, rfl, other⟩

theorem mac?_of_unlisted {alg : Algorithm} (unlisted : Unlisted alg) : alg.mac? = none := by
  cases alg <;> first | rfl | simp [Unlisted, Algorithm.IsHmac, Algorithm.cmacKeyLength?] at unlisted

variable {alg : Algorithm} {key message : Bytes}

theorem tag_of_takes (takes : Takes alg key) (message : Bytes) :
    ∃ p, alg.mac? = some p ∧ ∃ t, tag alg key message = .ok t ∧ t.length = p.tagLength := by
  obtain ⟨p, listed, taken⟩ := mac?_of_takes takes
  obtain ⟨full, computed, length⟩ := MacPrimitive.compute_of_takes taken message
  have enough := MacParameters.tagLength_le_size listed
  refine ⟨p, listed, full.take p.tagLength, ?_, ?_⟩
  · simp [tag, listed, computed]
  · rw [List.length_take]
    omega

theorem tag_of_refuses (refuses : Refuses alg key) (message : Bytes) :
    tag alg key message = .error (.invalidKeyParameter (.macKeyLength key.length)) := by
  obtain ⟨p, listed, refused⟩ := mac?_of_refuses refuses
  simp [tag, listed, MacPrimitive.compute_of_not_takes refused]

theorem tag_of_unlisted (unlisted : Unlisted alg) (key message : Bytes) :
    tag alg key message = .error (.unsupportedMac alg) := by
  simp [tag, mac?_of_unlisted unlisted]

theorem exists_tag_iff : (∃ t, tag alg key message = .ok t) ↔ Takes alg key := by
  constructor
  · rintro ⟨t, done⟩
    rcases takes_or_refuses_or_unlisted alg key with takes | refuses | unlisted
    · exact takes
    · simp [tag_of_refuses refuses] at done
    · simp [tag_of_unlisted unlisted] at done
  · intro takes
    obtain ⟨-, -, t, done, -⟩ := tag_of_takes takes message
    exact ⟨t, done⟩

theorem tag_eq_error_iff {e : Error} : tag alg key message = .error e ↔
    (Refuses alg key ∧ e = .invalidKeyParameter (.macKeyLength key.length)) ∨
    (Unlisted alg ∧ e = .unsupportedMac alg) := by
  constructor
  · intro failed
    rcases takes_or_refuses_or_unlisted alg key with takes | refuses | unlisted
    · obtain ⟨-, -, t, done, -⟩ := tag_of_takes takes message
      simp [done] at failed
    · rw [tag_of_refuses refuses] at failed
      exact Or.inl ⟨refuses, (Except.error.inj failed).symm⟩
    · rw [tag_of_unlisted unlisted] at failed
      exact Or.inr ⟨unlisted, (Except.error.inj failed).symm⟩
  · rintro (⟨refuses, rfl⟩ | ⟨unlisted, rfl⟩)
    · exact tag_of_refuses refuses message
    · exact tag_of_unlisted unlisted key message

theorem verify_of_ok {t : Bytes} (done : tag alg key message = .ok t) (given : Bytes) :
    verify alg key message given = if t = given then .ok () else .error .invalidTag := by
  rw [verify, done]
  rfl

theorem verify_of_error {e : Error} (failed : tag alg key message = .error e) (given : Bytes) :
    verify alg key message given = .error e := by
  rw [verify, failed]
  rfl

theorem verify_eq_ok_iff {given : Bytes} :
    verify alg key message given = .ok () ↔ tag alg key message = .ok given := by
  cases done : tag alg key message with
  | error e => simp [verify_of_error done]
  | ok t => by_cases same : t = given <;> simp [verify_of_ok done, same]

theorem verify_invalidTag_iff {given : Bytes} :
    verify alg key message given = .error .invalidTag ↔ ∃ t, tag alg key message = .ok t ∧ t ≠ given := by
  cases done : tag alg key message with
  | error e =>
    rw [verify_of_error done]
    rcases tag_eq_error_iff.mp done with ⟨-, rfl⟩ | ⟨-, rfl⟩ <;> simp
  | ok t => by_cases same : t = given <;> simp [verify_of_ok done, same]

/-- Two algorithms with one primitive differ in how much they keep of its result. -/
theorem tag_of_shorter {short full : Algorithm} {primitive : MacPrimitive} {m n : Nat}
    (listed_short : short.mac? = some ⟨primitive, m⟩) (listed_full : full.mac? = some ⟨primitive, n⟩) (h : m ≤ n)
    (key message : Bytes) : tag short key message = (tag full key message).map (List.take m) := by
  rw [tag, tag, listed_short, listed_full]
  cases done : primitive.compute key message with
  | error e => simp [done, Except.map]
  | ok t => simp [done, Except.map, List.take_take, Nat.min_eq_left h]

/-- A tag is computed exactly for a keyed hash, or for a block cipher MAC with a key of its cipher's length; another
key is an invalid parameter and another algorithm is not supported. A tag is as long as the algorithm says, the
algorithms with short tags give the first eight bytes of the tags of their full-length relatives, and whatever is
given for verification is accepted if it is the tag and refused as an invalid one if there is a tag and it is
another. -/
theorem tag_verified_exactly (alg : Algorithm) (key message : Bytes) :
    ((∃ t, tag alg key message = .ok t) ↔ alg.IsHmac ∨ alg.cmacKeyLength? = some key.length) ∧
    (∀ e, tag alg key message = .error e ↔
      ((∃ n, alg.cmacKeyLength? = some n ∧ key.length ≠ n) ∧
        e = .invalidKeyParameter (.macKeyLength key.length)) ∨
      ((¬ alg.IsHmac ∧ alg.cmacKeyLength? = none) ∧ e = .unsupportedMac alg)) ∧
    (∀ t, tag alg key message = .ok t → ∃ p, alg.mac? = some p ∧ t.length = p.tagLength) ∧
    (∀ given, verify alg key message given = .ok () ↔ tag alg key message = .ok given) ∧
    (∀ given, verify alg key message given = .error .invalidTag ↔
      ∃ t, tag alg key message = .ok t ∧ t ≠ given) ∧
    (∀ given e, tag alg key message = .error e → verify alg key message given = .error e) ∧
    tag .hmac256_64 key message = (tag .hmac256_256 key message).map (List.take 8) ∧
    tag .aesMac128_64 key message = (tag .aesMac128_128 key message).map (List.take 8) ∧
    tag .aesMac256_64 key message = (tag .aesMac256_128 key message).map (List.take 8) := by
  refine ⟨exists_tag_iff, fun e => tag_eq_error_iff, ?_, fun given => verify_eq_ok_iff,
    fun given => verify_invalidTag_iff, fun given e failed => verify_of_error failed given, ?_, ?_, ?_⟩
  · intro t done
    obtain ⟨p, listed, full, computed, length⟩ := tag_of_takes (exists_tag_iff.mp ⟨t, done⟩) message
    obtain rfl : full = t := Except.ok.inj (computed.symm.trans done)
    exact ⟨p, listed, length⟩
  · exact tag_of_shorter rfl rfl (by decide) key message
  · exact tag_of_shorter rfl rfl (by decide) key message
  · exact tag_of_shorter rfl rfl (by decide) key message

theorem tag_verified_exactly_aesMac :
    ∃ t, tag .aesMac256_64 (Bytes.zeros 32) [1, 2, 3] = .ok t ∧ t.length = 8 ∧
      verify .aesMac256_64 (Bytes.zeros 32) [1, 2, 3] t = .ok () ∧
      verify .aesMac256_64 (Bytes.zeros 32) [1, 2, 3] (t.take 7) = .error .invalidTag ∧
      verify .aesMac256_64 (Bytes.zeros 32) [1, 2, 3] (t ++ [0]) = .error .invalidTag ∧
      verify .aesMac256_64 (Bytes.zeros 31) [1, 2, 3] t = .error (.invalidKeyParameter (.macKeyLength 31)) := by
  obtain ⟨succeeds, -, sized, accepted, refused, -⟩ :=
    tag_verified_exactly .aesMac256_64 (Bytes.zeros 32) [1, 2, 3]
  obtain ⟨-, fails, -, -, -, passed_on, -⟩ := tag_verified_exactly .aesMac256_64 (Bytes.zeros 31) [1, 2, 3]
  obtain ⟨t, done⟩ := succeeds.mpr (Or.inr rfl)
  obtain ⟨p, listed, length⟩ := sized t done
  obtain rfl : ⟨.cmacAes256, 8⟩ = p := Option.some.inj listed
  have length : t.length = 8 := length
  refine ⟨t, done, length, (accepted t).mpr done, (refused _).mpr ⟨t, done, ?_⟩,
    (refused _).mpr ⟨t, done, ?_⟩, ?_⟩
  · intro same
    have := congrArg List.length same
    rw [List.length_take, length] at this
    omega
  · intro same
    have := congrArg List.length same
    rw [List.length_append, List.length_singleton] at this
    omega
  · exact passed_on t _ ((fails _).mpr (Or.inl ⟨⟨32, rfl, by decide⟩, rfl⟩))

example : tag .hmac256_64 [0x4a, 0x65, 0x66, 0x65] (Bytes.ofText "what do ya want for nothing?") =
    .ok [0x5b, 0xdc, 0xc1, 0x46, 0xbf, 0x60, 0x75, 0x4e] := by decide +kernel

end Authentication

end Cose
