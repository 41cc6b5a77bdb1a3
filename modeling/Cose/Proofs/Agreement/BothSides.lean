import Cose.Proofs.Agreement
import Cose.Proofs.Key.Coordinates

/-!
# Both sides of an agreement

Each side has its own private key and the public key of the other side. If it does not matter in which order the
base point of the curve is multiplied by the two private keys, both sides make the same secret and derive the
same from it, or are refused for the same reason. Resolving the keys first does not change that, and it completes
public keys that leave their curve open.
-/

set_option autoImplicit false

namespace Cose

open Result

namespace Montgomery

def basePoint : Bytes := 9 :: Bytes.zeros 31

theorem length_multiply (secret point : Bytes) : (multiply secret point).length = 32 := by
  simp [multiply, Bytes.ofNatLE]

end Montgomery

theorem Suite.standard_x25519 : Suite.standard.x25519 = Montgomery.multiply := by
  simp only [Suite.standard]

def EllipticCurve.secretLength? : EllipticCurve → Option Nat
  | .p256 => some 32
  | .p384 => some 48
  | .p521 => some 66
  | .x25519 => some 32
  | _ => none

/-- The public points of two private keys, each multiplied by the other private key, are the same point. -/
structure Suite.Commutes (s : Suite) (crv : EllipticCurve) (d e : Bytes) : Prop where
  group : ∀ g h m n, s.group? crv = some (g, h) → g.scalar? d = some m → g.scalar? e = some n →
    g.mul m (g.publicKey n) = g.mul n (g.publicKey m)
  x25519 : crv = .x25519 → s.x25519 d (s.x25519 e Montgomery.basePoint) =
    s.x25519 e (s.x25519 d Montgomery.basePoint)

/-- What two private keys on a curve lead to is enough for a derived key of this length. On X25519 the common
multiple may be zero, which is no secret. -/
structure Suite.Yields (s : Suite) (crv : EllipticCurve) (d e : Bytes) (length : Nat) : Prop where
  length : length ≤ 255 * 32
  contributory : crv = .x25519 → (s.x25519 d (s.x25519 e Montgomery.basePoint)).all (· == 0) = false

namespace Key

/-- The first key holds the private key `d` of the curve, the second one the public key that belongs to it. -/
inductive IsPair (s : Suite) : EllipticCurve → Bytes → Key → Key → Prop
  | group {crv : EllipticCurve} {g : Group} {h : Hash} {d : Bytes} {m : Nat} {k : Ec2} {key pub : Key}
      (group : s.group? crv = some (g, h)) (material : key.material = .ec2 k) (part : k.d = some d)
      (valid : g.scalar? d = some m) (point : pub.HasPoint g (g.publicKey m)) : IsPair s crv d key pub
  | x25519 {d : Bytes} {k p : Okp} {key pub : Key} (material : key.material = .okp k) (part : k.d = some d)
      (valid : d.length = 32) (public_material : pub.material = .okp p)
      (public_part : p.x = some (s.x25519 d Montgomery.basePoint))
      (public_valid : (s.x25519 d Montgomery.basePoint).length = 32) : IsPair s .x25519 d key pub

structure Unbound (key : Key) : Prop where
  alg : key.alg = none
  keyOps : key.keyOps = none

/-! Which curve a public key names makes no difference to what it holds. -/

theorem HasPoint.of_sameParts {a b : Key} {g : Group} {q : Point} (h : a.HasPoint g q)
    (parts : a.material.SameParts b.material) : b.HasPoint g q := by
  obtain ⟨am, aa⟩ := a
  obtain ⟨bm, ba⟩ := b
  obtain ⟨x, y, ⟨k, material, hx, hy⟩, read⟩ := h
  obtain rfl : am = .ec2 k := material
  cases parts with
  | same => exact ⟨x, y, ⟨_, rfl, hx, hy⟩, read⟩
  | ec2 _ crv => exact ⟨x, y, ⟨_, rfl, hx, hy⟩, read⟩

theorem IsPair.of_sameParts {s : Suite} {crv : EllipticCurve} {d : Bytes} {key pub other : Key}
    (pair : IsPair s crv d key pub) (parts : pub.material.SameParts other.material) :
    IsPair s crv d key other := by
  cases pair with
  | group group material part valid point =>
    exact .group group material part valid (point.of_sameParts parts)
  | x25519 material part valid public_material public_part public_valid =>
    obtain ⟨pm, pa⟩ := pub
    obtain ⟨om, oa⟩ := other
    obtain rfl : pm = _ := public_material
    cases parts with
    | same => exact .x25519 material part valid rfl public_part public_valid
    | okp _ crv => exact .x25519 material part valid rfl public_part public_valid

theorem sameParts_completedBy (peer key : Key) :
    peer.material.SameParts (peer.completedBy key).material := by
  rw [completedBy]
  split_ifs
  · cases key.curve with
    | none => exact .same _
    | some crv => exact peer.material.sameParts_onCurve crv
  · exact .same _

theorem IsPair.kind {s : Suite} {crv : EllipticCurve} {d : Bytes} {key pub : Key}
    (pair : IsPair s crv d key pub) : pub.keyType = key.keyType ∧ pub.hasCurve = true := by
  cases pair with
  | group group material part valid point =>
    obtain ⟨x, y, ⟨p, public_material, -, -⟩, -⟩ := point
    simp [keyType, hasCurve, material, public_material]
  | x25519 material part valid public_material public_part public_valid =>
    simp [keyType, hasCurve, material, public_material]

theorem IsPair.curve_completedBy {s : Suite} {crv : EllipticCurve} {d : Bytes} {key pub other : Key}
    (pair : IsPair s crv d key pub) (held : key.curve = some crv) (other_held : other.curve = some crv)
    (left : pub.curve = none ∨ pub.curve = some crv) : (pub.completedBy other).curve = some crv := by
  obtain ⟨same, on_curve⟩ := pair.kind
  have family : crv.keyType? = some pub.keyType := by
    rw [same]
    exact keyType?_of_curve held
  have other_type : pub.keyType = other.keyType :=
    Option.some.inj (family.symm.trans (keyType?_of_curve other_held))
  rcases left with unset | set
  · rw [completedBy, if_pos ⟨unset, other_type⟩, other_held]
    exact curve_onCurve on_curve family
  · have not_completed : ¬ (pub.curve = none ∧ pub.keyType = other.keyType) := by simp [set]
    rw [completedBy, if_neg not_completed, set]

end Key

namespace Agreement

theorem groupSecret_of_parts {g : Group} {key peer : Key} {k : Key.Ec2} {d : Bytes} {m : Nat} {q : Point}
    (crv : EllipticCurve) (material : key.material = .ec2 k) (part : k.d = some d)
    (valid : g.scalar? d = some m) (point : peer.HasPoint g q) :
    groupSecret g crv key peer = .ok (g.shared m q) := by
  obtain ⟨x, y, ⟨p, theirs, hx, hy⟩, read⟩ := point
  have written := (p.pointBytes_eq_ok_iff _).mpr ⟨x, y, hx, hy, rfl⟩
  simp [groupSecret, Key.requireEc2, Key.requirePart, material, part, theirs, written, valid, read]

theorem octetSecret_of_parts {key peer : Key} {k p : Key.Okp} {d x : Bytes} (multiply : Bytes → Bytes → Bytes)
    (material : key.material = .okp k) (part : k.d = some d) (valid : d.length = 32)
    (theirs : peer.material = .okp p) (held : p.x = some x) (public_valid : x.length = 32) :
    octetSecret multiply key peer = if (multiply d x).all (· == 0) then .error (.keyAgreementFailed .lowOrder)
      else .ok (multiply d x) := by
  simp [octetSecret, Key.requireOkp, Key.requirePart, Key.requireLength, material, part, valid, theirs, held,
    public_valid]

section

variable {s : Suite} {crv : EllipticCurve} {d e : Bytes} {a b p q : Key}

theorem secret_of_pairs (ours : Key.IsPair s crv d a p) (theirs : Key.IsPair s crv e b q) :
    (∃ g h m n, s.group? crv = some (g, h) ∧ g.scalar? d = some m ∧ g.scalar? e = some n ∧
      secret s crv a q = .ok (g.shared m (g.publicKey n))) ∨
    (crv = .x25519 ∧ secret s crv a q =
      if (s.x25519 d (s.x25519 e Montgomery.basePoint)).all (· == 0) then .error (.keyAgreementFailed .lowOrder)
      else .ok (s.x25519 d (s.x25519 e Montgomery.basePoint))) := by
  cases ours with
  | @group _ g h _ m _ _ _ group material part valid point =>
    cases theirs with
    | @group _ g' h' _ n _ _ _ group' material' part' valid' point' =>
      obtain ⟨rfl, rfl⟩ : g = g' ∧ h = h' := by simpa using group.symm.trans group'
      refine Or.inl ⟨g, h, m, n, group, valid, valid', ?_⟩
      rw [secret, group]
      exact groupSecret_of_parts crv material part valid point'
    | x25519 => simp [Suite.group?] at group
  | x25519 material part valid public_material public_part public_valid =>
    cases theirs with
    | group group' => simp [Suite.group?] at group'
    | x25519 material' part' valid' public_material' public_part' public_valid' =>
      refine Or.inr ⟨rfl, ?_⟩
      exact octetSecret_of_parts s.x25519 material part valid public_material' public_part' public_valid'

theorem secret_comm (ours : Key.IsPair s crv d a p) (theirs : Key.IsPair s crv e b q)
    (commutes : s.Commutes crv d e) : secret s crv a q = secret s crv b p := by
  rcases secret_of_pairs ours theirs with ⟨g, h, m, n, group, valid, valid', left⟩ | ⟨x25519, left⟩
  · rcases secret_of_pairs theirs ours with ⟨g', h', n', m', group', read', read, right⟩ | ⟨rfl, -⟩
    · obtain ⟨rfl, rfl⟩ : g = g' ∧ h = h' := by simpa using group.symm.trans group'
      obtain rfl := Option.some.inj (valid.symm.trans read)
      obtain rfl := Option.some.inj (valid'.symm.trans read')
      rw [left, right, Group.shared, Group.shared, commutes.group g h m n group valid valid']
    · simp [Suite.group?] at group
  · rcases secret_of_pairs theirs ours with ⟨g', h', n', m', group', -⟩ | ⟨-, right⟩
    · subst x25519
      simp [Suite.group?] at group'
    · rw [left, right, commutes.x25519 x25519]

theorem exists_secret_iff (ours : Key.IsPair s crv d a p) (theirs : Key.IsPair s crv e b q) :
    (∃ shared, secret s crv a q = .ok shared) ↔
      (crv = .x25519 → (s.x25519 d (s.x25519 e Montgomery.basePoint)).all (· == 0) = false) := by
  rcases secret_of_pairs ours theirs with ⟨g, h, m, n, group, -, -, made⟩ | ⟨rfl, made⟩
  · have other : crv ≠ .x25519 := by
      rintro rfl
      simp [Suite.group?] at group
    simp [made, other]
  · rw [made]
    cases (s.x25519 d (s.x25519 e Montgomery.basePoint)).all (· == 0) <;> simp

/-- Two pairs on one curve agree exactly if they yield a secret, and a key of this length can be derived. -/
theorem exists_agree_iff (ours : Key.IsPair s crv d a p) (theirs : Key.IsPair s crv e b q)
    (held : a.curve = some crv) (public_held : q.curve = some crv) (length : Nat) (context : Bytes) :
    (∃ o, agree s a q length context = .ok o) ↔ s.Yields crv d e length := by
  simp only [agree_on_curve s held public_held, bind_eq_ok_iff, map_eq_ok_iff]
  constructor
  · rintro ⟨_, shared, made, okm, derived, -⟩
    exact ⟨(exists_derive_iff shared context length).mp ⟨okm, derived⟩,
      (exists_secret_iff ours theirs).mp ⟨shared, made⟩⟩
  · rintro ⟨bounded, contributory⟩
    obtain ⟨shared, made⟩ := (exists_secret_iff ours theirs).mpr contributory
    obtain ⟨okm, derived⟩ := (exists_derive_iff shared context length).mpr bounded
    exact ⟨_, shared, made, okm, derived, rfl⟩

theorem agree_comm (ours : Key.IsPair s crv d a p) (theirs : Key.IsPair s crv e b q)
    (commutes : s.Commutes crv d e) (held : a.curve = some crv) (held' : b.curve = some crv)
    (public_held : p.curve = some crv) (public_held' : q.curve = some crv) (length : Nat) (context : Bytes) :
    agree s a q length context = agree s b p length context := by
  rw [agree_on_curve s held public_held', agree_on_curve s held' public_held, secret_comm ours theirs commutes]

end

theorem length_shared (g : Group) (d : Nat) (q : Point) : (g.shared d q).length = g.size := by
  rw [Group.shared]
  split <;> simp

theorem length_secret {crv : EllipticCurve} {key peer : Key} {shared : Bytes}
    (made : secret .standard crv key peer = .ok shared) : crv.secretLength? = some shared.length := by
  rw [secret] at made
  split at made
  · next g h group =>
    obtain ⟨d, q, -, rfl⟩ := groupSecret_hasPoint made
    rw [length_shared]
    cases crv <;> cases group <;> rfl
  · split_ifs at made with x25519
    subst x25519
    obtain ⟨ours, -, made⟩ := bind_eq_ok_iff.mp made
    obtain ⟨d, -, made⟩ := bind_eq_ok_iff.mp made
    obtain ⟨theirs, -, made⟩ := bind_eq_ok_iff.mp made
    obtain ⟨x, -, made⟩ := bind_eq_ok_iff.mp made
    obtain ⟨d', -, made⟩ := bind_eq_ok_iff.mp made
    obtain ⟨x', -, made⟩ := bind_eq_ok_iff.mp made
    dsimp only at made
    split_ifs at made
    obtain rfl := Except.ok.inj made
    rw [Suite.standard_x25519, Montgomery.length_multiply]
    rfl

end Agreement

namespace Key

theorem deriveShared_of_unbound (s : Suite) {key peer : Key} {crv : EllipticCurve} (held : key.curve = some crv)
    (completed : (peer.completedBy key).curve = some crv) (free : key.Unbound) (peer_free : peer.Unbound)
    (alg : Algorithm) (length : Nat) (context : Bytes) :
    key.deriveShared s peer (some alg) length context =
      Agreement.agree s key (peer.completedBy key) length context := by
  have settles : key.Settles (some alg) alg := ⟨rfl, by simp [Compatible, free.alg]⟩
  obtain ⟨algorithm, keyOps⟩ := (deriveShared_coherent_iff key peer (some alg)).mpr
    ⟨alg, ⟨settles, Or.inl free.keyOps⟩, Or.inl peer_free.alg, Or.inl peer_free.keyOps⟩
  have coherent : Resolution.Coherent key (some peer) ⟨some alg, some .deriveKey, none⟩ :=
    ⟨algorithm, fun _ => Resolution.curveCoherent_of_completed held completed rfl, keyOps⟩
  have named : key.alg.or (some alg) = some alg := by rw [free.alg, Option.none_or]
  have resolved := (Resolution.resolve_eq_ok_iff _).mpr ⟨coherent, alg, named, rfl⟩
  rw [deriveShared, resolved, ok_bind]
  exact Resolution.agree_filled s coherent rfl alg _ length context

theorem deriveShared_unnamed (s : Suite) {key : Key} (free : key.Unbound) (peer : Key) (length : Nat)
    (context : Bytes) :
    key.deriveShared s peer none length context = .error (.missingKeyParameter (.field .algorithm)) := by
  have refused : key.resolve (some peer) ⟨none, some .deriveKey, none⟩ =
      .error (.missingKeyParameter (.field .algorithm)) :=
    Resolution.resolve_of_refusal (.algorithmMissing free.alg rfl)
  rw [deriveShared, refused, error_bind]

end Key

namespace Agreement

/-- Let two private keys be on one curve, on which their public points have one common multiple. Then each with
the public key of the other gives the same result for every length and context: the same secret, of the length
that goes with the curve, and the same derived key, or on X25519 the refusal of a secret that is zero, or that
of a length of more than 255 blocks. If none of the four keys is bound to an algorithm or an operation, the same
holds for agreement under any algorithm, and the public keys may leave their curve open. -/
theorem both_sides_agree {s : Suite} {crv : EllipticCurve} {d e : Bytes} {a b p q : Key}
    (ours : Key.IsPair s crv d a p) (theirs : Key.IsPair s crv e b q) (commutes : s.Commutes crv d e)
    (held : a.curve = some crv) (held' : b.curve = some crv) :
    (p.curve = some crv → q.curve = some crv → ∀ length context,
      agree s a q length context = agree s b p length context ∧
      ((∃ o, agree s a q length context = .ok o) ↔ s.Yields crv d e length) ∧
      ∀ o, s = .standard → agree s a q length context = .ok o → crv.secretLength? = some o.shared.length) ∧
    (a.Unbound → b.Unbound → p.Unbound → q.Unbound → (p.curve = none ∨ p.curve = some crv) →
      (q.curve = none ∨ q.curve = some crv) → ∀ asked length context,
      a.deriveShared s q asked length context = b.deriveShared s p asked length context ∧
      ((∃ o, a.deriveShared s q asked length context = .ok o) ↔
        asked.isSome = true ∧ s.Yields crv d e length)) := by
  constructor
  · intro public_held public_held' length context
    refine ⟨?_, ?_, ?_⟩
    · exact agree_comm ours theirs commutes held held' public_held public_held' length context
    · exact exists_agree_iff ours theirs held public_held' length context
    · rintro o rfl agreed
      exact length_secret (secret_of_agree agreed public_held')
  · intro free free' public_free public_free' left left' asked length context
    cases asked with
    | none =>
      rw [Key.deriveShared_unnamed s free q, Key.deriveShared_unnamed s free' p]
      simp
    | some alg =>
      have completed := ours.of_sameParts (p.sameParts_completedBy b)
      have completed' := theirs.of_sameParts (q.sameParts_completedBy a)
      have public_held := ours.curve_completedBy held held' left
      have public_held' := theirs.curve_completedBy held' held left'
      rw [Key.deriveShared_of_unbound s held public_held' free public_free',
        Key.deriveShared_of_unbound s held' public_held free' public_free,
        exists_agree_iff completed completed' held public_held']
      refine ⟨?_, by simp⟩
      exact agree_comm completed completed' commutes held held' public_held public_held' length context

def p256Private (d : Nat) : Key :=
  (Key.bare (.ec2 ⟨none, none, none, some (Bytes.ofNat 32 d), Or.inr rfl⟩)).onCurve .p256

def openPublic (x y : Nat) : Key :=
  .bare (.ec2 ⟨none, some (Bytes.ofNat 32 x), some (Bytes.ofNat 32 y), none, Or.inl ⟨rfl, rfl⟩⟩)

def basePublic : Key := openPublic Weierstrass.p256.baseX Weierstrass.p256.baseY

def doublePublic : Key :=
  openPublic 0x7cf27b188d034f7e8a52380304b51ac3c08969e277f21b35a60b48fc47669978
    0x07775510db8ed040293d9ac69f7430dbba7dade63ce982299e04b79d227873d1

theorem basePublic_isPair : Key.IsPair .standard .p256 (Bytes.ofNat 32 1) (p256Private 1) basePublic :=
  .group rfl rfl rfl (m := 1) (by decide +kernel) ⟨_, _, ⟨_, rfl, rfl, rfl⟩, by decide +kernel⟩

theorem doublePublic_isPair : Key.IsPair .standard .p256 (Bytes.ofNat 32 2) (p256Private 2) doublePublic :=
  .group rfl rfl rfl (m := 2) (by decide +kernel) ⟨_, _, ⟨_, rfl, rfl, rfl⟩, by decide +kernel⟩

theorem p256_commutes : Suite.standard.Commutes .p256 (Bytes.ofNat 32 1) (Bytes.ofNat 32 2) where
  group := by
    rintro g h m n ⟨⟩ valid valid'
    have one : Suite.standard.p256.scalar? (Bytes.ofNat 32 1) = some 1 := by decide +kernel
    have two : Suite.standard.p256.scalar? (Bytes.ofNat 32 2) = some 2 := by decide +kernel
    obtain rfl := Option.some.inj (one.symm.trans valid)
    obtain rfl := Option.some.inj (two.symm.trans valid')
    decide +kernel
  x25519 := by simp

theorem both_sides_agree_p256 :
    (∃ o, agree .standard (p256Private 1) (doublePublic.onCurve .p256) 16 [] = .ok o ∧
      agree .standard (p256Private 2) (basePublic.onCurve .p256) 16 [] = .ok o ∧ o.shared.length = 32) ∧
    ∃ o, (p256Private 1).deriveShared .standard doublePublic (some .ecdhSsHkdf256) 8160 [7] = .ok o ∧
      (p256Private 2).deriveShared .standard basePublic (some .ecdhSsHkdf256) 8160 [7] = .ok o := by
  have yields (length : Nat) (bounded : length ≤ 255 * 32) :
      Suite.standard.Yields .p256 (Bytes.ofNat 32 1) (Bytes.ofNat 32 2) length := ⟨bounded, by simp⟩
  constructor
  · have base : Key.IsPair .standard .p256 (Bytes.ofNat 32 1) (p256Private 1) (basePublic.onCurve .p256) :=
      basePublic_isPair.of_sameParts (basePublic.material.sameParts_onCurve .p256)
    have double : Key.IsPair .standard .p256 (Bytes.ofNat 32 2) (p256Private 2) (doublePublic.onCurve .p256) :=
      doublePublic_isPair.of_sameParts (doublePublic.material.sameParts_onCurve .p256)
    obtain ⟨alone, -⟩ := both_sides_agree base double p256_commutes rfl rfl
    obtain ⟨same, succeeds, sized⟩ := alone rfl rfl 16 []
    obtain ⟨o, agreed⟩ := succeeds.mpr (yields 16 (by decide))
    exact ⟨o, agreed, same.symm.trans agreed, (Option.some.inj (sized o rfl agreed)).symm⟩
  · obtain ⟨-, resolved⟩ := both_sides_agree basePublic_isPair doublePublic_isPair p256_commutes rfl rfl
    obtain ⟨same, succeeds⟩ := resolved ⟨rfl, rfl⟩ ⟨rfl, rfl⟩ ⟨rfl, rfl⟩ ⟨rfl, rfl⟩ (Or.inl rfl) (Or.inl rfl)
      (some .ecdhSsHkdf256) 8160 [7]
    obtain ⟨o, agreed⟩ := succeeds.mpr ⟨rfl, yields 8160 (by decide)⟩
    exact ⟨o, agreed, same.symm.trans agreed⟩

end Agreement

end Cose
