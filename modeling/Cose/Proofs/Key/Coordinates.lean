import Cose.Proofs.Bytes
import Cose.Proofs.Key.Agreement
import Cose.Proofs.Signing.Binding

/-!
# Coordinates and the point that they are read as

A point is read from the two coordinates of a key written one after the other, and of their lengths only the
sum is looked at. The point therefore determines the coordinates written one after the other, but not where
the first one ends: a key whose first coordinate is a byte short and whose second is a byte long passes for
the key that it was cut from. Only among keys with first coordinates of one length is the point that of one
key.
-/

set_option autoImplicit false

namespace Cose

open Result

/-- Coordinates are points exactly if they are the written form of two numbers that are. -/
theorem Group.point?_eq_some_iff (g : Group) (coordinates : Bytes) (q : Point) :
    g.point? (4 :: coordinates) = some q ↔ ∃ a b, q = .affine a b ∧ g.onCurve a b = true ∧
      a < 256 ^ g.size ∧ b < 256 ^ g.size ∧
      coordinates = Bytes.ofNat g.size a ++ Bytes.ofNat g.size b := by
  constructor
  · intro read
    simp only [point?] at read
    split_ifs at read with formed
    obtain ⟨length, on_curve⟩ := formed
    have first : (coordinates.take g.size).length = g.size := by
      rw [List.length_take]
      omega
    have second : (coordinates.drop g.size).length = g.size := by
      rw [List.length_drop]
      omega
    obtain ⟨written, fits⟩ := Bytes.eq_ofNat_iff.mpr ⟨first, rfl⟩
    obtain ⟨written', fits'⟩ := Bytes.eq_ofNat_iff.mpr ⟨second, rfl⟩
    refine ⟨_, _, (Option.some.inj read).symm, on_curve, fits, fits', ?_⟩
    rw [← written, ← written', List.take_append_drop]
  · rintro ⟨a, b, rfl, on_curve, fits, fits', rfl⟩
    have length := Bytes.length_ofNat g.size a
    simp only [point?, List.take_left' length, List.drop_left' length, Bytes.toNat_ofNat _ _ fits,
      Bytes.toNat_ofNat _ _ fits']
    rw [if_pos]
    simp [on_curve, Nat.two_mul]

theorem Group.length_of_point? {g : Group} {coordinates : Bytes} {q : Point}
    (read : g.point? (4 :: coordinates) = some q) : coordinates.length = 2 * g.size := by
  obtain ⟨a, b, -, -, -, -, rfl⟩ := (g.point?_eq_some_iff coordinates q).mp read
  simp [Nat.two_mul]

theorem Group.point?_injective {g : Group} {coordinates coordinates' : Bytes} {q : Point}
    (read : g.point? (4 :: coordinates) = some q) (read' : g.point? (4 :: coordinates') = some q) :
    coordinates' = coordinates := by
  obtain ⟨a, b, rfl, -, -, -, rfl⟩ := (g.point?_eq_some_iff coordinates q).mp read
  obtain ⟨a', b', same, -, -, -, rfl⟩ := (g.point?_eq_some_iff coordinates' _).mp read'
  cases same
  rfl

namespace Key

def Coordinates (key : Key) (x y : Bytes) : Prop := ∃ k, key.material = .ec2 k ∧ k.x = some x ∧ k.y = some y

def HasPoint (key : Key) (g : Group) (q : Point) : Prop :=
  ∃ x y, key.Coordinates x y ∧ g.point? (4 :: (x ++ y)) = some q

variable {key : Key} {x y : Bytes}

theorem Coordinates.unique {x' y' : Bytes} (h : key.Coordinates x y) (h' : key.Coordinates x' y') :
    x' = x ∧ y' = y := by
  obtain ⟨k, material, hx, hy⟩ := h
  obtain ⟨k', material', hx', hy'⟩ := h'
  obtain rfl : k = k' := Material.ec2.inj (material.symm.trans material')
  exact ⟨Option.some.inj (hx'.symm.trans hx), Option.some.inj (hy'.symm.trans hy)⟩

theorem Coordinates.hasPoint_iff (h : key.Coordinates x y) (g : Group) (q : Point) :
    key.HasPoint g q ↔ g.point? (4 :: (x ++ y)) = some q := by
  constructor
  · rintro ⟨x', y', h', read⟩
    obtain ⟨rfl, rfl⟩ := h.unique h'
    exact read
  · intro read
    exact ⟨x, y, h, read⟩

theorem HasPoint.iff_joined {g : Group} {q : Point} (h : key.HasPoint g q) (held : key.Coordinates x y)
    {other : Key} {x' y' : Bytes} (held' : other.Coordinates x' y') :
    other.HasPoint g q ↔ x' ++ y' = x ++ y := by
  rw [held.hasPoint_iff] at h
  rw [held'.hasPoint_iff]
  constructor
  · intro h'
    exact Group.point?_injective h h'
  · intro joined
    rw [joined]
    exact h

theorem HasPoint.length {g : Group} {q : Point} (h : key.HasPoint g q) (held : key.Coordinates x y) :
    x.length + y.length = 2 * g.size := by
  rw [held.hasPoint_iff] at h
  rw [← List.length_append]
  exact Group.length_of_point? h

/-- The key with the same bytes one after the other, the first `n` of them as its first coordinate. -/
def cutAt (key : Key) (n : Nat) : Key :=
  match key.material with
  | .ec2 ⟨crv, some x, some y, d, _⟩ =>
    { key with material := .ec2 ⟨crv, some ((x ++ y).take n), some ((x ++ y).drop n), d, Or.inl ⟨rfl, rfl⟩⟩ }
  | _ => key

theorem Coordinates.cutAt (h : key.Coordinates x y) (n : Nat) :
    (key.cutAt n).Coordinates ((x ++ y).take n) ((x ++ y).drop n) := by
  obtain ⟨⟨crv, x', y', d, complete⟩, material, rfl, rfl⟩ := h
  rw [Key.cutAt, material]
  exact ⟨_, rfl, rfl, rfl⟩

theorem attributes_cutAt (key : Key) (n : Nat) : (key.cutAt n).attributes = key.attributes := by
  rw [cutAt]
  split <;> rfl

theorem curve_cutAt (key : Key) (n : Nat) : (key.cutAt n).curve = key.curve := by
  rw [cutAt]
  split
  · next material => rw [curve, curve, material]
  · rfl

theorem HasPoint.cutAt {g : Group} {q : Point} (h : key.HasPoint g q) (n : Nat) :
    (key.cutAt n).HasPoint g q := by
  obtain ⟨x, y, held, -⟩ := id h
  rw [h.iff_joined held (held.cutAt n), List.take_append_drop]

end Key

namespace Signing

variable {s : Suite} {crv : EllipticCurve} {g : Group} {h : Hash} {alg : Algorithm} {key : Key} {x y : Bytes}

theorem point_of_coordinates (crv : EllipticCurve) (held : key.Coordinates x y) :
    point g crv key = match g.point? (4 :: (x ++ y)) with
      | some q => .ok q
      | none => .error (.invalidKeyParameter (.badKey crv)) := by
  obtain ⟨k, material, hx, hy⟩ := held
  have required := (key.requireEc2_eq_ok_iff k).mpr material
  have written := (k.pointBytes_eq_ok_iff _).mpr ⟨x, y, hx, hy, rfl⟩
  cases read : g.point? (4 :: (x ++ y)) <;> simp [point, required, hx, hy, written, read]

theorem verify_of_coordinates (group : s.group? crv = some (g, h)) (found : curve alg key = .ok crv)
    (held : key.Coordinates x y) (message signature : Bytes) :
    verify s alg key message signature = match g.point? (4 :: (x ++ y)) with
      | some q => accepted (Ecdsa.verify g h q message signature)
      | none => .error (.invalidKeyParameter (.badKey crv)) := by
  rw [verify, found, ok_bind, group]
  simp only [point_of_coordinates crv held]
  cases g.point? (4 :: (x ++ y)) <;> rfl

/-- Verifying cannot tell where the first coordinate ends. -/
theorem verify_of_joined (s : Suite) (alg : Algorithm) {other : Key} {x' y' : Bytes}
    (held : key.Coordinates x y) (held' : other.Coordinates x' y') (same_curve : other.curve = key.curve)
    (joined : x' ++ y' = x ++ y) (message signature : Bytes) :
    verify s alg other message signature = verify s alg key message signature := by
  have points (g : Group) (crv : EllipticCurve) : point g crv other = point g crv key := by
    rw [point_of_coordinates crv held, point_of_coordinates crv held', joined]
  obtain ⟨k, material, -, -⟩ := held
  obtain ⟨k', material', -, -⟩ := held'
  have types : other.keyType = key.keyType := by rw [Key.keyType, Key.keyType, material, material']
  have curves : curve alg other = curve alg key := by
    simp only [curve, Key.requireCurve, same_curve, types]
  have octets_refused : octets s.ed25519 other = octets s.ed25519 key := by
    simp only [octets, Key.requireOkp, material, material', types]
  simp only [verify, curves, points, octets_refused]

end Signing

namespace Agreement

variable {s : Suite} {crv : EllipticCurve} {g : Group} {h : Hash} {key peer : Key}

theorem secret_of_agree {length : Nat} {context : Bytes} {o : Output}
    (agreed : agree s key peer length context = .ok o) (held : peer.curve = some crv) :
    secret s crv key peer = .ok o.shared := by
  obtain ⟨crv', -, found, made, -⟩ := (agree_eq_ok_iff s key peer length context o).mp agreed
  obtain rfl : crv = crv' := Option.some.inj (held.symm.trans found)
  exact made

theorem groupSecret_hasPoint {shared : Bytes} (made : groupSecret g crv key peer = .ok shared) :
    ∃ d q, peer.HasPoint g q ∧ shared = g.shared d q := by
  obtain ⟨ours, -, made⟩ := bind_eq_ok_iff.mp made
  obtain ⟨d, -, made⟩ := bind_eq_ok_iff.mp made
  obtain ⟨theirs, required, made⟩ := bind_eq_ok_iff.mp made
  obtain ⟨bs, written, made⟩ := bind_eq_ok_iff.mp made
  have material := (peer.requireEc2_eq_ok_iff theirs).mp required
  obtain ⟨x, y, hx, hy, rfl⟩ := (theirs.pointBytes_eq_ok_iff bs).mp written
  split at made
  · cases made
  · next d _ =>
    split at made
    · cases made
    · next q read => exact ⟨d, q, ⟨x, y, ⟨theirs, material, hx, hy⟩, read⟩, (Except.ok.inj made).symm⟩

theorem agree_of_joined (s : Suite) {x y x' y' : Bytes} {other : Key} (held : peer.Coordinates x y)
    (held' : other.Coordinates x' y') (same_curve : other.curve = peer.curve) (joined : x' ++ y' = x ++ y)
    (length : Nat) (context : Bytes) :
    agree s key other length context = agree s key peer length context := by
  obtain ⟨k, material, hx, hy⟩ := held
  obtain ⟨k', material', hx', hy'⟩ := held'
  have types : other.keyType = peer.keyType := by rw [Key.keyType, Key.keyType, material, material']
  have written := (k.pointBytes_eq_ok_iff _).mpr ⟨x, y, hx, hy, rfl⟩
  have written' := (k'.pointBytes_eq_ok_iff _).mpr ⟨x', y', hx', hy', rfl⟩
  have curves : other.requireCurve = peer.requireCurve := by
    simp only [Key.requireCurve, same_curve, types]
  have points (g : Group) (crv : EllipticCurve) : groupSecret g crv key other = groupSecret g crv key peer := by
    simp only [groupSecret, Key.requireEc2, material, material', ok_bind, written, written', joined]
  have octets_refused (multiply : Bytes → Bytes → Bytes) :
      octetSecret multiply key other = octetSecret multiply key peer := by
    simp only [octetSecret, Key.requireOkp, material, material', types]
  simp only [agree, secret, curves, points, octets_refused]

end Agreement

/-- On a curve in two coordinates a key stands for the point that its coordinates, one after the other, are
read as, in verification and in agreement. The coordinates are together as long as two numbers of the field,
and the first one may end anywhere: cut elsewhere, the key has the same point, and neither operation tells the
two apart. Keys with the same point have the same coordinates if the first of them have the same length, as
they have where each coordinate is as long as a number of the field. -/
theorem coordinates_cut_anywhere {s : Suite} {crv : EllipticCurve} {g : Group} {h : Hash}
    (group : s.group? crv = some (g, h)) :
    (∀ (alg : Algorithm) (key : Key) (x y : Bytes), Signing.curve alg key = .ok crv → key.Coordinates x y →
      (∃ q, key.HasPoint g q ∧ ∀ message signature, Signing.verify s alg key message signature =
        Signing.accepted (Ecdsa.verify g h q message signature)) ∨
      ((¬ ∃ q, key.HasPoint g q) ∧ ∀ message signature, Signing.verify s alg key message signature =
        .error (.invalidKeyParameter (.badKey crv)))) ∧
    (∀ (key peer : Key) (length : Nat) (context : Bytes) (output : Agreement.Output),
      peer.curve = some crv → Agreement.agree s key peer length context = .ok output →
      ∃ d q, peer.HasPoint g q ∧ output.shared = g.shared d q) ∧
    (∀ (key : Key) (q : Point) (x y : Bytes), key.HasPoint g q → key.Coordinates x y →
      x.length + y.length = 2 * g.size ∧
      (∀ (other : Key) (x' y' : Bytes), other.Coordinates x' y' →
        (other.HasPoint g q ↔ x' ++ y' = x ++ y) ∧
        (other.HasPoint g q → x'.length = x.length → x' = x ∧ y' = y)) ∧
      ∀ n, (key.cutAt n).HasPoint g q ∧
        (key.cutAt n).Coordinates ((x ++ y).take n) ((x ++ y).drop n) ∧
        (key.cutAt n).curve = key.curve ∧ (key.cutAt n).attributes = key.attributes) ∧
    (∀ (key other : Key) (x y x' y' : Bytes), key.Coordinates x y → other.Coordinates x' y' →
      other.curve = key.curve → x' ++ y' = x ++ y →
      (∀ alg message signature, Signing.verify s alg other message signature =
        Signing.verify s alg key message signature) ∧
      ∀ ours length context, Agreement.agree s ours other length context =
        Agreement.agree s ours key length context) := by
  refine ⟨?_, ?_, ?_, ?_⟩
  · intro alg key x y found held
    have verifies := Signing.verify_of_coordinates group found held
    cases read : g.point? (4 :: (x ++ y)) with
    | some q => exact Or.inl ⟨q, (held.hasPoint_iff g q).mpr read, by simpa only [read] using verifies⟩
    | none =>
      refine Or.inr ⟨?_, by simpa only [read] using verifies⟩
      rintro ⟨q, h⟩
      rw [held.hasPoint_iff, read] at h
      cases h
  · intro key peer length context output held agreed
    have made := Agreement.secret_of_agree agreed held
    rw [Agreement.secret, group] at made
    exact Agreement.groupSecret_hasPoint made
  · intro key q x y point held
    refine ⟨point.length held, ?_, ?_⟩
    · intro other x' y' held'
      have joined := point.iff_joined held held'
      refine ⟨joined, ?_⟩
      intro point' same_length
      exact List.append_inj (joined.mp point') same_length
    · intro n
      exact ⟨point.cutAt n, held.cutAt n, key.curve_cutAt n, key.attributes_cutAt n⟩
  · intro key other x y x' y' held held' same_curve joined
    refine ⟨?_, ?_⟩
    · intro alg message signature
      exact Signing.verify_of_joined s alg held held' same_curve joined message signature
    · intro ours length context
      exact Agreement.agree_of_joined s held held' same_curve joined length context

def p384Key : Key := .bare (.ec2 ⟨some ⟨.p384, rfl⟩, some (Bytes.ofNat 48 Weierstrass.p384.baseX),
  some (Bytes.ofNat 48 Weierstrass.p384.baseY), some (Bytes.ofNat 48 1), Or.inl ⟨rfl, rfl⟩⟩)

theorem p256Key_hasPoint : p256Key.HasPoint Suite.standard.p256
    (.affine 0x9e98d868086beb35776ea4b823d1b7026d5ec63e051c754d99105aa2ffa56c2b
      0x103ff177fa41fd7efb0f2644c20f03937731b062083e467d5863f6336255f660) := by
  refine ⟨_, _, ⟨_, rfl, rfl, rfl⟩, ?_⟩
  decide +kernel

/-- Coordinates of 31 and 33 bytes are accepted as the point of the key that has 32 bytes for each. -/
theorem coordinates_of_31_and_33_bytes :
    (∃ x y, (p256Key.cutAt 31).Coordinates x y ∧ x.length = 31 ∧ y.length = 33) ∧
    p256Key.cutAt 31 ≠ p256Key ∧
    (∃ q, p256Key.HasPoint Suite.standard.p256 q ∧ (p256Key.cutAt 31).HasPoint Suite.standard.p256 q) ∧
    Signing.verify .standard .es256 (p256Key.cutAt 31) (p256Signature.toBeSigned [] [1])
      p256Signature.signature = .ok () := by
  refine ⟨⟨_, _, ⟨_, rfl, rfl, rfl⟩, rfl, rfl⟩, by decide, ?_, ?_⟩
  · exact ⟨_, p256Key_hasPoint, p256Key_hasPoint.cutAt 31⟩
  · decide +kernel

theorem coordinates_cut_anywhere_p256 :
    (∃ q, p256Key.HasPoint Suite.standard.p256 q ∧
      ∀ message signature, Signing.verify .standard .es256 p256Key message signature =
        Signing.accepted (Ecdsa.verify Suite.standard.p256 .sha256 q message signature)) ∧
    (∃ q, (p384Key.cutAt 47).HasPoint Suite.standard.p384 q) ∧
    (∃ q, (p256Key.cutAt 31).HasPoint Suite.standard.p256 q) ∧
    ∀ message signature, Signing.verify .standard .es256 (p256Key.cutAt 31) message signature =
      Signing.verify .standard .es256 p256Key message signature := by
  obtain ⟨verifies, -, points, same⟩ :=
    @coordinates_cut_anywhere .standard .p256 Suite.standard.p256 .sha256 rfl
  obtain ⟨-, agrees, -, -⟩ := @coordinates_cut_anywhere .standard .p384 Suite.standard.p384 .sha384 rfl
  have agreed : (Agreement.agree .standard p384Key (p384Key.cutAt 47) 0 []).isOk = true := by decide +kernel
  obtain ⟨output, agreed⟩ := ok_of_isOk agreed
  obtain ⟨-, -, cut⟩ := points p256Key _ _ _ p256Key_hasPoint ⟨_, rfl, rfl, rfl⟩
  obtain ⟨point, held, curve, -⟩ := cut 31
  refine ⟨?_, ?_, ⟨_, point⟩, ?_⟩
  · rcases verifies .es256 p256Key _ _ rfl ⟨_, rfl, rfl, rfl⟩ with verified | ⟨none_held, -⟩
    · exact verified
    · exact absurd ⟨_, p256Key_hasPoint⟩ none_held
  · obtain ⟨d, q, point, -⟩ := agrees _ _ _ _ _ rfl agreed
    exact ⟨q, point⟩
  · have joined := same p256Key (p256Key.cutAt 31) _ _ _ _ ⟨_, rfl, rfl, rfl⟩ held curve
      (List.take_append_drop _ _)
    exact joined.1 .es256

end Cose
