import Cose.Proofs.Header
import Cose.Signature

/-!
# Signature structures on the wire

Writing a signature structure and reading it back keeps what the bytes carry: the protected header byte for
byte, the map of the unprotected one, and the signature. Context, external data and key are not on the wire;
once they are put back, everything is signed and verified as before.
-/

set_option autoImplicit false

namespace Cose

open Result

namespace Signature

def received (s : Signature) : Signature where
  context := .signature
  protectedHeader := ⟨s.protectedHeader.protectedBytes, s.protectedHeader.map⟩
  unprotectedHeader := .ofMap s.unprotectedHeader.map
  signature := s.signature
  externalAad := []
  key := none

/-- The array of the structure is one that a reader accepts. -/
structure Writable (s : Signature) : Prop where
  protected_bytes : Map.ofBytes s.protectedHeader.protectedBytes = .ok s.protectedHeader.map
  protected_sized : s.protectedHeader.protectedBytes.length < 2 ^ 64
  unprotected : (Value.map s.unprotectedHeader.map).WellFormed
  unprotected_depth : (Value.map s.unprotectedHeader.map).depth < Cbor.maxDepth
  signature_sized : s.signature.length < 2 ^ 64

theorem mem_items {s : Signature} {signature : Bytes} {x : Value} (hx : x ∈ s.items signature) :
    x = .bytes s.protectedHeader.protectedBytes ∨ x = .map s.unprotectedHeader.map ∨ x = .bytes signature := by
  rw [items] at hx
  by_cases empty : signature.isEmpty = true
  · rw [if_pos empty] at hx
    simp at hx
    exact hx.imp_right Or.inl
  · rw [if_neg empty] at hx
    simpa using hx

theorem length_items (s : Signature) (signature : Bytes) : (s.items signature).length < 2 ^ 64 := by
  rw [items]
  by_cases empty : signature.isEmpty = true <;> simp [empty]

theorem items_wellFormed {s : Signature} (writable : s.Writable) :
    (Value.array (s.items s.signature)).WellFormed := by
  refine (Value.wellFormed_array_iff _).mpr ⟨length_items s s.signature, ?_⟩
  intro x hx
  rcases mem_items hx with rfl | rfl | rfl
  · exact ⟨trivial, writable.protected_sized⟩
  · exact writable.unprotected
  · exact ⟨trivial, writable.signature_sized⟩

theorem items_depth {s : Signature} (writable : s.Writable) :
    (Value.array (s.items s.signature)).depth ≤ Cbor.maxDepth := by
  refine (Value.depth_array_le_iff _ 63).mpr ?_
  intro x hx
  rcases mem_items hx with rfl | rfl | rfl
  · exact Nat.zero_le _
  · exact Nat.le_of_lt_succ writable.unprotected_depth
  · exact Nat.zero_le _

theorem ofItems_items {s : Signature} (read : Map.ofBytes s.protectedHeader.protectedBytes =
    .ok s.protectedHeader.map) : ofItems (s.items s.signature) = .ok s.received := by
  have header : Header.ofProtected s.protectedHeader.protectedBytes =
      .ok ⟨s.protectedHeader.protectedBytes, s.protectedHeader.map⟩ :=
    (Header.ofProtected_eq_ok_iff _ _).mpr ⟨read, rfl⟩
  have split : splitItems (s.items s.signature) =
      .ok (.bytes s.protectedHeader.protectedBytes, .map s.unprotectedHeader.map, s.signature) := by
    by_cases empty : s.signature = [] <;> simp [items, splitItems, empty]
  simp [ofItems, split, header, received]

theorem ofBytes_toBytes {s : Signature} (writable : s.Writable) : ofBytes s.toBytes = .ok s.received := by
  have read : Value.ofBytes s.toBytes = .ok (.array (s.items s.signature)) :=
    (Cbor.ofBytes_toBytes_iff _ _ (items_wellFormed writable)).mpr ⟨rfl, items_depth writable⟩
  rw [ofBytes, read]
  exact ofItems_items writable.protected_bytes

theorem splitItems_eq_ok {items : List Value} {p u : Value} {signature : Bytes}
    (split : splitItems items = .ok (p, u, signature)) :
    p ∈ items ∧ u ∈ items ∧ (signature = [] ∨ .bytes signature ∈ items) := by
  unfold splitItems at split
  split at split
  · obtain ⟨⟩ := split
    simp
  · simp at split
  · obtain ⟨⟩ := split
    simp
  · simp at split

theorem ofItems_eq_ok {items : List Value} {s : Signature} (read : ofItems items = .ok s) :
    s.received = s ∧ .bytes s.protectedHeader.retained ∈ items ∧
      Map.ofBytes s.protectedHeader.retained = .ok s.protectedHeader.map ∧
      .map s.unprotectedHeader.map ∈ items ∧ (s.signature = [] ∨ .bytes s.signature ∈ items) := by
  obtain ⟨⟨p, u, signature⟩, split, read⟩ := bind_eq_ok_iff.mp read
  obtain ⟨hp, hu, hs⟩ := splitItems_eq_ok split
  dsimp only at read
  split at read
  · next bs =>
    obtain ⟨header, protected_read, read⟩ := bind_eq_ok_iff.mp read
    split at read
    · next m =>
      obtain rfl := Except.ok.inj read
      have kept := Header.protectedBytes_ofProtected protected_read
      obtain ⟨map_read, retained⟩ := (Header.ofProtected_eq_ok_iff bs header).mp protected_read
      dsimp only
      rw [retained]
      refine ⟨?_, hp, map_read, hu, hs⟩
      rw [received, kept, ← retained]
      rfl
    · simp at read
  · simp at read

theorem writable_of_ofBytes {b : Bytes} {s : Signature} (read : ofBytes b = .ok s) :
    s.Writable ∧ s.received = s := by
  obtain ⟨v, decoded, read⟩ := bind_eq_ok_iff.mp read
  split at read
  · next items =>
    have item := (Cbor.ofBytes_eq_ok_iff b (.array items)).mp decoded
    obtain ⟨-, elements⟩ := (Value.wellFormed_array_iff items).mp (Cbor.item_wellFormed item)
    have depths := (Value.depth_array_le_iff items 63).mp (Cbor.item_depth_le item)
    obtain ⟨same, hp, map_read, hu, hs⟩ := ofItems_eq_ok read
    have kept : s.protectedHeader.protectedBytes = s.protectedHeader.retained :=
      congrArg (fun r => r.protectedHeader.retained) same
    refine ⟨⟨?_, ?_, ?_, ?_, ?_⟩, same⟩
    · rw [kept]
      exact map_read
    · rw [kept]
      exact (elements _ hp).sized
    · exact elements _ hu
    · exact Nat.lt_succ_of_le (depths _ hu)
    · rcases hs with empty | hs
      · rw [empty]
        decide
      · exact (elements _ hs).sized
  · simp at read

/-- The structure with what does not go over the wire put back. -/
def restored (received original : Signature) : Signature :=
  { received with
    context := original.context
    externalAad := original.externalAad
    key := original.key }

theorem toBeSigned_restored {s : Signature} (kept : s.received.protectedHeader.protectedBytes =
    s.protectedHeader.protectedBytes) (body payload : Bytes) :
    (s.received.restored s).toBeSigned body payload = s.toBeSigned body payload := by
  have kept : (s.received.restored s).protectedHeader.protectedBytes = s.protectedHeader.protectedBytes := kept
  rw [toBeSigned, toBeSigned, kept]
  rfl

theorem verify_restored {s : Signature} (kept : s.received.protectedHeader.protectedBytes =
    s.protectedHeader.protectedBytes) (suite : Suite) (body payload : Bytes) :
    (s.received.restored s).verify suite body payload = s.verify suite body payload := by
  rw [verify, verify, toBeSigned_restored kept]
  rfl

structure Sized (s : Signature) : Prop where
  protected_bytes : s.protectedHeader.protectedBytes.length < 2 ^ 64
  protected_map : (Value.map s.protectedHeader.map).Sized
  unprotected_map : (Value.map s.unprotectedHeader.map).Sized
  signature : s.signature.length < 2 ^ 64

/-- A structure whose headers were made by the operations on headers comes back from its bytes with the same
maps, the same protected bytes and the same signature, and then signs and verifies as before. A structure that
was received comes back entirely. -/
theorem wire_round_trip :
    (∀ s : Signature, s.protectedHeader.Reachable → s.unprotectedHeader.Reachable → s.Sized →
      (Value.map s.protectedHeader.map).depth ≤ 64 → (Value.map s.unprotectedHeader.map).depth ≤ 63 →
      ∃ r, Signature.ofBytes s.toBytes = .ok r ∧
        r.protectedHeader.map = s.protectedHeader.map ∧
        r.protectedHeader.protectedBytes = s.protectedHeader.protectedBytes ∧
        r.unprotectedHeader.map = s.unprotectedHeader.map ∧ r.signature = s.signature ∧
        ∀ body payload, (r.restored s).toBeSigned body payload = s.toBeSigned body payload ∧
          ∀ suite, (r.restored s).verify suite body payload = s.verify suite body payload) ∧
    ∀ b s, Signature.ofBytes b = .ok s → Signature.ofBytes s.toBytes = .ok s := by
  constructor
  · intro s protected_reachable unprotected_reachable sized protected_depth unprotected_depth
    have faithful := Header.reachable_faithful protected_reachable
    have read := Header.ofBytes_protectedBytes faithful sized.protected_map protected_depth
    have ordered := (Header.reachable_faithful unprotected_reachable).ordered
    have writable : s.Writable :=
      ⟨read, sized.protected_bytes, ⟨ordered, sized.unprotected_map⟩, Nat.lt_succ_of_le unprotected_depth,
        sized.signature⟩
    have kept : s.received.protectedHeader.protectedBytes = s.protectedHeader.protectedBytes :=
      Header.protectedBytes_ofProtected ((Header.ofProtected_eq_ok_iff _ _).mpr ⟨read, rfl⟩)
    refine ⟨s.received, ofBytes_toBytes writable, rfl, kept, rfl, rfl, ?_⟩
    intro body payload
    exact ⟨toBeSigned_restored kept body payload, fun suite => verify_restored kept suite body payload⟩
  · intro b s read
    obtain ⟨writable, same⟩ := writable_of_ofBytes read
    rw [ofBytes_toBytes writable, same]

def sample : Signature where
  context := .counterSignature
  protectedHeader := ⟨[0xa1, 0x18, 0x01, 0x26], [(.int 1, .int (-7))]⟩
  unprotectedHeader := Header.empty.insert (.text "kid") (.bytes [1, 2])
  signature := [3]
  externalAad := [4]
  key := none

theorem wire_round_trip_sample :
    (∃ r, Signature.ofBytes sample.toBytes = .ok r ∧
      r.protectedHeader.protectedBytes = [0xa1, 0x18, 0x01, 0x26] ∧ r.signature = [3]) ∧
    Signature.ofBytes (unsigned .signature .empty .empty none).toBytes =
      .ok (unsigned .signature .empty .empty none) := by
  constructor
  · have received : Header.ofProtected [0xa1, 0x18, 0x01, 0x26] = .ok sample.protectedHeader := by
      decide +kernel
    have sized : sample.Sized := by
      constructor
      · decide
      · simp [sample, Value.Sized, Value.SizedEntries, Label.Sized]
      · simp [sample, Header.empty, Header.insert, Map.insert, Value.Sized, Value.SizedEntries, Label.Sized,
          Bytes.ofText]
        decide
      · decide
    obtain ⟨r, read, -, bytes, -, signature, -⟩ := wire_round_trip.1 sample (.ofProtected received)
      (.insert .empty (.text "kid") (.bytes [1, 2]) trivial) sized (by decide) (by decide)
    exact ⟨r, read, bytes, signature⟩
  · apply wire_round_trip.2 [0x82, 0x40, 0xa0]
    decide +kernel

end Signature

end Cose
