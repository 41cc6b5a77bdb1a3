import Cose.Proofs.Header
import Cose.Proofs.Key.Kept

/-!
# Keys written and read back

A registry reads the map that a key writes as the same key, and so the bytes of it, for the map is within the
bounds that the received one was in. Keys of the built-in types need no map to start from.
-/

set_option autoImplicit false

namespace Cose

open Result

namespace Key

theorem keyType_of_build {f : Factory} {m : Map} {key : Key} (built : f.build m = .ok key) :
    m.find? Parameter.kty.label = some (.int key.keyType.id) := by
  obtain ⟨-, read⟩ := (f.build_eq_ok_iff m key).mp built
  exact ((readFrom_iff key m).mp read).1

end Key

namespace Registry

theorem decode_eq_ok_iff (r : Registry) (m : Map) (key : Key) : r.decode m = .ok key ↔
    ∃ reg, r.find? key.keyType.id = some reg ∧ reg.factory.build m = .ok key := by
  constructor
  · intro read
    rw [decode] at read
    split at read
    · next id kty =>
      split at read
      · next reg found =>
        have own := (Key.keyType_of_build read).symm.trans kty
        obtain rfl : key.keyType.id = id := by simpa using own
        exact ⟨reg, found, read⟩
      · cases read
    · cases read
    · cases read
  · rintro ⟨reg, found, built⟩
    rw [decode, Key.keyType_of_build built]
    simp only [found]
    exact built

theorem decode_toMap {r : Registry} {m : Map} {key : Key} (ascending : m.Ascending)
    (read : r.decode m = .ok key) : r.decode key.toMap = .ok key := by
  obtain ⟨reg, found, built⟩ := (r.decode_eq_ok_iff m key).mp read
  exact (r.decode_eq_ok_iff _ key).mpr ⟨reg, found, Key.build_toMap ascending built⟩

theorem decode_eq_kept {r : Registry} {m : Map} {key : Key} (ascending : m.Ascending)
    (read : r.decode m = .ok key) : key.toMap = key.kept m := by
  obtain ⟨reg, -, built⟩ := (r.decode_eq_ok_iff m key).mp read
  exact Key.toMap_eq_kept ascending built

/-- The built-in registry reads every key of a built-in type from the maps that hold its parameters, and no
other key. -/
theorem builtin_decode_eq_ok_iff (m : Map) (key : Key) : builtin.decode m = .ok key ↔
    (∀ k, key.material ≠ .registered k) ∧ key.ReadFrom m := by
  rw [decode_eq_ok_iff]
  constructor
  · rintro ⟨reg, found, built⟩
    obtain ⟨fits, read⟩ := (reg.factory.build_eq_ok_iff m key).mp built
    have own : ∀ reg ∈ builtin.entries, reg.factory ≠ .registered := by decide
    have other := own reg (List.mem_of_find?_eq_some found)
    refine ⟨?_, read⟩
    cases way : reg.factory with
    | registered => exact absurd way other
    | _ =>
      rw [way] at fits
      obtain ⟨k, material⟩ := fits
      simp [material]
  · rintro ⟨own, read⟩
    obtain ⟨material, attributes⟩ := key
    cases material with
    | okp k =>
      have found : builtin.find? 1 = some ⟨1, "OKP", .okp⟩ := by decide
      exact ⟨_, found, (Key.okpOfMap_eq_ok_iff _ _).mpr ⟨⟨k, rfl⟩, read⟩⟩
    | ec2 k =>
      have found : builtin.find? 2 = some ⟨2, "EC2", .ec2⟩ := by decide
      exact ⟨_, found, (Key.ec2OfMap_eq_ok_iff _ _).mpr ⟨⟨k, rfl⟩, read⟩⟩
    | symmetric k =>
      have found : builtin.find? 4 = some ⟨4, "Symmetric", .symmetric⟩ := by decide
      exact ⟨_, found, (Key.symmetricOfMap_eq_ok_iff _ _).mpr ⟨⟨k, rfl⟩, read⟩⟩
    | registered k => exact absurd rfl (own k)

theorem builtin_decode_toMap {key : Key} (builtin : ∀ k, key.material ≠ .registered k) :
    Registry.builtin.decode key.toMap = .ok key :=
  (builtin_decode_eq_ok_iff _ _).mpr ⟨builtin, Key.readFrom_toMap (Key.separate_of_builtin builtin)⟩

end Registry

/-! The map that a key keeps is no larger and, but for the operation, no deeper than the one it came in. -/

theorem KeyOperation.restated_eq_some {v w : Value} (h : restated v = some w) :
    w = v ∨ ∃ i, w = .array [.int i] := by
  unfold restated at h
  split at h
  · next i _ => exact Or.inr ⟨i, (Option.some.inj h).symm⟩
  · split_ifs at h
    exact Or.inl (Option.some.inj h).symm

namespace Key

variable {m : Map}

theorem mem_kept {key : Key} {l : Label} {w : Value} (hw : (l, w) ∈ key.kept m) :
    ∃ v, (l, v) ∈ m ∧ (w = v ∨ ∃ i, w = .array [.int i]) := by
  obtain ⟨v, hv, given⟩ := Map.mem_transform.mp hw
  refine ⟨v, hv, ?_⟩
  split_ifs at given
  rw [restated] at given
  split_ifs at given
  · exact KeyOperation.restated_eq_some given
  · exact Or.inl (Option.some.inj given).symm

theorem kept_wellFormed (key : Key) (h : (Value.map m).WellFormed) : (Value.map (key.kept m)).WellFormed := by
  obtain ⟨ascending, length, entries⟩ := (Value.wellFormed_map_iff m).mp h
  have shorter : (key.kept m).length ≤ m.length := List.length_filterMap_le _ m
  refine (Value.wellFormed_map_iff _).mpr ⟨ascending_kept ascending, by omega, ?_⟩
  rintro ⟨l, w⟩ hw
  obtain ⟨v, hv, rfl | ⟨i, rfl⟩⟩ := mem_kept hw
  · exact entries _ hv
  · have restated : (Value.array [.int i]).WellFormed :=
      ⟨⟨trivial, trivial⟩, by simp, trivial, trivial⟩
    exact ⟨(entries _ hv).1, restated⟩

/-- An operation that stands alone is put into an array, which is one level more but never the deepest one if
the map may have two. -/
theorem depth_kept_le (key : Key) {levels : Nat} (h : (Value.map m).depth ≤ levels + 2) :
    (Value.map (key.kept m)).depth ≤ levels + 2 := by
  rw [Value.depth_map_le_iff] at h ⊢
  rintro ⟨l, w⟩ hw
  obtain ⟨v, hv, rfl | ⟨i, rfl⟩⟩ := mem_kept hw
  · exact h _ hv
  · simp [Value.depth, Value.depthItems]

end Key

theorem Map.depth_of_ofBytes {bs : Bytes} {m : Map} (read : Map.ofBytes bs = .ok m) :
    (Value.map m).depth ≤ Cbor.maxDepth := by
  rcases (Cbor.mapOfBytes_eq_ok_iff bs m).mp read with ⟨-, rfl⟩ | item
  · decide
  · exact Cbor.item_depth_le item

namespace Registry

theorem decodeBytes_toBytes {r : Registry} {bs : Bytes} {key : Key} (read : r.decodeBytes bs = .ok key) :
    r.decodeBytes key.toBytes = .ok key := by
  obtain ⟨m, map, decoded⟩ := bind_eq_ok_iff.mp read
  have wellFormed := Map.wellFormed_of_ofBytes map
  have ascending : m.Ascending := wellFormed.ordered.1
  have depth := Key.depth_kept_le key (Map.depth_of_ofBytes map)
  have written : Map.ofBytes key.toBytes = .ok key.toMap := by
    rw [Key.toBytes, decode_eq_kept ascending decoded]
    exact (Cbor.mapOfBytes_toBytes_iff _ _ (Key.kept_wellFormed key wellFormed)).mpr ⟨rfl, depth⟩
  exact bind_eq_ok_iff.mpr ⟨key.toMap, written, decode_toMap ascending decoded⟩

/-- Under any registry a key that was read from a map is read again from the map that it writes, and that one is
what the key keeps of the first. Keys of the built-in types are read from their maps whatever made them, and a
key that came as bytes is read from its own bytes. -/
theorem keys_read_back :
    (∀ (r : Registry) (m : Map) (key : Key), m.Ascending → r.decode m = .ok key →
      r.decode key.toMap = .ok key ∧ key.toMap = key.kept m) ∧
    (∀ key : Key, (∀ k, key.material ≠ .registered k) → Registry.builtin.decode key.toMap = .ok key) ∧
    (∀ (r : Registry) (bs : Bytes) (key : Key), r.decodeBytes bs = .ok key →
      r.decodeBytes key.toBytes = .ok key) := by
  refine ⟨?_, ?_, ?_⟩
  · intro r m key ascending read
    exact ⟨decode_toMap ascending read, decode_eq_kept ascending read⟩
  · intro key builtin
    exact builtin_decode_toMap builtin
  · intro r bs key read
    exact decodeBytes_toBytes read

theorem keys_read_back_symmetric : ∃ key,
    builtin.decode [(.int (-1), .bytes [7]), (.int 1, .int 4), (.int 4, .int 3), (.text "n", .null)] = .ok key ∧
    builtin.decode key.toMap = .ok key ∧
    key.toMap = [(.int (-1), .bytes [7]), (.int 1, .int 4), (.int 4, .array [.int 3])] ∧
    builtin.decodeBytes key.toBytes = .ok key := by
  have read : builtin.decode [(.int (-1), .bytes [7]), (.int 1, .int 4), (.int 4, .int 3), (.text "n", .null)] =
      .ok ⟨.symmetric ⟨[7], by decide⟩, ⟨none, none, some .encrypt, none⟩⟩ := by decide +kernel
  refine ⟨_, read, ?_, ?_, ?_⟩
  · apply keys_read_back.2.1
    simp
  · refine (keys_read_back.1 builtin _ _ ?_ read).2
    simp [Map.Ascending]
    decide
  · apply keys_read_back.2.2 builtin [0xa3, 0x01, 0x04, 0x20, 0x41, 0x07, 0x04, 0x03]
    decide +kernel

end Registry

end Cose
