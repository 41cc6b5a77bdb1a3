import Cose.Key.Set
import Cose.Proofs.Key.RoundTrip

/-!
# Key sets written and read back

A set is read entry by entry, in the order of the array and up to the first entry that is refused. Its keys
stand one level deeper than a key by itself, so a set is read back if its keys nest at most 63 levels, and keys
that came in a set do.
-/

set_option autoImplicit false

namespace Cose

open Result

namespace KeySet

def toValue (s : KeySet) : Value := .array (s.keys.map fun k => .map k.toMap)

section

variable {φ : Type} [KeyReader φ]

inductive EntryRefused (r : Registry φ) : Value → Error → Prop
  | notMap {v : Value} (other : v.kind ≠ .map) : EntryRefused r v (.malformedKey (.setEntryNotMap v.kind))
  | notKey {m : Map} {e : Error} (refused : r.decode m = .error e) : EntryRefused r (.map m) e

/-- The first entry that is refused, and the error for it. -/
def FirstRefused (r : Registry φ) (items : List Value) (e : Error) : Prop :=
  ∃ before v after, items = before ++ v :: after ∧
    (∀ x ∈ before, ∃ m k, x = .map m ∧ r.decode m = .ok k) ∧ EntryRefused r v e

theorem decodeEntry_eq_ok_iff (r : Registry φ) (v : Value) (key : Key) :
    decodeEntry r v = .ok key ↔ ∃ m, v = .map m ∧ r.decode m = .ok key := by
  cases v <;> simp [decodeEntry]

theorem decodeEntry_eq_error_iff (r : Registry φ) (v : Value) (e : Error) :
    decodeEntry r v = .error e ↔ EntryRefused r v e := by
  constructor
  · intro failed
    cases v with
    | map m => exact .notKey failed
    | _ =>
      obtain rfl := Except.error.inj failed
      exact .notMap (by simp [Value.kind])
  · intro refused
    cases refused with
    | notMap other =>
      cases v with
      | map m => exact absurd rfl other
      | _ => rfl
    | notKey failed => exact failed

theorem ofBytes_eq_ok_iff (r : Registry φ) (bs : Bytes) (s : KeySet) : ofBytes r bs = .ok s ↔
    ∃ items, Value.ofBytes bs = .ok (.array items) ∧ items.map (decodeEntry r) = s.keys.map .ok := by
  simp only [ofBytes, bind_eq_ok_iff]
  constructor
  · rintro ⟨v, value, read⟩
    split at read
    · next items =>
      obtain ⟨keys, entries, read⟩ := bind_eq_ok_iff.mp read
      obtain rfl := Except.ok.inj read
      exact ⟨items, value, mapM_eq_ok_iff.mp entries⟩
    · cases read
  · rintro ⟨items, value, entries⟩
    exact ⟨_, value, bind_eq_ok_iff.mpr ⟨s.keys, mapM_eq_ok_iff.mpr entries, rfl⟩⟩

theorem firstRefused_iff (r : Registry φ) (items : List Value) (e : Error) :
    FirstRefused r items e ↔ items.mapM (decodeEntry r) = .error e := by
  simp only [mapM_eq_error_iff, decodeEntry_eq_ok_iff, decodeEntry_eq_error_iff]
  constructor
  · rintro ⟨before, v, after, eq, earlier, refused⟩
    refine ⟨before, v, after, eq, fun x hx => ?_, refused⟩
    obtain ⟨m, key, read⟩ := earlier x hx
    exact ⟨key, m, read⟩
  · rintro ⟨before, v, after, eq, earlier, refused⟩
    refine ⟨before, v, after, eq, fun x hx => ?_, refused⟩
    obtain ⟨key, m, read⟩ := earlier x hx
    exact ⟨m, key, read⟩

theorem ofBytes_eq_error_iff {r : Registry φ} {bs : Bytes} {items : List Value}
    (value : Value.ofBytes bs = .ok (.array items)) (e : Error) :
    ofBytes r bs = .error e ↔ FirstRefused r items e := by
  have read : ofBytes r bs = items.mapM (decodeEntry r) >>= fun keys => .ok ⟨keys⟩ := by
    rw [ofBytes, value, ok_bind]
  rw [read, firstRefused_iff, bind_eq_error_iff]
  simp

theorem refused_iff (r : Registry φ) {bs : Bytes} {items : List Value}
    (value : Value.ofBytes bs = .ok (.array items)) :
    (∃ e, ofBytes r bs = .error e) ↔ ∃ v ∈ items, ∃ e, EntryRefused r v e := by
  constructor
  · rintro ⟨e, failed⟩
    obtain ⟨before, v, after, rfl, -, refused⟩ := (ofBytes_eq_error_iff value e).mp failed
    exact ⟨v, by simp, e, refused⟩
  · rintro ⟨v, hv, e, refused⟩
    cases read : ofBytes r bs with
    | error e => exact ⟨e, rfl⟩
    | ok s =>
      obtain ⟨items', value', entries⟩ := (ofBytes_eq_ok_iff r bs s).mp read
      obtain rfl := Value.array.inj (Except.ok.inj (value.symm.trans value'))
      have decoded : decodeEntry r v ∈ s.keys.map .ok := entries ▸ List.mem_map_of_mem hv
      obtain ⟨k, -, passed⟩ := List.mem_map.mp decoded
      rw [(decodeEntry_eq_error_iff r v e).mpr refused] at passed
      cases passed

theorem wellFormed_toValue_iff (s : KeySet) : s.toValue.WellFormed ↔
    s.keys.length < 2 ^ 64 ∧ ∀ k ∈ s.keys, (Value.map k.toMap).WellFormed := by
  rw [toValue, Value.wellFormed_array_iff, List.length_map, List.forall_mem_map]

theorem depth_toValue_le_iff (s : KeySet) (levels : Nat) : s.toValue.depth ≤ levels + 1 ↔
    ∀ k ∈ s.keys, (Value.map k.toMap).depth ≤ levels := by
  rw [toValue, Value.depth_array_le_iff, List.forall_mem_map]

theorem ofBytes_toBytes {r : Registry φ} {s : KeySet} (wellFormed : s.toValue.WellFormed)
    (shallow : ∀ k ∈ s.keys, (Value.map k.toMap).depth ≤ 63)
    (read : ∀ k ∈ s.keys, r.decode k.toMap = .ok k) : ofBytes r s.toBytes = .ok s := by
  have depth : s.toValue.depth ≤ Cbor.maxDepth := (s.depth_toValue_le_iff 63).mpr shallow
  rw [ofBytes_eq_ok_iff]
  refine ⟨_, (Cbor.ofBytes_toBytes_iff s.toValue s.toValue wellFormed).mpr ⟨rfl, depth⟩, ?_⟩
  rw [List.map_map]
  exact List.map_congr_left read

theorem mem_of_ofBytes {r : Registry φ} {bs : Bytes} {s : KeySet} (read : ofBytes r bs = .ok s) :
    s.keys.length < 2 ^ 64 ∧ ∀ k ∈ s.keys, ∃ m, (Value.map m).WellFormed ∧ (Value.map m).depth ≤ 63 ∧
      r.decode m = .ok k := by
  obtain ⟨items, value, entries⟩ := (ofBytes_eq_ok_iff r bs s).mp read
  have item := (Cbor.ofBytes_eq_ok_iff bs _).mp value
  obtain ⟨length, elements⟩ := (Value.wellFormed_array_iff items).mp (Cbor.item_wellFormed item)
  have depths := (Value.depth_array_le_iff items 63).mp (Cbor.item_depth_le item)
  have same_length : items.length = s.keys.length := by simpa using congrArg List.length entries
  refine ⟨same_length ▸ length, fun k hk => ?_⟩
  have hk : .ok k ∈ items.map (decodeEntry r) := entries ▸ List.mem_map_of_mem hk
  obtain ⟨v, hv, decoded⟩ := List.mem_map.mp hk
  obtain ⟨m, rfl, decoded⟩ := (decodeEntry_eq_ok_iff r v k).mp decoded
  exact ⟨m, elements _ hv, depths _ hv, decoded⟩

end

theorem ofBytes_toBytes_of_ofBytes {r : Registry} {bs : Bytes} {s : KeySet} (read : ofBytes r bs = .ok s) :
    ofBytes r s.toBytes = .ok s := by
  obtain ⟨length, received⟩ := mem_of_ofBytes read
  apply ofBytes_toBytes
  · refine s.wellFormed_toValue_iff.mpr ⟨length, fun k hk => ?_⟩
    obtain ⟨m, wellFormed, -, decoded⟩ := received k hk
    rw [Registry.decode_eq_kept wellFormed.ordered.1 decoded]
    exact k.kept_wellFormed wellFormed
  · intro k hk
    obtain ⟨m, wellFormed, depth, decoded⟩ := received k hk
    rw [Registry.decode_eq_kept wellFormed.ordered.1 decoded]
    exact k.depth_kept_le depth
  · intro k hk
    obtain ⟨m, wellFormed, -, decoded⟩ := received k hk
    exact Registry.decode_toMap wellFormed.ordered.1 decoded

/-- A set comes back from its bytes with the same keys in the same order, if the registry reads each key from its
own map and no key nests more than 63 levels. What was read as a set has one key for each entry of the array and,
under a registry with the ways of reading that the library has, comes back from its own bytes. A set with
an entry that is no map or no key is refused, with the error of the first such entry. -/
theorem sets_read_back :
    (∀ (φ : Type) [KeyReader φ] (r : Registry φ) (s : KeySet), s.toValue.WellFormed →
      (∀ k ∈ s.keys, (Value.map k.toMap).depth ≤ 63) → (∀ k ∈ s.keys, r.decode k.toMap = .ok k) →
      ofBytes r s.toBytes = .ok s) ∧
    (∀ (r : Registry) (bs : Bytes) (s : KeySet), ofBytes r bs = .ok s → ofBytes r s.toBytes = .ok s) ∧
    (∀ (φ : Type) [KeyReader φ] (r : Registry φ) (bs : Bytes) (s : KeySet), ofBytes r bs = .ok s →
      ∃ items, Value.ofBytes bs = .ok (.array items) ∧ s.keys.length = items.length ∧
        items.map (decodeEntry r) = s.keys.map .ok) ∧
    (∀ (φ : Type) [KeyReader φ] (r : Registry φ) (bs : Bytes) (items : List Value) (e : Error),
      Value.ofBytes bs = .ok (.array items) → (ofBytes r bs = .error e ↔ FirstRefused r items e)) ∧
    (∀ (φ : Type) [KeyReader φ] (r : Registry φ) (bs : Bytes) (items : List Value),
      Value.ofBytes bs = .ok (.array items) →
      ((∃ e, ofBytes r bs = .error e) ↔ ∃ v ∈ items, ∃ e, EntryRefused r v e)) := by
  refine ⟨?_, ?_, ?_, ?_, ?_⟩
  · intro φ _ r s wellFormed shallow read
    exact ofBytes_toBytes wellFormed shallow read
  · intro r bs s read
    exact ofBytes_toBytes_of_ofBytes read
  · intro φ _ r bs s read
    obtain ⟨items, value, entries⟩ := (ofBytes_eq_ok_iff r bs s).mp read
    exact ⟨items, value, by simpa using (congrArg List.length entries).symm, entries⟩
  · intro φ _ r bs items e value
    exact ofBytes_eq_error_iff value e
  · intro φ _ r bs items value
    exact refused_iff r value

def extended : Registry := .extend .builtin ⟨99, "kept", .registered⟩

def secretKey : Key := (Key.bare (.symmetric ⟨[7], by decide⟩)).setKid (some [1])

def keptKey : Key := .registered (.registered 99) [(.int (-1), .array [.array []]), (.text "n", .null)]

theorem sets_read_back_duplicates :
    let s : KeySet := ⟨[secretKey, keptKey, secretKey]⟩
    let items : List Value := [.map secretKey.toMap, .map keptKey.toMap, .null, .map []]
    ofBytes extended s.toBytes = .ok s ∧
    (∃ items, Value.ofBytes s.toBytes = .ok (.array items) ∧ s.keys.length = items.length) ∧
    (∃ t, ofBytes extended [0x81, 0xa2, 0x01, 0x18, 0x63, 0x20, 0x01] = .ok t ∧
      ofBytes extended t.toBytes = .ok t) ∧
    ofBytes extended (Value.array items).toBytes = .error (.malformedKey (.setEntryNotMap .null)) ∧
    ∃ v ∈ items, ∃ e, EntryRefused extended v e := by
  intro s items
  obtain ⟨restored, received, entries, refused, refused_any⟩ := sets_read_back
  have value : Value.ofBytes s.toBytes = .ok s.toValue := by decide +kernel
  have written : Value.ofBytes (Value.array items).toBytes = .ok (.array items) := by decide +kernel
  have read : ∀ k ∈ s.keys, extended.decode k.toMap = .ok k := by decide +kernel
  have shallow : ∀ k ∈ s.keys, (Value.map k.toMap).depth ≤ 63 := by decide +kernel
  have wellFormed := Cbor.item_wellFormed ((Cbor.ofBytes_eq_ok_iff _ _).mp value)
  have set_read := restored _ extended s wellFormed shallow read
  have first : FirstRefused extended items (.malformedKey (.setEntryNotMap .null)) := by
    refine ⟨[.map secretKey.toMap, .map keptKey.toMap], .null, [.map []], rfl, ?_, .notMap (by decide)⟩
    rw [List.forall_mem_cons, List.forall_mem_singleton]
    exact ⟨⟨_, secretKey, rfl, read secretKey (by simp [s])⟩, _, keptKey, rfl, read keptKey (by simp [s])⟩
  have third := (refused _ extended _ items _ written).mpr first
  refine ⟨set_read, ?_, ?_, third, (refused_any _ extended _ items written).mp ⟨_, third⟩⟩
  · obtain ⟨items, array, length, -⟩ := entries _ extended _ s set_read
    exact ⟨items, array, length⟩
  · have accepted : (ofBytes extended [0x81, 0xa2, 0x01, 0x18, 0x63, 0x20, 0x01]).isOk = true := by
      decide +kernel
    obtain ⟨t, accepted⟩ := ok_of_isOk accepted
    exact ⟨t, accepted, received _ _ t accepted⟩

end KeySet

end Cose
