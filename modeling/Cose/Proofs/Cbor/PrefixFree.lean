import Mathlib.Logic.Function.Iterate
import Cose.Proofs.Cbor.Encoder

/-!
# No written form begins another

The bytes of an item say where it ends, so the written forms of two different values are told apart before
either one is over. Only decoding knows the bound of 64 levels; the readers that it is made of are exact under
any bound, and two values always have one in common.
-/

set_option autoImplicit false

namespace Cose

namespace Cbor

theorem encode_append_eq_iff {v w : Value} (hv : v.WellFormed) (hw : w.WellFormed) (rest after : Bytes) :
    encode v ++ rest = encode w ++ after ↔ v = w ∧ rest = after := by
  constructor
  · exact item_append_inj (encode_written v hv (Nat.le_refl _)) (encode_written w hw (Nat.le_refl _))
  · rintro ⟨rfl, rfl⟩
    rfl

theorem encode_prefix_iff {v w : Value} (hv : v.WellFormed) (hw : w.WellFormed) :
    encode v <+: encode w ↔ v = w := by
  constructor
  · rintro ⟨rest, eq⟩
    rw [← List.append_nil (encode w)] at eq
    exact ((encode_append_eq_iff hv hw rest []).mp eq).1
  · rintro rfl
    exact List.prefix_rfl

/-- The bytes of a value begin those of another one only if the two are equal, however deep they nest. The same
holds of maps. -/
theorem written_prefix_free :
    (∀ v w : Value, v.WellFormed → w.WellFormed → (v.toBytes <+: w.toBytes ↔ v = w)) ∧
    (∀ m n : Map, (Value.map m).WellFormed → (Value.map n).WellFormed →
      (m.toBytes <+: n.toBytes ↔ m = n)) := by
  constructor
  · intro v w hv hw
    exact encode_prefix_iff hv hw
  · intro m n hm hn
    exact (encode_prefix_iff hm hn).trans (by rw [Value.map.injEq])

theorem nested_wellFormed (n : Nat) {v : Value} (h : v.WellFormed) :
    ((fun w => .array [w])^[n] v).WellFormed := by
  refine Function.Iterate.rec Value.WellFormed h (fun w hw => ?_) n
  exact (Value.wellFormed_array_iff [w]).mpr ⟨by simp, by simpa using hw⟩

theorem entry_wellFormed (i : Int64) {s : String} (h : (Bytes.ofText s).length < 2 ^ 64) :
    (Value.map [(.int i, .text s)]).WellFormed :=
  ⟨⟨List.pairwise_singleton _ _, trivial, trivial⟩, by simp, trivial, h, trivial⟩

theorem written_prefix_free_nested :
    ¬ Value.toBytes ((fun w => .array [w])^[100] (.bytes [])) <+:
      Value.toBytes ((fun w => .array [w])^[100] (.bytes [7])) ∧
    ¬ Map.toBytes [(.int 1, .text "k")] <+: Map.toBytes [(.int 1, .text "kid")] := by
  have empty : (Value.bytes []).WellFormed := ⟨trivial, by simp [Value.Sized]⟩
  have single : (Value.bytes [7]).WellFormed := ⟨trivial, by simp [Value.Sized]⟩
  constructor
  · rw [written_prefix_free.1 _ _ (nested_wellFormed 100 empty) (nested_wellFormed 100 single)]
    decide +kernel
  · rw [written_prefix_free.2 _ _ (entry_wellFormed 1 (by decide)) (entry_wellFormed 1 (by decide))]
    decide

end Cbor

end Cose
