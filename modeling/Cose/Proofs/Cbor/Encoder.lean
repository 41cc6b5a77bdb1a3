import Cose.Proofs.Cbor.Codec

/-!
# What encoding writes

The written form of a value is one of its forms in the grammar, with as many levels as the value has and no
fewer. So decoding brings back what was written up to the bound on the nesting, and refuses it beyond.
-/

set_option autoImplicit false

namespace Cose

namespace Cbor

theorem head_written (major : Major) (n : Nat) (h : n < 2 ^ 64) : Head major n (head major n) := by
  rw [head]
  split_ifs with short one two four
  · exact .short short
  · exact .long 0 (by decide) one
  · exact .long 1 (by decide) two
  · exact .long 2 (by decide) four
  · exact .long 3 (by decide) h

theorem encodeInt_written (i : Int64) : IntItem i (encodeInt i) := by
  have low := i.le_toInt
  have high := i.toInt_lt
  rw [encodeInt]
  by_cases negative : i < 0
  · have sign : i.toInt < 0 := Int64.lt_iff_toInt_lt.mp negative
    rw [if_pos negative]
    exact .negative (head_written _ _ (by omega)) (by omega)
  · have sign : ¬ i.toInt < 0 := fun h => negative (Int64.lt_iff_toInt_lt.mpr h)
    rw [if_neg negative]
    exact .unsigned (head_written _ _ (by omega)) (by omega)

theorem encodeLabel_written (l : Label) (h : l.Sized) : LabelItem l (encodeLabel l) := by
  cases l with
  | int i => exact .int (encodeInt_written i)
  | text s => exact .text (.mk (head_written .text _ h))

theorem encodeItems_written {levels : Nat} (items : List Value)
    (h : ∀ x ∈ items, Item levels x (encode x)) : Items levels items (encodeItems items) := by
  induction items with
  | nil => exact .nil
  | cons x items ih =>
    have rest := ih (fun y hy => h y (List.mem_cons_of_mem x hy))
    exact .cons (h x List.mem_cons_self) rest

theorem encodeEntries_written {levels : Nat} (entries : List (Label × Value))
    (h : ∀ e ∈ entries, e.1.Sized ∧ Item levels e.2 (encode e.2)) :
    Entries levels entries (encodeEntries entries) := by
  induction entries with
  | nil => exact .nil
  | cons e entries ih =>
    have rest := ih (fun f hf => h f (List.mem_cons_of_mem e hf))
    obtain ⟨sized, item⟩ := h e List.mem_cons_self
    exact .cons (encodeLabel_written e.1 sized) item rest

theorem scalar_written (v : Value) (h : v.Sized) (depth : v.depth = 0) : ScalarItem v (encode v) := by
  cases v with
  | int i => exact .int (encodeInt_written i)
  | bytes bs => exact .bytes (.mk (head_written .bytes _ h))
  | text s => exact .text (.mk (head_written .text _ h))
  | array items => simp [Value.depth] at depth
  | map entries => simp [Value.depth] at depth
  | bool b =>
    cases b with
    | false => exact .false
    | true => exact .true
  | null => exact .null

theorem encode_written {levels : Nat} (v : Value) (h : v.WellFormed) (depth : v.depth ≤ levels) :
    Item levels v (encode v) := by
  induction levels generalizing v with
  | zero => exact .scalar (scalar_written v h.sized (Nat.le_zero.mp depth))
  | succ levels ih =>
    cases v with
    | array items =>
      obtain ⟨length, elements⟩ := (Value.wellFormed_array_iff items).mp h
      have depths := (Value.depth_array_le_iff items levels).mp depth
      refine .array (head_written .array _ length) (encodeItems_written items fun x hx => ?_)
      exact ih x (elements x hx) (depths x hx)
    | map entries =>
      obtain ⟨ascending, length, elements⟩ := (Value.wellFormed_map_iff entries).mp h
      have depths := (Value.depth_map_le_iff entries levels).mp depth
      refine .map (head_written .map _ length) (encodeEntries_written entries fun e he => ?_)
        (Map.lastWins_self ascending)
      exact ⟨(elements e he).1, ih e.2 (elements e he).2 (depths e he)⟩
    | _ => exact .scalar (scalar_written _ h.sized rfl)

/-- What an item stands for and where it ends does not depend on what follows it, whatever levels are
allowed. -/
theorem item_append_inj {m n : Nat} {v w : Value} {a b rest after : Bytes} (hv : Item m v a) (hw : Item n w b)
    (eq : a ++ rest = b ++ after) : v = w ∧ rest = after := by
  have read_v := (readValue_exact 0 (m + n) (a ++ rest) v rest).mpr ⟨a, item_mono hv (by omega), rfl⟩
  have read_w := (readValue_exact 0 (m + n) (a ++ rest) w after).mpr ⟨b, item_mono hw (by omega), eq⟩
  exact Prod.mk.inj (Except.ok.inj (read_v.symm.trans read_w))

theorem item_unique {m n : Nat} {v w : Value} {b : Bytes} (hv : Item m v b) (hw : Item n w b) : v = w :=
  (item_append_inj hv hw (rfl : b ++ [] = b ++ [])).1

theorem encode_item_iff (levels : Nat) (v w : Value) (h : v.WellFormed) :
    Item levels w (encode v) ↔ w = v ∧ v.depth ≤ levels := by
  constructor
  · intro item
    obtain rfl := item_unique item (encode_written v h (Nat.le_refl v.depth))
    exact ⟨rfl, item_depth_le item⟩
  · rintro ⟨rfl, depth⟩
    exact encode_written w h depth

theorem ofBytes_toBytes_iff (v w : Value) (h : v.WellFormed) :
    Value.ofBytes v.toBytes = .ok w ↔ w = v ∧ v.depth ≤ maxDepth := by
  rw [ofBytes_eq_ok_iff, Value.toBytes, encode_item_iff maxDepth v w h]

theorem mapOfBytes_toBytes_iff (m n : Map) (h : (Value.map m).WellFormed) :
    Map.ofBytes m.toBytes = .ok n ↔ n = m ∧ (Value.map m).depth ≤ maxDepth := by
  have written : m.toBytes ≠ [] := by
    intro empty
    have item := encode_written (.map m) h (Nat.le_refl _)
    obtain ⟨inner, es, h, body, -, head, -, -, eq⟩ := item_map_inv item
    have eq : m.toBytes = h ++ body := eq
    rw [empty] at eq
    cases head <;> simp at eq
  have item := encode_item_iff maxDepth (.map m) (.map n) h
  rw [mapOfBytes_eq_ok_iff, Map.toBytes, encodeMap, item]
  rw [Map.toBytes, encodeMap] at written
  simp [written]

/-- Every value comes back from its bytes up to 64 levels, and beyond that its bytes are refused. A map is read
back by itself under the same bound, with the map as its first level. -/
theorem round_trip_iff :
    (∀ v : Value, v.WellFormed →
      (Value.ofBytes v.toBytes = .ok v ↔ v.depth ≤ 64) ∧
      ((∃ e, Value.ofBytes v.toBytes = .error (.cbor e)) ↔ 64 < v.depth)) ∧
    (∀ m : Map, (Value.map m).WellFormed →
      (Map.ofBytes m.toBytes = .ok m ↔ (Value.map m).depth ≤ 64) ∧
      ((∃ e, Map.ofBytes m.toBytes = .error (.cbor e)) ↔ 64 < (Value.map m).depth)) := by
  constructor
  · intro v h
    have result := fun w => ofBytes_toBytes_iff v w h
    constructor
    · simp [result, maxDepth]
    · rw [ofBytes_refused_iff]
      simp [result, maxDepth]
  · intro m h
    have result := fun n => mapOfBytes_toBytes_iff m n h
    constructor
    · simp [result, maxDepth]
    · rw [mapOfBytes_refused_iff]
      simp [result, maxDepth]

theorem round_trip_nested :
    Value.ofBytes (Value.array [.int (-500), .array [], .text "kid"]).toBytes =
      .ok (.array [.int (-500), .array [], .text "kid"]) ∧
    Map.ofBytes (Map.toBytes [(.int 1, .int (-7)), (.text "x", .bytes [1, 2])]) =
      .ok [(.int 1, .int (-7)), (.text "x", .bytes [1, 2])] := by
  constructor
  · apply (round_trip_iff.1 _ _).1.mpr (by decide)
    constructor
    · simp [Value.Ordered, Value.OrderedItems]
    · simp [Value.Sized, Value.SizedItems, Bytes.ofText]
      decide
  · apply (round_trip_iff.2 _ _).1.mpr (by decide)
    constructor
    · simp [Value.Ordered, Value.OrderedEntries, Map.Ascending]
      decide
    · simp [Value.Sized, Value.SizedEntries, Label.Sized, Bytes.ofText]
      decide

end Cbor

end Cose
