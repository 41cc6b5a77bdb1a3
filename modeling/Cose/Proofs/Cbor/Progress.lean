import Cose.Proofs.Cbor.Reading

/-!
# Reading moves on

Labels, items and maps have an initial byte at least, so a read that succeeds ends at a later position of the
input. Each element of a container therefore takes a byte, and a head that announces more elements than there
are bytes behind it is not accepted by any reader, however the elements are nested.
-/

set_option autoImplicit false

namespace Cose

namespace Cbor

open Result

def Advances {α : Type} (one : Reader α) : Prop :=
  ∀ bs x rest, one bs = .ok (x, rest) → rest.length < bs.length

/-- What is left starts at a later position of the input, at the latest at its end. -/
def MovesOn (input : Bytes) (position : Nat) (rest : Bytes) : Prop :=
  ∃ next, position < next ∧ next ≤ input.length ∧ rest = input.drop next

/-- The head of a container that announces more elements than there are bytes behind it. -/
inductive Overstated : Bytes → Prop
  | array {n : Nat} {h after : Bytes} (head : Head .array n h) (more : after.length < n) :
      Overstated (h ++ after)
  | map {n : Nat} {h after : Bytes} (head : Head .map n h) (more : after.length < n) :
      Overstated (h ++ after)

theorem length_lt_of_append {bs pre rest : Bytes} (taken : pre ≠ []) (eq : bs = pre ++ rest) :
    rest.length < bs.length := by
  have := List.length_pos_of_ne_nil taken
  rw [eq, List.length_append]
  omega

theorem movesOn_of_append {input pre rest : Bytes} {position : Nat} (taken : pre ≠ [])
    (eq : input.drop position = pre ++ rest) : MovesOn input position rest := by
  have nonempty := List.length_pos_of_ne_nil taken
  have lengths := congrArg List.length eq
  rw [List.length_drop, List.length_append] at lengths
  refine ⟨position + pre.length, by omega, by omega, ?_⟩
  rw [← List.drop_drop, eq, List.drop_left]

/-! What the readers accept is never empty. -/

section

variable {bs after : Bytes} {ty : ItemType} (peek : peekType bs = .ok ty)

include peek

theorem tail_shortens : bs.tail.length < bs.length := by
  obtain ⟨b, rest, rfl, -⟩ := peekType_eq_ok peek
  exact Nat.lt_succ_self _

theorem readInt_shortens (size : Nat) (int : ty.isInt = true) {i : Int64}
    (read : readInt size bs = .ok (i, after)) : after.length < bs.length := by
  obtain ⟨pre, item, eq⟩ := (readInt_eq_ok_iff size peek int).mp read
  exact length_lt_of_append (int_ne_nil item) eq

theorem readString_shortens {major : Major} (typed : major.itemType? = some ty) {content : Bytes}
    (read : readString bs = .ok (content, after)) : after.length < bs.length := by
  obtain ⟨pre, item, eq⟩ := (readString_eq_ok_iff typed peek).mp read
  exact length_lt_of_append (string_ne_nil item) eq

end

theorem readText_shortens {bs after : Bytes} (peek : peekType bs = .ok .string) (size : Nat) {s : String}
    (read : readText size bs = .ok (s, after)) : after.length < bs.length := by
  obtain ⟨pre, item, eq⟩ := (readText_eq_ok_iff size peek).mp read
  exact length_lt_of_append (string_ne_nil item) eq

theorem readLabel_advances (size : Nat) : Advances (readLabel size) := by
  intro bs l rest read
  obtain ⟨pre, label, eq⟩ := (readLabel_exact size bs l rest).mp read
  exact length_lt_of_append (label_ne_nil label) eq

theorem readValue_advances (size levels : Nat) : Advances (readValue size levels) := by
  intro bs v rest read
  obtain ⟨pre, item, eq⟩ := (readValue_exact size levels bs v rest).mp read
  exact length_lt_of_append (item_ne_nil item) eq

theorem readEntry_advances {item : Reader Value} (size : Nat) (advances : Advances item) :
    Advances (readEntry size item) := by
  intro bs e rest read
  obtain ⟨⟨l, r⟩, label, read⟩ := bind_eq_ok_iff.mp read
  obtain ⟨⟨v, r'⟩, value, read⟩ := bind_eq_ok_iff.mp read
  obtain ⟨rfl, rfl⟩ := Prod.mk.inj (Except.ok.inj read)
  exact (advances _ _ _ value).trans (readLabel_advances size _ _ _ label)

theorem item_of_readMap {size levels : Nat} {bs rest : Bytes} {m : Map}
    (read : readMap size levels bs = .ok (m, rest)) : ∃ pre, Item levels (.map m) pre ∧ bs = pre ++ rest := by
  cases levels with
  | zero =>
    obtain ⟨⟨count, r⟩, -, read⟩ := bind_eq_ok_iff.mp read
    simp at read
  | succ levels => exact (readMap_exact size levels bs m rest).mp read

theorem readValue_movesOn {size levels position : Nat} {input rest : Bytes} {v : Value}
    (read : readValue size levels (input.drop position) = .ok (v, rest)) : MovesOn input position rest := by
  obtain ⟨pre, item, eq⟩ := (readValue_exact size levels _ v rest).mp read
  exact movesOn_of_append (item_ne_nil item) eq

theorem readMap_movesOn {size levels position : Nat} {input rest : Bytes} {m : Map}
    (read : readMap size levels (input.drop position) = .ok (m, rest)) : MovesOn input position rest := by
  obtain ⟨pre, item, eq⟩ := item_of_readMap read
  exact movesOn_of_append (item_ne_nil item) eq

theorem readValue_nil (size levels : Nat) : readValue size levels [] = .error (.read .item .endOfInput) := by
  cases levels <;> rfl

/-! Heads that promise too much. -/

theorem readMany_count_le {α : Type} {one : Reader α} (advances : Advances one) {n : Nat} {bs rest : Bytes}
    {xs : List α} (read : readMany one n bs = .ok (xs, rest)) : n + rest.length ≤ bs.length := by
  induction n generalizing bs xs with
  | zero =>
    obtain ⟨rfl, rfl⟩ := Prod.mk.inj (Except.ok.inj read)
    omega
  | succ n ih =>
    obtain ⟨⟨x, r⟩, first, read⟩ := bind_eq_ok_iff.mp read
    obtain ⟨⟨ys, r'⟩, others, read⟩ := bind_eq_ok_iff.mp read
    obtain ⟨rfl, rfl⟩ := Prod.mk.inj (Except.ok.inj read)
    have step := advances _ _ _ first
    have steps := ih others
    omega

theorem peek_of_readMapWith {size : Nat} {elements : Option (Reader Value)} {bs rest : Bytes} {m : Map}
    (read : readMapWith size elements bs = .ok (m, rest)) : peekType bs = .ok .map := by
  obtain ⟨⟨count, r⟩, counted, read⟩ := bind_eq_ok_iff.mp read
  cases elements with
  | none => simp at read
  | some one =>
    cases count with
    | none => simp at read
    | some n =>
      obtain ⟨h, head, rfl⟩ := (readMapCount_eq_ok_iff size).mp (during_eq_ok_iff.mp counted)
      exact peek_of_head rfl head r

section

variable {size : Nat} {elements : Option (Reader Value)} (advances : ∀ one ∈ elements, Advances one)

include advances

theorem count_le_of_readArrayWith {n : Nat} {h after rest : Bytes} {items : List Value}
    (head : Head .array n h) (read : readArrayWith elements (h ++ after) = .ok (items, rest)) :
    n ≤ after.length := by
  have announced := (readCount_eq_ok_iff (peek_of_head rfl head after)).mpr ⟨h, head, rfl⟩
  obtain ⟨⟨m, r⟩, counted, read⟩ := bind_eq_ok_iff.mp read
  rw [during_eq_ok_iff, announced] at counted
  obtain ⟨rfl, rfl⟩ := Prod.mk.inj (Except.ok.inj counted)
  cases elements with
  | none => simp at read
  | some one =>
    have := readMany_count_le (advances one rfl) read
    omega

theorem count_le_of_readMapWith {n : Nat} {h after rest : Bytes} {m : Map}
    (head : Head .map n h) (read : readMapWith size elements (h ++ after) = .ok (m, rest)) :
    n ≤ after.length := by
  have announced := (readMapCount_eq_ok_iff size).mpr ⟨h, head, (rfl : h ++ after = h ++ after)⟩
  obtain ⟨⟨count, r⟩, counted, read⟩ := bind_eq_ok_iff.mp read
  rw [during_eq_ok_iff, announced] at counted
  obtain ⟨rfl, rfl⟩ := Prod.mk.inj (Except.ok.inj counted)
  cases elements with
  | none => simp at read
  | some one =>
    obtain ⟨⟨es, r'⟩, many, -⟩ := bind_eq_ok_iff.mp read
    have := readMany_count_le (readEntry_advances size (advances one rfl)) many
    omega

theorem readValueWith_honest {place rest : Bytes} {v : Value}
    (read : readValueWith size elements place = .ok (v, rest)) : ¬ Overstated place := by
  intro excess
  obtain ⟨ty, peek, read⟩ := bind_eq_ok_iff.mp read
  rw [during_eq_ok_iff] at peek
  cases excess with
  | @array n h after head more =>
    rw [peek_of_head rfl head after] at peek
    obtain rfl := Except.ok.inj peek
    obtain ⟨⟨items, r⟩, content, -⟩ := bind_eq_ok_iff.mp read
    have := count_le_of_readArrayWith advances head content
    omega
  | @map n h after head more =>
    rw [peek_of_head rfl head after] at peek
    obtain rfl := Except.ok.inj peek
    obtain ⟨⟨m, r⟩, content, -⟩ := bind_eq_ok_iff.mp read
    have := count_le_of_readMapWith advances head content
    omega

theorem readMapWith_honest {place rest : Bytes} {m : Map}
    (read : readMapWith size elements place = .ok (m, rest)) : ¬ Overstated place := by
  have peek := peek_of_readMapWith read
  have whole : readValueWith size elements place = .ok (.map m, rest) :=
    bind_eq_ok_iff.mpr ⟨.map, during_eq_ok_iff.mpr peek, bind_eq_ok_iff.mpr ⟨_, read, rfl⟩⟩
  exact readValueWith_honest advances whole

end

theorem readLabel_honest {size : Nat} {place rest : Bytes} {l : Label}
    (read : readLabel size place = .ok (l, rest)) : ¬ Overstated place := by
  intro excess
  obtain ⟨ty, peek, read⟩ := bind_eq_ok_iff.mp read
  rw [during_eq_ok_iff] at peek
  cases excess with
  | @array n h after head more =>
    rw [peek_of_head rfl head after] at peek
    obtain rfl := Except.ok.inj peek
    cases read
  | @map n h after head more =>
    rw [peek_of_head rfl head after] at peek
    obtain rfl := Except.ok.inj peek
    cases read

theorem readValue_honest {size levels : Nat} {place rest : Bytes} {v : Value}
    (read : readValue size levels place = .ok (v, rest)) : ¬ Overstated place := by
  cases levels with
  | zero => exact readValueWith_honest (by simp) read
  | succ levels => exact readValueWith_honest (by simpa using readValue_advances size levels) read

theorem readMap_honest {size levels : Nat} {place rest : Bytes} {m : Map}
    (read : readMap size levels place = .ok (m, rest)) : ¬ Overstated place := by
  cases levels with
  | zero =>
    rw [readMap] at read
    exact readMapWith_honest (by simp) read
  | succ levels =>
    rw [readMap] at read
    exact readMapWith_honest (by simpa using readValue_advances size levels) read

end Cbor

end Cose
