import Cose.Proofs.Cbor.Heads

/-!
# What the readers accept

Every reader of labels and items is exact: it accepts the bytes that the grammar allows, wherever they stand,
and leaves what comes after them. The nesting is what the proof descends on, so the elements of a container
are read by a reader that is exact already.
-/

set_option autoImplicit false

namespace Cose

namespace Cbor

open Result

/-- The reader accepts what the relation describes and nothing else, and leaves what follows. -/
def Exact {α : Type} (one : Reader α) (Written : α → Bytes → Prop) : Prop :=
  ∀ bs x after, one bs = .ok (x, after) ↔ ∃ pre, Written x pre ∧ bs = pre ++ after

@[simp] theorem during_ok {α : Type} (context : Context) (a : α) : during context (.ok a) = .ok a := rfl

@[simp] theorem during_error {α : Type} (context : Context) (fault : Fault) :
    during context (.error fault : Except Fault α) = .error (.read context fault) := rfl

theorem during_eq_ok_iff {α : Type} {context : Context} {r : Except Fault α} {a : α} :
    during context r = .ok a ↔ r = .ok a := by
  cases r <;> simp

theorem readLabel_exact (size : Nat) : Exact (readLabel size) LabelItem := by
  intro bs l after
  constructor
  · intro read
    obtain ⟨ty, peek, read⟩ := bind_eq_ok_iff.mp read
    rw [during_eq_ok_iff] at peek
    split_ifs at read with int text
    · obtain ⟨⟨i, r⟩, found, read⟩ := bind_eq_ok_iff.mp read
      obtain ⟨rfl, rfl⟩ := Prod.mk.inj (Except.ok.inj read)
      obtain ⟨pre, item, eq⟩ := (readInt_eq_ok_iff size peek int).mp (during_eq_ok_iff.mp found)
      exact ⟨pre, .int item, eq⟩
    · obtain ⟨⟨s, r⟩, found, read⟩ := bind_eq_ok_iff.mp read
      obtain ⟨rfl, rfl⟩ := Prod.mk.inj (Except.ok.inj read)
      obtain rfl := text
      obtain ⟨pre, item, eq⟩ := (readText_eq_ok_iff size peek).mp (during_eq_ok_iff.mp found)
      exact ⟨pre, .text item, eq⟩
  · rintro ⟨pre, label, rfl⟩
    cases label with
    | int item =>
      obtain ⟨ty, peek, int⟩ := peek_of_int item after
      have found := (readInt_eq_ok_iff size peek int).mpr ⟨pre, item, rfl⟩
      refine bind_eq_ok_iff.mpr ⟨ty, during_eq_ok_iff.mpr peek, ?_⟩
      rw [if_pos int]
      exact bind_eq_ok_iff.mpr ⟨_, during_eq_ok_iff.mpr found, rfl⟩
    | text item =>
      have peek := peek_of_string rfl item after
      have found := (readText_eq_ok_iff size peek).mpr ⟨pre, item, rfl⟩
      refine bind_eq_ok_iff.mpr ⟨.string, during_eq_ok_iff.mpr peek, ?_⟩
      exact bind_eq_ok_iff.mpr ⟨_, during_eq_ok_iff.mpr found, rfl⟩

/-- Reading in sequence, for any relation on lists that goes element by element. -/
theorem readMany_eq_ok_iff {α : Type} {one : Reader α} {Written : α → Bytes → Prop}
    {Series : List α → Bytes → Prop} (exact_one : Exact one Written)
    (series_nil : ∀ b, Series [] b ↔ b = [])
    (series_cons : ∀ x xs b, Series (x :: xs) b ↔ ∃ p q, Written x p ∧ Series xs q ∧ b = p ++ q)
    (n : Nat) (bs : Bytes) (xs : List α) (after : Bytes) :
    readMany one n bs = .ok (xs, after) ↔
      ∃ pre, xs.length = n ∧ Series xs pre ∧ bs = pre ++ after := by
  induction n generalizing bs xs after with
  | zero =>
    constructor
    · intro read
      obtain ⟨rfl, rfl⟩ := Prod.mk.inj (Except.ok.inj read)
      exact ⟨[], rfl, (series_nil _).mpr rfl, rfl⟩
    · rintro ⟨pre, len, series, rfl⟩
      obtain rfl := List.length_eq_zero_iff.mp len
      obtain rfl := (series_nil pre).mp series
      rfl
  | succ n ih =>
    constructor
    · intro read
      obtain ⟨⟨x, r⟩, first, read⟩ := bind_eq_ok_iff.mp read
      obtain ⟨⟨ys, r'⟩, others, read⟩ := bind_eq_ok_iff.mp read
      obtain ⟨rfl, rfl⟩ := Prod.mk.inj (Except.ok.inj read)
      obtain ⟨p, written, rfl⟩ := (exact_one _ _ _).mp first
      obtain ⟨q, rfl, series, rfl⟩ := (ih _ _ _).mp others
      exact ⟨p ++ q, rfl, (series_cons _ _ _).mpr ⟨p, q, written, series, rfl⟩,
        (List.append_assoc _ _ _).symm⟩
    · rintro ⟨pre, len, series, rfl⟩
      obtain ⟨x, ys, rfl⟩ := List.exists_cons_of_length_eq_add_one len
      obtain ⟨p, q, written, rest, rfl⟩ := (series_cons _ _ _).mp series
      rw [List.append_assoc]
      have first := (exact_one (p ++ (q ++ after)) x (q ++ after)).mpr ⟨p, written, rfl⟩
      have others := (ih (q ++ after) ys after).mpr ⟨q, by simpa using len, rest, rfl⟩
      exact bind_eq_ok_iff.mpr ⟨_, first, bind_eq_ok_iff.mpr ⟨_, others, rfl⟩⟩

def EntryItem (levels : Nat) (e : Label × Value) (b : Bytes) : Prop :=
  ∃ p q, LabelItem e.1 p ∧ Item levels e.2 q ∧ b = p ++ q

theorem readEntry_exact {size levels : Nat} {item : Reader Value} (exact_item : Exact item (Item levels)) :
    Exact (readEntry size item) (EntryItem levels) := by
  intro bs e after
  constructor
  · intro read
    obtain ⟨⟨l, r⟩, label, read⟩ := bind_eq_ok_iff.mp read
    obtain ⟨⟨v, r'⟩, value, read⟩ := bind_eq_ok_iff.mp read
    obtain ⟨rfl, rfl⟩ := Prod.mk.inj (Except.ok.inj read)
    obtain ⟨p, hp, rfl⟩ := (readLabel_exact size _ _ _).mp label
    obtain ⟨q, hq, rfl⟩ := (exact_item _ _ _).mp value
    exact ⟨p ++ q, ⟨p, q, hp, hq, rfl⟩, (List.append_assoc _ _ _).symm⟩
  · rintro ⟨_, ⟨p, q, hp, hq, rfl⟩, rfl⟩
    rw [List.append_assoc]
    have label := (readLabel_exact size (p ++ (q ++ after)) e.1 (q ++ after)).mpr ⟨p, hp, rfl⟩
    have value := (exact_item (q ++ after) e.2 after).mpr ⟨q, hq, rfl⟩
    exact bind_eq_ok_iff.mpr ⟨_, label, bind_eq_ok_iff.mpr ⟨_, value, rfl⟩⟩

theorem items_nil_iff (levels : Nat) (b : Bytes) : Items levels [] b ↔ b = [] := by
  constructor
  · rintro ⟨⟩
    rfl
  · rintro rfl
    exact .nil

theorem items_cons_iff (levels : Nat) (x : Value) (xs : List Value) (b : Bytes) :
    Items levels (x :: xs) b ↔ ∃ p q, Item levels x p ∧ Items levels xs q ∧ b = p ++ q := by
  constructor
  · rintro ⟨⟩
    next p q item rest => exact ⟨p, q, item, rest, rfl⟩
  · rintro ⟨p, q, item, rest, rfl⟩
    exact .cons item rest

theorem entries_nil_iff (levels : Nat) (b : Bytes) : Entries levels [] b ↔ b = [] := by
  constructor
  · rintro ⟨⟩
    rfl
  · rintro rfl
    exact .nil

theorem entries_cons_iff (levels : Nat) (e : Label × Value) (es : List (Label × Value)) (b : Bytes) :
    Entries levels (e :: es) b ↔ ∃ p q, EntryItem levels e p ∧ Entries levels es q ∧ b = p ++ q := by
  constructor
  · rintro ⟨⟩
    next a b body label item rest =>
      exact ⟨a ++ b, body, ⟨a, b, label, item, rfl⟩, rest, (List.append_assoc _ _ _).symm⟩
  · rintro ⟨_, body, ⟨p, q, label, item, rfl⟩, rest, rfl⟩
    rw [List.append_assoc]
    exact .cons label item rest

theorem readMapWith_exact {size levels : Nat} {item : Reader Value} (exact_item : Exact item (Item levels)) :
    Exact (readMapWith size (some item)) (fun m => Item (levels + 1) (.map m)) := by
  have entry : Exact (readEntry size item) (EntryItem levels) := readEntry_exact exact_item
  have entries := readMany_eq_ok_iff entry (entries_nil_iff levels) (entries_cons_iff levels)
  intro bs m after
  constructor
  · intro read
    obtain ⟨⟨count, r⟩, counted, read⟩ := bind_eq_ok_iff.mp read
    cases count with
    | none => simp at read
    | some n =>
      obtain ⟨⟨es, r'⟩, many, read⟩ := bind_eq_ok_iff.mp read
      obtain ⟨rfl, rfl⟩ := Prod.mk.inj (Except.ok.inj read)
      obtain ⟨h, head, rfl⟩ := (readMapCount_eq_ok_iff size).mp (during_eq_ok_iff.mp counted)
      obtain ⟨body, rfl, content, rfl⟩ := (entries _ _ _ _).mp many
      have last := (Map.lastWins_iff es (Map.ofList es)).mpr rfl
      exact ⟨h ++ body, .map head content last, (List.append_assoc _ _ _).symm⟩
  · rintro ⟨_, item, rfl⟩
    obtain ⟨inner, es, h, body, same, head, content, last, rfl⟩ := item_map_inv item
    obtain rfl := Nat.succ.inj same
    obtain rfl := (Map.lastWins_iff es m).mp last
    rw [List.append_assoc]
    have counted : readMapCount size (h ++ (body ++ after)) = .ok (some es.length, body ++ after) :=
      (readMapCount_eq_ok_iff size).mpr ⟨h, head, rfl⟩
    have many := (entries es.length (body ++ after) es after).mpr ⟨body, rfl, content, rfl⟩
    refine bind_eq_ok_iff.mpr ⟨_, during_eq_ok_iff.mpr counted, ?_⟩
    exact bind_eq_ok_iff.mpr ⟨_, many, rfl⟩

theorem readArrayWith_eq_ok_iff {levels : Nat} {item : Reader Value} (exact_item : Exact item (Item levels))
    {bs after : Bytes} (peek : peekType bs = .ok .array) {items : List Value} :
    readArrayWith (some item) bs = .ok (items, after) ↔
      ∃ pre, Item (levels + 1) (.array items) pre ∧ bs = pre ++ after := by
  have elements := readMany_eq_ok_iff exact_item (items_nil_iff levels) (items_cons_iff levels)
  constructor
  · intro read
    obtain ⟨⟨n, r⟩, counted, many⟩ := bind_eq_ok_iff.mp read
    obtain ⟨h, head, eq⟩ := (readCount_eq_ok_iff peek).mp (during_eq_ok_iff.mp counted)
    obtain ⟨body, rfl, content, rfl⟩ := (elements _ _ _ _).mp many
    exact ⟨h ++ body, .array head content, by rw [eq, List.append_assoc]⟩
  · rintro ⟨_, item, eq⟩
    obtain ⟨inner, h, body, same, head, content, rfl⟩ := item_array_inv item
    obtain rfl := Nat.succ.inj same
    rw [List.append_assoc] at eq
    have counted := (readCount_eq_ok_iff peek).mpr ⟨h, head, eq⟩
    have many := (elements items.length (body ++ after) items after).mpr ⟨body, rfl, content, rfl⟩
    exact bind_eq_ok_iff.mpr ⟨_, during_eq_ok_iff.mpr counted, many⟩

/-! An item is read exactly if the containers in it are; the others never look at the levels. -/

section

variable {size levels : Nat} {elements : Option (Reader Value)}
  (exact_array : ∀ {bs after items}, peekType bs = .ok .array →
    (readArrayWith elements bs = .ok (items, after) ↔
      ∃ pre, Item levels (.array items) pre ∧ bs = pre ++ after))
  (exact_map : Exact (readMapWith size elements) (fun m => Item levels (.map m)))

include exact_array exact_map

theorem item_of_readValueWith {bs after : Bytes} {v : Value}
    (read : readValueWith size elements bs = .ok (v, after)) :
    ∃ pre, Item levels v pre ∧ bs = pre ++ after := by
  obtain ⟨ty, peek, read⟩ := bind_eq_ok_iff.mp read
  rw [during_eq_ok_iff] at peek
  split_ifs at read with int
  · obtain ⟨⟨i, r⟩, found, read⟩ := bind_eq_ok_iff.mp read
    obtain ⟨rfl, rfl⟩ := Prod.mk.inj (Except.ok.inj read)
    obtain ⟨pre, item, eq⟩ := (readInt_eq_ok_iff size peek int).mp (during_eq_ok_iff.mp found)
    exact ⟨pre, .scalar (.int item), eq⟩
  · split at read
    · obtain ⟨⟨content, r⟩, found, read⟩ := bind_eq_ok_iff.mp read
      obtain ⟨rfl, rfl⟩ := Prod.mk.inj (Except.ok.inj read)
      have typed : Major.bytes.itemType? = some .bytes := rfl
      obtain ⟨pre, item, eq⟩ := (readString_eq_ok_iff typed peek).mp (during_eq_ok_iff.mp found)
      exact ⟨pre, .scalar (.bytes item), eq⟩
    · obtain ⟨⟨s, r⟩, found, read⟩ := bind_eq_ok_iff.mp read
      obtain ⟨rfl, rfl⟩ := Prod.mk.inj (Except.ok.inj read)
      obtain ⟨pre, item, eq⟩ := (readText_eq_ok_iff size peek).mp (during_eq_ok_iff.mp found)
      exact ⟨pre, .scalar (.text item), eq⟩
    · obtain ⟨b, rest, rfl, describes⟩ := peekType_eq_ok peek
      obtain ⟨rfl, rfl⟩ := Prod.mk.inj (Except.ok.inj read)
      rcases describes.bool.mp rfl with rfl | rfl
      · exact ⟨[0xf4], .scalar .false, rfl⟩
      · exact ⟨[0xf5], .scalar .true, rfl⟩
    · obtain ⟨b, rest, rfl, describes⟩ := peekType_eq_ok peek
      obtain ⟨rfl, rfl⟩ := Prod.mk.inj (Except.ok.inj read)
      obtain rfl := describes.null.mp rfl
      exact ⟨[0xf6], .scalar .null, rfl⟩
    · obtain ⟨⟨items, r⟩, found, read⟩ := bind_eq_ok_iff.mp read
      obtain ⟨rfl, rfl⟩ := Prod.mk.inj (Except.ok.inj read)
      exact (exact_array peek).mp found
    · obtain ⟨⟨m, r⟩, found, read⟩ := bind_eq_ok_iff.mp read
      obtain ⟨rfl, rfl⟩ := Prod.mk.inj (Except.ok.inj read)
      exact (exact_map _ _ _).mp found
    · simp at read

theorem readValueWith_of_item {v : Value} {pre : Bytes} (item : Item levels v pre) (after : Bytes) :
    readValueWith size elements (pre ++ after) = .ok (v, after) := by
  cases v with
  | int i =>
    obtain ⟨⟨item⟩⟩ := item
    obtain ⟨ty, peek, int⟩ := peek_of_int item after
    have found := (readInt_eq_ok_iff size peek int).mpr ⟨pre, item, rfl⟩
    refine bind_eq_ok_iff.mpr ⟨ty, during_eq_ok_iff.mpr peek, ?_⟩
    rw [if_pos int]
    exact bind_eq_ok_iff.mpr ⟨_, during_eq_ok_iff.mpr found, rfl⟩
  | bytes content =>
    have written := item_bytes_inv item
    have peek := peek_of_string rfl written after
    have found := (readString_eq_ok_iff rfl peek).mpr ⟨pre, written, rfl⟩
    refine bind_eq_ok_iff.mpr ⟨.bytes, during_eq_ok_iff.mpr peek, ?_⟩
    exact bind_eq_ok_iff.mpr ⟨_, during_eq_ok_iff.mpr found, rfl⟩
  | text s =>
    have written := item_text_inv item
    have peek := peek_of_string rfl written after
    have found := (readText_eq_ok_iff size peek).mpr ⟨pre, written, rfl⟩
    refine bind_eq_ok_iff.mpr ⟨.string, during_eq_ok_iff.mpr peek, ?_⟩
    exact bind_eq_ok_iff.mpr ⟨_, during_eq_ok_iff.mpr found, rfl⟩
  | array items =>
    obtain ⟨inner, h, body, -, head, -, rfl⟩ := item_array_inv item
    have peek : peekType (h ++ (body ++ after)) = .ok .array := peek_of_head rfl head (body ++ after)
    rw [← List.append_assoc] at peek
    have found := (exact_array peek).mpr ⟨_, item, rfl⟩
    refine bind_eq_ok_iff.mpr ⟨.array, during_eq_ok_iff.mpr peek, ?_⟩
    exact bind_eq_ok_iff.mpr ⟨_, found, rfl⟩
  | map m =>
    obtain ⟨inner, es, h, body, -, head, -, -, rfl⟩ := item_map_inv item
    have peek : peekType (h ++ (body ++ after)) = .ok .map := peek_of_head rfl head (body ++ after)
    rw [← List.append_assoc] at peek
    have found := (exact_map (h ++ body ++ after) m after).mpr ⟨_, item, rfl⟩
    refine bind_eq_ok_iff.mpr ⟨.map, during_eq_ok_iff.mpr peek, ?_⟩
    exact bind_eq_ok_iff.mpr ⟨_, found, rfl⟩
  | bool b =>
    obtain ⟨⟨⟩⟩ := item <;> rfl
  | null =>
    obtain ⟨⟨⟩⟩ := item
    rfl

theorem readValueWith_exact : Exact (readValueWith size elements) (Item levels) := by
  intro bs v after
  constructor
  · exact item_of_readValueWith exact_array exact_map
  · rintro ⟨pre, item, rfl⟩
    exact readValueWith_of_item exact_array exact_map item after

end

theorem readValueWith_none_exact (size : Nat) : Exact (readValueWith size none) (Item 0) := by
  apply readValueWith_exact
  · intro bs after items peek
    constructor
    · intro read
      obtain ⟨⟨n, r⟩, -, read⟩ := bind_eq_ok_iff.mp read
      simp at read
    · rintro ⟨pre, item, -⟩
      obtain ⟨inner, _, _, impossible, -⟩ := item_array_inv item
      exact absurd impossible (Nat.succ_ne_zero inner).symm
  · intro bs m after
    constructor
    · intro read
      obtain ⟨⟨n, r⟩, -, read⟩ := bind_eq_ok_iff.mp read
      simp at read
    · rintro ⟨pre, item, -⟩
      obtain ⟨inner, _, _, _, impossible, -⟩ := item_map_inv item
      exact absurd impossible (Nat.succ_ne_zero inner).symm

theorem readValue_exact (size levels : Nat) : Exact (readValue size levels) (Item levels) := by
  induction levels with
  | zero => exact readValueWith_none_exact size
  | succ levels ih =>
    exact readValueWith_exact (fun peek => readArrayWith_eq_ok_iff ih peek) (readMapWith_exact ih)

theorem readMap_exact (size levels : Nat) :
    Exact (readMap size (levels + 1)) (fun m => Item (levels + 1) (.map m)) :=
  readMapWith_exact (readValue_exact size levels)

end Cbor

end Cose
