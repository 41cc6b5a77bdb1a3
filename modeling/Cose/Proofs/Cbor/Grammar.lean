import Cose.Cbor.Encoder
import Cose.Proofs.Value

/-!
# The grammar of accepted items

Which byte strings stand for a value: heads may be wider than they need to be, lengths are definite, and of
equal labels in a map the last one counts. A value has many written forms; this module relates them to the
value without saying how they are read or written.
-/

set_option autoImplicit false

namespace Cose

namespace Cbor

/-- The argument of a head stands in the initial byte or in the one, two, four or eight bytes after it. -/
inductive Head (major : Major) (n : Nat) : Bytes → Prop
  | short (small : n < 24) : Head major n [major.code + UInt8.ofNat n]
  | long (k : Nat) (width : k < 4) (fits : n < 256 ^ 2 ^ k) :
      Head major n ((major.code + UInt8.ofNat (24 + k)) :: Bytes.ofNat (2 ^ k) n)

inductive IntItem (i : Int64) : Bytes → Prop
  | unsigned {n : Nat} {h : Bytes} (head : Head .unsigned n h) (value : i.toInt = n) : IntItem i h
  | negative {n : Nat} {h : Bytes} (head : Head .negative n h) (value : i.toInt = -1 - n) : IntItem i h

inductive StringItem (major : Major) (content : Bytes) : Bytes → Prop
  | mk {h : Bytes} (head : Head major content.length h) : StringItem major content (h ++ content)

inductive LabelItem : Label → Bytes → Prop
  | int {i : Int64} {b : Bytes} (item : IntItem i b) : LabelItem (.int i) b
  | text {s : String} {b : Bytes} (item : StringItem .text (Bytes.ofText s) b) : LabelItem (.text s) b

inductive ScalarItem : Value → Bytes → Prop
  | int {i : Int64} {b : Bytes} (item : IntItem i b) : ScalarItem (.int i) b
  | bytes {content b : Bytes} (item : StringItem .bytes content b) : ScalarItem (.bytes content) b
  | text {s : String} {b : Bytes} (item : StringItem .text (Bytes.ofText s) b) : ScalarItem (.text s) b
  | false : ScalarItem (.bool false) [0xf4]
  | true : ScalarItem (.bool true) [0xf5]
  | null : ScalarItem .null [0xf6]

mutual

/-- The bytes of one item in which at most `levels` arrays and maps stand inside one another. The entries of
a map that a later one replaces count as well. -/
inductive Item : Nat → Value → Bytes → Prop
  | scalar {levels : Nat} {v : Value} {b : Bytes} (item : ScalarItem v b) : Item levels v b
  | array {levels : Nat} {items : List Value} {h body : Bytes} (head : Head .array items.length h)
      (content : Items levels items body) : Item (levels + 1) (.array items) (h ++ body)
  | map {levels : Nat} {entries : List (Label × Value)} {m : Map} {h body : Bytes}
      (head : Head .map entries.length h) (content : Entries levels entries body)
      (last : Map.LastWins entries m) : Item (levels + 1) (.map m) (h ++ body)

inductive Items : Nat → List Value → Bytes → Prop
  | nil {levels : Nat} : Items levels [] []
  | cons {levels : Nat} {x : Value} {xs : List Value} {b body : Bytes} (item : Item levels x b)
      (rest : Items levels xs body) : Items levels (x :: xs) (b ++ body)

inductive Entries : Nat → List (Label × Value) → Bytes → Prop
  | nil {levels : Nat} : Entries levels [] []
  | cons {levels : Nat} {l : Label} {x : Value} {es : List (Label × Value)} {a b body : Bytes}
      (label : LabelItem l a) (item : Item levels x b) (rest : Entries levels es body) :
      Entries levels ((l, x) :: es) (a ++ (b ++ body))

end

theorem head_ne_nil {major : Major} {n : Nat} {h : Bytes} (head : Head major n h) : h ≠ [] := by
  cases head <;> simp

theorem int_ne_nil {i : Int64} {b : Bytes} (item : IntItem i b) : b ≠ [] := by
  cases item with
  | unsigned head => exact head_ne_nil head
  | negative head => exact head_ne_nil head

theorem string_ne_nil {major : Major} {content b : Bytes} (item : StringItem major content b) : b ≠ [] := by
  obtain ⟨head⟩ := item
  exact List.append_ne_nil_of_left_ne_nil (head_ne_nil head) content

theorem label_ne_nil {l : Label} {b : Bytes} (label : LabelItem l b) : b ≠ [] := by
  cases label with
  | int item => exact int_ne_nil item
  | text item => exact string_ne_nil item

theorem scalar_ne_nil {v : Value} {b : Bytes} (item : ScalarItem v b) : b ≠ [] := by
  cases item with
  | int item => exact int_ne_nil item
  | bytes item => exact string_ne_nil item
  | text item => exact string_ne_nil item
  | _ => exact List.cons_ne_nil _ _

theorem item_ne_nil {levels : Nat} {v : Value} {b : Bytes} (item : Item levels v b) : b ≠ [] := by
  cases item with
  | scalar item => exact scalar_ne_nil item
  | array head content => exact List.append_ne_nil_of_left_ne_nil (head_ne_nil head) _
  | map head content last => exact List.append_ne_nil_of_left_ne_nil (head_ne_nil head) _

theorem head_lt {major : Major} {n : Nat} {h : Bytes} (head : Head major n h) : n < 2 ^ 64 := by
  cases head with
  | short small => omega
  | long k width fits =>
    have widest : (256 : Nat) ^ 2 ^ k ≤ 256 ^ 2 ^ 3 :=
      Nat.pow_le_pow_right (by decide) (Nat.pow_le_pow_right (by decide) (by omega))
    have : (256 : Nat) ^ 2 ^ 3 = 2 ^ 64 := by decide
    omega

theorem string_lt {major : Major} {content b : Bytes} (item : StringItem major content b) :
    content.length < 2 ^ 64 := by
  obtain ⟨head⟩ := item
  exact head_lt head

theorem label_sized {l : Label} {b : Bytes} (label : LabelItem l b) : l.Sized := by
  cases label with
  | int item => trivial
  | text item => exact string_lt item

theorem items_mem {levels : Nat} {items : List Value} {body : Bytes} (content : Items levels items body) :
    ∀ x ∈ items, ∃ b, Item levels x b := by
  induction items generalizing body with
  | nil => simp
  | cons y items ih =>
    cases content with
    | cons item rest =>
      intro x hx
      rcases List.mem_cons.mp hx with rfl | hx
      · exact ⟨_, item⟩
      · exact ih rest x hx

theorem entries_mem {levels : Nat} {entries : List (Label × Value)} {body : Bytes}
    (content : Entries levels entries body) :
    ∀ e ∈ entries, (∃ a, LabelItem e.1 a) ∧ ∃ b, Item levels e.2 b := by
  induction entries generalizing body with
  | nil => simp
  | cons f entries ih =>
    cases content with
    | cons label item rest =>
      intro e he
      rcases List.mem_cons.mp he with rfl | he
      · exact ⟨⟨_, label⟩, ⟨_, item⟩⟩
      · exact ih rest e he

theorem items_imp {levels more : Nat} (up : ∀ {x : Value} {b : Bytes}, Item levels x b → Item more x b)
    {items : List Value} {body : Bytes} (content : Items levels items body) : Items more items body := by
  induction items generalizing body with
  | nil =>
    cases content
    exact .nil
  | cons x items ih =>
    cases content with
    | cons item rest => exact .cons (up item) (ih rest)

theorem entries_imp {levels more : Nat} (up : ∀ {x : Value} {b : Bytes}, Item levels x b → Item more x b)
    {entries : List (Label × Value)} {body : Bytes} (content : Entries levels entries body) :
    Entries more entries body := by
  induction entries generalizing body with
  | nil =>
    cases content
    exact .nil
  | cons e entries ih =>
    cases content with
    | cons label item rest => exact .cons label (up item) (ih rest)

theorem item_bytes_inv {levels : Nat} {content b : Bytes} (item : Item levels (.bytes content) b) :
    StringItem .bytes content b := by
  cases item with
  | scalar item =>
    cases item with
    | bytes item => exact item

theorem item_text_inv {levels : Nat} {s : String} {b : Bytes} (item : Item levels (.text s) b) :
    StringItem .text (Bytes.ofText s) b := by
  cases item with
  | scalar item =>
    cases item with
    | text item => exact item

theorem item_array_inv {levels : Nat} {items : List Value} {b : Bytes} (item : Item levels (.array items) b) :
    ∃ inner h body, levels = inner + 1 ∧ Head .array items.length h ∧ Items inner items body ∧
      b = h ++ body := by
  cases item with
  | scalar item => cases item
  | array head content => exact ⟨_, _, _, rfl, head, content, rfl⟩

theorem item_map_inv {levels : Nat} {m : Map} {b : Bytes} (item : Item levels (.map m) b) :
    ∃ inner es h body, levels = inner + 1 ∧ Head .map es.length h ∧ Entries inner es body ∧
      Map.LastWins es m ∧ b = h ++ body := by
  cases item with
  | scalar item => cases item
  | map head content last => exact ⟨_, _, _, _, rfl, head, content, last, rfl⟩

theorem scalar_wellFormed {v : Value} {b : Bytes} (item : ScalarItem v b) : v.WellFormed := by
  cases item with
  | bytes item => exact ⟨trivial, string_lt item⟩
  | text item => exact ⟨trivial, string_lt item⟩
  | _ => exact ⟨trivial, trivial⟩

theorem scalar_depth {v : Value} {b : Bytes} (item : ScalarItem v b) : v.depth = 0 := by
  cases item <;> rfl

/-- Whatever an item stands for could be a value in memory. -/
theorem item_wellFormed {levels : Nat} {v : Value} {b : Bytes} (item : Item levels v b) :
    v.WellFormed := by
  induction levels generalizing v b with
  | zero =>
    cases item with
    | scalar item => exact scalar_wellFormed item
  | succ levels ih =>
    cases item with
    | scalar item => exact scalar_wellFormed item
    | array head content =>
      refine (Value.wellFormed_array_iff _).mpr ⟨head_lt head, fun x hx => ?_⟩
      obtain ⟨b, item⟩ := items_mem content x hx
      exact ih item
    | map head content last =>
      have length := Nat.lt_of_le_of_lt last.length_le (head_lt head)
      refine (Value.wellFormed_map_iff _).mpr ⟨last.1, length, fun e he => ?_⟩
      obtain ⟨⟨a, label⟩, b, item⟩ := entries_mem content e (last.mem e he)
      exact ⟨label_sized label, ih item⟩

theorem item_depth_le {levels : Nat} {v : Value} {b : Bytes} (item : Item levels v b) :
    v.depth ≤ levels := by
  induction levels generalizing v b with
  | zero =>
    cases item with
    | scalar item => exact Nat.le_of_eq (scalar_depth item)
  | succ levels ih =>
    cases item with
    | scalar item =>
      rw [scalar_depth item]
      exact Nat.zero_le _
    | array head content =>
      rw [Value.depth_array_le_iff]
      intro x hx
      obtain ⟨b, item⟩ := items_mem content x hx
      exact ih item
    | map head content last =>
      rw [Value.depth_map_le_iff]
      intro e he
      obtain ⟨-, b, item⟩ := entries_mem content e (last.mem e he)
      exact ih item

theorem item_mono {levels more : Nat} {v : Value} {b : Bytes} (item : Item levels v b)
    (h : levels ≤ more) : Item more v b := by
  induction levels generalizing more v b with
  | zero =>
    cases item with
    | scalar item => exact .scalar item
  | succ levels ih =>
    obtain ⟨more, rfl⟩ : ∃ k, more = k + 1 := ⟨more - 1, by omega⟩
    have up {x : Value} {b : Bytes} (item : Item levels x b) : Item more x b := ih item (by omega)
    cases item with
    | scalar item => exact .scalar item
    | array head content => exact .array head (items_imp up content)
    | map head content last => exact .map head (entries_imp up content) last

end Cbor

end Cose
