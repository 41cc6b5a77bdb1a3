import Cose.Proofs.Map

/-!
# What values in memory satisfy

The maps of a value are in label order, and its lengths and counts are numbers of 64 bits. Both properties
and the bound on the nesting are those of the elements, and a map built by insertions inherits them from its
entries.
-/

set_option autoImplicit false

namespace Cose

def Label.Sized : Label → Prop
  | .int _ => True
  | .text s => (Bytes.ofText s).length < 2 ^ 64

mutual

def Value.Sized : Value → Prop
  | .bytes bs => bs.length < 2 ^ 64
  | .text s => (Bytes.ofText s).length < 2 ^ 64
  | .array items => items.length < 2 ^ 64 ∧ SizedItems items
  | .map entries => entries.length < 2 ^ 64 ∧ SizedEntries entries
  | _ => True

def Value.SizedItems : List Value → Prop
  | [] => True
  | x :: xs => x.Sized ∧ SizedItems xs

def Value.SizedEntries : List (Label × Value) → Prop
  | [] => True
  | (l, x) :: es => l.Sized ∧ x.Sized ∧ SizedEntries es

end

/-- What is promised of every value: the representation of maps, and lengths that memory can hold. -/
structure Value.WellFormed (v : Value) : Prop where
  ordered : v.Ordered
  sized : v.Sized

namespace Value

theorem orderedItems_iff (items : List Value) : OrderedItems items ↔ ∀ x ∈ items, x.Ordered := by
  induction items with
  | nil => simp [OrderedItems]
  | cons x items ih => simp [OrderedItems, ih]

theorem orderedEntries_iff (entries : List (Label × Value)) :
    OrderedEntries entries ↔ ∀ e ∈ entries, e.2.Ordered := by
  induction entries with
  | nil => simp [OrderedEntries]
  | cons e entries ih => simp [OrderedEntries, ih]

theorem sizedItems_iff (items : List Value) : SizedItems items ↔ ∀ x ∈ items, x.Sized := by
  induction items with
  | nil => simp [SizedItems]
  | cons x items ih => simp [SizedItems, ih]

theorem sizedEntries_iff (entries : List (Label × Value)) :
    SizedEntries entries ↔ ∀ e ∈ entries, e.1.Sized ∧ e.2.Sized := by
  induction entries with
  | nil => simp [SizedEntries]
  | cons e entries ih => simp [SizedEntries, ih, and_assoc]

theorem depthItems_le_iff (items : List Value) (d : Nat) :
    depthItems items ≤ d ↔ ∀ x ∈ items, x.depth ≤ d := by
  induction items with
  | nil => simp [depthItems]
  | cons x items ih => simp [depthItems, ih]

theorem depthEntries_le_iff (entries : List (Label × Value)) (d : Nat) :
    depthEntries entries ≤ d ↔ ∀ e ∈ entries, e.2.depth ≤ d := by
  induction entries with
  | nil => simp [depthEntries]
  | cons e entries ih => simp [depthEntries, ih]

theorem wellFormed_array_iff (items : List Value) :
    (array items).WellFormed ↔ items.length < 2 ^ 64 ∧ ∀ x ∈ items, x.WellFormed := by
  constructor
  · rintro ⟨ordered, sized⟩
    rw [Ordered, orderedItems_iff] at ordered
    rw [Sized, sizedItems_iff] at sized
    exact ⟨sized.1, fun x hx => ⟨ordered x hx, sized.2 x hx⟩⟩
  · rintro ⟨length, elements⟩
    constructor
    · rw [Ordered, orderedItems_iff]
      exact fun x hx => (elements x hx).ordered
    · rw [Sized, sizedItems_iff]
      exact ⟨length, fun x hx => (elements x hx).sized⟩

theorem wellFormed_map_iff (m : Map) : (map m).WellFormed ↔
    m.Ascending ∧ m.length < 2 ^ 64 ∧ ∀ e ∈ m, e.1.Sized ∧ e.2.WellFormed := by
  constructor
  · rintro ⟨ordered, sized⟩
    rw [Ordered, orderedEntries_iff] at ordered
    rw [Sized, sizedEntries_iff] at sized
    exact ⟨ordered.1, sized.1, fun e he => ⟨(sized.2 e he).1, ordered.2 e he, (sized.2 e he).2⟩⟩
  · rintro ⟨ascending, length, entries⟩
    constructor
    · rw [Ordered, orderedEntries_iff]
      exact ⟨ascending, fun e he => (entries e he).2.ordered⟩
    · rw [Sized, sizedEntries_iff]
      exact ⟨length, fun e he => ⟨(entries e he).1, (entries e he).2.sized⟩⟩

theorem depth_array_le_iff (items : List Value) (d : Nat) :
    (array items).depth ≤ d + 1 ↔ ∀ x ∈ items, x.depth ≤ d := by
  rw [depth, Nat.add_le_add_iff_right, depthItems_le_iff]

theorem depth_map_le_iff (m : Map) (d : Nat) : (map m).depth ≤ d + 1 ↔ ∀ e ∈ m, e.2.depth ≤ d := by
  rw [depth, Nat.add_le_add_iff_right, depthEntries_le_iff]

end Value

end Cose
