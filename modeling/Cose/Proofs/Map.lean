import Mathlib.Data.List.Sort
import Cose.Cbor.Map
import Cose.Proofs.Bytes

/-!
# Maps as functions of their labels

The labels are linearly ordered, so a map in label order is determined by the values that it holds. A map
built by insertions is in label order and holds the last value of each label. Whatever entries are measured by,
it is no larger than all that was inserted.
-/

set_option autoImplicit false

namespace Cose

namespace Label

theorem lt_irrefl (a : Label) : ¬ a < a := by
  cases a with
  | int i => exact Int64.lt_irrefl
  | text s => exact List.lt_irrefl (Bytes.ofText s)

theorem lt_trans {a b c : Label} (hab : a < b) (hbc : b < c) : a < c := by
  cases a <;> cases b <;> cases c
  case int.int.int => exact Int64.lt_trans hab hbc
  case text.text.text => exact List.lt_trans (α := UInt8) hab hbc
  case int.int.text => trivial
  case int.text.text => trivial
  all_goals first | exact hab.elim | exact hbc.elim

theorem lt_trichotomy (a b : Label) : a < b ∨ a = b ∨ b < a := by
  cases a with
  | int i =>
    cases b with
    | int j =>
      have h : i < j ∨ i = j ∨ j < i := by
        simp only [Int64.lt_iff_toInt_lt, ← Int64.toInt_inj]
        omega
      rcases h with h | h | h
      · exact Or.inl h
      · exact Or.inr (Or.inl (congrArg int h))
      · exact Or.inr (Or.inr h)
    | text t => exact Or.inl trivial
  | text s =>
    cases b with
    | int j => exact Or.inr (Or.inr trivial)
    | text t =>
      by_cases hst : Bytes.ofText s < Bytes.ofText t
      · exact Or.inl hst
      · rcases List.le_iff_lt_or_eq.mp (List.not_lt.mp hst) with hts | hts
        · exact Or.inr (Or.inr hts)
        · exact Or.inr (Or.inl (congrArg text (Bytes.ofText_injective hts.symm)))

theorem ne_of_lt {a b : Label} (h : a < b) : a ≠ b := by
  rintro rfl
  exact lt_irrefl a h

end Label

-- Written out, so that the zero in it does not depend on the algebra that a module imports.
def total {α : Type} (measure : α → Nat) : List α → Nat
  | [] => 0
  | x :: xs => measure x + total measure xs

theorem total_one {α : Type} (xs : List α) : total (fun _ => 1) xs = xs.length := by
  induction xs with
  | nil => rfl
  | cons x xs ih => rw [total, ih, List.length_cons, Nat.add_comm]

namespace Map

theorem lookup_cons (k l : Label) (x : Value) (entries : List (Label × Value)) :
    ((k, x) :: entries).lookup l = if l = k then some x else entries.lookup l := by
  by_cases h : l = k
  · simp [h]
  · have hb : (l == k) = false := beq_false_of_ne h
    simp [List.lookup_cons, hb, h]

theorem get?_cons (k l : Label) (x : Value) (m : Map) :
    Map.get? ((k, x) :: m) l = if l = k then some x else Map.get? m l :=
  lookup_cons k l x m

theorem mem_insert {m : Map} {l : Label} {v : Value} {e : Label × Value} (he : e ∈ m.insert l v) :
    e = (l, v) ∨ e ∈ m := by
  induction m with
  | nil => simpa [insert] using he
  | cons head m ih =>
    obtain ⟨k, x⟩ := head
    rw [insert] at he
    split_ifs at he with hlt heq
    · exact List.mem_cons.mp he
    · rcases List.mem_cons.mp he with h | h
      · exact Or.inl h
      · exact Or.inr (List.mem_cons_of_mem _ h)
    · rcases List.mem_cons.mp he with h | h
      · exact Or.inr (h ▸ List.mem_cons_self)
      · exact (ih h).imp_right (List.mem_cons_of_mem _)

theorem get?_insert (m : Map) (l k : Label) (v : Value) :
    (m.insert l v).get? k = if k = l then some v else m.get? k := by
  induction m with
  | nil => simp [insert, get?_cons]
  | cons head m ih =>
    obtain ⟨j, x⟩ := head
    rw [insert]
    split_ifs with hlj heq <;> grind [get?_cons]

theorem ascending_insert {m : Map} (hm : m.Ascending) (l : Label) (v : Value) :
    (m.insert l v).Ascending := by
  induction m with
  | nil => simp [insert, Ascending]
  | cons head m ih =>
    obtain ⟨k, x⟩ := head
    obtain ⟨hk, hm'⟩ := List.pairwise_cons.mp hm
    rw [insert]
    split_ifs with hlt heq
    · refine List.pairwise_cons.mpr ⟨?_, hm⟩
      intro e he
      rcases List.mem_cons.mp he with rfl | he
      · exact hlt
      · exact Label.lt_trans hlt (hk e he)
    · subst heq
      exact List.pairwise_cons.mpr ⟨hk, hm'⟩
    · refine List.pairwise_cons.mpr ⟨?_, ih hm'⟩
      intro e he
      rcases mem_insert he with rfl | he
      · rcases Label.lt_trichotomy l k with h | h | h
        · exact absurd h hlt
        · exact absurd h heq
        · exact h
      · exact hk e he

theorem ascending_insertAll {m : Map} (hm : m.Ascending) (entries : List (Label × Value)) :
    (m.insertAll entries).Ascending := by
  induction entries generalizing m with
  | nil => exact hm
  | cons e entries ih => exact ih (ascending_insert hm e.1 e.2)

theorem ascending_ofList (entries : List (Label × Value)) : (ofList entries).Ascending :=
  ascending_insertAll List.Pairwise.nil entries

theorem mem_insertAll {m : Map} {entries : List (Label × Value)} {e : Label × Value}
    (he : e ∈ m.insertAll entries) : e ∈ m ∨ e ∈ entries := by
  induction entries generalizing m with
  | nil => exact Or.inl he
  | cons f entries ih =>
    rcases ih he with h | h
    · rcases mem_insert h with rfl | h
      · exact Or.inr List.mem_cons_self
      · exact Or.inl h
    · exact Or.inr (List.mem_cons_of_mem _ h)

section

variable (weight : Label × Value → Nat)

/-- An insertion adds at most the entry that is inserted, whatever the entries are measured by. -/
theorem total_insert_le (m : Map) (l : Label) (v : Value) :
    total weight (m.insert l v) ≤ total weight m + weight (l, v) := by
  induction m with
  | nil => simp [insert, total]
  | cons e m ih =>
    obtain ⟨k, x⟩ := e
    rw [insert]
    split_ifs <;> simp only [total] <;> omega

theorem total_insertAll_le (m : Map) (entries : List (Label × Value)) :
    total weight (m.insertAll entries) ≤ total weight m + total weight entries := by
  induction entries generalizing m with
  | nil => exact Nat.le_refl _
  | cons e entries ih =>
    obtain ⟨l, v⟩ := e
    have step := total_insert_le weight m l v
    have rest := ih (m.insert l v)
    change total weight ((m.insert l v).insertAll entries) ≤ _
    rw [total]
    omega

theorem total_ofList_le (entries : List (Label × Value)) :
    total weight (ofList entries) ≤ total weight entries := by
  simpa [ofList, total] using total_insertAll_le weight [] entries

end

theorem mem_ofList {entries : List (Label × Value)} {e : Label × Value} (he : e ∈ ofList entries) :
    e ∈ entries := by
  simpa using mem_insertAll he

theorem get?_insertAll (m : Map) (entries : List (Label × Value)) (l : Label) :
    (m.insertAll entries).get? l = (entries.reverse.lookup l).or (m.get? l) := by
  induction entries generalizing m with
  | nil => simp [insertAll]
  | cons e entries ih =>
    change ((m.insert e.1 e.2).insertAll entries).get? l = _
    rw [ih, get?_insert, List.reverse_cons, List.lookup_append, lookup_cons e.1 l e.2]
    by_cases h : l = e.1 <;> simp [h]

theorem get?_ofList (entries : List (Label × Value)) (l : Label) :
    (ofList entries).get? l = entries.reverse.lookup l := by
  rw [ofList, get?_insertAll]
  simp [get?]

theorem lookup_eq_some_iff {entries : List (Label × Value)} {l : Label} {v : Value}
    (distinct : entries.Pairwise (fun e f => e.1 ≠ f.1)) :
    entries.lookup l = some v ↔ (l, v) ∈ entries := by
  induction entries with
  | nil => simp
  | cons e entries ih =>
    obtain ⟨k, x⟩ := e
    obtain ⟨hk, hd⟩ := List.pairwise_cons.mp distinct
    rw [lookup_cons]
    by_cases h : l = k
    · subst h
      have absent : (l, v) ∉ entries := fun hv => hk _ hv rfl
      simp [absent, eq_comm]
    · simp [h, ih hd]

theorem distinct_of_ascending {m : Map} (hm : m.Ascending) : m.Pairwise (fun e f => e.1 ≠ f.1) :=
  hm.imp Label.ne_of_lt

theorem get?_eq_some_iff {m : Map} (hm : m.Ascending) {l : Label} {v : Value} :
    m.get? l = some v ↔ (l, v) ∈ m :=
  lookup_eq_some_iff (distinct_of_ascending hm)

theorem ascending_ext {m n : Map} (hm : m.Ascending) (hn : n.Ascending)
    (same : ∀ l, m.get? l = n.get? l) : m = n := by
  have irrefl : Std.Irrefl (fun e f : Label × Value => e.1 < f.1) := ⟨fun e => Label.lt_irrefl e.1⟩
  have antisymm : Std.Antisymm (fun e f : Label × Value => e.1 < f.1) :=
    ⟨fun e f hef hfe => absurd (Label.lt_trans hef hfe) (Label.lt_irrefl e.1)⟩
  apply List.Pairwise.eq_of_mem_iff hm hn
  intro e
  rw [← get?_eq_some_iff hm, ← get?_eq_some_iff hn, same]

/-- The map that a series of entries denotes: of equal labels the last one wins. -/
def LastWins (entries : List (Label × Value)) (m : Map) : Prop :=
  m.Ascending ∧ ∀ l, m.get? l = entries.reverse.lookup l

theorem lastWins_iff (entries : List (Label × Value)) (m : Map) :
    LastWins entries m ↔ m = ofList entries := by
  constructor
  · intro h
    exact ascending_ext h.1 (ascending_ofList entries) (fun l => (h.2 l).trans (get?_ofList entries l).symm)
  · rintro rfl
    exact ⟨ascending_ofList entries, get?_ofList entries⟩

theorem LastWins.mem {entries : List (Label × Value)} {m : Map} (last : LastWins entries m) :
    ∀ e ∈ m, e ∈ entries := by
  rw [lastWins_iff] at last
  subst last
  intro e he
  exact mem_ofList he

theorem LastWins.total_le {entries : List (Label × Value)} {m : Map} (last : LastWins entries m)
    (weight : Label × Value → Nat) : total weight m ≤ total weight entries := by
  rw [lastWins_iff] at last
  rw [last]
  exact total_ofList_le weight entries

theorem LastWins.length_le {entries : List (Label × Value)} {m : Map} (last : LastWins entries m) :
    m.length ≤ entries.length := by
  simpa only [total_one] using last.total_le fun _ => 1

theorem lastWins_self {m : Map} (hm : m.Ascending) : LastWins m m := by
  refine ⟨hm, fun l => ?_⟩
  have distinct := distinct_of_ascending hm
  have reversed : m.reverse.Pairwise (fun e f => e.1 ≠ f.1) :=
    List.pairwise_reverse.mpr (distinct.imp Ne.symm)
  apply Option.ext
  intro v
  rw [get?, lookup_eq_some_iff distinct, lookup_eq_some_iff reversed, List.mem_reverse]

end Map

end Cose
