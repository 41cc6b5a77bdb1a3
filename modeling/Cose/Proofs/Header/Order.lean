import Cose.Proofs.Header.Editing

/-!
# The order of insertions

A header that is built by insertions does not remember how it was built. What counts is which value each label
was given last; the labels are brought into order and the bytes of a received header are let go of on the way. So
two signers who fill in the same header in different ways sign the same bytes.
-/

set_option autoImplicit false

namespace Cose

open Cbor

namespace Map

/-- The value that a label was given last; `none` for a label that was not given any. -/
def lastGiven? (entries : List (Label × Value)) (l : Label) : Option Value := entries.reverse.lookup l

theorem exists_lastGiven? {entries : List (Label × Value)} (nonempty : entries ≠ []) :
    ∃ l v, lastGiven? entries l = some v := by
  obtain ⟨e, earlier, reversed⟩ := List.exists_cons_of_ne_nil (List.reverse_ne_nil_iff.mpr nonempty)
  exact ⟨e.1, e.2, by simp [lastGiven?, reversed, lookup_cons e.1]⟩

theorem ne_nil_of_lastGiven? {es fs : List (Label × Value)} (nonempty : es ≠ [])
    (last : ∀ l, lastGiven? es l = lastGiven? fs l) : fs ≠ [] := by
  intro empty
  obtain ⟨l, v, given⟩ := exists_lastGiven? nonempty
  rw [last, empty] at given
  exact absurd given (Option.some_ne_none v).symm

theorem insertAll_ne_nil (m : Map) {entries : List (Label × Value)} (nonempty : entries ≠ []) :
    m.insertAll entries ≠ [] := by
  intro empty
  obtain ⟨l, v, given⟩ := exists_lastGiven? nonempty
  have found : (m.insertAll entries).get? l = (lastGiven? entries l).or (m.get? l) :=
    get?_insertAll m entries l
  rw [empty, given] at found
  exact absurd found (Option.some_ne_none v).symm

theorem insertAll_eq_of_lastGiven? {m : Map} (ascending : m.Ascending) {es fs : List (Label × Value)}
    (last : ∀ l, lastGiven? es l = lastGiven? fs l) : m.insertAll es = m.insertAll fs := by
  apply ascending_ext (ascending_insertAll ascending es) (ascending_insertAll ascending fs)
  intro l
  rw [get?_insertAll, get?_insertAll]
  exact congrArg (fun v => v.or (m.get? l)) (last l)

def ofInts (ints : List (Int64 × Value)) : Map := ints.map fun e => (.int e.1, e.2)

def ofTexts (texts : List (String × Value)) : Map := texts.map fun e => (.text e.1, e.2)

def intPair? : Label × Value → Option (Int64 × Value)
  | (.int i, v) => some (i, v)
  | (.text _, _) => none

def textPair? : Label × Value → Option (String × Value)
  | (.int _, _) => none
  | (.text s, v) => some (s, v)

def ints (m : Map) : List (Int64 × Value) := m.filterMap intPair?

def texts (m : Map) : List (String × Value) := m.filterMap textPair?

theorem ints_ascending {m : Map} (ascending : m.Ascending) : m.ints.Pairwise (fun e f => e.1 < f.1) := by
  apply List.Pairwise.filterMap intPair? _ ascending
  rintro ⟨k, x⟩ ⟨l, y⟩ less e he f hf
  cases k <;> cases l <;> simp only [intPair?, Option.some.injEq, reduceCtorEq] at he hf
  subst he hf
  exact less

theorem texts_ascending {m : Map} (ascending : m.Ascending) :
    m.texts.Pairwise (fun e f => Bytes.ofText e.1 < Bytes.ofText f.1) := by
  apply List.Pairwise.filterMap textPair? _ ascending
  rintro ⟨k, x⟩ ⟨l, y⟩ less e he f hf
  cases k <;> cases l <;> simp only [textPair?, Option.some.injEq, reduceCtorEq] at he hf
  subst he hf
  exact less

theorem ints_of_text_before {m : Map} {s : String} (before : ∀ e ∈ m, Label.text s < e.1) : m.ints = [] := by
  apply List.filterMap_eq_nil_iff.mpr
  rintro ⟨k, x⟩ he
  cases k with
  | int i => exact (before _ he).elim
  | text t => rfl

theorem eq_ints_append_texts {m : Map} (ascending : m.Ascending) : m = ofInts m.ints ++ ofTexts m.texts := by
  induction m with
  | nil => rfl
  | cons e m ih =>
    obtain ⟨first, rest⟩ := List.pairwise_cons.mp ascending
    obtain ⟨k, x⟩ := e
    cases k with
    | int i => exact congrArg ((.int i, x) :: ·) (ih rest)
    | text s =>
      have none : ints m = [] := ints_of_text_before first
      have split := ih rest
      rw [none] at split
      show (.text s, x) :: m = ofInts (ints m) ++ (.text s, x) :: ofTexts (texts m)
      rw [none]
      exact congrArg ((.text s, x) :: ·) split

theorem length_eq_ints_add_texts {m : Map} (ascending : m.Ascending) :
    m.length = m.ints.length + m.texts.length := by
  have lengths := congrArg List.length (eq_ints_append_texts ascending)
  simpa only [ofInts, ofTexts, List.length_append, List.length_map] using lengths

end Map

namespace Cbor

theorem encodeEntries_append (es fs : List (Label × Value)) :
    encodeEntries (es ++ fs) = encodeEntries es ++ encodeEntries fs := by
  induction es with
  | nil => rfl
  | cons e es ih =>
    obtain ⟨l, x⟩ := e
    simp only [List.cons_append, encodeEntries, ih, List.append_assoc]

end Cbor

namespace Header

def insertions (entries : List (Label × Value)) : List Edit := entries.map fun e => .insert e.1 e.2

theorem ofMap_insertions (m : Map) (entries : List (Label × Value)) :
    (ofMap m).editAll (insertions entries) = .ofMap (m.insertAll entries) := by
  induction entries generalizing m with
  | nil => rfl
  | cons e entries ih => exact ih (m.insert e.1 e.2)

theorem editAll_insertions (h : Header) {entries : List (Label × Value)} (nonempty : entries ≠ []) :
    h.editAll (insertions entries) = .ofMap (h.map.insertAll entries) := by
  cases entries with
  | nil => exact absurd rfl nonempty
  | cons e entries => exact ofMap_insertions (h.map.insert e.1 e.2) entries

theorem protectedBytes_ofMap {m : Map} (nonempty : m ≠ []) (ascending : m.Ascending) :
    (ofMap m).protectedBytes = head .map (m.ints.length + m.texts.length) ++
      (encodeEntries (Map.ofInts m.ints) ++ encodeEntries (Map.ofTexts m.texts)) := by
  rw [protectedBytes_of_retained rfl, ← encodeEntries_append, ← Map.eq_ints_append_texts ascending,
    ← Map.length_eq_ints_add_texts ascending]
  exact if_neg nonempty

/-- Take two headers with the same map, in label order as the maps of all headers are, and give labels values in both,
in any order and any number of times. If each label was given the same value last, the headers are the same from then
on, the map that stands for an unprotected one and the bytes of a protected one alike: each label holds the value it
was given last or else the one it had, and the integer labels are written in numeric order, then the texts in the
order of their bytes. -/
theorem insertion_order_irrelevant (h k : Header) (es fs : List (Label × Value)) (same : h.map = k.map)
    (ascending : h.map.Ascending) (nonempty : es ≠ [])
    (last : ∀ l, Map.lastGiven? es l = Map.lastGiven? fs l) :
    let made := h.editAll (insertions es)
    made = k.editAll (insertions fs) ∧
    made.protectedBytes = (k.editAll (insertions fs)).protectedBytes ∧
    (∀ l, made.map.get? l = (Map.lastGiven? es l).or (h.map.get? l)) ∧
    ∃ (ints : List (Int64 × Value)) (texts : List (String × Value)),
      ints.Pairwise (fun e f => e.1 < f.1) ∧
      texts.Pairwise (fun e f => Bytes.ofText e.1 < Bytes.ofText f.1) ∧
      made.map = Map.ofInts ints ++ Map.ofTexts texts ∧
      made.protectedBytes = head .map (ints.length + texts.length) ++
        (encodeEntries (Map.ofInts ints) ++ encodeEntries (Map.ofTexts texts)) := by
  intro made
  have result : made = .ofMap (h.map.insertAll es) := editAll_insertions h nonempty
  have other : k.editAll (insertions fs) = .ofMap (k.map.insertAll fs) :=
    editAll_insertions k (Map.ne_nil_of_lastGiven? nonempty last)
  have agree : made = k.editAll (insertions fs) := by
    rw [result, other, ← same, Map.insertAll_eq_of_lastGiven? ascending last]
  have sorted : (h.map.insertAll es).Ascending := Map.ascending_insertAll ascending es
  refine ⟨agree, congrArg protectedBytes agree, ?held, Map.ints _, Map.texts _, Map.ints_ascending sorted,
    Map.texts_ascending sorted, ?split, ?written⟩
  case held =>
    intro l
    rw [result]
    exact Map.get?_insertAll h.map es l
  case split =>
    rw [result]
    exact Map.eq_ints_append_texts sorted
  case written =>
    rw [result]
    exact protectedBytes_ofMap (Map.insertAll_ne_nil h.map nonempty) sorted

theorem insertion_order_irrelevant_texts :
    let received : Header := ⟨[0xa1, 0x18, 0x01, 0x26], [(.int 1, .int (-7))]⟩
    let fresh : Header := .ofMap [(.int 1, .int (-7))]
    let es : List (Label × Value) :=
      [(.text "é", .null), (.int (-1), .int 3), (.text "z", .null), (.int 4, .int 5)]
    let fs : List (Label × Value) :=
      [(.int 4, .null), (.text "z", .null), (.int (-1), .int 3), (.int 4, .int 5), (.text "é", .null)]
    received.editAll (insertions es) = fresh.editAll (insertions fs) ∧
    (received.editAll (insertions es)).protectedBytes =
      [0xa5, 0x20, 0x03, 0x01, 0x26, 0x04, 0x05, 0x61, 0x7a, 0xf6, 0x62, 0xc3, 0xa9, 0xf6] := by
  intro received fresh es fs
  have ascending : received.map.Ascending := List.pairwise_singleton _ _
  have last : ∀ l, Map.lastGiven? es l = Map.lastGiven? fs l := by
    intro l
    simp only [Map.lastGiven?, es, fs, List.reverse_cons, List.reverse_nil, List.nil_append, List.cons_append,
      Map.lookup_cons]
    by_cases four : l = .int 4 <;> by_cases one : l = .int (-1) <;> by_cases z : l = .text "z" <;> simp_all
  constructor
  · exact (insertion_order_irrelevant received fresh es fs rfl ascending (by simp [es]) last).1
  · decide +kernel

end Header

end Cose
