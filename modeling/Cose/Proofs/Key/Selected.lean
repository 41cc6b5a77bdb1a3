import Cose.Proofs.Key.LifeCycle
import Cose.Proofs.Key.RoundTrip

/-!
# Selected parameters

A key can be written in two ways: with all that it has, or with the key type and those common parameters that
are asked for by name. Both take the common parameters from the same fields. They come out the same unless a
registered key was given a further parameter under a common label, which takes the place of the key's own in
the full map. No key that was read from a map has such a parameter.
-/

set_option autoImplicit false

namespace Cose

open Result

theorem Parameter.label_injective {p q : Parameter} (h : p.label = q.label) : p = q := by
  cases p <;> cases q <;> first | rfl | exact absurd h (by decide)

namespace Key

def common? (key : Key) : Parameter → Option Value
  | .kty => some (.int key.keyType.id)
  | p => key.attributes.value? p

def Selects (names : List String) (p : Parameter) : Prop :=
  p = .kty ∨ p ∈ names.filterMap Parameter.ofName?

def Material.further? (material : Material) (l : Label) : Option Value := (Map.ofList material.further).get? l

/-! What the selection holds, label by label. -/

theorem fields_eq (key : Key) (names : List String) : key.fields names =
    key.keyTypeEntry.insertParameters
      ((names.filterMap Parameter.ofName?).map fun p => (p.label, key.attributes.value? p)) := by
  rw [fields, Map.insertParameters, List.foldl_map]

theorem ascending_fields (key : Key) (names : List String) : (key.fields names).Ascending := by
  rw [fields_eq]
  exact Map.ascending_insertParameters (Map.ascending_ofList _) _

theorem find?_keyTypeEntry (key : Key) (p : Parameter) :
    key.keyTypeEntry.find? p.label = if p = .kty then key.common? .kty else none := by
  cases p <;> rfl

theorem find?_fields_of_selected {key : Key} {names : List String} {p : Parameter} (selected : Selects names p) :
    (key.fields names).find? p.label = key.common? p := by
  rw [fields_eq, Map.find?]
  by_cases named : p ∈ names.filterMap Parameter.ofName?
  · have hp := List.mem_map_of_mem (f := fun p => (p.label, key.attributes.value? p)) named
    have held := Map.get?_insertParameters_of_same hp (by
      intro q hq label
      obtain ⟨r, -, rfl⟩ := List.mem_map.mp hq
      rw [Parameter.label_injective label]) key.keyTypeEntry
    have start := key.find?_keyTypeEntry p
    rw [Map.find?] at start
    rw [held, start]
    cases p <;> simp [common?, Attributes.value?]
  · obtain rfl := selected.resolve_right named
    have absent : ∀ q ∈ (names.filterMap Parameter.ofName?).map fun p => (p.label, key.attributes.value? p),
        Label.int Parameter.kty.label ≠ .int q.1 := by
      intro q hq h
      obtain ⟨r, hr, rfl⟩ := List.mem_map.mp hq
      exact named (Parameter.label_injective (Label.int.inj h) ▸ hr)
    rw [Map.get?_insertParameters_of_absent absent]
    exact key.find?_keyTypeEntry .kty

theorem selected_of_get?_fields {key : Key} {names : List String} {l : Label} {v : Value}
    (held : (key.fields names).get? l = some v) : ∃ p, Selects names p ∧ l = .int p.label := by
  by_cases kty : l = .int Parameter.kty.label
  · exact ⟨.kty, Or.inl rfl, kty⟩
  · by_cases named : ∃ p ∈ names.filterMap Parameter.ofName?, l = .int p.label
    · obtain ⟨p, hp, label⟩ := named
      exact ⟨p, Or.inr hp, label⟩
    · have absent : ∀ q ∈ (names.filterMap Parameter.ofName?).map fun p => (p.label, key.attributes.value? p),
          l ≠ .int q.1 := by
        intro q hq h
        obtain ⟨r, hr, rfl⟩ := List.mem_map.mp hq
        exact named ⟨r, hr, h⟩
      rw [fields_eq, Map.get?_insertParameters_of_absent absent] at held
      simp [keyTypeEntry, Map.get?_ofList, List.lookup_cons, beq_false_of_ne kty] at held

theorem mem_fields_iff (key : Key) (names : List String) (l : Label) (v : Value) :
    (l, v) ∈ key.fields names ↔ ∃ p, Selects names p ∧ l = .int p.label ∧ key.common? p = some v := by
  rw [← Map.get?_eq_some_iff (key.ascending_fields names)]
  constructor
  · intro held
    obtain ⟨p, selected, rfl⟩ := selected_of_get?_fields held
    exact ⟨p, selected, rfl, (find?_fields_of_selected selected).symm.trans held⟩
  · intro given
    obtain ⟨p, selected, rfl, value⟩ := given
    exact (find?_fields_of_selected selected).trans value

/-! What the full map holds under the common labels. -/

theorem mem_parameters (key : Key) (p : Parameter) : (p.label, key.common? p) ∈ key.parameters := by
  apply List.mem_append_left
  cases p <;> simp [commonParameters, common?]

theorem find?_toMap_common (key : Key) (p : Parameter) :
    key.toMap.find? p.label = (key.material.further? (.int p.label)).or (key.common? p) := by
  have own := Map.get?_insertParameters_of_mem key.labels_distinct (key.mem_parameters p) []
  have unset : Map.get? [] (.int p.label) = none := rfl
  rw [unset, Option.or_none] at own
  rw [Map.find?, toMap_eq, Map.get?_insertAll, own, Material.further?, Map.get?_ofList]

/-- A selected parameter is in the full map if no further parameter puts another value in its place. -/
theorem mem_toMap_iff {key : Key} {names : List String} {l : Label} {v : Value}
    (selected : (l, v) ∈ key.fields names) :
    (l, v) ∈ key.toMap ↔ ∀ w, key.material.further? l = some w → w = v := by
  obtain ⟨p, -, rfl, value⟩ := (key.mem_fields_iff names l v).mp selected
  rw [← Map.get?_eq_some_iff key.ascending_toMap, ← Map.find?, find?_toMap_common, value]
  cases key.material.further? (.int p.label) <;> simp

/-! Common labels among the further parameters come from one way of making a key only. -/

def Material.Uncommon (material : Material) : Prop := ∀ e ∈ material.further, isCommonLabel e.1 = false

/-- The construction gives the key no further parameter under a common label. -/
def Origin.Uncommon : Origin → Prop
  | .registered _ params => ∀ e ∈ params, isCommonLabel e.1 = false
  | _ => True

theorem isCommonLabel_label (p : Parameter) : isCommonLabel (.int p.label) = true := by
  cases p <;> decide

theorem further?_of_uncommon {material : Material} (uncommon : material.Uncommon) (p : Parameter) :
    material.further? (.int p.label) = none := by
  rw [Material.further?]
  cases held : (Map.ofList material.further).get? (.int p.label) with
  | none => rfl
  | some v =>
    have stands := (Map.get?_eq_some_iff (Map.ascending_ofList _)).mp held
    have outside := uncommon _ (Map.mem_ofList stands)
    rw [isCommonLabel_label] at outside
    cases outside

theorem further_of_parts {a b : Key} (h : b.parts = a.parts) : b.material.further = a.material.further := by
  obtain ⟨am, aa⟩ := a
  obtain ⟨bm, ba⟩ := b
  cases am <;> cases bm <;> simp [parts] at h <;> simp [Material.further, h]

theorem uncommon_of_decode {r : Registry} {m : Map} {key : Key} (read : r.decode m = .ok key) :
    key.material.Uncommon := by
  obtain ⟨reg, -, built⟩ := (r.decode_eq_ok_iff m key).mp read
  obtain ⟨fits, -⟩ := (reg.factory.build_eq_ok_iff m key).mp built
  intro e he
  cases factory : reg.factory with
  | registered =>
    rw [factory] at fits
    obtain ⟨id, material⟩ := fits
    rw [material] at he
    simpa using (List.mem_filter.mp he).2
  | _ =>
    rw [factory] at fits
    obtain ⟨k, material⟩ := fits
    rw [material] at he
    cases he

theorem uncommon_of_start {origin : Origin} {key : Key} (uncommon : origin.Uncommon)
    (started : origin.start = .ok key) : key.material.Uncommon := by
  cases origin with
  | okp crv x d =>
    obtain ⟨c, -, made⟩ := bind_eq_ok_iff.mp started
    obtain ⟨k, -, made⟩ := bind_eq_ok_iff.mp made
    obtain rfl := Except.ok.inj made
    exact List.forall_mem_nil _
  | ec2 crv x y d =>
    obtain ⟨c, -, made⟩ := bind_eq_ok_iff.mp started
    obtain ⟨k, -, made⟩ := bind_eq_ok_iff.mp made
    obtain rfl := Except.ok.inj made
    exact List.forall_mem_nil _
  | symmetric k =>
    obtain ⟨k, -, made⟩ := bind_eq_ok_iff.mp started
    obtain rfl := Except.ok.inj made
    exact List.forall_mem_nil _
  | registered kty params =>
    obtain rfl := Except.ok.inj started
    exact uncommon
  | decoded r m => exact uncommon_of_decode started

theorem uncommon_of_reached {origin : Origin} {edits : List Edit} {key : Key} (uncommon : origin.Uncommon)
    (reached : origin.reached edits = .ok key) : key.material.Uncommon := by
  obtain ⟨start, started, rfl⟩ := map_eq_ok_iff.mp reached
  have kept := further_of_parts (start.keeps_editAll edits).parts
  rw [Material.Uncommon, kept]
  exact uncommon_of_start uncommon started

/-- The selection holds the key type and the named parameters that the key carries. Its entries stand in the
full map as far as no further parameter of a registered key stands in their place, for that is what the full map
holds under the label then. A key that was constructed without such a parameter, and so every key that was read
from a map, has none whatever became of it: its full map agrees with every selection, and under the common
labels it holds exactly what the key carries. -/
theorem selection_written (key : Key) :
    (∀ names l v, (l, v) ∈ key.fields names ↔
      ∃ p, Selects names p ∧ l = .int p.label ∧ key.common? p = some v) ∧
    (∀ names l v, (l, v) ∈ key.fields names →
      ((l, v) ∈ key.toMap ↔ ∀ w, key.material.further? l = some w → w = v)) ∧
    (∀ p : Parameter, key.toMap.find? p.label =
      (key.material.further? (.int p.label)).or (key.common? p)) ∧
    (∀ (origin : Origin) (edits : List Edit), origin.Uncommon → origin.reached edits = .ok key →
      (∀ names, ∀ e ∈ key.fields names, e ∈ key.toMap) ∧
      ∀ p : Parameter, key.toMap.find? p.label = key.common? p) := by
  refine ⟨key.mem_fields_iff, ?_, key.find?_toMap_common, ?_⟩
  · intro names l v selected
    exact mem_toMap_iff selected
  · intro origin edits uncommon reached
    have own := uncommon_of_reached uncommon reached
    constructor
    · rintro names ⟨l, v⟩ selected
      obtain ⟨p, -, rfl, -⟩ := (key.mem_fields_iff names l v).mp selected
      rw [mem_toMap_iff selected, further?_of_uncommon own]
      intro w h
      cases h
    · intro p
      rw [find?_toMap_common, further?_of_uncommon own, Option.none_or]

theorem selection_written_public :
    let origin := Origin.ec2 (some .p256) (some [1]) (some [2]) none
    ∃ key, origin.reached [.setAlg .es256] = .ok key ∧
      (Label.int 3, Value.int (-7)) ∈ key.fields ["ALG", "kid"] ∧
      (Label.int 3, Value.int (-7)) ∈ key.toMap ∧
      key.toMap.find? Parameter.kty.label = some (.int 2) ∧ key.toMap.find? Parameter.kid.label = none := by
  intro origin
  let key : Key := ⟨.ec2 ⟨some ⟨.p256, rfl⟩, some [1], some [2], none, by decide⟩,
    ⟨none, some .es256, none, none⟩⟩
  have reached : origin.reached [.setAlg .es256] = .ok key := by decide +kernel
  have selected : (Label.int 3, Value.int (-7)) ∈ key.fields ["ALG", "kid"] := by decide +kernel
  obtain ⟨written, held⟩ := (selection_written key).2.2.2 origin _ trivial reached
  exact ⟨key, reached, selected, written _ _ selected, held .kty, held .kid⟩

/-- A key of a registered type whose further parameters name another key type and another algorithm. The
selection gives its own, the full map theirs, and what is read back is a symmetric key. -/
theorem further_parameters_displace :
    let start := Key.registered (.registered 99) [(.int (-1), .bytes [5]), (.int 1, .int 4), (.int 3, .int 5)]
    ∃ key, start.setAlg .es256 = .ok key ∧
      key.fields ["alg"] = [(.int 1, .int 99), (.int 3, .int (-7))] ∧
      key.toMap = [(.int (-1), .bytes [5]), (.int 1, .int 4), (.int 3, .int 5)] ∧
      ¬ (∀ names, ∀ e ∈ key.fields names, e ∈ key.toMap) ∧
      ∃ other, Registry.builtin.decode key.toMap = .ok other ∧ other.IsSymmetric [5] ∧
        other.alg = some .hmac256_256 := by
  intro start
  let key : Key := ⟨.registered ⟨.registered 99, [(.int (-1), .bytes [5]), (.int 1, .int 4), (.int 3, .int 5)]⟩,
    ⟨none, some .es256, none, none⟩⟩
  let other : Key := ⟨.symmetric ⟨[5], by decide⟩, ⟨none, some .hmac256_256, none, none⟩⟩
  have set : start.setAlg .es256 = .ok key := by decide +kernel
  have selected : key.fields ["alg"] = [(.int 1, .int 99), (.int 3, .int (-7))] := by decide +kernel
  have written : key.toMap = [(.int (-1), .bytes [5]), (.int 1, .int 4), (.int 3, .int 5)] := by decide +kernel
  have read : Registry.builtin.decode key.toMap = .ok other := by decide +kernel
  refine ⟨key, set, selected, written, ?_, other, read, ⟨_, rfl, rfl⟩, rfl⟩
  intro agree
  have kty := agree ["alg"] (.int 1, .int 99) (by rw [selected]; exact List.mem_cons_self)
  rw [written] at kty
  revert kty
  decide

end Key

end Cose
