import Cose.Proofs.Key.Reading

/-!
# What a key keeps of its map

A key that was read holds those entries of its map that it has a label for, and what it writes is these. The
spelling of the operation is the only thing that changes on the way. What it writes can be read in the same
way again.
-/

set_option autoImplicit false

namespace Cose

open Result

namespace Map

def transform (m : Map) (f : Label → Value → Option Value) : Map :=
  m.filterMap fun e => (f e.1 e.2).map fun v => (e.1, v)

theorem mem_transform {m : Map} {f : Label → Value → Option Value} {l : Label} {v : Value} :
    (l, v) ∈ m.transform f ↔ ∃ x, (l, x) ∈ m ∧ f l x = some v := by
  simp only [transform, List.mem_filterMap, Option.map_eq_some_iff, Prod.mk.injEq]
  constructor
  · rintro ⟨⟨_, x⟩, mem, _, given, rfl, rfl⟩
    exact ⟨x, mem, given⟩
  · rintro ⟨x, mem, given⟩
    exact ⟨(l, x), mem, v, given, rfl, rfl⟩

theorem ascending_transform {m : Map} (hm : m.Ascending) (f : Label → Value → Option Value) :
    (m.transform f).Ascending := by
  refine hm.filterMap _ ?_
  intro a b lt e he e' he'
  obtain ⟨v, -, rfl⟩ := Option.map_eq_some_iff.mp he
  obtain ⟨w, -, rfl⟩ := Option.map_eq_some_iff.mp he'
  exact lt

theorem get?_transform {m : Map} (hm : m.Ascending) (f : Label → Value → Option Value) (l : Label) :
    (m.transform f).get? l = (m.get? l).bind (f l) := by
  apply Option.ext
  intro v
  rw [get?_eq_some_iff (ascending_transform hm f), mem_transform, Option.bind_eq_some_iff]
  simp only [get?_eq_some_iff hm]

theorem ascending_filter {m : Map} (hm : m.Ascending) (keep : Label → Bool) :
    Ascending (m.filter fun e => keep e.1) :=
  hm.filter _

theorem get?_filter {m : Map} (hm : m.Ascending) (keep : Label → Bool) (l : Label) :
    Map.get? (m.filter fun e => keep e.1) l = if keep l then m.get? l else none := by
  apply Option.ext
  intro v
  rw [get?_eq_some_iff (ascending_filter hm keep), List.mem_filter, ← get?_eq_some_iff hm]
  split_ifs with kept <;> simp [kept]

end Map

namespace Key

def Material.owns : Material → Label → Bool
  | .okp _, l => l ∈ [Label.int crvLabel, .int xLabel, .int dLabel]
  | .ec2 _, l => l ∈ [Label.int crvLabel, .int xLabel, .int yLabel, .int dLabel]
  | .symmetric _, l => l ∈ [Label.int kLabel]
  | .registered _, _ => true

def keeps (key : Key) (l : Label) : Bool := isCommonLabel l || key.material.owns l

/-- The map as far as the key keeps it, with the operation in an array and no empty array of operations. -/
def kept (key : Key) (m : Map) : Map :=
  m.transform fun l v => if key.keeps l then restated l v else none

theorem common_iff (key : Key) (l : Label) :
    isCommonLabel l = true ↔ ∃ p ∈ key.commonParameters, l = .int p.1 := by
  cases l with
  | text s => simp [isCommonLabel]
  | int i =>
    have range : (1 ≤ i ∧ i ≤ 5) ↔ i = 1 ∨ i = 2 ∨ i = 3 ∨ i = 4 ∨ i = 5 := by
      simp only [Int64.le_iff_toInt_le, ← Int64.toInt_inj, Int64.reduceToInt]
      omega
    simpa [isCommonLabel, commonParameters, Parameter.label] using range

theorem owns_iff {key : Key} (builtin : ∀ k, key.material ≠ .registered k) (l : Label) :
    key.material.owns l = true ↔ ∃ p ∈ key.material.parameters, l = .int p.1 := by
  obtain ⟨material, attributes⟩ := key
  cases material with
  | registered k => exact absurd rfl (builtin k)
  | _ => simp [Material.owns, Material.parameters]

theorem keeps_of_mem {key : Key} {p : Int64 × Option Value} (hp : p ∈ key.parameters) :
    key.keeps (.int p.1) = true := by
  rw [keeps, Bool.or_eq_true]
  rcases List.mem_append.mp hp with common | own
  · exact Or.inl ((common_iff key _).mpr ⟨p, common, rfl⟩)
  · apply Or.inr
    cases material : key.material with
    | registered k => rfl
    | _ =>
      rw [← material]
      exact (owns_iff (by simp [material]) _).mpr ⟨p, own, rfl⟩

/-- The further parameters are in label order and under labels of their own. -/
structure Material.Separate (material : Material) : Prop where
  ascending : material.further.Ascending
  uncommon : ∀ l, isCommonLabel l = true → material.further.get? l = none

theorem separate_of_builtin {material : Material} (builtin : ∀ k, material ≠ .registered k) :
    material.Separate := by
  cases material with
  | registered k => exact absurd rfl (builtin k)
  | _ => exact ⟨List.Pairwise.nil, fun _ _ => rfl⟩

theorem further_of_parameter {key : Key} (separate : key.material.Separate) {p : Int64 × Option Value}
    (hp : p ∈ key.parameters) : key.material.further.find? p.1 = none := by
  rcases List.mem_append.mp hp with common | own
  · exact separate.uncommon _ ((common_iff key _).mpr ⟨p, common, rfl⟩)
  · obtain ⟨material, attributes⟩ := key
    cases material with
    | registered k => cases own
    | _ => rfl

theorem restated_value (a : Attributes) (p : Parameter) :
    (a.value? p).bind (restated (.int p.label)) = a.value? p := by
  by_cases ops : p = .keyOps
  · subst ops
    rw [restated_keyOps, Attributes.value?]
    cases a.keyOps <;> rfl
  · rw [restated_label ops, Option.bind_fun_some]

theorem restated_written {key : Key} {p : Int64 × Option Value} (hp : p ∈ key.parameters) :
    p.2.bind (restated (.int p.1)) = p.2 := by
  rcases List.mem_append.mp hp with common | own
  · rcases List.mem_cons.mp common with rfl | common
    · rfl
    · obtain ⟨q, -, rfl⟩ := List.mem_map.mp common
      exact restated_value key.attributes q
  · rw [restated_of_uncommon (uncommon_of_mem own), Option.bind_fun_some]

theorem readFrom_toMap {key : Key} (separate : key.material.Separate) : key.ReadFrom key.toMap := by
  intro p hp
  rw [find?_toMap separate.ascending hp (further_of_parameter separate hp)]
  exact restated_written hp

end Key

def Factory.Fits (m : Map) : Factory → Key.Material → Prop
  | .okp, material => ∃ k, material = .okp k
  | .ec2, material => ∃ k, material = .ec2 k
  | .symmetric, material => ∃ k, material = .symmetric k
  | .registered, material => ∃ id, material =
      .registered ⟨KeyType.ofRegistered id, m.filter (fun e => !Key.isCommonLabel e.1)⟩

theorem Factory.build_eq_ok_iff (f : Factory) (m : Map) (key : Key) :
    f.build m = .ok key ↔ f.Fits m key.material ∧ key.ReadFrom m := by
  cases f with
  | okp => exact Key.okpOfMap_eq_ok_iff m key
  | ec2 => exact Key.ec2OfMap_eq_ok_iff m key
  | symmetric => exact Key.symmetricOfMap_eq_ok_iff m key
  | registered => exact Key.registeredOfMap_eq_ok_iff m key

namespace Key

variable {f : Factory} {m : Map} {key : Key}

theorem separate_of_fits (ascending : m.Ascending) (fits : f.Fits m key.material) : key.material.Separate := by
  cases f with
  | registered =>
    obtain ⟨id, material⟩ := fits
    rw [material]
    refine ⟨Map.ascending_filter ascending (!isCommonLabel ·), fun l common => ?_⟩
    have looked := Map.get?_filter ascending (!isCommonLabel ·) l
    rwa [common] at looked
  | _ =>
    obtain ⟨k, material⟩ := fits
    exact separate_of_builtin (by simp [material])

theorem further_of_absent (ascending : m.Ascending) (fits : f.Fits m key.material) {l : Label}
    (absent : ∀ p ∈ key.parameters, l ≠ .int p.1) :
    key.material.further.get? l = (m.get? l).bind fun v => if key.keeps l then restated l v else none := by
  have uncommon : isCommonLabel l = false := by
    rw [← Bool.not_eq_true, common_iff key]
    rintro ⟨p, hp, same⟩
    exact absent p (List.mem_append_left _ hp) same
  cases f with
  | registered =>
    obtain ⟨id, material⟩ := fits
    have kept : key.keeps l = true := by simp [keeps, material, Material.owns]
    have looked := Map.get?_filter ascending (!isCommonLabel ·) l
    rw [uncommon] at looked
    simp only [kept, if_true, restated_of_uncommon uncommon, Option.bind_fun_some]
    rw [material]
    exact looked
  | _ =>
    obtain ⟨k, material⟩ := fits
    have not_owned : ¬ key.material.owns l = true := by
      rw [owns_iff (by simp [material])]
      rintro ⟨p, hp, same⟩
      exact absent p (List.mem_append_right _ hp) same
    have dropped : key.keeps l = false := by simpa [keeps, uncommon] using not_owned
    simp [dropped, material, Material.further, Map.get?]

theorem ascending_kept (ascending : m.Ascending) : (key.kept m).Ascending :=
  Map.ascending_transform ascending _

theorem get?_kept (ascending : m.Ascending) (l : Label) : (key.kept m).get? l =
    (m.get? l).bind fun v => if key.keeps l then restated l v else none :=
  Map.get?_transform ascending _ l

/-- What a key that was read writes is what it keeps of its map. -/
theorem toMap_eq_kept (ascending : m.Ascending) (built : f.build m = .ok key) : key.toMap = key.kept m := by
  obtain ⟨fits, read⟩ := (f.build_eq_ok_iff m key).mp built
  have separate := separate_of_fits ascending fits
  apply Map.ascending_ext key.ascending_toMap (ascending_kept ascending)
  intro l
  rw [get?_kept ascending]
  -- under its parameters both hold what was read, elsewhere what a registered key took over
  by_cases held : ∃ p ∈ key.parameters, l = .int p.1
  · obtain ⟨p, hp, rfl⟩ := held
    have written := find?_toMap separate.ascending hp (further_of_parameter separate hp)
    simp only [keeps_of_mem hp, if_true]
    exact written.trans (read p hp).symm
  · have absent : ∀ p ∈ key.parameters, l ≠ .int p.1 := fun p hp same => held ⟨p, hp, same⟩
    rw [get?_toMap_of_absent separate.ascending absent]
    exact further_of_absent ascending fits absent

theorem filter_toMap {k : Registered} (registered : key.material = .registered k)
    (separate : key.material.Separate) :
    key.toMap.filter (fun e => !isCommonLabel e.1) = key.material.further := by
  apply Map.ascending_ext (Map.ascending_filter key.ascending_toMap (!isCommonLabel ·)) separate.ascending
  intro l
  rw [Map.get?_filter key.ascending_toMap (!isCommonLabel ·)]
  by_cases common : isCommonLabel l = true
  · simp [common, separate.uncommon l common]
  · have absent : ∀ p ∈ key.parameters, l ≠ .int p.1 := by
      intro p hp same
      rw [parameters, registered, Material.parameters, List.append_nil] at hp
      exact common ((common_iff key l).mpr ⟨p, hp, same⟩)
    simp [common, get?_toMap_of_absent separate.ascending absent]

theorem fits_toMap (ascending : m.Ascending) (fits : f.Fits m key.material) :
    f.Fits key.toMap key.material := by
  cases f with
  | registered =>
    have separate := separate_of_fits ascending fits
    obtain ⟨id, material⟩ := fits
    refine ⟨id, ?_⟩
    rw [filter_toMap material separate, material]
    rfl
  | _ => exact fits

theorem build_toMap (ascending : m.Ascending) (built : f.build m = .ok key) :
    f.build key.toMap = .ok key := by
  obtain ⟨fits, -⟩ := (f.build_eq_ok_iff m key).mp built
  have separate := separate_of_fits ascending fits
  exact (f.build_eq_ok_iff _ key).mpr ⟨fits_toMap ascending fits, readFrom_toMap separate⟩

end Key

end Cose
