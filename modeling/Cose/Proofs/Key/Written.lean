import Cose.Key.Codec
import Cose.Proofs.Map

/-!
# What a key writes

A key writes a fixed series of parameters, each under a label of its own, and a registered key its further
parameters after them. So what stands in the written map is known label by label.
-/

set_option autoImplicit false

namespace Cose

namespace Map

theorem get?_insert? (m : Map) (label : Int64) (value : Option Value) (l : Label) :
    (m.insert? label value).get? l = if l = .int label then value.or (m.get? l) else m.get? l := by
  cases value with
  | none => simp [insert?]
  | some v => simp [insert?, get?_insert]

theorem ascending_insert? {m : Map} (hm : m.Ascending) (label : Int64) (value : Option Value) :
    (m.insert? label value).Ascending := by
  cases value with
  | none => exact hm
  | some v => exact ascending_insert hm _ v

def insertParameters (m : Map) (ps : List (Int64 × Option Value)) : Map :=
  ps.foldl (fun m p => m.insert? p.1 p.2) m

theorem ascending_insertParameters {m : Map} (hm : m.Ascending) (ps : List (Int64 × Option Value)) :
    (m.insertParameters ps).Ascending := by
  induction ps generalizing m with
  | nil => exact hm
  | cons p ps ih => exact ih (ascending_insert? hm p.1 p.2)

theorem get?_insertParameters_of_absent {ps : List (Int64 × Option Value)} {l : Label}
    (absent : ∀ p ∈ ps, l ≠ .int p.1) (m : Map) : (m.insertParameters ps).get? l = m.get? l := by
  induction ps generalizing m with
  | nil => rfl
  | cons p ps ih =>
    have rest := ih (fun q hq => absent q (List.mem_cons_of_mem p hq)) (m.insert? p.1 p.2)
    rw [get?_insert?, if_neg (absent p List.mem_cons_self)] at rest
    exact rest

theorem get?_insertParameters_of_same {ps : List (Int64 × Option Value)} {p : Int64 × Option Value}
    (hp : p ∈ ps) (same : ∀ q ∈ ps, q.1 = p.1 → q.2 = p.2) (m : Map) :
    (m.insertParameters ps).get? (.int p.1) = p.2.or (m.get? (.int p.1)) := by
  induction ps generalizing m with
  | nil => simp at hp
  | cons q ps ih =>
    have same_later : ∀ r ∈ ps, r.1 = p.1 → r.2 = p.2 := fun r hr => same r (List.mem_cons_of_mem q hr)
    have first : (m.insert? q.1 q.2).get? (.int p.1) =
        if q.1 = p.1 then p.2.or (m.get? (.int p.1)) else m.get? (.int p.1) := by
      rw [get?_insert?]
      by_cases h : q.1 = p.1
      · simp [h, same q List.mem_cons_self h]
      · simp [h, Ne.symm h]
    show ((m.insert? q.1 q.2).insertParameters ps).get? (.int p.1) = _
    by_cases later : p ∈ ps
    · rw [ih later same_later, first]
      split_ifs
      · rw [← Option.or_assoc, Option.or_self]
      · rfl
    · obtain rfl := (List.mem_cons.mp hp).resolve_right later
      rw [if_pos rfl] at first
      have absent : ∀ r ∈ ps, Label.int p.1 ≠ .int r.1 := by
        intro r hr h
        have label : r.1 = p.1 := (Label.int.inj h).symm
        have equal : r = p := Prod.ext label (same_later r hr label)
        exact later (equal ▸ hr)
      rw [get?_insertParameters_of_absent absent, first]

theorem get?_insertParameters_of_mem {ps : List (Int64 × Option Value)} (distinct : (ps.map Prod.fst).Nodup)
    {p : Int64 × Option Value} (hp : p ∈ ps) (m : Map) :
    (m.insertParameters ps).get? (.int p.1) = p.2.or (m.get? (.int p.1)) := by
  apply get?_insertParameters_of_same hp
  intro q hq label
  rw [List.inj_on_of_nodup_map distinct hq hp label]

end Map

namespace Key

def commonParameters (key : Key) : List (Int64 × Option Value) :=
  (Parameter.kty.label, some (.int key.keyType.id)) ::
    [Parameter.kid, .alg, .keyOps, .baseIv].map fun p => (p.label, key.attributes.value? p)

def Material.parameters : Material → List (Int64 × Option Value)
  | .okp k => [(crvLabel, k.crv.map fun c => .int c.val.id), (xLabel, k.x.map .bytes), (dLabel, k.d.map .bytes)]
  | .ec2 k =>
    [(crvLabel, k.crv.map fun c => .int c.val.id), (xLabel, k.x.map .bytes), (yLabel, k.y.map .bytes),
     (dLabel, k.d.map .bytes)]
  | .symmetric k => [(kLabel, some (.bytes k.k))]
  | .registered _ => []

def Material.further : Material → Map
  | .registered k => k.params
  | _ => []

def parameters (key : Key) : List (Int64 × Option Value) := key.commonParameters ++ key.material.parameters

theorem labels_distinct (key : Key) : (key.parameters.map Prod.fst).Nodup := by
  obtain ⟨material, attributes⟩ := key
  cases material with
  | okp k => exact (by decide : ([1, 2, 3, 4, 5, -1, -2, -4] : List Int64).Nodup)
  | ec2 k => exact (by decide : ([1, 2, 3, 4, 5, -1, -2, -3, -4] : List Int64).Nodup)
  | symmetric k => exact (by decide : ([1, 2, 3, 4, 5, -1] : List Int64).Nodup)
  | registered k => exact (by decide : ([1, 2, 3, 4, 5] : List Int64).Nodup)

theorem toMap_eq (key : Key) :
    key.toMap = (Map.insertParameters [] key.parameters).insertAll key.material.further := by
  obtain ⟨material, attributes⟩ := key
  cases material <;> rfl

theorem ascending_toMap (key : Key) : key.toMap.Ascending := by
  rw [toMap_eq]
  exact Map.ascending_insertAll (Map.ascending_insertParameters List.Pairwise.nil _) _

theorem get?_toMap {key : Key} (further : key.material.further.Ascending) (l : Label) :
    key.toMap.get? l =
      (key.material.further.get? l).or ((Map.insertParameters [] key.parameters).get? l) := by
  rw [toMap_eq, Map.get?_insertAll, (Map.lastWins_self further).2]

/-- A parameter of the key is written with its value, unless a further one takes its place. -/
theorem find?_toMap {key : Key} (further : key.material.further.Ascending) {p : Int64 × Option Value}
    (hp : p ∈ key.parameters) (free : key.material.further.find? p.1 = none) :
    key.toMap.find? p.1 = p.2 := by
  rw [Map.find?] at free
  rw [Map.find?, get?_toMap further, free, Map.get?_insertParameters_of_mem key.labels_distinct hp]
  simp [Map.get?]

theorem get?_toMap_of_absent {key : Key} (further : key.material.further.Ascending) {l : Label}
    (absent : ∀ p ∈ key.parameters, l ≠ .int p.1) : key.toMap.get? l = key.material.further.get? l := by
  rw [get?_toMap further, Map.get?_insertParameters_of_absent absent]
  simp [Map.get?]

end Key

end Cose
