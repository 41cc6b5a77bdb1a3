import Cose.Header
import Cose.Proofs.Cbor.Encoder

/-!
# Headers that can be reached

A header is created empty, from a map or from received bytes, and then edited. Whatever bytes it retains are
bytes of its map, because every edit lets go of them. So the protected form of a header is read back as its
map, whether these bytes are the received ones or new ones.
-/

set_option autoImplicit false

namespace Cose

open Result

theorem Map.ordered_insert {m : Map} {v : Value} (hm : (Value.map m).Ordered) (hv : v.Ordered) (l : Label) :
    (Value.map (m.insert l v)).Ordered := by
  rw [Value.Ordered, Value.orderedEntries_iff] at hm ⊢
  obtain ⟨ascending, values⟩ := hm
  refine ⟨Map.ascending_insert ascending l v, ?_⟩
  intro e he
  rcases Map.mem_insert he with rfl | old
  · exact hv
  · exact values e old

theorem Map.wellFormed_nil : (Value.map []).WellFormed := by
  constructor
  · simp [Value.Ordered, Value.OrderedEntries, Map.Ascending]
  · simp [Value.Sized, Value.SizedEntries]

theorem Map.wellFormed_of_ofBytes {bs : Bytes} {m : Map} (read : Map.ofBytes bs = .ok m) :
    (Value.map m).WellFormed := by
  rcases (Cbor.mapOfBytes_eq_ok_iff bs m).mp read with ⟨-, rfl⟩ | item
  · exact Map.wellFormed_nil
  · exact Cbor.item_wellFormed item

theorem Map.ofBytes_nil : Map.ofBytes [] = .ok [] := rfl

namespace Header

/-- The headers that the operations lead to. -/
inductive Reachable : Header → Prop
  | empty : Reachable .empty
  | ofMap (m : Map) (ordered : (Value.map m).Ordered) : Reachable (.ofMap m)
  | ofProtected {bs : Bytes} {h : Header} (read : Header.ofProtected bs = .ok h) : Reachable h
  | insert {h : Header} (reachable : Reachable h) (l : Label) (v : Value) (ordered : v.Ordered) :
      Reachable (h.insert l v)
  | clear {h : Header} (reachable : Reachable h) : Reachable h.clear

/-- The map is in order, and retained bytes are bytes of the map. -/
structure Faithful (h : Header) : Prop where
  ordered : (Value.map h.map).Ordered
  retained : h.retained = [] ∨ Map.ofBytes h.retained = .ok h.map

theorem ofProtected_eq_ok_iff (bs : Bytes) (h : Header) :
    ofProtected bs = .ok h ↔ Map.ofBytes bs = .ok h.map ∧ h.retained = bs := by
  rw [ofProtected, map_eq_ok_iff]
  constructor
  · rintro ⟨m, read, rfl⟩
    exact ⟨read, rfl⟩
  · rintro ⟨read, rfl⟩
    exact ⟨h.map, read, rfl⟩

theorem faithful_empty : Faithful .empty := ⟨Map.wellFormed_nil.ordered, Or.inl rfl⟩

theorem faithful_ofMap {m : Map} (ordered : (Value.map m).Ordered) : Faithful (.ofMap m) :=
  ⟨ordered, Or.inl rfl⟩

theorem faithful_ofProtected {bs : Bytes} {h : Header} (read : Header.ofProtected bs = .ok h) :
    h.Faithful := by
  obtain ⟨read, rfl⟩ := (ofProtected_eq_ok_iff bs h).mp read
  exact ⟨(Map.wellFormed_of_ofBytes read).ordered, Or.inr read⟩

theorem faithful_insert {h : Header} (faithful : h.Faithful) (l : Label) {v : Value} (ordered : v.Ordered) :
    (h.insert l v).Faithful :=
  ⟨Map.ordered_insert faithful.ordered ordered l, Or.inl rfl⟩

theorem reachable_faithful {h : Header} (reachable : h.Reachable) : h.Faithful := by
  induction reachable with
  | empty => exact faithful_empty
  | ofMap m ordered => exact faithful_ofMap ordered
  | ofProtected read => exact faithful_ofProtected read
  | insert _ l v ordered ih => exact faithful_insert ih l ordered
  | clear _ _ => exact faithful_empty

theorem ofBytes_protectedBytes {h : Header} (faithful : h.Faithful) (sized : (Value.map h.map).Sized)
    (depth : (Value.map h.map).depth ≤ Cbor.maxDepth) : Map.ofBytes h.protectedBytes = .ok h.map := by
  obtain ⟨retained, map⟩ := h
  cases retained with
  | nil =>
    cases map with
    | nil => exact Map.ofBytes_nil
    | cons e m => exact (Cbor.mapOfBytes_toBytes_iff _ _ ⟨faithful.ordered, sized⟩).mpr ⟨rfl, depth⟩
  | cons b bs => exact faithful.retained.resolve_left (by simp)

theorem protectedBytes_ofProtected {bs : Bytes} {h : Header} (read : Header.ofProtected bs = .ok h) :
    h.protectedBytes = bs := by
  obtain ⟨read, retained⟩ := (ofProtected_eq_ok_iff bs h).mp read
  cases bs with
  | nil =>
    rw [Map.ofBytes_nil] at read
    simp [protectedBytes, retained, ← Except.ok.inj read]
  | cons b bs => simp [protectedBytes, retained]

end Header

end Cose
