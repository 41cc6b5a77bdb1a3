import Cose.Cbor.Reader
import Cose.Proofs.Cbor.Grammar

/-!
# Initial bytes

Which initial bytes open a head of each kind, what the type of an item says about its initial byte, and that
the type is found whenever a head is complete. The initial bytes are gone through one by one; of the byte
after it only the high bit is looked at.
-/

set_option autoImplicit false

namespace Cose

namespace Cbor

def Major.Opens (major : Major) (b : UInt8) : Prop := b &&& 0xe0 = major.code ∧ info b < 28

instance (major : Major) (b : UInt8) : Decidable (major.Opens b) :=
  inferInstanceAs (Decidable (_ ∧ _))

/-- The item type that goes with an initial byte, as far as the accepted items are concerned. -/
structure Describes (ty : ItemType) (b : UInt8) : Prop where
  int : ty.isInt = true ↔ Major.unsigned.Opens b ∨ Major.negative.Opens b
  bytes : ty = .bytes ↔ Major.bytes.Opens b
  text : ty = .string ↔ Major.text.Opens b
  array : ty = .array ↔ Major.array.Opens b
  map : ty = .map ↔ Major.map.Opens b
  bool : ty = .bool ↔ b = 0xf4 ∨ b = 0xf5
  null : ty = .null ↔ b = 0xf6

def Major.itemType? : Major → Option ItemType
  | .bytes => some .bytes
  | .text => some .string
  | .array => some .array
  | .map => some .map
  | _ => none

theorem Describes.type_iff {ty found : ItemType} {b : UInt8} (describes : Describes found b) {major : Major}
    (h : major.itemType? = some ty) : found = ty ↔ major.Opens b := by
  cases major with
  | bytes => exact Option.some.inj h ▸ describes.bytes
  | text => exact Option.some.inj h ▸ describes.text
  | array => exact Option.some.inj h ▸ describes.array
  | map => exact Option.some.inj h ▸ describes.map
  | _ => simp [Major.itemType?] at h

theorem describes_iff (ty : ItemType) (b : UInt8) : Describes ty b ↔
    (ty.isInt = true ↔ Major.unsigned.Opens b ∨ Major.negative.Opens b) ∧
    (ty = .bytes ↔ Major.bytes.Opens b) ∧ (ty = .string ↔ Major.text.Opens b) ∧
    (ty = .array ↔ Major.array.Opens b) ∧ (ty = .map ↔ Major.map.Opens b) ∧
    (ty = .bool ↔ b = 0xf4 ∨ b = 0xf5) ∧ (ty = .null ↔ b = 0xf6) :=
  ⟨fun h => ⟨h.int, h.bytes, h.text, h.array, h.map, h.bool, h.null⟩,
    fun ⟨i, b, t, a, m, o, n⟩ => ⟨i, b, t, a, m, o, n⟩⟩

instance (ty : ItemType) (b : UInt8) : Decidable (Describes ty b) :=
  decidable_of_iff _ (describes_iff ty b).symm

theorem code_add_info (b : UInt8) : (b &&& 0xe0) + info b = b :=
  forall_byte (p := fun b => (b &&& 0xe0) + info b = b) (by decide +kernel) b

theorem opens_code (major : Major) {n : Nat} (h : n < 28) :
    major.Opens (major.code + UInt8.ofNat n) ∧ (info (major.code + UInt8.ofNat n)).toNat = n := by
  have table : ∀ n < 28, major.Opens (major.code + UInt8.ofNat n) ∧
      (info (major.code + UInt8.ofNat n)).toNat = n := by
    cases major <;> decide +kernel
  exact table n h

/-- A type that is found describes the initial byte; none is found only if a wide argument is wanted and
nothing follows. -/
def Found (b : UInt8) (followed : Bool) : Option ItemType → Prop
  | some ty => Describes ty b
  | none => followed = false ∧ 24 ≤ info b

instance (b : UInt8) (followed : Bool) (ty : Option ItemType) : Decidable (Found b followed ty) :=
  match ty with
  | some ty => inferInstanceAs (Decidable (Describes ty b))
  | none => inferInstanceAs (Decidable (_ ∧ _))

theorem found_none (b : UInt8) : Found b false (ItemType.ofInitial? b none) :=
  forall_byte (p := fun b => Found b false (ItemType.ofInitial? b none)) (by decide +kernel) b

theorem found_low (b : UInt8) : Found b true (ItemType.ofInitial? b (some 0)) :=
  forall_byte (p := fun b => Found b true (ItemType.ofInitial? b (some 0))) (by decide +kernel) b

theorem found_high (b : UInt8) : Found b true (ItemType.ofInitial? b (some 0x80)) :=
  forall_byte (p := fun b => Found b true (ItemType.ofInitial? b (some 0x80))) (by decide +kernel) b

theorem ofInitial?_some (b c : UInt8) : ItemType.ofInitial? b (some c) =
    ItemType.ofInitial? b (some (if c < 0x80 then 0 else 0x80)) := by
  by_cases h : c < 0x80 <;> simp only [ItemType.ofInitial?, Option.map_some, h] <;> rfl

theorem ofInitial?_found (b : UInt8) (next : Option UInt8) :
    Found b next.isSome (ItemType.ofInitial? b next) := by
  cases next with
  | none => exact found_none b
  | some c =>
    rw [ofInitial?_some, Option.isSome_some]
    by_cases h : c < 0x80
    · simpa only [h, if_true] using found_low b
    · simpa only [h, if_false] using found_high b

end Cbor

end Cose
