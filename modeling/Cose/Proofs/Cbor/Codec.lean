import Cose.Cbor.Codec
import Cose.Proofs.Cbor.Reading

/-!
# What decoding accepts

A byte string decodes to a value exactly if the grammar says that it stands for it, from the first byte to the
last. Everything else is refused with an error of the CBOR layer, and the two entry points agree on maps.
-/

set_option autoImplicit false

namespace Cose

namespace Cbor

open Result

theorem finish_eq_ok_iff {α : Type} {trailing : Error} {run : Except Error (α × Bytes)} {x : α} :
    finish trailing run = .ok x ↔ run = .ok (x, []) := by
  constructor
  · intro finished
    obtain ⟨⟨y, rest⟩, read, finished⟩ := bind_eq_ok_iff.mp finished
    dsimp only at finished
    split_ifs at finished with empty
    obtain rfl := Except.ok.inj finished
    rw [read, List.isEmpty_iff.mp empty]
  · rintro rfl
    rfl

theorem Exact.whole {α : Type} {one : Reader α} {Written : α → Bytes → Prop} (exact_one : Exact one Written)
    (b : Bytes) (x : α) : one b = .ok (x, []) ↔ Written x b := by
  simpa using exact_one b x []

theorem decode_eq_ok_iff (b : Bytes) (v : Value) : decode b = .ok v ↔ Item maxDepth v b :=
  finish_eq_ok_iff.trans ((readValue_exact b.length maxDepth).whole b v)

theorem decodeMap_eq_ok_iff (b : Bytes) (m : Map) :
    decodeMap b = .ok m ↔ (b = [] ∧ m = []) ∨ Item maxDepth (.map m) b := by
  cases b with
  | nil =>
    have no_item : ¬ Item maxDepth (.map m) [] := fun item => item_ne_nil item rfl
    show Except.ok [] = Except.ok m ↔ _
    simp [no_item, eq_comm]
  | cons c b =>
    simp only [reduceCtorEq, false_and, false_or]
    exact finish_eq_ok_iff.trans ((readMap_exact (c :: b).length 63).whole (c :: b) m)

theorem ofBytes_eq_ok_iff (b : Bytes) (v : Value) : Value.ofBytes b = .ok v ↔ Item maxDepth v b := by
  rw [Value.ofBytes, mapError_eq_ok_iff]
  exact decode_eq_ok_iff b v

theorem mapOfBytes_eq_ok_iff (b : Bytes) (m : Map) :
    Map.ofBytes b = .ok m ↔ (b = [] ∧ m = []) ∨ Item maxDepth (.map m) b := by
  rw [Map.ofBytes, mapError_eq_ok_iff]
  exact decodeMap_eq_ok_iff b m

theorem refused_iff {α : Type} (r : Except Error α) :
    (∃ e, r.mapError (fun e => Cose.Error.cbor (.item e)) = .error (.cbor e)) ↔
      ¬ ∃ x, r.mapError (fun e => Cose.Error.cbor (.item e)) = .ok x := by
  cases r <;> simp

theorem ofBytes_refused_iff (b : Bytes) :
    (∃ e, Value.ofBytes b = .error (.cbor e)) ↔ ¬ ∃ v, Value.ofBytes b = .ok v :=
  refused_iff (decode b)

theorem mapOfBytes_refused_iff (b : Bytes) :
    (∃ e, Map.ofBytes b = .error (.cbor e)) ↔ ¬ ∃ m, Map.ofBytes b = .ok m :=
  refused_iff (decodeMap b)

/-- Decoding is the grammar: a byte string gives a value exactly if it is one item of at most 64 levels for that
value, and is refused as bad CBOR otherwise. Where a map is wanted, the empty byte string is one too. -/
theorem accepts_grammar :
    (∀ b v, Value.ofBytes b = .ok v ↔ Item 64 v b) ∧
    (∀ b, (∃ e, Value.ofBytes b = .error (.cbor e)) ↔ ¬ ∃ v, Item 64 v b) ∧
    (∀ b m, Map.ofBytes b = .ok m ↔ (b = [] ∧ m = []) ∨ Value.ofBytes b = .ok (.map m)) ∧
    (∀ b, (∃ e, Map.ofBytes b = .error (.cbor e)) ↔ ¬ ∃ m, Map.ofBytes b = .ok m) := by
  refine ⟨ofBytes_eq_ok_iff, fun b => ?_, fun b m => ?_, mapOfBytes_refused_iff⟩
  · have refused := ofBytes_refused_iff b
    simp only [ofBytes_eq_ok_iff] at refused
    exact refused
  · rw [mapOfBytes_eq_ok_iff, ofBytes_eq_ok_iff]

example : Map.ofBytes [0xa2, 0x01, 0x02, 0x18, 0x01, 0x03] = .ok [(.int 1, .int 3)] := by decide +kernel

example : Value.ofBytes (List.replicate 64 0x81 ++ [0x80]) = .error (.cbor (.item .tooDeep)) := by
  decide +kernel

end Cbor

end Cose
