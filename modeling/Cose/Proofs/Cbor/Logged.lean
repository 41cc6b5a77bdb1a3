import Cose.Proofs.Cbor.Codec

/-!
# Reading with a record of its places

A place is where reading a label, an item or the outermost map begins, given by the bytes that are left there.
The readers run in any monad for reading, here in one that writes the places down, also the place at which it fails.
Taking the record away commutes with every step, so what is left of a reader is the same reader without a record.
-/

set_option autoImplicit false

namespace Cose

namespace Cbor

open Result

/-- The outcome of a computation and the places at which something began, in their order. -/
structure Logged (α : Type) where
  places : List Bytes
  result : Except Error α

namespace Logged

variable {α β : Type}

protected def bind (run : Logged α) (next : α → Logged β) : Logged β :=
  match run.result with
  | .ok a => ⟨run.places ++ (next a).places, (next a).result⟩
  | .error e => ⟨run.places, .error e⟩

instance : Reading Logged where
  pure a := ⟨[], .ok a⟩
  bind := Logged.bind
  fail e := ⟨[], .error e⟩
  begun place run := ⟨place :: run.places, run.result⟩

def answer (run : Logged α) : Cose.Result α := run.result.mapError (fun e => .cbor (.item e))

theorem answer_eq_ok_iff {run : Logged α} {a : α} : run.answer = .ok a ↔ run.result = .ok a :=
  mapError_eq_ok_iff

theorem bind_of_ok {run : Logged α} {a : α} (done : run.result = .ok a) (next : α → Logged β) :
    run >>= next = ⟨run.places ++ (next a).places, (next a).result⟩ := by
  show Logged.bind run next = _
  rw [Logged.bind, done]

theorem bind_of_error {run : Logged α} {e : Error} (failed : run.result = .error e)
    (next : α → Logged β) : run >>= next = ⟨run.places, .error e⟩ := by
  show Logged.bind run next = _
  rw [Logged.bind, failed]

/-! Taking the record away. -/

theorem result_bind (run : Logged α) (next : α → Logged β) :
    (run >>= next).result = run.result >>= fun a => (next a).result := by
  cases done : run.result with
  | ok a => rw [bind_of_ok done, ok_bind]
  | error e => rw [bind_of_error done, error_bind]

theorem result_bind_eq {run : Logged α} {next : α → Logged β} {r : Except Error α} {f : α → Except Error β}
    (first : run.result = r) (following : ∀ a, (next a).result = f a) : (run >>= next).result = r >>= f := by
  rw [result_bind, first]
  exact congrArg (r >>= ·) (funext following)

theorem result_during (context : Context) (r : Except Fault α) :
    (during context r : Logged α).result = during context r := by
  cases r <;> rfl

theorem result_finish (trailing : Error) (run : Logged (α × Bytes)) :
    (finish trailing run).result = finish trailing run.result := by
  refine result_bind_eq rfl fun ⟨x, rest⟩ => ?_
  dsimp only
  split_ifs
  · rfl
  · rfl

theorem places_finish (trailing : Error) (run : Logged (α × Bytes)) :
    (finish trailing run).places = run.places := by
  rw [finish]
  cases done : run.result with
  | ok found =>
    obtain ⟨x, rest⟩ := found
    rw [bind_of_ok done]
    dsimp only
    split_ifs
    · exact List.append_nil run.places
    · exact List.append_nil run.places
  | error e => rw [bind_of_error done]

end Logged

open Logged

/-- The reader without the record. -/
def unlogged {α : Type} (one : ReaderIn Logged α) : Reader α := fun bs => (one bs).result

theorem unlogged_readMany {α : Type} (one : ReaderIn Logged α) (n : Nat) :
    unlogged (readMany one n) = readMany (unlogged one) n := by
  induction n with
  | zero => rfl
  | succ n ih =>
    funext bs
    refine result_bind_eq rfl fun ⟨x, rest⟩ => ?_
    exact result_bind_eq (congrFun ih rest) fun _ => rfl

theorem unlogged_readLabel (size : Nat) : unlogged (readLabel size) = readLabel size := by
  funext bs
  refine result_bind_eq (result_during _ _) fun ty => ?_
  split_ifs
  · exact result_bind_eq (result_during _ _) fun _ => rfl
  · exact result_bind_eq (result_during _ _) fun _ => rfl
  · rfl

theorem unlogged_readEntry (size : Nat) (item : ReaderIn Logged Value) :
    unlogged (readEntry size item) = readEntry size (unlogged item) := by
  funext bs
  refine result_bind_eq (congrFun (unlogged_readLabel size) bs) fun ⟨l, rest⟩ => ?_
  exact result_bind_eq rfl fun _ => rfl

theorem unlogged_readMapWith (size : Nat) (item : Option (ReaderIn Logged Value)) :
    unlogged (readMapWith size item) = readMapWith size (item.map unlogged) := by
  funext bs
  refine result_bind_eq (result_during _ _) fun ⟨count, rest⟩ => ?_
  cases item with
  | none => rfl
  | some item =>
    cases count with
    | none => rfl
    | some n =>
      have entries := unlogged_readMany (readEntry size item) n
      rw [unlogged_readEntry] at entries
      exact result_bind_eq (congrFun entries rest) fun _ => rfl

theorem unlogged_readArrayWith (item : Option (ReaderIn Logged Value)) :
    unlogged (readArrayWith item) = readArrayWith (item.map unlogged) := by
  funext bs
  refine result_bind_eq (result_during _ _) fun ⟨n, rest⟩ => ?_
  cases item with
  | none => rfl
  | some item => exact congrFun (unlogged_readMany item n) rest

theorem unlogged_readValueWith (size : Nat) (item : Option (ReaderIn Logged Value)) :
    unlogged (readValueWith size item) = readValueWith size (item.map unlogged) := by
  funext bs
  refine result_bind_eq (result_during _ _) fun ty => ?_
  split_ifs
  · exact result_bind_eq (result_during _ _) fun _ => rfl
  · cases ty with
    | bytes => exact result_bind_eq (result_during _ _) fun _ => rfl
    | string => exact result_bind_eq (result_during _ _) fun _ => rfl
    | array => exact result_bind_eq (congrFun (unlogged_readArrayWith item) bs) fun _ => rfl
    | map => exact result_bind_eq (congrFun (unlogged_readMapWith size item) bs) fun _ => rfl
    | _ => rfl

theorem unlogged_readValue (size levels : Nat) : unlogged (readValue size levels) = readValue size levels := by
  induction levels with
  | zero => exact unlogged_readValueWith size none
  | succ levels ih =>
    rw [readValue, readValue, ← ih]
    exact unlogged_readValueWith size (some (readValue size levels))

theorem unlogged_readMap (size levels : Nat) : unlogged (readMap size levels) = readMap size levels := by
  cases levels with
  | zero => exact unlogged_readMapWith size none
  | succ levels =>
    rw [readMap, readMap, ← unlogged_readValue]
    exact unlogged_readMapWith size (some (readValue size levels))

def logDecode (bs : Bytes) : Logged Value := decode bs

def logDecodeMap (bs : Bytes) : Logged Map := decodeMap bs

theorem answer_logDecode (bs : Bytes) : (logDecode bs).answer = Value.ofBytes bs := by
  have erased : (logDecode bs).result = decode bs :=
    (result_finish _ _).trans (congrArg _ (congrFun (unlogged_readValue bs.length maxDepth) bs))
  rw [answer, erased, Value.ofBytes]

theorem answer_logDecodeMap (bs : Bytes) : (logDecodeMap bs).answer = Map.ofBytes bs := by
  have erased : (logDecodeMap bs).result = decodeMap bs := by
    rw [logDecodeMap, decodeMap, decodeMap]
    split_ifs with empty
    · rfl
    · exact (result_finish _ _).trans (congrArg _ (congrFun (unlogged_readMap bs.length maxDepth) bs))
  rw [answer, erased, Map.ofBytes]

end Cbor

end Cose
