import Cose.Proofs.Cbor.Logged
import Cose.Proofs.Cbor.Progress

/-!
# The places of a run

Whatever begins to be read begins strictly behind everything that began before it, in runs that fail as well. So at
most one item more is begun than there are bytes, and the counts that heads announce have no part in the bound. The
main statement says this of whole inputs and, for single reads, that they move on or fail.
-/

set_option autoImplicit false

namespace Cose

mutual

/-- The number of labels and values in a value, itself counted. -/
def Value.parts : Value → Nat
  | .array items => partsItems items + 1
  | .map entries => partsEntries entries + 1
  | _ => 1

def Value.partsItems : List Value → Nat
  | [] => 0
  | x :: xs => x.parts + partsItems xs

def Value.partsEntries : List (Label × Value) → Nat
  | [] => 0
  | (_, x) :: es => (x.parts + 1) + partsEntries es

end

theorem Value.partsItems_eq_total (items : List Value) : Value.partsItems items = total Value.parts items := by
  induction items with
  | nil => rfl
  | cons x items ih => rw [Value.partsItems, ih, total]

theorem Value.partsEntries_eq_total (entries : List (Label × Value)) :
    Value.partsEntries entries = total (fun e => e.2.parts + 1) entries := by
  induction entries with
  | nil => rfl
  | cons e entries ih => rw [Value.partsEntries, ih, total]

namespace Cbor

open Result Logged

/-- What a run that succeeds leaves: it ends behind its places, has one for each part of its result, and at none of
them stands the head of a container that announces too much. -/
structure Ends (limit : Nat) (places : List Bytes) (rest : Bytes) (parts : Nat) : Prop where
  limited : rest.length < limit
  behind : ∀ p ∈ places, rest.length < p.length
  recorded : parts ≤ places.length
  honest : ∀ p ∈ places, ¬ Overstated p

/-- Every place lies behind the one before, the first one where fewer than `limit` bytes are left. A run that fails
has such places too. -/
structure Descends {α : Type} (limit : Nat) (parts : α → Nat) (run : Logged (α × Bytes)) : Prop where
  order : run.places.Pairwise (fun p q => q.length < p.length)
  below : ∀ p ∈ run.places, p.length < limit
  ends : ∀ x rest, run.result = .ok (x, rest) → Ends limit run.places rest (parts x)

section

variable {α β : Type} {limit : Nat} {parts : α → Nat}

theorem descends_pure {x : α} {rest : Bytes} (limited : rest.length < limit) (empty : parts x = 0) :
    Descends limit parts (pure (x, rest)) := by
  have nowhere {q : Bytes → Prop} : ∀ p ∈ (pure (x, rest) : Logged _).places, q p :=
    fun p hp => absurd hp List.not_mem_nil
  refine ⟨List.Pairwise.nil, nowhere, fun y r done => ?_⟩
  obtain ⟨rfl, rfl⟩ := Prod.mk.inj (Except.ok.inj done)
  exact ⟨limited, nowhere, Nat.le_of_eq empty, nowhere⟩

theorem descends_fail (e : Error) : Descends limit parts (fail e) := by
  refine ⟨List.Pairwise.nil, fun p hp => absurd hp List.not_mem_nil, fun x rest done => ?_⟩
  cases done

theorem Descends.mono {more : Nat} {fewer : α → Nat} {run : Logged (α × Bytes)}
    (descends : Descends limit parts run) (limits : limit ≤ more) (fewer_parts : ∀ x, fewer x ≤ parts x) :
    Descends more fewer run := by
  refine ⟨descends.order, fun p hp => (descends.below p hp).trans_le limits, fun x rest done => ?_⟩
  have ends := descends.ends x rest done
  exact ⟨ends.limited.trans_le limits, ends.behind, (fewer_parts x).trans ends.recorded, ends.honest⟩

theorem Descends.begun {bs : Bytes} {run : Logged (α × Bytes)}
    (inside : Descends bs.length (fun x => parts x - 1) run)
    (honest : ∀ x rest, run.result = .ok (x, rest) → ¬ Overstated bs) :
    Descends (bs.length + 1) parts (begun bs run) := by
  constructor
  case order => exact List.pairwise_cons.mpr ⟨inside.below, inside.order⟩
  case below =>
    refine List.forall_mem_cons.mpr ⟨Nat.lt_succ_self _, fun p hp => ?_⟩
    exact (inside.below p hp).trans (Nat.lt_succ_self _)
  case ends =>
    intro x rest done
    have ends := inside.ends x rest done
    refine ⟨ends.limited.trans (Nat.lt_succ_self _), ?_, ?_, ?_⟩
    · exact List.forall_mem_cons.mpr ⟨ends.limited, ends.behind⟩
    · exact Nat.sub_le_iff_le_add.mp ends.recorded
    · exact List.forall_mem_cons.mpr ⟨honest x rest done, ends.honest⟩

theorem Ends.append {places later : List Bytes} {rest after : Bytes} {m n total : Nat}
    (first : Ends limit places rest m) (second : Ends (rest.length + 1) later after n) (sum : total ≤ m + n) :
    Ends limit (places ++ later) after total := by
  have limited := first.limited
  have closer := second.limited
  refine ⟨by omega, ?_, ?_, ?_⟩
  · refine List.forall_mem_append.mpr ⟨fun p hp => ?_, second.behind⟩
    have := first.behind p hp
    omega
  · have := first.recorded
    have := second.recorded
    rw [List.length_append]
    omega
  · exact List.forall_mem_append.mpr ⟨first.honest, second.honest⟩

/-- What follows a run starts where the run ends; of the parts of its result it has to record those that the run has
not recorded. -/
theorem Descends.bind {run : Logged (α × Bytes)} {next : α × Bytes → Logged (β × Bytes)} {total : β → Nat}
    (first : Descends limit parts run)
    (second : ∀ x rest, Descends (rest.length + 1) (fun y => total y - parts x) (next (x, rest))) :
    Descends limit total (run >>= next) := by
  cases done : run.result with
  | error e =>
    rw [bind_of_error done]
    exact ⟨first.order, first.below, fun _ _ impossible => by cases impossible⟩
  | ok found =>
    obtain ⟨x, rest⟩ := found
    have second := second x rest
    have ends := first.ends x rest done
    rw [bind_of_ok done]
    constructor
    case order =>
      refine List.pairwise_append.mpr ⟨first.order, second.order, fun p hp q hq => ?_⟩
      have := ends.behind p hp
      have := second.below q hq
      omega
    case below =>
      refine List.forall_mem_append.mpr ⟨first.below, fun q hq => ?_⟩
      have := ends.limited
      have := second.below q hq
      omega
    case ends =>
      intro y after done
      exact ends.append (second.ends y after done) (by omega)

/-- A step in which nothing begins may lead anywhere that its outcome allows. -/
theorem descends_step {γ : Type} {context : Context} {r : Except Fault γ} {next : γ → Logged (α × Bytes)}
    (after : ∀ a, r = .ok a → Descends limit parts (next a)) :
    Descends limit parts (during context r >>= next) := by
  cases r with
  | error fault => exact descends_fail (.read context fault)
  | ok a => exact after a rfl

end

/-! One lemma for each reader. -/

theorem readLabel_descends (size : Nat) (bs : Bytes) :
    Descends (bs.length + 1) (fun _ => 1) (readLabel size bs) := by
  refine Descends.begun (descends_step fun ty peek => ?_) fun l rest read => ?_
  · split_ifs with int text
    · refine descends_step fun ⟨i, rest⟩ found => descends_pure ?_ rfl
      exact readInt_shortens peek size int found
    · obtain rfl := text
      refine descends_step fun ⟨s, rest⟩ found => descends_pure ?_ rfl
      exact readText_shortens peek size found
    · exact descends_fail _
  · have whole : unlogged (readLabel size) bs = .ok (l, rest) := read
    rw [unlogged_readLabel] at whole
    exact readLabel_honest whole

theorem readMany_descends {α : Type} {one : ReaderIn Logged α} {parts : α → Nat}
    (one_descends : ∀ bs, Descends (bs.length + 1) parts (one bs)) (n : Nat) (bs : Bytes) :
    Descends (bs.length + 1) (total parts) (readMany one n bs) := by
  induction n generalizing bs with
  | zero => exact descends_pure (Nat.lt_succ_self _) rfl
  | succ n ih =>
    refine (one_descends bs).bind fun x rest => ?_
    refine (ih rest).bind fun xs after => ?_
    exact descends_pure (Nat.lt_succ_self _) (by simp [total])

section

variable {size : Nat} {elements : Option (ReaderIn Logged Value)}
  (descends : ∀ one ∈ elements, ∀ bs, Descends (bs.length + 1) Value.parts (one bs))

theorem readEntry_descends {item : ReaderIn Logged Value}
    (item_descends : ∀ bs, Descends (bs.length + 1) Value.parts (item bs)) (bs : Bytes) :
    Descends (bs.length + 1) (fun e => e.2.parts + 1) (readEntry size item bs) := by
  refine (readLabel_descends size bs).bind fun l rest => ?_
  refine (item_descends rest).bind fun v after => ?_
  exact descends_pure (Nat.lt_succ_self _) (by simp)

include descends

theorem readArrayWith_descends {bs : Bytes} (peek : peekType bs = .ok .array) :
    Descends bs.length (total Value.parts) (readArrayWith elements bs) := by
  refine descends_step fun ⟨n, rest⟩ counted => ?_
  obtain ⟨h, head, eq⟩ := (readCount_eq_ok_iff peek).mp counted
  cases elements with
  | none => exact descends_fail _
  | some one =>
    have items := readMany_descends (descends one rfl) n rest
    exact items.mono (length_lt_of_append (head_ne_nil head) eq) fun _ => Nat.le_refl _

theorem readMapWith_descends (bs : Bytes) :
    Descends bs.length Value.partsEntries (readMapWith size elements bs) := by
  refine descends_step fun ⟨count, rest⟩ counted => ?_
  cases elements with
  | none => exact descends_fail _
  | some one =>
    cases count with
    | none => exact descends_fail _
    | some n =>
      obtain ⟨h, head, eq⟩ := (readMapCount_eq_ok_iff size).mp counted
      have entry : ∀ bs, Descends (bs.length + 1) _ (readEntry size one bs) :=
        readEntry_descends (descends one rfl)
      have entries := readMany_descends entry n rest
      have entries := entries.mono (length_lt_of_append (head_ne_nil head) eq) fun _ => Nat.le_refl _
      -- entries that a later one replaces have their places too
      refine entries.bind fun es after => descends_pure (Nat.lt_succ_self _) (Nat.sub_eq_zero_of_le ?_)
      rw [Value.partsEntries_eq_total]
      exact Map.total_ofList_le _ es

theorem readValueWith_descends (advances : ∀ one ∈ elements, Advances (unlogged one)) (bs : Bytes) :
    Descends (bs.length + 1) Value.parts (readValueWith size elements bs) := by
  refine Descends.begun (descends_step fun ty peek => ?_) fun v rest read => ?_
  · split_ifs with int
    · refine descends_step fun ⟨i, rest⟩ found => descends_pure ?_ rfl
      exact readInt_shortens peek size int found
    · cases ty with
      | bytes =>
        refine descends_step fun ⟨content, rest⟩ found => descends_pure ?_ rfl
        exact readString_shortens peek (rfl : Major.bytes.itemType? = _) found
      | string =>
        refine descends_step fun ⟨s, rest⟩ found => descends_pure ?_ rfl
        exact readText_shortens peek size found
      | bool => exact descends_pure (tail_shortens peek) rfl
      | null => exact descends_pure (tail_shortens peek) rfl
      | array =>
        refine (readArrayWith_descends descends peek).bind fun items rest => ?_
        exact descends_pure (Nat.lt_succ_self _) (by simp [Value.parts, Value.partsItems_eq_total])
      | map =>
        refine (readMapWith_descends descends bs).bind fun m rest => ?_
        exact descends_pure (Nat.lt_succ_self _) (by simp [Value.parts])
      | _ => exact descends_fail _
  · have whole : unlogged (readValueWith size elements) bs = .ok (v, rest) := read
    rw [unlogged_readValueWith] at whole
    exact readValueWith_honest (by simpa using advances) whole

end

theorem readValue_descends (size levels : Nat) (bs : Bytes) :
    Descends (bs.length + 1) Value.parts (readValue size levels bs) := by
  induction levels generalizing bs with
  | zero => exact readValueWith_descends (by simp) (by simp) bs
  | succ levels ih =>
    refine readValueWith_descends (by simpa using ih) ?_ bs
    simpa [unlogged_readValue] using readValue_advances size levels

theorem readMap_descends (size levels : Nat) (bs : Bytes) :
    Descends (bs.length + 1) Value.partsEntries (readMap size levels bs) := by
  have honest (m : Map) (rest : Bytes) (read : unlogged (readMap size levels) bs = .ok (m, rest)) :
      ¬ Overstated bs := by
    rw [unlogged_readMap] at read
    exact readMap_honest read
  cases levels with
  | zero =>
    have entries : Descends bs.length Value.partsEntries (readMapWith size none bs) :=
      readMapWith_descends (by simp) bs
    exact Descends.begun (entries.mono (Nat.le_refl _) fun _ => Nat.sub_le _ _) honest
  | succ levels =>
    have entries : Descends bs.length Value.partsEntries (readMapWith size (some (readValue size levels)) bs) :=
      readMapWith_descends (by simpa using readValue_descends size levels) bs
    exact Descends.begun (entries.mono (Nat.le_refl _) fun _ => Nat.sub_le _ _) honest

theorem length_le_of_descending {limit : Nat} {places : List Bytes}
    (order : places.Pairwise (fun p q => q.length < p.length)) (below : ∀ p ∈ places, p.length < limit) :
    places.length ≤ limit := by
  induction places generalizing limit with
  | nil => exact Nat.zero_le _
  | cons p places ih =>
    obtain ⟨behind, order⟩ := List.pairwise_cons.mp order
    have first := below p List.mem_cons_self
    have others := ih order behind
    rw [List.length_cons]
    omega

/-- What a run over the whole input comes to. Without the record it has this answer. Its places move on, and there
is at most one more of them than there are bytes. It has a place for each part of what it gives, and it gives
nothing if a head at one of its places announces too much. -/
structure Bounded {α : Type} (input : Bytes) (parts : α → Nat) (run : Logged α) (answer : Cose.Result α) :
    Prop where
  answered : run.answer = answer
  order : run.places.Pairwise (fun p q => q.length < p.length)
  places_le : run.places.length ≤ input.length + 1
  recorded : ∀ x, answer = .ok x → parts x ≤ run.places.length
  refused : ∀ p ∈ run.places, Overstated p → ∃ e, answer = .error (.cbor (.item e))

theorem Descends.bounded {α : Type} {input : Bytes} {parts : α → Nat} {run : Logged (α × Bytes)}
    (descends : Descends (input.length + 1) parts run) (trailing : Error) :
    Bounded input parts (finish trailing run) (answer (finish trailing run)) := by
  have ends {x : α} (done : (finish trailing run).result = .ok x) :
      Ends (input.length + 1) run.places [] (parts x) := by
    rw [result_finish, finish_eq_ok_iff] at done
    exact descends.ends x [] done
  constructor
  case answered => rfl
  all_goals rw [places_finish]
  case order => exact descends.order
  case places_le => exact length_le_of_descending descends.order descends.below
  case recorded =>
    intro x done
    exact (ends (answer_eq_ok_iff.mp done)).recorded
  case refused =>
    intro p hp excess
    cases result : (finish trailing run).result with
    | error e => exact ⟨e, by rw [answer, result]; rfl⟩
    | ok x => exact absurd excess ((ends result).honest p hp)

theorem logDecode_bounded (input : Bytes) :
    Bounded input Value.parts (logDecode input) (Value.ofBytes input) := by
  rw [← answer_logDecode]
  exact (readValue_descends input.length maxDepth input).bounded .trailingItem

theorem logDecodeMap_bounded (input : Bytes) :
    Bounded input Value.partsEntries (logDecodeMap input) (Map.ofBytes input) := by
  rw [← answer_logDecodeMap]
  cases input with
  | nil =>
    refine ⟨rfl, List.Pairwise.nil, Nat.zero_le _, fun m empty => ?_, fun p hp => absurd hp List.not_mem_nil⟩
    obtain rfl := Except.ok.inj empty
    exact Nat.le_refl 0
  | cons b input =>
    exact (readMap_descends (b :: input).length maxDepth (b :: input)).bounded .trailingMap

/-- Reading moves on: at every position of every input and at every depth, a read that succeeds ends further on and
within the input, at the end of the input there is no item, and a container that announces more elements than bytes
are left is refused. So whatever heads announce, a whole input is accepted or refused when at most one item more has
begun than it has bytes. -/
theorem reading_advances :
    (∀ (input : Bytes) (position depth : Nat),
      (∀ v rest, readValue input.length (maxDepth - depth) (input.drop position) = .ok (v, rest) →
        MovesOn input position rest) ∧
      (∀ m rest, readMap input.length (maxDepth - depth) (input.drop position) = .ok (m, rest) →
        MovesOn input position rest) ∧
      (input.length ≤ position →
        readValue input.length (maxDepth - depth) (input.drop position) = .error (.read .item .endOfInput)) ∧
      (Overstated (input.drop position) →
        (∃ e, readValue input.length (maxDepth - depth) (input.drop position) = .error e) ∧
        ∃ e, readMap input.length (maxDepth - depth) (input.drop position) = .error e)) ∧
    (∀ input, Bounded input Value.parts (logDecode input) (Value.ofBytes input)) ∧
    (∀ input, Bounded input Value.partsEntries (logDecodeMap input) (Map.ofBytes input)) := by
  refine ⟨fun input position depth => ⟨?_, ?_, ?_, ?_⟩, logDecode_bounded, logDecodeMap_bounded⟩
  · exact fun v rest read => readValue_movesOn read
  · exact fun m rest read => readMap_movesOn read
  · intro past
    rw [List.drop_eq_nil_of_le past]
    exact readValue_nil _ _
  · intro excess
    constructor
    · exact error_of_ne_ok fun _ read => readValue_honest read excess
    · exact error_of_ne_ok fun _ read => readMap_honest read excess

/-- Reads inside an array, and an array that announces 2^64 - 1 elements in nine bytes: it is refused alone, in a map
and inside another array, there when the third item begins. -/
theorem reading_advances_overstated :
    MovesOn [0x82, 0x18, 0x20, 0x00] 1 [0x00] ∧ MovesOn [0x81, 0xa1, 0x01, 0x02] 1 [] ∧
    readValue 1 (maxDepth - 1) [] = .error (.read .item .endOfInput) ∧
    Overstated (0x9b :: List.replicate 8 0xff) ∧
    (∃ e, readValue 9 maxDepth (0x9b :: List.replicate 8 0xff) = .error e) ∧
    (logDecode (0x81 :: 0x9b :: List.replicate 8 0xff)).places.length = 3 ∧
    (∃ e, Value.ofBytes (0x81 :: 0x9b :: List.replicate 8 0xff) = .error (.cbor (.item e))) ∧
    (∃ e, Map.ofBytes (0xa1 :: 0x01 :: 0x9b :: List.replicate 8 0xff) = .error (.cbor (.item e))) ∧
    Value.parts (.array [.int 1, .array [.int 2]]) ≤ (logDecode [0x82, 0x01, 0x81, 0x02]).places.length := by
  have excess : Overstated (0x9b :: List.replicate 8 0xff) := by
    have head : Head .array (2 ^ 64 - 1) (0x9b :: List.replicate 8 0xff) := .long 3 (by decide) (by decide)
    have more : ([] : Bytes).length < 2 ^ 64 - 1 := by decide
    simpa using Overstated.array head more
  refine ⟨?_, ?_, ?_, excess, ?_, by decide +kernel, ?_, ?_, ?_⟩
  · exact (reading_advances.1 [0x82, 0x18, 0x20, 0x00] 1 1).1 (.int 32) [0x00] (by decide +kernel)
  · exact (reading_advances.1 [0x81, 0xa1, 0x01, 0x02] 1 1).2.1 [(.int 1, .int 2)] [] (by decide +kernel)
  · exact (reading_advances.1 [0x81] 1 1).2.2.1 (Nat.le_refl 1)
  · exact ((reading_advances.1 (0x9b :: List.replicate 8 0xff) 0 0).2.2.2 excess).1
  · exact (reading_advances.2.1 (0x81 :: 0x9b :: List.replicate 8 0xff)).refused _ (by decide +kernel) excess
  · have bounded := reading_advances.2.2 (0xa1 :: 0x01 :: 0x9b :: List.replicate 8 0xff)
    exact bounded.refused _ (by decide +kernel) excess
  · exact (reading_advances.2.1 [0x82, 0x01, 0x81, 0x02]).recorded _ (by decide +kernel)

example : (logDecode [0x81, 0x81, 0x81]).places = [[0x81, 0x81, 0x81], [0x81, 0x81], [0x81], []] := by
  decide +kernel

end Cbor

end Cose
