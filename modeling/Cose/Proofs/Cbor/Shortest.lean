import Cose.Proofs.Cbor.Encoder

/-!
# Written forms are shortest

No byte string that decodes to a value is shorter than the one that is written for it. Heads can only be wider
than they are written, and what a later entry of a map replaces was still read. The bound follows the grammar,
so it does not depend on how many levels decoding allows.
-/

set_option autoImplicit false

namespace Cose

namespace Cbor

theorem length_head (major : Major) (n : Nat) : (head major n).length =
    if n < 24 then 1 else if n < 2 ^ 8 then 2 else if n < 2 ^ 16 then 3 else if n < 2 ^ 32 then 5 else 9 := by
  rw [head]
  split_ifs <;> simp

theorem length_head_mono {m n : Nat} (h : m ≤ n) (major : Major) :
    (head major m).length ≤ (head major n).length := by
  simp only [length_head]
  split_ifs <;> omega

theorem head_shortest {major : Major} {n : Nat} {h : Bytes} (written : Head major n h) :
    (head major n).length ≤ h.length := by
  rw [length_head]
  cases written with
  | short small => simp [small]
  | long k width fits =>
    rw [List.length_cons, Bytes.length_ofNat]
    -- Each of the four widths rules out the branches for wider arguments.
    have widths : k = 0 ∨ k = 1 ∨ k = 2 ∨ k = 3 := by omega
    rcases widths with rfl | rfl | rfl | rfl <;> simp only [Nat.reducePow] at fits ⊢ <;> split_ifs <;> omega

theorem int_shortest {i : Int64} {b : Bytes} (item : IntItem i b) : (encodeInt i).length ≤ b.length := by
  rw [encodeInt]
  cases item with
  | @unsigned n _ head value =>
    have sign : ¬ i < 0 := by
      intro negative
      have : i.toInt < 0 := Int64.lt_iff_toInt_lt.mp negative
      omega
    have argument : i.toInt.toNat = n := by omega
    rw [if_neg sign, argument]
    exact head_shortest head
  | @negative n _ head value =>
    have sign : i < 0 := by
      apply Int64.lt_iff_toInt_lt.mpr
      show i.toInt < 0
      omega
    have argument : (-1 - i.toInt).toNat = n := by omega
    rw [if_pos sign, argument]
    exact head_shortest head

theorem string_shortest {major : Major} {content b : Bytes} (item : StringItem major content b) :
    (head major content.length ++ content).length ≤ b.length := by
  cases item with
  | mk written =>
    have := head_shortest written
    simp only [List.length_append]
    omega

theorem label_shortest {l : Label} {b : Bytes} (label : LabelItem l b) :
    (encodeLabel l).length ≤ b.length := by
  cases label with
  | int item => exact int_shortest item
  | text item => exact string_shortest item

theorem scalar_shortest {v : Value} {b : Bytes} (item : ScalarItem v b) :
    (encode v).length ≤ b.length := by
  cases item with
  | int item => exact int_shortest item
  | bytes item => exact string_shortest item
  | text item => exact string_shortest item
  | _ => exact Nat.le_refl 1

theorem items_shortest {levels : Nat} {items : List Value} {body : Bytes}
    (shortest : ∀ {x : Value} {b : Bytes}, Item levels x b → (encode x).length ≤ b.length)
    (content : Items levels items body) : (encodeItems items).length ≤ body.length := by
  induction items generalizing body with
  | nil => exact Nat.zero_le _
  | cons x items ih =>
    cases content with
    | cons item rest =>
      have first := shortest item
      have others := ih rest
      simp only [encodeItems, List.length_append]
      omega

theorem entries_shortest {levels : Nat} {entries : List (Label × Value)} {body : Bytes}
    (shortest : ∀ {x : Value} {b : Bytes}, Item levels x b → (encode x).length ≤ b.length)
    (content : Entries levels entries body) : (encodeEntries entries).length ≤ body.length := by
  induction entries generalizing body with
  | nil => exact Nat.zero_le _
  | cons e entries ih =>
    cases content with
    | cons label item rest =>
      have name := label_shortest label
      have value := shortest item
      have others := ih rest
      simp only [encodeEntries, List.length_append]
      omega

theorem length_encodeEntries (entries : List (Label × Value)) : (encodeEntries entries).length =
    total (fun e => (encodeLabel e.1).length + (encode e.2).length) entries := by
  induction entries with
  | nil => rfl
  | cons e entries ih => rw [encodeEntries, List.length_append, List.length_append, ih, total, Nat.add_assoc]

/-- What is left of a series of entries when the last one of each label has won is not longer than the series,
in its head and in its content. -/
theorem lastWins_shortest {entries : List (Label × Value)} {m : Map} (last : Map.LastWins entries m) :
    (head .map m.length ++ encodeEntries m).length ≤
      (head .map entries.length ++ encodeEntries entries).length := by
  have count := length_head_mono last.length_le .map
  have content := last.total_le fun e => (encodeLabel e.1).length + (encode e.2).length
  simp only [List.length_append, length_encodeEntries]
  omega

theorem item_shortest {levels : Nat} {v : Value} {b : Bytes} (item : Item levels v b) :
    (encode v).length ≤ b.length := by
  induction levels generalizing v b with
  | zero =>
    cases item with
    | scalar item => exact scalar_shortest item
  | succ levels ih =>
    cases item with
    | scalar item => exact scalar_shortest item
    | array written content =>
      have count := head_shortest written
      have body := items_shortest ih content
      simp only [encode, List.length_append]
      omega
    | map written content last =>
      have count := head_shortest written
      have body := entries_shortest ih content
      have kept := lastWins_shortest last
      simp only [encode, List.length_append] at kept ⊢
      omega

def Shortest (p : Bytes → Prop) (b : Bytes) : Prop := p b ∧ ∀ c, p c → b.length ≤ c.length

theorem encode_shortest {levels : Nat} {v : Value} {b : Bytes} (item : Item levels v b) :
    Shortest (Item levels v) (encode v) := by
  constructor
  · exact encode_written v (item_wellFormed item) (item_depth_le item)
  · intro c other
    exact item_shortest other

/-- Whatever bytes a value was decoded from, its own bytes are no longer, decode to the value again, and are the
fewest that do; and it has no more levels than decoding allows. The same holds of maps, for which the empty byte
string is not counted. -/
theorem rewriting_shortest :
    (∀ b v, Value.ofBytes b = .ok v →
      v.toBytes.length ≤ b.length ∧ v.depth ≤ 64 ∧
      Shortest (fun c => Value.ofBytes c = .ok v) v.toBytes) ∧
    (∀ b m, b ≠ [] → Map.ofBytes b = .ok m →
      m.toBytes.length ≤ b.length ∧ (Value.map m).depth ≤ 64 ∧
      Shortest (fun c => c ≠ [] ∧ Map.ofBytes c = .ok m) m.toBytes) := by
  constructor
  · intro b v read
    have item := (ofBytes_eq_ok_iff b v).mp read
    have shortest := encode_shortest item
    simp only [ofBytes_eq_ok_iff]
    exact ⟨shortest.2 b item, item_depth_le item, shortest⟩
  · intro b m nonempty read
    have items : ∀ c, (c ≠ [] ∧ Map.ofBytes c = .ok m) ↔ Item maxDepth (.map m) c := by
      intro c
      rw [mapOfBytes_eq_ok_iff]
      constructor
      · rintro ⟨nonempty, ⟨empty, -⟩ | item⟩
        · exact absurd empty nonempty
        · exact item
      · intro item
        exact ⟨item_ne_nil item, Or.inr item⟩
    have item := (items b).mp ⟨nonempty, read⟩
    have shortest := encode_shortest item
    simp only [items]
    exact ⟨shortest.2 b item, item_depth_le item, shortest⟩

theorem rewriting_shortest_overlong :
    Value.toBytes (.array [.int 7]) = [0x81, 0x07] ∧
    Shortest (fun c => Value.ofBytes c = .ok (.array [.int 7])) [0x81, 0x07] ∧
    Map.toBytes [(.int 1, .int 3)] = [0xa1, 0x01, 0x03] ∧
    (Map.toBytes [(.int 1, .int 3)]).length ≤ 6 := by
  refine ⟨by decide +kernel, ?_, by decide +kernel, ?_⟩
  · exact (rewriting_shortest.1 [0x98, 0x01, 0x19, 0x00, 0x07] (.array [.int 7]) (by decide +kernel)).2.2
  · exact (rewriting_shortest.2 [0xa2, 0x01, 0x02, 0x18, 0x01, 0x03] [(.int 1, .int 3)] (by simp)
      (by decide +kernel)).1

end Cbor

end Cose
