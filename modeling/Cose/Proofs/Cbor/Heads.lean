import Cose.Proofs.Cbor.InitialByte
import Cose.Proofs.Result

/-!
# Reading heads, strings and integers

The readers of everything that holds no other items. Each one is used when the type of the next item is known,
and then accepts exactly the bytes that the grammar allows, wherever they stand, and leaves what comes after
them.
-/

set_option autoImplicit false

namespace Cose

namespace Cbor

open Result

theorem splitBytes_eq_ok_iff {n : Nat} {bs content rest : Bytes} :
    splitBytes n bs = .ok (content, rest) ↔ content.length = n ∧ bs = content ++ rest := by
  constructor
  · intro h
    rw [splitBytes] at h
    split_ifs at h with hn
    obtain ⟨rfl, rfl⟩ := Prod.mk.inj (Except.ok.inj h)
    exact ⟨hn, (List.take_append_drop n bs).symm⟩
  · rintro ⟨rfl, rfl⟩
    simp [splitBytes]

theorem opens_eq {major : Major} {b : UInt8} (opens : major.Opens b) : b = major.code + info b := by
  rw [← opens.1, code_add_info]

theorem readArgument_eq_ok_iff {major : Major} {b : UInt8} (opens : major.Opens b) {rest after : Bytes}
    {n : Nat} : readArgument (info b) rest = .ok (n, after) ↔
      ∃ h, Head major n h ∧ b :: rest = h ++ after := by
  constructor
  · intro read
    rw [readArgument] at read
    split_ifs at read with small
    · obtain ⟨rfl, rfl⟩ := Prod.mk.inj (Except.ok.inj read)
      refine ⟨[b], ?_, rfl⟩
      have hb := opens_eq opens
      have short : Head major (info b).toNat _ := Head.short (UInt8.lt_iff_toNat_lt.mp small)
      rwa [UInt8.ofNat_toNat, ← hb] at short
    · obtain ⟨⟨digits, r⟩, split, read⟩ := bind_eq_ok_iff.mp read
      obtain ⟨rfl, rfl⟩ := Prod.mk.inj (Except.ok.inj read)
      obtain ⟨len, rfl⟩ := splitBytes_eq_ok_iff.mp split
      have low : 24 ≤ (info b).toNat := by
        simpa [UInt8.lt_iff_toNat_lt] using small
      have high : (info b).toNat < 28 := UInt8.lt_iff_toNat_lt.mp opens.2
      have long : Head major (Bytes.toNat digits) _ := Head.long ((info b).toNat - 24) (by omega)
        (by rw [← len]; exact Bytes.toNat_lt digits)
      have whole : 24 + ((info b).toNat - 24) = (info b).toNat := by omega
      rw [whole, UInt8.ofNat_toNat, ← opens_eq opens, ← len, Bytes.ofNat_toNat] at long
      exact ⟨_, long, rfl⟩
  · rintro ⟨h, head, eq⟩
    cases head with
    | short small =>
      obtain ⟨rfl, rfl⟩ := List.cons.inj eq
      have argument := (opens_code major (n := n) (by omega)).2
      have short : info (major.code + UInt8.ofNat n) < 24 := by
        rw [UInt8.lt_iff_toNat_lt, argument]
        exact small
      rw [readArgument, if_pos short, argument]
    | long k width fits =>
      obtain ⟨rfl, rfl⟩ := List.cons.inj eq
      have argument := (opens_code major (n := 24 + k) (by omega)).2
      have wide : ¬ info (major.code + UInt8.ofNat (24 + k)) < 24 := by
        rw [UInt8.lt_iff_toNat_lt, argument]
        simp
      have split : splitBytes (2 ^ k) (Bytes.ofNat (2 ^ k) n ++ after) = .ok (Bytes.ofNat (2 ^ k) n, after) :=
        splitBytes_eq_ok_iff.mpr ⟨Bytes.length_ofNat _ _, rfl⟩
      rw [readArgument, if_neg wide, argument, Nat.add_sub_cancel_left]
      exact bind_eq_ok_iff.mpr
        ⟨_, split, congrArg (fun m => Except.ok (m, after)) (Bytes.toNat_ofNat _ _ fits)⟩

theorem head_opens {major : Major} {n : Nat} {h : Bytes} (head : Head major n h) {b : UInt8}
    {rest after : Bytes} (eq : b :: rest = h ++ after) : major.Opens b ∧ (info b < 24 ∨ rest ≠ []) := by
  cases head with
  | short small =>
    obtain ⟨rfl, -⟩ := List.cons.inj eq
    obtain ⟨opens, argument⟩ := opens_code major (n := n) (by omega)
    refine ⟨opens, Or.inl ?_⟩
    rw [UInt8.lt_iff_toNat_lt, argument]
    exact small
  | long k width fits =>
    obtain ⟨rfl, rfl⟩ := List.cons.inj eq
    refine ⟨(opens_code major (by omega)).1, Or.inr ?_⟩
    have len := Bytes.length_ofNat (2 ^ k) n
    intro empty
    rw [(List.append_eq_nil_iff.mp empty).1] at len
    exact absurd len.symm (Nat.two_pow_pos k).ne'

/-! The type of the next item. -/

theorem peekType_eq_ok {bs : Bytes} {ty : ItemType} (peek : peekType bs = .ok ty) :
    ∃ b rest, bs = b :: rest ∧ Describes ty b := by
  cases bs with
  | nil => simp [peekType] at peek
  | cons b rest =>
    have found := ofInitial?_found b rest.head?
    rw [peekType] at peek
    split at peek
    · next ty' h =>
      obtain rfl := Except.ok.inj peek
      rw [h] at found
      exact ⟨b, rest, rfl, found⟩
    · simp at peek

theorem peekType_head {major : Major} {n : Nat} {h : Bytes} (head : Head major n h) (after : Bytes) :
    ∃ ty b rest, peekType (h ++ after) = .ok ty ∧ h ++ after = b :: rest ∧ major.Opens b ∧
      Describes ty b := by
  obtain ⟨b, rest, eq⟩ := List.exists_cons_of_ne_nil (List.append_ne_nil_of_left_ne_nil (head_ne_nil head) after)
  obtain ⟨opens, complete⟩ := head_opens head eq.symm
  have found := ofInitial?_found b rest.head?
  cases hty : ItemType.ofInitial? b rest.head? with
  | none =>
    rw [hty] at found
    rcases complete with small | more
    · exact absurd small (UInt8.not_lt.mpr found.2)
    · obtain ⟨c, t, rfl⟩ := List.exists_cons_of_ne_nil more
      exact absurd found.1 (by simp)
  | some ty =>
    rw [hty] at found
    exact ⟨ty, b, rest, by rw [eq, peekType, hty], eq, opens, found⟩

theorem opens_of_peek {major : Major} {ty : ItemType} (typed : major.itemType? = some ty) {bs : Bytes}
    (peek : peekType bs = .ok ty) : ∃ b rest, bs = b :: rest ∧ major.Opens b := by
  obtain ⟨b, rest, eq, describes⟩ := peekType_eq_ok peek
  exact ⟨b, rest, eq, (describes.type_iff typed).mp rfl⟩

theorem peek_of_head {major : Major} {ty : ItemType} (typed : major.itemType? = some ty) {n : Nat}
    {h : Bytes} (head : Head major n h) (after : Bytes) : peekType (h ++ after) = .ok ty := by
  obtain ⟨found, b, rest, peek, eq, opens, describes⟩ := peekType_head head after
  rw [peek, (describes.type_iff typed).mpr opens]

theorem peek_of_string {major : Major} {ty : ItemType} (typed : major.itemType? = some ty)
    {content pre : Bytes} (item : StringItem major content pre) (after : Bytes) :
    peekType (pre ++ after) = .ok ty := by
  obtain ⟨head⟩ := item
  rw [List.append_assoc]
  exact peek_of_head typed head (content ++ after)

theorem peek_of_int {i : Int64} {pre : Bytes} (item : IntItem i pre) (after : Bytes) :
    ∃ ty, peekType (pre ++ after) = .ok ty ∧ ty.isInt = true := by
  cases item with
  | unsigned head value =>
    obtain ⟨ty, b, rest, peek, eq, opens, describes⟩ := peekType_head head after
    exact ⟨ty, peek, describes.int.mpr (Or.inl opens)⟩
  | negative head value =>
    obtain ⟨ty, b, rest, peek, eq, opens, describes⟩ := peekType_head head after
    exact ⟨ty, peek, describes.int.mpr (Or.inr opens)⟩

/-! The readers. -/

theorem readCount_eq_ok_iff {bs after : Bytes} (peek : peekType bs = .ok .array) {n : Nat} :
    readCount bs = .ok (n, after) ↔ ∃ h, Head .array n h ∧ bs = h ++ after := by
  obtain ⟨b, rest, rfl, opens⟩ := opens_of_peek (show Major.array.itemType? = some .array from rfl) peek
  exact readArgument_eq_ok_iff opens

theorem readMapCount_eq_ok_iff (size : Nat) {bs after : Bytes} {n : Nat} :
    readMapCount size bs = .ok (some n, after) ↔ ∃ h, Head .map n h ∧ bs = h ++ after := by
  constructor
  · intro read
    cases bs with
    | nil => simp [readMapCount] at read
    | cons b rest =>
      rw [readMapCount] at read
      dsimp only at read
      split_ifs at read with code indefinite definite
      · simp at read
      · obtain ⟨⟨m, r⟩, argument, read⟩ := bind_eq_ok_iff.mp read
        obtain ⟨⟨⟩, rfl⟩ := Prod.mk.inj (Except.ok.inj read)
        have opens : Major.map.Opens b := ⟨code, definite⟩
        exact (readArgument_eq_ok_iff opens).mp argument
      · split at read <;> simp at read
  · rintro ⟨h, head, rfl⟩
    obtain ⟨b, rest, eq⟩ := List.exists_cons_of_ne_nil (List.append_ne_nil_of_left_ne_nil (head_ne_nil head) after)
    have opens := (head_opens head eq.symm).1
    have argument := (readArgument_eq_ok_iff opens).mpr ⟨h, head, eq.symm⟩
    have code : b &&& 0xe0 = 0xa0 := opens.1
    have definite : info b ≠ 31 := by
      intro indefinite
      have := opens.2
      rw [indefinite] at this
      exact absurd this (by decide)
    rw [eq, readMapCount]
    dsimp only
    rw [if_pos code, if_neg definite, if_pos opens.2]
    exact bind_eq_ok_iff.mpr ⟨_, argument, rfl⟩

theorem readString_eq_ok_iff {major : Major} {ty : ItemType} (typed : major.itemType? = some ty)
    {bs content after : Bytes} (peek : peekType bs = .ok ty) : readString bs = .ok (content, after) ↔
      ∃ pre, StringItem major content pre ∧ bs = pre ++ after := by
  obtain ⟨b, rest, rfl, opens⟩ := opens_of_peek typed peek
  constructor
  · intro read
    obtain ⟨⟨n, r⟩, argument, split⟩ := bind_eq_ok_iff.mp read
    obtain ⟨h, head, eq⟩ := (readArgument_eq_ok_iff opens).mp argument
    obtain ⟨rfl, rfl⟩ := splitBytes_eq_ok_iff.mp split
    exact ⟨h ++ content, .mk head, by rw [eq, List.append_assoc]⟩
  · rintro ⟨_, ⟨head⟩, eq⟩
    rw [List.append_assoc] at eq
    have argument := (readArgument_eq_ok_iff opens).mpr ⟨_, head, eq⟩
    exact bind_eq_ok_iff.mpr ⟨_, argument, splitBytes_eq_ok_iff.mpr ⟨rfl, rfl⟩⟩

theorem readText_eq_ok_iff (size : Nat) {bs after : Bytes} (peek : peekType bs = .ok .string) {s : String} :
    readText size bs = .ok (s, after) ↔
      ∃ pre, StringItem .text (Bytes.ofText s) pre ∧ bs = pre ++ after := by
  constructor
  · intro read
    obtain ⟨⟨content, r⟩, string, read⟩ := bind_eq_ok_iff.mp read
    dsimp only at read
    split at read
    · next t text =>
      obtain ⟨rfl, rfl⟩ := Prod.mk.inj (Except.ok.inj read)
      obtain rfl := (Bytes.toText?_eq_some_iff content t).mp text
      exact (readString_eq_ok_iff rfl peek).mp string
    · simp at read
  · intro h
    have string := (readString_eq_ok_iff rfl peek).mpr h
    apply bind_eq_ok_iff.mpr
    exact ⟨_, string, by simp [Bytes.toText?_ofText]⟩

theorem opens_lt {b : UInt8} : (Major.unsigned.Opens b → b < 0x20) ∧ (Major.negative.Opens b → ¬ b < 0x20) :=
  forall_byte (p := fun b => (Major.unsigned.Opens b → b < 0x20) ∧ (Major.negative.Opens b → ¬ b < 0x20))
    (by decide +kernel) b

theorem readInt_eq_ok_iff (size : Nat) {bs after : Bytes} {ty : ItemType} (peek : peekType bs = .ok ty)
    (int : ty.isInt = true) {i : Int64} : readInt size bs = .ok (i, after) ↔
      ∃ pre, IntItem i pre ∧ bs = pre ++ after := by
  obtain ⟨b, rest, rfl, describes⟩ := peekType_eq_ok peek
  have opens := describes.int.mp int
  constructor
  · intro read
    obtain ⟨⟨n, r⟩, argument, read⟩ := bind_eq_ok_iff.mp read
    dsimp only at read
    split_ifs at read with small positive
    · obtain ⟨rfl, rfl⟩ := Prod.mk.inj (Except.ok.inj read)
      have opens := opens.resolve_right (fun h => opens_lt.2 h positive)
      obtain ⟨h, head, eq⟩ := (readArgument_eq_ok_iff opens).mp argument
      exact ⟨h, .unsigned head (Int64.toInt_ofInt_of_le (by omega) (by omega)), eq⟩
    · obtain ⟨rfl, rfl⟩ := Prod.mk.inj (Except.ok.inj read)
      have opens := opens.resolve_left (fun h => positive (opens_lt.1 h))
      obtain ⟨h, head, eq⟩ := (readArgument_eq_ok_iff opens).mp argument
      exact ⟨h, .negative head (Int64.toInt_ofInt_of_le (by omega) (by omega)), eq⟩
  · rintro ⟨pre, item, eq⟩
    have low := i.le_toInt
    have high := i.toInt_lt
    cases item with
    | @unsigned n _ head value =>
      have opens := (head_opens head eq).1
      have argument := (readArgument_eq_ok_iff opens).mpr ⟨_, head, eq⟩
      have small : n < 2 ^ 63 := by omega
      have result : Int64.ofInt n = i := by rw [← value, Int64.ofInt_toInt]
      refine bind_eq_ok_iff.mpr ⟨_, argument, ?_⟩
      dsimp only
      rw [if_pos small, if_pos (opens_lt.1 opens), result]
    | @negative n _ head value =>
      have opens := (head_opens head eq).1
      have argument := (readArgument_eq_ok_iff opens).mpr ⟨_, head, eq⟩
      have small : n < 2 ^ 63 := by omega
      have result : Int64.ofInt (-1 - n) = i := by rw [← value, Int64.ofInt_toInt]
      refine bind_eq_ok_iff.mpr ⟨_, argument, ?_⟩
      dsimp only
      rw [if_pos small, if_neg (opens_lt.2 opens), result]

end Cbor

end Cose
