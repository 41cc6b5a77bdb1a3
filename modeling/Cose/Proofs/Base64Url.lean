import Mathlib.Data.List.DropRight
import Cose.Proofs.Base64Url.Groups
import Cose.Proofs.Result

/-!
# Which texts are read as which bytes

Reading accepts the written form of a byte string, with padding behind it or without, and with the two symbols of
ordinary base64 in place of those of base64url; it accepts nothing else. A text is read by its bytes in UTF-8, of
which those of a character that is not ASCII are never taken for a symbol or for padding, so the same can be said of
its characters.
-/

set_option autoImplicit false

namespace Cose

namespace Bytes

theorem ofText_ofList (cs : List Char) : ofText (String.ofList cs) = cs.flatMap String.utf8EncodeChar := by
  simp [ofText, String.toByteArray_ofList, List.utf8Encode]

theorem ofText_eq_flatMap (text : String) : ofText text = text.toList.flatMap String.utf8EncodeChar := by
  rw [← ofText_ofList, String.ofList_toList]

theorem utf8_of_ascii {c : Char} (h : c.toNat < 128) : String.utf8EncodeChar c = [UInt8.ofNat c.toNat] := by
  have small : c.val.toNat ≤ 127 := Nat.le_of_lt_succ h
  rw [String.utf8EncodeChar]
  exact if_pos small

theorem utf8_of_not_ascii {c : Char} (h : ¬ c.toNat < 128) :
    ∀ b ∈ String.utf8EncodeChar c, 128 ≤ b.toNat := by
  have large : ¬ c.val.toNat ≤ 127 := fun small => h (Nat.lt_succ_of_le small)
  intro b hb
  rw [String.utf8EncodeChar, if_neg large] at hb
  split_ifs at hb <;> simp only [List.mem_cons, List.not_mem_nil, or_false] at hb
  · rcases hb with rfl | rfl <;> rw [UInt8.toNat_ofNat'] <;> omega
  · rcases hb with rfl | rfl | rfl <;> rw [UInt8.toNat_ofNat'] <;> omega
  · rcases hb with rfl | rfl | rfl | rfl <;> rw [UInt8.toNat_ofNat'] <;> omega

theorem utf8_ne_nil (c : Char) : String.utf8EncodeChar c ≠ [] := by
  rw [String.utf8EncodeChar]
  split_ifs <;> exact List.cons_ne_nil _ _

end Bytes

namespace Base64Url

def respell (c : Char) : Char := if c = '+' then '-' else if c = '/' then '_' else c

/-- The text without trailing padding, in the symbols of base64url. -/
def canonical (text : String) : String :=
  String.ofList ((text.toList.rdropWhile (· == '=')).map respell)

/-! The same on bytes, and the other way as the reader does it. -/

def respellByte (b : UInt8) : UInt8 := if b = 43 then 45 else if b = 47 then 95 else b

def standard (b : UInt8) : UInt8 := if b = 45 then 43 else if b = 95 then 47 else b

def unpadded (bs : Bytes) : Bytes := bs.rdropWhile (· == 61)

theorem normalize_eq (text : String) : normalize text = (unpadded (Bytes.ofText text)).map standard := rfl

theorem utf8_respell (c : Char) :
    String.utf8EncodeChar (respell c) = (String.utf8EncodeChar c).map respellByte := by
  by_cases ascii : c.toNat < 128
  · have each : ∀ n < 128, String.utf8EncodeChar (respell (Char.ofNat n)) =
        (String.utf8EncodeChar (Char.ofNat n)).map respellByte := by decide +kernel
    simpa using each c.toNat ascii
  · have plus : c ≠ '+' := by
      rintro rfl
      exact ascii (by decide)
    have slash : c ≠ '/' := by
      rintro rfl
      exact ascii (by decide)
    have unchanged : ∀ b ∈ String.utf8EncodeChar c, respellByte b = id b := by
      intro b hb
      have high := Bytes.utf8_of_not_ascii ascii b hb
      rw [respellByte, if_neg, if_neg, id]
      all_goals
        rintro rfl
        exact absurd high (by decide)
    rw [respell, if_neg plus, if_neg slash, List.map_congr_left unchanged, List.map_id]

theorem utf8_ends (c : Char) (h : c ≠ '=') : ∃ before b, String.utf8EncodeChar c = before ++ [b] ∧ b ≠ 61 := by
  obtain ⟨before, b, ends⟩ := (List.eq_nil_or_concat' (String.utf8EncodeChar c)).resolve_left (Bytes.utf8_ne_nil c)
  refine ⟨before, b, ends, ?_⟩
  have last : b ∈ String.utf8EncodeChar c := by simp [ends]
  by_cases ascii : c.toNat < 128
  · rw [Bytes.utf8_of_ascii ascii, List.mem_singleton] at last
    rintro rfl
    apply h
    have code := congrArg UInt8.toNat last
    rw [UInt8.toNat_ofNat', Nat.mod_eq_of_lt (by omega)] at code
    rw [← Char.ofNat_toNat c, ← code]
    rfl
  · have high := Bytes.utf8_of_not_ascii ascii b last
    rintro rfl
    exact absurd high (by decide)

theorem unpadded_flatMap (cs : List Char) : unpadded (cs.flatMap String.utf8EncodeChar) =
    (cs.rdropWhile (· == '=')).flatMap String.utf8EncodeChar := by
  induction cs using List.reverseRecOn with
  | nil => rfl
  | append_singleton cs c ih =>
    rw [List.flatMap_append, List.flatMap_singleton]
    by_cases padding : c = '='
    · subst padding
      rw [List.rdropWhile_concat_pos _ _ _ (by decide), ← ih]
      exact List.rdropWhile_concat_pos _ _ _ (by decide)
    · obtain ⟨before, b, ends, other⟩ := utf8_ends c padding
      rw [List.rdropWhile_concat_neg _ _ _ (by simpa using padding), List.flatMap_append, List.flatMap_singleton,
        ends, ← List.append_assoc]
      exact List.rdropWhile_concat_neg _ _ _ (by simpa using other)

theorem ofText_canonical (text : String) :
    Bytes.ofText (canonical text) = (unpadded (Bytes.ofText text)).map respellByte := by
  rw [canonical, Bytes.ofText_ofList, Bytes.ofText_eq_flatMap, unpadded_flatMap, List.flatMap_map, List.map_flatMap]
  exact List.flatMap_congr fun c _ => utf8_respell c

/-! ## Symbols and their values -/

theorem digit?_standard_symbol (d : UInt8) (h : d < 64) : digit? (standard (symbol d)) = some d :=
  forall_byte (p := fun d => d < 64 → digit? (standard (symbol d)) = some d) (by decide +kernel) d h

theorem standard_respellByte (b : UInt8) : standard (respellByte b) = standard b :=
  forall_byte (p := fun b => standard (respellByte b) = standard b) (by decide +kernel) b

theorem symbol_of_digit? (b : UInt8) : ∀ d ∈ digit? (standard b), d < 64 ∧ respellByte b = symbol d :=
  forall_byte (p := fun b => ∀ d ∈ digit? (standard b), d < 64 ∧ respellByte b = symbol d) (by decide +kernel) b

theorem digit?_standard_iff (b d : UInt8) : digit? (standard b) = some d ↔ d < 64 ∧ respellByte b = symbol d := by
  constructor
  · exact symbol_of_digit? b d
  · rintro ⟨small, same⟩
    rw [← standard_respellByte, same, digit?_standard_symbol d small]

theorem readDigits_eq_ok_iff (offset : Nat) (bs ds : List UInt8) :
    readDigits offset bs = .ok ds ↔ bs.map digit? = ds.map some := by
  induction bs generalizing offset ds with
  | nil => cases ds <;> simp [readDigits]
  | cons b bs ih =>
    cases found : digit? b with
    | none => cases ds <;> simp [readDigits, found]
    | some d =>
      rw [readDigits, found]
      cases ds with
      | nil => simp [Result.map_eq_ok_iff]
      | cons d' ds => simp [Result.map_eq_ok_iff, ih, found, and_comm]

theorem digits_spelled_iff (bs ds : List UInt8) : (bs.map standard).map digit? = ds.map some ↔
    (∀ d ∈ ds, d < 64) ∧ bs.map respellByte = ds.map symbol := by
  induction bs generalizing ds with
  | nil => cases ds <;> simp
  | cons b bs ih =>
    cases ds with
    | nil => simp
    | cons d ds =>
      have rest := ih ds
      simp only [List.map_cons, List.cons.injEq, digit?_standard_iff, List.forall_mem_cons, rest]
      tauto

theorem readDigits_normalize_iff (text : String) (ds : List UInt8) : readDigits 0 (normalize text) = .ok ds ↔
    (∀ d ∈ ds, d < 64) ∧ Bytes.ofText (canonical text) = ds.map symbol := by
  rw [readDigits_eq_ok_iff, normalize_eq, digits_spelled_iff, ofText_canonical]

theorem length_normalize (text : String) : (normalize text).length = (Bytes.ofText (canonical text)).length := by
  rw [normalize_eq, ofText_canonical, List.length_map, List.length_map]

/-! ## The written form -/

theorem utf8_symbol (d : UInt8) : String.utf8EncodeChar (Char.ofNat (symbol d).toNat) = [symbol d] :=
  forall_byte (p := fun d => String.utf8EncodeChar (Char.ofNat (symbol d).toNat) = [symbol d]) (by decide +kernel) d

theorem symbol_alphabet (d : UInt8) : (Char.ofNat (symbol d).toNat).isAlphanum ∨
    Char.ofNat (symbol d).toNat = '-' ∨ Char.ofNat (symbol d).toNat = '_' :=
  forall_byte (p := fun d => (Char.ofNat (symbol d).toNat).isAlphanum ∨ Char.ofNat (symbol d).toNat = '-' ∨
    Char.ofNat (symbol d).toNat = '_') (by decide +kernel) d

theorem ofText_encode (bs : Bytes) : Bytes.ofText (encode bs) = (digits bs).map symbol := by
  rw [encode, Bytes.ofText_ofList, List.flatMap_map, List.map_eq_flatMap]
  exact List.flatMap_congr fun d _ => utf8_symbol d

theorem encode_alphabet (bs : Bytes) : ∀ c ∈ (encode bs).toList, c.isAlphanum ∨ c = '-' ∨ c = '_' := by
  intro c hc
  rw [encode, String.toList_ofList] at hc
  obtain ⟨d, -, rfl⟩ := List.mem_map.mp hc
  exact symbol_alphabet d

theorem canonical_of_alphabet {text : String} (alphabet : ∀ c ∈ text.toList, c.isAlphanum ∨ c = '-' ∨ c = '_') :
    canonical text = text := by
  have last : text.toList.rdropWhile (· == '=') = text.toList := by
    rw [List.rdropWhile_eq_self_iff]
    intro nonempty padding
    have := alphabet _ (List.getLast_mem nonempty)
    rw [beq_iff_eq] at padding
    rw [padding] at this
    exact absurd this (by decide)
  have each : ∀ c ∈ text.toList, respell c = id c := by
    intro c hc
    have := alphabet c hc
    rw [respell, if_neg, if_neg, id]
    all_goals
      rintro rfl
      exact absurd this (by decide)
  rw [canonical, last, List.map_congr_left each, List.map_id, String.ofList_toList]

/-! ## Reading -/

theorem decode_cases (text : String) :
    (∃ ds bs, readDigits 0 (normalize text) = .ok ds ∧ ofDigits? ds = some bs ∧ decode text = .ok bs) ∨
    ∃ e, decode text = .error (.invalidBase64 e) := by
  by_cases single : (normalize text).length % 4 = 1
  · exact Or.inr ⟨_, if_pos single⟩
  · cases symbols : readDigits 0 (normalize text) with
    | error e =>
      right
      simp only [decode, if_neg single, symbols]
      exact ⟨_, rfl⟩
    | ok ds =>
      cases whole : ofDigits? ds with
      | none =>
        right
        simp only [decode, if_neg single, symbols, whole]
        exact ⟨_, rfl⟩
      | some bs =>
        left
        exact ⟨ds, bs, rfl, whole, by simp only [decode, if_neg single, symbols, whole]⟩

theorem decode_of_canonical {text : String} {bs : Bytes} (same : canonical text = encode bs) :
    decode text = .ok bs := by
  have whole : ¬ (normalize text).length % 4 = 1 := by
    rw [length_normalize, same, ofText_encode, List.length_map]
    exact length_digits_mod bs
  have symbols : readDigits 0 (normalize text) = .ok (digits bs) := by
    rw [readDigits_normalize_iff, same, ofText_encode]
    exact ⟨digits_lt bs, rfl⟩
  simp only [decode, if_neg whole, symbols, ofDigits?_digits]

theorem canonical_of_digits {text : String} {ds : List UInt8} {bs : Bytes}
    (symbols : readDigits 0 (normalize text) = .ok ds) (whole : ofDigits? ds = some bs) :
    canonical text = encode bs := by
  have ⟨small, spelled⟩ := (readDigits_normalize_iff text ds).mp symbols
  apply Bytes.ofText_injective
  rw [ofText_encode, spelled, (ofDigits?_eq_some_iff small bs).mp whole]

theorem decode_eq_ok_iff (text : String) (bs : Bytes) : decode text = .ok bs ↔ canonical text = encode bs := by
  constructor
  · intro read
    rcases decode_cases text with ⟨ds, bs', symbols, whole, found⟩ | ⟨e, refused⟩
    · rw [read] at found
      obtain rfl := Except.ok.inj found
      exact canonical_of_digits symbols whole
    · rw [read] at refused
      cases refused
  · exact decode_of_canonical

theorem decode_eq_error_iff (text : String) :
    (∃ e, decode text = .error (.invalidBase64 e)) ↔ ∀ bs, canonical text ≠ encode bs := by
  constructor
  · rintro ⟨e, refused⟩ bs same
    rw [decode_of_canonical same] at refused
    cases refused
  · intro other
    rcases decode_cases text with ⟨ds, bs, symbols, whole, -⟩ | refused
    · exact absurd (canonical_of_digits symbols whole) (other bs)
    · exact refused

theorem decode_eq_iff {s t : String} {a b : Bytes} (hs : decode s = .ok a) (ht : decode t = .ok b) :
    a = b ↔ canonical s = canonical t := by
  have s_form := (decode_eq_ok_iff s a).mp hs
  have t_form := (decode_eq_ok_iff t b).mp ht
  constructor
  · rintro rfl
    rw [s_form, t_form]
  · intro same
    rw [t_form] at same
    rw [decode_of_canonical same] at hs
    exact (Except.ok.inj hs).symm

/-- Every byte string is read back from its written form, which is in the alphabet of base64url. A text is read as a
byte string exactly if it is the written form up to trailing padding and the spelling of two symbols, and every other
text is refused; so two texts that are read have the same bytes only if they differ in nothing else. -/
theorem decode_exactly :
    (∀ bs, decode (encode bs) = .ok bs) ∧
    (∀ bs, ∀ c ∈ (encode bs).toList, c.isAlphanum ∨ c = '-' ∨ c = '_') ∧
    (∀ text bs, decode text = .ok bs ↔ canonical text = encode bs) ∧
    (∀ text, (∃ e, decode text = .error (.invalidBase64 e)) ↔ ∀ bs, canonical text ≠ encode bs) ∧
    (∀ s t a b, decode s = .ok a → decode t = .ok b → (a = b ↔ canonical s = canonical t)) := by
  have written (bs : Bytes) : canonical (encode bs) = encode bs := canonical_of_alphabet (encode_alphabet bs)
  exact ⟨fun bs => decode_of_canonical (written bs), encode_alphabet, decode_eq_ok_iff, decode_eq_error_iff,
    fun s t a b hs ht => decode_eq_iff hs ht⟩

theorem decode_exactly_two_spellings : decode "-_8" = .ok [251, 255] ∧ decode "+/8=" = .ok [251, 255] ∧
    canonical "-_8" = canonical "+/8=" := by
  have bare : decode "-_8" = .ok [251, 255] := by decide +kernel
  have padded : decode "+/8=" = .ok [251, 255] := by decide +kernel
  exact ⟨bare, padded, (decode_exactly.2.2.2.2 _ _ _ _ bare padded).mp rfl⟩

end Base64Url

end Cose
