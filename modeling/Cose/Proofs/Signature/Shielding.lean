import Cose.Proofs.Key.Reading
import Cose.Proofs.Signature.Signing

/-!
# What the unprotected header can change

The unprotected header is not signed, so whoever passes a structure on may put anything there. If the protected
header has an entry for the algorithm, whatever stands in it, nothing that is done with the structure shows a
difference. Otherwise what is signed is still the same, and the rest depends on the unprotected header through its
entry for the algorithm alone.
-/

set_option autoImplicit false

namespace Cose

open Result

namespace Signature

/-- The structures differ in nothing but their unprotected headers. -/
structure AgreeButUnprotected (s t : Signature) : Prop where
  context : s.context = t.context
  protectedHeader : s.protectedHeader = t.protectedHeader
  signature : s.signature = t.signature
  externalAad : s.externalAad = t.externalAad
  key : s.key = t.key

def HasProtectedAlg (s : Signature) : Prop := s.protectedHeader.map.contains (.int algLabel) = true

/-- What stands for the algorithm in the headers. -/
def algValue? (s : Signature) : Option Value :=
  (s.protectedHeader.map.find? algLabel).or (s.unprotectedHeader.map.find? algLabel)

/-- Signing both structures in place has ended in the same way: with the same signature, or with the same error and
nothing changed. Each has kept its own unprotected header. -/
inductive SameOutcome (s t : Signature) :
    EStateM.Result Error Signature Unit → EStateM.Result Error Signature Unit → Prop
  | signed (signature : Bytes) :
    SameOutcome s t (.ok () { s with signature := signature }) (.ok () { t with signature := signature })
  | refused (e : Error) : SameOutcome s t (.error e s) (.error e t)

/-- No operation on a structure tells the two apart. -/
structure Alike (suite : Suite) (s t : Signature) : Prop where
  headerAlg : s.headerAlg = t.headerAlg
  toBeSigned : ∀ body payload, s.toBeSigned body payload = t.toBeSigned body payload
  sign : ∀ nonce body payload, (s.sign suite nonce body payload).map (·.signature) =
    (t.sign suite nonce body payload).map (·.signature)
  signInPlace : ∀ nonce body payload,
    SameOutcome s t ((signInPlace suite nonce body payload).run s) ((signInPlace suite nonce body payload).run t)
  verify : ∀ body payload, s.verify suite body payload = t.verify suite body payload

theorem algValue?_of_protected {s : Signature} {v : Value}
    (held : s.protectedHeader.map.find? algLabel = some v) : s.algValue? = some v := by
  rw [algValue?, held, Option.some_or]

theorem algValue?_of_no_protected {s : Signature} (absent : ¬ s.HasProtectedAlg) :
    s.algValue? = s.unprotectedHeader.map.find? algLabel := by
  have nothing : s.protectedHeader.map.find? algLabel = none := by
    simpa [HasProtectedAlg, Map.contains, Map.find?] using absent
  rw [algValue?, nothing, Option.none_or]

theorem hasProtectedAlg_iff (s : Signature) :
    s.HasProtectedAlg ↔ ∃ v, s.protectedHeader.map.find? algLabel = some v :=
  Option.isSome_iff_exists

theorem headerAlg_eq_ok_iff {s : Signature} {v : Value} (held : s.algValue? = some v) (alg : Option Algorithm) :
    s.headerAlg = .ok alg ↔ ∃ a : Algorithm, alg = some a ∧ v = .int a.id := by
  rw [algValue?] at held
  rw [headerAlg, held]
  cases v with
  | int id =>
    simp only [map_eq_ok_iff, Algorithm.ofId_eq_ok_iff, Value.int.injEq]
    exact exists_congr fun a => and_comm.trans (and_congr_left' eq_comm)
  | _ => simp

theorem headerAlg_of_none {s : Signature} (absent : s.algValue? = none) : s.headerAlg = .ok none := by
  rw [algValue?] at absent
  rw [headerAlg, absent]

def makeSignature (suite : Suite) (s : Signature) (nonce : Nat) (bodyProtected payload : Bytes) : Result Bytes := do
  let key ← s.requireKey
  let alg ← s.headerAlg
  compute suite alg key nonce (s.toBeSigned bodyProtected payload)

theorem sign_eq_map (suite : Suite) (s : Signature) (nonce : Nat) (body payload : Bytes) :
    s.sign suite nonce body payload =
      (s.makeSignature suite nonce body payload).map fun signature => { s with signature := signature } := by
  rw [sign, makeSignature]
  cases s.requireKey with
  | error e => rfl
  | ok key =>
    cases s.headerAlg with
    | error e => rfl
    | ok alg =>
      simp only [ok_bind]
      cases compute suite alg key nonce (s.toBeSigned body payload) <;> rfl

theorem sameOutcome_of_makeSignature {suite : Suite} {s t : Signature} {nonce : Nat} {body payload : Bytes}
    (same : s.makeSignature suite nonce body payload = t.makeSignature suite nonce body payload) :
    SameOutcome s t ((signInPlace suite nonce body payload).run s)
      ((signInPlace suite nonce body payload).run t) := by
  rw [run_signInPlace, run_signInPlace, sign_eq_map, sign_eq_map, ← same]
  cases s.makeSignature suite nonce body payload with
  | ok signature => exact .signed signature
  | error e => exact .refused e

section

variable {s t : Signature}

theorem AgreeButUnprotected.toBeSigned_eq (agree : s.AgreeButUnprotected t) (body payload : Bytes) :
    s.toBeSigned body payload = t.toBeSigned body payload := by
  rw [toBeSigned, toBeSigned, agree.context, agree.protectedHeader, agree.externalAad]

theorem AgreeButUnprotected.algValue?_eq (agree : s.AgreeButUnprotected t)
    (shielded : s.HasProtectedAlg) : s.algValue? = t.algValue? := by
  obtain ⟨v, held⟩ := (hasProtectedAlg_iff s).mp shielded
  rw [algValue?_of_protected held]
  rw [agree.protectedHeader] at held
  rw [algValue?_of_protected held]

theorem headerAlg_congr (same : s.algValue? = t.algValue?) : s.headerAlg = t.headerAlg := by
  rw [algValue?, algValue?] at same
  simp only [headerAlg, same]

/-- Whatever is not the unprotected header reaches the operations directly, and that header through one value. -/
theorem AgreeButUnprotected.alike (agree : s.AgreeButUnprotected t) (same : s.algValue? = t.algValue?)
    (suite : Suite) : Alike suite s t := by
  have header : s.headerAlg = t.headerAlg := headerAlg_congr same
  have key : s.requireKey = t.requireKey := by rw [requireKey, requireKey, agree.key]
  have made : ∀ nonce body payload, s.makeSignature suite nonce body payload =
      t.makeSignature suite nonce body payload := by
    intro nonce body payload
    rw [makeSignature, makeSignature, key, header, agree.toBeSigned_eq]
  refine ⟨header, agree.toBeSigned_eq, ?_, ?_, ?_⟩
  · intro nonce body payload
    rw [sign_eq_map, sign_eq_map, made]
    cases t.makeSignature suite nonce body payload <;> rfl
  · intro nonce body payload
    exact sameOutcome_of_makeSignature (made nonce body payload)
  · intro body payload
    rw [Signature.verify, Signature.verify, key, header, agree.toBeSigned_eq, agree.signature]

end

theorem hasProtectedAlg_of_shields {s : Signature}
    (shields : ∀ t, s.AgreeButUnprotected t → s.headerAlg = t.headerAlg) : s.HasProtectedAlg := by
  by_contra absent
  let withMap (m : Map) : Signature := { s with unprotectedHeader := .ofMap m }
  have agree (m : Map) : s.AgreeButUnprotected (withMap m) := ⟨rfl, rfl, rfl, rfl, rfl⟩
  have value (m : Map) : (withMap m).algValue? = m.find? algLabel := algValue?_of_no_protected absent
  have unnamed : (withMap []).headerAlg = .ok none := headerAlg_of_none (value [])
  have named : (withMap [(.int 1, .int (-7))]).headerAlg = .ok (some .es256) :=
    (headerAlg_eq_ok_iff (value _) _).mpr ⟨.es256, rfl, rfl⟩
  have same := (shields _ (agree [])).symm.trans (shields _ (agree [(.int 1, .int (-7))]))
  rw [unnamed, named] at same
  cases same

/-- Let two structures differ in their unprotected headers only. If the protected header has an entry for the
algorithm, no operation tells them apart, and an entry that is no registered algorithm is refused in both. If it has
none, no operation tells them apart as long as the unprotected headers have the same entry for the algorithm. Nothing
but an entry in the protected header keeps the unprotected one from naming the algorithm. -/
theorem protected_alg_shields (suite : Suite) (s : Signature) :
    (s.HasProtectedAlg → ∀ t, s.AgreeButUnprotected t → Alike suite s t) ∧
    (∀ v, s.protectedHeader.map.find? algLabel = some v →
      ∀ alg, s.headerAlg = .ok alg ↔ ∃ a : Algorithm, alg = some a ∧ v = .int a.id) ∧
    (¬ s.HasProtectedAlg → ∀ t, s.AgreeButUnprotected t →
      s.unprotectedHeader.map.find? algLabel = t.unprotectedHeader.map.find? algLabel → Alike suite s t) ∧
    ((∀ t, s.AgreeButUnprotected t → s.headerAlg = t.headerAlg) ↔ s.HasProtectedAlg) := by
  refine ⟨?_, ?_, ?_, ?_⟩
  · intro shielded t agree
    exact agree.alike (agree.algValue?_eq shielded) suite
  · intro v held
    exact headerAlg_eq_ok_iff (algValue?_of_protected held)
  · intro absent t agree same
    have absent_too : ¬ t.HasProtectedAlg := by
      rw [HasProtectedAlg, ← agree.protectedHeader]
      exact absent
    apply agree.alike
    rw [algValue?_of_no_protected absent, algValue?_of_no_protected absent_too, same]
  · constructor
    · exact hasProtectedAlg_of_shields
    · intro shielded t agree
      exact headerAlg_congr (agree.algValue?_eq shielded)

/-- A text in the protected header is refused although the unprotected header names an algorithm that the key signs
with. Under an empty protected header that algorithm is taken, and other entries beside it do not matter. -/
theorem protected_alg_shields_text :
    let text := unsigned .signature (.ofMap [(.int 1, .text "ES512")]) (.ofMap [(.int 1, .int (-36))]) (some baseKey)
    let es512 := unsigned .signature .empty (.ofMap [(.int 1, .int (-36))]) (some baseKey)
    let padded := { es512 with unprotectedHeader := .ofMap [(.int 1, .int (-36)), (.int 4, .null)] }
    Alike .standard text { text with unprotectedHeader := .empty } ∧
    (∀ alg, text.headerAlg ≠ .ok alg) ∧
    Alike .standard es512 padded ∧
    ∃ t, es512.AgreeButUnprotected t ∧ es512.headerAlg ≠ t.headerAlg := by
  intro text es512 padded
  obtain ⟨shielded, refused, -, -⟩ := protected_alg_shields .standard text
  obtain ⟨-, -, unshielded, shields⟩ := protected_alg_shields .standard es512
  have absent : ¬ es512.HasProtectedAlg := Bool.false_ne_true
  refine ⟨?_, ?_, ?_, ?_⟩
  · exact shielded rfl _ ⟨rfl, rfl, rfl, rfl, rfl⟩
  · intro alg read
    obtain ⟨a, -, same⟩ := (refused _ rfl alg).mp read
    cases same
  · exact unshielded absent padded ⟨rfl, rfl, rfl, rfl, rfl⟩ rfl
  · have open_to_all := mt shields.mp absent
    push Not at open_to_all
    exact open_to_all

end Signature

end Cose
