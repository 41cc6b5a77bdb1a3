import Cose.Proofs.Cbor.Encoder
import Cose.Signature

/-!
# The bytes to be signed

Context, both protected headers, external data and payload are written one after the other into one array.
Reading the array gives all five back, so none of them can be moved into another and no structure stands for
another one's bytes. Nothing else of a signature structure goes into them.
-/

set_option autoImplicit false

namespace Cose

theorem SignatureContext.text_injective {c d : SignatureContext} (h : c.text = d.text) : c = d := by
  cases c <;> cases d <;> simp [text] at h ⊢

namespace Signature

def signedItems (s : Signature) (body payload : Bytes) : List Value :=
  [.text s.context.text, .bytes body, .bytes s.protectedHeader.protectedBytes, .bytes s.externalAad,
    .bytes payload]

structure SignedSized (s : Signature) (body payload : Bytes) : Prop where
  body : body.length < 2 ^ 64
  protected_header : s.protectedHeader.protectedBytes.length < 2 ^ 64
  external_aad : s.externalAad.length < 2 ^ 64
  payload : payload.length < 2 ^ 64

/-- One array head, one text and four byte strings, each with its own head. -/
theorem toBeSigned_layout (s : Signature) (body payload : Bytes) : s.toBeSigned body payload =
    Cbor.head .array 5 ++ Cbor.encodeText s.context.text ++ Cbor.encodeBytes body ++
      Cbor.encodeBytes s.protectedHeader.protectedBytes ++ Cbor.encodeBytes s.externalAad ++
      Cbor.encodeBytes payload := by
  simp [toBeSigned, Value.toBytes, Cbor.encode, Cbor.encodeItems]

theorem text_sized (c : SignatureContext) : (Bytes.ofText c.text).length < 2 ^ 64 := by
  cases c <;> decide

theorem signedItems_wellFormed {s : Signature} {body payload : Bytes} (sized : s.SignedSized body payload) :
    (Value.array (s.signedItems body payload)).WellFormed := by
  constructor
  · simp [signedItems, Value.Ordered, Value.OrderedItems]
  · have context := text_sized s.context
    obtain ⟨body, protected_header, external_aad, payload⟩ := sized
    exact ⟨by simp [signedItems], context, body, protected_header, external_aad, payload, trivial⟩

theorem ofBytes_toBeSigned {s : Signature} {body payload : Bytes} (sized : s.SignedSized body payload) :
    Value.ofBytes (s.toBeSigned body payload) = .ok (.array (s.signedItems body payload)) := by
  apply (Cbor.ofBytes_toBytes_iff _ _ (signedItems_wellFormed sized)).mpr
  exact ⟨rfl, by simp [signedItems, Value.depth, Value.depthItems, Cbor.maxDepth]⟩

theorem signedItems_eq_iff (s t : Signature) (body body' payload payload' : Bytes) :
    s.signedItems body payload = t.signedItems body' payload' ↔
      s.context = t.context ∧ body = body' ∧
        s.protectedHeader.protectedBytes = t.protectedHeader.protectedBytes ∧
        s.externalAad = t.externalAad ∧ payload = payload' := by
  have context : s.context.text = t.context.text ↔ s.context = t.context :=
    ⟨SignatureContext.text_injective, fun h => h ▸ rfl⟩
  simp [signedItems, context]

theorem toBeSigned_eq_iff {s t : Signature} {body body' payload payload' : Bytes}
    (left : s.SignedSized body payload) (right : t.SignedSized body' payload') :
    s.toBeSigned body payload = t.toBeSigned body' payload' ↔
      s.signedItems body payload = t.signedItems body' payload' := by
  constructor
  · intro same
    have read := ofBytes_toBeSigned left
    rw [same, ofBytes_toBeSigned right] at read
    exact (Value.array.inj (Except.ok.inj read)).symm
  · intro same
    exact congrArg (fun items => (Value.array items).toBytes) same

/-- What is signed is written field by field and is read back as exactly these fields. So two structures are
signed over the same bytes if and only if they agree in all five, and the unprotected header, the stored
signature and the key have no part in it. -/
theorem toBeSigned_unambiguous :
    (∀ (s : Signature) (body payload : Bytes), s.toBeSigned body payload =
      Cbor.head .array 5 ++ Cbor.encodeText s.context.text ++ Cbor.encodeBytes body ++
        Cbor.encodeBytes s.protectedHeader.protectedBytes ++ Cbor.encodeBytes s.externalAad ++
        Cbor.encodeBytes payload) ∧
    (∀ (s : Signature) (body payload : Bytes), s.SignedSized body payload →
      Value.ofBytes (s.toBeSigned body payload) =
        .ok (.array [.text s.context.text, .bytes body, .bytes s.protectedHeader.protectedBytes,
          .bytes s.externalAad, .bytes payload])) ∧
    (∀ (s t : Signature) (body body' payload payload' : Bytes),
      s.SignedSized body payload → t.SignedSized body' payload' →
      (s.toBeSigned body payload = t.toBeSigned body' payload' ↔
        s.context = t.context ∧ body = body' ∧
          s.protectedHeader.protectedBytes = t.protectedHeader.protectedBytes ∧
          s.externalAad = t.externalAad ∧ payload = payload')) ∧
    ∀ (s : Signature) (unprotected : Header) (signature : Bytes) (key : Option Key) (body payload : Bytes),
      { s with unprotectedHeader := unprotected, signature := signature, key := key }.toBeSigned body payload =
        s.toBeSigned body payload := by
  refine ⟨toBeSigned_layout, ?_, ?_, ?_⟩
  · intro s body payload sized
    exact ofBytes_toBeSigned sized
  · intro s t body body' payload payload' left right
    rw [toBeSigned_eq_iff left right, signedItems_eq_iff]
  · intro s unprotected signature key body payload
    rfl

def countersigned : Signature :=
  { unsigned .counterSignature (.ofMap [(.int 1, .int (-7))]) .empty none with externalAad := [0x41] }

theorem toBeSigned_unambiguous_countersigned :
    Value.ofBytes (countersigned.toBeSigned [] [0x41, 0x00]) =
      .ok (.array [.text "CounterSignature", .bytes [], .bytes [0xa1, 0x01, 0x26], .bytes [0x41],
        .bytes [0x41, 0x00]]) ∧
    countersigned.toBeSigned [] [0x41, 0x00] ≠
      { countersigned with externalAad := [] }.toBeSigned [] [0x41, 0x41, 0x00] := by
  have left : countersigned.SignedSized [] [0x41, 0x00] := by constructor <;> decide
  have right : { countersigned with externalAad := [] }.SignedSized [] [0x41, 0x41, 0x00] := by
    constructor <;> decide
  obtain ⟨-, read, exactly, -⟩ := toBeSigned_unambiguous
  constructor
  · exact read countersigned [] [0x41, 0x00] left
  · intro same
    have fields := (exactly _ _ _ _ _ _ left right).mp same
    exact absurd fields.2.2.2.1 (by decide)

end Signature

end Cose
