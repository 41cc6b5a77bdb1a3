import Cose.Key.Registry
import Cose.Proofs.Key.Configuration

/-!
# The life of a key

A key is constructed from its parts or read from a map, and then goes through any number of steps: its fields
are filled in, its labels replaced, resolved copies of it taken over. Whatever the steps, it stays the key that
it was. They give it what it lacks and contradict nothing that it has, and a refused step does not touch it.
-/

set_option autoImplicit false

namespace Cose

open Result

namespace Key

inductive Parts where
  | okp (x d : Option Bytes)
  | ec2 (x y d : Option Bytes)
  | symmetric (k : Bytes)
  | registered (kty : KeyType) (params : Map)
  deriving DecidableEq

def Parts.keyType : Parts → KeyType
  | .okp _ _ => .okp
  | .ec2 _ _ _ => .ec2
  | .symmetric _ => .symmetric
  | .registered kty _ => kty

def Parts.Complete : Parts → Prop
  | .okp x d => x.isSome ∨ d.isSome
  | .ec2 x y d => x.isSome ∧ y.isSome ∨ d.isSome
  | .symmetric k => k ≠ []
  | .registered _ _ => True

def Parts.family? : Parts → Option KeyType
  | .okp _ _ => some .okp
  | .ec2 _ _ _ => some .ec2
  | _ => none

def parts (key : Key) : Parts :=
  match key.material with
  | .okp k => .okp k.x k.d
  | .ec2 k => .ec2 k.x k.y k.d
  | .symmetric k => .symmetric k.k
  | .registered k => .registered k.keyType k.params

inductive Origin where
  | okp (crv : Option EllipticCurve) (x d : Option Bytes)
  | ec2 (crv : Option EllipticCurve) (x y d : Option Bytes)
  | symmetric (k : Bytes)
  | registered (kty : KeyType) (params : Map)
  | decoded (r : Registry) (m : Map)

def Origin.start : Origin → Result Key
  | .okp crv x d => Key.okp crv x d
  | .ec2 crv x y d => Key.ec2 crv x y d
  | .symmetric k => Key.symmetric k
  | .registered kty params => .ok (Key.registered kty params)
  | .decoded r m => r.decode m

/-- A step in the life of a key, also where it is chained to the construction. The last one takes over the key
of a resolved configuration. -/
inductive Edit where
  | setAlg (alg : Algorithm)
  | setKeyOps (op : KeyOperation)
  | setCurve (crv : EllipticCurve)
  | setKid (kid : Option Bytes)
  | setBaseIv (iv : Option Bytes)
  | adopt (peer : Option Key) (request : Request)

def edit (key : Key) : Edit → Result Key
  | .setAlg alg => key.setAlg alg
  | .setKeyOps op => key.setKeyOps op
  | .setCurve crv => key.setCurve crv
  | .setKid kid => .ok (key.setKid kid)
  | .setBaseIv iv => .ok (key.setBaseIv iv)
  | .adopt peer request => (key.resolve peer request).map (·.key)

/-! Steps in place work on a key that they can change, and what they have written stays if they fail after that. -/

def assignInPlace {α : Type} [DecidableEq α] (conflict : Mismatch α → Conflict) (field : Key → Option α) (given : α)
    (write : Key → Key) : EStateM Error Key Unit := do
  match field (← get) with
  | none => modify write
  | some current =>
    if current = given then modify write
    else throw (.keyConfigurationConflict (conflict (.assigned current given)))

def setCurveInPlace (crv : EllipticCurve) : EStateM Error Key Unit := do
  if (← get).hasCurve then
    let _ ← MonadExcept.ofExcept (crv.within (← get).keyType)
    assignInPlace .curve curve crv (·.onCurve crv)
  else throw (.invalidKeyParameter (.noCurve (← get).keyType))

def editInPlace : Edit → EStateM Error Key Unit
  | .setAlg given => assignInPlace .algorithm alg given (·.withAlg given)
  | .setKeyOps op => assignInPlace .keyOperation keyOps op (·.withKeyOps (some op))
  | .setCurve crv => setCurveInPlace crv
  | .setKid kid => modify (·.setKid kid)
  | .setBaseIv iv => modify (·.setBaseIv iv)
  | .adopt peer request => do
    let keys ← MonadExcept.ofExcept ((← get).resolve peer request)
    set keys.key

/-- The key as a step in place leaves it, also if the step is refused. -/
def after (key : Key) (e : Edit) : Key :=
  match (editInPlace e).run key with
  | .ok _ next => next
  | .error _ left => left

def editAll (key : Key) : List Edit → Key
  | [] => key
  | e :: es => editAll (key.after e) es

def Origin.reached (origin : Origin) (edits : List Edit) : Result Key := origin.start.map (·.editAll edits)

theorem keyType_eq (key : Key) : key.keyType = key.parts.keyType := by
  obtain ⟨material, attributes⟩ := key
  cases material <;> rfl

theorem parts_of_sameParts {a b : Key} (h : a.material.SameParts b.material) : b.parts = a.parts := by
  obtain ⟨am, aa⟩ := a
  obtain ⟨bm, ba⟩ := b
  cases h <;> rfl

theorem complete_parts (key : Key) : key.parts.Complete := by
  obtain ⟨material, attributes⟩ := key
  cases material with
  | okp k => exact k.material
  | ec2 k => exact k.material
  | symmetric k => exact k.nonempty
  | registered k => trivial

theorem family_of_curve {key : Key} {crv : EllipticCurve} (held : key.curve = some crv) :
    ∃ kty, key.parts.family? = some kty ∧ crv.keyType? = some kty := by
  have family := keyType?_of_curve held
  obtain ⟨material, attributes⟩ := key
  cases material with
  | okp k => exact ⟨.okp, rfl, family⟩
  | ec2 k => exact ⟨.ec2, rfl, family⟩
  | _ => simp [curve] at held

theorem not_reserved {crv : EllipticCurve} {kty : KeyType} (family : crv.keyType? = some kty) :
    crv ≠ .reserved := by
  rintro rfl
  simp [EllipticCurve.keyType?] at family

/-- The later key is the same key with no field lost or changed. -/
structure Keeps (before after : Key) : Prop where
  parts : after.parts = before.parts
  alg : ∀ alg, before.alg = some alg → after.alg = some alg
  keyOps : ∀ op, before.keyOps = some op → after.keyOps = some op
  curve : ∀ crv, before.curve = some crv → after.curve = some crv

theorem Keeps.refl (key : Key) : key.Keeps key :=
  ⟨rfl, fun _ h => h, fun _ h => h, fun _ h => h⟩

theorem Keeps.trans {a b c : Key} (first : a.Keeps b) (second : b.Keeps c) : a.Keeps c where
  parts := second.parts.trans first.parts
  alg v h := second.alg v (first.alg v h)
  keyOps v h := second.keyOps v (first.keyOps v h)
  curve v h := second.curve v (first.curve v h)

theorem keeps_setAlg {key next : Key} {alg : Algorithm} (set : key.setAlg alg = .ok next) : key.Keeps next := by
  obtain ⟨compatible, rfl⟩ := (setAlg_eq_ok_iff key alg next).mp set
  refine ⟨rfl, fun held h => ?_, fun _ h => h, fun _ h => h⟩
  rw [alg_withAlg, compatible held alg h rfl]

theorem keeps_setKeyOps {key next : Key} {op : KeyOperation} (set : key.setKeyOps op = .ok next) :
    key.Keeps next := by
  obtain ⟨compatible, rfl⟩ := (setKeyOps_eq_ok_iff key op next).mp set
  refine ⟨rfl, fun _ h => h, fun held h => ?_, fun _ h => h⟩
  rw [compatible held op h rfl]
  rfl

theorem keeps_setCurve {key next : Key} {crv : EllipticCurve} (set : key.setCurve crv = .ok next) :
    key.Keeps next := by
  obtain ⟨on_curve, family, compatible, rfl⟩ := (setCurve_eq_ok_iff key crv next).mp set
  refine ⟨parts_of_sameParts (key.material.sameParts_onCurve crv), fun _ h => h, fun _ h => h, fun held h => ?_⟩
  rw [curve_onCurve on_curve family, compatible held crv h rfl]

theorem keeps_resolved {key : Key} {peer : Option Key} {request : Request} {keys : Resolved}
    (resolved : key.resolve peer request = .ok keys) : key.Keeps keys.key := by
  obtain ⟨-, completed, -⟩ := (Resolution.resolve_completed keys).mp resolved
  refine ⟨parts_of_sameParts completed.material, fun held h => ?_, fun held h => ?_, fun held h => ?_⟩
  · rw [completed.alg, h, Option.some_or]
  · rw [completed.keyOps, h, Option.some_or, Option.some_or]
  · rw [completed.curve, if_pos ⟨hasCurve_of_curve h, hasCurve_of_curve h⟩, h, Option.some_or]

theorem keeps_edit {key next : Key} {e : Edit} (edited : key.edit e = .ok next) : key.Keeps next := by
  cases e with
  | setAlg alg => exact keeps_setAlg edited
  | setKeyOps op => exact keeps_setKeyOps edited
  | setCurve crv => exact keeps_setCurve edited
  | setKid kid =>
    obtain rfl := Except.ok.inj edited
    exact ⟨rfl, fun _ h => h, fun _ h => h, fun _ h => h⟩
  | setBaseIv iv =>
    obtain rfl := Except.ok.inj edited
    exact ⟨rfl, fun _ h => h, fun _ h => h, fun _ h => h⟩
  | adopt peer request =>
    obtain ⟨keys, resolved, rfl⟩ := map_eq_ok_iff.mp edited
    exact keeps_resolved resolved

theorem run_assignInPlace {α : Type} [DecidableEq α] (conflict : Mismatch α → Conflict) (field : Key → Option α)
    (given : α) (write : Key → Key) (key : Key) {make : α → Key} (written : make given = write key) :
    (assignInPlace conflict field given write).run key =
      inPlace (do
        let v ← assign conflict (field key) given
        Except.ok (make v)) key := by
  simp only [assignInPlace, assign, EStateM.run_bind, EStateM.run_get]
  cases field key with
  | none => simp [written]
  | some current =>
    by_cases same : current = given
    · simp [same, written]
    · simp [same]

theorem run_assignCurveInPlace {kty : KeyType} (crv : EllipticCurve) (key : Key) {make : CurveOf kty → Key}
    (placed : ∀ c, crv = c.val → make c = key.onCurve crv) :
    (do
      let _ ← MonadExcept.ofExcept (crv.within kty)
      assignInPlace .curve curve crv (·.onCurve crv)).run key =
      inPlace (do
        let c ← crv.within kty
        let _ ← assign .curve key.curve crv
        Except.ok (make c)) key := by
  rw [EStateM.run_bind, run_ofExcept]
  cases family : crv.within kty with
  | error e => rfl
  | ok c => exact run_assignInPlace .curve curve crv _ key (placed c ((within_eq_ok_iff crv kty c).mp family))

theorem run_setCurveInPlace (crv : EllipticCurve) (key : Key) : (setCurveInPlace crv).run key =
    inPlace (key.setCurve crv) key := by
  obtain ⟨material, attributes⟩ := key
  cases material with
  | okp k =>
    apply run_assignCurveInPlace crv ⟨.okp k, attributes⟩
    rintro c rfl
    exact (onCurve_okp k attributes c.property).symm
  | ec2 k =>
    apply run_assignCurveInPlace crv ⟨.ec2 k, attributes⟩
    rintro c rfl
    exact (onCurve_ec2 k attributes c.property).symm
  | symmetric k => rfl
  | registered k => rfl

/-- What a step in place leaves is what the step gives, or the key that it was called on. -/
theorem run_editInPlace (key : Key) (e : Edit) : (editInPlace e).run key = inPlace (key.edit e) key := by
  cases e with
  | setAlg given => exact run_assignInPlace .algorithm alg given _ key rfl
  | setKeyOps op => exact run_assignInPlace .keyOperation keyOps op _ key rfl
  | setCurve crv => exact run_setCurveInPlace crv key
  | setKid kid => rfl
  | setBaseIv iv => rfl
  | adopt peer request =>
    simp only [editInPlace, edit, EStateM.run_bind, EStateM.run_get, run_ofExcept]
    cases key.resolve peer request <;> rfl

theorem after_of_edited {key next : Key} {e : Edit} (edited : key.edit e = .ok next) : key.after e = next := by
  rw [after, run_editInPlace, inPlace_eq_ok_iff.mpr edited]

theorem after_of_refused {key : Key} {e : Edit} {error : Error} (refused : key.edit e = .error error) :
    key.after e = key := by
  rw [after, run_editInPlace, inPlace_eq_error_iff.mpr ⟨refused, rfl⟩]

theorem keeps_after (key : Key) (e : Edit) : key.Keeps (key.after e) := by
  cases edited : key.edit e with
  | error error =>
    rw [after_of_refused edited]
    exact Keeps.refl key
  | ok next =>
    rw [after_of_edited edited]
    exact keeps_edit edited

theorem keeps_editAll (key : Key) (edits : List Edit) : key.Keeps (key.editAll edits) := by
  induction edits generalizing key with
  | nil => exact Keeps.refl key
  | cons e edits ih => exact (key.keeps_after e).trans (ih (key.after e))

theorem editAll_append (key : Key) (edits later : List Edit) :
    key.editAll (edits ++ later) = (key.editAll edits).editAll later := by
  induction edits generalizing key with
  | nil => rfl
  | cons e edits ih => exact ih (key.after e)

theorem reached_append {origin : Origin} {edits : List Edit} {key : Key}
    (reached : origin.reached edits = .ok key) (later : List Edit) :
    origin.reached (edits ++ later) = .ok (key.editAll later) := by
  obtain ⟨start, started, rfl⟩ := map_eq_ok_iff.mp reached
  rw [Origin.reached, started, ← editAll_append]
  rfl

/-- Whatever steps a key has been through, it has the parts that it started with, and they are enough for its
kind. Its curve, if it is on one, is of its own family. Algorithm, operation and curve that it holds at any
point it holds ever after, and a step that is refused leaves it as it was. -/
theorem same_key_for_life (origin : Origin) (edits : List Edit) (key : Key)
    (reached : origin.reached edits = .ok key) :
    (∃ start, origin.start = .ok start ∧ key.parts = start.parts ∧ key.keyType = start.keyType) ∧
    key.parts.Complete ∧
    (∀ crv, key.curve = some crv →
      crv ≠ .reserved ∧ ∃ kty, key.parts.family? = some kty ∧ crv.keyType? = some kty) ∧
    (∀ later, ∃ last, origin.reached (edits ++ later) = .ok last ∧ key.Keeps last) ∧
    (∀ e error, key.edit e = .error error → origin.reached (edits ++ [e]) = .ok key) := by
  refine ⟨?_, key.complete_parts, ?_, ?_, ?_⟩
  · obtain ⟨start, started, rfl⟩ := map_eq_ok_iff.mp reached
    have same := (start.keeps_editAll edits).parts
    refine ⟨start, started, same, ?_⟩
    rw [keyType_eq, keyType_eq, same]
  · intro crv held
    obtain ⟨kty, own, family⟩ := family_of_curve held
    exact ⟨not_reserved family, kty, own, family⟩
  · intro later
    exact ⟨_, reached_append reached later, key.keeps_editAll later⟩
  · intro e error refused
    rw [reached_append reached, editAll, editAll, after_of_refused refused]

theorem same_key_for_life_verifying :
    let origin := Origin.ec2 none (some [1]) (some [2]) none
    let edits := [.setAlg .es256, .setCurve .ed25519, .adopt none ⟨none, some .verify, some .p256⟩]
    ∃ key last, origin.reached edits = .ok key ∧
      origin.reached (edits ++ [.setCurve .p384]) = .ok key ∧
      origin.reached (edits ++ [.setKeyOps .sign, .setKid (some [7])]) = .ok last ∧
      last.parts = .ec2 (some [1]) (some [2]) none ∧ last.alg = some .es256 ∧
      last.keyOps = some .verify ∧ last.curve = some .p256 := by
  intro origin edits
  let key : Key := ⟨.ec2 ⟨some ⟨.p256, rfl⟩, some [1], some [2], none, by decide⟩,
    ⟨none, some .es256, some .verify, none⟩⟩
  have reached : origin.reached edits = .ok key := by decide +kernel
  have conflict : key.edit (.setCurve .p384) =
      .error (.keyConfigurationConflict (.curve (.assigned .p256 .p384))) := by decide +kernel
  obtain ⟨-, -, -, later, refused⟩ := same_key_for_life origin edits key reached
  obtain ⟨last, run, keeps⟩ := later [.setKeyOps .sign, .setKid (some [7])]
  exact ⟨key, last, reached, refused _ _ conflict, run, keeps.parts, keeps.alg _ rfl, keeps.keyOps _ rfl,
    keeps.curve _ rfl⟩

end Key

end Cose
