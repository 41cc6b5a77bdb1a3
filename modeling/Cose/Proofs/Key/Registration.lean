import Mathlib.Data.List.Pairwise
import Mathlib.Data.List.Sort
import Cose.Key.Registry
import Cose.Proofs.Result

/-!
# Registrations

A registry only grows. Whatever registrations follow, taken or refused, an entry that stands keeps its
identifier, and the maps of its key type are read as before. For each identifier the first registration counts,
so registrations that agree with one another lead to the same registry in every order.
-/

set_option autoImplicit false

namespace Cose

open Result

namespace Registry

variable {φ : Type}

def Ascending (r : Registry φ) : Prop := r.entries.Pairwise (fun e f => e.id < f.id)

theorem id_of_find? {r : Registry φ} {id : Int64} {held : Registration φ} (found : r.find? id = some held) :
    held.id = id := by
  have same := List.find?_some found
  exact beq_iff_eq.mp same

theorem mem_place {reg e : Registration φ} {es : List (Registration φ)} :
    e ∈ place reg es ↔ e = reg ∨ e ∈ es := by
  induction es with
  | nil => simp [place]
  | cons head es ih =>
    rw [place]
    split
    · simp
    · rw [List.mem_cons, ih, List.mem_cons, or_left_comm]

theorem sublist_place (reg : Registration φ) (es : List (Registration φ)) : es.Sublist (place reg es) := by
  induction es with
  | nil => exact List.nil_sublist _
  | cons head es ih =>
    rw [place]
    split
    · exact List.sublist_cons_self reg (head :: es)
    · exact ih.cons_cons head

theorem ascending_place {reg : Registration φ} {es : List (Registration φ)}
    (ascending : es.Pairwise (fun e f => e.id < f.id)) (fresh : ∀ e ∈ es, e.id ≠ reg.id) :
    (place reg es).Pairwise (fun e f => e.id < f.id) := by
  induction es with
  | nil => exact List.pairwise_singleton _ reg
  | cons head es ih =>
    obtain ⟨first, rest⟩ := List.pairwise_cons.mp ascending
    rw [place]
    split
    · next before =>
      refine List.pairwise_cons.mpr ⟨fun e mem => ?_, ascending⟩
      rcases List.mem_cons.mp mem with rfl | mem
      · exact before
      · exact Int64.lt_trans before (first e mem)
    · next behind =>
      have after : head.id < reg.id := by
        have other : head.id ≠ reg.id := fresh head List.mem_cons_self
        rw [Int64.lt_iff_toInt_lt] at behind ⊢
        rw [ne_eq, ← Int64.toInt_inj] at other
        omega
      refine List.pairwise_cons.mpr ⟨fun e mem => ?_, ih rest fun e mem => fresh e (List.mem_cons_of_mem _ mem)⟩
      rcases mem_place.mp mem with rfl | mem
      · exact after
      · exact first e mem

theorem find?_place {reg : Registration φ} {es : List (Registration φ)}
    (fresh : es.find? (·.id == reg.id) = none) (id : Int64) :
    (place reg es).find? (·.id == id) = (es.find? (·.id == id)).or ([reg].find? (·.id == id)) := by
  induction es with
  | nil => rfl
  | cons head es ih =>
    simp only [List.find?_eq_none, List.forall_mem_cons, beq_iff_eq] at fresh ih
    obtain ⟨other, fresh⟩ := fresh
    rw [place]
    split <;> grind

/-- The identifier is taken by a registration with another name or another way of reading. -/
def Collides (r : Registry φ) (reg : Registration φ) : Prop :=
  ∃ held, r.find? reg.id = some held ∧ (held.name ≠ reg.name ∨ held.factory ≠ reg.factory)

theorem eq_iff_of_id {held reg : Registration φ} (same : held.id = reg.id) :
    held = reg ↔ held.name = reg.name ∧ held.factory = reg.factory := by
  obtain ⟨id, name, factory⟩ := held
  obtain ⟨id', name', factory'⟩ := reg
  obtain rfl : id = id' := same
  simp

theorem collides_iff (r : Registry φ) (reg : Registration φ) :
    r.Collides reg ↔ ∃ held, r.find? reg.id = some held ∧ held ≠ reg := by
  refine exists_congr fun held => and_congr_right fun found => ?_
  have same : held ≠ reg ↔ _ := not_congr (eq_iff_of_id (id_of_find? found))
  rw [same, not_and_or]

/-! Of registrations that agree it does not matter which one is found. -/

/-- No two registrations of the list want different things for one identifier. -/
def Agree (regs : List (Registration φ)) : Prop := ∀ a ∈ regs, ∀ b ∈ regs, a.id = b.id → a = b

theorem find?_eq_some_iff_of_agree {regs : List (Registration φ)} (agree : Agree regs) (id : Int64)
    (reg : Registration φ) : regs.find? (·.id == id) = some reg ↔ reg ∈ regs ∧ reg.id = id := by
  constructor
  · intro found
    have same := List.find?_some found
    exact ⟨List.mem_of_find?_eq_some found, beq_iff_eq.mp same⟩
  · rintro ⟨mem, rfl⟩
    cases found : regs.find? (·.id == reg.id) with
    | none =>
      have absent := List.find?_eq_none.mp found reg mem
      simp at absent
    | some first =>
      have same := List.find?_some found
      rw [agree first (List.mem_of_find?_eq_some found) reg mem (beq_iff_eq.mp same)]

theorem agree_of_ascending {r : Registry φ} (ascending : r.Ascending) : Agree r.entries := by
  have distinct : r.entries.Pairwise (fun e f => e.id ≠ f.id) :=
    ascending.imp Int64.ne_of_lt
  have symm : Std.Symm (fun e f : Registration φ => e.id ≠ f.id) := ⟨fun _ _ => Ne.symm⟩
  intro a ha b hb same
  by_contra other
  exact distinct.forall ha hb other same

theorem mem_entries_iff {r : Registry φ} (ascending : r.Ascending) (e : Registration φ) :
    e ∈ r.entries ↔ r.find? e.id = some e := by
  have found := find?_eq_some_iff_of_agree (agree_of_ascending ascending) e.id e
  rw [find?, found, and_iff_left rfl]

theorem ascending_ext {r s : Registry φ} (hr : r.Ascending) (hs : s.Ascending)
    (same : ∀ id, r.find? id = s.find? id) : r = s := by
  have irrefl : Std.Irrefl (fun e f : Registration φ => e.id < f.id) := ⟨fun e => Int64.lt_irrefl⟩
  have antisymm : Std.Antisymm (fun e f : Registration φ => e.id < f.id) :=
    ⟨fun e f hef hfe => absurd (Int64.lt_trans hef hfe) Int64.lt_irrefl⟩
  have entries : r.entries = s.entries := by
    apply List.Pairwise.eq_of_mem_iff hr hs
    intro e
    rw [mem_entries_iff hr, same, ← mem_entries_iff hs]
  cases r
  cases s
  exact congrArg Registry.mk entries

section

variable [DecidableEq φ]

theorem register_eq_ok_iff (r next : Registry φ) (reg : Registration φ) : r.register reg = .ok next ↔
    r.find? reg.id = none ∧ next = ⟨place reg r.entries⟩ ∨ r.find? reg.id = some reg ∧ next = r := by
  rw [register]
  cases found : r.find? reg.id with
  | none => simp [eq_comm]
  | some held =>
    by_cases same : held = reg
    · simp [same, eq_comm]
    · simp [same]

theorem register_eq_error_iff (r : Registry φ) (reg : Registration φ) (e : Error) :
    r.register reg = .error e ↔ r.Collides reg ∧ e = .keyTypeAlreadyRegistered reg.id := by
  rw [register, collides_iff]
  cases found : r.find? reg.id with
  | none => simp
  | some held =>
    by_cases same : held = reg
    · simp [same]
    · simp only [same, if_false, Except.error.injEq, Option.some.injEq, exists_eq_left', ne_eq,
        not_false_eq_true, true_and]
      exact eq_comm

/-! What a registration leaves behind, and then a series of them. -/

theorem extend_cases (r : Registry φ) (reg : Registration φ) :
    r.find? reg.id = none ∧ r.extend reg = ⟨place reg r.entries⟩ ∨
      (∃ held, r.find? reg.id = some held) ∧ r.extend reg = r := by
  rw [extend]
  cases called : r.register reg with
  | ok next =>
    rcases (r.register_eq_ok_iff next reg).mp called with ⟨fresh, rfl⟩ | ⟨held, rfl⟩
    · exact Or.inl ⟨fresh, rfl⟩
    · exact Or.inr ⟨⟨reg, held⟩, rfl⟩
  | error e =>
    obtain ⟨⟨held, found, -⟩, -⟩ := (r.register_eq_error_iff reg e).mp called
    exact Or.inr ⟨⟨held, found⟩, rfl⟩

theorem find?_extend (r : Registry φ) (reg : Registration φ) (id : Int64) :
    (r.extend reg).find? id = (r.find? id).or ([reg].find? (·.id == id)) := by
  rcases r.extend_cases reg with ⟨fresh, placed⟩ | ⟨⟨held, found⟩, same⟩
  · rw [placed]
    exact find?_place fresh id
  · rw [same]
    by_cases own : reg.id = id
    · rw [← own, found, Option.some_or]
    · simp [own]

theorem sublist_extend (r : Registry φ) (reg : Registration φ) : r.entries.Sublist (r.extend reg).entries := by
  rcases r.extend_cases reg with ⟨-, placed⟩ | ⟨-, same⟩
  · rw [placed]
    exact sublist_place reg r.entries
  · rw [same]

theorem ascending_extend {r : Registry φ} (ascending : r.Ascending) (reg : Registration φ) :
    (r.extend reg).Ascending := by
  rcases r.extend_cases reg with ⟨fresh, placed⟩ | ⟨-, same⟩
  · rw [placed]
    apply ascending_place ascending
    simpa [find?] using fresh
  · rw [same]
    exact ascending

/-- For each identifier the entry that stood counts, and after it the first registration. -/
theorem find?_extendAll (r : Registry φ) (regs : List (Registration φ)) (id : Int64) :
    (r.extendAll regs).find? id = (r.find? id).or (regs.find? (·.id == id)) := by
  induction regs generalizing r with
  | nil => exact Option.or_none.symm
  | cons reg regs ih =>
    have step : (r.extendAll (reg :: regs)).find? id = ((r.extend reg).extendAll regs).find? id := rfl
    rw [step, ih, find?_extend, Option.or_assoc, ← List.find?_append, List.singleton_append]

theorem sublist_extendAll (r : Registry φ) (regs : List (Registration φ)) :
    r.entries.Sublist (r.extendAll regs).entries := by
  induction regs generalizing r with
  | nil => exact List.Sublist.refl _
  | cons reg regs ih => exact (r.sublist_extend reg).trans (ih (r.extend reg))

theorem ascending_extendAll {r : Registry φ} (ascending : r.Ascending) (regs : List (Registration φ)) :
    (r.extendAll regs).Ascending := by
  induction regs generalizing r with
  | nil => exact ascending
  | cons reg regs ih => exact ih (ascending_extend ascending reg)

theorem extendAll_perm {r : Registry φ} (ascending : r.Ascending) {regs regs' : List (Registration φ)}
    (order : regs.Perm regs') (agree : Agree regs) : r.extendAll regs = r.extendAll regs' := by
  have agree' : Agree regs' := fun a ha b hb => agree a (order.mem_iff.mpr ha) b (order.mem_iff.mpr hb)
  apply ascending_ext (ascending_extendAll ascending regs) (ascending_extendAll ascending regs')
  intro id
  have first : regs.find? (·.id == id) = regs'.find? (·.id == id) := by
    apply Option.ext
    intro reg
    rw [find?_eq_some_iff_of_agree agree, find?_eq_some_iff_of_agree agree', order.mem_iff]
  rw [find?_extendAll, find?_extendAll, first]

/-- Registering in place: the entry that is found decides, and only where there is none something is changed. -/
def registerInPlace (reg : Registration φ) : EStateM Error (Registry φ) Unit := do
  match (← get).find? reg.id with
  | some held =>
    if held.name = reg.name ∧ held.factory = reg.factory then pure ()
    else throw (.keyTypeAlreadyRegistered reg.id)
  | none => modify fun r => ⟨place reg r.entries⟩

def registerEach : List (Registration φ) → EStateM Error (Registry φ) Unit
  | [] => pure ()
  | reg :: regs => do
    tryCatch (registerInPlace reg) fun _ => pure ()
    registerEach regs

theorem run_registerInPlace (r : Registry φ) (reg : Registration φ) :
    (registerInPlace reg).run r = inPlace (r.register reg) r := by
  rw [registerInPlace, register]
  simp only [EStateM.run_bind, EStateM.run_get]
  cases found : r.find? reg.id with
  | none => rfl
  | some held =>
    have same := eq_iff_of_id (id_of_find? found)
    by_cases own : held = reg
    · simp [own]
    · simp [own, ← same]

theorem registerInPlace_refused_iff (r left : Registry φ) (reg : Registration φ) (e : Error) :
    (registerInPlace reg).run r = .error e left ↔
      r.Collides reg ∧ e = .keyTypeAlreadyRegistered reg.id ∧ left = r := by
  rw [run_registerInPlace, inPlace_eq_error_iff, register_eq_error_iff, and_assoc]

theorem run_registerEach (r : Registry φ) (regs : List (Registration φ)) :
    (registerEach regs).run r = .ok () (r.extendAll regs) := by
  induction regs generalizing r with
  | nil => rfl
  | cons reg regs ih =>
    have passed : (tryCatch (registerInPlace reg) fun _ => pure ()).run r = .ok () (r.extend reg) := by
      change EStateM.tryCatch (registerInPlace reg) (fun _ => pure ()) r = _
      have called := run_registerInPlace r reg
      rw [EStateM.run] at called
      rw [EStateM.tryCatch, called, extend]
      cases r.register reg with
      | ok next => rfl
      | error e => rfl
    rw [registerEach, EStateM.run_bind, passed]
    exact ih (r.extend reg)

end

/-! How the maps of a key type are read depends on its entry alone. -/

section

variable [KeyReader φ]

theorem decode_congr {r s : Registry φ} {m : Map} {id : Int64}
    (kty : m.find? Parameter.kty.label = some (.int id)) (same : r.find? id = s.find? id) :
    r.decode m = s.decode m := by
  simp only [decode, kty, same]

theorem find?_builtinIn (id : Int64) : (builtinIn : Registry φ).find? id =
    (builtin.find? id).map fun e => ⟨e.id, e.name, KeyReader.ofFactory e.factory⟩ :=
  List.find?_map

theorem decode_builtinIn (m : Map) : (builtinIn : Registry φ).decode m = builtin.decode m := by
  unfold decode
  split
  · next id _ =>
    rw [find?_builtinIn]
    cases builtin.find? id with
    | none => rfl
    | some e =>
      have same : KeyReader.read (KeyReader.ofFactory e.factory : φ) = e.factory.build :=
        KeyReader.read_ofFactory e.factory
      exact congrFun same m
  · rfl
  · rfl

theorem ascending_builtinIn : (builtinIn : Registry φ).Ascending := by
  have order : builtin.Ascending := by
    simp [Ascending, builtin]
  exact List.pairwise_map.mpr order

section

variable [DecidableEq φ]

theorem decode_extendAll {r : Registry φ} {m : Map} {id : Int64}
    (kty : m.find? Parameter.kty.label = some (.int id)) (registered : r.isRegistered id = true)
    (regs : List (Registration φ)) : (r.extendAll regs).decode m = r.decode m := by
  obtain ⟨held, found⟩ := Option.isSome_iff_exists.mp registered
  apply decode_congr kty
  rw [find?_extendAll, found, Option.some_or]

theorem decode_withExtensions {m : Map} {id : Int64} (kty : m.find? Parameter.kty.label = some (.int id))
    (known : id ∈ ([1, 2, 4] : List Int64)) (regs : List (Registration φ)) :
    (withExtensions regs).decode m = builtin.decode m := by
  have registered : (builtinIn : Registry φ).isRegistered id = true := by
    rw [isRegistered, find?_builtinIn, Option.isSome_map]
    simp only [List.mem_cons, List.not_mem_nil, or_false] at known
    rcases known with rfl | rfl | rfl <;> rfl
  rw [withExtensions, decode_extendAll kty registered, decode_builtinIn]

/-- Whatever registrations follow, taken or refused, every entry of a registry stays as it is, and the maps of its
key type are read as before; what comes to stand under a free identifier is the first registration for it. A call
fails exactly if the identifier is taken with another name or another way of reading, and then it changes
nothing. So extensions leave the reading of the built-in key types alone, and if no
two of them want different things for one identifier they lead to the same registry in every order. -/
theorem registered_for_good :
    (∀ (r : Registry φ) (regs : List (Registration φ)),
      (registerEach regs).run r = .ok () (r.extendAll regs) ∧
      (∀ id, (r.extendAll regs).find? id = (r.find? id).or (regs.find? (·.id == id))) ∧
      r.entries.Sublist (r.extendAll regs).entries ∧
      (∀ id held, r.find? id = some held → (r.extendAll regs).find? id = some held) ∧
      ∀ m id, m.find? Parameter.kty.label = some (.int id) → r.isRegistered id = true →
        (r.extendAll regs).decode m = r.decode m) ∧
    (∀ (r left : Registry φ) (reg : Registration φ) (e : Error),
      (registerInPlace reg).run r = .error e left ↔
        r.Collides reg ∧ e = .keyTypeAlreadyRegistered reg.id ∧ left = r) ∧
    (∀ (regs : List (Registration φ)) (m : Map) (id : Int64), id ∈ ([1, 2, 4] : List Int64) →
      m.find? Parameter.kty.label = some (.int id) → (withExtensions regs).decode m = builtin.decode m) ∧
    ∀ regs regs' : List (Registration φ), regs.Perm regs' → Agree regs →
      withExtensions regs = withExtensions regs' := by
  refine ⟨?_, ?_, ?_, ?_⟩
  · intro r regs
    refine ⟨run_registerEach r regs, find?_extendAll r regs, sublist_extendAll r regs, ?_, ?_⟩
    · intro id held found
      rw [find?_extendAll, found, Option.some_or]
    · intro m id kty registered
      exact decode_extendAll kty registered regs
  · intro r left reg e
    exact registerInPlace_refused_iff r left reg e
  · intro regs m id known kty
    exact decode_withExtensions kty known regs
  · intro regs regs' order agree
    exact extendAll_perm ascending_builtinIn order agree

end

end

theorem registered_for_good_linked :
    let regs : List Registration := [⟨3, "RSA", .registered⟩, ⟨2, "EC2", .registered⟩,
      ⟨-70000, "linked-test", .registered⟩, ⟨3, "RSA", .registered⟩]
    let m : Map := [(.int (-1), .bytes [7]), (.int 1, .int 4)]
    (withExtensions regs).find? 2 = some ⟨2, "EC2", .ec2⟩ ∧
    (registerInPlace ⟨2, "EC2", .registered⟩).run builtin = .error (.keyTypeAlreadyRegistered 2) builtin ∧
    (withExtensions regs).decode m = builtin.decode m ∧
    withExtensions regs = withExtensions regs.reverse := by
  intro regs m
  obtain ⟨stable, refused, built, any_order⟩ := registered_for_good (φ := Factory)
  obtain ⟨-, -, -, kept, -⟩ := stable builtinIn regs
  refine ⟨kept 2 _ rfl, ?_, built regs m 4 (by decide) rfl, any_order regs regs.reverse ?_ ?_⟩
  · exact (refused builtin builtin _ _).mpr ⟨⟨_, rfl, Or.inr (by decide)⟩, rfl, rfl⟩
  · exact (List.reverse_perm regs).symm
  · unfold Agree
    decide

end Registry

end Cose
