import Cose.Proofs.Header

/-!
# Headers under edits

A header starts empty, from a map or from received bytes, and goes through any number of edits. One edit is
enough for the received bytes to be gone for good, and until then they are what is signed. At every point the
protected form and the map say the same.
-/

set_option autoImplicit false

namespace Cose

open Result

namespace Header

inductive Origin where
  | empty
  | ofMap (m : Map)
  | received (bs : Bytes)

inductive Edit where
  | insert (l : Label) (v : Value)
  | clear

def Origin.start : Origin → Result Header
  | .empty => .ok .empty
  | .ofMap m => .ok (.ofMap m)
  | .received bs => Header.ofProtected bs

def edit (h : Header) : Edit → Header
  | .insert l v => h.insert l v
  | .clear => h.clear

def editAll (h : Header) : List Edit → Header
  | [] => h
  | e :: es => editAll (h.edit e) es

def Origin.reached (origin : Origin) (edits : List Edit) : Result Header :=
  origin.start.map (·.editAll edits)

/-- Maps that are handed in are in label order, the outermost and those inside. -/
def Origin.Ordered : Origin → Prop
  | .ofMap m => (Value.map m).Ordered
  | _ => True

def Edit.Ordered : Edit → Prop
  | .insert _ v => v.Ordered
  | .clear => True

theorem start_reachable {origin : Origin} (ordered : origin.Ordered) {h : Header}
    (started : origin.start = .ok h) : h.Reachable := by
  cases origin with
  | empty =>
    obtain rfl := Except.ok.inj started
    exact .empty
  | ofMap m =>
    obtain rfl := Except.ok.inj started
    exact .ofMap m ordered
  | received bs => exact .ofProtected started

theorem edit_reachable {h : Header} (reachable : h.Reachable) {e : Edit} (ordered : e.Ordered) :
    (h.edit e).Reachable := by
  cases e with
  | insert l v => exact .insert reachable l v ordered
  | clear => exact .clear reachable

theorem editAll_reachable {h : Header} (reachable : h.Reachable) {edits : List Edit}
    (ordered : ∀ e ∈ edits, e.Ordered) : (h.editAll edits).Reachable := by
  induction edits generalizing h with
  | nil => exact reachable
  | cons e edits ih =>
    have step := edit_reachable reachable (ordered e List.mem_cons_self)
    exact ih step fun f hf => ordered f (List.mem_cons_of_mem e hf)

theorem retained_edit (h : Header) (e : Edit) : (h.edit e).retained = [] := by
  cases e <;> rfl

theorem retained_editAll {h : Header} (gone : h.retained = []) (edits : List Edit) :
    (h.editAll edits).retained = [] := by
  induction edits generalizing h with
  | nil => exact gone
  | cons e edits ih => exact ih (h.retained_edit e)

/-- Nothing is retained but bytes that were received and not edited since. -/
theorem retained_reached {origin : Origin} {edits : List Edit} {h : Header}
    (reached : origin.reached edits = .ok h)
    (changed : ¬ ∃ bs, origin = .received bs ∧ edits = []) : h.retained = [] := by
  obtain ⟨start, started, rfl⟩ := map_eq_ok_iff.mp reached
  cases edits with
  | nil =>
    cases origin with
    | empty =>
      obtain rfl := Except.ok.inj started
      rfl
    | ofMap m =>
      obtain rfl := Except.ok.inj started
      rfl
    | received bs => exact absurd ⟨bs, rfl, rfl⟩ changed
  | cons e edits => exact retained_editAll (start.retained_edit e) edits

theorem protectedBytes_of_retained {h : Header} (gone : h.retained = []) :
    h.protectedBytes = if h.map = [] then [] else h.map.toBytes := by
  simp [protectedBytes, gone]

theorem reached_reachable {origin : Origin} {edits : List Edit} {h : Header}
    (reached : origin.reached edits = .ok h) (ordered : origin.Ordered)
    (edits_ordered : ∀ e ∈ edits, e.Ordered) : h.Reachable := by
  obtain ⟨start, started, rfl⟩ := map_eq_ok_iff.mp reached
  exact editAll_reachable (start_reachable ordered started) edits_ordered

/-- Whatever sequence of edits led to a header: what it retains are bytes of its map; it is written as the bytes
it was received in until the first edit, and freshly after that; and what is written is read back as the map,
up to the bound on the nesting. -/
theorem reached_consistent (origin : Origin) (edits : List Edit) (h : Header)
    (reached : origin.reached edits = .ok h) (ordered : origin.Ordered)
    (edits_ordered : ∀ e ∈ edits, e.Ordered) :
    (h.retained = [] ∨ Map.ofBytes h.retained = .ok h.map) ∧
    (∀ bs, origin = .received bs ∧ edits = [] → h.protectedBytes = bs) ∧
    ((¬ ∃ bs, origin = .received bs ∧ edits = []) →
      h.protectedBytes = if h.map = [] then [] else h.map.toBytes) ∧
    ((Value.map h.map).Sized → (Value.map h.map).depth ≤ 64 →
      Map.ofBytes h.protectedBytes = .ok h.map) := by
  have faithful := reachable_faithful (reached_reachable reached ordered edits_ordered)
  refine ⟨faithful.retained, ?_, ?_, ?_⟩
  · rintro bs ⟨rfl, rfl⟩
    obtain ⟨start, started, rfl⟩ := map_eq_ok_iff.mp reached
    exact protectedBytes_ofProtected started
  · intro changed
    exact protectedBytes_of_retained (retained_reached reached changed)
  · intro sized depth
    exact ofBytes_protectedBytes faithful sized depth

theorem reached_consistent_received :
    (∃ h, (Origin.received [0xa1, 0x18, 0x01, 0x26]).reached [] = .ok h ∧
      h.protectedBytes = [0xa1, 0x18, 0x01, 0x26]) ∧
    ∃ h, (Origin.received [0xa1, 0x18, 0x01, 0x26]).reached [.insert (.text "x") .null] = .ok h ∧
      h.protectedBytes = [0xa2, 0x01, 0x26, 0x61, 0x78, 0xf6] ∧
      Map.ofBytes h.protectedBytes = .ok h.map := by
  constructor
  · refine ⟨⟨[0xa1, 0x18, 0x01, 0x26], [(.int 1, .int (-7))]⟩, by decide +kernel, ?_⟩
    apply (reached_consistent (.received [0xa1, 0x18, 0x01, 0x26]) [] _ (by decide +kernel) trivial
      (by simp)).2.1
    exact ⟨rfl, rfl⟩
  · refine ⟨⟨[], [(.int 1, .int (-7)), (.text "x", .null)]⟩, by decide +kernel, by decide +kernel, ?_⟩
    apply (reached_consistent (.received [0xa1, 0x18, 0x01, 0x26]) [.insert (.text "x") .null] _
      (by decide +kernel) trivial (by simp [Edit.Ordered, Value.Ordered])).2.2.2
    · simp [Value.Sized, Value.SizedEntries, Label.Sized, Bytes.ofText]
      decide
    · decide

end Header

end Cose
