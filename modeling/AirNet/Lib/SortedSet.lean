import Mathlib.Data.List.Sort
import Mathlib.Tactic

/-!
# Ordered sets

A set of elements of a linear order that is walked through in their order. Its
elements are a list without duplicates that is sorted, and the structure says so,
so no operation can leave the order. Every operation says what it did as the
library of the language does: `insert` whether the element is new, `erase` how many
elements it removed. What is known of a set is which elements it has (`mem_insert`,
`mem_erase`, `mem_below`, `mem_rest`), which one is the first (`first_le`), and how
many there are (`size_eq`).
-/

set_option autoImplicit false

namespace AirNet.Lib

structure SortedSet (α : Type) [LinearOrder α] where
  elements : List α
  sorted : elements.Pairwise (· < ·)
  deriving DecidableEq

namespace SortedSet

variable {α : Type} [LinearOrder α]

instance : Membership α (SortedSet α) := ⟨fun s a => a ∈ s.elements⟩

instance (a : α) (s : SortedSet α) : Decidable (a ∈ s) :=
  inferInstanceAs (Decidable (a ∈ s.elements))

theorem mem_def {a : α} {s : SortedSet α} : a ∈ s ↔ a ∈ s.elements := Iff.rfl

def empty (α : Type) [LinearOrder α] : SortedSet α where
  elements := []
  sorted := .nil

@[simp] theorem not_mem_empty (a : α) : a ∉ empty α := List.not_mem_nil

def size (s : SortedSet α) : Nat := s.elements.length

/-- `begin()`; nothing where it is `end()`. -/
def first (s : SortedSet α) : Option α := s.elements.head?

theorem nodup (s : SortedSet α) : s.elements.Nodup := s.sorted.imp ne_of_lt

/-- A set is known by its elements. -/
theorem ext_mem {s t : SortedSet α} (same : ∀ a, a ∈ s ↔ a ∈ t) : s = t := by
  have perm : s.elements.Perm t.elements :=
    (List.perm_ext_iff_of_nodup s.nodup t.nodup).mpr same
  have elements : s.elements = t.elements :=
    perm.eq_of_pairwise (fun _ _ _ _ less greater => absurd greater less.asymm) s.sorted t.sorted
  cases s
  cases t
  cases elements
  rfl

/-- An element put into its place. -/
theorem sorted_orderedInsert {a : α} {l : List α} (absent : a ∉ l)
    (sorted : l.Pairwise (· < ·)) : (l.orderedInsert (· ≤ ·) a).Pairwise (· < ·) := by
  have weakly := List.Pairwise.orderedInsert a l (sorted.imp le_of_lt)
  have distinct : (l.orderedInsert (· ≤ ·) a).Nodup := by
    rw [(List.perm_orderedInsert (· ≤ ·) a l).nodup_iff, List.nodup_cons]
    exact ⟨absent, sorted.imp ne_of_lt⟩
  exact (weakly.and distinct).imp fun both => lt_of_le_of_ne both.1 both.2

/-- The set with the element, and whether it is new. -/
def insert (a : α) (s : SortedSet α) : SortedSet α × Bool :=
  if present : a ∈ s.elements then (s, false)
  else (⟨s.elements.orderedInsert (· ≤ ·) a, sorted_orderedInsert present s.sorted⟩, true)

/-- The set without the element, and the number of elements removed. -/
def erase (a : α) (s : SortedSet α) : SortedSet α × Nat :=
  (⟨s.elements.erase a, s.sorted.sublist List.erase_sublist⟩, s.elements.count a)

/-- The elements before `lower_bound(bound)`, in order. -/
def below (bound : α) (s : SortedSet α) : List α := s.elements.takeWhile (· < bound)

/-- The set from `lower_bound(bound)` on. -/
def rest (bound : α) (s : SortedSet α) : SortedSet α where
  elements := s.elements.dropWhile (· < bound)
  sorted := s.sorted.sublist (List.dropWhile_sublist _)

/-! ## Which elements there are -/

variable {a b bound : α} {s : SortedSet α}

@[simp] theorem mem_insert : b ∈ (s.insert a).1 ↔ b = a ∨ b ∈ s := by
  rw [insert]
  split_ifs with present
  · exact ⟨.inr, fun member => member.elim (fun same => same ▸ present) id⟩
  · exact List.mem_orderedInsert _

theorem insert_snd : (s.insert a).2 = true ↔ a ∉ s := by
  rw [insert]
  split_ifs with present
  · exact iff_of_false id (not_not_intro present)
  · exact iff_of_true rfl present

@[simp] theorem mem_erase : b ∈ (s.erase a).1 ↔ b ≠ a ∧ b ∈ s := s.nodup.mem_erase_iff

theorem erase_snd (member : a ∈ s) : (s.erase a).2 = 1 := List.count_eq_one_of_mem s.nodup member

/-- In a sorted list the elements below a bound come first. -/
theorem not_lt_of_mem_dropWhile {l : List α} (sorted : l.Pairwise (· < ·))
    (member : b ∈ l.dropWhile (· < bound)) : ¬ b < bound := by
  induction l with
  | nil => cases member
  | cons x l ih =>
      obtain ⟨least, tail⟩ := List.pairwise_cons.mp sorted
      by_cases small : x < bound
      · rw [List.dropWhile_cons_of_pos (by simpa using small)] at member
        exact ih tail member
      · rw [List.dropWhile_cons_of_neg (by simpa using small)] at member
        rcases List.mem_cons.mp member with rfl | later
        · exact small
        · exact fun smaller => small ((least b later).trans smaller)

theorem lt_of_mem_takeWhile {l : List α} (member : b ∈ l.takeWhile (· < bound)) : b < bound :=
  of_decide_eq_true (List.all_eq_true.mp List.all_takeWhile b member)

theorem mem_split : b ∈ s ↔ b ∈ s.below bound ∨ b ∈ s.rest bound := by
  rw [mem_def, mem_def, below, rest, ← List.mem_append, List.takeWhile_append_dropWhile]

@[simp] theorem mem_below : b ∈ s.below bound ↔ b ∈ s ∧ b < bound := by
  constructor
  · intro member
    exact ⟨mem_split.mpr (.inl member), lt_of_mem_takeWhile member⟩
  · rintro ⟨member, small⟩
    refine (mem_split.mp member).resolve_right fun later => ?_
    exact not_lt_of_mem_dropWhile s.sorted later small

@[simp] theorem mem_rest : b ∈ s.rest bound ↔ b ∈ s ∧ ¬ b < bound := by
  constructor
  · intro member
    exact ⟨mem_split.mpr (.inr member), not_lt_of_mem_dropWhile s.sorted member⟩
  · rintro ⟨member, large⟩
    refine (mem_split.mp member).resolve_left fun earlier => large ?_
    exact (mem_below.mp earlier).2

theorem nodup_below : (s.below bound).Nodup := s.nodup.sublist (List.takeWhile_sublist _)

/-! ## The first element and the number of elements -/

theorem first_mem (isFirst : s.first = some a) : a ∈ s := List.mem_of_head? isFirst

theorem first_le (isFirst : s.first = some a) (member : b ∈ s) : a ≤ b := by
  obtain ⟨tail, elements⟩ := List.head?_eq_some_iff.mp isFirst
  rw [mem_def, elements] at member
  have sorted := s.sorted
  rw [elements, List.pairwise_cons] at sorted
  rcases List.mem_cons.mp member with rfl | later
  · exact le_refl b
  · exact (sorted.1 b later).le

theorem first_eq_none : s.first = none ↔ ∀ b, b ∉ s := by
  rw [first, List.head?_eq_none_iff, List.eq_nil_iff_forall_not_mem]
  rfl

/-- Two sets whose elements correspond have the same size. -/
theorem size_eq {β : Type} [LinearOrder β] {t : SortedSet β} (f : α → β)
    (inj : ∀ a ∈ s, ∀ b ∈ s, f a = f b → a = b) (image : ∀ b, b ∈ t ↔ ∃ a ∈ s, f a = b) :
    s.size = t.size := by
  have perm : t.elements.Perm (s.elements.map f) := by
    refine (List.perm_ext_iff_of_nodup t.nodup (s.nodup.map_on inj)).mpr fun b => ?_
    rw [List.mem_map]
    exact image b
  rw [size, size, perm.length_eq, List.length_map]

end SortedSet

end AirNet.Lib
