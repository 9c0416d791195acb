import Mathlib.Data.List.Basic
import Mathlib.Logic.Function.Basic
import Mathlib.Tactic

/-!
# A list whose entries are known by their place

Entries lie in a list without gaps, and every owner remembers the place of its own.
An entry is added at the end. It is removed by moving the last one into its place,
whose owner then has to remember the new one. `Slots` says that every owner finds its
entry and that every place has an owner; adding, changing and removing keep it
(`Slots.push`, `Slots.set`, `Slots.pop`, `Slots.swap_pop`).
-/

set_option autoImplicit false

namespace AirNet.Lib

variable {ι α : Type}

/-- The owners, the places they remember, and the entries they find there. -/
structure Slots (entries : List α) (owner : ι → Prop) (place : ι → Nat) (entry : ι → α) :
    Prop where
  found : ∀ c, owner c → entries[place c]? = some (entry c)
  owned : ∀ i, i < entries.length → ∃ c, owner c ∧ place c = i
  distinct : ∀ c d, owner c → owner d → place c = place d → c = d

namespace Slots

variable {entries : List α} {owner owner' : ι → Prop} {place place' : ι → Nat}
  {entry entry' : ι → α} {c : ι}

theorem nil (none : ∀ c, ¬ owner c) : Slots ([] : List α) owner place entry where
  found := fun c isOwner => absurd isOwner (none c)
  owned := by simp
  distinct := fun c _ isOwner => absurd isOwner (none c)

theorem place_lt (slots : Slots entries owner place entry) (isOwner : owner c) :
    place c < entries.length := by
  have found := slots.found c isOwner
  exact (List.getElem?_eq_some_iff.mp found).1

/-- Only the places and entries of owners matter. -/
theorem congr (slots : Slots entries owner place entry) (places : ∀ d, owner d → place' d = place d)
    (same : ∀ d, owner d → entry' d = entry d) : Slots entries owner place' entry' where
  found := by
    intro d isOwner
    rw [places d isOwner, same d isOwner]
    exact slots.found d isOwner
  owned := by
    intro i small
    obtain ⟨d, isOwner, at_⟩ := slots.owned i small
    exact ⟨d, isOwner, by rw [places d isOwner, at_]⟩
  distinct := by
    intro d e isOwner isOwner' equal
    rw [places d isOwner, places e isOwner'] at equal
    exact slots.distinct d e isOwner isOwner' equal

/-- A new owner has the last place. -/
theorem push (slots : Slots entries owner place entry)
    (owners : ∀ d, owner' d ↔ d = c ∨ owner d) (last : place' c = entries.length)
    (places : ∀ d, owner d → place' d = place d)
    (same : ∀ d, owner d → entry' d = entry d) :
    Slots (entries ++ [entry' c]) owner' place' entry' where
  found := by
    intro d isOwner
    rcases (owners d).mp isOwner with rfl | before
    · rw [last, List.getElem?_concat_length]
    · rw [places d before, List.getElem?_append_left (slots.place_lt before),
        slots.found d before, same d before]
  owned := by
    intro i small
    rw [List.length_append, List.length_singleton] at small
    rcases Nat.lt_succ_iff_lt_or_eq.mp small with inside | rfl
    · obtain ⟨d, isOwner, at_⟩ := slots.owned i inside
      exact ⟨d, (owners d).mpr (.inr isOwner), by rw [places d isOwner, at_]⟩
    · exact ⟨c, (owners c).mpr (.inl rfl), last⟩
  distinct := by
    intro d e isOwner isOwner' same
    rcases (owners d).mp isOwner with rfl | before
    · rcases (owners e).mp isOwner' with rfl | before'
      · rfl
      · rw [last, places e before'] at same
        exact absurd (slots.place_lt before') (by omega)
    · rcases (owners e).mp isOwner' with rfl | before'
      · rw [last, places d before] at same
        exact absurd (slots.place_lt before) (by omega)
      · rw [places d before, places e before'] at same
        exact slots.distinct d e before before' same

/-- An owner changes its entry. -/
theorem set (slots : Slots entries owner place entry) (isOwner : owner c)
    (owners : ∀ d, owner' d ↔ owner d) (same : ∀ d, d ≠ c → entry' d = entry d) :
    Slots (entries.set (place c) (entry' c)) owner' place entry' where
  found := by
    intro d isOwner'
    have before := (owners d).mp isOwner'
    by_cases own : d = c
    · subst own
      rw [List.getElem?_set_self (slots.place_lt before)]
    · have apart : place c ≠ place d := fun equal =>
        own (slots.distinct d c before isOwner equal.symm)
      rw [List.getElem?_set_ne apart, slots.found d before, same d own]
  owned := by
    intro i small
    rw [List.length_set] at small
    obtain ⟨d, before, at_⟩ := slots.owned i small
    exact ⟨d, (owners d).mpr before, at_⟩
  distinct := fun d e isOwner isOwner' =>
    slots.distinct d e ((owners d).mp isOwner) ((owners e).mp isOwner')

/-- The owner of the last entry leaves. -/
theorem pop (slots : Slots entries owner place entry)
    (owners : ∀ d, owner' d ↔ d ≠ c ∧ owner d) (isLast : place c = entries.length - 1)
    (isOwner : owner c) : Slots entries.dropLast owner' place entry where
  found := by
    intro d isOwner'
    obtain ⟨other, before⟩ := (owners d).mp isOwner'
    have inside := slots.place_lt before
    have apart : place d ≠ place c := fun equal =>
      other (slots.distinct d c before isOwner equal)
    rw [List.getElem?_dropLast, if_pos (by omega), slots.found d before]
  owned := by
    intro i small
    rw [List.length_dropLast] at small
    obtain ⟨d, before, at_⟩ := slots.owned i (by omega)
    refine ⟨d, (owners d).mpr ⟨?_, before⟩, at_⟩
    rintro rfl
    omega
  distinct := fun d e isOwner isOwner' =>
    slots.distinct d e ((owners d).mp isOwner).2 ((owners e).mp isOwner').2

theorem dropLast_set_last (l : List α) (a : α) :
    (l.set (l.length - 1) a).dropLast = l.dropLast := by
  refine List.ext_getElem? fun i => ?_
  rw [List.getElem?_dropLast, List.getElem?_dropLast, List.length_set]
  split_ifs with inside
  · rw [List.getElem?_set_ne (by omega)]
  · rfl

/-- An owner leaves, and the last one takes its place. -/
theorem swap_pop [DecidableEq ι] {e : ι} (slots : Slots entries owner place entry)
    (owners : ∀ d, owner' d ↔ d ≠ c ∧ owner d) (isOwner : owner c) (isOwner' : owner e)
    (isLast : place e = entries.length - 1) (other : e ≠ c) :
    Slots (entries.set (place c) (entry e)).dropLast owner'
      (Function.update place e (place c)) entry where
  found := by
    intro d stays
    obtain ⟨apart, before⟩ := (owners d).mp stays
    have inside := slots.place_lt isOwner
    have notLast : place c ≠ place e := fun equal =>
      other (slots.distinct c e isOwner isOwner' equal).symm
    rw [List.getElem?_dropLast, List.length_set]
    by_cases moved : d = e
    · subst moved
      rw [Function.update_self, if_pos (by omega), List.getElem?_set_self inside]
    · have unmoved : place d ≠ place e := fun equal =>
        moved (slots.distinct d e before isOwner' equal)
      have elsewhere : place c ≠ place d := fun equal =>
        apart (slots.distinct d c before isOwner equal.symm)
      have inside' := slots.place_lt before
      rw [Function.update_of_ne moved, if_pos (by omega), List.getElem?_set_ne elsewhere,
        slots.found d before]
  owned := by
    intro i small
    rw [List.length_dropLast, List.length_set] at small
    obtain ⟨d, before, at_⟩ := slots.owned i (by omega)
    by_cases left : d = c
    · subst left
      refine ⟨e, (owners e).mpr ⟨other, isOwner'⟩, ?_⟩
      rw [Function.update_self, at_]
    · refine ⟨d, (owners d).mpr ⟨left, before⟩, ?_⟩
      rw [Function.update_of_ne, at_]
      rintro rfl
      omega
  distinct := by
    intro d f stays stays' same
    obtain ⟨apart, before⟩ := (owners d).mp stays
    obtain ⟨apart', before'⟩ := (owners f).mp stays'
    by_cases moved : d = e
    · by_cases moved' : f = e
      · rw [moved, moved']
      · subst moved
        rw [Function.update_self, Function.update_of_ne moved'] at same
        exact absurd (slots.distinct c f isOwner before' same).symm apart'
    · by_cases moved' : f = e
      · subst moved'
        rw [Function.update_self, Function.update_of_ne moved] at same
        exact absurd (slots.distinct d c before isOwner same) apart
      · rw [Function.update_of_ne moved, Function.update_of_ne moved'] at same
        exact slots.distinct d f before before' same

end Slots

end AirNet.Lib
