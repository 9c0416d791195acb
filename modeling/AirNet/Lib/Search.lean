import Mathlib.Tactic

/-!
# Searching for a pattern

`search` finds where a pattern occurs first in a list, or the end of the list if
it does not occur. What is known not to begin in the front of the list need not be
searched again (`search_drop`); after the list has grown, this is all but the last
`pattern.length - 1` symbols of what was searched before (`search_append`).

A pattern that is not empty cuts a stream into pieces, each up to the first
occurrence of the pattern, and a rest without the pattern. There is one way to do
so (`Cuts.unique`).
-/

set_option autoImplicit false

namespace AirNet.Lib

variable {α : Type} {pattern : List α}

/-- An occurrence that lies inside the front is one of the front. -/
theorem isPrefix_drop_of_append {xs more : List α} {i : Nat}
    (inside : i + pattern.length ≤ xs.length) (occurs : pattern <+: (xs ++ more).drop i) :
    pattern <+: xs.drop i := by
  rw [List.drop_append_of_le_length (by omega)] at occurs
  refine List.prefix_of_prefix_length_le occurs (List.prefix_append _ _) ?_
  rw [List.length_drop]
  omega

variable [DecidableEq α]

/-- The position of the first occurrence, or the length of the list. -/
def search (pattern : List α) : List α → Nat
  | [] => 0
  | x :: xs => if pattern <+: x :: xs then 0 else search pattern xs + 1

theorem search_le_length (pattern xs : List α) : search pattern xs ≤ xs.length := by
  induction xs with
  | nil => exact le_refl 0
  | cons x xs ih =>
      rw [search]
      split_ifs
      · exact Nat.zero_le _
      · exact Nat.succ_le_succ ih

/-- Where the search stops before the end the pattern occurs. -/
theorem isPrefix_drop_search {xs : List α} (found : search pattern xs < xs.length) :
    pattern <+: xs.drop (search pattern xs) := by
  induction xs with
  | nil => exact absurd found (Nat.not_lt_zero _)
  | cons x xs ih =>
      rw [search] at found ⊢
      split_ifs at found ⊢ with occurs
      · exact occurs
      · exact ih (Nat.lt_of_succ_lt_succ found)

/-- Before that it does not. -/
theorem not_isPrefix_of_lt_search {xs : List α} {i : Nat} (before : i < search pattern xs) :
    ¬ pattern <+: xs.drop i := by
  induction xs generalizing i with
  | nil => exact absurd before (Nat.not_lt_zero _)
  | cons x xs ih =>
      rw [search] at before
      split_ifs at before with occurs
      · exact absurd before (Nat.not_lt_zero _)
      · cases i with
        | zero => exact occurs
        | succ i => exact ih (Nat.lt_of_succ_lt_succ before)

/-- A front in which the pattern does not begin need not be searched. -/
theorem search_drop {xs : List α} {k : Nat} (inside : k ≤ xs.length)
    (absent : ∀ i < k, ¬ pattern <+: xs.drop i) :
    search pattern xs = k + search pattern (xs.drop k) := by
  induction k generalizing xs with
  | zero => rw [Nat.zero_add, List.drop_zero]
  | succ k ih =>
      cases xs with
      | nil => exact absurd inside (Nat.not_succ_le_zero k)
      | cons x xs =>
          have here : ¬ pattern <+: x :: xs := absent 0 (Nat.succ_pos k)
          have rest : search pattern xs = k + search pattern (xs.drop k) :=
            ih (Nat.le_of_succ_le_succ inside) fun i below =>
              absent (i + 1) (Nat.succ_lt_succ below)
          rw [search, if_neg here, rest, List.drop_succ_cons]
          omega

/-- **A search may be resumed.**  A list without the pattern has grown. It is
searched from a position such that the pattern, where it began before, would have
lain in the old part. -/
theorem search_append {xs : List α} (absent : search pattern xs = xs.length) (more : List α)
    {k : Nat} (inside : k ≤ xs.length) (overlap : k = 0 ∨ k + pattern.length ≤ xs.length + 1) :
    search pattern (xs ++ more) = k + search pattern ((xs ++ more).drop k) := by
  apply search_drop
  · rw [List.length_append]
    omega
  · intro i below occurs
    have old : i + pattern.length ≤ xs.length := by omega
    have before : i < search pattern xs := by omega
    exact not_isPrefix_of_lt_search before (isPrefix_drop_of_append old occurs)

/-- What is found stays found. -/
theorem search_append_of_found {xs : List α} (found : search pattern xs < xs.length)
    (more : List α) : search pattern (xs ++ more) = search pattern xs := by
  have occurs := isPrefix_drop_search found
  have inside : search pattern xs + pattern.length ≤ xs.length := by
    have fits := occurs.length_le
    rw [List.length_drop] at fits
    omega
  have skipped : search pattern (xs ++ more) =
      search pattern xs + search pattern ((xs ++ more).drop (search pattern xs)) := by
    apply search_drop
    · rw [List.length_append]
      omega
    · intro i below again
      exact not_isPrefix_of_lt_search below (isPrefix_drop_of_append (by omega) again)
  rw [skipped, List.drop_append_of_le_length (by omega)]
  obtain ⟨rest, split⟩ := occurs
  cases pieces : xs.drop (search pattern xs) ++ more with
  | nil =>
      have longer := congrArg List.length pieces
      rw [List.length_append, List.length_drop, List.length_nil] at longer
      omega
  | cons y ys =>
      rw [search, if_pos]
      · rfl
      · rw [← pieces, ← split, List.append_assoc]
        exact List.prefix_append _ _

/-! ## Pieces of a stream -/

/-- The stream consists of the pieces, each with the pattern behind it, and of the
rest. In no piece does the pattern begin before its end. -/
structure Cuts (pattern : List α) (pieces : List (List α)) (rest stream : List α) : Prop where
  stream : stream = (pieces.map (· ++ pattern)).flatten ++ rest
  first : ∀ piece ∈ pieces, search pattern (piece ++ pattern) = piece.length

theorem search_le_of_isPrefix {xs : List α} {i : Nat} (occurs : pattern <+: xs.drop i) :
    search pattern xs ≤ i :=
  Nat.le_of_not_lt fun before => not_isPrefix_of_lt_search before occurs

/-- What lies in front of the first occurrence is a piece. -/
theorem search_take {xs : List α} (notEmpty : pattern ≠ [])
    (found : search pattern xs < xs.length) :
    xs.take (search pattern xs) ++ pattern ++ xs.drop (search pattern xs + pattern.length) = xs ∧
      search pattern (xs.take (search pattern xs) ++ pattern) = search pattern xs := by
  obtain ⟨more, split⟩ := isPrefix_drop_search found
  have whole : xs.take (search pattern xs) ++ pattern ++ more = xs := by
    rw [List.append_assoc, split, List.take_append_drop]
  have length : (xs.take (search pattern xs)).length = search pattern xs :=
    List.length_take_of_le found.le
  have after : xs.drop (search pattern xs + pattern.length) = more := by
    rw [← List.drop_drop, ← split, List.drop_left]
  refine ⟨by rw [after, whole], ?_⟩
  have inside : search pattern (xs.take (search pattern xs) ++ pattern) <
      (xs.take (search pattern xs) ++ pattern).length := by
    have occurs : pattern <+: (xs.take (search pattern xs) ++ pattern).drop
        (search pattern xs) := by
      rw [List.drop_left' length]
    have positive := List.length_pos_iff.mpr notEmpty
    have le := search_le_of_isPrefix occurs
    rw [List.length_append, length]
    omega
  have same := search_append_of_found inside more
  rw [whole] at same
  exact same.symm

/-- The end of the first piece is where the search stops. -/
theorem search_piece (notEmpty : pattern ≠ []) {piece : List α}
    (first : search pattern (piece ++ pattern) = piece.length) (more : List α) :
    search pattern (piece ++ pattern ++ more) = piece.length := by
  have positive := List.length_pos_iff.mpr notEmpty
  rw [search_append_of_found _ more, first]
  rw [first, List.length_append]
  omega

namespace Cuts

variable {pieces others : List (List α)} {rest left stream : List α}

theorem nil (stream : List α) : Cuts pattern [] stream stream where
  stream := rfl
  first := fun piece member => (by cases member)

/-- The stream grows at its end. -/
theorem grow (cuts : Cuts pattern pieces rest stream) (more : List α) :
    Cuts pattern pieces (rest ++ more) (stream ++ more) where
  stream := by rw [cuts.stream, List.append_assoc]
  first := cuts.first

/-- The next piece is taken off the rest. -/
theorem take (cuts : Cuts pattern pieces rest stream) (notEmpty : pattern ≠ [])
    (found : search pattern rest < rest.length) :
    Cuts pattern (pieces ++ [rest.take (search pattern rest)])
      (rest.drop (search pattern rest + pattern.length)) stream := by
  obtain ⟨whole, first⟩ := search_take notEmpty found
  refine ⟨?_, ?_⟩
  · rw [List.map_append, List.flatten_append, List.map_singleton, List.flatten_singleton,
      List.append_assoc, whole, cuts.stream]
  · intro piece member
    rcases List.mem_append.mp member with earlier | isLast
    · exact cuts.first piece earlier
    · rw [List.mem_singleton.mp isLast, first, List.length_take_of_le found.le]

/-- No piece can be taken off a list without the pattern. -/
theorem eq_nil (cuts : Cuts pattern pieces rest stream) (notEmpty : pattern ≠ [])
    (absent : search pattern stream = stream.length) : pieces = [] := by
  cases pieces with
  | nil => rfl
  | cons piece pieces =>
      have isStream := cuts.stream
      rw [List.map_cons, List.flatten_cons, List.append_assoc] at isStream
      have stops := search_piece notEmpty (cuts.first piece List.mem_cons_self)
        ((pieces.map (· ++ pattern)).flatten ++ rest)
      have positive := List.length_pos_iff.mpr notEmpty
      rw [← isStream, absent, isStream] at stops
      simp only [List.length_append] at stops
      omega

/-- **The pieces are determined by the stream.** -/
theorem unique (cuts : Cuts pattern pieces rest stream)
    (cuts' : Cuts pattern others left stream) (notEmpty : pattern ≠ [])
    (absent : search pattern rest = rest.length) (absent' : search pattern left = left.length) :
    pieces = others ∧ rest = left := by
  induction pieces generalizing others stream with
  | nil =>
      obtain rfl : stream = rest := cuts.stream
      obtain rfl := cuts'.eq_nil notEmpty absent
      exact ⟨rfl, cuts'.stream⟩
  | cons piece pieces ih =>
      cases others with
      | nil =>
          obtain rfl : stream = left := cuts'.stream
          exact absurd (cuts.eq_nil notEmpty absent') (List.cons_ne_nil _ _)
      | cons other others =>
          have isStream := cuts.stream
          have isStream' := cuts'.stream
          rw [List.map_cons, List.flatten_cons, List.append_assoc] at isStream isStream'
          have stops := search_piece notEmpty (cuts.first piece List.mem_cons_self)
            ((pieces.map (· ++ pattern)).flatten ++ rest)
          have stops' := search_piece notEmpty (cuts'.first other List.mem_cons_self)
            ((others.map (· ++ pattern)).flatten ++ left)
          rw [← isStream] at stops
          rw [← isStream', stops] at stops'
          -- both first pieces end at the first occurrence
          rw [isStream, List.append_assoc, List.append_assoc] at isStream'
          obtain ⟨rfl, behind⟩ := List.append_inj isStream' stops'
          obtain ⟨rfl, same⟩ := ih
            ⟨rfl, fun p member => cuts.first p (List.mem_cons_of_mem _ member)⟩
            ⟨List.append_cancel_left behind,
              fun p member => cuts'.first p (List.mem_cons_of_mem _ member)⟩
          exact ⟨rfl, same⟩

end Cuts

end AirNet.Lib
