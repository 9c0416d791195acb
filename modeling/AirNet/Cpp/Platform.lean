import Mathlib.Tactic
import Mathlib.Data.List.Basic

/-!
# The platform a program is compiled for

What a C++ program computes depends on how `size_t` sums wrap, on how large a
vector can become, on the byte order of the host, and on whether `assert` is
compiled in. A platform fixes these four choices.

The laws of a platform say that arithmetic is exact as long as its results are
sizes a vector could have, and that a vector may be as long as a 32-bit `int`
can count.

On a 64-bit host (`Platform.lp64`) sums wrap at `2^64` and a vector holds at most
`2^63 - 1` bytes. A statement about every platform that can hold the data at hand
covers it for all data that fits in its memory.
-/

set_option autoImplicit false

namespace AirNet.Cpp

/-- What ends a run before it returns: a failed `assert`, the exception thrown
by a vector asked to grow beyond its maximal size, an access outside the memory
a pointer may reach, a fatal log message, or a loop cut off by its fuel. -/
inductive Fault where
  | assertion (expression : String)
  | lengthError
  | outOfBounds
  | fatal (message : String)
  | outOfFuel
  deriving DecidableEq, Repr

@[simp] theorem ok_bind {ε α β : Type} (value : α) (next : α → Except ε β) :
    (Except.ok value >>= next) = next value := rfl

theorem bind_eq_ok {ε α β : Type} {action : Except ε α} {next : α → Except ε β} {value : β} :
    (action >>= next) = .ok value ↔ ∃ a, action = .ok a ∧ next a = .ok value := by
  cases action with
  | error fault => exact ⟨nofun, fun ⟨_, returned, _⟩ => nomatch returned⟩
  | ok a => exact ⟨fun rest => ⟨a, rfl, rest⟩, fun ⟨_, rfl, rest⟩ => rest⟩

theorem bind_eq_error {ε α β : Type} {action : Except ε α} {next : α → Except ε β} {fault : ε} :
    (action >>= next) = .error fault ↔
      action = .error fault ∨ ∃ a, action = .ok a ∧ next a = .error fault := by
  cases action with
  | error other =>
      refine ⟨fun same => .inl (congrArg _ (Except.error.inj same)), ?_⟩
      rintro (same | ⟨a, returned, -⟩)
      · cases same
        rfl
      · cases returned
  | ok a =>
      refine ⟨fun rest => .inr ⟨a, rfl, rest⟩, ?_⟩
      rintro (same | ⟨a, returned, rest⟩)
      · cases same
      · cases returned
        exact rest

/-- An action that fails or returns something with a property has returned
something with the property. -/
theorem holds_of_returns {ε α : Type} {action : Except ε α} {a : α} {fault : ε} {Q : α → Prop}
    {Condition : Prop}
    (spec : (Condition ∧ action = .error fault) ∨ ∃ a, action = .ok a ∧ Q a)
    (returns : action = .ok a) : Q a := by
  rcases spec with ⟨-, failed⟩ | ⟨other, same, holds⟩
  · rw [failed] at returns
    cases returns
  · rw [same] at returns
    exact Except.ok.inj returns ▸ holds

/-- `assert(condition)` where it is compiled in. -/
def check (condition : Prop) [Decidable condition] (expression : String) : Except Fault Unit :=
  if condition then .ok () else .error (.assertion expression)

@[simp] theorem check_of {condition : Prop} [Decidable condition] (holds : condition)
    (expression : String) : check condition expression = .ok () :=
  if_pos holds

theorem check_of_not {condition : Prop} [Decidable condition] (fails : ¬ condition)
    (expression : String) : check condition expression = .error (.assertion expression) :=
  if_neg fails

/-- What runs behind an assertion may rely on it. -/
theorem of_check_bind {β : Type} {condition : Prop} [Decidable condition] {expression : String}
    {next : Unit → Except Fault β} {value : β}
    (returned : (check condition expression >>= next) = .ok value) :
    condition ∧ next () = .ok value := by
  by_cases holds : condition
  · rw [check_of holds] at returned
    exact ⟨holds, returned⟩
  · rw [check_of_not holds] at returned
    cases returned

/-- The choices of the compiler and the host that a run depends on. -/
structure Platform where
  /-- `assert` is compiled out. -/
  ndebug : Bool
  bigEndian : Bool
  sizeAdd : Nat → Nat → Nat
  sizeSub : Nat → Nat → Nat
  /-- The conversion of a signed integer to `size_t`. -/
  sizeOfInt : Int → Nat
  /-- The size does not exceed `vector::max_size()`. -/
  fits : Nat → Bool
  sizeAdd_of_fits : ∀ {m n : Nat}, fits (m + n) = true → sizeAdd m n = m + n
  sizeSub_of_fits : ∀ {m n : Nat}, n ≤ m → fits m = true → sizeSub m n = m - n
  sizeOfInt_of_fits : ∀ {n : Nat}, fits n = true → sizeOfInt n = n
  fits_mono : ∀ {m n : Nat}, m ≤ n → fits n = true → fits m = true
  /-- Vectors may be as long as an `int` can count. -/
  fits_least : fits (2 ^ 31 - 1) = true

namespace Platform

/-- A 64-bit host: `size_t` is arithmetic modulo `2^64`. -/
def lp64 (ndebug bigEndian : Bool) : Platform where
  ndebug := ndebug
  bigEndian := bigEndian
  sizeAdd m n := (m + n) % 2 ^ 64
  sizeSub m n := (m + (2 ^ 64 - n % 2 ^ 64)) % 2 ^ 64
  sizeOfInt i := (i % 2 ^ 64).toNat
  fits n := decide (n ≤ 2 ^ 63 - 1)
  sizeAdd_of_fits := by
    intro m n fits
    have bounded := of_decide_eq_true fits
    exact Nat.mod_eq_of_lt (by omega)
  sizeSub_of_fits := by
    intro m n le fits
    have bounded := of_decide_eq_true fits
    omega
  sizeOfInt_of_fits := by
    intro n fits
    have bounded := of_decide_eq_true fits
    omega
  fits_mono := by
    intro m n le fits
    have bounded := of_decide_eq_true fits
    exact decide_eq_true (by omega)
  fits_least := by decide

variable (P : Platform)

/-- `assert(condition)`. -/
def assert (condition : Prop) [Decidable condition] (expression : String) : Except Fault Unit :=
  if P.ndebug = true ∨ condition then .ok () else .error (.assertion expression)

@[simp] theorem assert_of {condition : Prop} [Decidable condition] (holds : condition)
    (expression : String) : P.assert condition expression = .ok () :=
  if_pos (Or.inr holds)

variable {P}

/-- An assertion that ends a run does so as an assertion. -/
theorem assert_ne_lengthError {condition : Prop} [Decidable condition] {expression : String} :
    P.assert condition expression ≠ .error .lengthError := by
  unfold assert
  split_ifs <;> simp

/-- Sums below a size that fits are exact. -/
theorem sizeAdd_eq {m n bound : Nat} (le : m + n ≤ bound) (fits : P.fits bound = true) :
    P.sizeAdd m n = m + n :=
  P.sizeAdd_of_fits (P.fits_mono le fits)

/-- Differences of sizes that fit are exact. -/
theorem sizeSub_eq {m n bound : Nat} (order : n ≤ m) (le : m ≤ bound)
    (fits : P.fits bound = true) : P.sizeSub m n = m - n :=
  P.sizeSub_of_fits order (P.fits_mono le fits)

end Platform

end AirNet.Cpp
