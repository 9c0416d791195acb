import Mathlib.Tactic

/-!
# Computations that record what they do

A computation may fail, and it records events on the way; the events up to a
failure are kept. One definition of a program in this monad says at once what
the program returns and what it does. A step that returned is followed by the
rest of the program, with its events in front (`lift_ok_bind`, `record_bind`),
and a step that failed is the last one.
-/

set_option autoImplicit false

namespace AirNet.Lib

/-- The events recorded, and the value or the failure at the end. -/
@[ext] structure Recorded (η ε α : Type) where
  events : List η
  outcome : Except ε α

namespace Recorded

variable {η ε α β : Type}

/-- The computation behind earlier events. -/
def after (earlier : List η) (rest : Recorded η ε α) : Recorded η ε α where
  events := earlier ++ rest.events
  outcome := rest.outcome

instance : Monad (Recorded η ε) where
  pure value := ⟨[], .ok value⟩
  bind first next :=
    match first.outcome with
    | .ok value => (next value).after first.events
    | .error failure => ⟨first.events, .error failure⟩

instance : MonadLift (Except ε) (Recorded η ε) where
  monadLift action := ⟨[], action⟩

/-- An event happens. -/
def record (event : η) : Recorded η ε Unit :=
  ⟨[event], .ok ()⟩

@[simp] theorem outcome_lift (action : Except ε α) :
    (liftM action : Recorded η ε α).outcome = action := rfl

/-- What follows a failure is not reached. -/
theorem outcome_bind (first : Recorded η ε α) (next : α → Recorded η ε β) :
    (first >>= next).outcome = first.outcome >>= fun value => (next value).outcome := by
  obtain ⟨events, failure | value⟩ := first
  · rfl
  · rfl

@[simp] theorem record_bind (event : η) (next : Unit → Recorded η ε β) :
    (record event >>= next) = (next ()).after [event] := rfl

/-- A step that returned leaves no trace of its own. -/
@[simp] theorem lift_ok_bind (value : α) (next : α → Recorded η ε β) :
    ((liftM (Except.ok value : Except ε α) : Recorded η ε α) >>= next) = next value := rfl

end Recorded

end AirNet.Lib
