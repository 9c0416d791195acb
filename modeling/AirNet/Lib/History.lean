import Mathlib.Tactic

/-!
# Histories of a shared object

Threads call the operations of an object. A call takes effect in one step and
returns its result in a later one. The history lists the calls with their
results in the order in which they took effect. It is legal when the object,
used by one thread alone in this order, gives these results (`Legal`). And it is
about what a thread saw when the thread has got the results of its own calls, in
order, except for a call that has not returned (`Seen`). The history linearizes
the calls when it is legal and about what every thread saw (`Linearizes`).
-/

set_option autoImplicit false

namespace AirNet.Lib

/-- An object that is used by one thread. A call that the object does not admit
has no result. -/
structure SeqObject (State Call Ret : Type) where
  initial : State
  apply : Call → State → Option (Ret × State)

/-- A call that has taken effect. -/
structure Entry (ι Call Ret : Type) where
  who : ι
  call : Call
  ret : Ret
  deriving DecidableEq, Repr

variable {ι State Call Ret : Type}

/-- The object gives the results of the history and ends in the state. -/
inductive Legal (O : SeqObject State Call Ret) : List (Entry ι Call Ret) → State → Prop where
  | nil : Legal O [] O.initial
  | snoc {log : List (Entry ι Call Ret)} {state state' : State} {entry : Entry ι Call Ret}
      (before : Legal O log state)
      (applied : O.apply entry.call state = some (entry.ret, state')) :
      Legal O (log ++ [entry]) state'

variable [DecidableEq ι]

/-- The calls of one thread with their results. -/
def results (t : ι) (log : List (Entry ι Call Ret)) : List (Call × Ret) :=
  log.filterMap fun entry => if entry.who = t then some (entry.call, entry.ret) else none

theorem results_append_self (t : ι) (log : List (Entry ι Call Ret)) (call : Call) (ret : Ret) :
    results t (log ++ [⟨t, call, ret⟩]) = results t log ++ [(call, ret)] := by
  simp [results]

theorem results_append_of_ne {t u : ι} (other : u ≠ t) (log : List (Entry ι Call Ret))
    (call : Call) (ret : Ret) : results u (log ++ [⟨t, call, ret⟩]) = results u log := by
  simp [results, Ne.symm other]

/-- The history is about what the thread saw. -/
def Seen (t : ι) (log returned : List (Entry ι Call Ret)) (pending : Option (Call × Ret)) :
    Prop :=
  results t log = results t returned ++ pending.toList

namespace Seen

variable {t u : ι} {log returned : List (Entry ι Call Ret)} {pending : Option (Call × Ret)}
  {call : Call} {ret : Ret}

/-- A call of the thread takes effect. -/
theorem effect (seen : Seen t log returned none) :
    Seen t (log ++ [⟨t, call, ret⟩]) returned (some (call, ret)) := by
  rw [Seen, Option.toList_none, List.append_nil] at seen
  rw [Seen, results_append_self, seen, Option.toList_some]

/-- A call of the thread returns. -/
theorem deliver (seen : Seen t log returned (some (call, ret))) :
    Seen t log (returned ++ [⟨t, call, ret⟩]) none := by
  rw [Seen, Option.toList_some] at seen
  rw [Seen, seen, results_append_self, Option.toList_none, List.append_nil]

/-- A call of another thread takes effect. -/
theorem effect_of_ne (seen : Seen u log returned pending) (other : u ≠ t) :
    Seen u (log ++ [⟨t, call, ret⟩]) returned pending := by
  rw [Seen, results_append_of_ne other]
  exact seen

/-- A call of another thread returns. -/
theorem deliver_of_ne (seen : Seen u log returned pending) (other : u ≠ t) :
    Seen u log (returned ++ [⟨t, call, ret⟩]) pending := by
  rw [Seen, results_append_of_ne other]
  exact seen

end Seen

/-- The history is legal and is what the threads saw. -/
structure Linearizes (O : SeqObject State Call Ret) (log returned : List (Entry ι Call Ret))
    (pending : ι → Option (Call × Ret)) (state : State) : Prop where
  legal : Legal O log state
  seen : ∀ t, Seen t log returned (pending t)

namespace Linearizes

variable {O : SeqObject State Call Ret} {log returned : List (Entry ι Call Ret)}
  {pending : ι → Option (Call × Ret)} {state state' : State} {t : ι} {call : Call} {ret : Ret}

theorem initial : Linearizes O ([] : List (Entry ι Call Ret)) [] (fun _ => none) O.initial where
  legal := .nil
  seen := fun _ => rfl

/-- A call takes effect. -/
theorem effect (linearizes : Linearizes O log returned pending state) (free : pending t = none)
    (applied : O.apply call state = some (ret, state')) :
    Linearizes O (log ++ [⟨t, call, ret⟩]) returned
      (Function.update pending t (some (call, ret))) state' where
  legal := .snoc linearizes.legal applied
  seen := by
    intro u
    have before := linearizes.seen u
    by_cases same : u = t
    · subst same
      rw [Function.update_self]
      rw [free] at before
      exact before.effect
    · rw [Function.update_of_ne same]
      exact before.effect_of_ne same

/-- A call returns. -/
theorem deliver (linearizes : Linearizes O log returned pending state)
    (performed : pending t = some (call, ret)) :
    Linearizes O log (returned ++ [⟨t, call, ret⟩]) (Function.update pending t none) state where
  legal := linearizes.legal
  seen := by
    intro u
    have before := linearizes.seen u
    by_cases same : u = t
    · subst same
      rw [Function.update_self]
      rw [performed] at before
      exact before.deliver
    · rw [Function.update_of_ne same]
      exact before.deliver_of_ne same

end Linearizes

end AirNet.Lib
