import AirNet.Lib.Transition

/-!
# Threads that queue calls for one of them

Several threads share a state. One of them, the owner, runs the calls of a
queue, and every thread may queue calls. A thread acts on the state first; this
may leave it with a call, which it queues in a step of its own. The other
threads go on between the two steps.

What the threads and the calls do to the state is a parameter (`Actor`). The
queue is one list, the first call in front (`Mailbox`). An event loop that runs
its calls in batches and has to be woken is a refinement of this system.
-/

set_option autoImplicit false

namespace AirNet.Lib

/-- What the threads and the queued calls do. The owner is the thread `none`.
An event carries what the environment decides, such as the results of system
calls. The second component of a result is the call to be queued. -/
structure Actor (ι State Call Event : Type) where
  react : Option ι → Event → State → Option (State × Option Call)
  call : Call → Event → State → Option (State × Option Call)

/-- The shared state, the queue, and the call that each thread is about to
queue. -/
structure Mailbox (ι State Call : Type) where
  state : State
  queue : List Call
  outbox : Option ι → Option Call

namespace Mailbox

variable {ι State Call Event : Type}

def initial (ι : Type) {State Call : Type} (state : State) : Mailbox ι State Call where
  state := state
  queue := []
  outbox := fun _ => none

inductive Action (ι Event : Type) where
  | react (who : Option ι) (event : Event)
  | post (who : Option ι)
  | call (event : Event)
  deriving DecidableEq, Repr

variable [DecidableEq ι]

/-- The owner runs a call only when it has none to queue. -/
def step (A : Actor ι State Call Event) :
    Action ι Event → Mailbox ι State Call → Option (Mailbox ι State Call)
  | .react who event, s =>
      match s.outbox who with
      | some _ => none
      | none => (A.react who event s.state).map fun result =>
          { s with state := result.1, outbox := Function.update s.outbox who result.2 }
  | .post who, s => (s.outbox who).map fun call =>
      { s with queue := s.queue ++ [call], outbox := Function.update s.outbox who none }
  | .call event, s =>
      match s.outbox none, s.queue with
      | none, call :: rest => (A.call call event s.state).map fun result =>
          { state := result.1, queue := rest, outbox := Function.update s.outbox none result.2 }
      | _, _ => none

/-- What a step does. -/
inductive Move (A : Actor ι State Call Event) (s : Mailbox ι State Call) :
    Action ι Event → Mailbox ι State Call → Prop where
  | react {who : Option ι} {event : Event} {state : State} {next : Option Call}
      (free : s.outbox who = none) (reacted : A.react who event s.state = some (state, next)) :
      Move A s (.react who event)
        { s with state := state, outbox := Function.update s.outbox who next }
  | post {who : Option ι} {call : Call} (ready : s.outbox who = some call) :
      Move A s (.post who)
        { s with queue := s.queue ++ [call], outbox := Function.update s.outbox who none }
  | call {event : Event} {call : Call} {rest : List Call} {state : State} {next : Option Call}
      (free : s.outbox none = none) (first : s.queue = call :: rest)
      (called : A.call call event s.state = some (state, next)) :
      Move A s (.call event)
        { state := state, queue := rest, outbox := Function.update s.outbox none next }

variable {A : Actor ι State Call Event} {s s' : Mailbox ι State Call} {action : Action ι Event}

theorem step_of_move (moved : Move A s action s') : step A action s = some s' := by
  cases moved with
  | react free reacted => simp only [step, free, reacted, Option.map_some]
  | post ready => simp only [step, ready, Option.map_some]
  | call free first called => simp only [step, free, first, called, Option.map_some]

theorem move_of_step (stepped : step A action s = some s') : Move A s action s' := by
  cases action with
  | react who event =>
      cases free : s.outbox who with
      | some call => simp only [step, free, reduceCtorEq] at stepped
      | none =>
          simp only [step, free, Option.map_eq_some_iff] at stepped
          obtain ⟨result, reacted, rfl⟩ := stepped
          exact .react free reacted
  | post who =>
      simp only [step, Option.map_eq_some_iff] at stepped
      obtain ⟨call, ready, rfl⟩ := stepped
      exact .post ready
  | call event =>
      cases free : s.outbox none with
      | some call => simp only [step, free, reduceCtorEq] at stepped
      | none =>
          cases first : s.queue with
          | nil => simp only [step, free, first, reduceCtorEq] at stepped
          | cons call rest =>
              simp only [step, free, first, Option.map_eq_some_iff] at stepped
              obtain ⟨result, called, rfl⟩ := stepped
              exact .call free first called

/-- What every thread and every call keeps true of the state holds in every
reachable state. -/
theorem invariant_state {guard : Action ι Event → Mailbox ι State Call → Prop} {start : State}
    {Inv : State → Prop} (reachable : Reachable (step A) guard (initial ι start) s)
    (initially : Inv start)
    (react : ∀ who event state state' next, Inv state →
      A.react who event state = some (state', next) → Inv state')
    (call : ∀ call event state state' next, Inv state →
      A.call call event state = some (state', next) → Inv state') : Inv s.state := by
  induction reachable with
  | refl => exact initially
  | tail _ transition ih =>
      obtain ⟨action, -, stepped⟩ := transition
      cases move_of_step stepped with
      | react _ reacted => exact react _ _ _ _ _ ih reacted
      | post _ => exact ih
      | call _ _ called => exact call _ _ _ _ _ ih called

end Mailbox

end AirNet.Lib
