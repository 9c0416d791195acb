import Mathlib.Data.Prod.Lex
import AirNet.Cpp.Platform
import AirNet.Lib.Heap
import AirNet.Lib.SortedSet
import AirNet.Lib.Transition

/-!
# The timer queue

The definitions follow `TimerQueue.cc`, `Timer.h` and `Timer.cc`. A timer is an
object on the heap. `addTimer` creates it in any thread and hands it to the loop,
where `addTimerInLoop` enters it into two sets: `timers_`, ordered by expiration, and
`activeTimers_`, in which `cancelInLoop` looks. When the descriptor of the queue
becomes readable, `handleRead` takes the expired timers out of both sets, runs them
one after the other, and then enters those that repeat again and deletes the others.
While it runs them their callbacks may add and cancel timers, also timers that are
to be run, or the one that is running.

A new timer may be at any address where none is, also where one was before, so a
`TimerId` names a timer by address and number. `addTimer` reads the number from the
timer after it has handed it to the loop, and by then the loop may have deleted it.

Every reading of the clock is an argument of its own: the one with which `handleRead`
begins, the one when a timer is run, and the one when the descriptor is set, which is
never set to less than 100 microseconds later.
-/

set_option autoImplicit false

namespace AirNet.Muduo.TimerQueue

open AirNet.Cpp AirNet.Lib

/-! ## Timers and sets of them -/

/-- Microseconds since the epoch. -/
abbrev Timestamp := Int

/-- The seconds in microseconds, without the fraction. -/
def microseconds (seconds : Float) : Int := (seconds * 1000000).toModel.toInt64.toInt

def addTime (timestamp : Timestamp) (seconds : Float) : Timestamp :=
  timestamp + microseconds seconds

/-- The product is rounded before the fraction is cut off. -/
example : microseconds 5 = 5000000 ∧ microseconds 1.001 = 1000999 := by decide +kernel

structure Timer where
  expiration_ : Timestamp
  interval_ : Float
  repeat_ : Bool
  sequence_ : Nat
  deriving DecidableEq

/-- `Timer(cb, when, interval)`. -/
def Timer.construct (when : Timestamp) (interval : Float) (sequence : Nat) : Timer where
  expiration_ := when
  interval_ := interval
  repeat_ := decide (0 < interval)
  sequence_ := sequence

def Timer.restart (now : Timestamp) (timer : Timer) : Timer :=
  if timer.repeat_ then { timer with expiration_ := addTime now timer.interval_ }
  else { timer with expiration_ := 0 }

/-- An expiration and the address of a timer, in the order of `std::pair`. -/
abbrev Entry := Timestamp ×ₗ Nat

def entry (when : Timestamp) (timer : Nat) : Entry := toLex (when, timer)

def Entry.when (e : Entry) : Timestamp := (ofLex e).1

def Entry.timer (e : Entry) : Nat := (ofLex e).2

/-- The address of a timer and its number. -/
abbrev ActiveTimer := Nat ×ₗ Nat

def activeTimer (timer sequence : Nat) : ActiveTimer := toLex (timer, sequence)

def uintptrMax : Nat := 2 ^ 64 - 1

/-- `handleRead` between `getExpired` and `reset`: the expired timers, and those of
them that have not been run. -/
structure Batch where
  now : Timestamp
  expired : List Entry
  left : List Entry
  deriving DecidableEq

structure Batch.Fits (batch : Batch) : Prop where
  suffix : batch.left <:+ batch.expired
  due : ∀ e ∈ batch.expired, e.when ≤ batch.now

/-- What the descriptor was set to: at which time, and when it becomes readable. -/
structure Alarm where
  set : Timestamp
  expires : Timestamp
  deriving DecidableEq

def howMuchTimeFromNow (when now : Timestamp) : Int := max 100 (when - now)

/-- A call of a timer: its number, the time with which `handleRead` began, and the time
of the call. -/
structure Run where
  sequence : Nat
  round : Timestamp
  time : Timestamp
  deriving DecidableEq

structure State where
  heap : Heap Timer
  numCreated : Nat
  timers_ : SortedSet Entry
  activeTimers_ : SortedSet ActiveTimer
  callingExpiredTimers_ : Bool
  cancelingTimers_ : SortedSet ActiveTimer
  /-- Until the expiration has been read. -/
  timerfd_ : Option Alarm
  /-- The timers whose `addTimerInLoop` the loop has not run. -/
  queued : List Nat
  /-- The calls of `addTimer` that have not returned: address and number of the timer. -/
  returning : List (Nat × Nat)
  /-- The numbers of the timers whose `addTimer` returned, and the `TimerId`. -/
  returned : List (Nat × Nat × Nat)
  batch : Option Batch
  ran : List Run

def State.initial : State where
  heap := Heap.empty Timer
  numCreated := 0
  timers_ := .empty _
  activeTimers_ := .empty _
  callingExpiredTimers_ := false
  cancelingTimers_ := .empty _
  timerfd_ := none
  queued := []
  returning := []
  returned := []
  batch := none
  ran := []

/-- The timer at an address; none is there after it was deleted. -/
def deref (timer : Nat) (s : State) : Except Fault Timer :=
  match s.heap.object timer with
  | some t => .ok t
  | none => .error .outOfBounds

def delete (timer : Nat) (s : State) : Except Fault State :=
  match s.heap.delete timer with
  | some heap => .ok { s with heap := heap }
  | none => .error .outOfBounds

def checkSizes (s : State) : Except Fault Unit :=
  check (s.timers_.size = s.activeTimers_.size) "timers_.size() == activeTimers_.size()"

/-! ## The functions of the queue -/

def earliestChanged (when : Timestamp) (s : State) : Bool :=
  match s.timers_.first with
  | none => true
  | some it => decide (when < it.when)

/-- `insert(timer)`; whether the earliest expiration changed. -/
def insert (timer : Nat) (s : State) : Except Fault (Bool × State) := do
  checkSizes s
  let t ← deref timer s
  let changed := earliestChanged t.expiration_ s
  let inserted := s.timers_.insert (entry t.expiration_ timer)
  check (inserted.2 = true) "result.second"
  let active := s.activeTimers_.insert (activeTimer timer t.sequence_)
  check (active.2 = true) "result.second"
  let s := { s with timers_ := inserted.1, activeTimers_ := active.1 }
  checkSizes s
  pure (changed, s)

def resetTimerfd (expiration now : Timestamp) (s : State) : State :=
  { s with timerfd_ := some ⟨now, now + howMuchTimeFromNow expiration now⟩ }

def addTimerInLoop (timer : Nat) (now : Timestamp) (s : State) : Except Fault State := do
  let (changed, s) ← insert timer s
  if changed then
    let t ← deref timer s
    pure (resetTimerfd t.expiration_ now s)
  else pure s

def cancelInLoop (timer sequence : Nat) (s : State) : Except Fault State := do
  checkSizes s
  let s ←
    if activeTimer timer sequence ∈ s.activeTimers_ then do
      let t ← deref timer s
      let erased := s.timers_.erase (entry t.expiration_ timer)
      check (erased.2 = 1) "n == 1"
      let s ← delete timer { s with timers_ := erased.1 }
      pure { s with activeTimers_ := (s.activeTimers_.erase (activeTimer timer sequence)).1 }
    else if s.callingExpiredTimers_ then
      pure { s with
        cancelingTimers_ := (s.cancelingTimers_.insert (activeTimer timer sequence)).1 }
    else pure s
  checkSizes s
  pure s

/-- One round of the loop in `getExpired`. -/
def eraseActive (s : State) (e : Entry) : Except Fault State := do
  let t ← deref e.timer s
  let erased := s.activeTimers_.erase (activeTimer e.timer t.sequence_)
  check (erased.2 = 1) "n == 1"
  pure { s with activeTimers_ := erased.1 }

def getExpired (now : Timestamp) (s : State) : Except Fault (List Entry × State) := do
  checkSizes s
  let sentry := entry now uintptrMax
  let expired := s.timers_.below sentry
  let s := { s with timers_ := s.timers_.rest sentry }
  check (∀ e ∈ s.timers_.first, now < e.when) "end == timers_.end() || now < end->first"
  let s ← expired.foldlM eraseActive s
  checkSizes s
  pure (expired, s)

/-- One round of the loop in `reset`. -/
def resetOne (now : Timestamp) (s : State) (e : Entry) : Except Fault State := do
  let t ← deref e.timer s
  if t.repeat_ = true ∧ activeTimer e.timer t.sequence_ ∉ s.cancelingTimers_ then
    let s := { s with heap := s.heap.put e.timer (t.restart now) }
    let (_, s) ← insert e.timer s
    pure s
  else delete e.timer s

/-- `reset(expired, now)`; the descriptor is set at a later time. -/
def reset (expired : List Entry) (now later : Timestamp) (s : State) : Except Fault State := do
  let s ← expired.foldlM (resetOne now) s
  match s.timers_.first with
  | none => pure s
  | some it =>
      let t ← deref it.timer s
      -- `nextExpire.valid()`
      if 0 < t.expiration_ then pure (resetTimerfd t.expiration_ later s)
      else pure s

/-! ## The steps -/

/-- What happens to the queue. `handleRead` is split where callbacks are called;
what they do to the queue are steps in between. `addTimer` is split where it hands the
timer to the loop; in the thread of the loop its parts follow one another. -/
inductive Label where
  /-- `new Timer(cb, when, interval)` in `addTimer`, which is given an address. -/
  | create (timer : Nat) (when : Timestamp) (interval : Float)
  | addTimerInLoop (timer : Nat) (now : Timestamp)
  /-- `return TimerId(timer, timer->sequence())` in `addTimer`. -/
  | returns (timer sequence : Nat)
  | cancelInLoop (timer sequence : Nat)
  /-- `handleRead` up to the loop; the descriptor may have been set again after it
  became readable. -/
  | handleRead (now : Timestamp) (fired : Bool)
  /-- `it->second->run()`. -/
  | run (time : Timestamp)
  /-- `handleRead` behind the loop. -/
  | reset (later : Timestamp)

/-- When a step can be taken. `new` gives out any address where no timer is. -/
def Enabled (s : State) : Label → Prop
  | .create timer _ _ => timer ∉ s.heap.live ∧ timer < uintptrMax
  | .addTimerInLoop timer _ => timer ∈ s.queued
  | .returns timer sequence => (timer, sequence) ∈ s.returning
  | .cancelInLoop _ _ => True
  | .handleRead _ _ => s.batch = none
  | .run _ => ∃ batch ∈ s.batch, batch.left ≠ []
  | .reset _ => ∃ batch ∈ s.batch, batch.left = []

instance (s : State) : (label : Label) → Decidable (Enabled s label)
  | .create timer _ _ =>
      inferInstanceAs (Decidable (timer ∉ s.heap.live ∧ timer < uintptrMax))
  | .addTimerInLoop timer _ => inferInstanceAs (Decidable (timer ∈ s.queued))
  | .returns timer sequence => inferInstanceAs (Decidable ((timer, sequence) ∈ s.returning))
  | .cancelInLoop _ _ => inferInstanceAs (Decidable True)
  | .handleRead _ _ => inferInstanceAs (Decidable (s.batch = none))
  | .run _ => inferInstanceAs (Decidable (∃ batch ∈ s.batch, batch.left ≠ []))
  | .reset _ => inferInstanceAs (Decidable (∃ batch ∈ s.batch, batch.left = []))

def perform (s : State) : Label → Except Fault State
  | .create timer when interval =>
      let number := s.numCreated + 1
      pure { s with
        heap := s.heap.put timer (.construct when interval number), numCreated := number
        queued := s.queued ++ [timer], returning := s.returning ++ [(timer, number)] }
  | .addTimerInLoop timer now =>
      addTimerInLoop timer now { s with queued := s.queued.erase timer }
  | .returns timer sequence => do
      let t ← deref timer s
      pure { s with
        returning := s.returning.erase (timer, sequence)
        returned := s.returned ++ [(sequence, timer, t.sequence_)] }
  | .cancelInLoop timer sequence => cancelInLoop timer sequence s
  | .handleRead now fired => do
      -- `readTimerfd`
      let s := { s with timerfd_ := if fired then none else s.timerfd_ }
      let (expired, s) ← getExpired now s
      pure { s with
        callingExpiredTimers_ := true, cancelingTimers_ := .empty _
        batch := some ⟨now, expired, expired⟩ }
  | .run time =>
      match s.batch with
      | some ⟨now, expired, e :: left⟩ => do
          let t ← deref e.timer s
          pure { s with
            ran := s.ran ++ [⟨t.sequence_, now, time⟩], batch := some ⟨now, expired, left⟩ }
      | _ => pure s
  | .reset later =>
      match s.batch with
      | some batch => reset batch.expired batch.now later
          { s with callingExpiredTimers_ := false, batch := none }
      | none => pure s

def step (label : Label) (s : State) : Option State :=
  if Enabled s label then (perform s label).toOption else none

end AirNet.Muduo.TimerQueue
