import AirNet.Base.RWLockQueue
import AirNet.Lib.History

/-!
# All calls of the queue behind a reader-writer lock

Besides `put`, `putAll` and `take` the queue has `takeAll` and `size`, which take
the read lock, `clearAll`, which takes the write lock, and `empty`, which takes
none. `take` accesses the deque twice. `size` and `empty` load the two ends of
the deque, in either order, and subtract or compare them; the deque may change
between the loads. The other calls access it once.

The calls that took effect are recorded with what a queue that only one thread
uses returns at that moment (`fifo`), and those that returned with what they
returned. Where only puts and takes are made, this is the queue with which the
elements were counted (`reachable_forget`).
-/

set_option autoImplicit false

namespace AirNet.Base

open AirNet.Lib

namespace RWLockQueue

namespace Calls

/-! ## The queue used by one thread -/

deriving instance DecidableEq for Insertion

inductive Call (T : Type) where
  | insert (call : Insertion T)
  | take
  | takeAll (emptyQueue : List T)
  | size
  | empty
  | clearAll
  deriving DecidableEq

/-- A number is the difference of the ends of the deque. -/
inductive Ret (T : Type) where
  | void
  | element (front : T)
  | elements (queue : List T)
  | number (size : Int)
  | flag (empty : Bool)
  deriving DecidableEq

variable {ι T : Type}

/-- First in, first out. -/
def fifo (T : Type) : SeqObject (List T) (Call T) (Ret T) where
  initial := []
  apply := fun call queue =>
    match call, queue with
    | .insert call, queue => some (.void, queue ++ call.elements)
    | .take, [] => none
    | .take, front :: rest => some (.element front, rest)
    | .takeAll emptyQueue, queue => some (.elements queue, emptyQueue)
    | .size, queue => some (.number queue.length, queue)
    | .empty, queue => some (.flag queue.isEmpty, queue)
    | .clearAll, _ => some (.void, [])

/-! ## Threads and their steps -/

/-- The guard with which a call begins. -/
def Call.lock (l : RWLock) : Call T → Option RWLock
  | .insert _ => l.timedWrlock
  | .take => l.timedRdlock
  | .takeAll _ => l.timedRdlock
  | .size => l.timedRdlock
  | .clearAll => l.timedWrlock
  | .empty => none

/-- The guard is destroyed, where there is one. -/
def Call.unlock (l : RWLock) : Call T → RWLock
  | .empty => l
  | _ => l.unlock

/-- The access to the deque of the calls that make one. -/
def Call.access (queue_ : List T) : Call T → Option (Ret T × List T)
  | .insert (.put x) => some (.void, queue_ ++ [x])
  | .insert (.putAll dataQueue) => some (.void, queue_ ++ dataQueue)
  | .takeAll emptyQueue => some (.elements queue_, emptyQueue)
  | .clearAll => some (.void, [])
  | .size => none
  | .take => none
  | .empty => none

/-- The call may remove elements. -/
def Call.removes : Call T → Bool
  | .take => true
  | .takeAll _ => true
  | .clearAll => true
  | _ => false

/-- The calls that load both ends of the deque. -/
inductive Query where
  | size
  | empty
  deriving DecidableEq

def Query.call : Query → Call T
  | .size => .size
  | .empty => .empty

/-- What the ends say. -/
def Query.answer (start finish : Nat) : Query → Ret T
  | .size => .number (finish - start)
  | .empty => .flag (finish = start)

/-- The ends of the deque. -/
inductive Side where
  | start
  | finish
  deriving DecidableEq

def Side.other : Side → Side
  | .start => .finish
  | .finish => .start

inductive Pc (T : Type) where
  | idle
  /-- Holds the lock of the call, has not touched the deque. -/
  | holding (call : Call T)
  /-- In `take`, has copied `queue_.front()`. -/
  | copied (front : T)
  /-- In `size` or `empty`, has loaded one end. -/
  | loaded (query : Query) (side : Side) (end_ : Nat)
  /-- Is done with the deque and about to release the lock. -/
  | performed (call : Call T) (ret : Ret T)
  deriving DecidableEq

/-- The deque begins at the place `start`. The calls in the order in which they
took effect, with what a queue that one thread uses returns then, and in the order in which
they returned, with what they returned, are recorded. -/
structure State (ι T : Type) where
  rwlock_ : RWLock
  queue_ : List T
  start : Nat
  pc : ι → Pc T
  log : List (Entry ι (Call T) (Ret T))
  returned : List (Entry ι (Call T) (Ret T))

namespace State

def initial (ι T : Type) : State ι T where
  rwlock_ := { readers := 0, writer := false }
  queue_ := []
  start := 0
  pc := fun _ => .idle
  log := []
  returned := []

def finish (s : State ι T) : Nat := s.start + s.queue_.length

def end_ (s : State ι T) : Side → Nat
  | .start => s.start
  | .finish => s.finish

/-- A query takes effect when it loads the end at which elements are put. -/
def effect (s : State ι T) (t : ι) (query : Query) : Side → List (Entry ι (Call T) (Ret T))
  | .start => []
  | .finish => [⟨t, query.call, query.answer s.start s.finish⟩]

/-- What a query returns that has loaded one end and loads the other. -/
def answer (s : State ι T) (query : Query) (end_ : Nat) : Side → Ret T
  | .start => query.answer end_ s.finish
  | .finish => query.answer s.start end_

/-- A query loads its first end. -/
def load [DecidableEq ι] (s : State ι T) (t : ι) (query : Query) (side : Side) : State ι T :=
  { s with
    pc := Function.update s.pc t (.loaded query side (s.end_ side))
    log := s.log ++ s.effect t query side }

end State

/-- The deque that is swapped in begins at the place `start`. -/
inductive Action (T : Type) where
  | lock (call : Call T)
  | front
  | access (start : Nat)
  | popFront
  | load (side : Side)
  | empty (side : Side)
  | compare
  | unlock

variable [DecidableEq ι]

def step : ι × Action T → State ι T → Option (State ι T)
  | (t, .lock call), s =>
      match s.pc t with
      | .idle => (call.lock s.rwlock_).map fun l =>
          { s with rwlock_ := l, pc := Function.update s.pc t (.holding call) }
      | _ => none
  | (t, .front), s =>
      match s.pc t with
      | .holding .take => s.queue_.head?.map fun front =>
          { s with pc := Function.update s.pc t (.copied front) }
      | _ => none
  | (t, .access start), s =>
      match s.pc t with
      | .holding call => (call.access s.queue_).map fun accessed =>
          { s with
            queue_ := accessed.2
            start := if call.removes then start else s.start
            pc := Function.update s.pc t (.performed call accessed.1)
            log := s.log ++ [⟨t, call, accessed.1⟩] }
      | _ => none
  | (t, .popFront), s =>
      match s.pc t, s.queue_ with
      | .copied front, _ :: rest => some
          { s with
            queue_ := rest
            start := s.start + 1
            pc := Function.update s.pc t (.performed .take (.element front))
            log := s.log ++ [⟨t, .take, .element front⟩] }
      | _, _ => none
  | (t, .load side), s =>
      match s.pc t with
      | .holding .size => some (s.load t .size side)
      | _ => none
  | (t, .empty side), s =>
      match s.pc t with
      | .idle => some (s.load t .empty side)
      | _ => none
  | (t, .compare), s =>
      match s.pc t with
      | .loaded query side end_ => some
          { s with
            pc := Function.update s.pc t (.performed query.call (s.answer query end_ side))
            log := s.log ++ s.effect t query side.other }
      | _ => none
  | (t, .unlock), s =>
      match s.pc t with
      | .performed call ret => some
          { s with
            rwlock_ := call.unlock s.rwlock_
            pc := Function.update s.pc t .idle
            returned := s.returned ++ [⟨t, call, ret⟩] }
      | _ => none

/-- What a step does. -/
inductive Move (s : State ι T) : ι × Action T → State ι T → Prop where
  | lock {t : ι} {call : Call T} {l : RWLock} (idle : s.pc t = .idle)
      (locked : call.lock s.rwlock_ = some l) :
      Move s (t, .lock call)
        { s with rwlock_ := l, pc := Function.update s.pc t (.holding call) }
  | front {t : ι} {front : T} {rest : List T} (at_ : s.pc t = .holding .take)
      (queue : s.queue_ = front :: rest) :
      Move s (t, .front) { s with pc := Function.update s.pc t (.copied front) }
  | access {t : ι} {call : Call T} {ret : Ret T} {queue : List T} {start : Nat}
      (at_ : s.pc t = .holding call) (accessed : call.access s.queue_ = some (ret, queue)) :
      Move s (t, .access start)
        { s with
          queue_ := queue
          start := if call.removes then start else s.start
          pc := Function.update s.pc t (.performed call ret)
          log := s.log ++ [⟨t, call, ret⟩] }
  | popFront {t : ι} {front first : T} {rest : List T} (at_ : s.pc t = .copied front)
      (queue : s.queue_ = first :: rest) :
      Move s (t, .popFront)
        { s with
          queue_ := rest
          start := s.start + 1
          pc := Function.update s.pc t (.performed .take (.element front))
          log := s.log ++ [⟨t, .take, .element front⟩] }
  | load {t : ι} {side : Side} (at_ : s.pc t = .holding .size) :
      Move s (t, .load side) (s.load t .size side)
  | empty {t : ι} {side : Side} (idle : s.pc t = .idle) :
      Move s (t, .empty side) (s.load t .empty side)
  | compare {t : ι} {query : Query} {side : Side} {end_ : Nat}
      (at_ : s.pc t = .loaded query side end_) :
      Move s (t, .compare)
        { s with
          pc := Function.update s.pc t (.performed query.call (s.answer query end_ side))
          log := s.log ++ s.effect t query side.other }
  | unlock {t : ι} {call : Call T} {ret : Ret T} (at_ : s.pc t = .performed call ret) :
      Move s (t, .unlock)
        { s with
          rwlock_ := call.unlock s.rwlock_
          pc := Function.update s.pc t .idle
          returned := s.returned ++ [⟨t, call, ret⟩] }

theorem move_of_step {s s' : State ι T} {label : ι × Action T} (stepped : step label s = some s') :
    Move s label s' := by
  obtain ⟨t, action⟩ := label
  cases action with
  | lock call =>
      cases at_ : s.pc t with
      | idle =>
          simp only [step, at_, Option.map_eq_some_iff] at stepped
          obtain ⟨l, locked, rfl⟩ := stepped
          exact .lock at_ locked
      | _ => simp only [step, at_, reduceCtorEq] at stepped
  | front =>
      cases at_ : s.pc t with
      | holding call =>
          cases call with
          | take =>
              simp only [step, at_, Option.map_eq_some_iff] at stepped
              obtain ⟨front, isFront, rfl⟩ := stepped
              obtain ⟨rest, queue⟩ := List.head?_eq_some_iff.mp isFront
              exact .front at_ queue
          | _ => simp only [step, at_, reduceCtorEq] at stepped
      | _ => simp only [step, at_, reduceCtorEq] at stepped
  | access start =>
      cases at_ : s.pc t with
      | holding call =>
          simp only [step, at_, Option.map_eq_some_iff] at stepped
          obtain ⟨⟨ret, queue⟩, accessed, rfl⟩ := stepped
          exact .access at_ accessed
      | _ => simp only [step, at_, reduceCtorEq] at stepped
  | popFront =>
      cases at_ : s.pc t with
      | copied front =>
          cases queue : s.queue_ with
          | nil => simp only [step, at_, queue, reduceCtorEq] at stepped
          | cons first rest =>
              simp only [step, at_, queue, Option.some.injEq] at stepped
              subst stepped
              exact .popFront at_ queue
      | _ => simp only [step, at_, reduceCtorEq] at stepped
  | load side =>
      cases at_ : s.pc t with
      | holding call =>
          cases call with
          | size =>
              simp only [step, at_, Option.some.injEq] at stepped
              subst stepped
              exact .load at_
          | _ => simp only [step, at_, reduceCtorEq] at stepped
      | _ => simp only [step, at_, reduceCtorEq] at stepped
  | empty side =>
      cases at_ : s.pc t with
      | idle =>
          simp only [step, at_, Option.some.injEq] at stepped
          subst stepped
          exact .empty at_
      | _ => simp only [step, at_, reduceCtorEq] at stepped
  | compare =>
      cases at_ : s.pc t with
      | loaded query side end_ =>
          simp only [step, at_, Option.some.injEq] at stepped
          subst stepped
          exact .compare at_
      | _ => simp only [step, at_, reduceCtorEq] at stepped
  | unlock =>
      cases at_ : s.pc t with
      | performed call ret =>
          simp only [step, at_, Option.some.injEq] at stepped
          subst stepped
          exact .unlock at_
      | _ => simp only [step, at_, reduceCtorEq] at stepped

/-- The call that a thread begins. -/
def Action.begins : Action T → Option (Call T)
  | .lock call => some call
  | .empty _ => some .empty
  | _ => none

/-! ## Puts and takes -/

/-- The call is a put or a take. -/
def Call.isBasic : Call T → Bool
  | .insert _ => true
  | .take => true
  | _ => false

/-- Only puts and takes are begun. -/
def Basic (label : ι × Action T) (_ : State ι T) : Prop :=
  ∀ call ∈ label.2.begins, call.isBasic = true

/-- Where a thread that only puts and takes stands. -/
def Pc.forget : Pc T → Option (RWLockQueue.Pc T)
  | .idle => some .idle
  | .holding (.insert call) => some (.inserting call)
  | .holding .take => some .taking
  | .copied front => some (.copied front)
  | .performed (.insert _) .void => some .inserted
  | .performed .take (.element front) => some (.popped front)
  | _ => none

/-- A put or a take is about to release the lock. -/
theorem Pc.forget_performed {call : Call T} {ret : Ret T} {place : RWLockQueue.Pc T}
    (forget : (Pc.performed call ret).forget = some place) :
    (∃ insertion, call = .insert insertion ∧ ret = .void ∧ place = .inserted) ∨
      ∃ front, call = .take ∧ ret = .element front ∧ place = .popped front := by
  cases call with
  | insert insertion =>
      cases ret with
      | void => exact .inl ⟨insertion, rfl, rfl, (Option.some.inj forget).symm⟩
      | _ => cases forget
  | take =>
      cases ret with
      | element front => exact .inr ⟨front, rfl, rfl, (Option.some.inj forget).symm⟩
      | _ => cases forget
  | _ => cases forget

/-- The elements that a call inserts. -/
def Call.inserted : Call T → Multiset T
  | .insert call => call.elements
  | _ => 0

/-- The element that a take returns. -/
def Ret.taken : Ret T → Multiset T
  | .element front => {front}
  | _ => 0

/-- The state of the queue with puts and takes only. -/
structure Forgets (s : State ι T) (basic : RWLockQueue.State ι T) : Prop where
  lock : basic.rwlock_ = s.rwlock_
  queue : basic.queue_ = s.queue_
  pc : ∀ t, (s.pc t).forget = some (basic.pc t)
  put : basic.put = (s.log.map fun entry => entry.call.inserted).sum
  returned : basic.returned = (s.returned.map fun entry => entry.ret.taken).sum

namespace Forgets

variable {s s' : State ι T} {basic : RWLockQueue.State ι T} {t : ι}

omit [DecidableEq ι] in
theorem initial : Forgets (State.initial ι T) (RWLockQueue.State.initial ι T) :=
  ⟨rfl, rfl, fun _ => rfl, rfl, rfl⟩

omit [DecidableEq ι] in
/-- The place of a thread, where it is known. -/
theorem pc_eq (forgets : Forgets s basic) {p : Pc T} {q : RWLockQueue.Pc T} (at_ : s.pc t = p)
    (forget : p.forget = some q) : basic.pc t = q := by
  have same := forgets.pc t
  rw [at_, forget] at same
  exact (Option.some.inj same).symm

omit [DecidableEq ι] in
/-- No thread is where only the other calls lead. -/
theorem pc_ne (forgets : Forgets s basic) {p : Pc T} (unknown : p.forget = none) : s.pc t ≠ p := by
  intro at_
  have known := forgets.pc t
  rw [at_, unknown] at known
  cases known

theorem pc_update (forgets : Forgets s basic) {p : Pc T} {q : RWLockQueue.Pc T}
    (forget : p.forget = some q) (u : ι) :
    (Function.update s.pc t p u).forget = some (Function.update basic.pc t q u) := by
  by_cases same : u = t
  · subst same
    rw [Function.update_self, Function.update_self]
    exact forget
  · rw [Function.update_of_ne same, Function.update_of_ne same]
    exact forgets.pc u

/-- A step of a queue with puts and takes only is one of `Base.RWLockQueue`. -/
theorem move (forgets : Forgets s basic) {label : ι × Action T} (isBasic : Basic label s)
    (moved : Move s label s') :
    ∃ basic', Transition RWLockQueue.step (fun _ _ => True) basic basic' ∧ Forgets s' basic' := by
  cases moved with
  | @lock t call l idle locked =>
      have at_ := forgets.pc_eq idle rfl
      cases call with
      | insert call =>
          have stepped : RWLockQueue.step (t, .timedWrlock call) basic = some
              { basic with rwlock_ := l, pc := Function.update basic.pc t (.inserting call) } := by
            rw [RWLockQueue.step, at_, forgets.lock]
            exact Option.map_eq_some_iff.mpr ⟨l, locked, rfl⟩
          exact ⟨_, ⟨_, trivial, stepped⟩,
            rfl, forgets.queue, forgets.pc_update rfl, forgets.put, forgets.returned⟩
      | take =>
          have stepped : RWLockQueue.step (t, .timedRdlock) basic = some
              { basic with rwlock_ := l, pc := Function.update basic.pc t .taking } := by
            rw [RWLockQueue.step, at_, forgets.lock]
            exact Option.map_eq_some_iff.mpr ⟨l, locked, rfl⟩
          exact ⟨_, ⟨_, trivial, stepped⟩,
            rfl, forgets.queue, forgets.pc_update rfl, forgets.put, forgets.returned⟩
      | _ => cases isBasic _ rfl
  | @front t front rest at_ queue =>
      have stepped : RWLockQueue.step (t, .front) basic = some
          { basic with pc := Function.update basic.pc t (.copied front) } := by
        rw [RWLockQueue.step, forgets.pc_eq at_ rfl, forgets.queue, queue]
        rfl
      exact ⟨_, ⟨_, trivial, stepped⟩,
        forgets.lock, forgets.queue, forgets.pc_update rfl, forgets.put, forgets.returned⟩
  | @access t call ret queue start at_ accessed =>
      cases call with
      | insert call =>
          have same : (Ret.void, s.queue_ ++ call.elements) = (ret, queue) := by
            cases call <;> exact Option.some.inj accessed
          obtain ⟨rfl, rfl⟩ := Prod.mk.inj same
          have stepped : RWLockQueue.step (t, .append) basic = some
              { basic with
                queue_ := basic.queue_ ++ call.elements
                put := basic.put + call.elements
                pc := Function.update basic.pc t .inserted } := by
            rw [RWLockQueue.step, forgets.pc_eq at_ rfl]
          refine ⟨_, ⟨_, trivial, stepped⟩, forgets.lock, ?_, forgets.pc_update rfl, ?_,
            forgets.returned⟩
          · rw [forgets.queue]
          · rw [List.map_append, List.sum_append, ← forgets.put]
            exact congrArg (basic.put + ·) (Multiset.add_zero _).symm
      | take => cases accessed
      | size => cases accessed
      | empty => cases accessed
      | takeAll emptyQueue => exact absurd at_ (forgets.pc_ne rfl)
      | clearAll => exact absurd at_ (forgets.pc_ne rfl)
  | @popFront t front first rest at_ queue =>
      have stepped : RWLockQueue.step (t, .popFront) basic = some
          { basic with queue_ := rest, pc := Function.update basic.pc t (.popped front) } := by
        rw [RWLockQueue.step, forgets.pc_eq at_ rfl, forgets.queue, queue]
      refine ⟨_, ⟨_, trivial, stepped⟩, forgets.lock, rfl, forgets.pc_update rfl, ?_,
        forgets.returned⟩
      rw [List.map_append, List.sum_append, ← forgets.put]
      exact (Multiset.add_zero _).symm
  | @load t side at_ => exact absurd at_ (forgets.pc_ne rfl)
  | empty => cases isBasic _ rfl
  | @compare t query side end_ at_ => exact absurd at_ (forgets.pc_ne rfl)
  | @unlock t call ret at_ =>
      have place := forgets.pc t
      rw [at_] at place
      rcases Pc.forget_performed place with ⟨call, rfl, rfl, isAt⟩ | ⟨front, rfl, rfl, isAt⟩
      · have stepped : RWLockQueue.step (t, .unlock) basic = some
            { basic with
              rwlock_ := basic.rwlock_.unlock, pc := Function.update basic.pc t .idle } := by
          rw [RWLockQueue.step, isAt]
        refine ⟨_, ⟨_, trivial, stepped⟩, congrArg RWLock.unlock forgets.lock, forgets.queue,
          forgets.pc_update rfl, forgets.put, ?_⟩
        rw [List.map_append, List.sum_append, ← forgets.returned]
        exact (Multiset.add_zero _).symm
      · have stepped : RWLockQueue.step (t, .unlock) basic = some
            { basic with
              rwlock_ := basic.rwlock_.unlock
              returned := basic.returned + {front}
              pc := Function.update basic.pc t .idle } := by
          rw [RWLockQueue.step, isAt]
        refine ⟨_, ⟨_, trivial, stepped⟩, congrArg RWLock.unlock forgets.lock, forgets.queue,
          forgets.pc_update rfl, forgets.put, ?_⟩
        rw [List.map_append, List.sum_append, ← forgets.returned]
        exact congrArg (basic.returned + ·) (Multiset.add_zero _).symm

end Forgets

/-- **Where only puts and takes are made, the two queues are one.** -/
theorem reachable_forget {s : State ι T}
    (reachable : Reachable step Basic (State.initial ι T) s) :
    ∃ basic, Reachable RWLockQueue.step (fun _ _ => True) (RWLockQueue.State.initial ι T) basic ∧
      Forgets s basic := by
  induction reachable with
  | refl => exact ⟨_, .refl, .initial⟩
  | tail _ transition ih =>
      obtain ⟨label, isBasic, stepped⟩ := transition
      obtain ⟨basic, before, forgets⟩ := ih
      obtain ⟨basic', moved, after⟩ := forgets.move isBasic (move_of_step stepped)
      exact ⟨basic', before.tail moved, after⟩

end Calls

end RWLockQueue

end AirNet.Base
