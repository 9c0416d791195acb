import AirNet.Base.RWLockGuard

/-!
# Guards with a time-out

The timed guards give up after 30 seconds. What the pthread call returns is
only asserted (`MCHECK` of `common/base/mutex.h`, `assert` of
`common/base/rwlock.h`), so with `NDEBUG` a guard is constructed whether or not
its thread has got the lock, and its destructor releases the lock in either
case.

In a run in which no call times out the guards exclude each other and each
destructor releases what its own thread holds. One call that times out is
enough to lose this: its thread only has to go on to its destructor
(`timed_guards_exclude`). Before it gets there it is inside the guard together
with the thread that kept it waiting (`time_out_enters_unlocked`).
-/

set_option autoImplicit false

namespace AirNet.Base

open AirNet.Lib

namespace MutexGuard

variable {ι κ : Type}

/-- At most one thread is inside a guard, and a destructor that is about to
release the mutex does so for its owner. -/
structure Excludes (s : State ι κ) : Prop where
  inside : ∀ t u acquired acquired', s.pc t = .inside acquired →
    s.pc u = .inside acquired' → t = u
  releases : ∀ t acquired, s.pc t = .unassigned acquired → s.lock.mutex_ = some t

theorem Invariant.excludes {threads : CurrentThread ι} {s : State ι κ}
    (inv : Invariant threads s) : Excludes s where
  inside := by
    intro t u acquired acquired' first second
    exact Option.some.inj ((inv.mutex_eq first rfl).symm.trans (inv.mutex_eq second rfl))
  releases := fun _ _ at_ => inv.mutex_eq at_ rfl

/-- From the return of the pthread call to the one that releases the mutex. -/
def passThrough (t : ι) : List (ι × Action ι κ) :=
  [(t, .assignHolder), (t, .unlock), (t, .unassignHolder)]

variable [DecidableEq ι] [Fintype ι] [DecidableEq κ] {threads : CurrentThread ι}
  {s s' : State ι κ} {t : ι}

/-- Nothing keeps a thread from going through its section. -/
theorem execute_passThrough (threads : CurrentThread ι) {acquired : Bool}
    (at_ : s.pc t = .locked acquired) :
    ∃ later, execute (step threads) (passThrough t) s = some later ∧
      later.pc t = .unassigned acquired ∧ later.lock.mutex_ = s.lock.mutex_ := by
  simp [execute, passThrough, step, at_, MutexLock.assignHolder, MutexLock.unassignHolder]

/-- A thread whose call has timed out goes on to release the mutex of another
one. -/
theorem timeOut_breaks (inv : Invariant threads s)
    (stepped : step threads (t, .timeOut) s = some s') :
    ∃ later, execute (step threads) (passThrough t) s' = some later ∧ ¬ Excludes later := by
  cases move_of_step stepped with
  | timeOut owner at_ taken =>
      have locked : Function.update s.pc t (.locked false) t = .locked false :=
        Function.update_self t _ _
      obtain ⟨later, executed, stands, mutex⟩ := execute_passThrough threads
        (s := { s with pc := Function.update s.pc t (.locked false) }) locked
      refine ⟨later, executed, fun excludes => ?_⟩
      have owns := (inv.owns t).mp (mutex.symm.trans (excludes.releases t false stands))
      rw [at_] at owns
      cases owns

end MutexGuard

namespace RWLockGuard

variable {ι : Type}

/-- The pthread lock is held in the mode. -/
def Mode.HeldIn (mode : Mode) (rwlock : RWLock) : Prop :=
  match mode with
  | .read => 0 < rwlock.readers
  | .write => rwlock.writer = true

/-- A thread inside a write guard is alone inside, and a destructor that is about
to release the lock does so for a thread that has got it. -/
structure Excludes (s : State ι) : Prop where
  inside : ∀ t u mode acquired acquired', s.pc t = .inside .write acquired →
    s.pc u = .inside mode acquired' → t = u
  releases : ∀ t mode acquired, s.pc t = .unassigned mode acquired →
    acquired = true ∧ mode.HeldIn s.rwlock_

theorem Exclusive.heldIn [Fintype ι] {s : State ι} (exclusive : Exclusive s) {t : ι} {mode : Mode}
    (holding : (s.pc t).mode = some mode) : mode.HeldIn s.rwlock_ := by
  have holds : (s.pc t).holds mode = true := by rw [Pc.holds, holding, beq_self_eq_true]
  cases mode with
  | read =>
      rw [Mode.HeldIn, exclusive.readers]
      exact Exclusive.count_pos holds
  | write => exact exclusive.writer_eq_true holds

theorem Exclusive.excludes [Fintype ι] [DecidableEq ι] {s : State ι} (exclusive : Exclusive s) :
    Excludes s where
  inside := by
    intro t u mode acquired acquired' first second
    by_contra other
    have writes : (s.pc t).holds .write = true := by rw [first]; rfl
    have none := exclusive.alone writes (Ne.symm other)
    rw [second] at none
    cases none
  releases := by
    intro t mode acquired at_
    have notTimedOut := exclusive.acquired t
    rw [at_] at notTimedOut
    have holding : (s.pc t).mode = some mode := by rw [at_]; rfl
    exact ⟨Bool.not_eq_eq_eq_not.mp notTimedOut, exclusive.heldIn holding⟩

def passThrough (t : ι) : List (ι × Action) :=
  [(t, .assignHolder), (t, .unlock), (t, .unassignHolder)]

variable [DecidableEq ι] {threads : CurrentThread ι} {s s' : State ι} {t : ι}

theorem execute_passThrough (threads : CurrentThread ι) {mode : Mode} {acquired : Bool}
    (at_ : s.pc t = .locked mode acquired) :
    ∃ later, execute (step threads) (passThrough t) s = some later ∧
      later.pc t = .unassigned mode acquired := by
  simp [execute, passThrough, step, at_]

/-- A thread whose call has timed out goes on to release a lock it has not
got. -/
theorem timeOut_breaks {mode : Mode} (stepped : step threads (t, .timeOut mode) s = some s') :
    ∃ later, execute (step threads) (passThrough t) s' = some later ∧ ¬ Excludes later := by
  cases move_of_step stepped with
  | timeOut _ at_ taken =>
      have locked : Function.update s.pc t (.locked mode false) t = .locked mode false :=
        Function.update_self t _ _
      obtain ⟨later, executed, stands⟩ := execute_passThrough threads
        (s := { s with pc := Function.update s.pc t (.locked mode false) }) locked
      refine ⟨later, executed, fun excludes => ?_⟩
      cases (excludes.releases t mode false stands).1

end RWLockGuard

section

variable {ι κ : Type} [DecidableEq ι] [Fintype ι] [DecidableEq κ] {threads : CurrentThread ι}

/-- **Timed guards exclude each other in a run without a time-out**, on a mutex
and on a reader-writer lock, and their destructors release what their own
threads hold. After the first call that times out this is lost as soon as its
thread has gone through its section. -/
theorem timed_guards_exclude {mutex : MutexGuard.State ι κ} {rwlock : RWLockGuard.State ι}
    (mutexRun : Reachable (MutexGuard.step threads) MutexGuard.Succeeds
      (MutexGuard.State.initial ι κ) mutex)
    (rwlockRun : Reachable (RWLockGuard.step threads) RWLockGuard.Succeeds
      (RWLockGuard.State.initial ι) rwlock) :
    (MutexGuard.Excludes mutex ∧
      ∀ t mutex', MutexGuard.step threads (t, .timeOut) mutex = some mutex' →
        ∃ later, execute (MutexGuard.step threads) (MutexGuard.passThrough t) mutex' =
          some later ∧ ¬ MutexGuard.Excludes later) ∧
    (RWLockGuard.Excludes rwlock ∧
      ∀ t mode rwlock', RWLockGuard.step threads (t, .timeOut mode) rwlock = some rwlock' →
        ∃ later, execute (RWLockGuard.step threads) (RWLockGuard.passThrough t) rwlock' =
          some later ∧ ¬ RWLockGuard.Excludes later) := by
  have inv := MutexGuard.Invariant.of_reachable mutexRun
  have tracked := RWLockGuard.Tracked.of_reachable rwlockRun
  refine ⟨⟨inv.excludes, ?_⟩, tracked.exclusive.excludes, ?_⟩
  · exact fun t mutex' stepped => MutexGuard.timeOut_breaks inv stepped
  · exact fun t mode rwlock' stepped => RWLockGuard.timeOut_breaks stepped

end

open MutexGuard (twoThreads)

/-- A thread goes through its section and another one gets the mutex. -/
def MutexGuard.handOver : List (Bool × MutexGuard.Action Bool Unit) :=
  [(false, .pthreadMutexLock), (false, .assignHolder), (false, .unlock),
    (false, .unassignHolder), (false, .pthreadMutexUnlock), (true, .pthreadMutexLock),
    (true, .assignHolder)]

/-- A writer goes through its section and a reader gets the lock. -/
def RWLockGuard.handOver : List (Bool × RWLockGuard.Action) :=
  [(false, .pthreadRwlockLock .write), (false, .assignHolder), (false, .unlock),
    (false, .unassignHolder), (false, .pthreadRwlockUnlock), (true, .pthreadRwlockLock .read),
    (true, .assignHolder)]

theorem timed_guards_exclude_handOver :
    ∃ mutex rwlock,
      execute (MutexGuard.step twoThreads) MutexGuard.handOver
        (MutexGuard.State.initial Bool Unit) = some mutex ∧
      execute (RWLockGuard.step twoThreads) RWLockGuard.handOver
        (RWLockGuard.State.initial Bool) = some rwlock ∧
      mutex.pc true = .inside true ∧ rwlock.pc true = .inside .read true ∧
      MutexGuard.Excludes mutex ∧ RWLockGuard.Excludes rwlock := by
  have mutexOutcome : (execute (MutexGuard.step twoThreads) MutexGuard.handOver
      (MutexGuard.State.initial Bool Unit)).map (fun s => s.pc true) = some (.inside true) := by
    decide
  have rwlockOutcome : (execute (RWLockGuard.step twoThreads) RWLockGuard.handOver
      (RWLockGuard.State.initial Bool)).map (fun s => s.pc true) =
        some (.inside .read true) := by decide
  obtain ⟨mutex, mutexRun, mutexReachable, mutexAt⟩ :=
    Reachable.exists_of_execute MutexGuard.Succeeds mutexOutcome (by decide)
  obtain ⟨rwlock, rwlockRun, rwlockReachable, rwlockAt⟩ :=
    Reachable.exists_of_execute RWLockGuard.Succeeds rwlockOutcome (by decide)
  obtain ⟨⟨mutexExcludes, -⟩, rwlockExcludes, -⟩ :=
    timed_guards_exclude mutexReachable rwlockReachable
  exact ⟨mutex, rwlock, mutexRun, rwlockRun, mutexAt, rwlockAt, mutexExcludes, rwlockExcludes⟩

/-- A thread keeps the mutex until the call of another one times out. -/
def MutexGuard.outwaited : List (Bool × MutexGuard.Action Bool Unit) :=
  [(false, .pthreadMutexLock), (false, .assignHolder), (true, .timeOut), (true, .assignHolder)]

/-- A writer keeps the lock until the call of a reader times out. -/
def RWLockGuard.outwaited : List (Bool × RWLockGuard.Action) :=
  [(false, .pthreadRwlockLock .write), (false, .assignHolder), (true, .timeOut .read),
    (true, .assignHolder)]

/-- Two threads are inside guards on one mutex, and the destructor of the second
is then about to release it for the first; a writer and a reader are inside
guards on one reader-writer lock. -/
theorem time_out_enters_unlocked :
    (∃ s, Reachable (MutexGuard.step twoThreads) (fun _ _ => True)
        (MutexGuard.State.initial Bool Unit) s ∧
      s.pc false = .inside true ∧ s.pc true = .inside false) ∧
    (∃ s, Reachable (MutexGuard.step twoThreads) (fun _ _ => True)
        (MutexGuard.State.initial Bool Unit) s ∧
      s.pc true = .unassigned false ∧ s.lock.mutex_ = some false) ∧
    ∃ s, Reachable (RWLockGuard.step twoThreads) (fun _ _ => True)
        (RWLockGuard.State.initial Bool) s ∧
      s.pc false = .inside .write true ∧ s.pc true = .inside .read false := by
  have both : (execute (MutexGuard.step twoThreads) MutexGuard.outwaited
      (MutexGuard.State.initial Bool Unit)).map (fun s => (s.pc false, s.pc true)) =
        some (.inside true, .inside false) := by decide
  have released : (execute (MutexGuard.step twoThreads)
      (MutexGuard.outwaited ++ [(true, .unlock), (true, .unassignHolder)])
      (MutexGuard.State.initial Bool Unit)).map (fun s => (s.pc true, s.lock.mutex_)) =
        some (.unassigned false, some false) := by decide
  have shared : (execute (RWLockGuard.step twoThreads) RWLockGuard.outwaited
      (RWLockGuard.State.initial Bool)).map (fun s => (s.pc false, s.pc true)) =
        some (.inside .write true, .inside .read false) := by decide
  obtain ⟨first, -, firstReachable, firstSame⟩ :=
    Reachable.exists_of_execute (fun _ _ => True) both (by decide)
  obtain ⟨second, -, secondReachable, secondSame⟩ :=
    Reachable.exists_of_execute (fun _ _ => True) released (by decide)
  obtain ⟨third, -, thirdReachable, thirdSame⟩ :=
    Reachable.exists_of_execute (fun _ _ => True) shared (by decide)
  exact ⟨⟨first, firstReachable, Prod.mk.inj firstSame⟩,
    ⟨second, secondReachable, Prod.mk.inj secondSame⟩,
    third, thirdReachable, Prod.mk.inj thirdSame⟩

end AirNet.Base
