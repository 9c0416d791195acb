import AirNet.Cpp.Platform
import AirNet.Lib.Transition

/-!
# The mutex and its holder

A `MutexLock` is a pthread mutex and a field `holder_` with the id of the thread
that locked it. The field is written apart from the pthread calls: after the
mutex was acquired and before it is released, and in a condition wait, which
releases and re-acquires the mutex, before and after the wait. The definitions
follow `common/base/mutex.h` and `condition.h`, with one step for each pthread
call and each store to the field, for one mutex and any number of conditions on
it.

When the pthread calls succeed, the field is the id of the owner from the store
after the acquisition to the store before the release, and 0 otherwise
(`Invariant.holder`). So `AssertLocked` is exact (`ownership_is_exact`).

A call of `pthread_mutex_timedlock` on a mutex that is taken may time out. With
assertions compiled out its result is not looked at, and the thread goes on as
if it had acquired the mutex.
-/

set_option autoImplicit false

namespace AirNet.Base

open AirNet.Cpp AirNet.Lib

/-- `CurrentThread::tid()`: every thread has an id of its own, and none has the
id 0. -/
structure CurrentThread (ι : Type) where
  tid : ι → Nat
  injective : Function.Injective tid
  ne_zero : ∀ t, tid t ≠ 0

/-! ## The mutex -/

/-- `mutex_` is the thread that owns the pthread mutex. -/
structure MutexLock (ι : Type) where
  mutex_ : Option ι
  holder_ : Nat

namespace MutexLock

variable {ι : Type}

def construct : MutexLock ι where
  mutex_ := none
  holder_ := 0

def isLockedByThisThread (tid : Nat) (lock : MutexLock ι) : Bool :=
  lock.holder_ == tid

def assertLocked (P : Platform) (tid : Nat) (lock : MutexLock ι) : Except Fault Unit :=
  P.assert (lock.isLockedByThisThread tid = true) "IsLockedByThisThread()"

def assignHolder (tid : Nat) (lock : MutexLock ι) : MutexLock ι :=
  { lock with holder_ := tid }

def unassignHolder (lock : MutexLock ι) : MutexLock ι :=
  { lock with holder_ := 0 }

/-- `pthread_mutex_lock` and `pthread_mutex_timedlock` that return 0; nothing
while the caller has to wait. -/
def pthreadMutexLock (t : ι) (lock : MutexLock ι) : Option (MutexLock ι) :=
  match lock.mutex_ with
  | none => some { lock with mutex_ := some t }
  | some _ => none

/-- A mutex of the default kind is released whoever asks for it. -/
def pthreadMutexUnlock (lock : MutexLock ι) : MutexLock ι :=
  { lock with mutex_ := none }

end MutexLock

namespace MutexGuard

/-! ## Threads and their steps -/

/-- Where a thread stands. `acquired` tells whether the pthread call in the
constructor of its guard returned 0; the code does not keep it. -/
inductive Pc (κ : Type) where
  | outside
  /-- In `lock()` or `timed_lock()`, before `assign_holder()`. -/
  | locked (acquired : Bool)
  /-- The guard is constructed. -/
  | inside (acquired : Bool)
  /-- In `unlock()`, before `unassign_holder()`. -/
  | unlocking (acquired : Bool)
  /-- In `unlock()`, before `pthread_mutex_unlock`. -/
  | unassigned (acquired : Bool)
  /-- In `Wait()`, before the constructor of `UnassignGuard`. -/
  | waiting (condition : κ)
  /-- In `Wait()`, before `pthread_cond_wait`. -/
  | waitUnassigned (condition : κ)
  /-- Asleep in `pthread_cond_wait`. -/
  | asleep (condition : κ)
  /-- Woken in `pthread_cond_wait`, without the mutex. -/
  | woken
  /-- In `Wait()`, before the destructor of `UnassignGuard`. -/
  | waited
  deriving DecidableEq

structure State (ι κ : Type) where
  lock : MutexLock ι
  pc : ι → Pc κ

def State.initial (ι κ : Type) : State ι κ where
  lock := .construct
  pc := fun _ => .outside

inductive Action (ι κ : Type) where
  | pthreadMutexLock
  /-- `pthread_mutex_timedlock` returns `ETIMEDOUT`. -/
  | timeOut
  | assignHolder
  | unlock
  | unassignHolder
  | pthreadMutexUnlock
  | wait (condition : κ)
  | pthreadCondWait
  | wakeSpuriously
  | relock
  | notify (condition : κ) (target : Option ι)
  | notifyAll (condition : κ)
  deriving DecidableEq

variable {ι κ : Type}

/-- A thread that may call `Notify()`. -/
def Pc.isRunning : Pc κ → Bool
  | .outside => true
  | .inside _ => true
  | _ => false

/-- `pthread_cond_broadcast` wakes every thread asleep on the condition. -/
def Pc.wakeAll [DecidableEq κ] (condition : κ) : Pc κ → Pc κ
  | .asleep other => if other = condition then .woken else .asleep other
  | p => p

/-- The step of a thread, if it is enabled. What a wait does for a thread that
does not own the mutex is undefined. -/
def step [DecidableEq ι] [Fintype ι] [DecidableEq κ] (threads : CurrentThread ι) :
    ι × Action ι κ → State ι κ → Option (State ι κ)
  | (t, .pthreadMutexLock), s =>
      match s.pc t with
      | .outside => (s.lock.pthreadMutexLock t).map fun lock =>
          { lock := lock, pc := Function.update s.pc t (.locked true) }
      | _ => none
  | (t, .timeOut), s =>
      match s.pc t, s.lock.mutex_ with
      | .outside, some _ => some { s with pc := Function.update s.pc t (.locked false) }
      | _, _ => none
  | (t, .assignHolder), s =>
      match s.pc t with
      | .locked acquired => some
          { lock := s.lock.assignHolder (threads.tid t)
            pc := Function.update s.pc t (.inside acquired) }
      | .waited => some
          { lock := s.lock.assignHolder (threads.tid t)
            pc := Function.update s.pc t (.inside true) }
      | _ => none
  | (t, .unlock), s =>
      match s.pc t with
      | .inside acquired => some { s with pc := Function.update s.pc t (.unlocking acquired) }
      | _ => none
  | (t, .unassignHolder), s =>
      match s.pc t with
      | .unlocking acquired => some
          { lock := s.lock.unassignHolder
            pc := Function.update s.pc t (.unassigned acquired) }
      | .waiting condition => some
          { lock := s.lock.unassignHolder
            pc := Function.update s.pc t (.waitUnassigned condition) }
      | _ => none
  | (t, .pthreadMutexUnlock), s =>
      match s.pc t with
      | .unassigned _ => some
          { lock := s.lock.pthreadMutexUnlock, pc := Function.update s.pc t .outside }
      | _ => none
  | (t, .wait condition), s =>
      match s.pc t with
      | .inside true => some { s with pc := Function.update s.pc t (.waiting condition) }
      | _ => none
  | (t, .pthreadCondWait), s =>
      match s.pc t with
      | .waitUnassigned condition => some
          { lock := s.lock.pthreadMutexUnlock
            pc := Function.update s.pc t (.asleep condition) }
      | _ => none
  | (t, .wakeSpuriously), s =>
      match s.pc t with
      | .asleep _ => some { s with pc := Function.update s.pc t .woken }
      | _ => none
  | (t, .relock), s =>
      match s.pc t with
      | .woken => (s.lock.pthreadMutexLock t).map fun lock =>
          { lock := lock, pc := Function.update s.pc t .waited }
      | _ => none
  | (t, .notify condition (some u)), s =>
      if (s.pc t).isRunning = true ∧ s.pc u = .asleep condition then
        some { s with pc := Function.update s.pc u .woken }
      else none
  | (t, .notify condition none), s =>
      if (s.pc t).isRunning = true ∧ ∀ u, s.pc u ≠ .asleep condition then some s else none
  | (t, .notifyAll condition), s =>
      if (s.pc t).isRunning = true then
        some { s with pc := fun u => (s.pc u).wakeAll condition }
      else none

/-- What the steps of a thread do. -/
inductive Move [DecidableEq ι] [DecidableEq κ] (threads : CurrentThread ι) (s : State ι κ)
    (t : ι) : Action ι κ → State ι κ → Prop where
  | pthreadMutexLock (lock : MutexLock ι) (at_ : s.pc t = .outside)
      (locked : s.lock.pthreadMutexLock t = some lock) : Move threads s t .pthreadMutexLock
      { lock := lock, pc := Function.update s.pc t (.locked true) }
  | timeOut (owner : ι) (at_ : s.pc t = .outside) (taken : s.lock.mutex_ = some owner) :
      Move threads s t .timeOut { s with pc := Function.update s.pc t (.locked false) }
  | assignHolder (acquired : Bool)
      (at_ : s.pc t = .locked acquired ∨ s.pc t = .waited ∧ acquired = true) :
      Move threads s t .assignHolder
        { lock := s.lock.assignHolder (threads.tid t)
          pc := Function.update s.pc t (.inside acquired) }
  | unlock (acquired : Bool) (at_ : s.pc t = .inside acquired) :
      Move threads s t .unlock { s with pc := Function.update s.pc t (.unlocking acquired) }
  | unassignHolder (acquired : Bool) (at_ : s.pc t = .unlocking acquired) :
      Move threads s t .unassignHolder
        { lock := s.lock.unassignHolder, pc := Function.update s.pc t (.unassigned acquired) }
  | waitUnassign (condition : κ) (at_ : s.pc t = .waiting condition) :
      Move threads s t .unassignHolder
        { lock := s.lock.unassignHolder
          pc := Function.update s.pc t (.waitUnassigned condition) }
  | pthreadMutexUnlock (acquired : Bool) (at_ : s.pc t = .unassigned acquired) :
      Move threads s t .pthreadMutexUnlock
        { lock := s.lock.pthreadMutexUnlock, pc := Function.update s.pc t .outside }
  | wait (condition : κ) (at_ : s.pc t = .inside true) :
      Move threads s t (.wait condition)
        { s with pc := Function.update s.pc t (.waiting condition) }
  | pthreadCondWait (condition : κ) (at_ : s.pc t = .waitUnassigned condition) :
      Move threads s t .pthreadCondWait
        { lock := s.lock.pthreadMutexUnlock, pc := Function.update s.pc t (.asleep condition) }
  | wakeSpuriously (condition : κ) (at_ : s.pc t = .asleep condition) :
      Move threads s t .wakeSpuriously { s with pc := Function.update s.pc t .woken }
  | relock (lock : MutexLock ι) (at_ : s.pc t = .woken)
      (locked : s.lock.pthreadMutexLock t = some lock) : Move threads s t .relock
      { lock := lock, pc := Function.update s.pc t .waited }
  | notifyOne (condition : κ) (u : ι) (asleep : s.pc u = .asleep condition) :
      Move threads s t (.notify condition (some u))
        { s with pc := Function.update s.pc u .woken }
  | notifyNobody (condition : κ) : Move threads s t (.notify condition none) s
  | notifyAll (condition : κ) : Move threads s t (.notifyAll condition)
      { s with pc := fun u => (s.pc u).wakeAll condition }

theorem move_of_step [DecidableEq ι] [Fintype ι] [DecidableEq κ] {threads : CurrentThread ι}
    {t : ι} {action : Action ι κ} {s s' : State ι κ}
    (stepped : step threads (t, action) s = some s') : Move threads s t action s' := by
  cases action with
  | pthreadMutexLock =>
      cases at_ : s.pc t <;> simp only [step, at_, Option.map_eq_some_iff, reduceCtorEq] at stepped
      obtain ⟨lock, locked, rfl⟩ := stepped
      exact .pthreadMutexLock lock at_ locked
  | timeOut =>
      cases at_ : s.pc t <;> cases taken : s.lock.mutex_ <;>
        simp only [step, at_, taken, Option.some.injEq, reduceCtorEq] at stepped
      exact stepped ▸ .timeOut _ at_ taken
  | assignHolder =>
      cases at_ : s.pc t with
      | locked acquired =>
          simp only [step, at_, Option.some.injEq] at stepped
          exact stepped ▸ .assignHolder acquired (.inl at_)
      | waited =>
          simp only [step, at_, Option.some.injEq] at stepped
          exact stepped ▸ .assignHolder true (.inr ⟨at_, rfl⟩)
      | _ => simp only [step, at_, reduceCtorEq] at stepped
  | unlock =>
      cases at_ : s.pc t <;> simp only [step, at_, Option.some.injEq, reduceCtorEq] at stepped
      exact stepped ▸ .unlock _ at_
  | unassignHolder =>
      cases at_ : s.pc t with
      | unlocking acquired =>
          simp only [step, at_, Option.some.injEq] at stepped
          exact stepped ▸ .unassignHolder acquired at_
      | waiting condition =>
          simp only [step, at_, Option.some.injEq] at stepped
          exact stepped ▸ .waitUnassign condition at_
      | _ => simp only [step, at_, reduceCtorEq] at stepped
  | pthreadMutexUnlock =>
      cases at_ : s.pc t <;> simp only [step, at_, Option.some.injEq, reduceCtorEq] at stepped
      exact stepped ▸ .pthreadMutexUnlock _ at_
  | wait condition =>
      cases at_ : s.pc t with
      | inside acquired =>
          cases acquired <;> simp only [step, at_, Option.some.injEq, reduceCtorEq] at stepped
          exact stepped ▸ .wait condition at_
      | _ => simp only [step, at_, reduceCtorEq] at stepped
  | pthreadCondWait =>
      cases at_ : s.pc t <;> simp only [step, at_, Option.some.injEq, reduceCtorEq] at stepped
      exact stepped ▸ .pthreadCondWait _ at_
  | wakeSpuriously =>
      cases at_ : s.pc t <;> simp only [step, at_, Option.some.injEq, reduceCtorEq] at stepped
      exact stepped ▸ .wakeSpuriously _ at_
  | relock =>
      cases at_ : s.pc t <;> simp only [step, at_, Option.map_eq_some_iff, reduceCtorEq] at stepped
      obtain ⟨lock, locked, rfl⟩ := stepped
      exact .relock lock at_ locked
  | notify condition target =>
      cases target with
      | none =>
          obtain ⟨-, same⟩ := Option.ite_none_right_eq_some.mp stepped
          exact Option.some.inj same ▸ .notifyNobody condition
      | some u =>
          obtain ⟨⟨-, asleep⟩, same⟩ := Option.ite_none_right_eq_some.mp stepped
          exact Option.some.inj same ▸ .notifyOne condition u asleep
  | notifyAll condition =>
      obtain ⟨-, same⟩ := Option.ite_none_right_eq_some.mp stepped
      exact Option.some.inj same ▸ .notifyAll condition

/-- No pthread call fails. -/
def Succeeds (label : ι × Action ι κ) (_ : State ι κ) : Prop :=
  label.2 ≠ .timeOut

instance [DecidableEq ι] [DecidableEq κ] (label : ι × Action ι κ) (s : State ι κ) :
    Decidable (Succeeds label s) :=
  inferInstanceAs (Decidable (label.2 ≠ .timeOut))

/-! ## The owner and the holder -/

/-- The places where a thread owns the mutex, if no call has timed out. -/
def Pc.owns : Pc κ → Bool
  | .outside => false
  | .asleep _ => false
  | .woken => false
  | _ => true

/-- The places between a store of the thread's id and its next store of 0. -/
def Pc.isAssigned : Pc κ → Bool
  | .inside _ => true
  | .unlocking _ => true
  | .waiting _ => true
  | _ => false

/-- In a guard whose pthread call timed out. -/
def Pc.timedOut : Pc κ → Bool
  | .locked acquired => !acquired
  | .inside acquired => !acquired
  | .unlocking acquired => !acquired
  | .unassigned acquired => !acquired
  | _ => false

theorem Pc.wakeAll_cases [DecidableEq κ] (condition : κ) (p : Pc κ) :
    p.wakeAll condition = p ∨ (∃ other, p = .asleep other) ∧ p.wakeAll condition = .woken := by
  cases p with
  | asleep other =>
      by_cases same : other = condition
      · exact .inr ⟨⟨other, rfl⟩, if_pos same⟩
      · exact .inl (if_neg same)
  | _ => exact .inl rfl

/-- What `holder_` should be. -/
def State.owner (threads : CurrentThread ι) (s : State ι κ) : Nat :=
  match s.lock.mutex_ with
  | none => 0
  | some t => if (s.pc t).isAssigned then threads.tid t else 0

/-- What holds as long as no call times out. -/
structure Invariant (threads : CurrentThread ι) (s : State ι κ) : Prop where
  acquired : ∀ t, (s.pc t).timedOut = false
  owns : ∀ t, s.lock.mutex_ = some t ↔ (s.pc t).owns = true
  holder : s.lock.holder_ = s.owner threads

namespace Invariant

variable {threads : CurrentThread ι} {s : State ι κ} {t : ι}

theorem initial : Invariant threads (State.initial ι κ) where
  acquired := fun _ => rfl
  owns := fun _ => ⟨nofun, nofun⟩
  holder := rfl

theorem mutex_eq (inv : Invariant threads s) {p : Pc κ} (at_ : s.pc t = p)
    (owns : p.owns = true) : s.lock.mutex_ = some t :=
  (inv.owns t).mpr (by rw [at_]; exact owns)

/-- At a place without a store the field is 0. -/
theorem holder_eq_zero (inv : Invariant threads s) {p : Pc κ} (at_ : s.pc t = p)
    (owns : p.owns = true) (cleared : p.isAssigned = false) : s.lock.holder_ = 0 := by
  rw [inv.holder, State.owner, inv.mutex_eq at_ owns]
  simp only [at_, cleared]
  rfl

theorem holder_eq_tid (inv : Invariant threads s) {p : Pc κ} (at_ : s.pc t = p)
    (owns : p.owns = true) (assigned : p.isAssigned = true) :
    s.lock.holder_ = threads.tid t := by
  rw [inv.holder, State.owner, inv.mutex_eq at_ owns]
  simp only [at_, assigned, if_true]

/-- Threads are woken. -/
theorem wake (inv : Invariant threads s) {pc : ι → Pc κ}
    (woken : ∀ u, pc u = s.pc u ∨ (∃ condition, s.pc u = .asleep condition) ∧ pc u = .woken) :
    Invariant threads { s with pc := pc } := by
  have same : ∀ u, (pc u).owns = (s.pc u).owns ∧ (pc u).isAssigned = (s.pc u).isAssigned ∧
      (pc u).timedOut = (s.pc u).timedOut := by
    intro u
    rcases woken u with unmoved | ⟨⟨condition, slept⟩, awake⟩
    · rw [unmoved]
      exact ⟨rfl, rfl, rfl⟩
    · rw [slept, awake]
      exact ⟨rfl, rfl, rfl⟩
  refine ⟨fun u => (same u).2.2.trans (inv.acquired u), fun u => ?_, ?_⟩
  · rw [(same u).1]
    exact inv.owns u
  · rw [inv.holder, State.owner, State.owner]
    cases s.lock.mutex_ with
    | none => rfl
    | some t => simp only [(same t).2.1]

variable [DecidableEq ι]

theorem wakeOne (inv : Invariant threads s) {condition : κ} {u : ι}
    (slept : s.pc u = .asleep condition) :
    Invariant threads { s with pc := Function.update s.pc u .woken } := by
  refine inv.wake ((Function.forall_update_iff s.pc fun v q =>
    q = s.pc v ∨ (∃ condition, s.pc v = .asleep condition) ∧ q = .woken).mpr ⟨?_, ?_⟩)
  · exact .inr ⟨⟨condition, slept⟩, rfl⟩
  · exact fun v _ => .inl rfl

/-- A thread gets the mutex, or moves on while it owns it. -/
theorem own (inv : Invariant threads s) {p : Pc κ} {holder : Nat}
    (alone : s.lock.mutex_ = none ∨ s.lock.mutex_ = some t) (owns : p.owns = true)
    (acquired : p.timedOut = false)
    (holds : holder = if p.isAssigned then threads.tid t else 0) :
    Invariant threads ⟨⟨some t, holder⟩, Function.update s.pc t p⟩ where
  acquired :=
    (Function.forall_update_iff s.pc fun _ q => q.timedOut = false).mpr
      ⟨acquired, fun u _ => inv.acquired u⟩
  owns := by
    refine (Function.forall_update_iff s.pc fun u q => some t = some u ↔ q.owns = true).mpr
      ⟨iff_of_true rfl owns, fun u other => ?_⟩
    rw [← inv.owns u]
    refine iff_of_false (fun same => other (Option.some.inj same).symm) fun owner => ?_
    rw [owner] at alone
    rcases alone with free | same
    · cases free
    · exact other (Option.some.inj same)
  holder := by
    simpa only [State.owner, Function.update_self] using holds

/-- The owner gives the mutex up. -/
theorem release (inv : Invariant threads s) {p : Pc κ} (owner : s.lock.mutex_ = some t)
    (gone : p.owns = false) (acquired : p.timedOut = false) :
    Invariant threads ⟨⟨none, 0⟩, Function.update s.pc t p⟩ where
  acquired :=
    (Function.forall_update_iff s.pc fun _ q => q.timedOut = false).mpr
      ⟨acquired, fun u _ => inv.acquired u⟩
  owns := by
    refine (Function.forall_update_iff s.pc fun u q => none = some u ↔ q.owns = true).mpr
      ⟨iff_of_false nofun (Bool.not_eq_true _ ▸ gone), fun u other => ?_⟩
    rw [← inv.owns u, owner]
    exact iff_of_false nofun fun same => other (Option.some.inj same).symm
  holder := rfl

theorem of_pthreadMutexLock (inv : Invariant threads s) {p : Pc κ} {lock : MutexLock ι}
    (locked : s.lock.pthreadMutexLock t = some lock) (owns : p.owns = true)
    (cleared : p.isAssigned = false) (acquired : p.timedOut = false) :
    Invariant threads ⟨lock, Function.update s.pc t p⟩ := by
  cases owner : s.lock.mutex_ with
  | some u =>
      simp only [MutexLock.pthreadMutexLock, owner] at locked
      cases locked
  | none =>
      simp only [MutexLock.pthreadMutexLock, owner, Option.some.injEq] at locked
      subst locked
      refine inv.own (.inl owner) owns acquired ?_
      rw [inv.holder, State.owner, owner, cleared]
      rfl

theorem assignHolder (inv : Invariant threads s) {p : Pc κ} {acquired : Bool} (at_ : s.pc t = p)
    (owns : p.owns = true) (notTimedOut : (!acquired) = false) :
    Invariant threads ⟨s.lock.assignHolder (threads.tid t),
      Function.update s.pc t (.inside acquired)⟩ := by
  have owner := inv.mutex_eq at_ owns
  rw [MutexLock.assignHolder, owner]
  exact inv.own (.inr owner) rfl notTimedOut rfl

theorem unassignHolder (inv : Invariant threads s) {p q : Pc κ} (at_ : s.pc t = p)
    (owns : p.owns = true) (stays : q.owns = true) (cleared : q.isAssigned = false)
    (acquired : q.timedOut = false) :
    Invariant threads ⟨s.lock.unassignHolder, Function.update s.pc t q⟩ := by
  have owner := inv.mutex_eq at_ owns
  rw [MutexLock.unassignHolder, owner]
  refine inv.own (.inr owner) stays acquired ?_
  rw [cleared]
  rfl

/-- The owner enters `unlock()` or `Wait()`. -/
theorem enter (inv : Invariant threads s) {q : Pc κ} {acquired : Bool}
    (at_ : s.pc t = .inside acquired) (stays : q.owns = true) (assigned : q.isAssigned = true)
    (notTimedOut : q.timedOut = false) :
    Invariant threads { s with pc := Function.update s.pc t q } := by
  have owner := inv.mutex_eq at_ rfl
  have holder := inv.holder_eq_tid at_ rfl rfl
  obtain ⟨⟨mutex, value⟩, pc⟩ := s
  obtain rfl : mutex = some t := owner
  refine inv.own (.inr rfl) stays notTimedOut ?_
  rw [assigned]
  exact holder

theorem pthreadMutexUnlock (inv : Invariant threads s) {p q : Pc κ} (at_ : s.pc t = p)
    (owns : p.owns = true) (cleared : p.isAssigned = false) (gone : q.owns = false)
    (acquired : q.timedOut = false) :
    Invariant threads ⟨s.lock.pthreadMutexUnlock, Function.update s.pc t q⟩ := by
  rw [MutexLock.pthreadMutexUnlock, inv.holder_eq_zero at_ owns cleared]
  exact inv.release (inv.mutex_eq at_ owns) gone acquired

/-- One step of a run without time-outs. -/
theorem step [Fintype ι] [DecidableEq κ] (inv : Invariant threads s) {label : ι × Action ι κ}
    {s' : State ι κ} (succeeds : Succeeds label s)
    (stepped : MutexGuard.step threads label s = some s') : Invariant threads s' := by
  obtain ⟨t, action⟩ := label
  have acquired := inv.acquired t
  cases move_of_step stepped with
  | pthreadMutexLock lock at_ locked => exact inv.of_pthreadMutexLock locked rfl rfl rfl
  | timeOut owner at_ taken => exact absurd rfl succeeds
  | assignHolder result at_ =>
      rcases at_ with at_ | ⟨at_, rfl⟩
      · rw [at_] at acquired
        exact inv.assignHolder at_ rfl acquired
      · exact inv.assignHolder at_ rfl rfl
  | unlock result at_ =>
      rw [at_] at acquired
      exact inv.enter at_ rfl rfl acquired
  | unassignHolder result at_ =>
      rw [at_] at acquired
      exact inv.unassignHolder at_ rfl rfl rfl acquired
  | waitUnassign condition at_ => exact inv.unassignHolder at_ rfl rfl rfl rfl
  | pthreadMutexUnlock result at_ => exact inv.pthreadMutexUnlock at_ rfl rfl rfl rfl
  | wait condition at_ => exact inv.enter at_ rfl rfl rfl
  | pthreadCondWait condition at_ => exact inv.pthreadMutexUnlock at_ rfl rfl rfl rfl
  | wakeSpuriously condition at_ => exact inv.wakeOne at_
  | relock lock at_ locked => exact inv.of_pthreadMutexLock locked rfl rfl rfl
  | notifyOne condition u asleep => exact inv.wakeOne asleep
  | notifyNobody condition => exact inv
  | notifyAll condition => exact inv.wake fun u => (s.pc u).wakeAll_cases condition

theorem of_reachable [Fintype ι] [DecidableEq κ]
    (reachable : Reachable (MutexGuard.step threads) Succeeds (State.initial ι κ) s) :
    Invariant threads s :=
  reachable.invariant initial fun _ _ _ inv succeeds stepped => inv.step succeeds stepped

end Invariant

variable [DecidableEq ι] [Fintype ι] [DecidableEq κ]

/-- **The tracking of the owner is exact**, across condition waits too. The
field is 0 or the id of the owner, and 0 when the mutex is free. `AssertLocked`
passes for a thread in its section outside `lock()`, `unlock()` and `Wait()`,
and `IsLockedByThisThread()` is false for a thread that does not own the
mutex. -/
theorem ownership_is_exact (threads : CurrentThread ι) {s : State ι κ}
    (reachable : Reachable (step threads) Succeeds (State.initial ι κ) s) :
    (s.lock.holder_ = 0 ∨
      ∃ t, s.lock.mutex_ = some t ∧ s.lock.holder_ = threads.tid t) ∧
    (s.lock.mutex_ = none → s.lock.holder_ = 0) ∧
    (∀ t acquired, s.pc t = .inside acquired →
      s.lock.isLockedByThisThread (threads.tid t) = true ∧
        ∀ P : Platform, s.lock.assertLocked P (threads.tid t) = .ok ()) ∧
    ∀ t, s.lock.mutex_ ≠ some t → s.lock.isLockedByThisThread (threads.tid t) = false := by
  have inv := Invariant.of_reachable reachable
  have free : s.lock.mutex_ = none → s.lock.holder_ = 0 := by
    intro owner
    rw [inv.holder, State.owner, owner]
  have tracked : ∀ t acquired, s.pc t = .inside acquired →
      s.lock.isLockedByThisThread (threads.tid t) = true := by
    intro t acquired at_
    exact beq_iff_eq.mpr (inv.holder_eq_tid at_ rfl rfl)
  refine ⟨?_, free, ?_, ?_⟩
  · cases owner : s.lock.mutex_ with
    | none => exact .inl (free owner)
    | some t =>
        cases assigned : (s.pc t).isAssigned with
        | true => exact .inr ⟨t, rfl, by simp [inv.holder, State.owner, owner, assigned]⟩
        | false => exact .inl (by simp [inv.holder, State.owner, owner, assigned])
  · intro t acquired at_
    exact ⟨tracked t acquired at_, fun P => P.assert_of (tracked t acquired at_) _⟩
  · intro t other
    rw [MutexLock.isLockedByThisThread, beq_eq_false_iff_ne, inv.holder, State.owner]
    cases owner : s.lock.mutex_ with
    | none => exact (threads.ne_zero t).symm
    | some u =>
        have different : u ≠ t := fun same => other (by rw [owner, same])
        dsimp only
        split_ifs
        · exact fun same => different (threads.injective same)
        · exact (threads.ne_zero t).symm

/-- Two threads with the ids 1 and 2. -/
def twoThreads : CurrentThread Bool where
  tid := fun t => if t then 2 else 1
  injective := by decide
  ne_zero := by decide

/-- A thread waits, another one notifies it from its own section, and the first
one gets the mutex back. -/
def waitAndNotify : List (Bool × Action Bool Unit) :=
  [(false, .pthreadMutexLock), (false, .assignHolder), (false, .wait ()),
    (false, .unassignHolder), (false, .pthreadCondWait),
    (true, .pthreadMutexLock), (true, .assignHolder), (true, .notify () (some false)),
    (true, .unlock), (true, .unassignHolder), (true, .pthreadMutexUnlock),
    (false, .relock), (false, .assignHolder)]

theorem ownership_is_exact_waitAndNotify :
    ∃ s, execute (step twoThreads) waitAndNotify (State.initial Bool Unit) = some s ∧
      s.lock.isLockedByThisThread 1 = true ∧ s.lock.isLockedByThisThread 2 = false := by
  have outcome : (execute (step twoThreads) waitAndNotify (State.initial Bool Unit)).map
      (fun s => (s.pc false, s.lock.mutex_)) = some (.inside true, some false) := by decide
  obtain ⟨s, executed, reachable, same⟩ := Reachable.exists_of_execute Succeeds outcome (by decide)
  obtain ⟨at_, owner⟩ := Prod.mk.inj same
  obtain ⟨-, -, passes, fails⟩ := ownership_is_exact twoThreads reachable
  exact ⟨s, executed, (passes false true at_).1, fails true (by rw [owner]; decide)⟩

end MutexGuard

end AirNet.Base
