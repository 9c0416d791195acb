import AirNet.Base.Mutex
import AirNet.Lib.LockOrder

/-!
# Two mutexes at once

`MutexLockTimedDoubleGuard` locks two mutexes, the one at the smaller address
first, and unlocks them in the other order. The definitions follow
`common/base/mutex.h`: the constructor and the destructor each compare the
addresses for themselves, and a mutex is locked and unlocked in the steps of
`MutexLock`. A mutex is named by its address, and addresses are ordered.

A thread waits only for a mutex above the one it owns, so threads that use
these guards and no other lock cannot deadlock. A thread owns both mutexes while
its guard is open and none when it has closed it
(`double_guards_cannot_deadlock`).
-/

set_option autoImplicit false

namespace AirNet.Base

open AirNet.Lib

/-- The two mutexes of a guard; the constructor asserts that they are
different. -/
structure MutexLockTimedDoubleGuard (M : Type) where
  lhsMutex_ : M
  rhsMutex_ : M
  distinct : lhsMutex_ ≠ rhsMutex_
  deriving DecidableEq

namespace MutexLockTimedDoubleGuard

variable {M : Type} [LinearOrder M] (guard : MutexLockTimedDoubleGuard M)

/-- The calls of `timed_lock()` in the constructor. -/
def lockOrder : List M :=
  if guard.lhsMutex_ < guard.rhsMutex_ then [guard.lhsMutex_, guard.rhsMutex_]
  else [guard.rhsMutex_, guard.lhsMutex_]

/-- The calls of `unlock()` in the destructor. -/
def unlockOrder : List M :=
  if guard.lhsMutex_ < guard.rhsMutex_ then [guard.rhsMutex_, guard.lhsMutex_]
  else [guard.lhsMutex_, guard.rhsMutex_]

theorem mem_lockOrder {m : M} :
    m ∈ guard.lockOrder ↔ m = guard.lhsMutex_ ∨ m = guard.rhsMutex_ := by
  rw [lockOrder]
  split_ifs
  · simp
  · simp [or_comm]

theorem unlockOrder_eq : guard.unlockOrder = guard.lockOrder.reverse := by
  rw [lockOrder, unlockOrder]
  split_ifs
  · rfl
  · rfl

theorem lockOrder_pairwise : guard.lockOrder.Pairwise (· < ·) := by
  rw [lockOrder]
  split_ifs with smaller
  · simpa using smaller
  · have larger := lt_of_le_of_ne (not_lt.mp smaller) guard.distinct.symm
    simpa using larger

theorem unlockOrder_nodup : guard.unlockOrder.Nodup := by
  rw [unlockOrder_eq, List.nodup_reverse]
  exact guard.lockOrder_pairwise.imp ne_of_lt

end MutexLockTimedDoubleGuard

namespace DoubleGuard

/-! ## Threads and their steps -/

/-- Where a thread stands. In the constructor and the destructor the mutexes
still to be locked or unlocked are kept. -/
inductive Pc (M : Type) where
  | idle
  /-- Before `pthread_mutex_timedlock` of the next mutex, with those locked
  before. -/
  | locking (guard : MutexLockTimedDoubleGuard M) (locked toLock : List M)
  /-- In `timed_lock()`, before `assign_holder()`. -/
  | unstored (guard : MutexLockTimedDoubleGuard M) (locked : List M) (mutex : M) (toLock : List M)
  /-- The guard is constructed. -/
  | opened (guard : MutexLockTimedDoubleGuard M)
  /-- Before `unassign_holder()` of the next mutex. -/
  | unlocking (toUnlock : List M)
  /-- In `unlock()`, before `pthread_mutex_unlock`. -/
  | unassigned (mutex : M) (toUnlock : List M)
  deriving DecidableEq

structure State (ι M : Type) where
  mutexes : M → MutexLock ι
  pc : ι → Pc M

def State.initial (ι M : Type) : State ι M where
  mutexes := fun _ => .construct
  pc := fun _ => .idle

inductive Action (M : Type) where
  | construct (guard : MutexLockTimedDoubleGuard M)
  | pthreadMutexTimedlock
  | assignHolder
  | destruct
  | unassignHolder
  | pthreadMutexUnlock
  deriving DecidableEq

variable {ι M : Type}

/-- The rest of the constructor. -/
def afterLock (guard : MutexLockTimedDoubleGuard M) (locked : List M) : List M → Pc M
  | [] => .opened guard
  | toLock => .locking guard locked toLock

/-- The rest of the destructor. -/
def afterUnlock : List M → Pc M
  | [] => .idle
  | toUnlock => .unlocking toUnlock

/-- The step of a thread, if it is enabled. `pthread_mutex_timedlock` waits
until the mutex is free. -/
def step [DecidableEq ι] [LinearOrder M] (threads : CurrentThread ι) :
    ι × Action M → State ι M → Option (State ι M)
  | (t, .construct guard), s =>
      match s.pc t with
      | .idle => some { s with pc := Function.update s.pc t (.locking guard [] guard.lockOrder) }
      | _ => none
  | (t, .pthreadMutexTimedlock), s =>
      match s.pc t with
      | .locking guard locked (mutex :: toLock) =>
          ((s.mutexes mutex).pthreadMutexLock t).map fun lock =>
            { mutexes := Function.update s.mutexes mutex lock
              pc := Function.update s.pc t (.unstored guard locked mutex toLock) }
      | _ => none
  | (t, .assignHolder), s =>
      match s.pc t with
      | .unstored guard locked mutex toLock => some
          { mutexes := Function.update s.mutexes mutex
              ((s.mutexes mutex).assignHolder (threads.tid t))
            pc := Function.update s.pc t (afterLock guard (locked ++ [mutex]) toLock) }
      | _ => none
  | (t, .destruct), s =>
      match s.pc t with
      | .opened guard =>
          some { s with pc := Function.update s.pc t (.unlocking guard.unlockOrder) }
      | _ => none
  | (t, .unassignHolder), s =>
      match s.pc t with
      | .unlocking (mutex :: toUnlock) => some
          { mutexes := Function.update s.mutexes mutex (s.mutexes mutex).unassignHolder
            pc := Function.update s.pc t (.unassigned mutex toUnlock) }
      | _ => none
  | (t, .pthreadMutexUnlock), s =>
      match s.pc t with
      | .unassigned mutex toUnlock => some
          { mutexes := Function.update s.mutexes mutex (s.mutexes mutex).pthreadMutexUnlock
            pc := Function.update s.pc t (afterUnlock toUnlock) }
      | _ => none

/-! ## What a thread owns -/

def State.owner (s : State ι M) (m : M) : Option ι := (s.mutexes m).mutex_

/-- The thread is about to lock the mutex. -/
def State.Waits (s : State ι M) (t : ι) (m : M) : Prop :=
  ∃ guard locked toLock, s.pc t = .locking guard locked (m :: toLock)

variable [LinearOrder M]

/-- The mutexes of a thread at this place. -/
def Pc.owned : Pc M → List M
  | .idle => []
  | .locking _ locked _ => locked
  | .unstored _ locked mutex _ => locked ++ [mutex]
  | .opened guard => guard.lockOrder
  | .unlocking toUnlock => toUnlock
  | .unassigned mutex toUnlock => mutex :: toUnlock

/-- Those with the id of the thread in `holder_`. -/
def Pc.stored : Pc M → List M
  | .idle => []
  | .locking _ locked _ => locked
  | .unstored _ locked _ _ => locked
  | .opened guard => guard.lockOrder
  | .unlocking toUnlock => toUnlock
  | .unassigned _ toUnlock => toUnlock

/-- The mutexes locked and to be locked are those of the guard in the order of
the constructor; none is unlocked twice. -/
def Pc.Follows : Pc M → Prop
  | .idle => True
  | .locking guard locked toLock => locked ++ toLock = guard.lockOrder
  | .unstored guard locked mutex toLock => locked ++ mutex :: toLock = guard.lockOrder
  | .opened _ => True
  | .unlocking toUnlock => toUnlock.Nodup
  | .unassigned mutex toUnlock => (mutex :: toUnlock).Nodup

theorem Pc.stored_subset_owned (p : Pc M) : p.stored ⊆ p.owned := by
  cases p with
  | unstored guard locked mutex toLock => exact List.subset_append_left _ _
  | unassigned mutex toUnlock => exact List.subset_cons_self _ _
  | _ => exact List.Subset.refl _

theorem afterLock_spec {guard : MutexLockTimedDoubleGuard M} {locked toLock : List M}
    (follows : locked ++ toLock = guard.lockOrder) :
    (afterLock guard locked toLock).Follows ∧ (afterLock guard locked toLock).owned = locked ∧
      (afterLock guard locked toLock).stored = locked := by
  cases toLock with
  | nil =>
      rw [List.append_nil] at follows
      exact ⟨trivial, follows.symm, follows.symm⟩
  | cons mutex toLock => exact ⟨follows, rfl, rfl⟩

theorem afterUnlock_spec {toUnlock : List M} (nodup : toUnlock.Nodup) :
    (afterUnlock toUnlock).Follows ∧ (afterUnlock toUnlock).owned = toUnlock ∧
      (afterUnlock toUnlock).stored = toUnlock := by
  cases toUnlock with
  | nil => exact ⟨trivial, rfl, rfl⟩
  | cons mutex toUnlock => exact ⟨nodup, rfl, rfl⟩

structure Invariant (threads : CurrentThread ι) (s : State ι M) : Prop where
  follows : ∀ t, (s.pc t).Follows
  owner : ∀ t m, s.owner m = some t ↔ m ∈ (s.pc t).owned
  holder : ∀ t, ∀ m ∈ (s.pc t).stored, (s.mutexes m).holder_ = threads.tid t
  active : {t | s.pc t ≠ .idle}.Finite

namespace Invariant

variable {threads : CurrentThread ι} {s : State ι M} {t : ι}

theorem initial : Invariant threads (State.initial ι M) where
  follows := fun _ => trivial
  owner := fun _ _ => ⟨nofun, nofun⟩
  holder := fun _ _ => nofun
  active := by simp [State.initial]

/-- A thread waits for a mutex above those it owns. -/
theorem ordered (inv : Invariant threads s) {m m' : M} (owned : s.owner m = some t)
    (waits : s.Waits t m') : m < m' := by
  obtain ⟨guard, locked, toLock, at_⟩ := waits
  have member := (inv.owner t m).mp owned
  have follows := inv.follows t
  rw [at_] at member follows
  have sorted := guard.lockOrder_pairwise
  rw [← follows, List.pairwise_append] at sorted
  exact sorted.2.2 m member m' List.mem_cons_self

theorem waiting_finite (inv : Invariant threads s) : {t | ∃ m, s.Waits t m}.Finite := by
  refine inv.active.subset ?_
  rintro t ⟨m, guard, locked, toLock, at_⟩ idle
  rw [at_] at idle
  cases idle

end Invariant

/-- A thread moves: it may get mutexes that were free and give up its own, and
the others stay as they are. -/
structure Moves (threads : CurrentThread ι) (s : State ι M) (t : ι) (p : Pc M)
    (mutexes : M → MutexLock ι) : Prop where
  follows : p.Follows
  owns : ∀ m ∈ p.owned, (mutexes m).mutex_ = some t
  gets : ∀ m ∈ p.owned, m ∉ (s.pc t).owned → s.owner m = none
  releases : ∀ m ∈ (s.pc t).owned, m ∉ p.owned → (mutexes m).mutex_ = none
  frame : ∀ m, m ∉ (s.pc t).owned → m ∉ p.owned → mutexes m = s.mutexes m
  stores : ∀ m ∈ p.stored, (mutexes m).holder_ = threads.tid t

namespace Moves

variable {threads : CurrentThread ι} {s : State ι M} {t u : ι} {p : Pc M}
  {mutexes : M → MutexLock ι} {m : M}

/-- What another thread owns is not touched. -/
theorem untouched (moves : Moves threads s t p mutexes) (inv : Invariant threads s)
    (other : u ≠ t) (owned : m ∈ (s.pc u).owned) : mutexes m = s.mutexes m := by
  have owner := (inv.owner u m).mpr owned
  have notOwn : m ∉ (s.pc t).owned := by
    intro own
    exact other (Option.some.inj (owner.symm.trans ((inv.owner t m).mpr own)))
  have notGot : m ∉ p.owned := by
    intro got
    rw [moves.gets m got notOwn] at owner
    cases owner
  exact moves.frame m notOwn notGot

/-- The owner of a mutex that the thread has not got is the one before. -/
theorem owner_before (moves : Moves threads s t p mutexes)
    (owner : (mutexes m).mutex_ = some u) (notGot : m ∉ p.owned) :
    s.owner m = some u ∧ m ∉ (s.pc t).owned := by
  have notOwn : m ∉ (s.pc t).owned := by
    intro own
    rw [moves.releases m own notGot] at owner
    cases owner
  rw [moves.frame m notOwn notGot] at owner
  exact ⟨owner, notOwn⟩

theorem owner_iff_self (moves : Moves threads s t p mutexes) (inv : Invariant threads s) :
    (mutexes m).mutex_ = some t ↔ m ∈ p.owned := by
  refine ⟨fun owner => ?_, moves.owns m⟩
  by_contra notGot
  obtain ⟨before, notOwn⟩ := moves.owner_before owner notGot
  exact notOwn ((inv.owner t m).mp before)

theorem owner_iff_other (moves : Moves threads s t p mutexes) (inv : Invariant threads s)
    (other : u ≠ t) : (mutexes m).mutex_ = some u ↔ m ∈ (s.pc u).owned := by
  constructor
  · intro owner
    have notGot : m ∉ p.owned := by
      intro got
      exact other (Option.some.inj (owner.symm.trans (moves.owns m got)))
    exact (inv.owner u m).mp (moves.owner_before owner notGot).1
  · intro owned
    rw [moves.untouched inv other owned]
    exact (inv.owner u m).mpr owned

theorem invariant [DecidableEq ι] (moves : Moves threads s t p mutexes)
    (inv : Invariant threads s) :
    Invariant threads ⟨mutexes, Function.update s.pc t p⟩ where
  follows :=
    (Function.forall_update_iff s.pc fun _ q => q.Follows).mpr
      ⟨moves.follows, fun u _ => inv.follows u⟩
  owner := by
    refine (Function.forall_update_iff s.pc fun u q => ∀ m, (mutexes m).mutex_ = some u ↔
      m ∈ q.owned).mpr ⟨fun m => moves.owner_iff_self inv, fun u other m => ?_⟩
    exact moves.owner_iff_other inv other
  holder := by
    refine (Function.forall_update_iff s.pc fun u q => ∀ m ∈ q.stored,
      (mutexes m).holder_ = threads.tid u).mpr ⟨moves.stores, fun u other m stored => ?_⟩
    rw [moves.untouched inv other ((s.pc u).stored_subset_owned stored)]
    exact inv.holder u m stored
  active := by
    refine (inv.active.insert t).subset fun u active => ?_
    by_cases same : u = t
    · exact .inl same
    · refine .inr fun idle => active ?_
      simpa only [Function.update_of_ne same] using idle

end Moves

namespace Invariant

variable {threads : CurrentThread ι} {s : State ι M} {t : ι}

/-- A thread keeps its mutexes and stores to none of them. -/
theorem keep (inv : Invariant threads s) {p : Pc M} (follows : p.Follows)
    (owned : ∀ m, m ∈ p.owned ↔ m ∈ (s.pc t).owned) (stored : p.stored ⊆ (s.pc t).stored) :
    Moves threads s t p s.mutexes where
  follows := follows
  owns := fun m got => (inv.owner t m).mpr ((owned m).mp got)
  gets := fun m got notOwn => absurd ((owned m).mp got) notOwn
  releases := fun m own notGot => absurd ((owned m).mpr own) notGot
  frame := fun _ _ _ => rfl
  stores := fun m member => inv.holder t m (stored member)

/-- The constructor is entered. -/
theorem construct (inv : Invariant threads s) (at_ : s.pc t = .idle)
    (guard : MutexLockTimedDoubleGuard M) :
    Moves threads s t (.locking guard [] guard.lockOrder) s.mutexes := by
  refine inv.keep (List.nil_append _) ?_ (List.nil_subset _)
  intro m
  rw [at_]
  rfl

/-- A thread keeps its mutexes and stores to one of them. -/
theorem store (inv : Invariant threads s) {p : Pc M} {mutex : M} {holder : Nat}
    (follows : p.Follows) (own : mutex ∈ (s.pc t).owned)
    (owned : ∀ m, m ∈ p.owned ↔ m ∈ (s.pc t).owned)
    (stored : ∀ m ∈ p.stored, m ≠ mutex ∧ m ∈ (s.pc t).stored ∨
      m = mutex ∧ holder = threads.tid t) :
    Moves threads s t p
      (Function.update s.mutexes mutex { s.mutexes mutex with holder_ := holder }) where
  follows := follows
  owns := by
    intro m got
    have owner : (s.mutexes m).mutex_ = some t := (inv.owner t m).mpr ((owned m).mp got)
    by_cases same : m = mutex
    · subst same
      simpa only [Function.update_self] using owner
    · simpa only [Function.update_of_ne same] using owner
  gets := fun m got notOwn => absurd ((owned m).mp got) notOwn
  releases := fun m member notGot => absurd ((owned m).mpr member) notGot
  frame := by
    intro m notOwn _
    refine Function.update_of_ne ?_ _ _
    rintro rfl
    exact notOwn own
  stores := by
    intro m member
    rcases stored m member with ⟨other, before⟩ | ⟨rfl, holds⟩
    · rw [Function.update_of_ne other]
      exact inv.holder t m before
    · rw [Function.update_self]
      exact holds

/-- `pthread_mutex_timedlock` returns. -/
theorem lock (inv : Invariant threads s) {guard : MutexLockTimedDoubleGuard M}
    {locked toLock : List M} {mutex : M} {lock : MutexLock ι}
    (at_ : s.pc t = .locking guard locked (mutex :: toLock))
    (got : (s.mutexes mutex).pthreadMutexLock t = some lock) :
    Moves threads s t (.unstored guard locked mutex toLock)
      (Function.update s.mutexes mutex lock) := by
  have free : s.owner mutex = none := by
    cases owner : (s.mutexes mutex).mutex_ with
    | none => exact owner
    | some u =>
        rw [MutexLock.pthreadMutexLock, owner] at got
        cases got
  obtain rfl : { s.mutexes mutex with mutex_ := some t } = lock := by
    rw [MutexLock.pthreadMutexLock, show (s.mutexes mutex).mutex_ = none from free] at got
    exact Option.some.inj got
  have others : ∀ m ∈ locked, m ≠ mutex := by
    rintro m member rfl
    have owner := (inv.owner t m).mpr (by rw [at_]; exact member)
    rw [free] at owner
    cases owner
  have follows := inv.follows t
  rw [at_] at follows
  refine ⟨follows, ?_, ?_, ?_, ?_, ?_⟩
  · intro m member
    rcases List.mem_append.mp member with before | now
    · rw [Function.update_of_ne (others m before)]
      exact (inv.owner t m).mpr (by rw [at_]; exact before)
    · rw [List.mem_singleton.mp now, Function.update_self]
  · intro m member notOwn
    rw [at_] at notOwn
    rcases List.mem_append.mp member with before | now
    · exact absurd before notOwn
    · rw [List.mem_singleton.mp now]
      exact free
  · intro m own notGot
    rw [at_] at own
    exact absurd (List.mem_append_left _ own) notGot
  · intro m _ notGot
    refine Function.update_of_ne ?_ _ _
    rintro rfl
    exact notGot (List.mem_append_right _ (List.mem_singleton_self m))
  · intro m member
    rw [Function.update_of_ne (others m member)]
    exact inv.holder t m (by rw [at_]; exact member)

/-- `assign_holder()`. -/
theorem assign (inv : Invariant threads s) {guard : MutexLockTimedDoubleGuard M}
    {locked toLock : List M} {mutex : M} (at_ : s.pc t = .unstored guard locked mutex toLock) :
    Moves threads s t (afterLock guard (locked ++ [mutex]) toLock)
      (Function.update s.mutexes mutex ((s.mutexes mutex).assignHolder (threads.tid t))) := by
  have follows : locked ++ mutex :: toLock = guard.lockOrder := by
    have now := inv.follows t
    rwa [at_] at now
  rw [← List.singleton_append, ← List.append_assoc] at follows
  obtain ⟨stays, owned, stored⟩ := afterLock_spec follows
  refine inv.store stays ?_ ?_ ?_
  · rw [at_]
    exact List.mem_append_right _ (List.mem_singleton_self mutex)
  · intro m
    rw [owned, at_]
    rfl
  · intro m member
    rw [stored] at member
    by_cases same : m = mutex
    · exact .inr ⟨same, rfl⟩
    · rw [at_]
      exact .inl ⟨same, (List.mem_append.mp member).resolve_right (by simpa using same)⟩

/-- The destructor is entered. -/
theorem destruct (inv : Invariant threads s) {guard : MutexLockTimedDoubleGuard M}
    (at_ : s.pc t = .opened guard) :
    Moves threads s t (.unlocking guard.unlockOrder) s.mutexes := by
  have same : ∀ m, m ∈ guard.unlockOrder ↔ m ∈ guard.lockOrder := by
    intro m
    rw [guard.unlockOrder_eq, List.mem_reverse]
  refine inv.keep guard.unlockOrder_nodup ?_ ?_
  · rw [at_]
    exact same
  · rw [at_]
    exact fun m => (same m).mp

/-- `unassign_holder()`. -/
theorem unassign (inv : Invariant threads s) {toUnlock : List M} {mutex : M}
    (at_ : s.pc t = .unlocking (mutex :: toUnlock)) :
    Moves threads s t (.unassigned mutex toUnlock)
      (Function.update s.mutexes mutex (s.mutexes mutex).unassignHolder) := by
  have follows : (mutex :: toUnlock).Nodup := by
    have now := inv.follows t
    rwa [at_] at now
  refine inv.store follows ?_ ?_ ?_
  · rw [at_]
    exact List.mem_cons_self
  · intro m
    rw [at_]
    rfl
  · intro m member
    rw [at_]
    refine .inl ⟨?_, List.mem_cons_of_mem _ member⟩
    rintro rfl
    exact (List.nodup_cons.mp follows).1 member

/-- `pthread_mutex_unlock` returns. -/
theorem unlock (inv : Invariant threads s) {toUnlock : List M} {mutex : M}
    (at_ : s.pc t = .unassigned mutex toUnlock) :
    Moves threads s t (afterUnlock toUnlock)
      (Function.update s.mutexes mutex (s.mutexes mutex).pthreadMutexUnlock) := by
  have follows := inv.follows t
  rw [at_] at follows
  obtain ⟨notTwice, nodup⟩ := List.nodup_cons.mp follows
  obtain ⟨stays, owned, stored⟩ := afterUnlock_spec nodup
  have others : ∀ m ∈ toUnlock, m ≠ mutex := by
    rintro m member rfl
    exact notTwice member
  refine ⟨stays, ?_, ?_, ?_, ?_, ?_⟩
  · intro m member
    rw [owned] at member
    rw [Function.update_of_ne (others m member)]
    exact (inv.owner t m).mpr (by rw [at_]; exact List.mem_cons_of_mem _ member)
  · intro m member notOwn
    rw [owned] at member
    rw [at_] at notOwn
    exact absurd (List.mem_cons_of_mem _ member) notOwn
  · intro m own notGot
    rw [at_] at own
    rw [owned] at notGot
    rcases List.mem_cons.mp own with rfl | rest
    · rw [Function.update_self]
      rfl
    · exact absurd rest notGot
  · intro m notOwn _
    rw [at_] at notOwn
    refine Function.update_of_ne ?_ _ _
    rintro rfl
    exact notOwn List.mem_cons_self
  · intro m member
    rw [stored] at member
    rw [Function.update_of_ne (others m member)]
    exact inv.holder t m (by rw [at_]; exact member)

variable [DecidableEq ι]

theorem step (inv : Invariant threads s) {label : ι × Action M} {s' : State ι M}
    (stepped : DoubleGuard.step threads label s = some s') : Invariant threads s' := by
  obtain ⟨t, action⟩ := label
  cases action with
  | construct guard =>
      cases at_ : s.pc t with
      | idle =>
          simp only [DoubleGuard.step, at_, Option.some.injEq] at stepped
          subst stepped
          exact (inv.construct at_ guard).invariant inv
      | _ => simp only [DoubleGuard.step, at_, reduceCtorEq] at stepped
  | pthreadMutexTimedlock =>
      cases at_ : s.pc t with
      | locking guard locked toLock =>
          cases toLock with
          | nil => simp only [DoubleGuard.step, at_, reduceCtorEq] at stepped
          | cons mutex toLock =>
              simp only [DoubleGuard.step, at_, Option.map_eq_some_iff] at stepped
              obtain ⟨lock, got, rfl⟩ := stepped
              exact (inv.lock at_ got).invariant inv
      | _ => simp only [DoubleGuard.step, at_, reduceCtorEq] at stepped
  | assignHolder =>
      cases at_ : s.pc t with
      | unstored guard locked mutex toLock =>
          simp only [DoubleGuard.step, at_, Option.some.injEq] at stepped
          subst stepped
          exact (inv.assign at_).invariant inv
      | _ => simp only [DoubleGuard.step, at_, reduceCtorEq] at stepped
  | destruct =>
      cases at_ : s.pc t with
      | opened guard =>
          simp only [DoubleGuard.step, at_, Option.some.injEq] at stepped
          subst stepped
          exact (inv.destruct at_).invariant inv
      | _ => simp only [DoubleGuard.step, at_, reduceCtorEq] at stepped
  | unassignHolder =>
      cases at_ : s.pc t with
      | unlocking toUnlock =>
          cases toUnlock with
          | nil => simp only [DoubleGuard.step, at_, reduceCtorEq] at stepped
          | cons mutex toUnlock =>
              simp only [DoubleGuard.step, at_, Option.some.injEq] at stepped
              subst stepped
              exact (inv.unassign at_).invariant inv
      | _ => simp only [DoubleGuard.step, at_, reduceCtorEq] at stepped
  | pthreadMutexUnlock =>
      cases at_ : s.pc t with
      | unassigned mutex toUnlock =>
          simp only [DoubleGuard.step, at_, Option.some.injEq] at stepped
          subst stepped
          exact (inv.unlock at_).invariant inv
      | _ => simp only [DoubleGuard.step, at_, reduceCtorEq] at stepped

end Invariant

variable [DecidableEq ι] {threads : CurrentThread ι} {s : State ι M}

/-- **Double guards cannot deadlock**, whatever pairs the threads lock and in
whatever order they name them: there is no set of threads each of which is
blocked on a mutex owned by a thread of the set. A thread owns both mutexes of
its open guard, with its id in both, and none when it has closed it. -/
theorem double_guards_cannot_deadlock
    (reachable : Reachable (step threads) (fun _ _ => True) (State.initial ι M) s) :
    (∀ group : Set ι, ¬ Deadlock s.owner s.Waits group) ∧
    (∀ t guard, s.pc t = .opened guard → ∀ m, m = guard.lhsMutex_ ∨ m = guard.rhsMutex_ →
      s.owner m = some t ∧ (s.mutexes m).isLockedByThisThread (threads.tid t) = true) ∧
    ∀ t, s.pc t = .idle → ∀ m, s.owner m ≠ some t := by
  have inv : Invariant threads s :=
    reachable.invariant .initial fun _ _ _ inv _ stepped => inv.step stepped
  refine ⟨?_, ?_, ?_⟩
  · exact not_deadlock (fun t m m' => inv.ordered) inv.waiting_finite
  · intro t guard at_ m both
    have member := guard.mem_lockOrder.mpr both
    refine ⟨(inv.owner t m).mpr (by rw [at_]; exact member), ?_⟩
    exact beq_iff_eq.mpr (inv.holder t m (by rw [at_]; exact member))
  · intro t at_ m owner
    have member := (inv.owner t m).mp owner
    rw [at_] at member
    cases member

open MutexGuard (twoThreads)

/-- Two threads name the same mutexes in different orders; the first has both and
the second waits for the lower one. -/
def crossed : List (Bool × Action (Fin 2)) :=
  [(false, .construct ⟨0, 1, by decide⟩), (true, .construct ⟨1, 0, by decide⟩),
    (false, .pthreadMutexTimedlock), (false, .assignHolder),
    (false, .pthreadMutexTimedlock), (false, .assignHolder)]

/-- The first thread closes its guard, and the second gets both mutexes. -/
def handedOver : List (Bool × Action (Fin 2)) :=
  crossed ++ [(false, .destruct), (false, .unassignHolder), (false, .pthreadMutexUnlock),
    (false, .unassignHolder), (false, .pthreadMutexUnlock),
    (true, .pthreadMutexTimedlock), (true, .assignHolder),
    (true, .pthreadMutexTimedlock), (true, .assignHolder)]

theorem double_guards_cannot_deadlock_crossed :
    (∃ s, execute (step twoThreads) crossed (State.initial Bool (Fin 2)) = some s ∧
      s.pc true = .locking ⟨1, 0, by decide⟩ [] [0, 1] ∧
      s.owner 0 = some false ∧ s.owner 1 = some false ∧
      ¬ Deadlock s.owner s.Waits Set.univ) ∧
    ∃ s, execute (step twoThreads) handedOver (State.initial Bool (Fin 2)) = some s ∧
      s.pc false = .idle ∧ (∀ m, s.owner m ≠ some false) ∧
      s.owner 0 = some true ∧ s.owner 1 = some true := by
  constructor
  · have outcome : (execute (step twoThreads) crossed (State.initial Bool (Fin 2))).map
        (fun s => (s.pc false, s.pc true)) =
          some (.opened ⟨0, 1, by decide⟩, .locking ⟨1, 0, by decide⟩ [] [0, 1]) := by decide
    obtain ⟨s, executed, reachable, same⟩ :=
      Reachable.exists_of_execute (fun _ _ => True) outcome (by decide)
    obtain ⟨opened, waits⟩ := Prod.mk.inj same
    obtain ⟨free, owns, -⟩ := double_guards_cannot_deadlock reachable
    exact ⟨s, executed, waits, (owns false _ opened 0 (.inl rfl)).1,
      (owns false _ opened 1 (.inr rfl)).1, free Set.univ⟩
  · have outcome : (execute (step twoThreads) handedOver (State.initial Bool (Fin 2))).map
        (fun s => (s.pc false, s.pc true)) = some (.idle, .opened ⟨1, 0, by decide⟩) := by decide
    obtain ⟨s, executed, reachable, same⟩ :=
      Reachable.exists_of_execute (fun _ _ => True) outcome (by decide)
    obtain ⟨closed, opened⟩ := Prod.mk.inj same
    obtain ⟨-, owns, none⟩ := double_guards_cannot_deadlock reachable
    exact ⟨s, executed, closed, none false closed, (owns true _ opened 0 (.inr rfl)).1,
      (owns true _ opened 1 (.inl rfl)).1⟩

end DoubleGuard

end AirNet.Base
