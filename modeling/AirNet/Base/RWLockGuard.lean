import AirNet.Base.Mutex
import AirNet.Base.RWLockQueue

/-!
# The reader-writer lock and its holder

An `RWLock` is a pthread reader-writer lock and one field `holder_` for all
threads that hold it. A thread stores its id after it has acquired the lock and
0 before it releases it, so the field belongs to whoever stored last. The
definitions follow `common/base/rwlock.h`, with one step for each pthread call
and each store to the field.

While readers overlap the field says nothing about most of them: a thread finds
its own id as long as nobody stores while another thread is inside a guard, and
no longer (`holders_pass_assertLocked`). Two readers are enough for
`AssertLocked` to fail in a thread that holds the lock
(`second_reader_hides_first`).

For writers the field is exact, and it is 0 whenever nobody holds the lock
(`writers_are_tracked`). Every thread that stores its id stores 0 before it
releases the lock, so the store that is left behind by the last of them is a 0.
-/

set_option autoImplicit false

namespace AirNet.Base

open AirNet.Cpp AirNet.Lib

namespace RWLockGuard

/-! ## Threads and their steps -/

/-- Read guards and write guards, timed or not. -/
inductive Mode where
  | read
  | write
  deriving DecidableEq, Repr

/-- The pthread call of the mode that returns 0; nothing while the caller has
to wait. -/
def Mode.acquire : Mode → RWLock → Option RWLock
  | .read => RWLock.timedRdlock
  | .write => RWLock.timedWrlock

/-- Where a thread stands. `acquired` tells whether the pthread call in the
constructor of its guard returned 0; the code does not keep it. -/
inductive Pc where
  | outside
  /-- The pthread call has returned, before the id is stored. -/
  | locked (mode : Mode) (acquired : Bool)
  /-- The guard is constructed. -/
  | inside (mode : Mode) (acquired : Bool)
  /-- In `unlock()`, before 0 is stored. -/
  | unlocking (mode : Mode) (acquired : Bool)
  /-- In `unlock()`, before `pthread_rwlock_unlock`. -/
  | unassigned (mode : Mode) (acquired : Bool)
  deriving DecidableEq, Repr

structure State (ι : Type) where
  rwlock_ : RWLock
  holder_ : Nat
  pc : ι → Pc

def State.initial (ι : Type) : State ι where
  rwlock_ := { readers := 0, writer := false }
  holder_ := 0
  pc := fun _ => .outside

variable {ι : Type}

def State.isLockedByThisThread (tid : Nat) (s : State ι) : Bool :=
  s.holder_ == tid

def State.assertLocked (P : Platform) (tid : Nat) (s : State ι) : Except Fault Unit :=
  P.assert (s.isLockedByThisThread tid = true) "IsLockedByThisThread()"

/-- The assertion in the destructor of `RWLock`. -/
def State.assertReleased (P : Platform) (s : State ι) : Except Fault Unit :=
  P.assert (s.holder_ = 0) "holder_ == 0"

inductive Action where
  | pthreadRwlockLock (mode : Mode)
  /-- The timed call returns `ETIMEDOUT`. -/
  | timeOut (mode : Mode)
  | assignHolder
  | unlock
  | unassignHolder
  | pthreadRwlockUnlock
  deriving DecidableEq, Repr

/-- The step of a thread, if it is enabled. Only a call that would have to wait
times out. -/
def step [DecidableEq ι] (threads : CurrentThread ι) : ι × Action → State ι → Option (State ι)
  | (t, .pthreadRwlockLock mode), s =>
      match s.pc t with
      | .outside => (mode.acquire s.rwlock_).map fun rwlock =>
          { s with rwlock_ := rwlock, pc := Function.update s.pc t (.locked mode true) }
      | _ => none
  | (t, .timeOut mode), s =>
      match s.pc t, mode.acquire s.rwlock_ with
      | .outside, none => some { s with pc := Function.update s.pc t (.locked mode false) }
      | _, _ => none
  | (t, .assignHolder), s =>
      match s.pc t with
      | .locked mode acquired => some { s with
          holder_ := threads.tid t
          pc := Function.update s.pc t (.inside mode acquired) }
      | _ => none
  | (t, .unlock), s =>
      match s.pc t with
      | .inside mode acquired =>
          some { s with pc := Function.update s.pc t (.unlocking mode acquired) }
      | _ => none
  | (t, .unassignHolder), s =>
      match s.pc t with
      | .unlocking mode acquired => some { s with
          holder_ := 0
          pc := Function.update s.pc t (.unassigned mode acquired) }
      | _ => none
  | (t, .pthreadRwlockUnlock), s =>
      match s.pc t with
      | .unassigned _ _ => some { s with
          rwlock_ := s.rwlock_.unlock
          pc := Function.update s.pc t .outside }
      | _ => none

/-- What the steps of a thread do. -/
inductive Move [DecidableEq ι] (threads : CurrentThread ι) (s : State ι) (t : ι) :
    Action → State ι → Prop where
  | pthreadRwlockLock (mode : Mode) (rwlock : RWLock) (at_ : s.pc t = .outside)
      (locked : mode.acquire s.rwlock_ = some rwlock) : Move threads s t (.pthreadRwlockLock mode)
      { s with rwlock_ := rwlock, pc := Function.update s.pc t (.locked mode true) }
  | timeOut (mode : Mode) (at_ : s.pc t = .outside) (taken : mode.acquire s.rwlock_ = none) :
      Move threads s t (.timeOut mode) { s with pc := Function.update s.pc t (.locked mode false) }
  | assignHolder (mode : Mode) (acquired : Bool) (at_ : s.pc t = .locked mode acquired) :
      Move threads s t .assignHolder { s with
        holder_ := threads.tid t
        pc := Function.update s.pc t (.inside mode acquired) }
  | unlock (mode : Mode) (acquired : Bool) (at_ : s.pc t = .inside mode acquired) :
      Move threads s t .unlock { s with pc := Function.update s.pc t (.unlocking mode acquired) }
  | unassignHolder (mode : Mode) (acquired : Bool) (at_ : s.pc t = .unlocking mode acquired) :
      Move threads s t .unassignHolder { s with
        holder_ := 0
        pc := Function.update s.pc t (.unassigned mode acquired) }
  | pthreadRwlockUnlock (mode : Mode) (acquired : Bool)
      (at_ : s.pc t = .unassigned mode acquired) : Move threads s t .pthreadRwlockUnlock { s with
        rwlock_ := s.rwlock_.unlock
        pc := Function.update s.pc t .outside }

theorem move_of_step [DecidableEq ι] {threads : CurrentThread ι} {t : ι} {action : Action}
    {s s' : State ι} (stepped : step threads (t, action) s = some s') :
    Move threads s t action s' := by
  cases action with
  | pthreadRwlockLock mode =>
      cases at_ : s.pc t with
      | outside =>
          simp only [step, at_, Option.map_eq_some_iff] at stepped
          obtain ⟨rwlock, locked, rfl⟩ := stepped
          exact .pthreadRwlockLock mode rwlock at_ locked
      | _ => simp only [step, at_, reduceCtorEq] at stepped
  | timeOut mode =>
      cases at_ : s.pc t with
      | outside =>
          cases taken : mode.acquire s.rwlock_ with
          | none =>
              simp only [step, at_, taken, Option.some.injEq] at stepped
              subst stepped
              exact .timeOut mode at_ taken
          | some rwlock => simp only [step, at_, taken, reduceCtorEq] at stepped
      | _ => simp only [step, at_, reduceCtorEq] at stepped
  | assignHolder =>
      cases at_ : s.pc t with
      | locked mode acquired =>
          simp only [step, at_, Option.some.injEq] at stepped
          subst stepped
          exact .assignHolder mode acquired at_
      | _ => simp only [step, at_, reduceCtorEq] at stepped
  | unlock =>
      cases at_ : s.pc t with
      | inside mode acquired =>
          simp only [step, at_, Option.some.injEq] at stepped
          subst stepped
          exact .unlock mode acquired at_
      | _ => simp only [step, at_, reduceCtorEq] at stepped
  | unassignHolder =>
      cases at_ : s.pc t with
      | unlocking mode acquired =>
          simp only [step, at_, Option.some.injEq] at stepped
          subst stepped
          exact .unassignHolder mode acquired at_
      | _ => simp only [step, at_, reduceCtorEq] at stepped
  | pthreadRwlockUnlock =>
      cases at_ : s.pc t with
      | unassigned mode acquired =>
          simp only [step, at_, Option.some.injEq] at stepped
          subst stepped
          exact .pthreadRwlockUnlock mode acquired at_
      | _ => simp only [step, at_, reduceCtorEq] at stepped

def Action.isTimeOut : Action → Bool
  | .timeOut _ => true
  | _ => false

/-- No pthread call fails. -/
def Succeeds (label : ι × Action) (_ : State ι) : Prop :=
  label.2.isTimeOut = false

instance (label : ι × Action) (s : State ι) : Decidable (Succeeds label s) :=
  inferInstanceAs (Decidable (label.2.isTimeOut = false))

/-! ## Every holder and the field -/

/-- The lock call has returned and `unlock()` is not entered. -/
def Pc.isInside : Pc → Bool
  | .inside _ _ => true
  | _ => false

/-- `IsLockedByThisThread()` is true for every thread inside a guard. -/
def Sound (threads : CurrentThread ι) (s : State ι) : Prop :=
  ∀ t, (s.pc t).isInside = true → s.isLockedByThisThread (threads.tid t) = true

/-- The field is stored only while no other thread is inside a guard. -/
def StoresAlone (label : ι × Action) (s : State ι) : Prop :=
  match label.2 with
  | .assignHolder => ∀ u, u ≠ label.1 → (s.pc u).isInside = false
  | .unassignHolder => ∀ u, u ≠ label.1 → (s.pc u).isInside = false
  | _ => True

instance [Fintype ι] [DecidableEq ι] (label : ι × Action) (s : State ι) :
    Decidable (StoresAlone label s) := by
  unfold StoresAlone
  split <;> infer_instance

section

variable [DecidableEq ι] {threads : CurrentThread ι} {s s' : State ι}

/-- A step that leaves the field alone brings no thread inside. -/
theorem Sound.keep (sound : Sound threads s) {t : ι} {p : Pc} (outside : p.isInside = false)
    (pc : s'.pc = Function.update s.pc t p) (holder : s'.holder_ = s.holder_) :
    Sound threads s' := by
  unfold Sound State.isLockedByThisThread
  rw [pc, holder]
  refine (Function.forall_update_iff s.pc fun u q =>
    q.isInside = true → (s.holder_ == threads.tid u) = true).mpr ⟨fun inside => ?_, ?_⟩
  · rw [outside] at inside
    cases inside
  · exact fun u _ => sound u

/-- After a store the holders pass if no other thread is inside, and only
then. -/
theorem sound_store_iff {t : ι} {p : Pc} (pc : s'.pc = Function.update s.pc t p)
    (own : p.isInside = true → s'.holder_ = threads.tid t)
    (others : ∀ u, u ≠ t → s'.holder_ ≠ threads.tid u) :
    Sound threads s' ↔ ∀ u, u ≠ t → (s.pc u).isInside = false := by
  constructor
  · intro sound u other
    by_contra inside
    rw [Bool.not_eq_false] at inside
    have unmoved : s'.pc u = s.pc u := by rw [pc, Function.update_of_ne other]
    rw [← unmoved] at inside
    exact others u other (beq_iff_eq.mp (sound u inside))
  · intro alone u inside
    by_cases same : u = t
    · rw [pc, same, Function.update_self] at inside
      rw [same]
      exact beq_iff_eq.mpr (own inside)
    · rw [pc, Function.update_of_ne same, alone u same] at inside
      cases inside

/-- One step from a state in which the holders pass. -/
theorem Sound.step_iff (sound : Sound threads s) {label : ι × Action}
    (stepped : step threads label s = some s') : Sound threads s' ↔ StoresAlone label s := by
  obtain ⟨t, action⟩ := label
  cases move_of_step stepped with
  | pthreadRwlockLock mode rwlock at_ locked => exact iff_of_true (sound.keep rfl rfl rfl) trivial
  | timeOut mode at_ taken => exact iff_of_true (sound.keep rfl rfl rfl) trivial
  | assignHolder mode acquired at_ =>
      refine sound_store_iff rfl (fun _ => rfl) fun u other => ?_
      exact fun same => other (threads.injective same).symm
  | unlock mode acquired at_ => exact iff_of_true (sound.keep rfl rfl rfl) trivial
  | unassignHolder mode acquired at_ =>
      refine sound_store_iff rfl nofun fun u _ => ?_
      exact (threads.ne_zero u).symm
  | pthreadRwlockUnlock mode acquired at_ => exact iff_of_true (sound.keep rfl rfl rfl) trivial

/-- **A holder passes `AssertLocked` as long as nobody stores beside another
holder.** In a run whose stores are made while no other thread is inside a
guard, `IsLockedByThisThread()` is true for every thread inside one, and the
first store of another kind ends this. -/
theorem holders_pass_assertLocked
    (reachable : Reachable (step threads)
      (fun label s => Succeeds label s ∧ StoresAlone label s) (State.initial ι) s) :
    Sound threads s ∧
    (∀ t, (s.pc t).isInside = true → ∀ P, s.assertLocked P (threads.tid t) = .ok ()) ∧
    ∀ label s', Succeeds label s → step threads label s = some s' →
      (Sound threads s' ↔ StoresAlone label s) := by
  have sound : Sound threads s := by
    refine reachable.invariant (fun _ => nofun) ?_
    intro label s s' sound admitted stepped
    exact (sound.step_iff stepped).mpr admitted.2
  refine ⟨sound, fun t inside P => P.assert_of (sound t inside) _, ?_⟩
  intro label s' _ stepped
  exact sound.step_iff stepped

end

open MutexGuard (twoThreads)

/-- A reader and, after it has left, a writer. -/
def readerThenWriter : List (Bool × Action) :=
  [(false, .pthreadRwlockLock .read), (false, .assignHolder), (false, .unlock),
    (false, .unassignHolder), (false, .pthreadRwlockUnlock),
    (true, .pthreadRwlockLock .write), (true, .assignHolder)]

theorem holders_pass_assertLocked_readerThenWriter :
    ∃ s, execute (step twoThreads) readerThenWriter (State.initial Bool) = some s ∧
      s.pc true = .inside .write true ∧ s.isLockedByThisThread 2 = true := by
  have outcome : (execute (step twoThreads) readerThenWriter (State.initial Bool)).map
      (fun s => s.pc true) = some (.inside .write true) := by decide
  obtain ⟨s, executed, reachable, at_⟩ := Reachable.exists_of_execute
    (fun label s => Succeeds label s ∧ StoresAlone label s) outcome (by decide)
  have sound := (holders_pass_assertLocked reachable).1
  exact ⟨s, executed, at_, sound true (by rw [at_]; rfl)⟩

/-- Two readers are inside, and the second one has stored its id over that of
the first. -/
theorem second_reader_hides_first :
    ∃ s, Reachable (step twoThreads) Succeeds (State.initial Bool) s ∧
      s.pc false = .inside .read true ∧
      s.isLockedByThisThread (twoThreads.tid false) = false := by
  let overlap : List (Bool × Action) :=
    [(false, .pthreadRwlockLock .read), (false, .assignHolder),
      (true, .pthreadRwlockLock .read), (true, .assignHolder)]
  have outcome : (execute (step twoThreads) overlap (State.initial Bool)).map
      (fun s => (s.pc false, s.isLockedByThisThread (twoThreads.tid false))) =
        some (.inside .read true, false) := by decide
  obtain ⟨s, -, reachable, same⟩ := Reachable.exists_of_execute Succeeds outcome (by decide)
  obtain ⟨at_, hidden⟩ := Prod.mk.inj same
  exact ⟨s, reachable, at_, hidden⟩

/-! ## Readers and writers exclude each other -/

/-- The guard a thread has, from the pthread call in its constructor to the one
in its destructor. -/
def Pc.mode : Pc → Option Mode
  | .outside => none
  | .locked mode _ => some mode
  | .inside mode _ => some mode
  | .unlocking mode _ => some mode
  | .unassigned mode _ => some mode

def Pc.holds (mode : Mode) (p : Pc) : Bool := p.mode == some mode

@[simp]
theorem Pc.holds_outside (mode : Mode) : Pc.outside.holds mode = false := rfl

/-- In a guard whose pthread call timed out. -/
def Pc.timedOut : Pc → Bool
  | .outside => false
  | .locked _ acquired => !acquired
  | .inside _ acquired => !acquired
  | .unlocking _ acquired => !acquired
  | .unassigned _ acquired => !acquired

variable [Fintype ι]

/-- The number of threads with a guard of the mode. -/
def State.count (s : State ι) (mode : Mode) : Nat := ∑ t, ((s.pc t).holds mode).toNat

/-- What holds as long as no call times out: the pthread lock counts the
guards. -/
structure Exclusive (s : State ι) : Prop where
  acquired : ∀ t, (s.pc t).timedOut = false
  readers : s.rwlock_.readers = s.count .read
  writer : s.rwlock_.writer.toNat = s.count .write
  exclusive : s.rwlock_.writer = true → s.rwlock_.readers = 0

namespace Exclusive

variable {s : State ι} {t : ι}

theorem initial : Exclusive (State.initial ι) where
  acquired := fun _ => rfl
  readers := by simp [State.initial, State.count]
  writer := by simp [State.initial, State.count]
  exclusive := nofun

theorem count_pos {mode : Mode} (holds : (s.pc t).holds mode = true) : 0 < s.count mode := by
  have le := Finset.single_le_sum (f := fun u => ((s.pc u).holds mode).toNat)
    (fun _ _ => Nat.zero_le _) (Finset.mem_univ t)
  rw [holds] at le
  exact le

theorem holds_eq_false {mode : Mode} (none : s.count mode = 0) : (s.pc t).holds mode = false := by
  by_contra holds
  rw [Bool.not_eq_false] at holds
  exact absurd none (count_pos holds).ne'

theorem writer_eq_true (exclusive : Exclusive s) (holds : (s.pc t).holds .write = true) :
    s.rwlock_.writer = true := by
  have counted := count_pos holds
  rw [← exclusive.writer] at counted
  cases writer : s.rwlock_.writer with
  | true => rfl
  | false => simp [writer] at counted

variable [DecidableEq ι]

theorem count_update {s' : State ι} {p : Pc} (pc : s'.pc = Function.update s.pc t p)
    (mode : Mode) :
    s'.count mode + ((s.pc t).holds mode).toNat = s.count mode + (p.holds mode).toNat := by
  rw [State.count, pc]
  exact sum_update_add (fun q : Pc => (q.holds mode).toNat) s.pc t p

/-- While a thread has a write guard no other thread has a guard. -/
theorem alone (exclusive : Exclusive s) (holds : (s.pc t).holds .write = true) {u : ι}
    (other : u ≠ t) : (s.pc u).mode = none := by
  have writer := exclusive.writer_eq_true holds
  have noReader : (s.pc u).holds .read = false := by
    refine holds_eq_false ?_
    rw [← exclusive.readers]
    exact exclusive.exclusive writer
  -- without the thread no writer is left
  have noWriter : (s.pc u).holds .write = false := by
    let without : State ι := { s with pc := Function.update s.pc t .outside }
    have left : without.count .write + _ = _ := count_update rfl .write
    rw [holds, ← exclusive.writer, writer] at left
    have gone : (without.pc u).holds .write = false := holds_eq_false (Nat.add_right_cancel left)
    rwa [show without.pc u = s.pc u from Function.update_of_ne other _ _] at gone
  cases mode : (s.pc u).mode with
  | none => rfl
  | some m =>
      cases m with
      | read => simp [Pc.holds, mode] at noReader
      | write => simp [Pc.holds, mode] at noWriter

theorem acquired_update (exclusive : Exclusive s) {s' : State ι} {p : Pc}
    (pc : s'.pc = Function.update s.pc t p) (acquired : p.timedOut = false) :
    ∀ u, (s'.pc u).timedOut = false := by
  rw [pc]
  exact (Function.forall_update_iff s.pc fun _ q => q.timedOut = false).mpr
    ⟨acquired, fun u _ => exclusive.acquired u⟩

/-- A move that stays in the same guard. -/
theorem stay (exclusive : Exclusive s) {s' : State ι} {p : Pc}
    (pc : s'.pc = Function.update s.pc t p) (rwlock : s'.rwlock_ = s.rwlock_)
    (mode : p.mode = (s.pc t).mode) (acquired : p.timedOut = (s.pc t).timedOut) :
    Exclusive s' := by
  have counted : ∀ m, s'.count m = s.count m := by
    intro m
    have moved := count_update pc m
    rw [show p.holds m = (s.pc t).holds m by rw [Pc.holds, mode, Pc.holds]] at moved
    exact Nat.add_right_cancel moved
  refine ⟨exclusive.acquired_update pc (acquired.trans (exclusive.acquired t)), ?_, ?_, ?_⟩
  · rw [rwlock, counted, exclusive.readers]
  · rw [rwlock, counted, exclusive.writer]
  · rw [rwlock]
    exact exclusive.exclusive

/-- The pthread call admits a thread. -/
theorem enter (exclusive : Exclusive s) {mode : Mode} {rwlock : RWLock}
    (at_ : s.pc t = .outside) (locked : mode.acquire s.rwlock_ = some rwlock) :
    Exclusive { s with
      rwlock_ := rwlock
      pc := Function.update s.pc t (.locked mode true) } := by
  let s' : State ι :=
    { s with rwlock_ := rwlock, pc := Function.update s.pc t (.locked mode true) }
  have acquired : ∀ u, (s'.pc u).timedOut = false := exclusive.acquired_update rfl rfl
  have counted : ∀ m, s'.count m = s.count m + (mode == m).toNat := by
    intro m
    have moved : s'.count m + _ = _ := count_update rfl m
    rw [at_] at moved
    simpa [Pc.holds, Pc.mode] using moved
  have reading := counted .read
  have writing := counted .write
  rw [← exclusive.readers] at reading
  rw [← exclusive.writer] at writing
  cases mode with
  | read =>
      obtain ⟨free, same⟩ := Option.ite_none_left_eq_some.mp locked
      obtain rfl := Option.some.inj same
      refine ⟨acquired, ?_, ?_, fun writer => absurd writer free⟩
      · exact reading.symm
      · exact writing.symm
  | write =>
      obtain ⟨free, same⟩ := Option.ite_none_left_eq_some.mp locked
      obtain rfl := Option.some.inj same
      rw [not_or, Bool.not_eq_true, not_not] at free
      refine ⟨acquired, ?_, ?_, fun _ => free.2⟩
      · exact reading.symm
      · rw [free.1] at writing
        exact writing.symm

/-- The pthread call of the destructor takes back what the thread holds. -/
theorem leave (exclusive : Exclusive s) {mode : Mode} (holding : (s.pc t).mode = some mode) :
    Exclusive { s with
      rwlock_ := s.rwlock_.unlock
      pc := Function.update s.pc t .outside } := by
  let s' : State ι :=
    { s with rwlock_ := s.rwlock_.unlock, pc := Function.update s.pc t .outside }
  have acquired : ∀ u, (s'.pc u).timedOut = false := exclusive.acquired_update rfl rfl
  have counted : ∀ m, s'.count m + (mode == m).toNat = s.count m := by
    intro m
    have moved : s'.count m + _ = _ := count_update rfl m
    rw [Pc.holds, holding] at moved
    simpa using moved
  have reading := counted .read
  have writing := counted .write
  rw [← exclusive.readers] at reading
  rw [← exclusive.writer] at writing
  cases mode with
  | read =>
      -- a reader is counted, so there is no writer
      have free : s.rwlock_.writer = false := by
        by_contra writer
        rw [exclusive.exclusive (Bool.eq_true_of_not_eq_false writer)] at reading
        exact Nat.succ_ne_zero _ reading
      have rwlock : s'.rwlock_ = { s.rwlock_ with readers := s.rwlock_.readers - 1 } :=
        if_neg (Bool.not_eq_true _ ▸ free)
      refine ⟨acquired, ?_, ?_, ?_⟩
      · rw [rwlock, ← reading]
        rfl
      · rw [rwlock, ← writing]
        rfl
      · rw [rwlock, free]
        exact nofun
  | write =>
      have writer : s.rwlock_.writer = true :=
        exclusive.writer_eq_true (by rw [Pc.holds, holding]; rfl)
      have rwlock : s'.rwlock_ = { s.rwlock_ with writer := false } := if_pos writer
      refine ⟨acquired, ?_, ?_, ?_⟩
      · rw [rwlock, ← reading]
        rfl
      · rw [writer] at writing
        rw [rwlock, Nat.add_right_cancel writing]
        rfl
      · rw [rwlock]
        exact nofun

/-- One step of a run without time-outs. -/
theorem step {threads : CurrentThread ι} (exclusive : Exclusive s) {label : ι × Action}
    {s' : State ι} (succeeds : Succeeds label s)
    (stepped : RWLockGuard.step threads label s = some s') : Exclusive s' := by
  obtain ⟨t, action⟩ := label
  cases move_of_step stepped with
  | pthreadRwlockLock mode rwlock at_ locked => exact exclusive.enter at_ locked
  | timeOut mode at_ taken => cases succeeds
  | assignHolder mode acquired at_ =>
      exact exclusive.stay rfl rfl (by rw [at_]; rfl) (by rw [at_]; rfl)
  | unlock mode acquired at_ =>
      exact exclusive.stay rfl rfl (by rw [at_]; rfl) (by rw [at_]; rfl)
  | unassignHolder mode acquired at_ =>
      exact exclusive.stay rfl rfl (by rw [at_]; rfl) (by rw [at_]; rfl)
  | pthreadRwlockUnlock mode acquired at_ =>
      have holding : (s.pc t).mode = some mode := by rw [at_]; rfl
      exact exclusive.leave holding

end Exclusive

/-! ## Writers and the field -/

/-- The thread has stored its id and not yet 0. -/
def Pc.isAssigned : Pc → Bool
  | .inside _ _ => true
  | .unlocking _ _ => true
  | _ => false

/-- What holds as long as no call times out: the field is 0 or the id of a
thread that has still to store 0, and while a writer has stored its id it is
that id. -/
structure Tracked (threads : CurrentThread ι) (s : State ι) : Prop where
  exclusive : Exclusive s
  holder : s.holder_ = 0 ∨ ∃ t, (s.pc t).isAssigned = true ∧ s.holder_ = threads.tid t
  writer : ∀ t, (s.pc t).holds .write = true → (s.pc t).isAssigned = true →
    s.holder_ = threads.tid t

namespace Tracked

variable {threads : CurrentThread ι} {s s' : State ι} {t : ι}

theorem initial : Tracked threads (State.initial ι) where
  exclusive := Exclusive.initial
  holder := .inl rfl
  writer := fun _ => nofun

variable [DecidableEq ι]

/-- A step that stores nothing. -/
theorem keep (tracked : Tracked threads s) (exclusive : Exclusive s') {p : Pc}
    (pc : s'.pc = Function.update s.pc t p) (holder : s'.holder_ = s.holder_)
    (assigned : p.isAssigned = (s.pc t).isAssigned)
    (mode : p.isAssigned = true → p.mode = (s.pc t).mode) : Tracked threads s' where
  exclusive := exclusive
  holder := by
    rw [holder]
    refine tracked.holder.imp_right ?_
    rintro ⟨u, has, same⟩
    refine ⟨u, ?_, same⟩
    rw [pc]
    by_cases moved : u = t
    · subst moved
      rw [Function.update_self, assigned]
      exact has
    · rw [Function.update_of_ne moved]
      exact has
  writer := by
    rw [pc, holder]
    refine (Function.forall_update_iff s.pc fun u q => q.holds .write = true →
      q.isAssigned = true → s.holder_ = threads.tid u).mpr ⟨fun writes has => ?_, ?_⟩
    · refine tracked.writer t ?_ (assigned ▸ has)
      rw [Pc.holds, ← mode has]
      exact writes
    · exact fun u _ => tracked.writer u

/-- A thread that has a guard stores its id or 0. -/
theorem store (tracked : Tracked threads s) (exclusive : Exclusive s') {p : Pc}
    (pc : s'.pc = Function.update s.pc t p) (guarding : (s.pc t).mode ≠ none)
    (holder : s'.holder_ = if p.isAssigned then threads.tid t else 0) : Tracked threads s' where
  exclusive := exclusive
  holder := by
    cases assigned : p.isAssigned with
    | true =>
        refine .inr ⟨t, ?_, ?_⟩
        · rw [pc, Function.update_self, assigned]
        · rw [holder, assigned, if_pos rfl]
    | false =>
        left
        rw [holder, assigned]
        rfl
  writer := by
    intro u writes has
    by_cases moved : u = t
    · subst moved
      rw [pc, Function.update_self] at has
      rw [holder, has, if_pos rfl]
    · -- a writer would exclude the thread that stores
      rw [pc, Function.update_of_ne moved] at writes
      exact absurd (tracked.exclusive.alone writes (Ne.symm moved)) guarding

theorem step (tracked : Tracked threads s) {label : ι × Action} (succeeds : Succeeds label s)
    (stepped : RWLockGuard.step threads label s = some s') : Tracked threads s' := by
  have exclusive := tracked.exclusive.step succeeds stepped
  obtain ⟨t, action⟩ := label
  cases move_of_step stepped with
  | pthreadRwlockLock mode rwlock at_ locked =>
      exact tracked.keep exclusive rfl rfl (by rw [at_]; rfl) nofun
  | timeOut mode at_ taken => cases succeeds
  | assignHolder mode acquired at_ =>
      exact tracked.store exclusive rfl (by rw [at_]; exact nofun) rfl
  | unlock mode acquired at_ =>
      exact tracked.keep exclusive rfl rfl (by rw [at_]; rfl) fun _ => by rw [at_]; rfl
  | unassignHolder mode acquired at_ =>
      exact tracked.store exclusive rfl (by rw [at_]; exact nofun) rfl
  | pthreadRwlockUnlock mode acquired at_ =>
      exact tracked.keep exclusive rfl rfl (by rw [at_]; rfl) nofun

theorem of_reachable
    (reachable : Reachable (RWLockGuard.step threads) Succeeds (State.initial ι) s) :
    Tracked threads s :=
  reachable.invariant initial fun _ _ _ tracked succeeds stepped => tracked.step succeeds stepped

end Tracked

variable [DecidableEq ι] {threads : CurrentThread ι} {s : State ι}

/-- **Writers are tracked, and the field is 0 when nobody has the lock.** The
assertion of the destructor passes in every state without a guard; inside a
write guard `IsLockedByThisThread()` is true for the writer and for no other
thread. -/
theorem writers_are_tracked
    (reachable : Reachable (step threads) Succeeds (State.initial ι) s) :
    ((∀ t, s.pc t = .outside) → s.holder_ = 0 ∧ ∀ P, s.assertReleased P = .ok ()) ∧
    ∀ t acquired, s.pc t = .inside .write acquired →
      ∀ u, s.isLockedByThisThread (threads.tid u) = true ↔ u = t := by
  have tracked := Tracked.of_reachable reachable
  constructor
  · intro quiet
    have released : s.holder_ = 0 := by
      rcases tracked.holder with released | ⟨t, assigned, -⟩
      · exact released
      · rw [quiet t] at assigned
        cases assigned
    exact ⟨released, fun P => P.assert_of released _⟩
  · intro t acquired at_ u
    have holder : s.holder_ = threads.tid t :=
      tracked.writer t (by rw [at_]; rfl) (by rw [at_]; rfl)
    rw [State.isLockedByThisThread, holder, beq_iff_eq]
    exact ⟨fun same => (threads.injective same).symm, fun same => by rw [same]⟩

/-- Two readers whose stores cross: the first clears the field that the second,
already admitted, sets again; after both a writer gets the lock. -/
def crossingReaders : List (Bool × Action) :=
  [(false, .pthreadRwlockLock .read), (true, .pthreadRwlockLock .read), (false, .assignHolder),
    (false, .unlock), (false, .unassignHolder), (true, .assignHolder),
    (false, .pthreadRwlockUnlock), (true, .unlock), (true, .unassignHolder),
    (true, .pthreadRwlockUnlock), (false, .pthreadRwlockLock .write), (false, .assignHolder)]

theorem writers_are_tracked_crossingReaders :
    ∃ s, execute (step twoThreads) crossingReaders (State.initial Bool) = some s ∧
      s.isLockedByThisThread 1 = true ∧ ¬ s.isLockedByThisThread 2 = true := by
  have outcome : (execute (step twoThreads) crossingReaders (State.initial Bool)).map
      (fun s => s.pc false) = some (.inside .write true) := by decide
  obtain ⟨s, executed, reachable, at_⟩ := Reachable.exists_of_execute Succeeds outcome (by decide)
  have tracked := (writers_are_tracked reachable).2 false true at_
  exact ⟨s, executed, (tracked false).mpr rfl, fun locked => nomatch (tracked true).mp locked⟩

end RWLockGuard

end AirNet.Base
