import AirNet.Lib.Transition

/-!
# The queue behind a reader-writer lock

`put` and `putAll` append under the write lock. `take` copies the front and
removes it under the read lock, which several threads may hold at once. The
definitions follow `common/base/rwlock_queue.h` and `rwlock.h`, with one step
for each access to the lock or to the queue. Requests for the lock that time
out are not modelled: the source asserts that they do not happen.

Two takes that copy the front before either removes it return the same element
and remove two (`overlapping_takes_duplicate`). This is the only way to lose or
duplicate an element: in runs where no take copies while another is between its
copy and its removal, the elements put are those returned, those held by takes
on their way out, and those in the queue (`takes_conserve_elements`).
-/

set_option autoImplicit false

namespace AirNet.Base

open AirNet.Lib

/-! ## The lock -/

structure RWLock where
  readers : Nat
  writer : Bool
  deriving DecidableEq, Repr

namespace RWLock

/-- `timed_rdlock()`; nothing while the caller has to wait. -/
def timedRdlock (l : RWLock) : Option RWLock :=
  if l.writer then none else some { l with readers := l.readers + 1 }

/-- `timed_wrlock()`. -/
def timedWrlock (l : RWLock) : Option RWLock :=
  if l.writer ∨ l.readers ≠ 0 then none else some { l with writer := true }

def unlock (l : RWLock) : RWLock :=
  if l.writer then { l with writer := false } else { l with readers := l.readers - 1 }

end RWLock

namespace RWLockQueue

/-! ## Threads and their steps -/

/-- A call that inserts. -/
inductive Insertion (T : Type) where
  | put (x : T)
  | putAll (dataQueue : List T)

/-- The elements a call inserts. -/
def Insertion.elements {T : Type} : Insertion T → List T
  | .put x => [x]
  | .putAll dataQueue => dataQueue

/-- Where a thread stands. -/
inductive Pc (T : Type) where
  | idle
  /-- Holds the write lock, has not appended. -/
  | inserting (call : Insertion T)
  /-- Has appended, holds the write lock. -/
  | inserted
  /-- In `take`, holds the read lock. -/
  | taking
  /-- Has copied `queue_.front()`. -/
  | copied (front : T)
  /-- Has executed `queue_.pop_front()`, has not returned. -/
  | popped (front : T)

/-- The elements put and those returned so far are recorded beside the queue. -/
structure State (ι T : Type) where
  rwlock_ : RWLock
  queue_ : List T
  pc : ι → Pc T
  put : Multiset T
  returned : Multiset T

def State.initial (ι T : Type) : State ι T where
  rwlock_ := { readers := 0, writer := false }
  queue_ := []
  pc := fun _ => .idle
  put := 0
  returned := 0

inductive Action (T : Type) where
  | timedWrlock (call : Insertion T)
  | append
  | timedRdlock
  | front
  | popFront
  | unlock

variable {ι T : Type}

/-- The step of a thread, if it is enabled. `front` and `popFront` need an
element. -/
def step [DecidableEq ι] : ι × Action T → State ι T → Option (State ι T)
  | (t, .timedWrlock call), s =>
      match s.pc t with
      | .idle => s.rwlock_.timedWrlock.map fun l =>
          { s with rwlock_ := l, pc := Function.update s.pc t (.inserting call) }
      | _ => none
  | (t, .append), s =>
      match s.pc t with
      | .inserting call => some { s with
          queue_ := s.queue_ ++ call.elements
          put := s.put + call.elements
          pc := Function.update s.pc t .inserted }
      | _ => none
  | (t, .timedRdlock), s =>
      match s.pc t with
      | .idle => s.rwlock_.timedRdlock.map fun l =>
          { s with rwlock_ := l, pc := Function.update s.pc t .taking }
      | _ => none
  | (t, .front), s =>
      match s.pc t with
      | .taking => s.queue_.head?.map fun x =>
          { s with pc := Function.update s.pc t (.copied x) }
      | _ => none
  | (t, .popFront), s =>
      match s.pc t, s.queue_ with
      | .copied x, _ :: rest =>
          some { s with queue_ := rest, pc := Function.update s.pc t (.popped x) }
      | _, _ => none
  | (t, .unlock), s =>
      match s.pc t with
      | .inserted =>
          some { s with rwlock_ := s.rwlock_.unlock, pc := Function.update s.pc t .idle }
      | .popped x => some { s with
          rwlock_ := s.rwlock_.unlock
          returned := s.returned + {x}
          pc := Function.update s.pc t .idle }
      | _ => none

theorem copied_of_update [DecidableEq ι] {pc : ι → Pc T} {t u : ι} {p : Pc T} {x : T}
    (notCopied : ∀ y, p ≠ .copied y) (copied : Function.update pc t p u = .copied x) :
    u ≠ t ∧ pc u = .copied x := by
  by_cases same : u = t
  · subst same
    rw [Function.update_self] at copied
    exact absurd copied (notCopied x)
  · rw [Function.update_of_ne same] at copied
    exact ⟨same, copied⟩

/-! ## What is asked of the queue -/

/-- A take that has not removed its element yet. -/
def Pc.pending : Pc T → Nat
  | .taking => 1
  | .copied _ => 1
  | _ => 0

/-- A take between its copy and its removal. -/
def Pc.hasCopied : Pc T → Bool
  | .copied _ => true
  | _ => false

/-- The element held by a take that has removed it and has not returned. -/
def Pc.held : Pc T → Multiset T
  | .popped x => {x}
  | _ => 0

variable [Fintype ι]

def State.pending (s : State ι T) : Nat := ∑ t, (s.pc t).pending

def State.held (s : State ι T) : Multiset T := ∑ t, (s.pc t).held

/-- Callers start a take only when there is an element for it beside those that
the other takes are going to remove. -/
def Promised (label : ι × Action T) (s : State ι T) : Prop :=
  match label.2 with
  | .timedRdlock => s.pending < s.queue_.length
  | _ => True

/-- No element put is lost or duplicated. -/
def Conserved (s : State ι T) : Prop :=
  s.returned ≤ s.put ∧ s.put = s.returned + s.held + s.queue_

/-- A take copies the front only while no other take is between its copy and
its removal. -/
def CopiesAlone (label : ι × Action T) (s : State ι T) : Prop :=
  match label.2 with
  | .front => ∀ u, (s.pc u).hasCopied = false
  | _ => True

instance : ∀ (label : ι × Action T) (s : State ι T), Decidable (Promised label s)
  | (_, .timedRdlock), _ => inferInstanceAs (Decidable (_ < _))
  | (_, .timedWrlock _), _ => inferInstanceAs (Decidable True)
  | (_, .append), _ => inferInstanceAs (Decidable True)
  | (_, .front), _ => inferInstanceAs (Decidable True)
  | (_, .popFront), _ => inferInstanceAs (Decidable True)
  | (_, .unlock), _ => inferInstanceAs (Decidable True)

instance : ∀ (label : ι × Action T) (s : State ι T), Decidable (CopiesAlone label s)
  | (_, .front), s => inferInstanceAs (Decidable (∀ u, (s.pc u).hasCopied = false))
  | (_, .timedRdlock), _ => inferInstanceAs (Decidable True)
  | (_, .timedWrlock _), _ => inferInstanceAs (Decidable True)
  | (_, .append), _ => inferInstanceAs (Decidable True)
  | (_, .popFront), _ => inferInstanceAs (Decidable True)
  | (_, .unlock), _ => inferInstanceAs (Decidable True)

/-! ## The invariant -/

/-- What holds as long as takes copy alone. -/
structure Invariant (s : State ι T) : Prop where
  front : ∀ t x, s.pc t = .copied x → s.queue_.head? = some x
  alone : ∀ t u x y, s.pc t = .copied x → s.pc u = .copied y → t = u
  enough : s.pending ≤ s.queue_.length
  balance : s.put = s.returned + s.held + s.queue_

theorem Invariant.initial : Invariant (State.initial ι T) where
  front := fun _ _ copied => by cases copied
  alone := fun _ _ _ _ copied => by cases copied
  enough := by simp [State.initial, State.pending, Pc.pending]
  balance := by simp [State.initial, State.held, Pc.held]

/-- No element is lost or duplicated in a state that satisfies the
invariant. -/
theorem Invariant.conserved {s : State ι T} (inv : Invariant s) : Conserved s := by
  refine ⟨?_, inv.balance⟩
  rw [inv.balance, add_assoc]
  exact Multiset.le_add_right _ _

namespace Invariant

variable [DecidableEq ι] {s : State ι T} {t : ι}

/-- A thread moves without touching the queue. -/
theorem move (inv : Invariant s) {p : Pc T} {l : RWLock} {returned : Multiset T}
    (notCopied : ∀ y, p ≠ .copied y)
    (pending : s.pending + p.pending ≤ s.queue_.length + (s.pc t).pending)
    (held : returned + p.held = s.returned + (s.pc t).held) :
    Invariant { s with
      rwlock_ := l, returned := returned, pc := Function.update s.pc t p } where
  front := fun u x copied => inv.front u x (copied_of_update notCopied copied).2
  alone := fun u v x y first second =>
    inv.alone u v x y (copied_of_update notCopied first).2 (copied_of_update notCopied second).2
  enough := by
    have moved := sum_update_add Pc.pending s.pc t p
    simp only [State.pending] at pending ⊢
    omega
  balance := by
    have moved := sum_update_add Pc.held s.pc t p
    -- what the thread gives up is what it returns
    have total : returned + ∑ u, (Function.update s.pc t p u).held +
        (p.held + (s.pc t).held) = s.returned + s.held + (p.held + (s.pc t).held) := by
      calc returned + ∑ u, (Function.update s.pc t p u).held + (p.held + (s.pc t).held)
          = returned + p.held + (∑ u, (Function.update s.pc t p u).held + (s.pc t).held) := by
            abel
        _ = s.returned + (s.pc t).held + (s.held + p.held) := by rw [held, moved, State.held]
        _ = s.returned + s.held + (p.held + (s.pc t).held) := by abel
    rw [inv.balance, ← add_right_cancel total]
    rfl

theorem append (inv : Invariant s) {call : Insertion T} (at_ : s.pc t = .inserting call) :
    Invariant { s with
      queue_ := s.queue_ ++ call.elements
      put := s.put + call.elements
      pc := Function.update s.pc t .inserted } := by
  have moved : Invariant { s with pc := Function.update s.pc t .inserted } := by
    refine inv.move (by simp) ?_ ?_
    · rw [at_]
      exact inv.enough
    · rw [at_]
      rfl
  refine ⟨fun u x copied => ?_, moved.alone, ?_, ?_⟩
  · -- the front of a queue that is not empty stays where it is
    rw [List.head?_append, moved.front u x copied]
    rfl
  · rw [List.length_append]
    exact moved.enough.trans (Nat.le_add_right _ _)
  · rw [← Multiset.coe_add, ← add_assoc]
    exact congrArg (· + (call.elements : Multiset T)) moved.balance

theorem copyFront (inv : Invariant s) {x : T} (at_ : s.pc t = .taking)
    (isFront : s.queue_.head? = some x) (nobody : ∀ u, (s.pc u).hasCopied = false) :
    Invariant { s with pc := Function.update s.pc t (.copied x) } := by
  have only : ∀ u y, Function.update s.pc t (.copied x) u = .copied y → u = t ∧ y = x := by
    intro u y copied
    by_cases same : u = t
    · subst same
      rw [Function.update_self] at copied
      cases copied
      exact ⟨rfl, rfl⟩
    · rw [Function.update_of_ne same] at copied
      have none := nobody u
      rw [copied] at none
      cases none
  have pending := sum_update_add Pc.pending s.pc t (.copied x)
  have held := sum_update_add Pc.held s.pc t (.copied x)
  rw [at_] at pending held
  refine ⟨?_, ?_, ?_, ?_⟩
  · intro u y copied
    rw [(only u y copied).2]
    exact isFront
  · intro u v y z first second
    rw [(only u y first).1, (only v z second).1]
  · exact (Nat.add_right_cancel pending).trans_le inv.enough
  · rw [inv.balance]
    exact congrArg (fun h => s.returned + h + (s.queue_ : Multiset T))
      (add_right_cancel held).symm

theorem popFront (inv : Invariant s) {x y : T} {rest : List T} (at_ : s.pc t = .copied x)
    (queue : s.queue_ = y :: rest) :
    Invariant { s with queue_ := rest, pc := Function.update s.pc t (.popped x) } := by
  have isFront := inv.front t x at_
  rw [queue] at isFront
  obtain rfl : y = x := Option.some.inj isFront
  have nobody : ∀ u z, Function.update s.pc t (.popped y) u ≠ .copied z := by
    intro u z copied
    obtain ⟨other, still⟩ := copied_of_update (by simp) copied
    exact other (inv.alone u t z y still at_)
  have pending := sum_update_add Pc.pending s.pc t (.popped y)
  have held := sum_update_add Pc.held s.pc t (.popped y)
  rw [at_] at pending held
  refine ⟨fun u z copied => absurd copied (nobody u z),
    fun u _ z _ copied => absurd copied (nobody u z), ?_, ?_⟩
  · have enough := inv.enough
    rw [queue, List.length_cons] at enough
    have one : s.pending = ∑ u, (Function.update s.pc t (.popped y) u).pending + 1 :=
      pending.symm
    rw [one] at enough
    exact Nat.le_of_succ_le_succ enough
  · have taken : ∑ u, (Function.update s.pc t (.popped y) u).held = s.held + {y} := by
      rw [← add_zero (∑ u, _)]
      exact held
    have front : (s.queue_ : Multiset T) = {y} + (rest : Multiset T) := by
      rw [queue, ← Multiset.cons_coe, Multiset.singleton_add]
    rw [inv.balance, front]
    show _ = s.returned + ∑ u, (Function.update s.pc t (.popped y) u).held + (rest : Multiset T)
    rw [taken]
    abel

/-- One step, started as promised and copying alone, keeps the invariant. -/
theorem step (inv : Invariant s) {label : ι × Action T} {s' : State ι T}
    (promised : Promised label s) (copiesAlone : CopiesAlone label s)
    (stepped : RWLockQueue.step label s = some s') : Invariant s' := by
  obtain ⟨t, action⟩ := label
  cases action with
  | timedWrlock call =>
      cases at_ : s.pc t with
      | idle =>
          simp only [RWLockQueue.step, at_, Option.map_eq_some_iff] at stepped
          obtain ⟨l, -, rfl⟩ := stepped
          exact inv.move (by simp) (by rw [at_]; exact inv.enough) (by rw [at_]; rfl)
      | _ => simp [RWLockQueue.step, at_] at stepped
  | append =>
      cases at_ : s.pc t with
      | inserting call =>
          simp only [RWLockQueue.step, at_, Option.some.injEq] at stepped
          subst stepped
          exact inv.append at_
      | _ => simp [RWLockQueue.step, at_] at stepped
  | timedRdlock =>
      cases at_ : s.pc t with
      | idle =>
          simp only [RWLockQueue.step, at_, Option.map_eq_some_iff] at stepped
          obtain ⟨l, -, rfl⟩ := stepped
          exact inv.move (by simp) (by rw [at_]; exact promised) (by rw [at_]; rfl)
      | _ => simp [RWLockQueue.step, at_] at stepped
  | front =>
      cases at_ : s.pc t with
      | taking =>
          simp only [RWLockQueue.step, at_, Option.map_eq_some_iff] at stepped
          obtain ⟨x, isFront, rfl⟩ := stepped
          exact inv.copyFront at_ isFront copiesAlone
      | _ => simp [RWLockQueue.step, at_] at stepped
  | popFront =>
      cases at_ : s.pc t with
      | copied x =>
          cases queue : s.queue_ with
          | nil => simp [RWLockQueue.step, at_, queue] at stepped
          | cons y rest =>
              simp only [RWLockQueue.step, at_, queue, Option.some.injEq] at stepped
              subst stepped
              exact inv.popFront at_ queue
      | _ => simp [RWLockQueue.step, at_] at stepped
  | unlock =>
      cases at_ : s.pc t with
      | inserted =>
          simp only [RWLockQueue.step, at_, Option.some.injEq] at stepped
          subst stepped
          exact inv.move (by simp) (by rw [at_]; exact inv.enough) (by rw [at_]; rfl)
      | popped x =>
          simp only [RWLockQueue.step, at_, Option.some.injEq] at stepped
          subst stepped
          refine inv.move (by simp) (by rw [at_]; exact inv.enough) ?_
          rw [at_]
          exact add_zero _
      | _ => simp [RWLockQueue.step, at_] at stepped

end Invariant

/-- **No element is lost or duplicated.**  In every run in which takes are
started as promised and copy the front alone, every state conserves the
elements. -/
theorem takes_conserve_elements [DecidableEq ι] {s : State ι T}
    (reachable : Reachable step (fun label s => Promised label s ∧ CopiesAlone label s)
      (State.initial ι T) s) : Conserved s :=
  (reachable.invariant Invariant.initial fun _ _ _ inv admitted stepped =>
    inv.step admitted.1 admitted.2 stepped).conserved

/-- Two threads put two elements and take them. -/
def takeInTurn : List (Bool × Action ℕ) :=
  [(false, .timedWrlock (.putAll [1, 2])), (false, .append), (false, .unlock),
    (false, .timedRdlock), (true, .timedRdlock), (false, .front), (false, .popFront),
    (true, .front), (true, .popFront), (false, .unlock), (true, .unlock)]

theorem takes_conserve_elements_takeInTurn :
    ∃ s, execute step takeInTurn (State.initial Bool ℕ) = some s ∧ Conserved s := by
  obtain ⟨s, executed⟩ : ∃ s, execute step takeInTurn (State.initial Bool ℕ) = some s :=
    Option.isSome_iff_exists.mp (by decide)
  exact ⟨s, executed, takes_conserve_elements (Reachable.of_execute executed (by decide))⟩

/-- Two threads put two elements, and both copy the front before either removes
it. -/
def overlappingTakes : List (Bool × Action ℕ) :=
  [(false, .timedWrlock (.putAll [1, 2])), (false, .append), (false, .unlock),
    (false, .timedRdlock), (true, .timedRdlock), (false, .front), (true, .front),
    (false, .popFront), (true, .popFront), (false, .unlock), (true, .unlock)]

/-- The elements 1 and 2 are put, the element 1 is returned twice, and nothing
is left. -/
theorem overlapping_takes_duplicate :
    ∃ s, Reachable step Promised (State.initial Bool ℕ) s ∧
      s.put = {1, 2} ∧ s.returned = {1, 1} ∧ s.queue_ = [] ∧ ¬ Conserved s := by
  have outcome : (execute step overlappingTakes (State.initial Bool ℕ)).map
      (fun s => (s.put, s.returned, s.queue_)) = some ({1, 2}, {1, 1}, []) := by decide
  obtain ⟨s, -, reachable, same⟩ := Reachable.exists_of_execute Promised outcome (by decide)
  obtain ⟨put, returned, queue⟩ : s.put = {1, 2} ∧ s.returned = {1, 1} ∧ s.queue_ = [] := by
    simpa using same
  refine ⟨s, reachable, put, returned, queue, ?_⟩
  rintro ⟨bounded, -⟩
  rw [put, returned] at bounded
  exact absurd bounded (by decide)

end RWLockQueue

end AirNet.Base
