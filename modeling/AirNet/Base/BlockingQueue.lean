import AirNet.Lib.Transition

/-!
# The blocking queue

Producers insert under the mutex and notify the condition variable. Consumers
test the queue under the mutex, and while it is empty they wait, which gives up
the mutex until they are woken, by a notification or spuriously. The
definitions follow `common/base/blocking_queue.h`, `condition.h` and `mutex.h`,
with one step for each access to the mutex, the condition variable or the
queue.

Only the holder of the mutex changes the queue, so what a consumer found by its
test still holds when it removes. Beside the queue the elements inserted and
removed are recorded, one entry for each critical section; in every reachable
state what was inserted is what was removed followed by what is in the queue
(`queue_is_fifo`).
-/

set_option autoImplicit false

namespace AirNet.Base.BlockingQueue

open AirNet.Lib

/-! ## Threads and their steps -/

/-- The calls that wait. -/
inductive Consumer where
  | take
  | takeAll
  deriving DecidableEq

/-- The public operations that change the queue. -/
inductive Call (T : Type) where
  | put (x : T)
  | putAll (dataQueue : List T)
  | consume (call : Consumer)
  | clearAll

/-- Where a thread stands. -/
inductive Pc (T : Type) where
  | idle
  /-- In `put` or `putAll`, before the insertion. -/
  | inserting (elements : List T)
  /-- In `put` or `putAll`, before `notEmpty_.Notify()`. -/
  | notifying
  /-- Before `queue_.empty()`; `again` after a wait. -/
  | testing (call : Consumer) (again : Bool)
  /-- Found the queue empty, before `notEmpty_.Wait()`. -/
  | mustWait (call : Consumer)
  /-- Asleep in `Wait()`. -/
  | waiting (call : Consumer)
  /-- Woken in `Wait()`, without the mutex. -/
  | woken (call : Consumer)
  /-- Found an element, before the removal. -/
  | removing (call : Consumer)
  /-- In `take`, has copied `queue_.front()`. -/
  | copied (front : T)
  /-- In `clearAll`. -/
  | clearing
  /-- Before the mutex is released. -/
  | leaving

/-- Where a call begins once it holds the mutex. -/
def Call.start {T : Type} : Call T → Pc T
  | .put x => .inserting [x]
  | .putAll dataQueue => .inserting dataQueue
  | .consume call => .testing call false
  | .clearAll => .clearing

structure State (ι T : Type) where
  holder_ : Option ι
  queue_ : List T
  pc : ι → Pc T
  inserted : List (List T)
  removed : List (List T)

def State.initial (ι T : Type) : State ι T where
  holder_ := none
  queue_ := []
  pc := fun _ => .idle
  inserted := []
  removed := []

inductive Action (ι T : Type) where
  | lock (call : Call T)
  | insert
  | notify (target : Option ι)
  | test
  | wait
  | wakeSpuriously
  | relock
  | front
  | popFront
  | swap
  | unlock

def Pc.isWaiting {T : Type} : Pc T → Bool
  | .waiting _ => true
  | _ => false

/-- The places where a thread holds the mutex. -/
def Pc.holds {T : Type} : Pc T → Bool
  | .idle => false
  | .waiting _ => false
  | .woken _ => false
  | _ => true

variable {ι T : Type}

/-- The step of a thread, if it is enabled. `Notify()` wakes one waiting thread
if there is one. -/
def step [DecidableEq ι] [Fintype ι] : ι × Action ι T → State ι T → Option (State ι T)
  | (t, .lock call), s =>
      match s.pc t, s.holder_ with
      | .idle, none =>
          some { s with holder_ := some t, pc := Function.update s.pc t call.start }
      | _, _ => none
  | (t, .insert), s =>
      match s.pc t with
      | .inserting elements => some { s with
          queue_ := s.queue_ ++ elements
          inserted := s.inserted ++ [elements]
          pc := Function.update s.pc t .notifying }
      | _ => none
  | (t, .notify none), s =>
      match s.pc t with
      | .notifying =>
          if ∀ u, (s.pc u).isWaiting = false then
            some { s with pc := Function.update s.pc t .leaving }
          else none
      | _ => none
  | (t, .notify (some u)), s =>
      match s.pc t, s.pc u with
      | .notifying, .waiting call => some { s with
          pc := Function.update (Function.update s.pc u (.woken call)) t .leaving }
      | _, _ => none
  | (t, .test), s =>
      match s.pc t with
      | .testing call _ =>
          if s.queue_.isEmpty then some { s with pc := Function.update s.pc t (.mustWait call) }
          else some { s with pc := Function.update s.pc t (.removing call) }
      | _ => none
  | (t, .wait), s =>
      match s.pc t with
      | .mustWait call =>
          some { s with holder_ := none, pc := Function.update s.pc t (.waiting call) }
      | _ => none
  | (t, .wakeSpuriously), s =>
      match s.pc t with
      | .waiting call => some { s with pc := Function.update s.pc t (.woken call) }
      | _ => none
  | (t, .relock), s =>
      match s.pc t, s.holder_ with
      | .woken call, none =>
          some { s with holder_ := some t, pc := Function.update s.pc t (.testing call true) }
      | _, _ => none
  | (t, .front), s =>
      match s.pc t with
      | .removing .take => s.queue_.head?.map fun x =>
          { s with pc := Function.update s.pc t (.copied x) }
      | _ => none
  | (t, .popFront), s =>
      match s.pc t, s.queue_ with
      | .copied x, _ :: rest => some { s with
          queue_ := rest
          removed := s.removed ++ [[x]]
          pc := Function.update s.pc t .leaving }
      | _, _ => none
  | (t, .swap), s =>
      match s.pc t with
      | .removing .takeAll => some { s with
          queue_ := []
          removed := s.removed ++ [s.queue_]
          pc := Function.update s.pc t .leaving }
      | .clearing => some { s with
          queue_ := []
          removed := s.removed ++ [s.queue_]
          pc := Function.update s.pc t .leaving }
      | _ => none
  | (t, .unlock), s =>
      match s.pc t with
      | .leaving => some { s with holder_ := none, pc := Function.update s.pc t .idle }
      | _ => none

/-- What the steps of a thread do, and where. -/
inductive Move [DecidableEq ι] (s : State ι T) (t : ι) : Action ι T → State ι T → Prop where
  | lock (call : Call T) (at_ : s.pc t = .idle) (free : s.holder_ = none) :
      Move s t (.lock call)
        { s with holder_ := some t, pc := Function.update s.pc t call.start }
  | insert (elements : List T) (at_ : s.pc t = .inserting elements) :
      Move s t .insert { s with
        queue_ := s.queue_ ++ elements
        inserted := s.inserted ++ [elements]
        pc := Function.update s.pc t .notifying }
  | notifyNobody (at_ : s.pc t = .notifying) (nobody : ∀ u, (s.pc u).isWaiting = false) :
      Move s t (.notify none) { s with pc := Function.update s.pc t .leaving }
  | notifyOne (u : ι) (call : Consumer) (at_ : s.pc t = .notifying)
      (asleep : s.pc u = .waiting call) :
      Move s t (.notify (some u)) { s with
        pc := Function.update (Function.update s.pc u (.woken call)) t .leaving }
  | testEmpty (call : Consumer) (again : Bool) (at_ : s.pc t = .testing call again)
      (empty : s.queue_ = []) :
      Move s t .test { s with pc := Function.update s.pc t (.mustWait call) }
  | testFound (call : Consumer) (again : Bool) (at_ : s.pc t = .testing call again)
      (found : s.queue_ ≠ []) :
      Move s t .test { s with pc := Function.update s.pc t (.removing call) }
  | wait (call : Consumer) (at_ : s.pc t = .mustWait call) :
      Move s t .wait { s with holder_ := none, pc := Function.update s.pc t (.waiting call) }
  | wakeSpuriously (call : Consumer) (at_ : s.pc t = .waiting call) :
      Move s t .wakeSpuriously { s with pc := Function.update s.pc t (.woken call) }
  | relock (call : Consumer) (at_ : s.pc t = .woken call) (free : s.holder_ = none) :
      Move s t .relock
        { s with holder_ := some t, pc := Function.update s.pc t (.testing call true) }
  | front (x : T) (rest : List T) (at_ : s.pc t = .removing .take)
      (queue : s.queue_ = x :: rest) :
      Move s t .front { s with pc := Function.update s.pc t (.copied x) }
  | popFront (x y : T) (rest : List T) (at_ : s.pc t = .copied x)
      (queue : s.queue_ = y :: rest) :
      Move s t .popFront { s with
        queue_ := rest
        removed := s.removed ++ [[x]]
        pc := Function.update s.pc t .leaving }
  | swap (at_ : s.pc t = .removing .takeAll ∨ s.pc t = .clearing) :
      Move s t .swap { s with
        queue_ := []
        removed := s.removed ++ [s.queue_]
        pc := Function.update s.pc t .leaving }
  | unlock (at_ : s.pc t = .leaving) :
      Move s t .unlock { s with holder_ := none, pc := Function.update s.pc t .idle }

theorem move_of_step [DecidableEq ι] [Fintype ι] {t : ι} {action : Action ι T} {s s' : State ι T}
    (stepped : step (t, action) s = some s') : Move s t action s' := by
  cases action with
  | lock call =>
      cases at_ : s.pc t <;> cases free : s.holder_ <;>
        simp only [step, at_, free, Option.some.injEq, reduceCtorEq] at stepped
      exact stepped ▸ .lock call at_ free
  | insert =>
      cases at_ : s.pc t <;> simp only [step, at_, Option.some.injEq, reduceCtorEq] at stepped
      exact stepped ▸ .insert _ at_
  | notify target =>
      cases target with
      | none =>
          cases at_ : s.pc t <;> simp only [step, at_, reduceCtorEq] at stepped
          split_ifs at stepped with nobody
          exact Option.some.inj stepped ▸ .notifyNobody at_ nobody
      | some u =>
          cases at_ : s.pc t <;> cases asleep : s.pc u <;>
            simp only [step, at_, asleep, Option.some.injEq, reduceCtorEq] at stepped
          exact stepped ▸ .notifyOne u _ at_ asleep
  | test =>
      cases at_ : s.pc t <;> simp only [step, at_, reduceCtorEq] at stepped
      split_ifs at stepped with empty
      · exact Option.some.inj stepped ▸ .testEmpty _ _ at_ (List.isEmpty_iff.mp empty)
      · exact Option.some.inj stepped ▸ .testFound _ _ at_ (mt List.isEmpty_iff.mpr empty)
  | wait =>
      cases at_ : s.pc t <;> simp only [step, at_, Option.some.injEq, reduceCtorEq] at stepped
      exact stepped ▸ .wait _ at_
  | wakeSpuriously =>
      cases at_ : s.pc t <;> simp only [step, at_, Option.some.injEq, reduceCtorEq] at stepped
      exact stepped ▸ .wakeSpuriously _ at_
  | relock =>
      cases at_ : s.pc t <;> cases free : s.holder_ <;>
        simp only [step, at_, free, Option.some.injEq, reduceCtorEq] at stepped
      exact stepped ▸ .relock _ at_ free
  | front =>
      cases at_ : s.pc t with
      | removing call =>
          cases call <;> simp only [step, at_, Option.map_eq_some_iff, reduceCtorEq] at stepped
          obtain ⟨x, isFront, rfl⟩ := stepped
          obtain ⟨rest, queue⟩ := List.head?_eq_some_iff.mp isFront
          exact .front x rest at_ queue
      | _ => simp only [step, at_, reduceCtorEq] at stepped
  | popFront =>
      cases at_ : s.pc t <;> cases queue : s.queue_ <;>
        simp only [step, at_, queue, Option.some.injEq, reduceCtorEq] at stepped
      exact stepped ▸ .popFront _ _ _ at_ queue
  | swap =>
      cases at_ : s.pc t with
      | removing call =>
          cases call <;> simp only [step, at_, Option.some.injEq, reduceCtorEq] at stepped
          exact stepped ▸ .swap (Or.inl at_)
      | clearing =>
          simp only [step, at_, Option.some.injEq] at stepped
          exact stepped ▸ .swap (Or.inr at_)
      | _ => simp only [step, at_, reduceCtorEq] at stepped
  | unlock =>
      cases at_ : s.pc t <;> simp only [step, at_, Option.some.injEq, reduceCtorEq] at stepped
      exact stepped ▸ .unlock at_

/-! ## The invariant -/

/-- What a consumer relies on after its test. -/
def Pc.Ready : Pc T → List T → Prop
  | .mustWait _, queue => queue = []
  | .removing _, queue => queue ≠ []
  | .copied x, queue => queue.head? = some x
  | _, _ => True

structure Invariant (s : State ι T) : Prop where
  holder : ∀ t, (s.pc t).holds = true ↔ s.holder_ = some t
  ready : ∀ t, (s.pc t).Ready s.queue_
  fifo : s.inserted.flatten = s.removed.flatten ++ s.queue_

theorem Invariant.initial : Invariant (State.initial ι T) where
  holder := fun _ => ⟨fun holds => (by cases holds), fun holder => (by cases holder)⟩
  ready := fun _ => trivial
  fifo := rfl

/-- Only a thread that holds the mutex relies on the queue. -/
theorem Pc.Ready.of_not_holds {p : Pc T} (free : p.holds = false) (queue : List T) :
    p.Ready queue := by
  cases p with
  | mustWait call => cases free
  | removing call => cases free
  | copied front => cases free
  | _ => trivial

namespace Invariant

variable {s : State ι T} {t : ι} {p : Pc T}

theorem holder_of (inv : Invariant s) (at_ : s.pc t = p) (holds : p.holds = true) :
    s.holder_ = some t :=
  (inv.holder t).mp (at_ ▸ holds)

theorem free_of_ne (inv : Invariant s) (holder : s.holder_ = some t) {u : ι} (other : u ≠ t) :
    (s.pc u).holds = false := by
  by_contra holds
  rw [Bool.not_eq_false, inv.holder u, holder] at holds
  exact other (Option.some.inj holds).symm

variable [DecidableEq ι]

/-- The holder of the mutex changes the queue. -/
theorem act (inv : Invariant s) (holder : s.holder_ = some t) (holds : p.holds = true)
    {queue : List T} {inserted removed : List (List T)} (ready : p.Ready queue)
    (fifo : inserted.flatten = removed.flatten ++ queue) :
    Invariant { s with
      queue_ := queue, inserted := inserted, removed := removed
      pc := Function.update s.pc t p } where
  holder :=
    (Function.forall_update_iff s.pc fun u q => q.holds = true ↔ s.holder_ = some u).mpr
      ⟨iff_of_true holds holder, fun u _ => inv.holder u⟩
  ready :=
    (Function.forall_update_iff s.pc fun _ q => q.Ready queue).mpr
      ⟨ready, fun _ other => Pc.Ready.of_not_holds (inv.free_of_ne holder other) queue⟩
  fifo := fifo

/-- A thread takes the free mutex. -/
theorem acquire (inv : Invariant s) (free : s.holder_ = none) (holds : p.holds = true)
    (ready : p.Ready s.queue_) :
    Invariant { s with holder_ := some t, pc := Function.update s.pc t p } where
  holder := by
    refine (Function.forall_update_iff s.pc fun u q => q.holds = true ↔ some t = some u).mpr
      ⟨iff_of_true holds rfl, fun u other => iff_of_false ?_ ?_⟩
    · rw [inv.holder u, free]
      exact Option.some_ne_none u ∘ Eq.symm
    · exact fun same => other (Option.some.inj same).symm
  ready :=
    (Function.forall_update_iff s.pc fun _ q => q.Ready s.queue_).mpr
      ⟨ready, fun u _ => inv.ready u⟩
  fifo := inv.fifo

/-- The holder gives up the mutex. -/
theorem release (inv : Invariant s) (holder : s.holder_ = some t) (free : p.holds = false) :
    Invariant { s with holder_ := none, pc := Function.update s.pc t p } where
  holder := by
    refine (Function.forall_update_iff s.pc fun u q => q.holds = true ↔ none = some u).mpr
      ⟨iff_of_false ?_ ?_, fun u other => iff_of_false ?_ ?_⟩
    · exact Bool.not_eq_true _ ▸ free
    · exact (Option.some_ne_none t).symm
    · exact Bool.not_eq_true _ ▸ inv.free_of_ne holder other
    · exact (Option.some_ne_none u).symm
  ready :=
    (Function.forall_update_iff s.pc fun _ q => q.Ready s.queue_).mpr
      ⟨Pc.Ready.of_not_holds free s.queue_, fun u _ => inv.ready u⟩
  fifo := inv.fifo

/-- A thread without the mutex moves. -/
theorem drift (inv : Invariant s) (before : (s.pc t).holds = false) (after : p.holds = false) :
    Invariant { s with pc := Function.update s.pc t p } where
  holder := by
    refine (Function.forall_update_iff s.pc fun u q => q.holds = true ↔ s.holder_ = some u).mpr
      ⟨?_, fun u _ => inv.holder u⟩
    rw [after, ← before]
    exact inv.holder t
  ready :=
    (Function.forall_update_iff s.pc fun _ q => q.Ready s.queue_).mpr
      ⟨Pc.Ready.of_not_holds after s.queue_, fun u _ => inv.ready u⟩
  fifo := inv.fifo

/-- Every step keeps the invariant. -/
theorem move (inv : Invariant s) {action : Action ι T} {s' : State ι T}
    (moved : Move s t action s') : Invariant s' := by
  cases moved with
  | lock call at_ free =>
      cases call <;> exact inv.acquire free rfl trivial
  | insert elements at_ =>
      refine inv.act (inv.holder_of at_ rfl) rfl trivial ?_
      rw [List.flatten_append, List.flatten_singleton, inv.fifo, List.append_assoc]
  | notifyNobody at_ nobody => exact inv.act (inv.holder_of at_ rfl) rfl trivial inv.fifo
  | notifyOne u call at_ asleep =>
      have woken : Invariant { s with pc := Function.update s.pc u (.woken call) } :=
        inv.drift (by rw [asleep]; rfl) rfl
      exact woken.act (inv.holder_of at_ rfl) rfl trivial inv.fifo
  | testEmpty call again at_ empty =>
      exact inv.act (inv.holder_of at_ rfl) rfl empty inv.fifo
  | testFound call again at_ found =>
      exact inv.act (inv.holder_of at_ rfl) rfl found inv.fifo
  | wait call at_ => exact inv.release (inv.holder_of at_ rfl) rfl
  | wakeSpuriously call at_ => exact inv.drift (by rw [at_]; rfl) rfl
  | relock call at_ free => exact inv.acquire free rfl trivial
  | front x rest at_ queue =>
      refine inv.act (inv.holder_of at_ rfl) rfl ?_ inv.fifo
      rw [queue]
      rfl
  | popFront x y rest at_ queue =>
      have isFront := inv.ready t
      rw [at_, queue] at isFront
      -- the element removed is the one that was copied
      obtain rfl : y = x := Option.some.inj isFront
      refine inv.act (inv.holder_of at_ rfl) rfl trivial ?_
      rw [inv.fifo, queue, List.flatten_append, List.flatten_singleton, List.append_assoc]
      rfl
  | swap at_ =>
      have holder : s.holder_ = some t := at_.elim (inv.holder_of · rfl) (inv.holder_of · rfl)
      refine inv.act holder rfl trivial ?_
      rw [inv.fifo, List.flatten_append, List.flatten_singleton, List.append_nil]
  | unlock at_ => exact inv.release (inv.holder_of at_ rfl) rfl

end Invariant

/-! ## First in, first out -/

/-- The removal that a consumer is about to complete. -/
def Pc.removal : Pc T → Option Consumer
  | .removing call => some call
  | .copied _ => some .take
  | _ => none

theorem Pc.Ready.ne_nil {p : Pc T} {queue : List T} {call : Consumer} (ready : p.Ready queue)
    (removal : p.removal = some call) : queue ≠ [] := by
  cases p with
  | removing call => exact ready
  | copied front =>
      rintro rfl
      cases ready
  | _ => cases removal

end AirNet.Base.BlockingQueue
