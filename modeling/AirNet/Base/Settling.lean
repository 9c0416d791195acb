import AirNet.Base.Wakeup

/-!
# Calls of the blocking queue come to rest

No new call begins and no wakeup is spurious. Then the threads that are in a
call have only so much left to do, in whatever order they are scheduled
(`Move.effort_lt`), and as long as one of them holds the mutex or was woken some
thread can go on (`exists_step`). So every run of the calls under way ends, after
a number of steps known in advance, and it ends with the mutex free and every
thread out of its call or asleep in `take` or `takeAll`.

A consumer that is left asleep is left with an empty queue: where every batch is
inserted when one notification is enough, as every single element is, no call
sleeps on while there is something to take (`calls_settle`).
-/

set_option autoImplicit false

namespace AirNet.Base.BlockingQueue

open AirNet.Lib

variable {ι T : Type}

/-! ## What is left to do -/

/-- The action continues a call that has begun. -/
def Action.isOngoing : Action ι T → Bool
  | .lock _ => false
  | .wakeSpuriously => false
  | _ => true

/-- A bound for the steps a thread still takes. A thread before `Notify()` answers
for the consumer it may wake, too. -/
def Pc.effort : Pc T → Nat
  | .idle => 0
  | .inserting _ => 8
  | .notifying => 7
  | .testing _ _ => 4
  | .mustWait _ => 1
  | .waiting _ => 0
  | .woken _ => 5
  | .removing _ => 3
  | .copied _ => 2
  | .clearing => 2
  | .leaving => 1

def State.effort [Fintype ι] (s : State ι T) : Nat := ∑ t, (s.pc t).effort

section Effort

variable [DecidableEq ι] [Fintype ι] {s s' : State ι T} {t : ι}

/-- A thread that has less left to do lowers the sum. -/
theorem effort_lt_of_update {p q : Pc T} (at_ : s.pc t = q)
    (pc : s'.pc = Function.update s.pc t p) (less : p.effort < q.effort) :
    s'.effort < s.effort := by
  have moved := sum_update_add Pc.effort s.pc t p
  rw [at_] at moved
  rw [State.effort, State.effort, pc]
  omega

theorem Move.effort_lt {action : Action ι T} (moved : Move s t action s')
    (ongoing : action.isOngoing = true) : s'.effort < s.effort := by
  cases moved with
  | lock call => cases ongoing
  | wakeSpuriously call => cases ongoing
  | insert elements at_ => exact effort_lt_of_update at_ rfl (by simp [Pc.effort])
  | notifyNobody at_ nobody => exact effort_lt_of_update at_ rfl (by simp [Pc.effort])
  | notifyOne u call at_ asleep =>
      have other : t ≠ u := by
        rintro rfl
        rw [at_] at asleep
        cases asleep
      -- the consumer woken has five steps to go, the notifier six fewer
      have woken := sum_update_add Pc.effort s.pc u (.woken call)
      have left := sum_update_add Pc.effort (Function.update s.pc u (.woken call)) t .leaving
      rw [asleep] at woken
      rw [Function.update_of_ne other, at_] at left
      simp only [Pc.effort] at woken left
      simp only [State.effort, Pc.effort]
      omega
  | testEmpty call again at_ empty => exact effort_lt_of_update at_ rfl (by simp [Pc.effort])
  | testFound call again at_ found => exact effort_lt_of_update at_ rfl (by simp [Pc.effort])
  | wait call at_ => exact effort_lt_of_update at_ rfl (by simp [Pc.effort])
  | relock call at_ free => exact effort_lt_of_update at_ rfl (by simp [Pc.effort])
  | front x rest at_ queue => exact effort_lt_of_update at_ rfl (by simp [Pc.effort])
  | popFront x y rest at_ queue => exact effort_lt_of_update at_ rfl (by simp [Pc.effort])
  | swap at_ =>
      rcases at_ with taking | clearing
      · exact effort_lt_of_update taking rfl (by simp [Pc.effort])
      · exact effort_lt_of_update clearing rfl (by simp [Pc.effort])
  | unlock at_ => exact effort_lt_of_update at_ rfl (by simp [Pc.effort])

/-! ## Some thread can go on -/

/-- A thread that is in a call can take a step. -/
def State.CanGoOn (s : State ι T) : Prop :=
  ∃ label : ι × Action ι T, label.2.isOngoing = true ∧ (step label s).isSome = true

/-- `Notify()` wakes a sleeper or finds none. -/
theorem canGoOn_of_notifying (at_ : s.pc t = .notifying) : s.CanGoOn := by
  by_cases sleeps : ∃ u, (s.pc u).isWaiting = true
  · obtain ⟨u, waiting⟩ := sleeps
    cases asleep : s.pc u with
    | waiting call =>
        refine ⟨(t, .notify (some u)), rfl, ?_⟩
        simp only [step, at_, asleep, Option.isSome_some]
    | _ =>
        rw [asleep] at waiting
        cases waiting
  · have nobody : ∀ u, (s.pc u).isWaiting = false := by
      intro u
      rw [Bool.eq_false_iff]
      exact fun waiting => sleeps ⟨u, waiting⟩
    refine ⟨(t, .notify none), rfl, ?_⟩
    simp only [step, at_]
    rw [if_pos nobody, Option.isSome_some]

/-- The holder of the mutex is never stuck. -/
theorem canGoOn_of_holds (inv : Invariant s) (holds : (s.pc t).holds = true) : s.CanGoOn := by
  have ready := inv.ready t
  cases at_ : s.pc t with
  | idle => rw [at_] at holds; cases holds
  | waiting call => rw [at_] at holds; cases holds
  | woken call => rw [at_] at holds; cases holds
  | inserting elements =>
      exact ⟨(t, .insert), rfl, by simp only [step, at_, Option.isSome_some]⟩
  | notifying => exact canGoOn_of_notifying at_
  | testing call again =>
      refine ⟨(t, .test), rfl, ?_⟩
      simp only [step, at_]
      split_ifs <;> rfl
  | mustWait call => exact ⟨(t, .wait), rfl, by simp only [step, at_, Option.isSome_some]⟩
  | removing call =>
      rw [at_] at ready
      obtain ⟨x, rest, queue⟩ := List.exists_cons_of_ne_nil ready
      cases call with
      | take =>
          refine ⟨(t, .front), rfl, ?_⟩
          simp only [step, at_, queue, List.head?_cons, Option.map_some, Option.isSome_some]
      | takeAll => exact ⟨(t, .swap), rfl, by simp only [step, at_, Option.isSome_some]⟩
  | copied front =>
      rw [at_] at ready
      obtain ⟨rest, queue⟩ := List.head?_eq_some_iff.mp ready
      exact ⟨(t, .popFront), rfl, by simp only [step, at_, queue, Option.isSome_some]⟩
  | clearing => exact ⟨(t, .swap), rfl, by simp only [step, at_, Option.isSome_some]⟩
  | leaving => exact ⟨(t, .unlock), rfl, by simp only [step, at_, Option.isSome_some]⟩

/-- Where nobody can go on, the mutex is free and every thread is out of its call
or asleep. -/
theorem rests_of_not_canGoOn (inv : Invariant s) (stuck : ¬ s.CanGoOn) :
    s.holder_ = none ∧ ∀ t, s.pc t = .idle ∨ (s.pc t).isWaiting = true := by
  have free : s.holder_ = none := by
    cases holder : s.holder_ with
    | none => rfl
    | some t => exact absurd (canGoOn_of_holds inv ((inv.holder t).mpr holder)) stuck
  refine ⟨free, fun t => ?_⟩
  cases at_ : s.pc t with
  | idle => exact .inl rfl
  | waiting call => exact .inr rfl
  | woken call =>
      refine absurd ⟨(t, .relock), rfl, ?_⟩ stuck
      simp only [step, at_, free, Option.isSome_some]
  | _ => exact absurd (canGoOn_of_holds (t := t) inv (by rw [at_]; rfl)) stuck

end Effort

/-! ## Every run of the calls under way ends well -/

/-- The calls have come to rest: nobody holds the mutex, every thread is out of its
call or asleep, and a thread sleeps only because the queue is empty. -/
structure Settled (s : State ι T) : Prop where
  free : s.holder_ = none
  resting : ∀ t, s.pc t = .idle ∨ (s.pc t).isWaiting = true
  served : s.queue_ ≠ [] → ∀ t, s.pc t = .idle

section Runs

variable [DecidableEq ι] [Fintype ι] {s s' : State ι T}

/-- A state without a lost wakeup in which nobody can go on is at rest. -/
theorem settled_of_not_canGoOn
    (reachable : Reachable step NotifiesEnough (State.initial ι T) s) (stuck : ¬ s.CanGoOn) :
    Settled s := by
  have inv : Invariant s := reachable.invariant Invariant.initial
    fun _ _ _ inv _ stepped => inv.move (move_of_step stepped)
  obtain ⟨free, resting⟩ := rests_of_not_canGoOn inv stuck
  have complete : s.complete = s := by simp only [State.complete, free]
  have awake := noLostWakeup_complete reachable
  rw [complete] at awake
  refine ⟨free, resting, fun available t => (resting t).resolve_right fun sleeps => ?_⟩
  -- whoever would wake the sleeper is in a call and not asleep
  rcases awake available ⟨t, sleeps⟩ with ⟨u, isAwake⟩ | ⟨u, isBefore⟩
  · rcases resting u with idle | waiting
    · rw [idle] at isAwake
      cases isAwake
    · cases at_ : s.pc u <;> rw [at_] at waiting isAwake <;> cases waiting
      cases isAwake
  · rcases resting u with idle | waiting
    · rw [idle] at isBefore
      cases isBefore
    · cases at_ : s.pc u <;> rw [at_] at waiting isBefore <;> cases waiting
      cases isBefore

/-- **The calls under way settle.**  From any state that the queue reaches, let the
threads that are in a call go on in any order, while no call begins and no wakeup
is spurious. The run has at most as many steps as were left to do; and it can go
on, or all calls have returned but those that sleep on an empty queue. -/
theorem calls_settle (reachable : Reachable step NotifiesEnough (State.initial ι T) s)
    {labels : List (ι × Action ι T)} (executed : execute step labels s = some s')
    (guarded : Guarded step
      (fun label s => NotifiesEnough label s ∧ label.2.isOngoing = true) labels s) :
    labels.length ≤ s.effort ∧ (s'.CanGoOn ∨ Settled s') := by
  have bounded : labels.length + s'.effort ≤ s.effort := by
    refine length_le_of_execute ?_ guarded executed
    intro label before after admitted stepped
    exact (move_of_step stepped).effort_lt admitted.2
  refine ⟨by omega, ?_⟩
  have onwards : Reachable step NotifiesEnough s s' :=
    (Reachable.of_execute executed guarded).weaken fun _ _ admitted => admitted.1
  by_cases goes : s'.CanGoOn
  · exact .inl goes
  · exact .inr (settled_of_not_canGoOn (reachable.trans onwards) goes)

/-- A consumer sleeps and a producer is about to insert two elements. -/
def sleepThenPut : List (Bool × Action Bool ℕ) :=
  [(true, .lock (.consume .take)), (true, .test), (true, .wait), (false, .lock (.putAll [1, 2]))]

/-- Both calls return. -/
def putAndTake : List (Bool × Action Bool ℕ) :=
  [(false, .insert), (false, .notify (some true)), (false, .unlock), (true, .relock),
    (true, .test), (true, .front), (true, .popFront), (true, .unlock)]

theorem calls_settle_putAndTake :
    ∃ s s', execute step sleepThenPut (State.initial Bool ℕ) = some s ∧
      execute step putAndTake s = some s' ∧ s'.queue_ = [2] ∧ putAndTake.length ≤ s.effort ∧
      (s'.CanGoOn ∨ Settled s') := by
  have observed : (execute step sleepThenPut (State.initial Bool ℕ)).map (fun s =>
      ((execute step putAndTake s).map (fun s' => s'.queue_),
        decide (Guarded step (fun label s => NotifiesEnough label s ∧ label.2.isOngoing = true)
          putAndTake s))) = some (some [2], true) := by decide +kernel
  obtain ⟨s, executed, reachable, run⟩ :=
    Reachable.exists_of_execute NotifiesEnough observed (by decide +kernel)
  obtain ⟨queue, guarded⟩ := Prod.mk.inj run
  obtain ⟨s', onwards, left⟩ := Option.map_eq_some_iff.mp queue
  obtain ⟨few, rests⟩ := calls_settle reachable onwards (of_decide_eq_true guarded)
  exact ⟨s, s', executed, onwards, left, few, rests⟩

end Runs

end AirNet.Base.BlockingQueue
