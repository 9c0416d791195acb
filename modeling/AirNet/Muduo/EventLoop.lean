import AirNet.Lib.Mailbox

/-!
# The event loop and its pending functors

Any thread may hand a functor to an event loop. `queueInLoop` appends it to
`pendingFunctors_` and then decides whether the loop has to be woken: by every
other thread, and by the thread of the loop itself while it runs functors. A
wakeup makes `wakeupFd_` readable, so that `poll` returns. In each iteration the
loop polls, handles the active channels, takes all pending functors at once and
calls them. The definitions follow `EventLoop.cc` of muduo, with one step for
each access to what the threads share; the mutex makes the accesses to
`pendingFunctors_` single steps. What handlers, functors and other threads do to
the objects of the program is a parameter.

Every functor is called once, in the order in which the functors were queued
(`functors_called_in_order`), so the loop behaves as one queue
(`reachable_mailbox`). The loop never sleeps in `poll` on a pending functor or
while `quit_` is set, unless a thread is still on its way to wake it
(`never_sleeps_on_functors`). As long as nobody calls `quit`, every run with
enough steps of the loop calls all that was queued, and the loop goes on without
any event from outside (`functors_get_called`).

The last two are about a loop whose thread runs no code of the program outside
`loop()`. A functor that it queues before would not wake the loop, and `poll`
would sleep on the functor (`queued_before_loop_sleeps`). A call of `quit` before
`loop()` is forgotten, in whatever thread: `loop()` begins with `quit_ = false`.
-/

set_option autoImplicit false

namespace AirNet.Muduo

open AirNet.Lib

namespace EventLoop

/-- Where the thread of the loop stands. -/
inductive Stage (F : Type) where
  /-- Not in `loop()`. -/
  | outside
  /-- At the condition `!quit_`. -/
  | testing
  | polling
  /-- Handling the active channels. The flag says whether `wakeupChannel_` is one
  of those still to be handled. -/
  | handling (wakeupChannel_ : Bool)
  /-- In `doPendingFunctors`, before the swap. -/
  | swapping
  /-- In `doPendingFunctors`, with these functors still to be called. -/
  | calling (functors : List F)
  deriving DecidableEq, Repr

/-- Where a thread stands in a call of `queueInLoop` or `quit`. -/
inductive Pc (F : Type) where
  | idle
  /-- Is going to push. -/
  | queueing (cb : F)
  /-- Has pushed. -/
  | queued
  /-- Has set `quit_`. -/
  | quitting
  /-- Is going to write to `wakeupFd_`. -/
  | waking
  deriving DecidableEq, Repr

/-- The functors swapped out and not yet called. -/
def Stage.batch {F : Type} : Stage F → List F
  | .calling functors => functors
  | _ => []

/-- In `doPendingFunctors`. -/
def Stage.inFunctors {F : Type} : Stage F → Bool
  | .swapping => true
  | .calling _ => true
  | _ => false

def Stage.isOutside {F : Type} : Stage F → Bool
  | .outside => true
  | _ => false

/-- Code of the program runs: handlers of channels, or functors. -/
def Stage.runsCode {F : Type} : Stage F → Bool
  | .handling _ => true
  | .calling _ => true
  | _ => false

/-- What a call of a thread continues with: nothing, or `queueInLoop`. -/
def Pc.next {F : Type} : Option F → Pc F
  | none => .idle
  | some cb => .queueing cb

def Pc.outbox {F : Type} : Pc F → Option F
  | .queueing cb => some cb
  | _ => none

@[simp] theorem Pc.outbox_queued {F : Type} : (Pc.queued : Pc F).outbox = none := rfl

@[simp] theorem Pc.outbox_next {F : Type} (cb : Option F) : (Pc.next cb).outbox = cb := by
  cases cb <;> rfl

end EventLoop

/-- The state of the program, the loop and the threads. The thread of the loop is
`none`. The functors queued and called so far are recorded. -/
structure EventLoop (ι σ F : Type) where
  program : σ
  pendingFunctors_ : List F
  callingPendingFunctors_ : Bool
  quit_ : Bool
  /-- The counter of the eventfd. -/
  wakeupFd_ : Nat
  stage : EventLoop.Stage F
  pc : Option ι → EventLoop.Pc F
  queued : List F
  called : List F

namespace EventLoop

variable {ι σ F Event : Type}

def initial (ι F : Type) {σ : Type} (program : σ) : EventLoop ι σ F where
  program := program
  pendingFunctors_ := []
  callingPendingFunctors_ := false
  quit_ := false
  wakeupFd_ := 0
  stage := .outside
  pc := fun _ => .idle
  queued := []
  called := []

/-- The steps of the thread of the loop in `loop()`. -/
inductive Own (Event : Type) where
  | enter
  | testQuit
  /-- `poll` returns; other channels are active, or the time is over. -/
  | poll (ready : Bool)
  | handleRead
  | startFunctors
  | swap
  | callFunctor (event : Event)
  | finishFunctors
  deriving DecidableEq, Repr

inductive Action (ι Event : Type) where
  /-- Code of the program runs in a thread. -/
  | react (who : Option ι) (event : Event)
  | pushBack (who : Option ι)
  /-- `isInLoopThread()`, in `queueInLoop` or `quit`. -/
  | testThread (who : Option ι)
  | setQuit (who : Option ι)
  | wakeup (who : Option ι)
  | own (step : Own Event)
  deriving DecidableEq, Repr

/-- The other threads may act at any time, the thread of the loop where it runs
code of the program. -/
def mayAct (s : EventLoop ι σ F) (who : Option ι) : Bool :=
  who.isSome || s.stage.runsCode || s.stage.isOutside

variable [DecidableEq ι]

def goto (s : EventLoop ι σ F) (who : Option ι) (pc : Pc F) : EventLoop ι σ F :=
  { s with pc := Function.update s.pc who pc }

@[simp] theorem goto_pc_self (s : EventLoop ι σ F) (who : Option ι) (pc : Pc F) :
    (s.goto who pc).pc who = pc := by
  simp only [goto, Function.update_self]

theorem goto_pc_of_ne (s : EventLoop ι σ F) {who other : Option ι} (different : other ≠ who)
    (pc : Pc F) : (s.goto who pc).pc other = s.pc other := by
  simp only [goto, Function.update_of_ne different]

/-- A step of `loop()`. -/
def ownStep (A : Actor ι σ F Event) (step : Own Event) (s : EventLoop ι σ F) :
    Option (EventLoop ι σ F) :=
  match step, s.stage with
  | .enter, .outside => some { s with quit_ := false, stage := .testing }
  | .testQuit, .testing => some { s with stage := if s.quit_ then .outside else .polling }
  | .poll ready, .polling =>
      if 0 < s.wakeupFd_ ∨ ready = true then
        some { s with stage := .handling (0 < s.wakeupFd_) }
      else none
  | .handleRead, .handling true => some { s with wakeupFd_ := 0, stage := .handling false }
  | .startFunctors, .handling false =>
      some { s with callingPendingFunctors_ := true, stage := .swapping }
  | .swap, .swapping =>
      some { s with pendingFunctors_ := [], stage := .calling s.pendingFunctors_ }
  | .callFunctor event, .calling (cb :: functors) =>
      (A.call cb event s.program).map fun result =>
        { s with
          program := result.1
          stage := .calling functors
          called := s.called ++ [cb]
          pc := Function.update s.pc none (.next result.2) }
  | .finishFunctors, .calling [] =>
      some { s with callingPendingFunctors_ := false, stage := .testing }
  | _, _ => none

def step (A : Actor ι σ F Event) : Action ι Event → EventLoop ι σ F → Option (EventLoop ι σ F)
  | .react who event, s =>
      match s.pc who, s.mayAct who with
      | .idle, true => (A.react who event s.program).map fun result =>
          { s.goto who (.next result.2) with program := result.1 }
      | _, _ => none
  | .pushBack who, s =>
      match s.pc who with
      | .queueing cb => some
          { s.goto who .queued with
            pendingFunctors_ := s.pendingFunctors_ ++ [cb]
            queued := s.queued ++ [cb] }
      | _ => none
  | .testThread who, s =>
      match s.pc who with
      | .queued => some (s.goto who
          (if who.isSome || s.callingPendingFunctors_ then .waking else .idle))
      | .quitting => some (s.goto who (if who.isSome then .waking else .idle))
      | _ => none
  | .setQuit who, s =>
      match s.pc who, s.mayAct who with
      | .idle, true => some { s.goto who .quitting with quit_ := true }
      | _, _ => none
  | .wakeup who, s =>
      match s.pc who with
      | .waking => some { s.goto who .idle with wakeupFd_ := s.wakeupFd_ + 1 }
      | _ => none
  | .own step, s =>
      match s.pc none with
      | .idle => s.ownStep A step
      | _ => none

/-! ## What the steps do -/

/-- What a step of `loop()` does. -/
inductive OwnMove (A : Actor ι σ F Event) (s : EventLoop ι σ F) :
    Own Event → EventLoop ι σ F → Prop where
  | enter (at_ : s.stage = .outside) :
      OwnMove A s .enter { s with quit_ := false, stage := .testing }
  | leave (at_ : s.stage = .testing) (quit : s.quit_ = true) :
      OwnMove A s .testQuit { s with stage := .outside }
  | goOn (at_ : s.stage = .testing) (quit : s.quit_ = false) :
      OwnMove A s .testQuit { s with stage := .polling }
  | poll {ready : Bool} (at_ : s.stage = .polling) (returns : 0 < s.wakeupFd_ ∨ ready = true) :
      OwnMove A s (.poll ready) { s with stage := .handling (0 < s.wakeupFd_) }
  | handleRead (at_ : s.stage = .handling true) :
      OwnMove A s .handleRead { s with wakeupFd_ := 0, stage := .handling false }
  | startFunctors (at_ : s.stage = .handling false) :
      OwnMove A s .startFunctors { s with callingPendingFunctors_ := true, stage := .swapping }
  | swap (at_ : s.stage = .swapping) :
      OwnMove A s .swap { s with pendingFunctors_ := [], stage := .calling s.pendingFunctors_ }
  | callFunctor {event : Event} {cb : F} {functors : List F} {program : σ} {next : Option F}
      (at_ : s.stage = .calling (cb :: functors))
      (called : A.call cb event s.program = some (program, next)) :
      OwnMove A s (.callFunctor event)
        { s with
          program := program
          stage := .calling functors
          called := s.called ++ [cb]
          pc := Function.update s.pc none (.next next) }
  | finishFunctors (at_ : s.stage = .calling []) :
      OwnMove A s .finishFunctors { s with callingPendingFunctors_ := false, stage := .testing }

/-- What a step does. -/
inductive Move (A : Actor ι σ F Event) (s : EventLoop ι σ F) :
    Action ι Event → EventLoop ι σ F → Prop where
  | react {who : Option ι} {event : Event} {program : σ} {next : Option F}
      (idle : s.pc who = .idle) (may : s.mayAct who = true)
      (reacted : A.react who event s.program = some (program, next)) :
      Move A s (.react who event) { s.goto who (.next next) with program := program }
  | pushBack {who : Option ι} {cb : F} (at_ : s.pc who = .queueing cb) :
      Move A s (.pushBack who)
        { s.goto who .queued with
          pendingFunctors_ := s.pendingFunctors_ ++ [cb]
          queued := s.queued ++ [cb] }
  | testQueued {who : Option ι} (at_ : s.pc who = .queued) :
      Move A s (.testThread who)
        (s.goto who (if who.isSome || s.callingPendingFunctors_ then .waking else .idle))
  | testQuitting {who : Option ι} (at_ : s.pc who = .quitting) :
      Move A s (.testThread who) (s.goto who (if who.isSome then .waking else .idle))
  | setQuit {who : Option ι} (idle : s.pc who = .idle) (may : s.mayAct who = true) :
      Move A s (.setQuit who) { s.goto who .quitting with quit_ := true }
  | wakeup {who : Option ι} (at_ : s.pc who = .waking) :
      Move A s (.wakeup who) { s.goto who .idle with wakeupFd_ := s.wakeupFd_ + 1 }
  | own {step : Own Event} {s' : EventLoop ι σ F} (idle : s.pc none = .idle)
      (moved : OwnMove A s step s') : Move A s (.own step) s'

variable {A : Actor ι σ F Event} {s s' : EventLoop ι σ F} {action : Action ι Event}

theorem ownMove_of_ownStep {own : Own Event} (stepped : s.ownStep A own = some s') :
    OwnMove A s own s' := by
  unfold ownStep at stepped
  split at stepped
  case h_1 at_ =>
      obtain rfl := Option.some.inj stepped
      exact .enter at_
  case h_2 at_ =>
      rw [← Option.some.inj stepped]
      split_ifs with quit
      · exact .leave at_ quit
      · exact .goOn at_ (Bool.eq_false_of_not_eq_true quit)
  case h_3 at_ =>
      obtain ⟨returns, same⟩ := Option.ite_none_right_eq_some.mp stepped
      obtain rfl := Option.some.inj same
      exact .poll at_ returns
  case h_4 at_ =>
      obtain rfl := Option.some.inj stepped
      exact .handleRead at_
  case h_5 at_ =>
      obtain rfl := Option.some.inj stepped
      exact .startFunctors at_
  case h_6 at_ =>
      obtain rfl := Option.some.inj stepped
      exact .swap at_
  case h_7 at_ =>
      obtain ⟨result, called, rfl⟩ := Option.map_eq_some_iff.mp stepped
      exact .callFunctor at_ called
  case h_8 at_ =>
      obtain rfl := Option.some.inj stepped
      exact .finishFunctors at_
  case h_9 => cases stepped

theorem ownStep_of_ownMove {own : Own Event} (moved : OwnMove A s own s') :
    s.ownStep A own = some s' := by
  cases moved with
  | leave at_ quit => simp only [ownStep, at_, quit, if_true]
  | goOn at_ quit => simp [ownStep, at_, quit]
  | poll at_ returns => simp only [ownStep, at_, if_pos returns]
  | callFunctor at_ called => simp only [ownStep, at_, called, Option.map_some]
  | _ at_ => simp only [ownStep, at_]

theorem move_of_step (stepped : step A action s = some s') : Move A s action s' := by
  cases action with
  | react who event =>
      simp only [step] at stepped
      split at stepped
      · next idle may =>
          obtain ⟨result, reacted, rfl⟩ := Option.map_eq_some_iff.mp stepped
          exact .react idle may reacted
      · cases stepped
  | pushBack who =>
      simp only [step] at stepped
      split at stepped
      · next at_ =>
          obtain rfl := Option.some.inj stepped
          exact .pushBack at_
      · cases stepped
  | testThread who =>
      simp only [step] at stepped
      split at stepped
      · next at_ =>
          obtain rfl := Option.some.inj stepped
          exact .testQueued at_
      · next at_ =>
          obtain rfl := Option.some.inj stepped
          exact .testQuitting at_
      · cases stepped
  | setQuit who =>
      simp only [step] at stepped
      split at stepped
      · next idle may =>
          obtain rfl := Option.some.inj stepped
          exact .setQuit idle may
      · cases stepped
  | wakeup who =>
      simp only [step] at stepped
      split at stepped
      · next at_ =>
          obtain rfl := Option.some.inj stepped
          exact .wakeup at_
      · cases stepped
  | own own =>
      simp only [step] at stepped
      split at stepped
      · next idle => exact .own idle (ownMove_of_ownStep stepped)
      · cases stepped

theorem step_of_move (moved : Move A s action s') : step A action s = some s' := by
  cases moved with
  | react idle may reacted => simp only [step, idle, may, reacted, Option.map_some]
  | setQuit idle may => simp only [step, idle, may]
  | own idle moved => simp only [step, idle, ownStep_of_ownMove moved]
  | _ at_ => simp only [step, at_]

/-! ## Order -/

/-- The functors called, those of the batch and those pending are the functors
queued, in order. -/
def InOrder (s : EventLoop ι σ F) : Prop :=
  s.called ++ s.stage.batch ++ s.pendingFunctors_ = s.queued

omit [DecidableEq ι] in
theorem InOrder.initial {program : σ} : (EventLoop.initial ι F program).InOrder := rfl

omit [DecidableEq ι] in
/-- A step that keeps the functors where they are. -/
theorem InOrder.keep {s s' : EventLoop ι σ F} (order : s.InOrder) (called : s'.called = s.called)
    (batch : s'.stage.batch = s.stage.batch)
    (pending : s'.pendingFunctors_ = s.pendingFunctors_) (queued : s'.queued = s.queued) :
    s'.InOrder := by
  rw [InOrder, called, batch, pending, queued]
  exact order

theorem InOrder.ownMove {own : Own Event} (order : s.InOrder) (moved : OwnMove A s own s') :
    s'.InOrder := by
  cases moved with
  | swap at_ =>
      rw [InOrder, at_] at order
      simpa [InOrder, Stage.batch] using order
  | callFunctor at_ called =>
      rw [InOrder, at_] at order
      simpa [InOrder, Stage.batch] using order
  | _ at_ => exact order.keep rfl (by rw [at_]; rfl) rfl rfl

theorem InOrder.move (order : s.InOrder) (moved : Move A s action s') : s'.InOrder := by
  cases moved with
  | pushBack at_ =>
      show s.called ++ s.stage.batch ++ (s.pendingFunctors_ ++ _) = s.queued ++ _
      rw [← List.append_assoc, order]
  | own idle moved => exact order.ownMove moved
  | _ => exact order

theorem InOrder.of_reachable {guard : Action ι Event → EventLoop ι σ F → Prop} {program : σ}
    (reachable : Reachable (step A) guard (EventLoop.initial ι F program) s) : s.InOrder :=
  reachable.invariant InOrder.initial fun _ _ _ order _ stepped =>
    order.move (move_of_step stepped)

/-- **Every functor is called once, in the order of the calls of `queueInLoop`.**
At any time the functors called so far, those of the current batch and those
pending are the functors queued. -/
theorem functors_called_in_order {program : σ}
    (reachable : Reachable (step A) (fun _ _ => True) (initial ι F program) s) :
    s.called ++ s.stage.batch ++ s.pendingFunctors_ = s.queued :=
  InOrder.of_reachable reachable

/-- A program without a state, in which the event says what is queued. -/
def relay : Actor Bool Unit Nat (Option Nat) where
  react := fun _ event _ => some ((), event)
  call := fun _ event _ => some ((), event)

/-- While the loop sleeps another thread queues the functor 1. A second thread
queues the functor 2 while the loop handles the wakeup, and the functor 1 queues
the functor 3. -/
def relayRun : List (Action Bool (Option Nat)) :=
  [.own .enter, .own .testQuit, .react (some true) (some 1), .pushBack (some true),
    .testThread (some true), .wakeup (some true), .own (.poll false),
    .react (some false) (some 2), .own .handleRead, .pushBack (some false),
    .own .startFunctors, .own .swap, .own (.callFunctor (some 3)), .pushBack none]

theorem functors_called_in_order_relay :
    ∃ s, execute (step relay) relayRun (initial Bool Nat ()) = some s ∧
      s.called = [1] ∧ s.stage.batch = [2] ∧ s.pendingFunctors_ = [3] ∧
      s.called ++ s.stage.batch ++ s.pendingFunctors_ = s.queued := by
  have outcome : (execute (step relay) relayRun (initial Bool Nat ())).map
      (fun s => (s.called, s.stage.batch, s.pendingFunctors_)) = some ([1], [2], [3]) := by decide
  obtain ⟨s, executed, reachable, same⟩ :=
    Reachable.exists_of_execute (fun _ _ => True) outcome (by decide)
  obtain ⟨called, batch, pending⟩ : s.called = [1] ∧ s.stage.batch = [2] ∧
      s.pendingFunctors_ = [3] := by
    simpa using same
  exact ⟨s, executed, called, batch, pending, functors_called_in_order reachable⟩

/-! ## One queue -/

/-- The loop as one queue of functors. -/
def mailbox (s : EventLoop ι σ F) : Mailbox ι σ F where
  state := s.program
  queue := s.stage.batch ++ s.pendingFunctors_
  outbox := fun who => (s.pc who).outbox

/-- The step of the queue that a step of the loop is. -/
def Action.inMailbox : Action ι Event → Option (Mailbox.Action ι Event)
  | .react who event => some (.react who event)
  | .pushBack who => some (.post who)
  | .own (.callFunctor event) => some (.call event)
  | _ => none

/-- A restriction of the runs of the queue, as one of the runs of the loop. -/
def Lifted (guard : Mailbox.Action ι Event → Mailbox ι σ F → Prop) (action : Action ι Event)
    (s : EventLoop ι σ F) : Prop :=
  ∀ inMailbox ∈ action.inMailbox, guard inMailbox s.mailbox

instance (guard : Mailbox.Action ι Event → Mailbox ι σ F → Prop)
    [∀ action s, Decidable (guard action s)] (action : Action ι Event) (s : EventLoop ι σ F) :
    Decidable (Lifted guard action s) :=
  inferInstanceAs (Decidable (∀ inMailbox ∈ action.inMailbox, guard inMailbox s.mailbox))

theorem outbox_update (pc : Option ι → Pc F) (who : Option ι) (next : Pc F) :
    (fun other => (Function.update pc who next other).outbox) =
      Function.update (fun other => (pc other).outbox) who next.outbox := by
  funext other
  by_cases same : other = who
  · subst same
    simp only [Function.update_self]
  · simp only [Function.update_of_ne same]

/-- A thread that has nothing to push before and after a step. -/
theorem mailbox_goto {who : Option ι} {next : Pc F} (before : (s.pc who).outbox = none)
    (after : next.outbox = none) : (s.goto who next).mailbox = s.mailbox := by
  have same : (fun other => (Function.update s.pc who next other).outbox) =
      fun other => (s.pc other).outbox := by
    rw [outbox_update, after, ← before]
    exact Function.update_eq_self who fun other => (s.pc other).outbox
  simp only [mailbox, goto, same]

theorem OwnMove.mailbox {own : Own Event} (idle : s.pc none = .idle)
    (moved : OwnMove A s own s') :
    s'.mailbox = s.mailbox ∨
      ∃ inMailbox ∈ (Action.own own : Action ι Event).inMailbox,
        Mailbox.step A inMailbox s.mailbox = some s'.mailbox := by
  cases moved with
  | swap at_ =>
      refine .inl ?_
      simp only [EventLoop.mailbox, at_, Stage.batch, List.append_nil, List.nil_append]
  | @callFunctor event cb functors _ _ at_ called =>
      refine .inr ⟨_, rfl, Mailbox.step_of_move ?_⟩
      have free : s.mailbox.outbox none = none := by
        simp only [EventLoop.mailbox, idle, Pc.outbox]
      have first : s.mailbox.queue = cb :: (functors ++ s.pendingFunctors_) := by
        simp only [EventLoop.mailbox, at_, Stage.batch, List.cons_append]
      have moved := Mailbox.Move.call free first called
      simpa only [EventLoop.mailbox, outbox_update, Pc.outbox_next, Stage.batch] using moved
  | _ at_ => exact .inl (by simp only [EventLoop.mailbox, at_, Stage.batch])

/-- A step of the loop is a step of the queue, or none. -/
theorem Move.mailbox (moved : Move A s action s') :
    s'.mailbox = s.mailbox ∨
      ∃ inMailbox ∈ action.inMailbox, Mailbox.step A inMailbox s.mailbox = some s'.mailbox := by
  cases moved with
  | @react who _ _ _ idle may reacted =>
      refine .inr ⟨_, rfl, Mailbox.step_of_move ?_⟩
      have free : s.mailbox.outbox who = none := by
        simp only [EventLoop.mailbox, idle, Pc.outbox]
      have moved := Mailbox.Move.react free reacted
      simpa only [EventLoop.mailbox, goto, outbox_update, Pc.outbox_next] using moved
  | @pushBack who cb at_ =>
      refine .inr ⟨_, rfl, Mailbox.step_of_move ?_⟩
      have ready : s.mailbox.outbox who = some cb := by
        simp only [EventLoop.mailbox, at_, Pc.outbox]
      have moved : Mailbox.Move A s.mailbox (.post who) _ := .post ready
      simpa only [EventLoop.mailbox, goto, outbox_update, Pc.outbox_queued, List.append_assoc]
        using moved
  | testQueued at_ =>
      refine .inl (mailbox_goto (by rw [at_]; rfl) ?_)
      split_ifs <;> rfl
  | testQuitting at_ =>
      refine .inl (mailbox_goto (by rw [at_]; rfl) ?_)
      split_ifs <;> rfl
  | setQuit idle may => exact .inl (mailbox_goto (by rw [idle]; rfl) rfl)
  | wakeup at_ => exact .inl (mailbox_goto (by rw [at_]; rfl) rfl)
  | own idle moved => exact moved.mailbox idle

/-- **The loop refines one queue.**  What the threads and the functors do to the
program, with batches and wakeups, they also do with a single queue of
functors. -/
theorem reachable_mailbox {guard : Mailbox.Action ι Event → Mailbox ι σ F → Prop} {program : σ}
    (reachable : Reachable (step A) (Lifted guard) (initial ι F program) s) :
    Reachable (Mailbox.step A) guard (.initial ι program) s.mailbox := by
  have start : (initial ι F program).mailbox = Mailbox.initial ι program := rfl
  rw [← start]
  refine Reachable.simulates reachable InOrder.initial
    (fun _ _ _ order _ stepped => order.move (move_of_step stepped)) ?_
  intro action s s' _ admitted stepped
  rcases (move_of_step stepped).mailbox with same | ⟨inMailbox, isStep, moved⟩
  · exact .inl same
  · exact .inr ⟨inMailbox, admitted inMailbox isStep, moved⟩

/-! ## No sleep on a functor -/

/-- The loop will reach `poll` before it takes the functors pending now. -/
def Stage.beforePoll : Stage F → Bool
  | .handling _ => false
  | .swapping => false
  | _ => true

/-- The thread is going to wake the loop. A test of its own thread after a push
finds the loop running functors. -/
def Pc.wakes (who : Option ι) : Pc F → Bool
  | .queued => true
  | .quitting => who.isSome
  | .waking => true
  | _ => false

/-- `poll` returns now, or a thread is going to make it return. -/
def Woken (s : EventLoop ι σ F) : Prop :=
  0 < s.wakeupFd_ ∨ ∃ who, (s.pc who).wakes who = true

/-- The thread of the loop runs code of the program only inside `loop()`. -/
def Inside (action : Action ι Event) (s : EventLoop ι σ F) : Prop :=
  match action with
  | .react none _ => s.stage.runsCode = true
  | .setQuit none => s.stage.runsCode = true
  | _ => True

instance : ∀ (action : Action ι Event) (s : EventLoop ι σ F), Decidable (Inside action s)
  | .react none _, s => inferInstanceAs (Decidable (s.stage.runsCode = true))
  | .react (some _) _, _ => inferInstanceAs (Decidable True)
  | .setQuit none, s => inferInstanceAs (Decidable (s.stage.runsCode = true))
  | .setQuit (some _), _ => inferInstanceAs (Decidable True)
  | .pushBack _, _ => inferInstanceAs (Decidable True)
  | .testThread _, _ => inferInstanceAs (Decidable True)
  | .wakeup _, _ => inferInstanceAs (Decidable True)
  | .own _, _ => inferInstanceAs (Decidable True)

/-- What holds in a loop whose thread stays inside. -/
structure Awake (s : EventLoop ι σ F) : Prop where
  flag : s.callingPendingFunctors_ = s.stage.inFunctors
  busy : s.pc none ≠ .idle → s.stage.runsCode = true
  functors : s.stage.beforePoll = true → s.pendingFunctors_ ≠ [] → s.Woken
  quit : s.stage = .polling → s.quit_ = true → s.Woken

omit [DecidableEq ι] in
theorem Awake.initial {program : σ} : (EventLoop.initial ι F program).Awake where
  flag := rfl
  busy := fun busy => absurd rfl busy
  functors := fun _ pending => absurd rfl pending
  quit := fun polling => by cases polling

omit [DecidableEq ι] in
theorem wakes_eq_false_of_idle {who : Option ι} (idle : s.pc who = .idle) :
    (s.pc who).wakes who = false := by
  rw [idle]
  rfl

/-- A thread that was not going to wake the loop moves on. -/
theorem Woken.goto {who : Option ι} (woken : s.Woken) (next : Pc F)
    (before : (s.pc who).wakes who = false) : (s.goto who next).Woken := by
  rcases woken with readable | ⟨other, wakes⟩
  · exact .inl readable
  · refine .inr ⟨other, ?_⟩
    have different : other ≠ who := by
      rintro rfl
      rw [before] at wakes
      cases wakes
    rwa [goto_pc_of_ne s different]

theorem woken_goto {who : Option ι} {next : Pc F} (wakes : next.wakes who = true) :
    (s.goto who next).Woken :=
  .inr ⟨who, by rwa [goto_pc_self]⟩

namespace Awake

theorem busy_goto (awake : s.Awake) {who : Option ι} {next : Pc F}
    (busy : who = none → next ≠ .idle → s.stage.runsCode = true)
    (isBusy : (s.goto who next).pc none ≠ .idle) : s.stage.runsCode = true := by
  by_cases own : who = none
  · subst own
    rw [goto_pc_self] at isBusy
    exact busy rfl isBusy
  · rw [goto_pc_of_ne s (Ne.symm own)] at isBusy
    exact awake.busy isBusy

/-- A thread moves on, and the loop is woken if it has to be. -/
theorem goto (awake : s.Awake) {who : Option ι} {next : Pc F}
    (busy : who = none → next ≠ .idle → s.stage.runsCode = true)
    (woken : s.Woken → (s.goto who next).Woken) : (s.goto who next).Awake where
  flag := awake.flag
  busy := awake.busy_goto busy
  functors := fun before pending => woken (awake.functors before pending)
  quit := fun polling quit => woken (awake.quit polling quit)

theorem react {who : Option ι} {event : Event} {program : σ} {next : Option F} (awake : s.Awake)
    (inside : Inside (.react who event) s) (idle : s.pc who = .idle) :
    Awake { s.goto who (.next next) with program := program } := by
  have moved : (s.goto who (.next next)).Awake := by
    refine awake.goto (fun own _ => ?_) fun woken => woken.goto _ (wakes_eq_false_of_idle idle)
    subst own
    exact inside
  exact ⟨moved.flag, moved.busy, moved.functors, moved.quit⟩

theorem pushBack {who : Option ι} {cb : F} (awake : s.Awake) (at_ : s.pc who = .queueing cb) :
    Awake { s.goto who .queued with
      pendingFunctors_ := s.pendingFunctors_ ++ [cb]
      queued := s.queued ++ [cb] } := by
  have moved : (s.goto who (.queued : Pc F)).Awake := by
    refine awake.goto (fun own _ => ?_) fun _ => woken_goto rfl
    subst own
    exact awake.busy (by rw [at_]; simp)
  exact ⟨moved.flag, moved.busy, fun _ _ => woken_goto (s := s) rfl, moved.quit⟩

theorem testQueued {who : Option ι} (awake : s.Awake) (at_ : s.pc who = .queued) :
    Awake (s.goto who
      (if who.isSome || s.callingPendingFunctors_ then .waking else .idle)) := by
  have runsCode : who = none → s.stage.runsCode = true := by
    rintro rfl
    exact awake.busy (by rw [at_]; simp)
  by_cases waking : (who.isSome || s.callingPendingFunctors_) = true
  · rw [if_pos waking]
    exact awake.goto (fun own _ => runsCode own) fun _ => woken_goto rfl
  · rw [if_neg waking]
    -- the loop is handling channels and takes the functors before it polls
    simp only [Bool.or_eq_true, not_or, Bool.not_eq_true, Option.isSome_eq_false_iff,
      Option.isNone_iff_eq_none] at waking
    obtain ⟨own, outside⟩ := waking
    have runs := runsCode own
    rw [awake.flag] at outside
    cases at_ : s.stage with
    | handling wakeupChannel_ =>
        refine ⟨awake.flag, fun _ => runs, fun before => ?_, fun polling => ?_⟩
        · rw [show (s.goto who .idle).stage = _ from at_] at before
          cases before
        · rw [show (s.goto who .idle).stage = _ from at_] at polling
          cases polling
    | calling functors =>
        rw [at_] at outside
        cases outside
    | _ =>
        rw [at_] at runs
        cases runs

theorem testQuitting {who : Option ι} (awake : s.Awake) (at_ : s.pc who = .quitting) :
    Awake (s.goto who (if who.isSome then .waking else .idle)) := by
  cases who with
  | some t => exact awake.goto (fun own => by cases own) fun _ => woken_goto rfl
  | none =>
      refine awake.goto (fun _ busy => absurd rfl busy) fun woken => woken.goto _ ?_
      rw [at_]
      rfl

theorem setQuit {who : Option ι} (awake : s.Awake)
    (inside : Inside (.setQuit who : Action ι Event) s) (idle : s.pc who = .idle) :
    Awake { s.goto who .quitting with quit_ := true } := by
  have moved : (s.goto who (.quitting : Pc F)).Awake := by
    refine awake.goto (fun own _ => ?_) fun woken => woken.goto _ (wakes_eq_false_of_idle idle)
    subst own
    exact inside
  refine ⟨moved.flag, moved.busy, moved.functors, fun polling _ => ?_⟩
  cases who with
  | some t => exact woken_goto (s := s) rfl
  | none =>
      have runs : s.stage.runsCode = true := inside
      rw [show s.stage = .polling from polling] at runs
      cases runs

theorem wakeup {who : Option ι} (awake : s.Awake) :
    Awake { s.goto who .idle with wakeupFd_ := s.wakeupFd_ + 1 } where
  flag := awake.flag
  busy := awake.busy_goto fun _ busy => absurd rfl busy
  functors := fun _ _ => .inl (Nat.succ_pos _)
  quit := fun _ _ => .inl (Nat.succ_pos _)

theorem ownMove {own : Own Event} (awake : s.Awake) (idle : s.pc none = .idle)
    (moved : OwnMove A s own s') : s'.Awake := by
  have free : s.pc none ≠ .idle → ∀ {P : Prop}, P := fun busy => absurd idle busy
  cases moved with
  | enter at_ =>
      refine ⟨by rw [awake.flag, at_]; rfl, fun busy => free busy, fun _ pending => ?_,
        fun polling => by cases polling⟩
      exact awake.functors (by rw [at_]; rfl) pending
  | leave at_ quit =>
      refine ⟨by rw [awake.flag, at_]; rfl, fun busy => free busy, fun _ pending => ?_,
        fun polling => by cases polling⟩
      exact awake.functors (by rw [at_]; rfl) pending
  | goOn at_ quit =>
      refine ⟨by rw [awake.flag, at_]; rfl, fun busy => free busy, fun _ pending => ?_,
        fun _ asked => ?_⟩
      · exact awake.functors (by rw [at_]; rfl) pending
      · rw [show s.quit_ = true from asked] at quit
        cases quit
  | poll at_ returns =>
      exact ⟨by rw [awake.flag, at_]; rfl, fun busy => free busy, fun before => (by cases before),
        fun polling => by cases polling⟩
  | handleRead at_ =>
      exact ⟨by rw [awake.flag, at_]; rfl, fun busy => free busy, fun before => (by cases before),
        fun polling => by cases polling⟩
  | startFunctors at_ =>
      exact ⟨rfl, fun busy => free busy, fun before => (by cases before),
        fun polling => by cases polling⟩
  | swap at_ =>
      exact ⟨by rw [awake.flag, at_]; rfl, fun busy => free busy,
        fun _ pending => absurd rfl pending, fun polling => by cases polling⟩
  | @callFunctor _ _ _ _ next at_ called =>
      have moved : (s.goto none (.next next)).Awake :=
        awake.goto (fun _ _ => by rw [at_]; rfl) fun woken =>
          woken.goto _ (wakes_eq_false_of_idle idle)
      refine ⟨by rw [awake.flag, at_]; rfl, fun _ => rfl, fun _ pending => ?_,
        fun polling => by cases polling⟩
      exact moved.functors (show s.stage.beforePoll = true by rw [at_]; rfl) pending
  | finishFunctors at_ =>
      refine ⟨rfl, fun busy => free busy, fun _ pending => ?_, fun polling => by cases polling⟩
      exact awake.functors (by rw [at_]; rfl) pending

theorem move (awake : s.Awake) (inside : Inside action s) (moved : Move A s action s') :
    s'.Awake := by
  cases moved with
  | react idle may reacted => exact awake.react inside idle
  | pushBack at_ => exact awake.pushBack at_
  | testQueued at_ => exact awake.testQueued at_
  | testQuitting at_ => exact awake.testQuitting at_
  | setQuit idle may => exact awake.setQuit inside idle
  | wakeup at_ => exact awake.wakeup
  | own idle moved => exact awake.ownMove idle moved

end Awake

theorem Awake.of_reachable {program : σ}
    (reachable : Reachable (step A) Inside (EventLoop.initial ι F program) s) : s.Awake :=
  reachable.invariant Awake.initial fun _ _ _ awake inside stepped =>
    awake.move inside (move_of_step stepped)

/-- In `poll`, with nothing to read from `wakeupFd_`. -/
def Asleep (s : EventLoop ι σ F) : Prop :=
  s.stage = .polling ∧ s.wakeupFd_ = 0

omit [DecidableEq ι] in
/-- A loop that sleeps although it has something to do is going to be woken. -/
theorem awake_polling (awake : s.Awake) (asleep : s.Asleep)
    (waits : s.pendingFunctors_ ≠ [] ∨ s.quit_ = true) :
    ∃ t, s.pc (some t) = .queued ∨ s.pc (some t) = .quitting ∨ s.pc (some t) = .waking := by
  obtain ⟨polling, unreadable⟩ := asleep
  have woken : s.Woken := by
    rcases waits with pending | quit
    · exact awake.functors (by rw [polling]; rfl) pending
    · exact awake.quit polling quit
  rcases woken with readable | ⟨who, wakes⟩
  · exact absurd unreadable readable.ne'
  · cases who with
    | none =>
        -- the thread of the loop is in `poll`
        have idle : s.pc none = .idle := by
          by_contra busy
          have runs := awake.busy busy
          rw [polling] at runs
          cases runs
        rw [idle] at wakes
        cases wakes
    | some t =>
        refine ⟨t, ?_⟩
        cases at_ : s.pc (some t) with
        | queued => exact .inl rfl
        | quitting => exact .inr (.inl rfl)
        | waking => exact .inr (.inr rfl)
        | _ =>
            rw [at_] at wakes
            cases wakes

/-- **The loop never sleeps on a functor or while `quit_` is set.**  While it sleeps
and a functor is pending or `quit_` is set, another thread has pushed or set
`quit_` and has not written to `wakeupFd_` yet. -/
theorem never_sleeps_on_functors {program : σ}
    (reachable : Reachable (step A) Inside (initial ι F program) s) (asleep : s.Asleep)
    (waits : s.pendingFunctors_ ≠ [] ∨ s.quit_ = true) :
    ∃ t, s.pc (some t) = .queued ∨ s.pc (some t) = .quitting ∨ s.pc (some t) = .waking :=
  awake_polling (.of_reachable reachable) asleep waits

/-- The functor is pending, the loop sleeps, and the thread that pushed it has
not woken the loop. -/
theorem never_sleeps_on_functors_relay :
    ∃ s, execute (step relay) (relayRun.take 4) (initial Bool Nat ()) = some s ∧ s.Asleep ∧
      s.pendingFunctors_ = [1] ∧
      ∃ t, s.pc (some t) = .queued ∨ s.pc (some t) = .quitting ∨ s.pc (some t) = .waking := by
  have outcome : (execute (step relay) (relayRun.take 4) (initial Bool Nat ())).map
      (fun s => (s.stage, s.wakeupFd_, s.pendingFunctors_)) = some (.polling, 0, [1]) := by decide
  obtain ⟨s, executed, reachable, same⟩ := Reachable.exists_of_execute Inside outcome (by decide)
  obtain ⟨polling, unreadable, pending⟩ : s.stage = .polling ∧ s.wakeupFd_ = 0 ∧
      s.pendingFunctors_ = [1] := by
    simpa using same
  exact ⟨s, executed, ⟨polling, unreadable⟩, pending,
    never_sleeps_on_functors reachable ⟨polling, unreadable⟩ (.inl (by rw [pending]; simp))⟩

/-- Another thread completes a call of `quit` before the loop begins, and the loop goes to
sleep. -/
example : (execute (step relay)
    [.setQuit (some true), .testThread (some true), .wakeup (some true), .own .enter,
      .own .testQuit, .own (.poll false), .own .handleRead, .own .startFunctors, .own .swap,
      .own .finishFunctors, .own .testQuit]
    (initial Bool Nat ())).map (fun s => (s.stage, s.wakeupFd_, s.quit_, s.pc (some true))) =
      some (.polling, 0, false, .idle) := by decide

/-- The thread of the loop queues a functor and then enters the loop: it sleeps
on the functor, and nobody is going to wake it. -/
theorem queued_before_loop_sleeps {event : Event} {program program' : σ} {cb : F}
    (queues : A.react none event program = some (program', some cb)) :
    ∃ s, Reachable (step A) (fun _ _ => True) (initial ι F program) s ∧ s.Asleep ∧
      s.pendingFunctors_ = [cb] ∧ ∀ who, s.pc who = .idle := by
  have executed : execute (step A) [.react none event, .pushBack none, .testThread none,
      .own .enter, .own .testQuit] (initial ι F program) = some
        { initial ι F program' with
          pendingFunctors_ := [cb], queued := [cb], stage := .polling } := by
    simp [execute, step, ownStep, initial, mayAct, goto, Pc.next, Stage.isOutside, queues]
  exact ⟨_, Reachable.of_execute executed (by simp [Guarded]), ⟨rfl, rfl⟩, rfl, fun _ => rfl⟩

/-! ## Progress -/

/-- A step of the loop. -/
def Action.isOwn : Action ι Event → Bool
  | .own _ => true
  | _ => false

/-- Nobody calls `quit`, and the thread of the loop stays inside. -/
def Staying (action : Action ι Event) (s : EventLoop ι σ F) : Prop :=
  Inside action s ∧ ∀ who, action ≠ .setQuit who

instance (action : Action ι Event) (s : EventLoop ι σ F) : Decidable (Staying action s) :=
  decidable_of_iff (Inside action s ∧ (action matches .setQuit _) = false) <| by
    refine and_congr_right fun _ => ?_
    cases action <;> simp

/-- A step that the thread of the loop takes by itself, without an event from outside:
`poll` returns only when `wakeupFd_` is readable. -/
def Action.byItself : Action ι Event → Prop
  | .pushBack who => who = none
  | .testThread who => who = none
  | .wakeup who => who = none
  | .own (.poll ready) => ready = false
  | .own _ => True
  | .react _ _ => False
  | .setQuit _ => False

/-- The steps of `loop()` until it calls the first of so many functors: in `calling` the
functors may be those of the batch, or may be taken only after the next `poll`. -/
def Stage.distance (left : Nat) : Stage F → Nat
  | .outside => 0
  | .testing => 5
  | .polling => 4
  | .handling true => 3
  | .handling false => 2
  | .swapping => 1
  | .calling functors => if left ≤ functors.length then 0 else 6

theorem Stage.distance_le (left : Nat) (stage : Stage F) : stage.distance left ≤ 6 := by
  cases stage with
  | handling wakeupChannel_ => cases wakeupChannel_ <;> simp [distance]
  | calling functors =>
      simp only [distance]
      split_ifs <;> omega
  | _ => simp [distance]

/-- A running loop, with the functors that are to be called. -/
structure Looping (all : List F) (s : EventLoop ι σ F) : Prop where
  awake : s.Awake
  order : s.InOrder
  looping : s.stage ≠ .outside
  stays : s.quit_ = false
  queued : all <+: s.queued

/-- How many of the functors have not been called. -/
def left (all : List F) (s : EventLoop ι σ F) : Nat := all.length - s.called.length

/-- The steps of `loop()` until all of them are called. -/
def steps (all : List F) (s : EventLoop ι σ F) : Nat :=
  s.left all + s.stage.distance (s.left all)

namespace Looping

variable {all : List F}

omit [DecidableEq ι] in
/-- What has not been called is in the batch or pending. -/
theorem left_le (looping : Looping all s) :
    s.left all ≤ s.stage.batch.length + s.pendingFunctors_.length := by
  have short := looping.queued.length_le
  rw [← looping.order, List.length_append, List.length_append] at short
  rw [left]
  omega

omit [DecidableEq ι] in
/-- All are called when as many are. -/
theorem prefix_called (looping : Looping all s) (done : s.left all = 0) : all <+: s.called := by
  have isPrefix : s.called <+: s.queued := by
    rw [← looping.order, List.append_assoc]
    exact List.prefix_append _ _
  exact List.prefix_of_prefix_length_le looping.queued isPrefix (Nat.sub_eq_zero_iff_le.mp done)

theorem ownMove {own : Own Event} (looping : Looping all s) (idle : s.pc none = .idle)
    (moved : OwnMove A s own s') : Looping all s' := by
  refine ⟨looping.awake.ownMove idle moved, looping.order.ownMove moved, ?_, ?_, ?_⟩
  · cases moved with
    | leave at_ quit =>
        rw [looping.stays] at quit
        cases quit
    | _ => simp
  · cases moved with
    | enter => rfl
    | _ => exact looping.stays
  · cases moved <;> exact looping.queued

theorem move (looping : Looping all s) (staying : Staying action s) (moved : Move A s action s') :
    Looping all s' := by
  refine ⟨looping.awake.move staying.1 moved, looping.order.move moved, ?_, ?_, ?_⟩
  · cases moved with
    | own idle moved => exact (looping.ownMove idle moved).looping
    | _ => exact looping.looping
  · cases moved with
    | setQuit => exact absurd rfl (staying.2 _)
    | own idle moved => exact (looping.ownMove idle moved).stays
    | _ => exact looping.stays
  · cases moved with
    | pushBack => exact looping.queued.trans (List.prefix_append _ _)
    | own idle moved => exact (looping.ownMove idle moved).queued
    | _ => exact looping.queued

/-- A step of the loop brings it nearer. -/
theorem steps_ownMove {own : Own Event} (looping : Looping all s) (open_ : s.left all ≠ 0)
    (moved : OwnMove A s own s') : s'.steps all < s.steps all := by
  have inQueue := looping.left_le
  cases moved with
  | enter at_ => exact absurd at_ looping.looping
  | leave at_ quit =>
      rw [looping.stays] at quit
      cases quit
  | poll at_ returns =>
      simp only [steps, left, at_]
      cases decide (0 < s.wakeupFd_) <;> simp [Stage.distance]
  | swap at_ =>
      simp only [at_, Stage.batch, List.length_nil, Nat.zero_add] at inQueue
      have batch : Stage.distance (s.left all) (.calling s.pendingFunctors_) = 0 := if_pos inQueue
      simp only [steps, at_]
      exact Nat.add_lt_add_left (batch.trans_lt Nat.one_pos) _
  | @callFunctor event cb functors program next at_ called =>
      have fewer : all.length - (s.called ++ [cb]).length = s.left all - 1 := by
        rw [List.length_append, List.length_singleton, left]
        omega
      have nearer : Stage.distance (s.left all - 1) (.calling functors) =
          Stage.distance (s.left all) (.calling (cb :: functors)) := by
        simp only [Stage.distance, List.length_cons, Nat.sub_le_iff_le_add]
      simp only [steps, at_]
      rw [left, fewer, nearer]
      omega
  | finishFunctors at_ =>
      have none : ¬ s.left all ≤ ([] : List F).length := by simpa using open_
      simp only [steps, at_, Stage.distance, if_neg none]
      exact Nat.lt_succ_self _
  | _ at_ =>
      simp only [steps, left, at_, Stage.distance]
      omega

/-- What else happens does not take it back. -/
theorem steps_move (looping : Looping all s) (open_ : s.left all ≠ 0)
    (moved : Move A s action s') :
    s'.steps all + (if action.isOwn = true then 1 else 0) ≤ s.steps all := by
  cases moved with
  | own idle moved => exact looping.steps_ownMove open_ moved
  | _ => exact le_rfl

/-- While a functor is to be called, the thread of the loop can go on by itself, or another
thread is going to wake it. -/
theorem goesOn (returns : ∀ cb program, ∃ event result, A.call cb event program = some result)
    (looping : Looping all s) (open_ : s.left all ≠ 0) :
    (∃ action s', action.byItself ∧ step A action s = some s') ∨
      ∃ t, s.pc (some t) = .queued ∨ s.pc (some t) = .quitting ∨ s.pc (some t) = .waking := by
  have own {step : Own Event} {s' : EventLoop ι σ F} (idle : s.pc none = .idle)
      (moved : OwnMove A s step s') (byItself : (Action.own step : Action ι Event).byItself) :
      ∃ action s', action.byItself ∧ EventLoop.step A action s = some s' :=
    ⟨_, _, byItself, step_of_move (.own idle moved)⟩
  cases pc : s.pc none with
  | queueing cb => exact .inl ⟨.pushBack none, _, rfl, step_of_move (.pushBack pc)⟩
  | queued => exact .inl ⟨.testThread none, _, rfl, step_of_move (.testQueued pc)⟩
  | quitting => exact .inl ⟨.testThread none, _, rfl, step_of_move (.testQuitting pc)⟩
  | waking => exact .inl ⟨.wakeup none, _, rfl, step_of_move (.wakeup pc)⟩
  | idle =>
      cases at_ : s.stage with
      | outside => exact absurd at_ looping.looping
      | testing => exact .inl (own pc (.goOn at_ looping.stays) trivial)
      | polling =>
          by_cases readable : 0 < s.wakeupFd_
          · exact .inl (own pc (.poll at_ (.inl readable)) rfl)
          · have pending : s.pendingFunctors_ ≠ [] := by
              intro none
              have inQueue := looping.left_le
              simp only [at_, none, Stage.batch, List.length_nil] at inQueue
              exact open_ (Nat.le_zero.mp inQueue)
            exact .inr (awake_polling looping.awake ⟨at_, Nat.eq_zero_of_not_pos readable⟩
              (.inl pending))
      | handling wakeupChannel_ =>
          cases wakeupChannel_ with
          | true => exact .inl (own pc (.handleRead at_) trivial)
          | false => exact .inl (own pc (.startFunctors at_) trivial)
      | swapping => exact .inl (own pc (.swap at_) trivial)
      | calling functors =>
          cases functors with
          | nil => exact .inl (own pc (.finishFunctors at_) trivial)
          | cons cb functors =>
              obtain ⟨event, ⟨program, next⟩, called⟩ := returns cb s.program
              exact .inl (own pc (.callFunctor at_ called) trivial)

end Looping

omit [DecidableEq ι] in
theorem OwnMove.called_grows [DecidableEq ι] {own : Own Event} (moved : OwnMove A s own s') :
    s.called.length ≤ s'.called.length := by
  cases moved with
  | callFunctor => simp
  | _ => exact le_rfl

theorem Move.called_grows (moved : Move A s action s') : s.called.length ≤ s'.called.length := by
  cases moved with
  | own idle moved => exact moved.called_grows
  | _ => exact le_rfl

/-- **Functors get called.**  Take a loop that is running with `quit_` not set, and any run
from there in which nobody calls `quit` and the thread of the loop stays inside, whatever
handlers, functors and other threads do. Once the loop has taken as many steps as functors
were queued, and six, it has called all of them. Before that its thread can go on, although
no channel becomes active and the time limit of `poll` never passes; or another thread that
has pushed is going to wake it. -/
theorem functors_get_called {program : σ}
    (returns : ∀ cb program, ∃ event result, A.call cb event program = some result)
    (reachable : Reachable (step A) Inside (initial ι F program) s) (looping : s.stage ≠ .outside)
    (stays : s.quit_ = false) {actions : List (Action ι Event)}
    (guarded : Guarded (step A) Staying actions s)
    (executed : execute (step A) actions s = some s') :
    (s.queued.length + 6 ≤ actions.countP Action.isOwn → s.queued <+: s'.called) ∧
      (s.queued <+: s'.called ∨
        (∃ action s'', action.byItself ∧ step A action s' = some s'') ∨
        ∃ t, s'.pc (some t) = .queued ∨ s'.pc (some t) = .quitting ∨
          s'.pc (some t) = .waking) := by
  have begins : Looping s.queued s :=
    ⟨.of_reachable reachable, .of_reachable reachable, looping, stays, List.prefix_refl _⟩
  obtain ⟨loops, nearer⟩ := countP_le_of_execute (fun s' => s'.left s.queued = 0)
    (steps s.queued) Action.isOwn
    (fun _ _ _ loops staying stepped => loops.move staying (move_of_step stepped))
    (fun _ before after done stepped => by
      have more := (move_of_step stepped).called_grows
      simp only [left] at done ⊢
      omega)
    (fun _ _ _ loops open_ _ stepped => loops.steps_move open_ (move_of_step stepped))
    begins guarded executed
  refine ⟨fun enough => ?_, ?_⟩
  · refine loops.prefix_called ?_
    rcases nearer with done | few
    · exact done
    · have near := s.stage.distance_le (s.left s.queued)
      have bound : s.left s.queued ≤ s.queued.length := Nat.sub_le _ _
      simp only [steps] at few
      omega
  · by_cases done : s'.left s.queued = 0
    · exact .inl (loops.prefix_called done)
    · exact .inr (loops.goesOn returns done)

/-- From where the loop sleeps with one functor pending and `wakeupFd_` readable it calls
the functor, which queues another, and comes back to `poll`. -/
def relayOn : List (Action Bool (Option Nat)) :=
  [.own (.poll false), .own .handleRead, .own .startFunctors, .own .swap,
    .own (.callFunctor (some 3)), .pushBack none, .testThread none, .wakeup none,
    .own .finishFunctors, .own .testQuit]

theorem functors_get_called_relay :
    ∃ s s', execute (step relay) (relayRun.take 6) (initial Bool Nat ()) = some s ∧
      s.stage = .polling ∧ s.queued = [1] ∧ execute (step relay) relayOn s = some s' ∧
      s.queued <+: s'.called := by
  have outcome : (execute (step relay) (relayRun.take 6) (initial Bool Nat ())).map
      (fun s => (s.stage, s.queued, s.quit_, (execute (step relay) relayOn s).isSome,
        decide (Guarded (step relay) Staying relayOn s))) =
        some (.polling, [1], false, true, true) := by decide
  obtain ⟨s, executed, reachable, same⟩ := Reachable.exists_of_execute Inside outcome (by decide)
  simp only [Prod.mk.injEq, decide_eq_true_eq] at same
  obtain ⟨polling, queued, stays, runs, guarded⟩ := same
  obtain ⟨s', onwards⟩ := Option.isSome_iff_exists.mp runs
  obtain ⟨called, -⟩ := functors_get_called (fun _ _ => ⟨none, _, rfl⟩) reachable
    (by rw [polling]; simp) stays guarded onwards
  exact ⟨s, s', executed, polling, queued, onwards, called (by rw [queued]; decide)⟩

end EventLoop

end AirNet.Muduo
