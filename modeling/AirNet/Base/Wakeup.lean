import AirNet.Base.BlockingQueue

/-!
# Wakeups of the blocking queue

`put` and `putAll` notify once, whatever the number of elements. A consumer
must not sleep while elements are available and nothing is pending that would
wake it. After a batch of several elements this can happen
(`batch_loses_wakeup`): two consumers sleep, a batch of two wakes one of them,
and the second element stays while the second consumer sleeps on.

One notification is enough when at most one consumer sleeps, when the elements
are no more than the consumers already woken and the one to be woken, when one
of those woken takes all, or when every sleeper takes all. In runs whose
batches are inserted under this condition no wakeup is lost
(`no_lost_wakeup`). A single element always meets it.

A consumer that found an element holds the mutex until it has removed it, so
no other thread acts in between. The test and the removal are therefore one
step here (`atomicStep`). Every run of the queue becomes such a run when the
removal in progress is completed (`complete_reachable`).
-/

set_option autoImplicit false

namespace AirNet.Base.BlockingQueue

open AirNet.Lib

variable {ι T : Type}

/-! ## Test and removal in one step -/

/-- What a removal does. -/
def State.remove [DecidableEq ι] (s : State ι T) (t : ι) (call : Consumer) : State ι T :=
  match call with
  | .take => { s with
      queue_ := s.queue_.tail
      removed := s.removed ++ [s.queue_.take 1]
      pc := Function.update s.pc t .leaving }
  | .takeAll => { s with
      queue_ := []
      removed := s.removed ++ [s.queue_]
      pc := Function.update s.pc t .leaving }

/-- The step of a thread; a test that finds an element includes the removal. -/
def atomicStep [DecidableEq ι] [Fintype ι] :
    ι × Action ι T → State ι T → Option (State ι T)
  | (t, .test), s =>
      match s.pc t with
      | .testing call _ =>
          if s.queue_.isEmpty then some { s with pc := Function.update s.pc t (.mustWait call) }
          else some (s.remove t call)
      | _ => none
  | (t, action), s => if (s.pc t).removal.isSome then none else step (t, action) s

/-- What the atomic steps of a thread do. -/
inductive AtomicMove [DecidableEq ι] (s : State ι T) (t : ι) :
    Action ι T → State ι T → Prop where
  | plain {action : Action ι T} {s' : State ι T} (moved : Move s t action s')
      (before : (s.pc t).removal = none) (after : (s'.pc t).removal = none) :
      AtomicMove s t action s'
  | remove (call : Consumer) (again : Bool) (at_ : s.pc t = .testing call again)
      (found : s.queue_ ≠ []) : AtomicMove s t .test (s.remove t call)

section AtomicMove

variable [DecidableEq ι]

/-- Only a test leads to a removal. -/
theorem Move.removal_eq_none {s s' : State ι T} {t : ι} {action : Action ι T}
    (moved : Move s t action s') (noTest : action ≠ .test)
    (before : (s.pc t).removal = none) : (s'.pc t).removal = none := by
  cases moved with
  | lock call => cases call <;> simp only [Function.update_self] <;> rfl
  | testEmpty => exact absurd rfl noTest
  | testFound => exact absurd rfl noTest
  | front x rest at_ => rw [at_] at before; cases before
  | _ => simp only [Function.update_self]; rfl

theorem atomicStep_of_ne_test [Fintype ι] {t : ι} {action : Action ι T} (s : State ι T)
    (noTest : action ≠ .test) :
    atomicStep (t, action) s =
      if (s.pc t).removal.isSome then none else step (t, action) s := by
  cases action with
  | test => exact absurd rfl noTest
  | _ => rfl

theorem atomicMove_of_step [Fintype ι] {t : ι} {action : Action ι T} {s s' : State ι T}
    (stepped : atomicStep (t, action) s = some s') : AtomicMove s t action s' := by
  by_cases isTest : action = .test
  · subst isTest
    cases at_ : s.pc t <;> simp only [atomicStep, at_, reduceCtorEq] at stepped
    split_ifs at stepped with empty
    · obtain rfl := Option.some.inj stepped
      refine .plain (.testEmpty _ _ at_ (List.isEmpty_iff.mp empty)) (by rw [at_]; rfl) ?_
      simp only [Function.update_self]
      rfl
    · obtain rfl := Option.some.inj stepped
      exact .remove _ _ at_ (mt List.isEmpty_iff.mpr empty)
  · rw [atomicStep_of_ne_test s isTest] at stepped
    split_ifs at stepped with removes
    have before : (s.pc t).removal = none := Option.not_isSome_iff_eq_none.mp removes
    have moved := move_of_step stepped
    exact .plain moved before (moved.removal_eq_none isTest before)

/-- Atomic steps keep the invariant of the queue. -/
theorem Invariant.atomicMove {s s' : State ι T} {t : ι} {action : Action ι T}
    (inv : Invariant s) (moved : AtomicMove s t action s') : Invariant s' := by
  cases moved with
  | plain moved => exact inv.move moved
  | remove call again at_ found =>
      have holder := inv.holder_of at_ rfl
      have split : s.queue_.take 1 ++ s.queue_.tail = s.queue_ := by
        rw [← List.drop_one, List.take_append_drop]
      cases call with
      | take =>
          refine inv.act holder rfl trivial ?_
          rw [inv.fifo, List.flatten_append, List.flatten_singleton, List.append_assoc, split]
      | takeAll =>
          refine inv.act holder rfl trivial ?_
          rw [inv.fifo, List.flatten_append, List.flatten_singleton, List.append_nil]

end AtomicMove

/-! ## Pending wakeups -/

/-- Woken, and the queue not tested again yet. -/
def Pc.isAwake : Pc T → Bool
  | .woken _ => true
  | .testing _ again => again
  | _ => false

/-- Woken in `takeAll`, and the queue not tested again yet. -/
def Pc.isAwakeForAll : Pc T → Bool
  | .woken .takeAll => true
  | .testing .takeAll again => again
  | _ => false

/-- Asleep in `take`. -/
def Pc.isWaitingForOne : Pc T → Bool
  | .waiting .take => true
  | _ => false

/-- In a critical section of `put` or `putAll`, before `Notify()`. -/
def Pc.isBeforeNotify : Pc T → Bool
  | .inserting _ => true
  | .notifying => true
  | _ => false

/-- Where elements are available and a consumer sleeps, something is pending
that will wake it. -/
def NoLostWakeup (s : State ι T) : Prop :=
  s.queue_ ≠ [] → (∃ t, (s.pc t).isWaiting = true) →
    (∃ u, (s.pc u).isAwake = true) ∨ ∃ u, (s.pc u).isBeforeNotify = true

section Counting

variable [Fintype ι]

/-- The number of consumers woken that have not tested again. -/
def State.awake (s : State ι T) : Nat := ∑ t, (s.pc t).isAwake.toNat

/-- One notification is enough for a queue of the given length. -/
def OneIsEnough (s : State ι T) (length : Nat) : Prop :=
  (∀ t u, (s.pc t).isWaiting = true → (s.pc u).isWaiting = true → t = u) ∨
  length ≤ s.awake + 1 ∨
  (∃ u, (s.pc u).isAwakeForAll = true) ∨
  ∀ t, (s.pc t).isWaitingForOne = false

/-- A batch of several elements is inserted only when one notification is
enough. -/
def NotifiesEnough (label : ι × Action ι T) (s : State ι T) : Prop :=
  match label.2, s.pc label.1 with
  | .insert, .inserting elements =>
      1 < elements.length → OneIsEnough s (s.queue_.length + elements.length)
  | _, _ => True

/-! ## Signals keep up with elements -/

/-- When nobody is about to notify and a consumer sleeps, the elements are
spoken for by consumers already woken. -/
def SpokenFor (s : State ι T) : Prop :=
  (∃ t, (s.pc t).isWaiting = true) →
    s.queue_.length ≤ s.awake ∨ ∃ u, (s.pc u).isAwakeForAll = true

/-- The invariant of runs that notify enough. -/
structure Wake (s : State ι T) : Prop where
  invariant : Invariant s
  enough : OneIsEnough s s.queue_.length
  settled : (∀ t, s.pc t ≠ .notifying) → SpokenFor s

theorem SpokenFor.oneIsEnough {s : State ι T} (spokenFor : SpokenFor s) {length : Nat}
    (le : length ≤ s.queue_.length + 1) : OneIsEnough s length := by
  by_cases sleeps : ∃ t, (s.pc t).isWaiting = true
  · rcases spokenFor sleeps with few | forAll
    · exact Or.inr (Or.inl (by omega))
    · exact Or.inr (Or.inr (Or.inl forAll))
  · exact Or.inl fun t _ waiting => absurd ⟨t, waiting⟩ sleeps

/-- Nothing is asked of an empty queue. -/
theorem Wake.of_empty {s : State ι T} (invariant : Invariant s) (empty : s.queue_ = []) :
    Wake s where
  invariant := invariant
  enough := Or.inr (Or.inl (by rw [empty]; exact Nat.zero_le _))
  settled := fun _ _ => Or.inl (by rw [empty]; exact Nat.zero_le _)

theorem Wake.initial : Wake (State.initial ι T) := .of_empty Invariant.initial rfl

theorem Wake.noLostWakeup {s : State ι T} (wake : Wake s) : NoLostWakeup s := by
  intro available sleeps
  by_cases pending : ∃ t, s.pc t = .notifying
  · obtain ⟨u, notifying⟩ := pending
    exact Or.inr ⟨u, by rw [notifying]; rfl⟩
  · refine Or.inl ?_
    rcases wake.settled (not_exists.mp pending) sleeps with few | ⟨u, forAll⟩
    · have positive : 0 < s.awake := (List.length_pos_iff.mpr available).trans_le few
      obtain ⟨u, -, awake⟩ := Finset.exists_ne_zero_of_sum_ne_zero positive.ne'
      exact ⟨u, by simpa using awake⟩
    · refine ⟨u, ?_⟩
      cases at_ : s.pc u with
      | woken call => rfl
      | testing call again =>
          rw [at_] at forAll
          cases call
          · cases forAll
          · exact forAll
      | _ => rw [at_] at forAll; cases forAll

end Counting

/-! ## Moves that keep the wakeups -/

/-- A place that a thread may take without making anything worse: it does not
start to sleep, it does not give up a wakeup without removing an element, and a
wakeup for all is kept. -/
structure Harmless (before after : Pc T) (length length' : Nat) : Prop where
  waiting : after.isWaiting = true → before.isWaiting = true
  waitingForOne : after.isWaitingForOne = true → before.isWaitingForOne = true
  awakeForAll : before.isAwakeForAll = true → after.isAwakeForAll = true
  awake : length' + before.isAwake.toNat ≤ length + after.isAwake.toNat

section Update

variable [DecidableEq ι] {s s' : State ι T} {t : ι} {p : Pc T}

theorem exists_awakeForAll_update (pc : s'.pc = Function.update s.pc t p)
    (kept : (s.pc t).isAwakeForAll = true → p.isAwakeForAll = true)
    (forAll : ∃ u, (s.pc u).isAwakeForAll = true) : ∃ u, (s'.pc u).isAwakeForAll = true := by
  obtain ⟨u, awake⟩ := forAll
  refine ⟨u, ?_⟩
  rw [pc]
  by_cases same : u = t
  · subst same
    rw [Function.update_self]
    exact kept awake
  · rwa [Function.update_of_ne same]

/-- A property that the thread does not gain was there before. -/
theorem holds_before_update (property : Pc T → Bool) (pc : s'.pc = Function.update s.pc t p)
    (kept : property p = true → property (s.pc t) = true) {u : ι}
    (holds : property (s'.pc u) = true) : property (s.pc u) = true := by
  rw [pc] at holds
  by_cases same : u = t
  · subst same
    rw [Function.update_self] at holds
    exact kept holds
  · rwa [Function.update_of_ne same] at holds

variable [Fintype ι]

theorem awake_update (pc : s'.pc = Function.update s.pc t p) :
    s'.awake + (s.pc t).isAwake.toNat = s.awake + p.isAwake.toNat := by
  rw [State.awake, pc]
  exact sum_update_add (fun q : Pc T => q.isAwake.toNat) s.pc t p

theorem OneIsEnough.advance {length length' : Nat} (enough : OneIsEnough s length)
    (pc : s'.pc = Function.update s.pc t p) (harmless : Harmless (s.pc t) p length length') :
    OneIsEnough s' length' := by
  have waiting {u : ι} := holds_before_update (u := u) Pc.isWaiting pc harmless.waiting
  rcases enough with single | few | forAll | all
  · exact Or.inl fun u v first second => single u v (waiting first) (waiting second)
  · refine Or.inr (Or.inl ?_)
    have moved := awake_update pc
    have awake := harmless.awake
    omega
  · exact Or.inr (Or.inr (Or.inl (exists_awakeForAll_update pc harmless.awakeForAll forAll)))
  · refine Or.inr (Or.inr (Or.inr fun u => ?_))
    rw [Bool.eq_false_iff]
    intro waitsForOne
    have before := holds_before_update Pc.isWaitingForOne pc harmless.waitingForOne waitsForOne
    rw [all u] at before
    cases before

theorem SpokenFor.advance (spokenFor : SpokenFor s) (pc : s'.pc = Function.update s.pc t p)
    (harmless : Harmless (s.pc t) p s.queue_.length s'.queue_.length) : SpokenFor s' := by
  rintro ⟨u, sleeps⟩
  have slept := holds_before_update Pc.isWaiting pc harmless.waiting sleeps
  rcases spokenFor ⟨u, slept⟩ with few | forAll
  · refine Or.inl ?_
    have moved := awake_update pc
    have awake := harmless.awake
    omega
  · exact Or.inr (exists_awakeForAll_update pc harmless.awakeForAll forAll)

/-- Harmless moves keep the invariant. -/
theorem Wake.advance (wake : Wake s) (invariant : Invariant s')
    (pc : s'.pc = Function.update s.pc t p) (quiet : s.pc t ≠ .notifying)
    (harmless : Harmless (s.pc t) p s.queue_.length s'.queue_.length) : Wake s' where
  invariant := invariant
  enough := wake.enough.advance pc harmless
  settled := by
    intro nobody
    refine (wake.settled fun u => ?_).advance pc harmless
    by_cases same : u = t
    · subst same
      exact quiet
    · have still := nobody u
      rwa [pc, Function.update_of_ne same] at still

end Update

section Runs

variable [DecidableEq ι] [Fintype ι]

namespace Wake

variable {s : State ι T} {t : ι}

/-- An insertion leaves it to one notification to wake consumers. -/
theorem insert (wake : Wake s) {elements : List T} (at_ : s.pc t = .inserting elements)
    (enough : NotifiesEnough (t, .insert) s) :
    Wake { s with
      queue_ := s.queue_ ++ elements
      inserted := s.inserted ++ [elements]
      pc := Function.update s.pc t .notifying } := by
  have harmless : ∀ length, Harmless (s.pc t) .notifying length length := by
    intro length
    rw [at_]
    exact ⟨nofun, nofun, nofun, le_refl _⟩
  -- the holder of the mutex is not notifying, and nobody else can be
  have nobody : ∀ u, s.pc u ≠ .notifying := by
    intro u notifying
    have holds := wake.invariant.holder_of notifying rfl
    rw [wake.invariant.holder_of at_ rfl] at holds
    obtain rfl := Option.some.inj holds
    rw [at_] at notifying
    cases notifying
  have before : OneIsEnough s (s.queue_.length + elements.length) := by
    by_cases several : 1 < elements.length
    · rw [NotifiesEnough, at_] at enough
      exact enough several
    · exact (wake.settled nobody).oneIsEnough (by omega)
  refine ⟨wake.invariant.move (.insert elements at_), ?_, ?_⟩
  · rw [List.length_append]
    exact before.advance rfl (harmless _)
  · intro quiet
    exact absurd (Function.update_self t Pc.notifying s.pc) (quiet t)

/-- The sleeper that is woken is the one that was missing. -/
theorem spokenFor_woken (wake : Wake s) {u : ι} {call : Consumer}
    (asleep : s.pc u = .waiting call) :
    SpokenFor { s with pc := Function.update s.pc u (.woken call) } := by
  rintro ⟨v, sleeps⟩
  have other : v ≠ u := by
    rintro rfl
    simp only [Function.update_self] at sleeps
    cases sleeps
  simp only [Function.update_of_ne other] at sleeps
  rcases wake.enough with single | few | forAll | all
  · exact absurd (single v u sleeps (by rw [asleep]; rfl)) other
  · refine Or.inl (few.trans (le_of_eq ?_))
    have moved := sum_update_add (fun q : Pc T => q.isAwake.toNat) s.pc u (.woken call)
    rw [asleep] at moved
    exact moved.symm
  · refine Or.inr (exists_awakeForAll_update rfl ?_ forAll)
    rw [asleep]
    exact nofun
  · cases call with
    | take =>
        have waitsForOne := all u
        rw [asleep] at waitsForOne
        cases waitsForOne
    | takeAll => exact Or.inr ⟨u, by simp only [Function.update_self]; rfl⟩

/-- A notification that finds a sleeper settles what the insertion left. -/
theorem notifyOne (wake : Wake s) {u : ι} {call : Consumer} (at_ : s.pc t = .notifying)
    (asleep : s.pc u = .waiting call) :
    Wake { s with
      pc := Function.update (Function.update s.pc u (.woken call)) t .leaving } := by
  have other : t ≠ u := by
    rintro rfl
    rw [at_] at asleep
    cases asleep
  have spokenFor : SpokenFor { s with
      pc := Function.update (Function.update s.pc u (.woken call)) t .leaving } := by
    refine (wake.spokenFor_woken asleep).advance rfl ?_
    simp only [Function.update_of_ne other, at_]
    exact ⟨nofun, nofun, nofun, le_refl _⟩
  exact ⟨wake.invariant.move (.notifyOne u call at_ asleep),
    spokenFor.oneIsEnough (Nat.le_succ _), fun _ => spokenFor⟩

/-- Every atomic step that notifies enough keeps the invariant. -/
theorem atomicMove (wake : Wake s) {action : Action ι T} {s' : State ι T}
    (enough : NotifiesEnough (t, action) s) (moved : AtomicMove s t action s') : Wake s' := by
  have invariant := wake.invariant.atomicMove moved
  cases moved with
  | remove call again at_ found =>
      cases call with
      | take =>
          obtain ⟨x, rest, queue⟩ := List.exists_cons_of_ne_nil found
          refine wake.advance invariant rfl (by rw [at_]; simp) ?_
          rw [at_, State.remove, queue]
          cases again <;> exact ⟨nofun, nofun, nofun, by simp [Pc.isAwake]⟩
      | takeAll => exact .of_empty invariant rfl
  | plain moved before after =>
      cases moved with
      | lock call at_ free =>
          refine wake.advance invariant rfl (by rw [at_]; simp) ?_
          rw [at_]
          cases call <;> exact ⟨nofun, nofun, nofun, le_refl _⟩
      | insert elements at_ => exact wake.insert at_ enough
      | notifyNobody at_ nobody =>
          have spokenFor : SpokenFor { s with pc := Function.update s.pc t .leaving } := by
            rintro ⟨u, sleeps⟩
            have slept := holds_before_update (p := .leaving) Pc.isWaiting rfl nofun sleeps
            rw [nobody u] at slept
            cases slept
          exact ⟨invariant, spokenFor.oneIsEnough (Nat.le_succ _), fun _ => spokenFor⟩
      | notifyOne u call at_ asleep => exact wake.notifyOne at_ asleep
      | testEmpty call again at_ empty => exact .of_empty invariant empty
      | testFound call again at_ found =>
          simp only [Function.update_self] at after
          cases after
      | wait call at_ =>
          -- nothing has arrived since the test
          have empty := wake.invariant.ready t
          rw [at_] at empty
          exact .of_empty invariant empty
      | wakeSpuriously call at_ =>
          refine wake.advance invariant rfl (by rw [at_]; simp) ?_
          rw [at_]
          exact ⟨nofun, nofun, nofun, Nat.le_succ _⟩
      | relock call at_ free =>
          refine wake.advance invariant rfl (by rw [at_]; simp) ?_
          rw [at_]
          cases call <;> exact ⟨nofun, nofun, id, le_refl _⟩
      | front x rest at_ queue => rw [at_] at before; cases before
      | popFront x y rest at_ queue => rw [at_] at before; cases before
      | swap at_ => exact .of_empty invariant rfl
      | unlock at_ =>
          refine wake.advance invariant rfl (by rw [at_]; simp) ?_
          rw [at_]
          exact ⟨nofun, nofun, nofun, le_refl _⟩

end Wake

theorem Wake.of_reachable {s : State ι T}
    (reachable : Reachable atomicStep NotifiesEnough (State.initial ι T) s) : Wake s :=
  reachable.invariant Wake.initial fun _ _ _ wake enough stepped =>
    wake.atomicMove enough (atomicMove_of_step stepped)

/-- **No wakeup is lost** in runs in which every batch of several elements is
inserted when one notification is enough. -/
theorem no_lost_wakeup {s : State ι T}
    (reachable : Reachable atomicStep NotifiesEnough (State.initial ι T) s) :
    NoLostWakeup s :=
  (Wake.of_reachable reachable).noLostWakeup

instance [DecidableEq T] (s : State ι T) : Decidable (NoLostWakeup s) :=
  inferInstanceAs (Decidable (_ → _ → _ ∨ _))

instance (s : State ι T) (length : Nat) : Decidable (OneIsEnough s length) :=
  inferInstanceAs (Decidable (_ ∨ _ ∨ _ ∨ _))

instance (label : ι × Action ι T) (s : State ι T) : Decidable (NotifiesEnough label s) := by
  unfold NotifiesEnough
  split <;> infer_instance

/-- A consumer sleeps, a batch wakes it, and another consumer comes first. -/
def batchForOne : List (Fin 3 × Action (Fin 3) ℕ) :=
  [(1, .lock (.consume .takeAll)), (1, .test), (1, .wait),
    (0, .lock (.putAll [1, 2])), (0, .insert), (0, .notify (some 1)), (0, .unlock),
    (2, .lock (.consume .take)), (2, .test), (2, .unlock)]

theorem no_lost_wakeup_batchForOne :
    ∃ s, execute atomicStep batchForOne (State.initial (Fin 3) ℕ) = some s ∧
      NoLostWakeup s := by
  obtain ⟨s, executed⟩ :
      ∃ s, execute atomicStep batchForOne (State.initial (Fin 3) ℕ) = some s :=
    Option.isSome_iff_exists.mp (by decide)
  exact ⟨s, executed, no_lost_wakeup (Reachable.of_execute executed (by decide))⟩

/-- Two consumers sleep in `take`, a batch of two wakes one of them, and it
takes one element. -/
def batchForTwo : List (Fin 3 × Action (Fin 3) ℕ) :=
  [(1, .lock (.consume .take)), (1, .test), (1, .wait),
    (2, .lock (.consume .take)), (2, .test), (2, .wait),
    (0, .lock (.putAll [1, 2])), (0, .insert), (0, .notify (some 1)), (0, .unlock),
    (1, .relock), (1, .test), (1, .unlock)]

/-- An element is available, a consumer sleeps, and nothing is pending that
would wake it. -/
theorem batch_loses_wakeup :
    ∃ s, Reachable atomicStep (fun _ _ => True) (State.initial (Fin 3) ℕ) s ∧
      s.queue_ = [2] ∧ (s.pc 2).isWaiting = true ∧ ¬ NoLostWakeup s := by
  have outcome : (execute atomicStep batchForTwo (State.initial (Fin 3) ℕ)).map
      (fun s => (s.queue_, (s.pc 2).isWaiting, decide (NoLostWakeup s))) =
        some ([2], true, false) := by decide
  obtain ⟨s, -, reachable, same⟩ :=
    Reachable.exists_of_execute (fun _ _ => True) outcome (by decide)
  refine ⟨s, reachable, ?_⟩
  simpa using same

end Runs

/-! ## Every run is a run of atomic steps -/

/-- The state with the removal in progress completed. -/
def State.complete [DecidableEq ι] (s : State ι T) : State ι T :=
  match s.holder_ with
  | none => s
  | some t =>
      match (s.pc t).removal with
      | none => s
      | some call => s.remove t call

section Complete

variable [DecidableEq ι] {s s' : State ι T} {t : ι} {action : Action ι T}

theorem complete_of_plain (own : s.holder_ = none ∨ s.holder_ = some t)
    (plain : (s.pc t).removal = none) : s.complete = s := by
  rcases own with free | holder
  · simp only [State.complete, free]
  · simp only [State.complete, holder, plain]

theorem complete_of_removal (s : State ι T) (holder : s.holder_ = some t) {call : Consumer}
    (removal : (s.pc t).removal = some call) : s.complete = s.remove t call := by
  simp only [State.complete, holder, removal]

/-- The holder has moved to a place outside a removal. -/
theorem complete_moved (holder : s.holder_ = some t) {p : Pc T} (plain : p.removal = none)
    (queue : List T) (inserted removed : List (List T)) :
    State.complete ⟨s.holder_, queue, Function.update s.pc t p, inserted, removed⟩ =
      ⟨s.holder_, queue, Function.update s.pc t p, inserted, removed⟩ := by
  refine complete_of_plain (t := t) (.inr holder) ?_
  simpa only [Function.update_self] using plain

/-- Completing a removal does not concern the other threads. -/
theorem complete_update (other : s.holder_ ≠ some t) (p : Pc T) :
    s.complete.pc t = s.pc t ∧
      State.complete { s with pc := Function.update s.pc t p } =
        { s.complete with pc := Function.update s.complete.pc t p } := by
  obtain ⟨holder, queue, pc, inserted, removed⟩ := s
  cases holder with
  | none => exact ⟨rfl, rfl⟩
  | some u =>
      have different : t ≠ u := fun same => other (congrArg some same.symm)
      simp only [State.complete, Function.update_of_ne different.symm]
      cases (pc u).removal with
      | none => exact ⟨rfl, rfl⟩
      | some call =>
          cases call <;>
            simp only [State.remove, Function.update_of_ne different,
              Function.update_comm different, and_self]

variable [Fintype ι]

/-- A step taken with the mutex free or held by the thread, outside a removal,
is an atomic step. -/
theorem transition_of_plain (enough : NotifiesEnough (t, action) s) (noTest : action ≠ .test)
    (stepped : step (t, action) s = some s') (before : (s.pc t).removal = none)
    (own : s.holder_ = none ∨ s.holder_ = some t)
    (own' : s'.holder_ = none ∨ s'.holder_ = some t) :
    Transition atomicStep NotifiesEnough s.complete s'.complete := by
  have after := (move_of_step stepped).removal_eq_none noTest before
  rw [complete_of_plain own before, complete_of_plain own' after]
  refine ⟨(t, action), enough, ?_⟩
  rw [atomicStep_of_ne_test s noTest, before]
  exact stepped

/-- A test that finds an element is an atomic step that includes the removal. -/
theorem transition_of_test (inv : Invariant s) {call : Consumer} {again : Bool}
    (at_ : s.pc t = .testing call again) (found : s.queue_ ≠ []) :
    Transition atomicStep NotifiesEnough s.complete
      (State.complete { s with pc := Function.update s.pc t (.removing call) }) := by
  have holder := inv.holder_of at_ rfl
  have after : State.complete { s with pc := Function.update s.pc t (.removing call) } =
      s.remove t call := by
    rw [complete_of_removal { s with pc := Function.update s.pc t (.removing call) } holder
      (show (Function.update s.pc t (.removing call) t).removal = some call by
        rw [Function.update_self]; rfl)]
    cases call <;> simp only [State.remove, Function.update_idem]
  rw [complete_of_plain (.inr holder) (by rw [at_]; rfl), after]
  refine ⟨(t, .test), trivial, ?_⟩
  simp only [atomicStep, at_]
  rw [if_neg (mt List.isEmpty_iff.mp found)]

/-- A spurious wakeup may happen during the removal of another thread. -/
theorem transition_of_wakeSpuriously (inv : Invariant s) {call : Consumer}
    (at_ : s.pc t = .waiting call) :
    Transition atomicStep NotifiesEnough s.complete
      (State.complete { s with pc := Function.update s.pc t (.woken call) }) := by
  have other : s.holder_ ≠ some t := by
    intro holder
    have holds := (inv.holder t).mpr holder
    rw [at_] at holds
    cases holds
  obtain ⟨same, updated⟩ := complete_update other (.woken call)
  rw [updated]
  refine ⟨(t, .wakeSpuriously), trivial, ?_⟩
  simp only [atomicStep, step, same, at_]
  rfl

/-- A step with the mutex in hand that neither tests nor removes. -/
theorem transition_of_holder (inv : Invariant s) (enough : NotifiesEnough (t, action) s)
    (noTest : action ≠ .test) (stepped : step (t, action) s = some s') {p : Pc T}
    (at_ : s.pc t = p) (holds : p.holds = true) (plain : p.removal = none)
    (own' : s'.holder_ = none ∨ s'.holder_ = s.holder_) :
    Transition atomicStep NotifiesEnough s.complete s'.complete := by
  have holder := inv.holder_of at_ holds
  rw [holder] at own'
  exact transition_of_plain enough noTest stepped (at_ ▸ plain) (.inr holder) own'

/-- Every step of the queue is an atomic step or part of one. -/
theorem complete_mimics (inv : Invariant s) (enough : NotifiesEnough (t, action) s)
    (stepped : step (t, action) s = some s') :
    s'.complete = s.complete ∨
      Transition atomicStep NotifiesEnough s.complete s'.complete := by
  cases move_of_step stepped with
  | lock call at_ free =>
      exact .inr (transition_of_plain enough (by simp) stepped (by rw [at_]; rfl) (.inl free)
        (.inr rfl))
  | insert elements at_ =>
      exact .inr (transition_of_holder inv enough (by simp) stepped at_ rfl rfl (.inr rfl))
  | notifyNobody at_ nobody =>
      exact .inr (transition_of_holder inv enough (by simp) stepped at_ rfl rfl (.inr rfl))
  | notifyOne u call at_ asleep =>
      exact .inr (transition_of_holder inv enough (by simp) stepped at_ rfl rfl (.inr rfl))
  | testEmpty call again at_ empty =>
      have holder := inv.holder_of at_ rfl
      refine .inr ⟨(t, .test), ?_⟩
      rw [complete_of_plain (.inr holder) (by rw [at_]; rfl),
        complete_moved holder rfl]
      exact ⟨trivial, by simp only [atomicStep, at_, empty]; rfl⟩
  | testFound call again at_ found => exact .inr (transition_of_test inv at_ found)
  | wait call at_ =>
      exact .inr (transition_of_holder inv enough (by simp) stepped at_ rfl rfl (.inl rfl))
  | wakeSpuriously call at_ => exact .inr (transition_of_wakeSpuriously inv at_)
  | relock call at_ free =>
      exact .inr (transition_of_plain enough (by simp) stepped (by rw [at_]; rfl) (.inl free)
        (.inr rfl))
  | front x rest at_ queue =>
      have holder := inv.holder_of at_ rfl
      left
      rw [complete_of_removal s holder (by rw [at_]; rfl),
        complete_of_removal { s with pc := Function.update s.pc t (.copied x) } holder
          (show (Function.update s.pc t (.copied x) t).removal = some .take by
            rw [Function.update_self]; rfl)]
      simp only [State.remove, Function.update_idem]
  | popFront x y rest at_ queue =>
      have holder := inv.holder_of at_ rfl
      have isFront := inv.ready t
      rw [at_, queue] at isFront
      obtain rfl : y = x := Option.some.inj isFront
      left
      rw [complete_of_removal s holder (by rw [at_]; rfl),
        complete_moved holder rfl]
      simp only [State.remove, queue, List.tail_cons, List.take_succ_cons, List.take_zero]
  | swap at_ =>
      rcases at_ with taking | clearing
      · have holder := inv.holder_of taking rfl
        left
        rw [complete_of_removal s holder (by rw [taking]; rfl),
          complete_moved holder rfl]
        rfl
      · exact .inr (transition_of_holder inv enough (by simp) stepped clearing rfl rfl (.inr rfl))
  | unlock at_ =>
      exact .inr (transition_of_holder inv enough (by simp) stepped at_ rfl rfl (.inl rfl))

/-- **Runs of the queue are runs of atomic steps** once the removal in progress
is completed. -/
theorem complete_reachable
    (reachable : Reachable step NotifiesEnough (State.initial ι T) s) :
    Reachable atomicStep NotifiesEnough (State.initial ι T) s.complete :=
  reachable.simulates Invariant.initial
    (fun _ _ _ inv _ stepped => inv.move (move_of_step stepped))
    (fun _ _ _ inv enough stepped => complete_mimics inv enough stepped)

/-- With tests and removals as separate steps, no wakeup is lost once the
removal in progress is completed. -/
theorem noLostWakeup_complete
    (reachable : Reachable step NotifiesEnough (State.initial ι T) s) :
    NoLostWakeup s.complete :=
  (Wake.of_reachable (complete_reachable reachable)).noLostWakeup

end Complete

end AirNet.Base.BlockingQueue
