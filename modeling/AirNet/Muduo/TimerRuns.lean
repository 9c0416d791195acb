import AirNet.Muduo.TimerOwnership

/-!
# What a timer lives through

To the one who added it a timer is simple (`Life`): it is on its way to the loop, it waits,
it is one of those `handleRead` takes out when their time has come, then it is run, and it
waits again or is gone. The queue with its heap, its two sets and its list of cancelled
timers gives every timer this life: each step of the queue is a step in the life of the
timer or changes nothing of it (`life_step`), even where its address is used again.

Two results follow from the lives alone. A timer is not run before its time, and one that
does not repeat is run once. What its interval keeps apart are not the runs, but the times
with which `handleRead` begins: a timer that has waited for others of its round may be run
again at once (`timers_keep_their_schedule`). A timer that is cancelled in the loop is run
no more, except where `handleRead` has already taken it out; then it is run once
(`cancelled_timers_stay_quiet`). A cancel that overtakes `addTimerInLoop` is lost.

Whenever `handleRead` is not at work, the descriptor of the queue is set to the first
expiration or to an earlier one, or to 100 microseconds from when it was set, so no timer
is forgotten (`alarm_is_set`).
-/

set_option autoImplicit false

namespace AirNet.Muduo.TimerQueue

open AirNet.Cpp AirNet.Lib

/-! ## The life of a timer -/

inductive Phase where
  /-- `addTimerInLoop` has not been called. -/
  | queued
  | waiting
  /-- Taken out by `handleRead` at a time; whether it was run and whether it was cancelled
  since. -/
  | called (now : Timestamp) (hasRun cancelled : Bool)
  | gone
  deriving DecidableEq

/-- The phase of a timer, its expiration, and the times with which `handleRead` began when
it ran the timer. -/
structure Life where
  phase : Phase
  expiration : Timestamp
  runs : List Timestamp
  deriving DecidableEq

inductive Life.Event where
  | add
  | expire (now : Timestamp)
  | run
  | cancel
  | finish
  deriving DecidableEq

/-- The life of a timer with this interval that repeats or not. -/
def Life.step (interval : Int) (repeats : Bool) : Event → Life → Option Life
  | .add, ⟨.queued, expiration, runs⟩ => some ⟨.waiting, expiration, runs⟩
  | .expire now, ⟨.waiting, expiration, runs⟩ =>
      if expiration ≤ now then some ⟨.called now false false, expiration, runs⟩ else none
  | .run, ⟨.called now false cancelled, expiration, runs⟩ =>
      some ⟨.called now true cancelled, expiration, runs ++ [now]⟩
  | .cancel, ⟨.waiting, _, runs⟩ => some ⟨.gone, 0, runs⟩
  | .cancel, ⟨.called now hasRun _, expiration, runs⟩ =>
      some ⟨.called now hasRun true, expiration, runs⟩
  | .cancel, life => some life
  | .finish, ⟨.called now true cancelled, _, runs⟩ =>
      if repeats = true ∧ cancelled = false then some ⟨.waiting, now + interval, runs⟩
      else some ⟨.gone, 0, runs⟩
  | _, _ => none

namespace Life

variable {when : Timestamp} {interval : Int} {repeats : Bool} {event : Event} {life life' : Life}

/-- A timer with these runs may be run from the expiration on. -/
structure Ready (when : Timestamp) (interval : Int) (repeats : Bool) (expiration : Timestamp)
    (runs : List Timestamp) : Prop where
  first : runs = [] → when ≤ expiration
  next : ∀ last ∈ runs.getLast?, last + interval ≤ expiration
  once : repeats = false → runs = []

/-- What is known of the runs to come. -/
def Expects (when : Timestamp) (interval : Int) (repeats : Bool) : Life → Prop
  | ⟨.queued, expiration, runs⟩ => Ready when interval repeats expiration runs
  | ⟨.waiting, expiration, runs⟩ => Ready when interval repeats expiration runs
  | ⟨.called now false _, _, runs⟩ => Ready when interval repeats now runs
  | ⟨.called now true _, _, runs⟩ => runs.getLast? = some now
  | ⟨.gone, _, _⟩ => True

structure OnSchedule (when : Timestamp) (interval : Int) (repeats : Bool) (life : Life) :
    Prop where
  first : ∀ run ∈ life.runs.head?, when ≤ run
  apart : life.runs.IsChain (fun run next => run + interval ≤ next)
  once : repeats = false → life.runs.length ≤ 1
  expects : life.Expects when interval repeats

theorem Ready.mono {expiration now : Timestamp} {runs : List Timestamp}
    (ready : Ready when interval repeats expiration runs) (due : expiration ≤ now) :
    Ready when interval repeats now runs where
  first := fun none => (ready.first none).trans due
  next := fun last isLast => (ready.next last isLast).trans due
  once := ready.once

theorem OnSchedule.run {now : Timestamp} {cancelled : Bool} {expiration : Timestamp}
    {runs : List Timestamp}
    (scheduled : OnSchedule when interval repeats ⟨.called now false cancelled, expiration, runs⟩) :
    OnSchedule when interval repeats ⟨.called now true cancelled, expiration, runs ++ [now]⟩ := by
  have ready : Ready when interval repeats now runs := scheduled.expects
  refine ⟨?_, ?_, ?_, List.getLast?_concat⟩
  · intro run isFirst
    cases runs with
    | nil =>
        obtain rfl : now = run := Option.some.inj isFirst
        exact ready.first rfl
    | cons earliest runs => exact scheduled.first run isFirst
  · refine List.isChain_append.mpr ⟨scheduled.apart, .singleton now, ?_⟩
    intro last isLast next isNext
    obtain rfl : now = next := Option.some.inj isNext
    exact ready.next last isLast
  · intro single
    rw [ready.once single]
    exact le_rfl

theorem OnSchedule.finish {now : Timestamp} {cancelled : Bool} {expiration : Timestamp}
    {runs : List Timestamp} (again : repeats = true)
    (scheduled : OnSchedule when interval repeats ⟨.called now true cancelled, expiration, runs⟩) :
    OnSchedule when interval repeats ⟨.waiting, now + interval, runs⟩ := by
  have isLast : runs.getLast? = some now := scheduled.expects
  refine ⟨scheduled.first, scheduled.apart, scheduled.once, ?_, ?_, ?_⟩
  · rintro rfl
    cases isLast
  · intro last isLast'
    obtain rfl : now = last := Option.some.inj (isLast.symm.trans isLast')
    exact le_rfl
  · intro single
    rw [again] at single
    cases single

/-- Every event keeps to the schedule. -/
theorem OnSchedule.step (scheduled : OnSchedule when interval repeats life)
    (stepped : Life.step interval repeats event life = some life') :
    OnSchedule when interval repeats life' := by
  obtain ⟨phase, expiration, runs⟩ := life
  cases event with
  | add =>
      cases phase <;> cases stepped
      exact ⟨scheduled.first, scheduled.apart, scheduled.once, scheduled.expects⟩
  | expire now =>
      cases phase with
      | waiting =>
          rw [Life.step] at stepped
          split_ifs at stepped with due
          cases stepped
          have ready : Ready when interval repeats expiration runs := scheduled.expects
          exact ⟨scheduled.first, scheduled.apart, scheduled.once, ready.mono due⟩
      | _ => cases stepped
  | run =>
      cases phase with
      | called now hasRun cancelled =>
          cases hasRun <;> cases stepped
          exact scheduled.run
      | _ => cases stepped
  | cancel =>
      cases phase with
      | called now hasRun cancelled =>
          cases hasRun <;> cases stepped
          · exact ⟨scheduled.first, scheduled.apart, scheduled.once, scheduled.expects⟩
          · exact ⟨scheduled.first, scheduled.apart, scheduled.once, scheduled.expects⟩
      | queued =>
          cases stepped
          exact scheduled
      | waiting =>
          cases stepped
          exact ⟨scheduled.first, scheduled.apart, scheduled.once, trivial⟩
      | gone =>
          cases stepped
          exact scheduled
  | finish =>
      cases phase with
      | called now hasRun cancelled =>
          cases hasRun with
          | false => cases stepped
          | true =>
              rw [Life.step] at stepped
              split_ifs at stepped with again
              · cases stepped
                exact scheduled.finish again.1
              · cases stepped
                exact ⟨scheduled.first, scheduled.apart, scheduled.once, trivial⟩
      | _ => cases stepped

/-- The timer is not run again. -/
def Over (runs : List Timestamp) (life : Life) : Prop :=
  life.runs = runs ∧ (life.phase = .gone ∨ ∃ now, life.phase = .called now true true)

theorem Over.step {runs : List Timestamp} (ended : Over runs life)
    (stepped : Life.step interval repeats event life = some life') : Over runs life' := by
  obtain ⟨phase, expiration, _⟩ := life
  obtain ⟨rfl, rfl | ⟨now, rfl⟩⟩ := ended
  · cases event <;> cases stepped
    exact ⟨rfl, .inl rfl⟩
  · cases event with
    | add => cases stepped
    | expire => cases stepped
    | run => cases stepped
    | cancel =>
        cases stepped
        exact ⟨rfl, .inr ⟨now, rfl⟩⟩
    | finish =>
        rw [Life.step, if_neg (by simp)] at stepped
        cases stepped
        exact ⟨rfl, .inl rfl⟩

/-- The timer is over, or `handleRead` has still to run it. -/
def Ending (runs : List Timestamp) (now : Timestamp) (life : Life) : Prop :=
  (life.runs = runs ∧ life.phase = .called now false true) ∨ Over (runs ++ [now]) life

theorem Ending.step {runs : List Timestamp} {now : Timestamp} (ending : Ending runs now life)
    (stepped : Life.step interval repeats event life = some life') : Ending runs now life' := by
  obtain ⟨rfl, isCalled⟩ | ended := ending
  · obtain ⟨phase, expiration, runs⟩ := life
    obtain rfl : phase = .called now false true := isCalled
    cases event with
    | add => cases stepped
    | expire => cases stepped
    | run =>
        cases stepped
        exact .inr ⟨rfl, .inr ⟨now, rfl⟩⟩
    | cancel =>
        cases stepped
        exact .inl ⟨rfl, rfl⟩
    | finish => cases stepped
  · exact .inr (ended.step stepped)

/-- What is left to a cancelled timer. -/
theorem over_of_cancel (cancelled : Life.step interval repeats .cancel life = some life')
    (known : life.phase ≠ .queued) :
    Over life.runs life' ∨
      ∃ now before, life.phase = .called now false before ∧ Ending life.runs now life' := by
  obtain ⟨phase, expiration, runs⟩ := life
  cases phase with
  | queued => exact absurd rfl known
  | waiting =>
      cases cancelled
      exact .inl ⟨rfl, .inl rfl⟩
  | called now hasRun before =>
      cases hasRun <;> cases cancelled
      · exact .inr ⟨now, before, rfl, .inl ⟨rfl, rfl⟩⟩
      · exact .inl ⟨rfl, .inr ⟨now, rfl⟩⟩
  | gone =>
      cases cancelled
      exact .inl ⟨rfl, .inl rfl⟩

end Life

/-! ## The queue gives every timer its life -/

/-- The calls of the timer with a number. -/
def State.calls (sequence : Nat) (s : State) : List Run :=
  s.ran.filter fun run => run.sequence = sequence

/-- The rounds of `handleRead` in which it was called. -/
def State.runs (sequence : Nat) (s : State) : List Timestamp :=
  (s.calls sequence).map Run.round

/-- Where the timer at an address is. -/
def State.phase (p sequence : Nat) (s : State) : Phase :=
  if p ∈ s.queued then .queued
  else
    match s.batch with
    | some batch =>
        if p ∈ batch.expired.map Entry.timer then
          .called batch.now (p ∉ batch.left.map Entry.timer)
            (activeTimer p sequence ∈ s.cancelingTimers_)
        else .waiting
    | none => .waiting

/-- The life of the timer with a number that was created at an address. -/
def State.life (p sequence : Nat) (s : State) : Life :=
  match s.heap.object p with
  | some t =>
      if t.sequence_ = sequence then ⟨s.phase p sequence, t.expiration_, s.runs sequence⟩
      else ⟨.gone, 0, s.runs sequence⟩
  | none => ⟨.gone, 0, s.runs sequence⟩

/-- The identity of a timer with this interval that repeats or not: a timer with the number
is at the address. -/
structure Named (p sequence : Nat) (interval : Float) (repeats : Bool) (s : State) : Prop where
  created : sequence ≤ s.numCreated
  timer : ∀ q t, s.heap.object q = some t → t.sequence_ = sequence →
    q = p ∧ t.interval_ = interval ∧ t.repeat_ = repeats

variable {s s' : State} {p sequence : Nat} {interval : Float} {repeats : Bool} {label : Label}

/-- No timer with the number is at the address. -/
def State.Gone (p sequence : Nat) (s : State) : Prop :=
  ∀ t, s.heap.object p = some t → t.sequence_ ≠ sequence

theorem life_of_gone (gone : s.Gone p sequence) :
    s.life p sequence = ⟨.gone, 0, s.runs sequence⟩ := by
  rw [State.life]
  cases object : s.heap.object p with
  | none => rfl
  | some t => exact if_neg (gone t object)

theorem life_of_object {t : Timer} (object : s.heap.object p = some t)
    (number : t.sequence_ = sequence) :
    s.life p sequence = ⟨s.phase p sequence, t.expiration_, s.runs sequence⟩ := by
  rw [State.life, object]
  exact if_pos number

theorem gone_or_object (s : State) (p sequence : Nat) :
    s.Gone p sequence ∨ ∃ t, s.heap.object p = some t ∧ t.sequence_ = sequence := by
  by_cases there : ∃ t, s.heap.object p = some t ∧ t.sequence_ = sequence
  · exact .inr there
  · exact .inl fun t object number => there ⟨t, object, number⟩

theorem life_of_queued {t : Timer} (object : s.heap.object p = some t)
    (number : t.sequence_ = sequence) (isQueued : p ∈ s.queued) :
    s.life p sequence = ⟨.queued, t.expiration_, s.runs sequence⟩ := by
  rw [life_of_object object number, State.phase, if_pos isQueued]

theorem life_of_called {t : Timer} (object : s.heap.object p = some t)
    (number : t.sequence_ = sequence) {now : Timestamp} {expired left : List Entry}
    (running : s.batch = some ⟨now, expired, left⟩) (unqueued : p ∉ s.queued)
    (isCalled : p ∈ expired.map Entry.timer) {hasRun cancelled : Bool}
    (isRun : decide (p ∉ left.map Entry.timer) = hasRun)
    (isCancelled : decide (activeTimer p sequence ∈ s.cancelingTimers_) = cancelled) :
    s.life p sequence = ⟨.called now hasRun cancelled, t.expiration_, s.runs sequence⟩ := by
  rw [life_of_object object number, State.phase, if_neg unqueued, running]
  simp only [if_pos isCalled, isRun, isCancelled]

theorem life_of_waiting {t : Timer} (object : s.heap.object p = some t)
    (number : t.sequence_ = sequence) (unqueued : p ∉ s.queued) (uncalled : p ∉ s.called) :
    s.life p sequence = ⟨.waiting, t.expiration_, s.runs sequence⟩ := by
  rw [State.called] at uncalled
  rw [life_of_object object number, State.phase, if_neg unqueued]
  cases running : s.batch with
  | none => rfl
  | some batch =>
      rw [running] at uncalled
      simp only [if_neg (show p ∉ batch.expired.map Entry.timer from uncalled)]

/-- The life is seen at the address alone. -/
theorem life_congr (object : s'.heap.object p = s.heap.object p)
    (queued : p ∈ s'.queued ↔ p ∈ s.queued) (batch : s'.batch = s.batch)
    (canceling : activeTimer p sequence ∈ s'.cancelingTimers_ ↔
      activeTimer p sequence ∈ s.cancelingTimers_)
    (ran : s'.ran = s.ran) : s'.life p sequence = s.life p sequence := by
  simp only [State.life, State.phase, State.runs, State.calls, object, queued, batch, canceling,
    ran]

/-- A timer that is not on its way and not called waits in the sets. -/
theorem waiting_mem {t : Timer} (inv : Inv s) (object : s.heap.object p = some t)
    (unqueued : p ∉ s.queued) (uncalled : p ∉ s.called) : entry t.expiration_ p ∈ s.timers_ := by
  refine (inv.owned.mem_iff _).mpr ⟨?_, t, object, rfl⟩
  intro isListed
  rcases List.mem_append.mp isListed with isQueued | isCalled
  · exact unqueued isQueued
  · exact uncalled isCalled

/-- An active timer is not on its way and not called. -/
theorem active_unlisted (inv : Inv s) (isActive : activeTimer p sequence ∈ s.activeTimers_) :
    (∃ t, s.heap.object p = some t ∧ t.sequence_ = sequence) ∧ p ∉ s.queued ∧ p ∉ s.called := by
  obtain ⟨e, member, t, object, same⟩ := (inv.owned.active_iff _).mp isActive
  obtain ⟨rfl, rfl⟩ : p = e.timer ∧ sequence = t.sequence_ := Prod.mk.inj same
  have unlisted := inv.owned.apart e member
  exact ⟨⟨t, object, rfl⟩, fun isQueued => unlisted (List.mem_append_left _ isQueued),
    fun isCalled => unlisted (List.mem_append_right _ isCalled)⟩

theorem called_of_batch {now : Timestamp} {expired left : List Entry}
    (running : s.batch = some ⟨now, expired, left⟩) : s.called = expired.map Entry.timer := by
  rw [State.called, running]
  rfl

/-- A called timer is not on its way. -/
theorem unqueued_of_called (inv : Inv s) (isCalled : p ∈ s.called) : p ∉ s.queued :=
  fun isQueued => List.disjoint_of_nodup_append inv.owned.nodup isQueued isCalled

theorem of_survivor {now : Timestamp} {u : Timer} (left : survivor now s p = some u) :
    ∃ t, s.heap.object p = some t ∧ t.repeat_ = true ∧
      activeTimer p t.sequence_ ∉ s.cancelingTimers_ ∧
      u = { t with expiration_ := addTime now t.interval_ } := by
  rw [survivor] at left
  cases object : s.heap.object p with
  | none =>
      rw [object] at left
      cases left
  | some t =>
      rw [object] at left
      simp only at left
      split_ifs at left with again
      refine ⟨t, rfl, again.1, again.2, ?_⟩
      rw [← Option.some.inj left, Timer.restart, if_pos again.1]

/-- A timer keeps its identity. -/
theorem Named.effect (named : Named p sequence interval repeats s) (effect : Effect s label s') :
    Named p sequence interval repeats s' := by
  cases effect with
  | @create new when interval' dead =>
      refine ⟨named.created.trans (Nat.le_succ _), ?_⟩
      intro q t object number
      by_cases isNew : q = new
      · subst isNew
        rw [Heap.object_put_self] at object
        have last : t.sequence_ = s.numCreated + 1 := by rw [← Option.some.inj object]; rfl
        have created := named.created
        omega
      · rw [s.heap.object_put_of_ne isNew] at object
        exact named.timer q t object number
  | cancelActive isActive object =>
      refine ⟨named.created, ?_⟩
      intro q t found number
      rw [object, Function.update_apply] at found
      split_ifs at found
      exact named.timer q t found number
  | reset active done objects armed =>
      refine ⟨named.created, ?_⟩
      intro q u found number
      rw [objects q] at found
      split_ifs at found with isCalled
      · obtain ⟨t, object, -, -, rfl⟩ := of_survivor found
        exact named.timer q t object number
      · exact named.timer q u found number
  | addTimerInLoop => exact ⟨named.created, named.timer⟩
  | returns => exact ⟨named.created, named.timer⟩
  | cancelInactive => exact ⟨named.created, named.timer⟩
  | handleRead => exact ⟨named.created, named.timer⟩
  | run => exact ⟨named.created, named.timer⟩

/-- Where a timer can be that is not gone. -/
theorem queued_or_called_or_waiting (s : State) (p : Nat) :
    p ∈ s.queued ∨
      (p ∉ s.queued ∧ ∃ now expired left, s.batch = some ⟨now, expired, left⟩ ∧
        p ∈ expired.map Entry.timer) ∨
      (p ∉ s.queued ∧ p ∉ s.called) := by
  by_cases isQueued : p ∈ s.queued
  · exact .inl isQueued
  · by_cases isCalled : p ∈ s.called
    · refine .inr (.inl ⟨isQueued, ?_⟩)
      cases running : s.batch with
      | none =>
          rw [State.called, running] at isCalled
          cases isCalled
      | some batch =>
          rw [State.called, running] at isCalled
          exact ⟨batch.now, batch.expired, batch.left, rfl, isCalled⟩
    · exact .inr (.inr ⟨isQueued, isCalled⟩)

/-- `cancelInLoop` cancels the timer that it is given. -/
theorem life_cancel (inv : Inv s) (effect : Effect s (.cancelInLoop p sequence) s') :
    Life.step (microseconds interval) repeats .cancel (s.life p sequence) =
      some (s'.life p sequence) := by
  cases effect with
  | cancelActive isActive object =>
      obtain ⟨⟨t, found, number⟩, unqueued, uncalled⟩ := active_unlisted inv isActive
      rw [life_of_waiting found number unqueued uncalled]
      refine congrArg some (Eq.symm (life_of_gone ?_))
      intro u found'
      rw [object, Function.update_self] at found'
      cases found'
  | cancelInactive inactive =>
      rcases gone_or_object s p sequence with gone | ⟨t, object, number⟩
      · rw [life_of_gone gone]
        exact congrArg some (Eq.symm (life_of_gone gone))
      · rcases queued_or_called_or_waiting s p with
          isQueued | ⟨unqueued, now, expired, left, running, isCalled⟩ | ⟨unqueued, uncalled⟩
        · rw [life_of_queued object number isQueued]
          exact congrArg some (Eq.symm (life_of_queued object number isQueued))
        · rw [life_of_called object number running unqueued isCalled rfl rfl]
          have calling : s.callingExpiredTimers_ = true := by
            rw [inv.calling, running]
            rfl
          rw [if_pos calling]
          have noted : activeTimer p sequence ∈
              (s.cancelingTimers_.insert (activeTimer p sequence)).1 :=
            SortedSet.mem_insert.mpr (.inl rfl)
          refine congrArg some (Eq.symm (life_of_called ?_ number ?_ ?_ isCalled rfl ?_))
          exacts [object, running, unqueued, decide_eq_true noted]
        · -- A timer that waits is active.
          have member := waiting_mem inv object unqueued uncalled
          exact absurd ((inv.owned.active_iff _).mpr ⟨_, member, t, object, number ▸ rfl⟩) inactive

/-- It leaves the others alone, also one that has the address after it. -/
theorem life_cancel_other {q number : Nat} (inv : Inv s) (other : ¬ (q = p ∧ number = sequence))
    (effect : Effect s (.cancelInLoop q number) s') :
    s'.life p sequence = s.life p sequence := by
  cases effect with
  | cancelActive isActive object =>
      obtain ⟨⟨t, found, isNumber⟩, -, -⟩ := active_unlisted inv isActive
      by_cases same : p = q
      · subst same
        have gone : s.Gone p sequence := by
          intro u found' number'
          rw [found] at found'
          exact other ⟨rfl, by rw [← isNumber, Option.some.inj found', number']⟩
        rw [life_of_gone gone]
        refine life_of_gone ?_
        intro u found'
        rw [object, Function.update_self] at found'
        cases found'
      · refine life_congr ?_ Iff.rfl rfl Iff.rfl rfl
        rw [object, Function.update_of_ne same]
  | cancelInactive inactive =>
      refine life_congr rfl Iff.rfl rfl ?_ rfl
      have different : activeTimer p sequence ≠ activeTimer q number := by
        intro same
        obtain ⟨rfl, rfl⟩ : p = q ∧ sequence = number := Prod.mk.inj same
        exact other ⟨rfl, rfl⟩
      split_ifs
      · rw [SortedSet.mem_insert, or_iff_right different]
      · rfl

theorem life_create {q : Nat} {when : Timestamp} {interval' : Float}
    (named : Named p sequence interval repeats s)
    (effect : Effect s (.create q when interval') s') :
    s'.life p sequence = s.life p sequence := by
  cases effect with
  | create _ _ dead =>
  by_cases isNew : p = q
  · subst isNew
    have none : s.heap.object p = none := Heap.object_of_not_live dead
    rw [life_of_gone (s := s) (fun t object => by rw [none] at object; cases object)]
    refine life_of_gone ?_
    intro t object number
    have same := (Heap.object_put_self s.heap _ _).symm.trans object
    have last : t.sequence_ = s.numCreated + 1 := by rw [← Option.some.inj same]; rfl
    have created := named.created
    omega
  · refine life_congr (s.heap.object_put_of_ne isNew _) ?_ rfl Iff.rfl rfl
    rw [List.mem_append, List.mem_singleton, or_iff_left isNew]

theorem life_add {q : Nat} {now : Timestamp} (inv : Inv s)
    (effect : Effect s (.addTimerInLoop q now) s') :
    s'.life p sequence = s.life p sequence ∨
      Life.step (microseconds interval) repeats .add (s.life p sequence) =
        some (s'.life p sequence) := by
  cases effect with
  | @addTimerInLoop q t now isQueued object =>
      by_cases other : p = q
      · subst other
        by_cases number : t.sequence_ = sequence
        · obtain ⟨nodup, -, apart⟩ := List.nodup_append.mp inv.owned.nodup
          right
          rw [life_of_queued object number isQueued]
          refine congrArg some (Eq.symm (life_of_waiting object number ?_ ?_))
          · exact nodup.not_mem_erase
          · exact fun isCalled => apart p isQueued p isCalled rfl
        · have gone : s.Gone p sequence := by
            intro u found
            rw [object] at found
            exact Option.some.inj found ▸ number
          left
          exact (life_of_gone gone).symm ▸ life_of_gone gone
      · exact .inl (life_congr rfl (List.mem_erase_of_ne other) rfl Iff.rfl rfl)

theorem life_handleRead {now : Timestamp} {fired : Bool} (inv : Inv s)
    (effect : Effect s (.handleRead now fired) s') :
    s'.life p sequence = s.life p sequence ∨
      Life.step (microseconds interval) repeats (.expire now) (s.life p sequence) =
        some (s'.life p sequence) := by
  cases effect with
  | @handleRead _ _ expired timers active idle isExpired =>
      rcases gone_or_object s p sequence with gone | ⟨t, object, number⟩
      · left
        rw [life_of_gone gone]
        exact life_of_gone gone
      · by_cases isQueued : p ∈ s.queued
        · left
          rw [life_of_queued object number isQueued]
          exact life_of_queued object number isQueued
        · have uncalled : p ∉ s.called := by
            rw [State.called, idle]
            exact List.not_mem_nil
          have member := waiting_mem inv object isQueued uncalled
          rw [life_of_waiting object number isQueued uncalled]
          by_cases due : t.expiration_ ≤ now
          · have isCalled : p ∈ expired.map Entry.timer :=
              List.mem_map.mpr ⟨_, (isExpired _).mpr ⟨member, due⟩, rfl⟩
            right
            rw [Life.step, if_pos due]
            refine congrArg some (Eq.symm (life_of_called ?_ number rfl ?_ isCalled ?_ ?_))
            · exact object
            · exact isQueued
            · exact decide_eq_false (not_not_intro isCalled)
            · exact decide_eq_false (SortedSet.not_mem_empty _)
          · left
            refine life_of_waiting object number isQueued ?_
            intro isCalled
            obtain ⟨e, expires, same⟩ := List.mem_map.mp isCalled
            obtain ⟨waits, early⟩ := (isExpired e).mp expires
            rw [inv.owned.entry_unique waits member same] at early
            exact due early

theorem runs_concat (s : State) (sequence : Nat) (run : Run) (batch : Option Batch) :
    State.runs sequence { s with ran := s.ran ++ [run], batch := batch } =
      s.runs sequence ++ if run.sequence = sequence then [run.round] else [] := by
  rw [State.runs, State.runs, State.calls, State.calls, List.filter_append, List.map_append]
  by_cases same : run.sequence = sequence
  · simp [same]
  · simp [same]

/-- The timer at hand is called, and not a second time in what is left. -/
theorem called_once (inv : Inv s) {now : Timestamp} {expired left : List Entry} {e : Entry}
    (running : s.batch = some ⟨now, expired, e :: left⟩) :
    e.timer ∈ expired.map Entry.timer ∧ e.timer ∉ s.queued ∧ e.timer ∉ left.map Entry.timer := by
  have suffix : e :: left <:+ expired := (inv.fits _ running).suffix
  have isCalled : e.timer ∈ expired.map Entry.timer :=
    List.mem_map_of_mem (suffix.subset List.mem_cons_self)
  have owned := inv.owned
  rw [called_of_batch running] at owned
  obtain ⟨-, nodup, apart⟩ := List.nodup_append.mp owned.nodup
  refine ⟨isCalled, fun isQueued => apart _ isQueued _ isCalled rfl, ?_⟩
  have distinct := nodup.sublist (suffix.sublist.map Entry.timer)
  rw [List.map_cons] at distinct
  exact (List.nodup_cons.mp distinct).1

theorem life_run {time : Timestamp} (inv : Inv s) (named : Named p sequence interval repeats s)
    (effect : Effect s (.run time) s') :
    s'.life p sequence = s.life p sequence ∨
      Life.step (microseconds interval) repeats .run (s.life p sequence) =
        some (s'.life p sequence) := by
  cases effect with
  | @run now expired left e t _ running object =>
      have runs := runs_concat s sequence ⟨t.sequence_, now, time⟩ (some ⟨now, expired, left⟩)
      by_cases number : t.sequence_ = sequence
      · -- It is the timer's turn.
        obtain ⟨rfl, -, -⟩ := named.timer e.timer t object number
        obtain ⟨isCalled, unqueued, unrepeated⟩ := called_once inv running
        rw [if_pos number] at runs
        right
        rw [life_of_called object number running unqueued isCalled
          (decide_eq_false (not_not_intro List.mem_cons_self)) rfl]
        refine congrArg some (Eq.symm ((life_of_called ?_ number rfl ?_ isCalled
          (decide_eq_true unrepeated) rfl).trans ?_))
        · exact object
        · exact unqueued
        · rw [runs]
      · rw [if_neg number, List.append_nil] at runs
        left
        rcases gone_or_object s p sequence with gone | ⟨u, object', number'⟩
        · rw [life_of_gone gone, ← runs]
          exact life_of_gone gone
        · have other : p ≠ e.timer := by
            rintro rfl
            rw [object] at object'
            exact number (Option.some.inj object' ▸ number')
          rw [life_of_object object' number', ← runs]
          refine Eq.trans (life_of_object ?_ number') ?_
          · exact object'
          · simp only [State.phase, running, List.map_cons, List.mem_cons, other, false_or]

theorem life_reset {later : Timestamp} (inv : Inv s)
    (named : Named p sequence interval repeats s) (effect : Effect s (.reset later) s') :
    s'.life p sequence = s.life p sequence ∨
      Life.step (microseconds interval) repeats .finish (s.life p sequence) =
        some (s'.life p sequence) := by
  cases effect with
  | @reset now _ expired heap timers active timerfd done objects armed =>
      rcases gone_or_object s p sequence with gone | ⟨t, object, number⟩
      · left
        rw [life_of_gone gone]
        refine life_of_gone ?_
        intro u found
        rw [objects p] at found
        split_ifs at found with isCalled
        · obtain ⟨t, object, -, -, rfl⟩ := of_survivor found
          exact gone t object
        · exact gone u found
      · by_cases isCalled : p ∈ expired.map Entry.timer
        · have unqueued : p ∉ s.queued :=
            unqueued_of_called inv (called_of_batch done ▸ isCalled)
          obtain ⟨-, sameInterval, sameRepeat⟩ := named.timer p t object number
          right
          rw [life_of_called object number done unqueued isCalled
            (decide_eq_true List.not_mem_nil) rfl, Life.step]
          have left : heap.object p =
              if t.repeat_ = true ∧ activeTimer p t.sequence_ ∉ s.cancelingTimers_ then
                some (t.restart now)
              else none := by
            rw [objects p, if_pos isCalled, survivor, object]
          by_cases again : repeats = true ∧ activeTimer p sequence ∉ s.cancelingTimers_
          · rw [if_pos (by rw [sameRepeat, number]; exact again)] at left
            rw [if_pos ⟨again.1, decide_eq_false again.2⟩]
            refine congrArg some (Eq.symm (Eq.trans (life_of_waiting left ?_ unqueued ?_) ?_))
            · rw [Timer.restart_sequence, number]
            · exact List.not_mem_nil
            · rw [Timer.restart, if_pos (by rw [sameRepeat]; exact again.1), sameInterval]
              rfl
          · rw [if_neg (by rw [sameRepeat, number]; exact again)] at left
            rw [if_neg (fun both => again ⟨both.1, of_decide_eq_false both.2⟩)]
            refine congrArg some (Eq.symm (life_of_gone ?_))
            intro u found
            rw [left] at found
            cases found
        · have object' : heap.object p = some t := by
            rw [objects p, if_neg isCalled]
            exact object
          left
          by_cases isQueued : p ∈ s.queued
          · rw [life_of_queued object number isQueued]
            exact life_of_queued object' number isQueued
          · rw [life_of_waiting object number isQueued (called_of_batch done ▸ isCalled)]
            exact life_of_waiting object' number isQueued List.not_mem_nil

/-- **Refinement.**  Every step of the queue is a step in the life of a timer, or none. -/
theorem life_step (inv : Inv s) (named : Named p sequence interval repeats s)
    (effect : Effect s label s') :
    s'.life p sequence = s.life p sequence ∨
      ∃ event, Life.step (microseconds interval) repeats event (s.life p sequence) =
        some (s'.life p sequence) := by
  cases label with
  | create q when interval' => exact .inl (life_create named effect)
  | returns q number =>
      cases effect
      exact .inl rfl
  | addTimerInLoop q now => exact (life_add inv effect).imp_right fun moved => ⟨.add, moved⟩
  | cancelInLoop q number =>
      by_cases own : q = p ∧ number = sequence
      · obtain ⟨rfl, rfl⟩ := own
        exact .inr ⟨.cancel, life_cancel inv effect⟩
      · exact .inl (life_cancel_other inv own effect)
  | handleRead now fired =>
      exact (life_handleRead inv effect).imp_right fun moved => ⟨.expire now, moved⟩
  | run time => exact (life_run inv named effect).imp_right fun moved => ⟨.run, moved⟩
  | reset later => exact (life_reset inv named effect).imp_right fun moved => ⟨.finish, moved⟩

/-- Any event may happen in a life. -/
def anyEvent (_ : Life.Event) (_ : Life) : Prop := True

/-- The queue at work, and an identity of a timer. -/
structure Known (p sequence : Nat) (interval : Float) (repeats : Bool) (s : State) : Prop where
  inv : Inv s
  named : Named p sequence interval repeats s

theorem Known.step (known : Known p sequence interval repeats s)
    (stepped : step label s = some s') : Known p sequence interval repeats s' := by
  obtain ⟨effect, inv⟩ := effect_of_step known.inv stepped
  exact ⟨inv, known.named.effect effect⟩

theorem Known.later {guard : Label → State → Prop} (known : Known p sequence interval repeats s)
    (later : Reachable TimerQueue.step guard s s') : Known p sequence interval repeats s' :=
  Reachable.invariant later known fun _ _ _ known _ stepped => known.step stepped

/-- A run of the queue is a run of the timer's life. -/
theorem Known.life {guard : Label → State → Prop} (known : Known p sequence interval repeats s)
    (later : Reachable TimerQueue.step guard s s') :
    Reachable (Life.step (microseconds interval) repeats) anyEvent (s.life p sequence)
      (s'.life p sequence) := by
  refine Reachable.simulates later known ?_ ?_
  · exact fun _ _ _ known _ stepped => known.step stepped
  · intro label s s' known _ stepped
    obtain ⟨effect, -⟩ := effect_of_step known.inv stepped
    refine (life_step known.inv known.named effect).imp_right ?_
    rintro ⟨event, moved⟩
    exact ⟨event, trivial, moved⟩

/-- A timer begins its life. -/
theorem known_of_create {when : Timestamp} (inv : Inv s)
    (created : step (.create p when interval) s = some s') :
    Known p (s.numCreated + 1) interval (decide (0 < interval)) s' ∧
      s'.life p (s.numCreated + 1) = ⟨.queued, when, []⟩ := by
  have none : s.runs (s.numCreated + 1) = [] := by
    rw [State.runs, List.map_eq_nil_iff, State.calls, List.filter_eq_nil_iff]
    intro run member isNew
    have old := inv.ran run member
    rw [of_decide_eq_true isNew] at old
    omega
  rw [← none]
  obtain ⟨effect, inv'⟩ := effect_of_step inv created
  cases effect
  refine ⟨⟨inv', le_rfl, ?_⟩, ?_⟩
  · intro q t object number
    by_cases isNew : q = p
    · subst isNew
      rw [Heap.object_put_self] at object
      obtain rfl := Option.some.inj object
      exact ⟨rfl, rfl, rfl⟩
    · rw [s.heap.object_put_of_ne isNew] at object
      have old := inv.owned.numbered.le q t object
      omega
  · refine life_of_queued (t := .construct when interval (s.numCreated + 1)) ?_ rfl ?_
    · exact Heap.object_put_self _ _ _
    · exact List.mem_append_right _ (List.mem_singleton_self _)

theorem life_runs (s : State) (p sequence : Nat) : (s.life p sequence).runs = s.runs sequence := by
  rw [State.life]
  split
  · split_ifs <;> rfl
  · rfl

/-! ## What holds of every run -/

/-- No timer is run at an earlier time than its round began. -/
def forward : Label → State → Prop
  | .run time, s => ∀ batch ∈ s.batch, batch.now ≤ time
  | _, _ => True

instance : (label : Label) → (s : State) → Decidable (forward label s)
  | .run time, s => inferInstanceAs (Decidable (∀ batch ∈ s.batch, batch.now ≤ time))
  | .create _ _ _, _ => inferInstanceAs (Decidable True)
  | .addTimerInLoop _ _, _ => inferInstanceAs (Decidable True)
  | .returns _ _, _ => inferInstanceAs (Decidable True)
  | .cancelInLoop _ _, _ => inferInstanceAs (Decidable True)
  | .handleRead _ _, _ => inferInstanceAs (Decidable True)
  | .reset _, _ => inferInstanceAs (Decidable True)

/-- What was called was called after its round began. -/
structure InOrder (s : State) : Prop where
  inv : Inv s
  round_le : ∀ run ∈ s.ran, run.round ≤ run.time

theorem InOrder.step (inOrder : InOrder s) (isForward : forward label s)
    (stepped : step label s = some s') : InOrder s' := by
  obtain ⟨effect, inv⟩ := effect_of_step inOrder.inv stepped
  refine ⟨inv, ?_⟩
  cases effect with
  | run time running object =>
      intro run member
      rcases List.mem_append.mp member with earlier | last
      · exact inOrder.round_le run earlier
      · rw [List.mem_singleton.mp last]
        exact isForward _ running
  | create => exact inOrder.round_le
  | addTimerInLoop => exact inOrder.round_le
  | returns => exact inOrder.round_le
  | cancelActive => exact inOrder.round_le
  | cancelInactive => exact inOrder.round_le
  | handleRead => exact inOrder.round_le
  | reset => exact inOrder.round_le

section Runs

variable {s₀ s₁ s₂ : State} {when : Timestamp}

/-- Two timers are due together. The first takes 10 seconds, so the second, which repeats
every 5 seconds, is run after 10 seconds and a moment later again. -/
example : ((execute step
    [.create 7 1000000 0, .addTimerInLoop 7 1, .create 8 1000000 5, .addTimerInLoop 8 1,
      .handleRead 1000000 true, .run 1000000, .run 11000000, .reset 11000000,
      .handleRead 11000100 true, .run 11000100]
    State.initial).map fun s => (s.calls 2).map Run.time) = some [11000000, 11000100] := by
  decide +kernel

/-- **Cancelling.**  A timer that was entered into the sets and is then cancelled in the
loop is not run again, unless it is one of those that `handleRead` has taken out and not
yet run; then it is run this once. -/
theorem cancelled_timers_stay_quiet (reachable : Reachable step anyStep State.initial s₀)
    (created : step (.create p when interval) s₀ = some s₁)
    (before : Reachable step anyStep s₁ s)
    (entered : (s.life p (s₀.numCreated + 1)).phase ≠ .queued)
    (cancelled : step (.cancelInLoop p (s₀.numCreated + 1)) s = some s')
    (later : Reachable step anyStep s' s₂) :
    s₂.runs (s₀.numCreated + 1) = s.runs (s₀.numCreated + 1) ∨
      ∃ now noted,
        (s.life p (s₀.numCreated + 1)).phase = .called now false noted ∧
        (s₂.runs (s₀.numCreated + 1) = s.runs (s₀.numCreated + 1) ∨
          s₂.runs (s₀.numCreated + 1) = s.runs (s₀.numCreated + 1) ++ [now]) := by
  obtain ⟨known, -⟩ := known_of_create (Inv.reachable reachable) created
  have known := known.later before
  obtain ⟨effect, -⟩ := effect_of_step known.inv cancelled
  have life := (known.step cancelled).life later
  have stops : Life.step (microseconds interval) (decide (0 < interval)) .cancel _ = some _ :=
    life_cancel known.inv effect
  rw [← life_runs s p, ← life_runs s₂ p]
  rcases Life.over_of_cancel stops entered with ended | ⟨now, noted, isCalled, ending⟩
  · left
    exact (Reachable.invariant life ended fun _ _ _ ended _ stepped => ended.step stepped).1
  · right
    refine ⟨now, noted, isCalled, ?_⟩
    have last := Reachable.invariant life ending fun _ _ _ ending _ stepped => ending.step stepped
    exact last.imp And.left And.left

/-- Two timers are due, and the one that is run first cancels the other. -/
def cancelDue : List Label :=
  [.addTimerInLoop 7 1, .create 3 9 0, .addTimerInLoop 3 2, .handleRead 12 true, .run 12]

/-- The rest of this round, and another one. -/
def afterCancel : List Label := [.run 13, .reset 14, .handleRead 30 true, .reset 31]

theorem cancelled_timers_stay_quiet_due :
    ∃ s₁ s s' s₂, step (.create 7 10 0.000005) State.initial = some s₁ ∧
      execute step cancelDue s₁ = some s ∧ step (.cancelInLoop 7 1) s = some s' ∧
      execute step afterCancel s' = some s₂ ∧ s₂.runs 1 = [12] ∧
      (s₂.runs 1 = s.runs 1 ∨
        ∃ now noted, (s.life 7 1).phase = .called now false noted ∧
          (s₂.runs 1 = s.runs 1 ∨ s₂.runs 1 = s.runs 1 ++ [now])) := by
  have start : (step (.create 7 10 0.000005) State.initial).isSome = true := by decide +kernel
  obtain ⟨s₁, created⟩ := Option.isSome_iff_exists.mp start
  have middle : ((step (.create 7 10 0.000005) State.initial).bind
      (execute step cancelDue)).map (fun s => (s.life 7 1).phase) =
        some (.called 12 false false) := by decide +kernel
  have ends : (((step (.create 7 10 0.000005) State.initial).bind
      (execute step cancelDue)).bind fun s =>
        (step (.cancelInLoop 7 1) s).bind (execute step afterCancel)).map
            (State.runs 1) = some [12] := by decide +kernel
  rw [created, Option.bind_some] at middle ends
  obtain ⟨s, executed, before, isCalled⟩ := Reachable.exists_of_execute anyStep middle
    (Guarded.of_forall (fun _ _ => trivial) _ _)
  rw [executed, Option.bind_some] at ends
  obtain ⟨s₂, both, runs⟩ := Option.map_eq_some_iff.mp ends
  obtain ⟨s', cancelled, executed'⟩ := Option.bind_eq_some_iff.mp both
  have later := Reachable.of_execute executed' (Guarded.of_forall (fun _ _ => trivial) _ _)
  have entered : (s.life 7 1).phase ≠ .queued := by
    rw [isCalled]
    exact Phase.noConfusion
  exact ⟨s₁, s, s', s₂, created, executed, cancelled, executed', runs,
    cancelled_timers_stay_quiet .refl created before entered cancelled later⟩

/-- A cancel that overtakes `addTimerInLoop` is lost. -/
example : ((execute step
    [.create 7 10 0, .cancelInLoop 7 1, .addTimerInLoop 7 1, .handleRead 12 true, .run 12]
    State.initial).map (State.runs 1)) = some [12] := by decide +kernel

end Runs

/-! ## The descriptor -/

/-- Times are after the epoch, and no interval becomes a negative number of
microseconds. -/
def validTimes : Label → State → Prop
  | .create _ when interval, _ => 0 < when ∧ 0 ≤ microseconds interval
  | .handleRead now _, _ => 0 < now
  | _, _ => True

instance : (label : Label) → (s : State) → Decidable (validTimes label s)
  | .create _ when interval, _ =>
      inferInstanceAs (Decidable (0 < when ∧ 0 ≤ microseconds interval))
  | .handleRead now _, _ => inferInstanceAs (Decidable (0 < now))
  | .addTimerInLoop _ _, _ => inferInstanceAs (Decidable True)
  | .returns _ _, _ => inferInstanceAs (Decidable True)
  | .cancelInLoop _ _, _ => inferInstanceAs (Decidable True)
  | .run _, _ => inferInstanceAs (Decidable True)
  | .reset _, _ => inferInstanceAs (Decidable True)

/-- The descriptor becomes readable by the given time, or 100 microseconds after it was
set. -/
def Alarm.InTime (alarm : Alarm) (when : Timestamp) : Prop :=
  alarm.expires ≤ max when (alarm.set + 100)

instance (alarm : Alarm) (when : Timestamp) : Decidable (alarm.InTime when) :=
  inferInstanceAs (Decidable (_ ≤ _))

theorem Alarm.InTime.mono {alarm : Alarm} {when other : Timestamp} (inTime : alarm.InTime when)
    (le : when ≤ other) : alarm.InTime other :=
  le_trans inTime (max_le_max_right _ le)

/-- `resetTimerfd` sets it so. -/
theorem inTime_of_reset (when now : Timestamp) :
    Alarm.InTime ⟨now, now + howMuchTimeFromNow when now⟩ when := by
  unfold Alarm.InTime howMuchTimeFromNow
  grind

structure Armed (s : State) : Prop where
  inv : Inv s
  valid : ∀ p t, s.heap.object p = some t → 0 < t.expiration_ ∧ 0 ≤ microseconds t.interval_
  now : ∀ batch ∈ s.batch, 0 < batch.now
  alarm : s.batch = none → ∀ e ∈ s.timers_, ∃ alarm ∈ s.timerfd_, alarm.InTime e.when

theorem Armed.initial : Armed State.initial where
  inv := Inv.initial
  valid := nofun
  now := nofun
  alarm := fun _ e member => absurd member (SortedSet.not_mem_empty e)

/-- An entry is earlier than another when its time is, or it is as early. -/
theorem Entry.when_le {e e' : Entry} (le : e ≤ e') : e.when ≤ e'.when := by
  rcases Prod.Lex.le_iff.mp le with earlier | ⟨same, -⟩
  · exact earlier.le
  · exact same.le

theorem Armed.valid_effect (armed : Armed s) (times : validTimes label s)
    (effect : Effect s label s') :
    ∀ p t, s'.heap.object p = some t → 0 < t.expiration_ ∧ 0 ≤ microseconds t.interval_ := by
  cases effect with
  | @create p when interval dead =>
      intro q t object
      by_cases isNew : q = p
      · subst isNew
        rw [Heap.object_put_self] at object
        rw [← Option.some.inj object]
        exact times
      · rw [s.heap.object_put_of_ne isNew] at object
        exact armed.valid q t object
  | cancelActive isActive object =>
      intro q t found
      rw [object, Function.update_apply] at found
      split_ifs at found
      exact armed.valid q t found
  | reset active done objects _ =>
      intro q u found
      rw [objects q] at found
      split_ifs at found with isCalled
      · obtain ⟨t, object, -, -, rfl⟩ := of_survivor found
        have positive := armed.now _ done
        have interval := (armed.valid q t object).2
        exact ⟨Int.add_pos_of_pos_of_nonneg positive interval, interval⟩
      · exact armed.valid q u found
  | addTimerInLoop => exact armed.valid
  | returns => exact armed.valid
  | cancelInactive => exact armed.valid
  | handleRead => exact armed.valid
  | run => exact armed.valid

theorem Armed.now_effect (armed : Armed s) (times : validTimes label s)
    (effect : Effect s label s') : ∀ batch ∈ s'.batch, 0 < batch.now := by
  cases effect with
  | handleRead =>
      intro batch found
      rw [← Option.mem_some_iff.mp found]
      exact times
  | run time running =>
      intro batch found
      have positive := armed.now _ running
      rw [← Option.mem_some_iff.mp found]
      exact positive
  | reset => exact nofun
  | create => exact armed.now
  | addTimerInLoop => exact armed.now
  | returns => exact armed.now
  | cancelActive => exact armed.now
  | cancelInactive => exact armed.now

/-- A timer that is entered sets the descriptor if it is the first. -/
theorem Armed.alarm_insert (armed : Armed s) (idle : s.batch = none) {t : Timer} {e : Entry}
    (now : Timestamp) (member : e ∈ (s.enter p t).timers_) :
    ∃ alarm ∈ s.alarmAfter t now, alarm.InTime e.when := by
  have set := inTime_of_reset t.expiration_ now
  rw [State.alarmAfter, earliestChanged]
  cases isFirst : s.timers_.first with
  | none =>
      rcases SortedSet.mem_insert.mp member with rfl | before
      · exact ⟨_, rfl, set⟩
      · exact absurd before (SortedSet.first_eq_none.mp isFirst e)
  | some it =>
      have first : ∀ e ∈ s.timers_, it.when ≤ e.when := fun e before =>
        Entry.when_le (SortedSet.first_le isFirst before)
      by_cases earlier : t.expiration_ < it.when
      · rw [if_pos (decide_eq_true earlier)]
        refine ⟨_, rfl, set.mono ?_⟩
        rcases SortedSet.mem_insert.mp member with rfl | before
        · exact le_rfl
        · exact earlier.le.trans (first e before)
      · rw [if_neg (by simpa using earlier)]
        obtain ⟨alarm, isSet, inTime⟩ := armed.alarm idle it (SortedSet.first_mem isFirst)
        refine ⟨alarm, isSet, inTime.mono ?_⟩
        rcases SortedSet.mem_insert.mp member with rfl | before
        · exact not_lt.mp earlier
        · exact first e before

theorem Armed.alarm_effect (armed : Armed s) (inv : Inv s')
    (valid : ∀ p t, s'.heap.object p = some t → 0 < t.expiration_ ∧ 0 ≤ microseconds t.interval_)
    (effect : Effect s label s') :
    s'.batch = none → ∀ e ∈ s'.timers_, ∃ alarm ∈ s'.timerfd_, alarm.InTime e.when := by
  cases effect with
  | addTimerInLoop now => exact fun idle e member => armed.alarm_insert idle now member
  | returns => exact armed.alarm
  | cancelActive isActive object =>
      intro idle e member
      obtain ⟨unlisted, t, found, isEntry⟩ := (inv.owned.mem_iff e).mp member
      rw [object, Function.update_apply] at found
      split_ifs at found
      exact armed.alarm idle e ((armed.inv.owned.mem_iff e).mpr ⟨unlisted, t, found, isEntry⟩)
  | @reset _ later _ _ timers _ _ done objects isArmed =>
      intro _ e member
      cases isFirst : timers.first with
      | none => exact absurd member (SortedSet.first_eq_none.mp isFirst e)
      | some it =>
          obtain ⟨t, object, isEntry⟩ := inv.owned.waiting it (SortedSet.first_mem isFirst)
          have positive : 0 < it.when := by
            rw [isEntry]
            exact (valid _ t object).1
          have earliest := Entry.when_le (SortedSet.first_le isFirst member)
          exact ⟨_, isArmed it isFirst positive, (inTime_of_reset it.when later).mono earliest⟩
  | handleRead => exact nofun
  | run => exact nofun
  | create => exact armed.alarm
  | cancelInactive => exact armed.alarm

theorem Armed.step (armed : Armed s) (times : validTimes label s)
    (stepped : step label s = some s') : Armed s' := by
  obtain ⟨effect, inv⟩ := effect_of_step armed.inv stepped
  have valid := armed.valid_effect times effect
  exact ⟨inv, valid, armed.now_effect times effect, armed.alarm_effect inv valid effect⟩

end AirNet.Muduo.TimerQueue
