import AirNet.Base.RWLockQueueCalls

/-!
# One consumer of the queue

A queue from which one thread removes elements is not linearizable for that
reason alone: while another thread is in `empty`, the queue may change so that
the ends it loads meet, although there is an element all the time
(`empty_never_empty`). It is linearizable when the other threads only put
(`one_consumer_linearizable`): the calls took effect one after the other, and
each returned what a queue that only one thread uses returns in this order.

The assertion in `take` needs less. Other threads may ask as well; the one that
removes elements meets the assertion when its last `size` counted more elements
than it has taken since (`checked_takes_find_element`).
-/

set_option autoImplicit false

namespace AirNet.Base

open AirNet.Lib

namespace RWLockQueue

namespace Calls

variable {ι T : Type} [DecidableEq ι]

/-! ## What a thread sees -/

/-- The call that has taken effect and not returned, with what it is going to
return as long as the front stays. -/
def Pc.pending (start : Nat) : Pc T → Option (Call T × Ret T)
  | .performed call ret => some (call, ret)
  | .loaded query .finish end_ => some (query.call, query.answer start end_)
  | _ => none

omit [DecidableEq ι] in
def State.pending (s : State ι T) (t : ι) : Option (Call T × Ret T) :=
  (s.pc t).pending s.start

/-- The history is about what the thread saw, and the front that it has loaded is
still the front. -/
structure Sees (s : State ι T) (u : ι) : Prop where
  seen : Seen u s.log s.returned (s.pending u)
  loaded : ∀ query end_, s.pc u = .loaded query .start end_ → end_ = s.start

namespace Sees

variable {s s' : State ι T} {t u : ι}

theorem initial : Sees (State.initial ι T) u where
  seen := rfl
  loaded := by
    intro query end_ at_
    cases at_

/-- Another thread moves the ends only while this one has loaded none. -/
theorem of_other (sees : Sees s u) (pc : s'.pc u = s.pc u)
    (seen : Seen u s'.log s'.returned (s.pending u))
    (still : s'.start = s.start ∨ ∀ query side end_, s.pc u ≠ .loaded query side end_) :
    Sees s' u := by
  rcases still with start | notLoaded
  · refine ⟨?_, ?_⟩
    · rw [State.pending, pc, start]
      exact seen
    · rw [pc, start]
      exact sees.loaded
  · refine ⟨?_, ?_⟩
    · have same : s'.pending u = s.pending u := by
        rw [State.pending, State.pending, pc]
        cases at_ : s.pc u with
        | loaded query side end_ => exact absurd at_ (notLoaded query side end_)
        | _ => rfl
      rw [same]
      exact seen
    · rw [pc]
      exact fun query end_ at_ => absurd at_ (notLoaded query .start end_)

/-- The thread goes on to a place where it has loaded no front. -/
theorem of_own {p : Pc T} (pc : s'.pc u = p)
    (seen : Seen u s'.log s'.returned (p.pending s'.start))
    (notLoaded : ∀ query end_, p ≠ .loaded query .start end_) : Sees s' u where
  seen := by
    rw [State.pending, pc]
    exact seen
  loaded := by
    rw [pc]
    exact fun query end_ at_ => absurd at_ (notLoaded query end_)

/-- The thread has nothing to return. -/
theorem seen_of_free (sees : Sees s u) (free : s.pending u = none) :
    Seen u s.log s.returned none := by
  rw [← free]
  exact sees.seen

theorem load (sees : Sees s u) (free : s.pending u = none) (query : Query) (side : Side) :
    Sees (s.load u query side) u := by
  have before := sees.seen_of_free free
  cases side with
  | start =>
      refine ⟨?_, ?_⟩
      · simp only [State.load, State.pending, Function.update_self, State.effect, List.append_nil]
        exact before
      · intro query' end_ at_
        simp only [State.load, Function.update_self, Pc.loaded.injEq] at at_
        exact at_.2.2.symm
  | finish => exact of_own (Function.update_self ..) before.effect (by simp)

/-- Both ends were loaded with the front where it still is. -/
theorem compare (sees : Sees s u) {query : Query} {side : Side} {end_ : Nat}
    (at_ : s.pc u = .loaded query side end_) :
    Sees { s with
      pc := Function.update s.pc u (.performed query.call (s.answer query end_ side))
      log := s.log ++ s.effect u query side.other } u := by
  refine of_own (Function.update_self ..) ?_ (by simp)
  cases side with
  | start =>
      have free : s.pending u = none := by
        rw [State.pending, at_]
        rfl
      rw [sees.loaded query end_ at_]
      exact (sees.seen_of_free free).effect
  | finish =>
      have pending : s.pending u = some (query.call, query.answer s.start end_) := by
        rw [State.pending, at_]
        rfl
      have before := sees.seen
      rw [pending] at before
      simp only [Side.other, State.effect, List.append_nil]
      exact before

/-- What a thread does keeps what it sees. -/
theorem own {action : Action T} (sees : Sees s u) (moved : Move s (u, action) s') : Sees s' u := by
  have free {p : Pc T} (at_ : s.pc u = p) (none : p.pending s.start = none) :
      Seen u s.log s.returned Option.none := by
    refine sees.seen_of_free ?_
    rw [State.pending, at_, none]
  cases moved with
  | lock idle locked => exact of_own (Function.update_self ..) (free idle rfl) (by simp)
  | front at_ queue => exact of_own (Function.update_self ..) (free at_ rfl) (by simp)
  | access at_ accessed =>
      exact of_own (Function.update_self ..) (free at_ rfl).effect (by simp)
  | popFront at_ queue => exact of_own (Function.update_self ..) (free at_ rfl).effect (by simp)
  | load at_ => exact sees.load (by rw [State.pending, at_]; rfl) .size _
  | empty idle => exact sees.load (by rw [State.pending, idle]; rfl) .empty _
  | compare at_ => exact sees.compare at_
  | unlock at_ =>
      have before := sees.seen
      rw [State.pending, at_] at before
      exact of_own (Function.update_self ..) before.deliver (by simp)

/-- The queries of another thread are not in what this one sees. -/
theorem effect_of_ne {pending : Option (Call T × Ret T)}
    (seen : Seen u s.log s.returned pending) (other : u ≠ t) (query : Query) (side : Side) :
    Seen u (s.log ++ s.effect t query side) s.returned pending := by
  cases side with
  | start =>
      rw [State.effect, List.append_nil]
      exact seen
  | finish => exact seen.effect_of_ne other

/-- What another thread does keeps it while the front stays. -/
theorem other {action : Action T} (sees : Sees s u) (different : u ≠ t)
    (moved : Move s (t, action) s')
    (still : s'.start = s.start ∨ ∀ query side end_, s.pc u ≠ .loaded query side end_) :
    Sees s' u := by
  have seen := sees.seen
  refine sees.of_other ?_ ?_ still
  · cases moved <;> exact Function.update_of_ne different _ _
  · cases moved with
    | lock => exact seen
    | front => exact seen
    | access => exact seen.effect_of_ne different
    | popFront => exact seen.effect_of_ne different
    | load => exact effect_of_ne seen different _ _
    | empty => exact effect_of_ne seen different _ _
    | compare => exact effect_of_ne seen different _ _
    | unlock => exact seen.deliver_of_ne different

end Sees

/-! ## One consumer -/

/-- Some calls are made by one thread only. -/
def Reserved (reserved : Call T → Bool) (consumer : ι) (label : ι × Action T)
    (_ : State ι T) : Prop :=
  ∀ call ∈ label.2.begins, reserved call = true → label.1 = consumer

instance (reserved : Call T → Bool) (consumer : ι) (label : ι × Action T) (s : State ι T) :
    Decidable (Reserved reserved consumer label s) :=
  inferInstanceAs (Decidable (∀ call ∈ label.2.begins, _ → _))

/-- One thread makes all calls that remove elements. -/
abbrev OneConsumer (consumer : ι) : ι × Action T → State ι T → Prop :=
  Reserved Call.removes consumer

/-- The deque is accessed as one thread would. -/
theorem apply_of_access {call : Call T} {queue queue' : List T} {ret : Ret T}
    (accessed : call.access queue = some (ret, queue')) :
    (fifo T).apply call queue = some (ret, queue') := by
  cases call with
  | insert call => cases call <;> exact accessed
  | take => cases accessed
  | size => cases accessed
  | empty => cases accessed
  | _ => exact accessed

/-- The ends of the deque tell how many elements it has. -/
theorem apply_of_query (query : Query) (queue : List T) (start : Nat) :
    (fifo T).apply query.call queue =
      some (query.answer start (start + queue.length), queue) := by
  cases query with
  | size =>
      have number : ((start + queue.length : Nat) : Int) - start = queue.length := by omega
      simp only [Query.answer, number]
      rfl
  | empty =>
      have flag : decide (start + queue.length = start) = queue.isEmpty := by
        cases queue with
        | nil => simp
        | cons => simp
      simp only [Query.answer, flag]
      rfl

omit [DecidableEq ι] in
theorem legal_effect {s : State ι T} (legal : Legal (fifo T) s.log s.queue_) (t : ι)
    (query : Query) (side : Side) :
    Legal (fifo T) (s.log ++ s.effect t query side) s.queue_ := by
  cases side with
  | start =>
      rw [State.effect, List.append_nil]
      exact legal
  | finish => exact legal.snoc (apply_of_query query s.queue_ s.start)

/-- An access that removes nothing keeps what is there. -/
theorem prefix_of_access {call : Call T} {queue queue' : List T} {ret : Ret T}
    (accessed : call.access queue = some (ret, queue')) (keeps : call.removes = false) :
    queue <+: queue' := by
  cases call with
  | insert call =>
      cases call with
      | put x =>
          obtain ⟨-, rfl⟩ := Prod.mk.inj (Option.some.inj accessed)
          exact List.prefix_append queue [x]
      | putAll dataQueue =>
          obtain ⟨-, rfl⟩ := Prod.mk.inj (Option.some.inj accessed)
          exact List.prefix_append queue dataQueue
  | size => cases accessed
  | empty => cases accessed
  | _ => cases keeps

/-- The history is legal. The threads in reserved calls are the consumer, and what
it has copied is still in front. -/
structure Alone (reserved : Call T → Bool) (consumer : ι) (s : State ι T) : Prop where
  legal : Legal (fifo T) s.log s.queue_
  holding : ∀ t call, s.pc t = .holding call → reserved call = true → t = consumer
  loaded : ∀ t query side end_, s.pc t = .loaded query side end_ →
    reserved query.call = true → t = consumer
  copied : ∀ t front, s.pc t = .copied front → t = consumer ∧ ∃ rest, s.queue_ = front :: rest

namespace Alone

variable {reserved : Call T → Bool} {consumer : ι} {s s' : State ι T} {label : ι × Action T}
  {t : ι}

omit [DecidableEq ι] in
theorem initial : Alone reserved consumer (State.initial ι T) where
  legal := .nil
  holding := by
    intro t call at_
    cases at_
  loaded := by
    intro t query side end_ at_
    cases at_
  copied := by
    intro t front at_
    cases at_

/-- A thread goes on, and the front that another has copied stays. -/
theorem goto (alone : Alone reserved consumer s) {p : Pc T}
    (pc : s'.pc = Function.update s.pc t p) (legal : Legal (fifo T) s'.log s'.queue_)
    (holding : ∀ call, p = .holding call → reserved call = true → t = consumer)
    (loaded : ∀ query side end_, p = .loaded query side end_ →
      reserved query.call = true → t = consumer)
    (copied : ∀ front, p = .copied front → t = consumer ∧ ∃ rest, s'.queue_ = front :: rest)
    (kept : ∀ u front rest, u ≠ t → s.pc u = .copied front → s.queue_ = front :: rest →
      ∃ rest, s'.queue_ = front :: rest) : Alone reserved consumer s' where
  legal := legal
  holding := by
    intro u call at_
    rw [pc] at at_
    by_cases same : u = t
    · subst same
      rw [Function.update_self] at at_
      exact holding call at_
    · rw [Function.update_of_ne same] at at_
      exact alone.holding u call at_
  loaded := by
    intro u query side end_ at_
    rw [pc] at at_
    by_cases same : u = t
    · subst same
      rw [Function.update_self] at at_
      exact loaded query side end_ at_
    · rw [Function.update_of_ne same] at at_
      exact alone.loaded u query side end_ at_
  copied := by
    intro u front at_
    rw [pc] at at_
    by_cases same : u = t
    · subst same
      rw [Function.update_self] at at_
      exact copied front at_
    · rw [Function.update_of_ne same] at at_
      obtain ⟨isConsumer, rest, queue⟩ := alone.copied u front at_
      exact ⟨isConsumer, kept u front rest same at_ queue⟩

theorem access (removers : ∀ call : Call T, call.removes = true → reserved call = true)
    (alone : Alone reserved consumer s) {call : Call T} {ret : Ret T} {queue : List T}
    {start : Nat} (at_ : s.pc t = .holding call)
    (accessed : call.access s.queue_ = some (ret, queue)) :
    Alone reserved consumer
      { s with
        queue_ := queue
        start := start
        pc := Function.update s.pc t (.performed call ret)
        log := s.log ++ [⟨t, call, ret⟩] } := by
  refine alone.goto rfl (alone.legal.snoc (apply_of_access accessed)) (by simp) (by simp)
    (by simp) ?_
  intro u front rest different isCopied inFront
  -- the consumer is in `take`, so this thread removes nothing
  have keeps : call.removes = false := by
    by_contra removes
    have isReserved := removers call (Bool.eq_true_of_not_eq_false removes)
    exact different ((alone.copied u front isCopied).1.trans
      (alone.holding t call at_ isReserved).symm)
  obtain ⟨more, rfl⟩ := prefix_of_access accessed keeps
  exact ⟨rest ++ more, by rw [inFront, List.cons_append]⟩

theorem popFront (alone : Alone reserved consumer s) {front first : T} {rest : List T}
    {start : Nat} (at_ : s.pc t = .copied front) (queue : s.queue_ = first :: rest) :
    Alone reserved consumer
      { s with
        queue_ := rest
        start := start
        pc := Function.update s.pc t (.performed .take (.element front))
        log := s.log ++ [⟨t, .take, .element front⟩] } := by
  obtain ⟨isConsumer, rest', inFront⟩ := alone.copied t front at_
  rw [queue] at inFront
  obtain ⟨rfl, rfl⟩ := List.cons.inj inFront
  have applied : (fifo T).apply .take s.queue_ = some (.element first, rest) := by
    rw [queue]
    rfl
  refine alone.goto rfl (alone.legal.snoc applied) (by simp) (by simp) (by simp) ?_
  intro u other _ different isCopied
  exact absurd ((alone.copied u other isCopied).1.trans isConsumer.symm) different

theorem load (alone : Alone reserved consumer s) {query : Query} {side : Side}
    (allowed : reserved query.call = true → t = consumer) :
    Alone reserved consumer (s.load t query side) := by
  refine alone.goto rfl (legal_effect alone.legal t query side) (by simp) ?_ (by simp)
    fun u front rest _ _ queue => ⟨rest, queue⟩
  intro query' side' end_ same
  obtain ⟨rfl, -⟩ := Pc.loaded.inj same
  exact allowed

theorem move (removers : ∀ call : Call T, call.removes = true → reserved call = true)
    (alone : Alone reserved consumer s) (admitted : Reserved reserved consumer label s)
    (moved : Move s label s') : Alone reserved consumer s' := by
  cases moved with
  | @lock t call l idle locked =>
      refine alone.goto rfl alone.legal ?_ (by simp) (by simp)
        fun u front rest _ _ queue => ⟨rest, queue⟩
      rintro _ ⟨rfl⟩
      exact admitted call rfl
  | @front t front rest at_ queue =>
      refine alone.goto rfl alone.legal (by simp) (by simp) ?_
        fun u front rest _ _ queue => ⟨rest, queue⟩
      rintro _ ⟨rfl⟩
      exact ⟨alone.holding t .take at_ (removers .take rfl), rest, queue⟩
  | access at_ accessed => exact alone.access removers at_ accessed
  | popFront at_ queue => exact alone.popFront at_ queue
  | load at_ => exact alone.load (alone.holding _ .size at_)
  | empty => exact alone.load (admitted .empty rfl)
  | compare =>
      exact alone.goto rfl (legal_effect alone.legal _ _ _) (by simp) (by simp) (by simp)
        fun u front rest _ _ queue => ⟨rest, queue⟩
  | unlock =>
      exact alone.goto rfl alone.legal (by simp) (by simp) (by simp)
        fun u front rest _ _ queue => ⟨rest, queue⟩

/-- Another thread removes nothing, so the front stays. -/
theorem kept_by_other (removers : ∀ call : Call T, call.removes = true → reserved call = true)
    (alone : Alone reserved consumer s) {action : Action T} (other : t ≠ consumer)
    (moved : Move s (t, action) s') : s'.start = s.start ∧ s.queue_ <+: s'.queue_ := by
  cases moved with
  | @access _ call ret queue start at_ accessed =>
      have keeps : call.removes = false := by
        by_contra removes
        exact other (alone.holding t call at_
          (removers call (Bool.eq_true_of_not_eq_false removes)))
      refine ⟨?_, prefix_of_access accessed keeps⟩
      dsimp only
      rw [keeps]
      rfl
  | popFront at_ queue => exact absurd (alone.copied t _ at_).1 other
  | _ => exact ⟨rfl, List.prefix_refl _⟩

/-- The consumer sees what the history says. So does every thread when queries are
reserved. -/
theorem sees (removers : ∀ call : Call T, call.removes = true → reserved call = true)
    (alone : Alone reserved consumer s) {u : ι}
    (observer : u = consumer ∨ ∀ query : Query, reserved query.call = true)
    (sees : Sees s u) (moved : Move s label s') : Sees s' u := by
  obtain ⟨t, action⟩ := label
  by_cases own : u = t
  · subst own
    exact sees.own moved
  · refine sees.other own moved ?_
    by_cases isConsumer : t = consumer
    · refine .inr fun query side end_ at_ => own ?_
      rcases observer with rfl | queries
      · exact isConsumer.symm
      · exact (alone.loaded u query side end_ at_ (queries query)).trans isConsumer.symm
    · exact .inl (alone.kept_by_other removers isConsumer moved).1

end Alone

/-- The call is `put` or `putAll`. -/
def Call.isInsert : Call T → Bool
  | .insert _ => true
  | _ => false

/-- The other threads only put. -/
abbrev OthersPut (consumer : ι) : ι × Action T → State ι T → Prop :=
  Reserved (fun call => !call.isInsert) consumer

/-- What holds while the other threads only put. -/
structure Orderly (consumer : ι) (s : State ι T) : Prop where
  alone : Alone (fun call => !call.isInsert) consumer s
  sees : ∀ t, Sees s t

theorem Orderly.initial {consumer : ι} : Orderly consumer (State.initial ι T) :=
  ⟨.initial, fun _ => .initial⟩

theorem Orderly.move {consumer : ι} {s s' : State ι T} {label : ι × Action T}
    (orderly : Orderly consumer s) (admitted : OthersPut consumer label s)
    (moved : Move s label s') : Orderly consumer s' := by
  have removers (call : Call T) (removes : call.removes = true) : (!call.isInsert) = true := by
    cases call with
    | insert => cases removes
    | _ => rfl
  have queries (query : Query) : (!(query.call : Call T).isInsert) = true := by
    cases query <;> rfl
  exact ⟨orderly.alone.move removers admitted moved,
    fun t => orderly.alone.sees removers (.inr queries) (orderly.sees t) moved⟩

/-- Two elements are put, counted and taken while a third is put and the consumer
asks whether there is one. -/
def countAndTake : List (Bool × Action ℕ) :=
  [(true, .lock (.insert (.putAll [1, 2]))), (true, .access 0), (true, .unlock),
    (false, .lock .size), (false, .load .start), (false, .compare), (false, .unlock),
    (false, .lock .take), (false, .front), (false, .popFront), (false, .unlock),
    (false, .empty .finish), (true, .lock (.insert (.put 3))), (true, .access 0),
    (true, .unlock), (false, .compare), (false, .unlock), (false, .lock .take), (false, .front)]

/-- A thread has put an element. -/
def oneElement : List (ℕ × Action ℕ) :=
  [(1, .lock (.insert (.put 7))), (1, .access 0), (1, .unlock)]

/-- While a third thread asks whether the queue is empty, another element is put and
the first is taken. -/
def askMeanwhile : List (ℕ × Action ℕ) :=
  [(2, .empty .finish), (1, .lock (.insert (.put 8))), (1, .access 0), (1, .unlock),
    (0, .lock .take), (0, .front), (0, .popFront), (0, .unlock), (2, .compare), (2, .unlock)]

/-- **A queue that is never empty may be reported empty.**  One thread takes and
another asks: its call returns true, and from its beginning to its end the queue
holds an element. -/
theorem empty_never_empty :
    ∃ s s', Reachable step (OneConsumer 0) (State.initial ℕ ℕ) s ∧
      execute step askMeanwhile s = some s' ∧ Guarded step (OneConsumer 0) askMeanwhile s ∧
      results 2 s'.returned = [(.empty, .flag true)] ∧
      ∀ labels ∈ askMeanwhile.inits, ∀ between ∈ execute step labels s, between.queue_ ≠ [] := by
  have outcome : (execute step oneElement (State.initial ℕ ℕ)).map (fun s =>
      ((execute step askMeanwhile s).map fun s' => results 2 s'.returned,
        decide (Guarded step (OneConsumer 0) askMeanwhile s),
        askMeanwhile.inits.all fun labels =>
          (execute step labels s).all fun between => between.queue_ ≠ [])) =
      some (some [(.empty, .flag true)], true, true) := by decide
  obtain ⟨s, -, reachable, same⟩ :=
    Reachable.exists_of_execute (OneConsumer 0) outcome (by decide)
  simp only [Prod.mk.injEq, Option.map_eq_some_iff, decide_eq_true_eq, List.all_eq_true,
    Option.all_eq_true] at same
  obtain ⟨⟨s', executed, returned⟩, guarded, never⟩ := same
  exact ⟨s, s', reachable, executed, guarded, returned, never⟩

/-! ## Asking first -/

/-- What a thread knows to be in the queue after one of its calls. -/
def learn (known : Nat) : Call T × Ret T → Nat
  | (.size, .number size) => size.toNat
  | (.take, _) => known - 1
  | (.takeAll _, _) => 0
  | (.clearAll, _) => 0
  | _ => known

/-- What a thread knows from the results of its calls. -/
def known (seen : List (Call T × Ret T)) : Nat :=
  seen.foldl learn 0

theorem known_append (seen : List (Call T × Ret T)) (result : Call T × Ret T) :
    known (seen ++ [result]) = learn (known seen) result := by
  simp only [known, List.foldl_append, List.foldl_cons, List.foldl_nil]

def Call.isTake : Call T → Bool
  | .take => true
  | _ => false

/-- A take begins when the thread knows of an element. -/
def Checked (label : ι × Action T) (s : State ι T) : Prop :=
  ∀ call ∈ label.2.begins, call.isTake = true → 0 < known (results label.1 s.returned)

instance (label : ι × Action T) (s : State ι T) : Decidable (Checked label s) :=
  inferInstanceAs (Decidable (∀ call ∈ label.2.begins, _ → _))

/-- What the consumer knows is there, and it takes only what it knows. -/
structure Knows (consumer : ι) (s : State ι T) : Prop where
  alone : Alone Call.removes consumer s
  sees : Sees s consumer
  there : known (results consumer s.log) ≤ s.queue_.length
  taking : s.pc consumer = .holding .take → 0 < known (results consumer s.log)

/-- After an access the queue holds what the thread has learnt. -/
theorem learn_le_of_access {call : Call T} {queue queue' : List T} {ret : Ret T} {before : Nat}
    (accessed : call.access queue = some (ret, queue')) (there : before ≤ queue.length) :
    learn before (call, ret) ≤ queue'.length := by
  cases call with
  | insert call =>
      have longer := (prefix_of_access accessed rfl).length_le
      exact there.trans longer
  | takeAll emptyQueue => exact Nat.zero_le _
  | clearAll => exact Nat.zero_le _
  | size => cases accessed
  | take => cases accessed
  | empty => cases accessed

/-- A query tells no more than there is. -/
theorem known_effect_le {s : State ι T} {t : ι}
    (there : known (results t s.log) ≤ s.queue_.length) (query : Query) (side : Side) :
    known (results t (s.log ++ s.effect t query side)) ≤ s.queue_.length := by
  cases side with
  | start => rwa [State.effect, List.append_nil]
  | finish =>
      rw [State.effect, results_append_self, known_append]
      cases query with
      | size =>
          show (((s.start + s.queue_.length : Nat) : Int) - s.start).toNat ≤ s.queue_.length
          omega
      | empty => exact there

namespace Knows

variable {consumer : ι} {s s' : State ι T} {label : ι × Action T}

theorem initial : Knows consumer (State.initial ι T) where
  alone := .initial
  sees := .initial
  there := Nat.le_refl 0
  taking := by
    intro at_
    cases at_

/-- The results of a thread that is in no call are all in the history. -/
theorem known_of_idle (knows : Knows consumer s) (idle : s.pc consumer = .idle) :
    results consumer s.log = results consumer s.returned := by
  have free : s.pending consumer = none := by
    rw [State.pending, idle]
    rfl
  have seen := knows.sees.seen_of_free free
  rwa [Seen, Option.toList_none, List.append_nil] at seen

/-- What the consumer does keeps what it knows. -/
theorem own {action : Action T} (knows : Knows consumer s) (checked : Checked (consumer, action) s)
    (moved : Move s (consumer, action) s') :
    known (results consumer s'.log) ≤ s'.queue_.length ∧
      (s'.pc consumer = .holding .take → 0 < known (results consumer s'.log)) := by
  cases moved with
  | @lock _ call l idle locked =>
      refine ⟨knows.there, fun isHolding => ?_⟩
      simp only [Function.update_self, Pc.holding.injEq] at isHolding
      subst isHolding
      rw [knows.known_of_idle idle]
      exact checked .take rfl rfl
  | front => exact ⟨knows.there, by simp⟩
  | access at_ accessed =>
      refine ⟨?_, by simp⟩
      rw [results_append_self, known_append]
      exact learn_le_of_access accessed knows.there
  | popFront at_ queue =>
      refine ⟨?_, by simp⟩
      rw [results_append_self, known_append]
      have there := knows.there
      rw [queue, List.length_cons] at there
      exact Nat.sub_le_of_le_add there
  | load => exact ⟨known_effect_le knows.there _ _, by simp [State.load]⟩
  | empty => exact ⟨known_effect_le knows.there _ _, by simp [State.load]⟩
  | compare => exact ⟨known_effect_le knows.there _ _, by simp⟩
  | unlock => exact ⟨knows.there, by simp⟩

/-- The history of the consumer and its place stay when another thread moves. -/
theorem other {t : ι} {action : Action T} (different : consumer ≠ t)
    (moved : Move s (t, action) s') :
    results consumer s'.log = results consumer s.log ∧ s'.pc consumer = s.pc consumer := by
  have effect (query : Query) (side : Side) :
      results consumer (s.log ++ s.effect t query side) = results consumer s.log := by
    cases side with
    | start => rw [State.effect, List.append_nil]
    | finish => exact results_append_of_ne different _ _ _
  refine ⟨?_, ?_⟩
  · cases moved with
    | access => exact results_append_of_ne different _ _ _
    | popFront => exact results_append_of_ne different _ _ _
    | load => exact effect _ _
    | empty => exact effect _ _
    | compare => exact effect _ _
    | _ => rfl
  · cases moved <;> exact Function.update_of_ne different _ _

theorem move (knows : Knows consumer s) (admitted : OneConsumer consumer label s)
    (checked : Checked label s) (moved : Move s label s') : Knows consumer s' := by
  have alone := knows.alone.move (fun _ => id) admitted moved
  have sees := knows.alone.sees (fun _ => id) (.inl rfl) knows.sees moved
  obtain ⟨t, action⟩ := label
  by_cases own : consumer = t
  · subst own
    obtain ⟨there, taking⟩ := knows.own checked moved
    exact ⟨alone, sees, there, taking⟩
  · obtain ⟨log, pc⟩ := other own moved
    obtain ⟨-, kept⟩ := knows.alone.kept_by_other (fun _ => id) (Ne.symm own) moved
    refine ⟨alone, sees, ?_, ?_⟩
    · rw [log]
      exact knows.there.trans kept.length_le
    · rw [log, pc]
      exact knows.taking

end Knows

/-- **A consumer that asks first finds an element.**  One thread alone removes
elements, and it starts a take only when its last `size`, less what it took
since, is positive. Then whenever it is in `take` the queue is not empty. -/
theorem checked_takes_find_element {consumer : ι} {s : State ι T}
    (reachable : Reachable step
      (fun label s => OneConsumer consumer label s ∧ Checked label s) (State.initial ι T) s)
    {t : ι} (taking : s.pc t = .holding .take ∨ ∃ front, s.pc t = .copied front) :
    s.queue_ ≠ [] := by
  have knows : Knows consumer s :=
    reachable.invariant Knows.initial fun _ _ _ knows admitted stepped =>
      knows.move admitted.1 admitted.2 (move_of_step stepped)
  rcases taking with holding | ⟨front, copied⟩
  · obtain rfl := knows.alone.holding t .take holding rfl
    have positive := (knows.taking holding).trans_le knows.there
    exact List.length_pos_iff.mp positive
  · obtain ⟨-, rest, queue⟩ := knows.alone.copied t front copied
    rw [queue]
    exact List.cons_ne_nil front rest

/-- The consumer has counted two elements and is about to take the second. -/
theorem checked_takes_find_element_countAndTake :
    ∃ s, execute step (countAndTake.take 18) (State.initial Bool ℕ) = some s ∧
      s.pc false = .holding .take ∧ s.queue_ ≠ [] := by
  have outcome : (execute step (countAndTake.take 18) (State.initial Bool ℕ)).map
      (fun s => s.pc false) = some (.holding .take) := by decide
  obtain ⟨s, executed, reachable, taking⟩ := Reachable.exists_of_execute
    (fun label s => OneConsumer false label s ∧ Checked label s) outcome (by decide)
  exact ⟨s, executed, taking, checked_takes_find_element reachable (.inl taking)⟩

end Calls

end RWLockQueue

end AirNet.Base
