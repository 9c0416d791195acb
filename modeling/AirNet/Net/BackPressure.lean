import AirNet.Net.SessionFlow

/-!
# Back-pressure of a session

A session whose output has reached the high-water mark must stop reading. The
callback that stops it is queued when the mark is crossed, and a callback that
starts reading again may still be in the queue from an earlier drain. It cannot
undo the stop: as long as the output is at or above the mark no call of
`OnWriteComplete` is queued, so those that are pending run before the call of
`OnHighWaterMark` that the last crossing queued.

In every reachable state with the output at or above the mark, reading is
stopped for good or the stopping call is pending with nothing behind it that
would start reading (`back_pressure_kept`). Once the functors pending at that
moment have run, reading is stopped.
-/

set_option autoImplicit false

namespace AirNet.Net

open AirNet.Lib (Transition Reachable execute Guarded)

namespace TcpConnection

/-- Both the connection and its channel have stopped reading. -/
def Halted (conn : TcpConnection) : Prop :=
  conn.reading_ = false ∧ conn.channel_.reading = false

/-! ## What sends and drains do at the mark -/

/-- Sends and drains leave the mark and its callback alone. They queue no call
of the write-complete callback while output remains, and a call of the
high-water callback when they cross the mark. -/
structure Crosses (conn conn' : TcpConnection) (queued : List EventLoop.Functor) : Prop where
  mark : conn'.highWaterMark_ = conn.highWaterMark_
  installed : conn'.highWaterMarkCallback_ = conn.highWaterMarkCallback_
  silent : 0 < conn'.outputBuffer_ → .writeCompleteCallback ∉ queued
  crossing : conn.highWaterMarkCallback_ = true → conn.outputBuffer_ < conn.highWaterMark_ →
    conn.highWaterMark_ ≤ conn'.outputBuffer_ → ∃ len, queued = [.highWaterMarkCallback len]

variable (conn : TcpConnection)

/-- What leaves the connection as it is crosses nothing. -/
theorem crosses_same (queued : List EventLoop.Functor)
    (silent : 0 < conn.outputBuffer_ → .writeCompleteCallback ∉ queued) :
    conn.Crosses conn queued where
  mark := rfl
  installed := rfl
  silent := silent
  crossing := fun _ below above => absurd above (Nat.not_le.mpr below)

/-- The callback is queued by a direct write only when the output is empty and
nothing remains to be sent. -/
theorem writeDirectly_queued (len : Nat) (result : WriteResult)
    (queued : (conn.writeDirectly len result).2.2 ≠ []) :
    conn.outputBuffer_ = 0 ∧ (conn.writeDirectly len result).1 = 0 := by
  unfold writeDirectly at queued ⊢
  split_ifs at queued ⊢ with direct
  · cases result with
    | wrote nwrote =>
        dsimp only at queued ⊢
        split_ifs at queued with complete
        · exact ⟨direct.2, complete.1⟩
        · exact absurd rfl queued
    | failed errno => exact absurd rfl queued
  · exact absurd rfl queued

theorem appendOutput_crosses (remaining : Nat) :
    conn.Crosses (conn.appendOutput remaining).1 (conn.appendOutput remaining).2 where
  mark := rfl
  installed := rfl
  silent := by
    intro _ queued
    unfold appendOutput at queued
    dsimp only at queued
    split_ifs at queued
    · cases List.mem_singleton.mp queued
    · cases queued
  crossing := by
    intro installed below above
    refine ⟨conn.outputBuffer_ + remaining, ?_⟩
    exact if_pos ⟨above, below, installed⟩

theorem sendInLoop_crosses (len : Nat) (result : WriteResult) :
    conn.Crosses (conn.sendInLoop len result).1 (conn.sendInLoop len result).2 := by
  unfold sendInLoop
  split_ifs
  · exact conn.crosses_same [] fun _ => List.not_mem_nil
  · dsimp only
    split_ifs with kept
    · -- bytes remain, so the direct write queued nothing
      have nothing : (conn.writeDirectly len result).2.2 = [] := by
        by_contra queued
        have none := (conn.writeDirectly_queued len result queued).2
        rw [none] at kept
        exact absurd kept.2 (Nat.lt_irrefl 0)
      rw [nothing, List.nil_append]
      exact conn.appendOutput_crosses _
    · refine conn.crosses_same _ fun output queued => ?_
      have empty := (conn.writeDirectly_queued len result (List.ne_nil_of_mem queued)).1
      exact absurd empty output.ne'

theorem handleWrite_crosses (result : WriteResult) :
    conn.Crosses (conn.handleWrite result).1 (conn.handleWrite result).2 := by
  have same := conn.crosses_same [] fun _ => List.not_mem_nil
  by_cases writing : conn.channel_.writing = true
  · cases result with
    | failed errno =>
        rw [handleWrite, if_pos writing]
        exact same
    | wrote n =>
        by_cases positive : 0 < n
        · by_cases emptied : conn.outputBuffer_ - n = 0
          · simp only [handleWrite, if_pos writing, if_pos positive, if_pos emptied]
            exact
              { mark := rfl
                installed := rfl
                silent := fun output => absurd output (Nat.lt_irrefl 0)
                crossing := fun _ below above => by
                  have none : conn.highWaterMark_ = 0 := Nat.le_zero.mp above
                  rw [none] at below
                  exact absurd below (Nat.not_lt_zero _) }
          · simp only [handleWrite, if_pos writing, if_pos positive, if_neg emptied]
            exact
              { mark := rfl
                installed := rfl
                silent := fun _ => List.not_mem_nil
                crossing := fun _ below above =>
                  absurd (above.trans (Nat.sub_le _ _)) (Nat.not_le.mpr below) }
        · simp only [handleWrite, if_pos writing, if_neg positive]
          exact same
  · unfold handleWrite
    rw [if_neg writing]
    exact same

theorem perform_crosses (event : Event) :
    conn.Crosses (event.perform conn).1 (event.perform conn).2 := by
  have same := conn.crosses_same [] fun _ => List.not_mem_nil
  cases event with
  | send len result =>
      simp only [Event.perform, send]
      split_ifs
      · exact conn.sendInLoop_crosses len result
      · exact same
  | sendFromThread len =>
      simp only [Event.perform, sendFromThread]
      split_ifs
      · refine conn.crosses_same _ fun _ queued => ?_
        cases List.mem_singleton.mp queued
      · exact same
  | shutdown =>
      exact
        { mark := rfl
          installed := rfl
          silent := fun _ => List.not_mem_nil
          crossing := fun _ below above => absurd above (Nat.not_le.mpr below) }
  | handleWrite result => exact conn.handleWrite_crosses result

/-! ## What the callbacks do -/

theorem onHighWaterMark_halted (output : 0 < conn.outputBuffer_) :
    (Session.onHighWaterMark conn).Halted := by
  unfold Session.onHighWaterMark stopReadInLoop
  rw [if_pos output]
  split_ifs with reading
  · exact ⟨rfl, rfl⟩
  · rw [not_or, Bool.not_eq_true, Bool.not_eq_true] at reading
    exact reading

/-- A connection that has stopped reading does not start again at the mark. -/
theorem Halted.onHighWaterMark {conn : TcpConnection} (halted : conn.Halted) :
    (Session.onHighWaterMark conn).Halted := by
  by_cases output : 0 < conn.outputBuffer_
  · exact conn.onHighWaterMark_halted output
  · rwa [Session.onHighWaterMark, if_neg output]

theorem Halted.transfers {conn conn' : TcpConnection} {queued : List EventLoop.Functor}
    (halted : conn.Halted) (transfers : conn.Transfers conn' queued) : conn'.Halted :=
  ⟨transfers.reading.trans halted.1, transfers.channelReading.trans halted.2⟩

/-- The callbacks leave the output and the mark alone. -/
structure SameOutput (conn conn' : TcpConnection) : Prop where
  mark : conn'.highWaterMark_ = conn.highWaterMark_
  installed : conn'.highWaterMarkCallback_ = conn.highWaterMarkCallback_
  output : conn'.outputBuffer_ = conn.outputBuffer_

theorem SameOutput.crosses {conn conn' : TcpConnection} (same : conn.SameOutput conn') :
    conn.Crosses conn' [] where
  mark := same.mark
  installed := same.installed
  silent := fun _ => List.not_mem_nil
  crossing := fun _ below above => by
    rw [same.output] at above
    exact absurd above (Nat.not_le.mpr below)

theorem onHighWaterMark_sameOutput : conn.SameOutput (Session.onHighWaterMark conn) := by
  unfold Session.onHighWaterMark stopReadInLoop
  split_ifs <;> exact ⟨rfl, rfl, rfl⟩

theorem onWriteComplete_sameOutput : conn.SameOutput (Session.onWriteComplete conn) := by
  unfold Session.onWriteComplete startReadInLoop
  split_ifs <;> exact ⟨rfl, rfl, rfl⟩

theorem call_crosses (result : WriteResult) (functor : EventLoop.Functor) :
    conn.Crosses (functor.call conn result).1 (functor.call conn result).2 := by
  cases functor with
  | sendInLoop len => exact conn.sendInLoop_crosses len result
  | highWaterMarkCallback len => exact conn.onHighWaterMark_sameOutput.crosses
  | writeCompleteCallback => exact conn.onWriteComplete_sameOutput.crosses

end TcpConnection

/-! ## Reading is stopped, or about to be -/

namespace EventLoop

/-- A call of the high-water callback is among the first functors of the queue,
and behind it no call of the write-complete callback. -/
def StopsWithin (queue : List Functor) (bound : Nat) : Prop :=
  ∃ before len after, queue = before ++ .highWaterMarkCallback len :: after ∧
    .writeCompleteCallback ∉ after ∧ before.length < bound

variable {queue queued : List Functor} {bound : Nat}

theorem StopsWithin.append (stops : StopsWithin queue bound)
    (silent : .writeCompleteCallback ∉ queued) : StopsWithin (queue ++ queued) bound := by
  obtain ⟨before, len, after, rfl, nothing, close⟩ := stops
  refine ⟨before, len, after ++ queued, by simp, ?_, close⟩
  rw [List.mem_append, not_or]
  exact ⟨nothing, silent⟩

/-- The first functor is the stopping call, or the stopping call moves up. -/
theorem StopsWithin.uncons {functor : Functor}
    (stops : StopsWithin (functor :: queue) (bound + 1)) :
    (∃ len, functor = .highWaterMarkCallback len) ∧ .writeCompleteCallback ∉ queue ∨
      StopsWithin queue bound := by
  obtain ⟨before, len, after, split, nothing, close⟩ := stops
  cases before with
  | nil =>
      obtain ⟨rfl, rfl⟩ := List.cons.inj split
      exact .inl ⟨⟨len, rfl⟩, nothing⟩
  | cons first before =>
      obtain ⟨rfl, rfl⟩ := List.cons.inj split
      exact .inr ⟨before, len, after, rfl, nothing, Nat.lt_of_succ_lt_succ close⟩

theorem StopsWithin.mono (stops : StopsWithin queue bound) {bound' : Nat}
    (le : bound ≤ bound') : StopsWithin queue bound' := by
  obtain ⟨before, len, after, split, nothing, close⟩ := stops
  exact ⟨before, len, after, split, nothing, close.trans_le le⟩

end EventLoop

namespace Flow

open EventLoop (StopsWithin)

/-- Reading is stopped and nothing pending starts it, or a call among the first
functors stops it and nothing behind that call starts it. -/
def Backed (s : Flow) (bound : Nat) : Prop :=
  s.conn.Halted ∧ .writeCompleteCallback ∉ s.pendingFunctors_ ∨
    StopsWithin s.pendingFunctors_ bound

namespace Backed

variable {conn conn' : TcpConnection} {queue queued : List EventLoop.Functor} {bound : Nat}

theorem mono {s : Flow} (backed : Backed s bound) {bound' : Nat} (le : bound ≤ bound') :
    Backed s bound' :=
  backed.imp id fun stops => stops.mono le

/-- Sends and drains that leave output keep it. -/
theorem transfers (backed : Backed ⟨conn, queue⟩ bound)
    (transfers : conn.Transfers conn' queued) (silent : .writeCompleteCallback ∉ queued) :
    Backed ⟨conn', queue ++ queued⟩ bound := by
  rcases backed with ⟨halted, nothing⟩ | stops
  · refine .inl ⟨halted.transfers transfers, ?_⟩
    rw [List.mem_append, not_or]
    exact ⟨nothing, silent⟩
  · exact .inr (stops.append silent)

/-- Calling the first functor brings the stopping call closer, or stops
reading. -/
theorem call {functor : EventLoop.Functor} (backed : Backed ⟨conn, functor :: queue⟩ (bound + 1))
    (output : 0 < conn.outputBuffer_) (result : WriteResult)
    (left : 0 < (functor.call conn result).1.outputBuffer_) :
    Backed ⟨(functor.call conn result).1, queue ++ (functor.call conn result).2⟩ bound := by
  have silent := (conn.call_crosses result functor).silent left
  have moved : (functor.call conn result).1.Halted ∧ .writeCompleteCallback ∉ queue ∨
      StopsWithin queue bound := by
    rcases backed with ⟨halted, nothing⟩ | stops
    · obtain ⟨other, rest⟩ := not_or.mp (mt List.mem_cons.mpr nothing)
      refine .inl ⟨?_, rest⟩
      cases functor with
      | sendInLoop len => exact halted.transfers (conn.sendInLoop_transfers len result)
      | highWaterMarkCallback len => exact halted.onHighWaterMark
      | writeCompleteCallback => exact absurd rfl other
    · refine stops.uncons.imp ?_ id
      rintro ⟨⟨len, rfl⟩, nothing⟩
      exact ⟨conn.onHighWaterMark_halted output, nothing⟩
  rcases moved with ⟨halted, nothing⟩ | stops
  · refine .inl ⟨halted, ?_⟩
    rw [List.mem_append, not_or]
    exact ⟨nothing, silent⟩
  · exact .inr (stops.append silent)

/-- Crossing the mark queues the stopping call last. -/
theorem of_crossing (crosses : conn.Crosses conn' queued)
    (installed : conn.highWaterMarkCallback_ = true)
    (below : conn.outputBuffer_ < conn.highWaterMark_)
    (above : conn.highWaterMark_ ≤ conn'.outputBuffer_) :
    Backed ⟨conn', queue ++ queued⟩ (queue ++ queued).length := by
  obtain ⟨len, rfl⟩ := crosses.crossing installed below above
  refine .inr ⟨queue, len, [], rfl, List.not_mem_nil, ?_⟩
  rw [List.length_append]
  exact Nat.lt_succ_self _

end Backed

/-- The invariant of a session with a mark. -/
structure Pressure (watermark : Nat) (s : Flow) : Prop where
  mark : s.conn.highWaterMark_ = watermark
  installed : s.conn.highWaterMarkCallback_ = true
  backed : watermark ≤ s.conn.outputBuffer_ → Backed s s.pendingFunctors_.length

namespace Pressure

variable {watermark : Nat}

theorem initial (positive : 0 < watermark) : Pressure watermark (Flow.initial watermark) where
  mark := rfl
  installed := rfl
  backed := fun above => absurd above (Nat.not_le.mpr positive)

theorem step (positive : 0 < watermark) {s s' : Flow} {action : Action}
    (pressure : Pressure watermark s) (stepped : Flow.step action s = some s') :
    Pressure watermark s' := by
  obtain ⟨conn, pending⟩ := s
  obtain ⟨mark, installed, backed⟩ := pressure
  cases action with
  | event event =>
      obtain rfl := Option.some.inj stepped
      have crosses := conn.perform_crosses event
      refine ⟨crosses.mark.trans mark, crosses.installed.trans installed, fun above => ?_⟩
      rcases Nat.lt_or_ge conn.outputBuffer_ watermark with below | already
      · rw [← mark] at below above
        exact .of_crossing crosses installed below above
      · have silent := crosses.silent (positive.trans_le above)
        refine ((backed already).transfers (conn.perform_transfers event) silent).mono ?_
        rw [List.length_append]
        exact Nat.le_add_right _ _
  | callFirst result =>
      cases pending with
      | nil => cases stepped
      | cons functor rest =>
          obtain rfl := Option.some.inj stepped
          have crosses := conn.call_crosses result functor
          refine ⟨crosses.mark.trans mark, crosses.installed.trans installed, fun above => ?_⟩
          rcases Nat.lt_or_ge conn.outputBuffer_ watermark with below | already
          · rw [← mark] at below above
            exact .of_crossing crosses installed below above
          · refine ((backed already).call (positive.trans_le already) result
              (positive.trans_le above)).mono ?_
            rw [List.length_append]
            exact Nat.le_add_right _ _

theorem of_reachable (positive : 0 < watermark) {s : Flow}
    (reachable : Reachable Flow.step Possible (Flow.initial watermark) s) :
    Pressure watermark s :=
  reachable.invariant (initial positive) fun _ _ _ pressure _ stepped =>
    pressure.step positive stepped

end Pressure

/-! ## Once the pending functors have run -/

/-- A run from a state that calls functors the given number of times; every
state it comes to satisfies the condition. -/
inductive Run (along : Flow → Prop) (s : Flow) : Nat → Flow → Prop where
  | refl : Run along s 0 s
  | event {calls : Nat} {s' s'' : Flow} (event : TcpConnection.Event)
      (before : Run along s calls s') (possible : Possible (.event event) s')
      (stepped : step (.event event) s' = some s'') (holds : along s'') : Run along s calls s''
  | call {calls : Nat} {s' s'' : Flow} (result : WriteResult)
      (before : Run along s calls s') (possible : Possible (.callFirst result) s')
      (stepped : step (.callFirst result) s' = some s'') (holds : along s'') :
      Run along s (calls + 1) s''

variable {watermark calls : Nat} {s s' s'' : Flow}

theorem Backed.halted (backed : Backed s 0) : s.conn.Halted := by
  rcases backed with ⟨halted, -⟩ | ⟨before, len, after, -, -, close⟩
  · exact halted
  · exact absurd close (Nat.not_lt_zero _)

/-- While the output stays at or above the mark, every call brings the stopping
call closer. -/
theorem Run.backed (positive : 0 < watermark) (above : watermark ≤ s.conn.outputBuffer_)
    (backed : Backed s s.pendingFunctors_.length)
    (run : Run (fun u => watermark ≤ u.conn.outputBuffer_) s calls s') :
    watermark ≤ s'.conn.outputBuffer_ ∧ Backed s' (s.pendingFunctors_.length - calls) := by
  induction run with
  | refl => exact ⟨above, backed⟩
  | @event calls s' s'' event before possible stepped holds ih =>
      obtain rfl := Option.some.inj stepped
      have silent := (s'.conn.perform_crosses event).silent (positive.trans_le holds)
      exact ⟨holds, ih.2.transfers (s'.conn.perform_transfers event) silent⟩
  | @call calls s' s'' result before possible stepped holds ih =>
      obtain ⟨already, backed⟩ := ih
      obtain ⟨conn, pending⟩ := s'
      cases pending with
      | nil => cases stepped
      | cons functor rest =>
          obtain rfl := Option.some.inj stepped
          refine ⟨holds, ?_⟩
          have closer : s.pendingFunctors_.length - calls ≤
              s.pendingFunctors_.length - (calls + 1) + 1 := by omega
          exact (backed.mono closer).call (positive.trans_le already) result
            (positive.trans_le holds)

/-- The functor is a callback of the session. -/
def IsCallback (functor : EventLoop.Functor) : Prop :=
  ∀ len, functor ≠ .sendInLoop len

/-- The same for callbacks alone, whatever the output is before the last of
them is called: each call of the high-water callback stops reading if there is
output, and leaves it to the next one otherwise. -/
theorem Backed.callback {conn : TcpConnection} {functor : EventLoop.Functor}
    {rest : List EventLoop.Functor} (callbacks : ∀ f ∈ functor :: rest, IsCallback f)
    (backed : Backed ⟨conn, functor :: rest⟩ (rest.length + 1)) (result : WriteResult)
    (more : rest ≠ [] ∨ 0 < conn.outputBuffer_) :
    Backed ⟨(functor.call conn result).1, rest⟩ rest.length := by
  cases functor with
  | sendInLoop len => exact absurd rfl (callbacks _ List.mem_cons_self len)
  | writeCompleteCallback =>
      rcases backed with ⟨-, nothing⟩ | stops
      · exact absurd List.mem_cons_self nothing
      · rcases stops.uncons with ⟨⟨len, other⟩, -⟩ | stops
        · cases other
        · exact .inr stops
  | highWaterMarkCallback len =>
      by_cases output : 0 < conn.outputBuffer_
      · have halted := conn.onHighWaterMark_halted output
        rcases backed with ⟨-, nothing⟩ | stops
        · exact .inl ⟨halted, mt (List.mem_cons_of_mem _) nothing⟩
        · exact stops.uncons.imp (fun stopped => ⟨halted, stopped.2⟩) id
      · rcases backed with ⟨halted, nothing⟩ | stops
        · exact .inl ⟨halted.onHighWaterMark, mt (List.mem_cons_of_mem _) nothing⟩
        · rcases stops.uncons with ⟨-, nothing⟩ | stops
          · -- the next functor is a call of the high-water callback too
            cases rest with
            | nil => exact absurd rfl (more.resolve_right output)
            | cons next rest =>
                refine .inr ⟨[], ?_⟩
                cases next with
                | sendInLoop len => exact absurd rfl (callbacks _ (by simp) len)
                | writeCompleteCallback => exact absurd List.mem_cons_self nothing
                | highWaterMarkCallback len =>
                    exact ⟨len, rest, rfl, mt (List.mem_cons_of_mem _) nothing,
                      Nat.succ_pos _⟩
          · exact .inr stops

/-- Of the functors pending at the start those that are left keep reading
stopped or about to be stopped. -/
theorem Run.callbacks (callbacks : ∀ f ∈ s.pendingFunctors_, IsCallback f)
    (backed : Backed s s.pendingFunctors_.length) (run : Run (fun _ => True) s calls s')
    (more : calls < s.pendingFunctors_.length) :
    ∃ left queued, s'.pendingFunctors_ = left ++ queued ∧
      left.length + calls = s.pendingFunctors_.length ∧ (∀ f ∈ left, IsCallback f) ∧
      Backed ⟨s'.conn, left⟩ left.length := by
  induction run with
  | refl => exact ⟨s.pendingFunctors_, [], (List.append_nil _).symm, rfl, callbacks, backed⟩
  | @event calls s' s'' event before possible stepped holds ih =>
      obtain ⟨left, queued, split, count, only, backed⟩ := ih more
      obtain rfl := Option.some.inj stepped
      refine ⟨left, queued ++ (event.perform s'.conn).2, ?_, count, only, ?_⟩
      · rw [split, List.append_assoc]
      · exact backed.imp (fun stopped => ⟨stopped.1.transfers (s'.conn.perform_transfers event),
          stopped.2⟩) id
  | @call calls s' s'' result before possible stepped holds ih =>
      obtain ⟨left, queued, split, count, only, backed⟩ := ih (Nat.lt_of_succ_lt more)
      obtain ⟨conn, pending⟩ := s'
      cases left with
      | nil =>
          rw [List.length_nil, Nat.zero_add] at count
          omega
      | cons functor left =>
          rw [List.length_cons] at count
          rw [List.cons_append] at split
          obtain rfl := split
          obtain rfl := Option.some.inj stepped
          refine ⟨left, queued ++ (functor.call conn result).2, ?_, by omega, ?_, ?_⟩
          · rw [List.append_assoc]
          · exact fun f member => only f (List.mem_cons_of_mem _ member)
          · refine backed.callback only result (.inl ?_)
            rintro rfl
            rw [List.length_nil] at count
            omega

/-- The last of the functors pending at the start has been called. -/
theorem halted_of_last (positive : 0 < watermark)
    (callbacks : ∀ f ∈ s.pendingFunctors_, IsCallback f)
    (backed : Backed s s.pendingFunctors_.length) (run : Run (fun _ => True) s calls s')
    (last : calls + 1 = s.pendingFunctors_.length) {result : WriteResult}
    (called : step (.callFirst result) s' = some s'')
    (above : watermark ≤ s''.conn.outputBuffer_) : s''.conn.Halted := by
  obtain ⟨left, queued, split, count, only, backed⟩ := run.callbacks callbacks backed (by omega)
  obtain ⟨functor, rfl⟩ : ∃ functor, left = [functor] :=
    List.length_eq_one_iff.mp (by omega)
  obtain ⟨conn, pending⟩ := s'
  obtain rfl := split
  obtain rfl := Option.some.inj called
  have same : (functor.call conn result).1.outputBuffer_ = conn.outputBuffer_ := by
    cases functor with
    | sendInLoop len => exact absurd rfl (only _ (by simp) len)
    | highWaterMarkCallback len => exact conn.onHighWaterMark_sameOutput.output
    | writeCompleteCallback => exact conn.onWriteComplete_sameOutput.output
  have output : 0 < conn.outputBuffer_ := by
    rw [← same]
    exact positive.trans_le above
  exact (backed.callback only result (.inr output)).halted

/-- **Back-pressure is never lost.**  With the output at or above the mark,
reading is stopped and no call of the write-complete callback is pending, or a
call of the high-water callback is pending with none behind it. Once the
functors pending now have been called with the output still at or above the
mark, reading is stopped; if they are all callbacks, this only needs the output
to be there after the last of them. -/
theorem back_pressure_kept (positive : 0 < watermark)
    (reachable : Reachable step Possible (initial watermark) s)
    (above : watermark ≤ s.conn.outputBuffer_) :
    (s.conn.Halted ∧ .writeCompleteCallback ∉ s.pendingFunctors_ ∨
      ∃ before len after, s.pendingFunctors_ = before ++ .highWaterMarkCallback len :: after ∧
        .writeCompleteCallback ∉ after) ∧
    (∀ calls s', Run (fun u => watermark ≤ u.conn.outputBuffer_) s calls s' →
      s.pendingFunctors_.length ≤ calls → s'.conn.Halted) ∧
    ((∀ f ∈ s.pendingFunctors_, IsCallback f) →
      ∀ calls s' result s'', Run (fun _ => True) s calls s' →
        calls + 1 = s.pendingFunctors_.length → step (.callFirst result) s' = some s'' →
          watermark ≤ s''.conn.outputBuffer_ → s''.conn.Halted) := by
  have backed := (Pressure.of_reachable positive reachable).backed above
  refine ⟨backed.imp id ?_, ?_, ?_⟩
  · rintro ⟨before, len, after, split, nothing, -⟩
    exact ⟨before, len, after, split, nothing⟩
  · intro calls s' run all
    have closer := (run.backed positive above backed).2
    rw [Nat.sub_eq_zero_of_le all] at closer
    exact closer.halted
  · intro callbacks calls s' result s'' run last called still
    exact halted_of_last positive callbacks backed run last called still

/-- Two bytes that could not be written have reached a mark of two. -/
def crossedWhileReading : Flow where
  conn :=
    { Session.construct 2 .established with
      channel_ := { reading := true, writing := true }
      outputBuffer_ := 2 }
  pendingFunctors_ := [.highWaterMarkCallback 2]

/-- The pending call stops reading. -/
theorem back_pressure_kept_crossed :
    ∃ s, step (.callFirst (.wrote 0)) crossedWhileReading = some s ∧ s.conn.Halted := by
  have executed : execute step [.event (.send 2 (.failed .eWouldBlock))] (initial 2) =
      some crossedWhileReading := by decide
  obtain ⟨-, -, last⟩ := back_pressure_kept (by decide)
    (Reachable.of_execute executed (by decide)) (by decide)
  refine ⟨_, rfl, ?_⟩
  refine last ?_ 0 _ (.wrote 0) _ .refl rfl rfl (by decide)
  intro f member len same
  rw [same] at member
  cases List.mem_singleton.mp member

end Flow

end AirNet.Net
