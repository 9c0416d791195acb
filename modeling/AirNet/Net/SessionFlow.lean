import AirNet.Lib.Transition
import AirNet.Net.Codec

/-!
# Flow control of a session

A session stops reading from its connection when the output buffer has passed
the high-water mark, and starts again when the output has been written. Both
callbacks are queued in the event loop and run later, when the output may have
drained or filled again.

The definitions follow `OnHighWaterMark` and `OnWriteComplete` of
`common/net/session.cpp`, and `TcpConnection.cc` and `EventLoop.cc` of muduo for
what calls them. The connection is established and not closed, and the session
is alive, so the weak pointers in its callbacks can be locked. Of the output
buffer only the number of readable bytes matters here.

A connection that has stopped reading has output to write and the callback that
will start it again, or the call of that callback is already queued
(`session_never_deaf`); so reading can always be resumed (`reading_can_resume`).
The functors are taken from one queue in order. That the connection with its
bytes and its threads, on an event loop that takes them out in batches, does the
same is shown where those are modelled.
-/

set_option autoImplicit false

namespace AirNet.Net

open AirNet.Lib (Transition Reachable execute Guarded)

/-! ## The connection -/

structure Channel where
  reading : Bool
  writing : Bool
  deriving DecidableEq, Repr

/-- The part of a `TcpConnection` that flow control uses. The callbacks are
those a session installs, so a flag says whether each is there. -/
structure TcpConnection where
  state_ : StateE
  reading_ : Bool
  channel_ : Channel
  writeCompleteCallback_ : Bool
  highWaterMarkCallback_ : Bool
  highWaterMark_ : Nat
  /-- `outputBuffer_.readableBytes()`. -/
  outputBuffer_ : Nat
  deriving DecidableEq, Repr

/-- What may wait in the loop for this connection. -/
inductive EventLoop.Functor where
  | sendInLoop (len : Nat)
  | highWaterMarkCallback (len : Nat)
  | writeCompleteCallback
  deriving DecidableEq, Repr

inductive Errno where
  | eWouldBlock
  | ePipe
  | eConnReset
  | other
  deriving DecidableEq, Repr

/-- The result of `sockets::write`. -/
inductive WriteResult where
  | wrote (n : Nat)
  | failed (errno : Errno)
  deriving DecidableEq, Repr

/-- A write reports no more bytes than it was given. -/
def WriteResult.AtMost (len : Nat) : WriteResult → Prop
  | .wrote n => n ≤ len
  | .failed _ => True

instance (len : Nat) : (result : WriteResult) → Decidable (result.AtMost len)
  | .wrote n => inferInstanceAs (Decidable (n ≤ len))
  | .failed _ => inferInstanceAs (Decidable True)

namespace TcpConnection

/-- A connection after `connectEstablished()`. -/
def established : TcpConnection where
  state_ := .kConnected
  reading_ := true
  channel_ := { reading := true, writing := false }
  writeCompleteCallback_ := false
  highWaterMarkCallback_ := false
  highWaterMark_ := 64 * 1024 * 1024
  outputBuffer_ := 0

def startReadInLoop (conn : TcpConnection) : TcpConnection :=
  if conn.reading_ = false ∨ conn.channel_.reading = false then
    { conn with channel_ := { conn.channel_ with reading := true }, reading_ := true }
  else conn

def stopReadInLoop (conn : TcpConnection) : TcpConnection :=
  if conn.reading_ = true ∨ conn.channel_.reading = true then
    { conn with channel_ := { conn.channel_ with reading := false }, reading_ := false }
  else conn

/-- The direct write of `sendInLoop`: the bytes that remain, whether an error
forbids to keep them, and the functors passed to `queueInLoop`. -/
def writeDirectly (conn : TcpConnection) (len : Nat) (result : WriteResult) :
    Nat × Bool × List EventLoop.Functor :=
  if conn.channel_.writing = false ∧ conn.outputBuffer_ = 0 then
    match result with
    | .wrote nwrote =>
        (len - nwrote, false,
          if len - nwrote = 0 ∧ conn.writeCompleteCallback_ = true then
            [.writeCompleteCallback]
          else [])
    | .failed errno => (len, errno = .ePipe ∨ errno = .eConnReset, [])
  else (len, false, [])

/-- The rest of `sendInLoop`, for bytes that were not written. -/
def appendOutput (conn : TcpConnection) (remaining : Nat) :
    TcpConnection × List EventLoop.Functor :=
  ({ conn with
      outputBuffer_ := conn.outputBuffer_ + remaining
      channel_ := { conn.channel_ with writing := true } },
    if conn.highWaterMark_ ≤ conn.outputBuffer_ + remaining ∧
        conn.outputBuffer_ < conn.highWaterMark_ ∧ conn.highWaterMarkCallback_ = true then
      [.highWaterMarkCallback (conn.outputBuffer_ + remaining)]
    else [])

/-- The connection afterwards, and the functors passed to `queueInLoop`. -/
def sendInLoop (conn : TcpConnection) (len : Nat) (result : WriteResult) :
    TcpConnection × List EventLoop.Functor :=
  if conn.state_ = .kDisconnected then (conn, [])
  else
    match conn.writeDirectly len result with
    | (remaining, faultError, queued) =>
        if faultError = false ∧ 0 < remaining then
          ((conn.appendOutput remaining).1, queued ++ (conn.appendOutput remaining).2)
        else (conn, queued)

/-- `send` in the thread of the loop. -/
def send (conn : TcpConnection) (len : Nat) (result : WriteResult) :
    TcpConnection × List EventLoop.Functor :=
  if conn.state_ = .kConnected then conn.sendInLoop len result else (conn, [])

/-- `send` in another thread. -/
def sendFromThread (conn : TcpConnection) (len : Nat) : TcpConnection × List EventLoop.Functor :=
  if conn.state_ = .kConnected then (conn, [.sendInLoop len]) else (conn, [])

def handleWrite (conn : TcpConnection) (result : WriteResult) :
    TcpConnection × List EventLoop.Functor :=
  if conn.channel_.writing = true then
    match result with
    | .wrote n =>
        if 0 < n then
          if conn.outputBuffer_ - n = 0 then
            ({ conn with
                outputBuffer_ := 0
                channel_ := { conn.channel_ with writing := false } },
              if conn.writeCompleteCallback_ = true then [.writeCompleteCallback] else [])
          else ({ conn with outputBuffer_ := conn.outputBuffer_ - n }, [])
        else (conn, [])
    | .failed _ => (conn, [])
  else (conn, [])

end TcpConnection

/-! ## The session -/

namespace Session

/-- The callbacks the constructor of `Session` installs. -/
def construct (watermark : Nat) (conn : TcpConnection) : TcpConnection :=
  { conn with highWaterMarkCallback_ := true, highWaterMark_ := watermark }

def onWriteComplete (conn : TcpConnection) : TcpConnection :=
  { conn.startReadInLoop with writeCompleteCallback_ := false }

def onHighWaterMark (conn : TcpConnection) : TcpConnection :=
  if 0 < conn.outputBuffer_ then
    { conn.stopReadInLoop with writeCompleteCallback_ := true }
  else conn

end Session

/-- Call a functor; a send may write directly. -/
def EventLoop.Functor.call (conn : TcpConnection) (result : WriteResult) :
    EventLoop.Functor → TcpConnection × List EventLoop.Functor
  | .sendInLoop len => conn.sendInLoop len result
  | .highWaterMarkCallback _ => (Session.onHighWaterMark conn, [])
  | .writeCompleteCallback => (Session.onWriteComplete conn, [])

/-- The number of bytes a functor may pass to `write`. -/
def EventLoop.Functor.len : EventLoop.Functor → Nat
  | .sendInLoop len => len
  | .highWaterMarkCallback _ => 0
  | .writeCompleteCallback => 0

/-! ## Steps -/

/-- What happens to a connection apart from the functors queued for it. -/
inductive TcpConnection.Event where
  | send (len : Nat) (result : WriteResult)
  | sendFromThread (len : Nat)
  | shutdown
  | handleWrite (result : WriteResult)
  deriving DecidableEq, Repr

namespace TcpConnection.Event

def perform (conn : TcpConnection) : Event → TcpConnection × List EventLoop.Functor
  | .send len result => conn.send len result
  | .sendFromThread len => conn.sendFromThread len
  | .shutdown => ({ conn with state_ := Net.shutdown conn.state_ }, [])
  | .handleWrite result => conn.handleWrite result

/-- The results of writes are possible ones. -/
def Possible (conn : TcpConnection) : Event → Prop
  | .send len result => result.AtMost len
  | .sendFromThread _ => True
  | .shutdown => True
  | .handleWrite result => result.AtMost conn.outputBuffer_

instance (conn : TcpConnection) : (event : Event) → Decidable (event.Possible conn)
  | .send len result => inferInstanceAs (Decidable (result.AtMost len))
  | .sendFromThread _ => inferInstanceAs (Decidable True)
  | .shutdown => inferInstanceAs (Decidable True)
  | .handleWrite result => inferInstanceAs (Decidable (result.AtMost conn.outputBuffer_))

end TcpConnection.Event

/-- A connection and the functors waiting for it, first to be called first. -/
structure Flow where
  conn : TcpConnection
  pendingFunctors_ : List EventLoop.Functor
  deriving DecidableEq, Repr

namespace Flow

/-- A connection for which a session has just been constructed. -/
def initial (watermark : Nat) : Flow where
  conn := Session.construct watermark .established
  pendingFunctors_ := []

inductive Action where
  | event (event : TcpConnection.Event)
  | callFirst (result : WriteResult)
  deriving DecidableEq, Repr

def step : Action → Flow → Option Flow
  | .event event, s => some
      { conn := (event.perform s.conn).1
        pendingFunctors_ := s.pendingFunctors_ ++ (event.perform s.conn).2 }
  | .callFirst result, s =>
      match s.pendingFunctors_ with
      | [] => none
      | functor :: rest => some
          { conn := (functor.call s.conn result).1
            pendingFunctors_ := rest ++ (functor.call s.conn result).2 }

/-- The results of writes are possible ones. -/
def Possible : Action → Flow → Prop
  | .event event, s => event.Possible s.conn
  | .callFirst result, s => ∀ functor ∈ s.pendingFunctors_.head?, result.AtMost functor.len

instance : (action : Action) → (s : Flow) → Decidable (Possible action s)
  | .event event, s => inferInstanceAs (Decidable (event.Possible s.conn))
  | .callFirst result, s => inferInstanceAs
      (Decidable (∀ functor ∈ s.pendingFunctors_.head?, result.AtMost functor.len))

end Flow

/-! ## What sends and drains do -/

namespace TcpConnection

/-- Sends and drains leave reading and the callback alone. They queue the
callback when they write the last of the output, and what they leave is
watched by the channel. -/
structure Transfers (conn conn' : TcpConnection) (queued : List EventLoop.Functor) : Prop where
  reading : conn'.reading_ = conn.reading_
  channelReading : conn'.channel_.reading = conn.channel_.reading
  callback : conn'.writeCompleteCallback_ = conn.writeCompleteCallback_
  completes : 0 < conn.outputBuffer_ → conn'.outputBuffer_ = 0 →
    conn.writeCompleteCallback_ = true → .writeCompleteCallback ∈ queued
  writing : (0 < conn.outputBuffer_ → conn.channel_.writing = true) →
    0 < conn'.outputBuffer_ → conn'.channel_.writing = true

variable (conn : TcpConnection)

/-- What leaves the connection as it is transfers nothing. -/
theorem transfers_same (queued : List EventLoop.Functor) : conn.Transfers conn queued where
  reading := rfl
  channelReading := rfl
  callback := rfl
  completes := fun some none => absurd none some.ne'
  writing := fun watched => watched

theorem sendInLoop_transfers (len : Nat) (result : WriteResult) :
    conn.Transfers (conn.sendInLoop len result).1 (conn.sendInLoop len result).2 := by
  unfold sendInLoop
  split_ifs
  · exact conn.transfers_same _
  · dsimp only
    split_ifs with kept
    · exact
        { reading := rfl
          channelReading := rfl
          callback := rfl
          completes := fun some none => absurd none (Nat.add_pos_left some _).ne'
          writing := fun _ _ => rfl }
    · exact conn.transfers_same _

theorem handleWrite_transfers (result : WriteResult) :
    conn.Transfers (conn.handleWrite result).1 (conn.handleWrite result).2 := by
  by_cases writing : conn.channel_.writing = true
  · cases result with
    | failed errno =>
        rw [handleWrite, if_pos writing]
        exact conn.transfers_same _
    | wrote n =>
        by_cases positive : 0 < n
        · by_cases emptied : conn.outputBuffer_ - n = 0
          · simp only [handleWrite, if_pos writing, if_pos positive, if_pos emptied]
            exact
              { reading := rfl
                channelReading := rfl
                callback := rfl
                completes := fun _ _ installed => by
                  rw [if_pos installed]
                  exact List.mem_singleton_self _
                writing := fun _ left => absurd left (Nat.lt_irrefl 0) }
          · simp only [handleWrite, if_pos writing, if_pos positive, if_neg emptied]
            exact
              { reading := rfl
                channelReading := rfl
                callback := rfl
                completes := fun _ none => absurd none emptied
                writing := fun _ _ => writing }
        · simp only [handleWrite, if_pos writing, if_neg positive]
          exact conn.transfers_same _
  · unfold handleWrite
    rw [if_neg writing]
    exact conn.transfers_same _

theorem perform_transfers (event : Event) :
    conn.Transfers (event.perform conn).1 (event.perform conn).2 := by
  cases event with
  | send len result =>
      simp only [Event.perform, send]
      split_ifs
      · exact conn.sendInLoop_transfers len result
      · exact conn.transfers_same _
  | sendFromThread len =>
      simp only [Event.perform, sendFromThread]
      split_ifs
      · exact conn.transfers_same _
      · exact conn.transfers_same _
  | shutdown =>
      exact
        { reading := rfl
          channelReading := rfl
          callback := rfl
          completes := fun some none => absurd none some.ne'
          writing := fun watched => watched }
  | handleWrite result => exact conn.handleWrite_transfers result

/-- The connection does not read. -/
def Stopped : Prop :=
  conn.reading_ = false ∨ conn.channel_.reading = false

instance : Decidable conn.Stopped :=
  inferInstanceAs (Decidable (_ ∨ _))

@[simp] theorem startReadInLoop_output :
    conn.startReadInLoop.outputBuffer_ = conn.outputBuffer_ := by
  unfold startReadInLoop
  split_ifs <;> rfl

@[simp] theorem startReadInLoop_writing :
    conn.startReadInLoop.channel_.writing = conn.channel_.writing := by
  unfold startReadInLoop
  split_ifs <;> rfl

@[simp] theorem stopReadInLoop_output :
    conn.stopReadInLoop.outputBuffer_ = conn.outputBuffer_ := by
  unfold stopReadInLoop
  split_ifs <;> rfl

@[simp] theorem stopReadInLoop_writing :
    conn.stopReadInLoop.channel_.writing = conn.channel_.writing := by
  unfold stopReadInLoop
  split_ifs <;> rfl

theorem onWriteComplete_not_stopped : ¬ (Session.onWriteComplete conn).Stopped := by
  unfold Session.onWriteComplete startReadInLoop
  split_ifs with stopped
  · rintro (off | off) <;> cases off
  · exact stopped

end TcpConnection

/-! ## A connection is never deaf -/

namespace Flow

/-- A connection that does not read has output to write and the callback that
starts reading again, or a call of that callback is queued. -/
def NeverDeaf (s : Flow) : Prop :=
  s.conn.Stopped →
    0 < s.conn.outputBuffer_ ∧ s.conn.writeCompleteCallback_ = true ∨
      .writeCompleteCallback ∈ s.pendingFunctors_

structure Invariant (s : Flow) : Prop where
  neverDeaf : s.NeverDeaf
  /-- Output is watched by the channel. -/
  writing : 0 < s.conn.outputBuffer_ → s.conn.channel_.writing = true

namespace Invariant

theorem initial (watermark : Nat) : Invariant (Flow.initial watermark) where
  neverDeaf := by
    rintro (off | off) <;> cases off
  writing := fun some => absurd some (Nat.lt_irrefl 0)

/-- A transfer keeps the invariant when the queue loses no call of the
callback. -/
theorem transfers {conn conn' : TcpConnection} {before after queued : List EventLoop.Functor}
    (inv : Invariant ⟨conn, before⟩) (transfers : conn.Transfers conn' queued)
    (kept : .writeCompleteCallback ∈ before → .writeCompleteCallback ∈ after) :
    Invariant ⟨conn', after ++ queued⟩ where
  neverDeaf := by
    intro stopped
    have stoppedBefore : conn.Stopped := by
      simpa only [TcpConnection.Stopped, transfers.reading, transfers.channelReading]
        using stopped
    rcases inv.neverDeaf stoppedBefore with ⟨output, installed⟩ | queuedBefore
    · rcases Nat.eq_zero_or_pos conn'.outputBuffer_ with none | left
      · exact .inr (List.mem_append_right _ (transfers.completes output none installed))
      · exact .inl ⟨left, transfers.callback.trans installed⟩
    · exact .inr (List.mem_append_left _ (kept queuedBefore))
  writing := transfers.writing inv.writing

theorem onHighWaterMark {conn : TcpConnection} {len : Nat} {rest : List EventLoop.Functor}
    (inv : Invariant ⟨conn, .highWaterMarkCallback len :: rest⟩) :
    Invariant ⟨Session.onHighWaterMark conn, rest⟩ := by
  unfold Session.onHighWaterMark
  split_ifs with output
  · exact
      { neverDeaf := fun _ => .inl ⟨by simpa using output, rfl⟩
        writing := by simpa using inv.writing }
  · have queued : .writeCompleteCallback ∈ EventLoop.Functor.highWaterMarkCallback len :: rest →
        .writeCompleteCallback ∈ rest := fun member =>
      (List.mem_cons.mp member).resolve_left nofun
    exact
      { neverDeaf := fun stopped => (inv.neverDeaf stopped).imp id queued
        writing := inv.writing }

theorem onWriteComplete {conn : TcpConnection} {rest : List EventLoop.Functor}
    (inv : Invariant ⟨conn, .writeCompleteCallback :: rest⟩) :
    Invariant ⟨Session.onWriteComplete conn, rest⟩ where
  neverDeaf := fun stopped => absurd stopped conn.onWriteComplete_not_stopped
  writing := by
    simpa [Session.onWriteComplete] using inv.writing

theorem call {conn : TcpConnection} {functor : EventLoop.Functor}
    {rest : List EventLoop.Functor} (inv : Invariant ⟨conn, functor :: rest⟩)
    (result : WriteResult) :
    Invariant ⟨(functor.call conn result).1, rest ++ (functor.call conn result).2⟩ := by
  cases functor with
  | sendInLoop len =>
      exact inv.transfers (conn.sendInLoop_transfers len result) fun member =>
        (List.mem_cons.mp member).resolve_left nofun
  | highWaterMarkCallback len =>
      simpa only [EventLoop.Functor.call, List.append_nil] using inv.onHighWaterMark
  | writeCompleteCallback =>
      simpa only [EventLoop.Functor.call, List.append_nil] using inv.onWriteComplete

theorem step {s s' : Flow} {action : Action} (inv : Invariant s)
    (stepped : Flow.step action s = some s') : Invariant s' := by
  cases action with
  | event event =>
      obtain rfl := Option.some.inj stepped
      exact inv.transfers (s.conn.perform_transfers event) id
  | callFirst result =>
      obtain ⟨conn, pending⟩ := s
      cases pending with
      | nil => cases stepped
      | cons functor rest =>
          obtain rfl := Option.some.inj stepped
          exact inv.call result

theorem of_reachable {watermark : Nat} {s : Flow}
    (reachable : Reachable Flow.step Possible (Flow.initial watermark) s) : Invariant s :=
  reachable.invariant (initial watermark) fun _ _ _ inv _ stepped => inv.step stepped

end Invariant

/-- **Flow control never leaves a connection deaf.** -/
theorem session_never_deaf {watermark : Nat} {s : Flow}
    (reachable : Reachable step Possible (initial watermark) s) : s.NeverDeaf :=
  (Invariant.of_reachable reachable).neverDeaf

/-- The state after two bytes have reached a mark of two, reading was stopped,
and both were written. -/
def drainedWhileStopped : Flow where
  conn :=
    { Session.construct 2 .established with
      reading_ := false
      channel_ := { reading := false, writing := false }
      writeCompleteCallback_ := true }
  pendingFunctors_ := [.writeCompleteCallback]

theorem session_never_deaf_drained :
    drainedWhileStopped.conn.Stopped ∧ drainedWhileStopped.NeverDeaf := by
  have executed : execute step [.event (.send 2 (.failed .eWouldBlock)), .callFirst (.wrote 0),
      .event (.handleWrite (.wrote 2))] (initial 2) = some drainedWhileStopped := by decide
  exact ⟨.inl rfl, session_never_deaf (Reachable.of_execute executed (by decide))⟩

/-! ## Reading can resume -/

/-- Calling functors up to a queued callback starts reading. -/
theorem reads_after_calls (before after : List EventLoop.Functor) (conn : TcpConnection) :
    ∃ s, Reachable step Possible ⟨conn, before ++ .writeCompleteCallback :: after⟩ s ∧
      ¬ s.conn.Stopped := by
  induction before generalizing conn after with
  | nil =>
      refine ⟨_, .single ⟨.callFirst (.wrote 0), ?_, rfl⟩, conn.onWriteComplete_not_stopped⟩
      exact fun functor _ => Nat.zero_le functor.len
  | cons functor before ih =>
      obtain ⟨s, rest, reads⟩ := ih (after ++ (functor.call conn (.wrote 0)).2)
        (functor.call conn (.wrote 0)).1
      refine ⟨s, .head ⟨.callFirst (.wrote 0), ?_, ?_⟩ rest, reads⟩
      · exact fun functor _ => Nat.zero_le functor.len
      · simp only [step, List.cons_append, List.append_assoc]

/-- **Reading can always be resumed**: when the output is written and the
queued functors are called, the connection reads. -/
theorem reading_can_resume {watermark : Nat} {s : Flow}
    (reachable : Reachable step Possible (initial watermark) s) :
    ∃ s', Reachable step Possible s s' ∧ ¬ s'.conn.Stopped := by
  have inv := Invariant.of_reachable reachable
  by_cases stopped : s.conn.Stopped
  · rcases inv.neverDeaf stopped with ⟨output, installed⟩ | queued
    · have drained : step (.event (.handleWrite (.wrote s.conn.outputBuffer_))) s = some
          { conn := { s.conn with
              outputBuffer_ := 0
              channel_ := { s.conn.channel_ with writing := false } }
            pendingFunctors_ := s.pendingFunctors_ ++ [.writeCompleteCallback] } := by
        simp [step, TcpConnection.Event.perform, TcpConnection.handleWrite, inv.writing output,
          output, installed]
      obtain ⟨s', calls, reads⟩ := reads_after_calls s.pendingFunctors_ [] _
      exact ⟨s', .head ⟨_, Nat.le_refl _, drained⟩ calls, reads⟩
    · obtain ⟨before, after, split⟩ := List.append_of_mem queued
      obtain ⟨s', calls, reads⟩ := reads_after_calls before after s.conn
      rw [← split] at calls
      exact ⟨s', calls, reads⟩
  · exact ⟨s, .refl, stopped⟩

end Flow

end AirNet.Net
