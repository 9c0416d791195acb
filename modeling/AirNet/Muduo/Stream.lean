import AirNet.Muduo.EventLoop
import AirNet.Muduo.TcpConnection

/-!
# The stream of a connection

The bytes that a connection gives to its socket, followed by those in its output
buffer, are the messages that `sendInLoop` kept, one behind the other: however
much of each write the kernel takes, no message is torn, mixed with another or
repeated (`stream_of_whole_messages`). The messages of one thread reach
`sendInLoop` in the order in which the thread sent them, none missing
(`sends_stay_in_order`).

The results are about all runs of the event loop with any number of threads. They
are proved for the loop as one queue.
-/

set_option autoImplicit false

namespace AirNet.Muduo

open AirNet.Cpp AirNet.Lib
open AirNet.Net (StateE Errno WriteResult)

/-- The message that a functor carries. -/
def Functor.message {μ : Type} : Functor μ → Option μ
  | .sendInLoop message => some message
  | _ => none

/-- A callback of the program is all that the functor calls. -/
def Functor.isNotice {μ : Type} : Functor μ → Bool
  | .writeCompleteCallback => true
  | .highWaterMarkCallback _ => true
  | _ => false

namespace TcpConnection

variable {μ : Type}

/-! ## What sends and drains do -/

/-- Nothing is in the way of a direct write. -/
def Idle (conn : TcpConnection) : Prop :=
  conn.channel_.writing = false ∧ conn.outputBuffer_ = []

/-- The bytes go to the socket. -/
def give (conn : TcpConnection) (bytes : Bytes) : TcpConnection :=
  { conn with socket_ := { conn.socket_ with written := conn.socket_.written ++ bytes } }

/-- What a call of `sendInLoop` comes to. -/
inductive SendMove (conn : TcpConnection) (data : Bytes) : Sent μ → Prop where
  | refused (reason : conn.state_ = .kDisconnected ∨ conn.Idle) :
      SendMove conn data { conn := conn, kept := false, queued := none }
  | empty (nothing : data = []) :
      SendMove conn data { conn := conn, kept := true, queued := none }
  | wrote {queued : Option (Functor μ)} (idle : conn.Idle)
      (writable : conn.socket_.writeShutdown = false)
      (notice : ∀ functor ∈ queued, functor.isNotice = true) :
      SendMove conn data { conn := conn.give data, kept := true, queued := queued }
  | buffered {n : Nat} {queued : Option (Functor μ)} (some : n < data.length)
      (direct : 0 < n → conn.outputBuffer_ = [])
      (writable : conn.Idle → conn.socket_.writeShutdown = false)
      (notice : ∀ functor ∈ queued, functor.isNotice = true) :
      SendMove conn data
        { conn := { conn.give (data.take n) with
            outputBuffer_ := conn.outputBuffer_ ++ data.drop n
            channel_ :=
              if conn.channel_.writing then conn.channel_ else conn.channel_.enableWriting }
          kept := true
          queued := queued }

/-- What the direct write comes to. -/
inductive DirectMove (conn : TcpConnection) (data : Bytes) : Direct μ → Prop where
  | fault (idle : conn.Idle) :
      DirectMove conn data { conn := conn, nwrote := 0, faultError := true, queued := none }
  | nothing (writable : conn.Idle → conn.socket_.writeShutdown = false) :
      DirectMove conn data { conn := conn, nwrote := 0, faultError := false, queued := none }
  | wrote {n : Nat} {queued : Option (Functor μ)} (idle : conn.Idle)
      (writable : conn.socket_.writeShutdown = false) (bound : n ≤ data.length)
      (notice : ∀ functor ∈ queued, n = data.length ∧ functor.isNotice = true) :
      DirectMove conn data
        { conn := conn.give (data.take n), nwrote := n, faultError := false, queued := queued }

variable (conn : TcpConnection)

theorem give_nil : conn.give [] = conn := by
  simp only [give, List.append_nil]

theorem directMove (data : Bytes) (outcome : WriteResult) :
    DirectMove conn data (conn.writeDirectly data outcome : Direct μ) := by
  unfold writeDirectly
  split_ifs with idle
  · rcases conn.socket_.write_cases data outcome with
      ⟨writable, n, bound, taken⟩ | ⟨errno, closed, refused⟩
    · rw [taken]
      refine .wrote idle writable bound ?_
      split_ifs with all
      · simp only [Option.mem_some_iff, forall_eq']
        exact ⟨by omega, rfl⟩
      · simp
    · rw [refused]
      by_cases fault : errno = .ePipe ∨ errno = .eConnReset
      · simp only [fault, decide_true]
        exact .fault idle
      · simp only [fault, decide_false]
        refine .nothing fun _ => ?_
        by_contra shut
        exact fault (.inl (closed (Bool.eq_true_of_not_eq_false shut)))
  · exact .nothing fun isIdle => absurd isIdle idle

theorem appendOutput_notice (rest : Bytes) :
    ∀ functor ∈ (conn.appendOutput rest : TcpConnection × Option (Functor μ)).2,
      functor.isNotice = true := by
  simp only [appendOutput]
  split_ifs <;> simp [Functor.isNotice]

theorem sendMove (data : Bytes) (outcome : WriteResult) :
    SendMove conn data (conn.sendInLoop data outcome : Sent μ) := by
  unfold sendInLoop
  split_ifs with disconnected
  · exact .refused (.inl disconnected)
  have moved : DirectMove conn data (conn.writeDirectly data outcome : Direct μ) :=
    conn.directMove data outcome
  generalize (conn.writeDirectly data outcome : Direct μ) = direct at moved
  cases moved with
  | fault idle => exact .refused (.inr idle)
  | nothing writable =>
      by_cases left : 0 < data.length
      · simp only [Nat.sub_zero, left, and_self, if_true, List.drop_zero]
        have notice : ∀ functor ∈ (conn.appendOutput data : _ × Option (Functor μ)).2,
            functor.isNotice = true := conn.appendOutput_notice data
        have kept := SendMove.buffered (n := 0) left (fun none => absurd none (lt_irrefl 0))
          writable notice
        simp only [List.take_zero, give_nil, List.drop_zero] at kept
        exact kept
      · simp only [Nat.sub_zero, left, and_false, if_false]
        exact .empty (List.length_eq_zero_iff.mp (Nat.eq_zero_of_not_pos left))
  | @wrote n queued idle writable bound notice =>
      by_cases left : 0 < data.length - n
      · have silent : queued = none := by
          cases queued with
          | none => rfl
          | some functor => have := (notice functor rfl).1; omega
        subst silent
        simp only [left, and_self, if_true]
        exact .buffered (by omega) (fun _ => idle.2) (fun _ => writable)
          (appendOutput_notice _ _)
      · have whole : data.take n = data := List.take_of_length_le (by omega)
        simp only [left, and_false, if_false, whole]
        exact .wrote idle writable fun functor member => (notice functor member).2

/-- What a call of `handleWrite` comes to. -/
inductive DrainMove (conn : TcpConnection) : TcpConnection × Option (Functor μ) → Prop where
  | nothing : DrainMove conn (conn, none)
  | some {n : Nat} (writing : conn.channel_.writing = true)
      (writable : conn.socket_.writeShutdown = false) (left : conn.outputBuffer_.drop n ≠ []) :
      DrainMove conn
        ({ conn.give (conn.outputBuffer_.take n) with
            outputBuffer_ := conn.outputBuffer_.drop n }, none)
  | all {queued : Option (Functor μ)} (writing : conn.channel_.writing = true)
      (writable : conn.socket_.writeShutdown = false)
      (notice : ∀ functor ∈ queued, functor.isNotice = true) :
      DrainMove conn
        ({ conn.give conn.outputBuffer_ with
            outputBuffer_ := []
            channel_ := conn.channel_.disableWriting
            socket_ :=
              { written := conn.socket_.written ++ conn.outputBuffer_
                writeShutdown := conn.state_ = .kDisconnecting } }, queued)

theorem drainMove (outcome : WriteResult) :
    DrainMove conn (conn.handleWrite outcome : TcpConnection × Option (Functor μ)) := by
  unfold handleWrite
  by_cases writing : conn.channel_.writing = true
  · rw [if_pos writing]
    rcases conn.socket_.write_cases conn.outputBuffer_ outcome with
      ⟨writable, n, bound, taken⟩ | ⟨errno, -, refused⟩
    · rw [taken]
      dsimp only
      by_cases positive : 0 < n
      · rw [if_pos positive]
        by_cases emptied : conn.outputBuffer_.drop n = []
        · have whole : conn.outputBuffer_.take n = conn.outputBuffer_ :=
            List.take_of_length_le (List.drop_eq_nil_iff.mp emptied)
          have notice : ∀ functor ∈ (if conn.writeCompleteCallback_ = true then
              some Functor.writeCompleteCallback else none : Option (Functor μ)),
              functor.isNotice = true := by
            split_ifs <;> simp [Functor.isNotice]
          have moved := DrainMove.all writing writable notice
          rw [if_pos emptied, emptied, whole]
          by_cases leaving : conn.state_ = .kDisconnecting
          · simpa only [give, leaving, shutdownInLoop, Socket.shutdownWrite, if_true,
              Channel.disableWriting_writing, decide_true] using moved
          · simpa only [give, leaving, writable, if_false, decide_false] using moved
        · rw [if_neg emptied]
          exact .some writing writable emptied
      · rw [if_neg positive]
        exact .nothing
    · rw [refused]
      exact .nothing
  · rw [if_neg writing]
    exact .nothing

/-- Sends and drains queue only callbacks of the program. -/
theorem SendMove.notice {data : Bytes} {sent : Sent μ} (moved : SendMove conn data sent) :
    ∀ functor ∈ sent.queued, functor.isNotice = true := by
  cases moved with
  | refused => simp
  | empty => simp
  | wrote _ _ notice => exact notice
  | buffered _ _ _ notice => exact notice

theorem DrainMove.notice {drained : TcpConnection × Option (Functor μ)}
    (moved : DrainMove conn drained) : ∀ functor ∈ drained.2, functor.isNotice = true := by
  cases moved with
  | nothing => simp
  | some => simp
  | all _ _ notice => exact notice

/-! ## The bytes of the stream -/

/-- The bytes given to the socket and those still to be given. -/
def stream : Bytes :=
  conn.socket_.written ++ conn.outputBuffer_

/-- A send adds its bytes to the stream, or it is refused. -/
theorem SendMove.stream {data : Bytes} {sent : Sent μ} (moved : SendMove conn data sent) :
    sent.conn.stream = conn.stream ++ if sent.kept then data else [] := by
  cases moved with
  | refused reason => simp
  | empty nothing => simp [nothing]
  | wrote idle writable notice => simp [TcpConnection.stream, give, idle.2]
  | @buffered n queued some direct writable notice =>
      by_cases none : n = 0
      · simp [TcpConnection.stream, give, none]
      · simp [TcpConnection.stream, give, direct (Nat.pos_of_ne_zero none)]

theorem DrainMove.stream {drained : TcpConnection × Option (Functor μ)}
    (moved : DrainMove conn drained) : drained.1.stream = conn.stream := by
  cases moved with
  | nothing => rfl
  | some writing writable left => simp [TcpConnection.stream, give]
  | all writing writable notice => simp [TcpConnection.stream]

@[simp] theorem stream_shutdownInLoop : conn.shutdownInLoop.stream = conn.stream := by
  unfold shutdownInLoop
  split_ifs <;> rfl

theorem state_shutdownInLoop : conn.shutdownInLoop.state_ = conn.state_ := by
  unfold shutdownInLoop
  split_ifs <;> rfl

@[simp] theorem stream_startReadInLoop : conn.startReadInLoop.stream = conn.stream := by
  unfold startReadInLoop
  split_ifs <;> rfl

@[simp] theorem stream_stopReadInLoop : conn.stopReadInLoop.stream = conn.stream := by
  unfold stopReadInLoop
  split_ifs <;> rfl

@[simp] theorem stream_forceCloseInLoop : conn.forceCloseInLoop.stream = conn.stream := by
  unfold forceCloseInLoop
  split_ifs <;> rfl

@[simp] theorem stream_connectDestroyed : conn.connectDestroyed.stream = conn.stream := by
  unfold connectDestroyed
  split_ifs <;> rfl

@[simp] theorem stream_handleRead (result : ReadResult) (retrieved : Nat) :
    (conn.handleRead result retrieved).stream = conn.stream := by
  unfold handleRead
  split <;> rfl

@[simp] theorem stream_store {α : Type} (request : Request α) :
    (request.store conn).stream = conn.stream := by
  cases request <;> rfl

end TcpConnection

namespace Connection

variable {ι α : Type} {data : α → Bytes}

/-! ## What threads do to a connection -/

/-- What a thread does to a connection outside functors. -/
inductive Reacts [DecidableEq ι] (data : α → Bytes) (c : Connection ι α) :
    Option ι → Event α → Connection ι α × Option (Functor (Message ι α)) → Prop where
  | ignored (who : Option ι) (request : Request α) (outcome : WriteResult) :
      Reacts data c who (.request request outcome) (c, none)
  | perform (request : Request α) (outcome : WriteResult)
      (passes : request.passes c.tcp.state_ = true) :
      Reacts data c none (.request request outcome) (c.perform data outcome request)
  | test (t : ι) (request : Request α) (outcome : WriteResult) (free : c.passed t = none)
      (passes : request.passes c.tcp.state_ = true) :
      Reacts data c (some t) (.request request outcome)
        ({ c with
            passed := Function.update c.passed t (some request)
            sent := c.sent ++ (request.message (some t)).toList }, none)
  | proceed (t : ι) (request : Request α) (passed : c.passed t = some request) :
      Reacts data c (some t) .proceed
        ({ c with
            tcp := request.store c.tcp
            passed := Function.update c.passed t none }, some (request.functor (some t)))
  | connectEstablished :
      Reacts data c none .connectEstablished ({ c with tcp := c.tcp.connectEstablished }, none)
  | setWriteCompleteCallback (installed : Bool) :
      Reacts data c none (.setWriteCompleteCallback installed)
        ({ c with tcp := { c.tcp with writeCompleteCallback_ := installed } }, none)
  | setHighWaterMarkCallback (installed : Bool) (highWaterMark : Nat) :
      Reacts data c none (.setHighWaterMarkCallback installed highWaterMark)
        ({ c with tcp := { c.tcp with
            highWaterMarkCallback_ := installed, highWaterMark_ := highWaterMark } }, none)
  | poll (revents_ : Revents) (free : c.due = []) (watched : c.tcp.channel_.isWatched = true) :
      Reacts data c none (.poll revents_) ({ c with due := revents_.handlers }, none)
  | handle (result : ReadResult) (retrieved : Nat) (outcome : WriteResult) {handler : Handler}
      {due : List Handler} (first : c.due = handler :: due) :
      Reacts data c none (.handle result retrieved outcome)
        ({ c with due := due }.handle result retrieved outcome handler)
  | removeConnection (who : Option ι) :
      Reacts data c who .removeConnection (c, some .connectDestroyed)

theorem reacts_of_react [DecidableEq ι] {c : Connection ι α} {who : Option ι} {event : Event α}
    {reaction : Connection ι α × Option (Functor (Message ι α))}
    (reacted : (actor data).react who event c = some reaction) :
    Reacts data c who event reaction := by
  cases who with
  | none =>
      cases event with
      | request request outcome =>
          simp only [actor, reactInLoop] at reacted
          split_ifs at reacted with passes
          · obtain rfl := Option.some.inj reacted
            exact .perform request outcome passes
          · obtain rfl := Option.some.inj reacted
            exact .ignored none request outcome
      | connectEstablished =>
          obtain rfl := Option.some.inj reacted
          exact .connectEstablished
      | setWriteCompleteCallback installed =>
          obtain rfl := Option.some.inj reacted
          exact .setWriteCompleteCallback installed
      | setHighWaterMarkCallback installed highWaterMark =>
          obtain rfl := Option.some.inj reacted
          exact .setHighWaterMarkCallback installed highWaterMark
      | poll revents_ =>
          obtain ⟨⟨free, watched⟩, same⟩ := Option.ite_none_right_eq_some.mp reacted
          obtain rfl := Option.some.inj same
          exact .poll revents_ free watched
      | handle result retrieved outcome =>
          simp only [actor, reactInLoop] at reacted
          split at reacted
          · cases reacted
          · next first =>
              obtain rfl := Option.some.inj reacted
              exact .handle result retrieved outcome first
      | removeConnection =>
          obtain rfl := Option.some.inj reacted
          exact .removeConnection none
      | proceed => cases reacted
      | run outcome => cases reacted
  | some t =>
      cases event with
      | request request outcome =>
          simp only [actor, reactFromThread] at reacted
          split at reacted
          · cases reacted
          · next free =>
              split_ifs at reacted with passes
              · obtain rfl := Option.some.inj reacted
                exact .test t request outcome free passes
              · obtain rfl := Option.some.inj reacted
                exact .ignored (some t) request outcome
      | proceed =>
          simp only [actor, reactFromThread] at reacted
          split at reacted
          · cases reacted
          · next passed =>
              obtain rfl := Option.some.inj reacted
              exact .proceed t _ passed
      | removeConnection =>
          obtain rfl := Option.some.inj reacted
          exact .removeConnection (some t)
      | _ => cases reacted

theorem calls_of_call [DecidableEq ι] {c : Connection ι α} {functor : Functor (Message ι α)}
    {event : Event α} {reaction : Connection ι α × Option (Functor (Message ι α))}
    (called : (actor data).call functor event c = some reaction) :
    ∃ outcome, event = .run outcome ∧ c.due = [] ∧ c.call data outcome functor = reaction := by
  cases event with
  | run outcome =>
      obtain ⟨free, same⟩ := Option.ite_none_right_eq_some.mp called
      exact ⟨outcome, rfl, free, Option.some.inj same⟩
  | _ => cases called

/-! ## Whole messages -/

/-- The stream consists of the messages kept, which are some of those that
reached `sendInLoop`. -/
structure Whole (data : α → Bytes) (c : Connection ι α) : Prop where
  stream : c.tcp.stream = (c.kept.map fun message => data message.content).flatten
  kept : c.kept.Sublist c.executed

namespace Whole

variable {c : Connection ι α}

theorem initial : Whole data (Connection.initial ι α) where
  stream := rfl
  kept := List.Sublist.refl []

/-- Only sends and drains touch the stream. -/
theorem keep {c' : Connection ι α} (whole : Whole data c)
    (stream : c'.tcp.stream = c.tcp.stream) (executed : c'.executed = c.executed)
    (kept : c'.kept = c.kept) : Whole data c' where
  stream := by rw [stream, kept, whole.stream]
  kept := by
    rw [kept, executed]
    exact whole.kept

theorem transmit (whole : Whole data c) (message : Message ι α) (outcome : WriteResult) :
    Whole data (c.transmit data message outcome).1 := by
  simp only [Connection.transmit]
  have moved : TcpConnection.SendMove c.tcp (data message.content)
      (c.tcp.sendInLoop (data message.content) outcome : TcpConnection.Sent (Message ι α)) :=
    c.tcp.sendMove _ _
  generalize (c.tcp.sendInLoop (data message.content) outcome :
    TcpConnection.Sent (Message ι α)) = sent at moved
  refine ⟨?_, ?_⟩
  · rw [moved.stream, whole.stream]
    split_ifs <;> simp
  · refine List.Sublist.append whole.kept ?_
    split_ifs <;> simp

theorem perform (whole : Whole data c) (outcome : WriteResult) (request : Request α) :
    Whole data (c.perform data outcome request).1 := by
  cases request with
  | send content =>
      have recorded : Whole data { c with sent := c.sent ++ [⟨none, content⟩] } :=
        whole.keep rfl rfl rfl
      exact recorded.transmit ⟨none, content⟩ outcome
  | shutdown => exact whole.keep (c.tcp.setState .kDisconnecting).stream_shutdownInLoop rfl rfl
  | forceClose => exact whole.keep rfl rfl rfl
  | startRead => exact whole.keep c.tcp.stream_startReadInLoop rfl rfl
  | stopRead => exact whole.keep c.tcp.stream_stopReadInLoop rfl rfl

theorem handle (whole : Whole data c) (result : ReadResult) (retrieved : Nat)
    (outcome : WriteResult) (handler : Handler) :
    Whole data (c.handle result retrieved outcome handler).1 := by
  cases handler with
  | closeCallback_ => exact whole.keep rfl rfl rfl
  | errorCallback_ => exact whole
  | readCallback_ => exact whole.keep (c.tcp.stream_handleRead result retrieved) rfl rfl
  | writeCallback_ => exact whole.keep (c.tcp.drainMove outcome).stream rfl rfl

theorem call (whole : Whole data c) (outcome : WriteResult) (functor : Functor (Message ι α)) :
    Whole data (c.call data outcome functor).1 := by
  cases functor with
  | sendInLoop message => exact whole.transmit message outcome
  | shutdownInLoop => exact whole.keep c.tcp.stream_shutdownInLoop rfl rfl
  | forceCloseInLoop => exact whole.keep c.tcp.stream_forceCloseInLoop rfl rfl
  | startReadInLoop => exact whole.keep c.tcp.stream_startReadInLoop rfl rfl
  | stopReadInLoop => exact whole.keep c.tcp.stream_stopReadInLoop rfl rfl
  | connectDestroyed => exact whole.keep c.tcp.stream_connectDestroyed rfl rfl
  | writeCompleteCallback => exact whole.keep rfl rfl rfl
  | highWaterMarkCallback len => exact whole.keep rfl rfl rfl

theorem react [DecidableEq ι] {who : Option ι} {event : Event α}
    {reaction : Connection ι α × Option (Functor (Message ι α))} (whole : Whole data c)
    (reacts : Reacts data c who event reaction) : Whole data reaction.1 := by
  cases reacts with
  | ignored => exact whole
  | perform request outcome => exact whole.perform outcome request
  | proceed t request => exact whole.keep (c.tcp.stream_store request) rfl rfl
  | @handle result retrieved outcome handler due first =>
      have left : Whole data { c with due := due } := whole.keep rfl rfl rfl
      exact left.handle result retrieved outcome handler
  | _ => exact whole.keep rfl rfl rfl

end Whole

section

variable [DecidableEq ι]

/-- A state that the event loop of a connection reaches. -/
def Runs (data : α → Bytes) (s : EventLoop ι (Connection ι α) (Functor (Message ι α))) : Prop :=
  Reachable (EventLoop.step (actor data)) (fun _ _ => True)
    (.initial ι (Functor (Message ι α)) (Connection.initial ι α)) s

/-- A state that one queue with the functors of a connection reaches. -/
def Queues (data : α → Bytes) (s : Mailbox ι (Connection ι α) (Functor (Message ι α))) : Prop :=
  Reachable (Mailbox.step (actor data)) (fun _ _ => True)
    (.initial ι (Connection.initial ι α)) s

theorem Runs.queues {s : EventLoop ι (Connection ι α) (Functor (Message ι α))}
    (runs : Runs data s) : Queues data s.mailbox :=
  EventLoop.reachable_mailbox (Reachable.weaken runs fun _ _ _ _ _ => trivial)

theorem Whole.of_queues {s : Mailbox ι (Connection ι α) (Functor (Message ι α))}
    (queues : Queues data s) : Whole data s.state := by
  refine Mailbox.invariant_state queues Whole.initial ?_ ?_
  · intro who event c c' next whole reacted
    exact whole.react (reacts_of_react reacted)
  · intro functor event c c' next whole called
    obtain ⟨outcome, -, -, same⟩ := calls_of_call called
    have kept := whole.call outcome functor
    rwa [same] at kept

/-- **The stream is made of whole messages.**  At any time the bytes given to the
socket and those in the output buffer are the messages kept by `sendInLoop`, one
behind the other. -/
theorem stream_of_whole_messages {s : EventLoop ι (Connection ι α) (Functor (Message ι α))}
    (runs : Runs data s) :
    s.program.tcp.socket_.written ++ s.program.tcp.outputBuffer_ =
        (s.program.kept.map fun message => data message.content).flatten ∧
      s.program.kept.Sublist s.program.executed := by
  have whole := Whole.of_queues runs.queues
  exact ⟨whole.stream, whole.kept⟩

/-- Another thread sends two bytes. Before they are sent the program sends three
bytes in the thread of the loop, of which the kernel takes one. -/
def sendRun : List (EventLoop.Action Unit (Event Bytes)) :=
  [.own .enter, .own .testQuit, .own (.poll true), .react none .connectEstablished,
    .react (some ()) (.request (.send [1, 2]) (.wrote 0)), .react (some ()) .proceed,
    .pushBack (some ()), .testThread (some ()), .wakeup (some ()),
    .react none (.request (.send [3, 4, 5]) (.wrote 1)), .own .startFunctors, .own .swap,
    .own (.callFunctor (.run (.wrote 2)))]

theorem stream_of_whole_messages_sendRun :
    ∃ s, execute (EventLoop.step (actor id)) sendRun
        (.initial Unit _ (Connection.initial Unit Bytes)) = some s ∧
      s.program.tcp.socket_.written = [3] ∧ s.program.tcp.outputBuffer_ = [4, 5, 1, 2] ∧
      s.program.tcp.socket_.written ++ s.program.tcp.outputBuffer_ =
        (s.program.kept.map fun message => id message.content).flatten := by
  have outcome : (execute (EventLoop.step (actor id)) sendRun
      (.initial Unit _ (Connection.initial Unit Bytes))).map (fun s =>
        (s.program.tcp.socket_.written, s.program.tcp.outputBuffer_)) =
      some ([3], [4, 5, 1, 2]) := by decide
  obtain ⟨s, executed, reachable, same⟩ :=
    Reachable.exists_of_execute (fun _ _ => True) outcome (by decide)
  obtain ⟨written, output⟩ := Prod.mk.inj same
  exact ⟨s, executed, written, output, (stream_of_whole_messages reachable).1⟩

end

/-! ## Order -/

/-- What the thread has sent and not queued yet. -/
def waiting (s : Mailbox ι (Connection ι α) (Functor (Message ι α))) (who : Option ι) :
    List (Message ι α) :=
  ((s.outbox who).bind Functor.message).toList ++
    ((who.bind s.state.passed).bind (Request.message who)).toList

section

variable [DecidableEq ι]

/-- The messages of a thread that reached `sendInLoop`, those queued and the one
it is about to queue are those it sent. The thread of the loop queues none. -/
structure Ordered (s : Mailbox ι (Connection ι α) (Functor (Message ι α))) : Prop where
  order : ∀ who, (s.state.executed ++ s.queue.filterMap Functor.message).filter
      (fun message => message.sender = who) ++ waiting s who =
    s.state.sent.filter fun message => message.sender = who
  outbox : ∀ who, ∀ message ∈ (s.outbox who).bind Functor.message,
    message.sender = who ∧ who ≠ none
  queue : ∀ message ∈ s.queue.filterMap Functor.message, message.sender ≠ none

omit [DecidableEq ι] in
theorem message_of_isNotice {functor : Functor (Message ι α)} (notice : functor.isNotice = true) :
    functor.message = none := by
  cases functor <;> first | rfl | cases notice

omit [DecidableEq ι] in
theorem bind_message_of_notice {queued : Option (Functor (Message ι α))}
    (notice : ∀ functor ∈ queued, functor.isNotice = true) :
    queued.bind Functor.message = none := by
  cases queued with
  | none => rfl
  | some functor => exact message_of_isNotice (notice functor rfl)

/-- The reaction sends nothing and runs no send. -/
structure Silent (c : Connection ι α)
    (reaction : Connection ι α × Option (Functor (Message ι α))) : Prop where
  sent : reaction.1.sent = c.sent
  executed : reaction.1.executed = c.executed
  passed : reaction.1.passed = c.passed
  queued : reaction.2.bind Functor.message = none

omit [DecidableEq ι] in
theorem silent_handle (c : Connection ι α) (result : ReadResult) (retrieved : Nat)
    (outcome : WriteResult) (handler : Handler) :
    Silent c (c.handle result retrieved outcome handler) := by
  cases handler with
  | writeCallback_ =>
      exact ⟨rfl, rfl, rfl, bind_message_of_notice (c.tcp.drainMove outcome).notice⟩
  | _ => exact ⟨rfl, rfl, rfl, rfl⟩

omit [DecidableEq ι] in
theorem silent_call (c : Connection ι α) (outcome : WriteResult)
    {functor : Functor (Message ι α)} (none : functor.message = none) :
    Silent c (c.call data outcome functor) := by
  cases functor with
  | sendInLoop message => cases none
  | _ => exact ⟨rfl, rfl, rfl, rfl⟩

omit [DecidableEq ι] in
theorem silent_perform (c : Connection ι α) (outcome : WriteResult) {request : Request α}
    (none : request.message (none : Option ι) = none) :
    Silent c (c.perform data outcome request) := by
  cases request with
  | send content => cases none
  | _ => exact ⟨rfl, rfl, rfl, rfl⟩

omit [DecidableEq ι] in
/-- A send runs its message and queues none. -/
theorem transmit_spec (data : α → Bytes) (c : Connection ι α) (message : Message ι α)
    (outcome : WriteResult) :
    (c.transmit data message outcome).1.sent = c.sent ∧
      (c.transmit data message outcome).1.executed = c.executed ++ [message] ∧
      (c.transmit data message outcome).1.passed = c.passed ∧
      (c.transmit data message outcome).2.bind Functor.message = none :=
  ⟨rfl, rfl, rfl, bind_message_of_notice (c.tcp.sendMove _ outcome).notice⟩

omit [DecidableEq ι] in
theorem message_functor (who : Option ι) (request : Request α) :
    (request.functor who).message = request.message who := by
  cases request <;> rfl

omit [DecidableEq ι] in
theorem sender_of_message {who : Option ι} {request : Request α} {message : Message ι α}
    (isMessage : message ∈ request.message who) : message.sender = who := by
  cases request with
  | send content =>
      obtain rfl := Option.some.inj isMessage
      rfl
  | _ => cases isMessage

namespace Ordered

variable {s : Mailbox ι (Connection ι α) (Functor (Message ι α))}

theorem initial : Ordered (.initial ι (Connection.initial ι α)) where
  order := by
    intro who
    cases who <;> rfl
  outbox := by
    intro who message member
    cases member
  queue := by
    intro message member
    cases member

/-- The thread changes nothing but what it has sent and not queued. -/
theorem waiting_update {who other : Option ι} {c : Connection ι α}
    {queue : List (Functor (Message ι α))} {next : Option (Functor (Message ι α))}
    (different : other ≠ who) (passed : other.bind c.passed = other.bind s.state.passed) :
    waiting ⟨c, queue, Function.update s.outbox who next⟩ other = waiting s other := by
  simp only [waiting, Function.update_of_ne different, passed]

/-- A thread that had nothing to queue has no message to queue afterwards. -/
theorem waiting_silent {who : Option ι} (free : s.outbox who = none) {c : Connection ι α}
    {queue : List (Functor (Message ι α))} {next : Option (Functor (Message ι α))}
    (queued : next.bind Functor.message = none) (passed : c.passed = s.state.passed)
    (other : Option ι) :
    waiting ⟨c, queue, Function.update s.outbox who next⟩ other = waiting s other := by
  by_cases same : other = who
  · subst same
    simp only [waiting, Function.update_self, queued, free, passed, Option.bind_none]
  · exact waiting_update same (by rw [passed])

theorem outbox_update (ordered : Ordered s) {who : Option ι}
    {next : Option (Functor (Message ι α))}
    (queued : ∀ message ∈ next.bind Functor.message, message.sender = who ∧ who ≠ none) :
    ∀ other, ∀ message ∈ (Function.update s.outbox who next other).bind Functor.message,
      message.sender = other ∧ other ≠ none := by
  intro other message member
  by_cases same : other = who
  · subst same
    rw [Function.update_self] at member
    exact queued message member
  · rw [Function.update_of_ne same] at member
    exact ordered.outbox other message member

/-- A thread that has nothing to queue reacts without a message. -/
theorem silent (ordered : Ordered s) {who : Option ι} (free : s.outbox who = none)
    {reaction : Connection ι α × Option (Functor (Message ι α))}
    (silent : Silent s.state reaction) :
    Ordered ⟨reaction.1, s.queue, Function.update s.outbox who reaction.2⟩ where
  order := by
    intro other
    rw [waiting_silent free silent.queued silent.passed, silent.executed, silent.sent]
    exact ordered.order other
  outbox := ordered.outbox_update (by rw [silent.queued]; simp)
  queue := ordered.queue

omit [DecidableEq ι] in
/-- Nothing queued and nothing behind the test. -/
theorem waiting_eq_nil {who : Option ι} (free : s.outbox who = none)
    (none : who.bind s.state.passed = none) : waiting s who = [] := by
  simp only [waiting, free, none, Option.bind_none, Option.toList_none, List.append_nil]

/-- The thread of the loop sends; what it sends overtakes what the others have
queued. -/
theorem send (ordered : Ordered s) (free : s.outbox none = none) (content : α)
    (outcome : WriteResult) :
    Ordered ⟨(s.state.perform data outcome (.send content)).1, s.queue,
      Function.update s.outbox none (s.state.perform data outcome (.send content)).2⟩ := by
  have queued : (s.state.perform data outcome (.send content)).2.bind Functor.message = none :=
    (transmit_spec data { s.state with sent := s.state.sent ++ [⟨none, content⟩] }
      ⟨none, content⟩ outcome).2.2.2
  refine ⟨fun other => ?_, ordered.outbox_update (by rw [queued]; simp), ordered.queue⟩
  have before := ordered.order other
  have passed : (s.state.perform data outcome (.send content)).1.passed = s.state.passed := rfl
  rw [waiting_silent free queued passed]
  show (s.state.executed ++ [(⟨none, content⟩ : Message ι α)] ++
      s.queue.filterMap Functor.message).filter (fun message => message.sender = other) ++ _ =
    (s.state.sent ++ [(⟨none, content⟩ : Message ι α)]).filter
      fun message => message.sender = other
  by_cases own : other = none
  · subst own
    have noneQueued : (s.queue.filterMap Functor.message).filter
        (fun message => message.sender = none) = [] := by
      rw [List.filter_eq_nil_iff]
      intro message member isNone
      exact ordered.queue message member (of_decide_eq_true isNone)
    rw [waiting_eq_nil free rfl, List.append_nil] at before ⊢
    rw [List.filter_append, noneQueued, List.append_nil] at before ⊢
    rw [List.filter_append, before, List.filter_append]
  · have others : [(⟨none, content⟩ : Message ι α)].filter
        (fun message => message.sender = other) = [] := by
      simp [Ne.symm own]
    simp only [List.filter_append, others, List.append_nil] at before ⊢
    exact before

theorem test (ordered : Ordered s) {t : ι} (free : s.outbox (some t) = none)
    (none : s.state.passed t = none) (request : Request α) :
    Ordered ⟨{ s.state with
        passed := Function.update s.state.passed t (some request)
        sent := s.state.sent ++ (request.message (some t)).toList }, s.queue,
      Function.update s.outbox (some t) Option.none⟩ where
  order := by
    intro other
    have before := ordered.order other
    show _ = (s.state.sent ++ (request.message (some t)).toList).filter _
    rw [List.filter_append s.state.sent]
    by_cases same : other = some t
    · subst same
      have mine : (request.message (some t)).toList.filter
          (fun message => message.sender = some t) = (request.message (some t)).toList := by
        rw [List.filter_eq_self]
        intro message member
        exact decide_eq_true (sender_of_message (Option.mem_toList.mp member))
      rw [waiting_eq_nil free none, List.append_nil] at before
      rw [mine, ← before]
      simp [waiting]
    · have others : (request.message (some t)).toList.filter
          (fun message => message.sender = other) = [] := by
        rw [List.filter_eq_nil_iff]
        intro message member isOther
        have sender := sender_of_message (Option.mem_toList.mp member)
        exact same ((of_decide_eq_true isOther).symm.trans sender)
      rw [others, List.append_nil, waiting_update same]
      · exact before
      · cases other with
        | none => rfl
        | some u =>
            have different : u ≠ t := fun isT => same (by rw [isT])
            simp only [Option.bind_some, Function.update_of_ne different]
  outbox := ordered.outbox_update (by simp)
  queue := ordered.queue

theorem proceed (ordered : Ordered s) {t : ι} (free : s.outbox (some t) = none)
    {request : Request α} (passed : s.state.passed t = some request) :
    Ordered ⟨{ s.state with
        tcp := request.store s.state.tcp
        passed := Function.update s.state.passed t none }, s.queue,
      Function.update s.outbox (some t) (some (request.functor (some t)))⟩ where
  order := by
    intro other
    have same : waiting ⟨{ s.state with
        tcp := request.store s.state.tcp
        passed := Function.update s.state.passed t none }, s.queue,
      Function.update s.outbox (some t) (some (request.functor (some t)))⟩ other =
        waiting s other := by
      by_cases isWho : other = some t
      · subst isWho
        simp [waiting, free, passed, message_functor]
      · refine waiting_update isWho ?_
        cases other with
        | none => rfl
        | some u =>
            have different : u ≠ t := fun same => isWho (by rw [same])
            simp [Function.update_of_ne different]
    rw [same]
    exact ordered.order other
  outbox := ordered.outbox_update (by
    simp only [Option.bind_some, message_functor]
    exact fun message member => ⟨sender_of_message member, by simp⟩)
  queue := ordered.queue

theorem post (ordered : Ordered s) {who : Option ι} {functor : Functor (Message ι α)}
    (ready : s.outbox who = some functor) :
    Ordered ⟨s.state, s.queue ++ [functor], Function.update s.outbox who none⟩ := by
  have sender : ∀ message ∈ functor.message, message.sender = who ∧ who ≠ none := by
    have mine := ordered.outbox who
    rwa [ready] at mine
  have split : (s.queue ++ [functor]).filterMap Functor.message =
      s.queue.filterMap Functor.message ++ functor.message.toList := by
    rw [List.filterMap_append]
    cases functor <;> rfl
  refine ⟨fun other => ?_, ordered.outbox_update (by simp), ?_⟩
  · rw [split, ← List.append_assoc, List.filter_append, ← ordered.order other]
    by_cases same : other = who
    · subst same
      have mine : functor.message.toList.filter (fun message => message.sender = other) =
          functor.message.toList := by
        rw [List.filter_eq_self]
        intro message member
        exact decide_eq_true (sender message (Option.mem_toList.mp member)).1
      rw [mine]
      simp [waiting, ready]
    · have others : functor.message.toList.filter (fun message => message.sender = other) = [] := by
        rw [List.filter_eq_nil_iff]
        intro message member isOther
        have isWho := (sender message (Option.mem_toList.mp member)).1
        exact same ((of_decide_eq_true isOther).symm.trans isWho)
      rw [others, List.append_nil, waiting_update same rfl]
  · intro message member
    rw [split, List.mem_append, Option.mem_toList] at member
    rcases member with before | posted
    · exact ordered.queue message before
    · obtain ⟨isWho, notOwn⟩ := sender message posted
      rwa [isWho]

theorem call (ordered : Ordered s) (data : α → Bytes) (free : s.outbox none = none)
    {functor : Functor (Message ι α)} {rest : List (Functor (Message ι α))}
    (first : s.queue = functor :: rest) (outcome : WriteResult) :
    Ordered ⟨(s.state.call data outcome functor).1, rest,
      Function.update s.outbox none (s.state.call data outcome functor).2⟩ := by
  have left : ∀ message ∈ rest.filterMap Functor.message, message.sender ≠ none := by
    intro message member
    refine ordered.queue message ?_
    rw [first]
    exact ((List.sublist_cons_self functor rest).filterMap Functor.message).subset member
  cases isMessage : functor.message with
  | none =>
      have fewer : s.queue.filterMap Functor.message = rest.filterMap Functor.message := by
        rw [first, List.filterMap_cons_none isMessage]
      have popped : Ordered (⟨s.state, rest, s.outbox⟩ : Mailbox ι _ _) :=
        ⟨fun other => by rw [← ordered.order other, fewer]; rfl, ordered.outbox, left⟩
      exact popped.silent free (silent_call s.state outcome isMessage)
  | some sent =>
      cases functor with
      | sendInLoop message =>
          have queued : (s.state.call data outcome (.sendInLoop message)).2.bind
            Functor.message = none := (transmit_spec data s.state message outcome).2.2.2
          refine ⟨fun other => ?_, ordered.outbox_update (by rw [queued]; simp), left⟩
          have before := ordered.order other
          rw [first, List.filterMap_cons_some isMessage, List.append_cons] at before
          have passed : (s.state.call data outcome (.sendInLoop message)).1.passed =
            s.state.passed := rfl
          rw [waiting_silent free queued passed]
          obtain rfl := Option.some.inj isMessage
          exact before
      | _ => cases isMessage

theorem react (ordered : Ordered s) {who : Option ι} {event : Event α}
    (free : s.outbox who = none)
    {reaction : Connection ι α × Option (Functor (Message ι α))}
    (reacts : Reacts data s.state who event reaction) :
    Ordered ⟨reaction.1, s.queue, Function.update s.outbox who reaction.2⟩ := by
  cases reacts with
  | perform request outcome passes =>
      cases isMessage : request.message (none : Option ι) with
      | none => exact ordered.silent free (silent_perform s.state outcome isMessage)
      | some message =>
          cases request with
          | send content => exact ordered.send free content outcome
          | _ => cases isMessage
  | test t request outcome none passes => exact ordered.test free none request
  | proceed t request passed => exact ordered.proceed free passed
  | @handle result retrieved outcome handler due first =>
      have silent := silent_handle { s.state with due := due } result retrieved outcome handler
      exact ordered.silent free ⟨silent.sent, silent.executed, silent.passed, silent.queued⟩
  | _ => exact ordered.silent free ⟨rfl, rfl, rfl, rfl⟩

theorem move {action : Mailbox.Action ι (Event α)}
    {s' : Mailbox ι (Connection ι α) (Functor (Message ι α))} (ordered : Ordered s)
    (moved : Mailbox.Move (actor data) s action s') : Ordered s' := by
  cases moved with
  | react free reacted => exact ordered.react free (reacts_of_react reacted)
  | post ready => exact ordered.post ready
  | call free first called =>
      obtain ⟨outcome, -, -, same⟩ := calls_of_call called
      have ran := ordered.call data free first outcome
      rwa [same] at ran

theorem of_queues (queues : Queues data s) : Ordered s :=
  Reachable.invariant queues Ordered.initial fun _ _ _ ordered _ stepped =>
    ordered.move (Mailbox.move_of_step stepped)

end Ordered

theorem executed_prefix_sent {s : EventLoop ι (Connection ι α) (Functor (Message ι α))}
    (runs : Runs data s) (who : Option ι) :
    s.program.executed.filter (fun message => message.sender = who) <+:
      s.program.sent.filter fun message => message.sender = who := by
  have order := (Ordered.of_queues runs.queues).order who
  rw [List.filter_append, List.append_assoc] at order
  exact ⟨_, order⟩

/-- What reached `sendInLoop` was sent. -/
theorem mem_sent_of_executed {s : EventLoop ι (Connection ι α) (Functor (Message ι α))}
    (runs : Runs data s) {message : Message ι α} (executed : message ∈ s.program.executed) :
    message ∈ s.program.sent := by
  have mine : message ∈ s.program.executed.filter
      (fun other => other.sender = message.sender) := by
    rw [List.mem_filter]
    exact ⟨executed, decide_eq_true rfl⟩
  exact (List.mem_filter.mp ((executed_prefix_sent runs message.sender).subset mine)).1

/-- **The messages of a thread stay in order.**  What a thread has sent reaches
`sendInLoop` in the order in which it was sent, with none missing in between and
none twice. -/
theorem sends_stay_in_order {s : EventLoop ι (Connection ι α) (Functor (Message ι α))}
    (runs : Runs data s) (who : Option ι) :
    s.program.executed.filter (fun message => message.sender = who) <+:
      s.program.sent.filter fun message => message.sender = who :=
  executed_prefix_sent runs who

end

/-- The message of the other thread is sent but still queued. -/
theorem sends_stay_in_order_sendRun :
    ∃ s, execute (EventLoop.step (actor id)) (sendRun.take 10)
        (.initial Unit _ (Connection.initial Unit Bytes)) = some s ∧
      s.program.sent = [⟨some (), [1, 2]⟩, ⟨none, [3, 4, 5]⟩] ∧
      s.program.executed = [⟨none, [3, 4, 5]⟩] ∧
      ∀ who, s.program.executed.filter (fun message => message.sender = who) <+:
        s.program.sent.filter fun message => message.sender = who := by
  have outcome : (execute (EventLoop.step (actor id)) (sendRun.take 10)
      (.initial Unit _ (Connection.initial Unit Bytes))).map (fun s =>
        (s.program.sent, s.program.executed)) =
      some ([⟨some (), [1, 2]⟩, ⟨none, [3, 4, 5]⟩], [⟨none, [3, 4, 5]⟩]) := by decide
  obtain ⟨s, executed, reachable, same⟩ :=
    Reachable.exists_of_execute (fun _ _ => True) outcome (by decide)
  obtain ⟨sent, ran⟩ := Prod.mk.inj same
  exact ⟨s, executed, sent, ran, sends_stay_in_order reachable⟩

end Connection

end AirNet.Muduo
