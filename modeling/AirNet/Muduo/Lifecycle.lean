import AirNet.Muduo.Stream

/-!
# What the program is told of a connection

A program learns of a connection through callbacks: it is up, a message has
arrived, it is down, it is closed. The program may rely on their order. The
connection is reported up once, before anything else; messages follow; it is
reported down at most once, and no message follows; `closeCallback_` comes last
and at most once. Meanwhile no assertion of the connection fails
(`callbacks_follow_protocol`).

This holds in the runs that the connection is made for (`Disciplined`). The
kernel reports what was asked for, and a hangup of a connection that is read
together with something to read. `connectEstablished` is called once.
`connectDestroyed` is called behind it, once, and not while the connection is
disconnecting. Another thread that stores `kDisconnecting` still finds the
connection as it had tested it, as if with the compare-and-swap that the source
asks for. Reading is started and stopped only on a connection that is up. And
the connection is closed only while the poller watches its channel.

A program does not keep the last two by itself. A session starts reading in a
callback that may be called after the connection was closed; the channel is then
polled again, and the connection is closed a second time
(`startRead_after_close`). A connection that is not read and has nothing to
write is not watched, and to close it by force is to disable its channel again,
which adds it to the poller; a hangup then closes the connection a second time
(`forceClose_while_not_read`).
-/

set_option autoImplicit false

namespace AirNet.Muduo

open AirNet.Cpp AirNet.Lib
open AirNet.Net (StateE Errno WriteResult)

/-! ## The protocol -/

/-- The callbacks that report what becomes of the connection. -/
def Callback.isReport : Callback → Bool
  | .connectionCallback_ _ => true
  | .messageCallback_ => true
  | .closeCallback_ => true
  | .writeCompleteCallback_ => false
  | .highWaterMarkCallback_ _ => false

/-- The reports that a program may have got when the connection is in a state. -/
inductive Protocol : StateE → List Callback → Prop where
  | connecting : Protocol .kConnecting []
  | up {state_ : StateE} (alive : state_ = .kConnected ∨ state_ = .kDisconnecting) (n : Nat) :
      Protocol state_ (.connectionCallback_ true :: List.replicate n .messageCallback_)
  | down (n : Nat) (closed : List Callback) (last : closed <+: [.closeCallback_]) :
      Protocol .kDisconnected (.connectionCallback_ true ::
        (List.replicate n .messageCallback_ ++ .connectionCallback_ false :: closed))

namespace TcpConnection

def reports (conn : TcpConnection) : List Callback :=
  conn.callbacks.filter Callback.isReport

/-- The connection was reported up and not down. -/
def Alive (conn : TcpConnection) : Prop :=
  conn.state_ = .kConnected ∨ conn.state_ = .kDisconnecting

instance (conn : TcpConnection) : Decidable conn.Alive :=
  inferInstanceAs (Decidable (_ ∨ _))

/-- The channel of a connection that is up is watched as long as it wants
something, and it is read unless the program has stopped that. -/
structure Watched (conn : TcpConnection) : Prop where
  reading : conn.channel_.reading = conn.reading_
  inStep : conn.channel_.InStep

/-- The channel wants nothing and is not watched. -/
structure Unwatched (conn : TcpConnection) : Prop where
  events : conn.channel_.events = noneEvent
  unwatched : conn.channel_.index_ ≠ kAdded

/-- No assertion has failed, the reports follow the protocol, and the channel of
a connection that is not up is not watched. -/
structure Proper (conn : TcpConnection) : Prop where
  asserted : conn.asserted = true
  protocol : Protocol conn.state_ conn.reports
  fresh : conn.state_ = .kConnecting → conn.channel_.index_ = kNew ∧ conn.reading_ = true
  up : conn.Alive → conn.Watched
  down : ¬ conn.Alive → conn.Unwatched

variable {conn conn' : TcpConnection} {μ : Type}

theorem Alive.ne_connecting (alive : conn.Alive) : conn.state_ ≠ .kConnecting := by
  rcases alive with up | up <;> rw [up] <;> decide

namespace Proper

theorem construct : TcpConnection.construct.Proper where
  asserted := rfl
  protocol := .connecting
  fresh := fun _ => ⟨rfl, rfl⟩
  up := by
    intro alive
    exact absurd rfl alive.ne_connecting
  down := fun _ => ⟨rfl, by decide⟩

/-- Nothing is reported, and the state and the channel stay. -/
theorem keep (proper : conn.Proper) (state : conn'.state_ = conn.state_)
    (reports : conn'.reports = conn.reports) (asserted : conn'.asserted = conn.asserted)
    (reading : conn'.reading_ = conn.reading_) (channel : conn'.channel_ = conn.channel_) :
    conn'.Proper where
  asserted := asserted.trans proper.asserted
  protocol := by
    rw [state, reports]
    exact proper.protocol
  fresh := by
    rw [state, channel, reading]
    exact proper.fresh
  up := by
    rw [Alive, state]
    intro alive
    obtain ⟨reads, inStep⟩ := proper.up alive
    rw [← channel] at reads inStep
    exact ⟨reads.trans reading.symm, inStep⟩
  down := by
    rw [Alive, state]
    intro down
    obtain ⟨events, unwatched⟩ := proper.down down
    rw [← channel] at events unwatched
    exact ⟨events, unwatched⟩

theorem of_alive (alive : conn.Alive) (asserted : conn.asserted = true)
    (protocol : Protocol conn.state_ conn.reports) (watched : conn.Watched) : conn.Proper where
  asserted := asserted
  protocol := protocol
  fresh := fun connecting => absurd connecting alive.ne_connecting
  up := fun _ => watched
  down := fun down => absurd alive down

theorem of_disconnected (disconnected : conn.state_ = .kDisconnected)
    (asserted : conn.asserted = true) (protocol : Protocol conn.state_ conn.reports)
    (unwatched : conn.Unwatched) : conn.Proper where
  asserted := asserted
  protocol := protocol
  fresh := by
    intro connecting
    rw [disconnected] at connecting
    cases connecting
  up := by
    rintro (up | up) <;> rw [disconnected] at up <;> cases up
  down := fun _ => unwatched

/-- Nothing is reported while the channel of a connection that is up changes. -/
theorem change (proper : conn.Proper) (alive : conn.Alive) (state : conn'.state_ = conn.state_)
    (reports : conn'.reports = conn.reports) (asserted : conn'.asserted = conn.asserted)
    (watched : conn'.Watched) : conn'.Proper := by
  refine of_alive ?_ (asserted.trans proper.asserted) ?_ watched
  · rw [Alive, state]
    exact alive
  · rw [state, reports]
    exact proper.protocol

theorem reports_of_alive (proper : conn.Proper) (alive : conn.Alive) :
    ∃ n, conn.reports = .connectionCallback_ true :: List.replicate n .messageCallback_ := by
  have protocol := proper.protocol
  generalize state : conn.state_ = state_ at protocol
  generalize conn.reports = reports at protocol
  cases protocol with
  | connecting => rcases alive with up | up <;> rw [state] at up <;> cases up
  | up _ n => exact ⟨n, rfl⟩
  | down => rcases alive with up | up <;> rw [state] at up <;> cases up

theorem alive_of_watched (proper : conn.Proper) (watched : conn.channel_.isWatched = true) :
    conn.Alive := by
  by_contra down
  exact (proper.down down).unwatched (of_decide_eq_true watched)

theorem alive_of_writing (proper : conn.Proper) (writing : conn.channel_.writing = true) :
    conn.Alive := by
  by_contra down
  exact Channel.wants_of_writing writing (proper.down down).events

/-- A connection that is up stays up and reports nothing. -/
theorem setState (proper : conn.Proper) (alive : conn.Alive) :
    (conn.setState .kDisconnecting).Proper := by
  obtain ⟨reading, inStep⟩ := proper.up alive
  refine of_alive (.inr rfl) proper.asserted ?_ ⟨reading, inStep⟩
  obtain ⟨n, reports⟩ := proper.reports_of_alive alive
  have same : (conn.setState .kDisconnecting).reports = conn.reports := rfl
  rw [same, reports]
  exact .up (.inr rfl) n

/-- A channel that is watched is not any more when the connection is closed. -/
theorem handleClose (proper : conn.Proper) (alive : conn.Alive)
    (watched : conn.channel_.isWatched = true) : conn.handleClose.Proper := by
  refine of_disconnected rfl ?_ ?_ ⟨rfl, ?_⟩
  · exact Bool.and_eq_true_iff.mpr ⟨proper.asserted, decide_eq_true alive⟩
  · obtain ⟨n, reports⟩ := proper.reports_of_alive alive
    have appended : conn.handleClose.reports =
        conn.reports ++ [.connectionCallback_ false, .closeCallback_] :=
      List.filter_append _ _
    rw [appended, reports, List.cons_append]
    exact .down n [.closeCallback_] (List.prefix_refl _)
  · intro added
    have inStep : conn.channel_.disableAll.InStep := .of_watched (of_decide_eq_true watched)
    exact inStep.watched.mp added rfl

theorem connectEstablished (proper : conn.Proper) (connecting : conn.state_ = .kConnecting) :
    conn.connectEstablished.Proper := by
  obtain ⟨new, reading⟩ := proper.fresh connecting
  refine of_alive (.inl rfl) ?_ ?_ ⟨reading.symm, ?_⟩
  · exact Bool.and_eq_true_iff.mpr ⟨proper.asserted, decide_eq_true connecting⟩
  · have none : conn.reports = [] := by
      have protocol := proper.protocol
      rw [connecting] at protocol
      generalize conn.reports = reports at protocol
      cases protocol with
      | connecting => rfl
      | up alive => rcases alive with up | up <;> cases up
    have appended : conn.connectEstablished.reports =
        conn.reports ++ [.connectionCallback_ true] :=
      List.filter_append _ _
    rw [appended, none]
    exact .up (.inl rfl) 0
  · exact .of_unwatched (.inl new) (Channel.wants_of_reading rfl)

/-- A message is reported while the connection is up. -/
theorem handleRead (proper : conn.Proper) (alive : conn.Alive) (result : ReadResult)
    (retrieved : Nat) (watched : result = .read [] → conn.channel_.isWatched = true) :
    (conn.handleRead result retrieved).Proper := by
  cases result with
  | failed errno => exact proper
  | read bytes =>
      cases bytes with
      | nil => exact proper.handleClose alive (watched rfl)
      | cons byte bytes =>
          obtain ⟨reading, inStep⟩ := proper.up alive
          refine of_alive alive proper.asserted ?_ ⟨reading, inStep⟩
          obtain ⟨n, reports⟩ := proper.reports_of_alive alive
          have appended : (conn.handleRead (.read (byte :: bytes)) retrieved).reports =
              conn.reports ++ [.messageCallback_] :=
            List.filter_append _ _
          rw [appended, reports, List.cons_append, ← List.replicate_succ']
          exact .up alive (n + 1)

theorem connectDestroyed (proper : conn.Proper) (settled : conn.state_ ≠ .kDisconnecting)
    (known : conn.channel_.index_ ≠ kNew) : conn.connectDestroyed.Proper := by
  unfold TcpConnection.connectDestroyed
  split_ifs with connected
  · have kept : conn.channel_.disableAll.index_ ≠ kNew :=
      Channel.disableAll_index (proper.up (.inl connected)).inStep
    refine of_disconnected rfl ?_ ?_ ⟨rfl, Channel.remove_index _⟩
    · exact Bool.and_eq_true_iff.mpr ⟨proper.asserted, decide_eq_true ⟨rfl, kept⟩⟩
    obtain ⟨n, reports⟩ := proper.reports_of_alive (.inl connected)
    show Protocol .kDisconnected
      ((conn.callbacks ++ [Callback.connectionCallback_ false]).filter Callback.isReport)
    have appended : (conn.callbacks ++ [Callback.connectionCallback_ false]).filter
        Callback.isReport = conn.reports ++ [.connectionCallback_ false] :=
      List.filter_append _ _
    rw [appended, reports, List.cons_append]
    exact .down n [] List.nil_prefix
  · have disconnected : conn.state_ = .kDisconnected := by
      cases state : conn.state_ with
      | kConnecting => exact absurd (proper.fresh state).1 known
      | kConnected => exact absurd state connected
      | kDisconnecting => exact absurd state settled
      | kDisconnected => rfl
    have silent : conn.channel_.events = noneEvent := by
      refine (proper.down ?_).events
      rintro (up | up)
      · exact connected up
      · exact settled up
    refine of_disconnected disconnected ?_ proper.protocol ⟨silent, Channel.remove_index _⟩
    exact Bool.and_eq_true_iff.mpr ⟨proper.asserted, decide_eq_true ⟨silent, known⟩⟩

theorem forceCloseInLoop (proper : conn.Proper)
    (watched : conn.Alive → conn.channel_.isWatched = true) : conn.forceCloseInLoop.Proper := by
  unfold TcpConnection.forceCloseInLoop
  split_ifs with alive
  · exact proper.handleClose alive (watched alive)
  · exact proper

/-- Bytes are buffered only for a connection that is up. -/
theorem sendMove {data : Bytes} {sent : Sent μ} (proper : conn.Proper)
    (moved : SendMove conn data sent) (alive : conn.Alive) : sent.conn.Proper := by
  cases moved with
  | refused => exact proper
  | empty => exact proper
  | wrote => exact proper.keep rfl rfl rfl rfl rfl
  | buffered =>
      obtain ⟨reading, inStep⟩ := proper.up alive
      refine proper.change alive rfl rfl rfl ?_
      by_cases writing : conn.channel_.writing = true
      · exact ⟨by rwa [if_pos writing], by rwa [if_pos writing]⟩
      · exact ⟨by rwa [if_neg writing], by rw [if_neg writing]; exact inStep.enableWriting⟩

theorem sendInLoop (proper : conn.Proper) (notEarly : conn.state_ ≠ .kConnecting) (data : Bytes)
    (outcome : WriteResult) : (conn.sendInLoop data outcome : Sent μ).conn.Proper := by
  by_cases disconnected : conn.state_ = .kDisconnected
  · have refused : (conn.sendInLoop data outcome : Sent μ).conn = conn := by
      simp only [TcpConnection.sendInLoop, disconnected, if_true]
    rwa [refused]
  · have alive : conn.Alive := by
      unfold Alive
      cases state : conn.state_ with
      | kConnecting => exact absurd state notEarly
      | kConnected => exact .inl rfl
      | kDisconnecting => exact .inr rfl
      | kDisconnected => exact absurd state disconnected
    exact proper.sendMove (conn.sendMove data outcome) alive

theorem drainMove {drained : TcpConnection × Option (Functor μ)} (proper : conn.Proper)
    (moved : DrainMove conn drained) : drained.1.Proper := by
  cases moved with
  | nothing => exact proper
  | some => exact proper.keep rfl rfl rfl rfl rfl
  | all writing =>
      have alive : conn.Alive := proper.alive_of_writing writing
      obtain ⟨reading, inStep⟩ := proper.up alive
      exact proper.change alive rfl rfl rfl ⟨reading, inStep.disableWriting writing⟩

/-- The other callbacks report nothing of the connection. -/
theorem callBack (proper : conn.Proper) {callback : Callback}
    (notReport : callback.isReport = false) : (conn.callBack [callback]).Proper := by
  refine proper.keep rfl ?_ rfl rfl rfl
  show (conn.callbacks ++ [callback]).filter Callback.isReport = conn.reports
  rw [List.filter_append, List.filter_singleton, notReport]
  exact List.append_nil _

theorem shutdownInLoop (proper : conn.Proper) : conn.shutdownInLoop.Proper := by
  unfold TcpConnection.shutdownInLoop
  split_ifs
  · exact proper.keep rfl rfl rfl rfl rfl
  · exact proper

theorem startReadInLoop (proper : conn.Proper) (alive : conn.Alive) :
    conn.startReadInLoop.Proper := by
  unfold TcpConnection.startReadInLoop
  split_ifs
  · exact proper.change alive rfl rfl rfl ⟨rfl, (proper.up alive).inStep.enableReading⟩
  · exact proper

theorem stopReadInLoop (proper : conn.Proper) (alive : conn.Alive) :
    conn.stopReadInLoop.Proper := by
  unfold TcpConnection.stopReadInLoop
  split_ifs with reads
  · obtain ⟨reading, inStep⟩ := proper.up alive
    rw [← reading, or_self] at reads
    exact proper.change alive rfl rfl rfl ⟨rfl, inStep.disableReading reads⟩
  · exact proper

end Proper

/-! ## States that stay -/

theorem state_sendMove {data : Bytes} {sent : Sent μ} (moved : SendMove conn data sent) :
    sent.conn.state_ = conn.state_ := by
  cases moved <;> rfl

theorem state_drainMove {drained : TcpConnection × Option (Functor μ)}
    (moved : DrainMove conn drained) : drained.1.state_ = conn.state_ := by
  cases moved <;> rfl

theorem state_startReadInLoop : conn.startReadInLoop.state_ = conn.state_ := by
  unfold startReadInLoop
  split_ifs <;> rfl

theorem state_stopReadInLoop : conn.stopReadInLoop.state_ = conn.state_ := by
  unfold stopReadInLoop
  split_ifs <;> rfl

/-! No operation goes back to a connection that is not established. -/

theorem connecting_of_handleRead {result : ReadResult} {retrieved : Nat}
    (connecting : (conn.handleRead result retrieved).state_ = .kConnecting) :
    conn.state_ = .kConnecting := by
  cases result with
  | failed errno => exact connecting
  | read bytes =>
      cases bytes with
      | nil => cases connecting
      | cons => exact connecting

theorem connecting_of_forceCloseInLoop (connecting : conn.forceCloseInLoop.state_ = .kConnecting) :
    conn.state_ = .kConnecting := by
  unfold forceCloseInLoop at connecting
  split_ifs at connecting with alive
  · cases connecting
  · exact connecting

theorem connecting_of_connectDestroyed (connecting : conn.connectDestroyed.state_ = .kConnecting) :
    conn.state_ = .kConnecting := by
  unfold connectDestroyed at connecting
  split_ifs at connecting with connected
  · cases connecting
  · exact connecting

end TcpConnection

/-! ## Handlers that are due -/

/-- The handlers that read or close. -/
def Handler.mayClose : Handler → Bool
  | .closeCallback_ => true
  | .readCallback_ => true
  | .errorCallback_ => false
  | .writeCallback_ => false

/-- The handler closes the connection. -/
def Handler.closes (result : ReadResult) : Handler → Bool
  | .closeCallback_ => true
  | .readCallback_ => result = .read []
  | .errorCallback_ => false
  | .writeCallback_ => false

/-- What `poll` reports is enabled, and a hangup of a channel that reads comes
with something to read. -/
def Revents.reported (revents_ : Revents) (channel_ : Events) : Bool :=
  (!(revents_.pollIn || revents_.pollPri || revents_.pollRdhup) || channel_.reading) &&
  (!revents_.pollOut || channel_.writing) &&
  (!(revents_.pollHup && channel_.reading) || revents_.pollIn)

/-- One report makes the channel read or close, not both. -/
theorem countP_handlers_le {channel_ : Events} {revents_ : Revents}
    (reported : revents_.reported channel_ = true) :
    revents_.handlers.countP Handler.mayClose ≤ 1 := by
  have exclusive : (revents_.pollHup && !revents_.pollIn) = true →
      (revents_.pollIn || revents_.pollPri || revents_.pollRdhup) = false := by
    simp only [Revents.reported, Bool.and_eq_true] at reported
    obtain ⟨⟨asked, -⟩, hangup⟩ := reported
    cases reading : channel_.reading with
    | true =>
        rw [reading, Bool.and_true] at hangup
        cases isHup : revents_.pollHup <;> cases isIn : revents_.pollIn <;> simp_all
    | false =>
        rw [reading, Bool.or_false, Bool.not_eq_true'] at asked
        exact fun _ => asked
  simp only [Revents.handlers, List.countP_append]
  by_cases hangup : (revents_.pollHup && !revents_.pollIn) = true
  · have noRead : ¬ (revents_.pollIn || revents_.pollPri || revents_.pollRdhup) = true := by
      rw [exclusive hangup]
      exact Bool.false_ne_true
    rw [if_pos hangup, if_neg noRead]
    split_ifs <;> simp [Handler.mayClose]
  · rw [if_neg hangup]
    split_ifs <;> simp [Handler.mayClose]

namespace Connection

variable {ι α : Type} {data : α → Bytes}

/-- What the kernel, the server and the program keep to outside functors. -/
def reactDisciplined (c : Connection ι α) : Option ι → Event α → Bool
  | none, .connectEstablished => c.tcp.state_ = .kConnecting
  | none, .request .startRead _ => c.tcp.Alive
  | none, .request .stopRead _ => c.tcp.Alive
  | none, .poll revents_ => revents_.reported c.tcp.channel_.events
  | none, .handle result _ _ => c.due.head?.all fun handler =>
      !handler.closes result || c.tcp.channel_.isWatched
  | some t, .proceed => (c.passed t).all fun request =>
      request.store c.tcp = c.tcp ∨ request.passes c.tcp.state_ = true
  | _, _ => true

/-- What they keep to when a functor is called. -/
def callDisciplined (c : Connection ι α) : Functor (Message ι α) → Bool
  | .startReadInLoop => c.tcp.Alive
  | .stopReadInLoop => c.tcp.Alive
  | .forceCloseInLoop => !decide c.tcp.Alive || c.tcp.channel_.isWatched
  | .connectDestroyed => c.tcp.state_ ≠ .kDisconnecting ∧ c.tcp.channel_.index_ ≠ kNew
  | _ => true

/-- The runs that the connection is made for. -/
def Disciplined (action : Mailbox.Action ι (Event α))
    (s : Mailbox ι (Connection ι α) (Functor (Message ι α))) : Prop :=
  match action with
  | .react who event => s.state.reactDisciplined who event = true
  | .post _ => True
  | .call _ => s.queue.head?.all s.state.callDisciplined = true

instance (action : Mailbox.Action ι (Event α))
    (s : Mailbox ι (Connection ι α) (Functor (Message ι α))) :
    Decidable (Disciplined action s) :=
  match action with
  | .react who event =>
      inferInstanceAs (Decidable (s.state.reactDisciplined who event = true))
  | .post _ => inferInstanceAs (Decidable True)
  | .call _ => inferInstanceAs (Decidable (s.queue.head?.all s.state.callDisciplined = true))

/-- A connection before it is established has sent nothing. The handlers due
close at most once, and not when the connection is not up. -/
structure Lives (c : Connection ι α) : Prop where
  proper : c.tcp.Proper
  early : c.tcp.state_ = .kConnecting → c.sent = []
  once : c.due.countP Handler.mayClose ≤ 1
  ended : ¬ c.tcp.Alive → c.due.countP Handler.mayClose = 0

namespace Lives

variable {c c' : Connection ι α}

theorem initial : Lives (Connection.initial ι α) where
  proper := .construct
  early := fun _ => rfl
  once := Nat.zero_le 1
  ended := fun _ => rfl

/-- The state stays, and so do the handlers due. -/
theorem keep (lives : Lives c) (proper : c'.tcp.Proper) (state : c'.tcp.state_ = c.tcp.state_)
    (sent : c'.sent = c.sent ∨ c.tcp.state_ ≠ .kConnecting) (due : c'.due = c.due) :
    Lives c' where
  proper := proper
  early := by
    rw [state]
    intro connecting
    rcases sent with same | notEarly
    · exact same.trans (lives.early connecting)
    · exact absurd connecting notEarly
  once := by
    rw [due]
    exact lives.once
  ended := by
    rw [TcpConnection.Alive, state, due]
    exact lives.ended

/-- The connection is up. -/
theorem of_alive (proper : c'.tcp.Proper) (alive : c'.tcp.Alive)
    (once : c'.due.countP Handler.mayClose ≤ 1) : Lives c' where
  proper := proper
  early := by
    intro connecting
    rcases alive with up | up <;> rw [connecting] at up <;> cases up
  once := once
  ended := fun down => absurd alive down

/-- No handler due closes. -/
theorem of_safe (proper : c'.tcp.Proper) (early : c'.tcp.state_ = .kConnecting → c'.sent = [])
    (safe : c'.due.countP Handler.mayClose = 0) : Lives c' where
  proper := proper
  early := early
  once := by omega
  ended := fun _ => safe

theorem transmit (lives : Lives c) (notEarly : c.tcp.state_ ≠ .kConnecting)
    (message : Message ι α) (outcome : WriteResult) :
    Lives (c.transmit data message outcome).1 := by
  have moved : TcpConnection.SendMove c.tcp (data message.content)
      (c.tcp.sendInLoop (data message.content) outcome : TcpConnection.Sent (Message ι α)) :=
    c.tcp.sendMove _ _
  exact lives.keep (lives.proper.sendInLoop notEarly _ outcome)
    (TcpConnection.state_sendMove moved) (.inl rfl) rfl

theorem perform (lives : Lives c) (outcome : WriteResult) (request : Request α)
    (passes : request.passes c.tcp.state_ = true)
    (reading : request = .startRead ∨ request = .stopRead → c.tcp.Alive) :
    Lives (c.perform data outcome request).1 := by
  cases request with
  | send content =>
      have connected : c.tcp.state_ = .kConnected := of_decide_eq_true passes
      have recorded : Lives { c with sent := c.sent ++ [⟨none, content⟩] } :=
        .of_alive lives.proper (.inl connected) lives.once
      exact recorded.transmit (by rw [connected]; simp) ⟨none, content⟩ outcome
  | shutdown =>
      have connected : c.tcp.state_ = .kConnected := of_decide_eq_true passes
      refine .of_alive (lives.proper.setState (.inl connected)).shutdownInLoop (.inr ?_) lives.once
      exact TcpConnection.state_shutdownInLoop _
  | forceClose =>
      have alive : c.tcp.Alive := of_decide_eq_true passes
      exact .of_alive (lives.proper.setState alive) (.inr rfl) lives.once
  | startRead =>
      exact lives.keep (lives.proper.startReadInLoop (reading (.inl rfl)))
        TcpConnection.state_startReadInLoop (.inl rfl) rfl
  | stopRead =>
      exact lives.keep (lives.proper.stopReadInLoop (reading (.inr rfl)))
        TcpConnection.state_stopReadInLoop (.inl rfl) rfl

theorem handle (lives : Lives c) {handler : Handler} {due : List Handler}
    (first : c.due = handler :: due) (result : ReadResult) (retrieved : Nat)
    (outcome : WriteResult)
    (watched : handler.closes result = true → c.tcp.channel_.isWatched = true) :
    Lives ({ c with due := due }.handle result retrieved outcome handler).1 := by
  have once := lives.once
  have ended := lives.ended
  rw [first, List.countP_cons] at once ended
  -- a handler that closes is due only while the connection is up, and is the last such
  have closes (may : handler.mayClose = true) :
      c.tcp.Alive ∧ due.countP Handler.mayClose = 0 := by
    rw [if_pos may] at once ended
    refine ⟨?_, by omega⟩
    by_contra down
    have := ended down
    omega
  have left : Lives { c with due := due } :=
    ⟨lives.proper, lives.early, by dsimp only; omega, fun down => by
      have := ended down
      dsimp only
      omega⟩
  cases handler with
  | closeCallback_ =>
      obtain ⟨alive, safe⟩ := closes rfl
      refine .of_safe (lives.proper.handleClose alive (watched rfl)) (fun connecting => ?_) safe
      cases connecting
  | errorCallback_ => exact left
  | readCallback_ =>
      obtain ⟨alive, safe⟩ := closes rfl
      have ends (last : result = .read []) : c.tcp.channel_.isWatched = true :=
        watched (decide_eq_true last)
      refine .of_safe (lives.proper.handleRead alive result retrieved ends)
        (fun connecting => ?_) safe
      exact lives.early (TcpConnection.connecting_of_handleRead connecting)
  | writeCallback_ =>
      have moved : TcpConnection.DrainMove c.tcp
          (c.tcp.handleWrite outcome : TcpConnection × Option (Functor (Message ι α))) :=
        c.tcp.drainMove outcome
      exact left.keep (lives.proper.drainMove moved) (TcpConnection.state_drainMove moved)
        (.inl rfl) rfl

theorem call (lives : Lives c) (free : c.due = []) {functor : Functor (Message ι α)}
    (notEarly : ∀ message ∈ functor.message, c.tcp.state_ ≠ .kConnecting)
    (disciplined : c.callDisciplined functor = true) (outcome : WriteResult) :
    Lives (c.call data outcome functor).1 := by
  have safe : c.due.countP Handler.mayClose = 0 := by
    rw [free]
    rfl
  cases functor with
  | sendInLoop message => exact lives.transmit (notEarly message rfl) message outcome
  | shutdownInLoop =>
      exact lives.keep lives.proper.shutdownInLoop c.tcp.state_shutdownInLoop (.inl rfl) rfl
  | forceCloseInLoop =>
      have watched (alive : c.tcp.Alive) : c.tcp.channel_.isWatched = true := by
        simpa only [callDisciplined, alive, decide_true, Bool.not_true, Bool.false_or] using
          disciplined
      refine .of_safe (lives.proper.forceCloseInLoop watched) (fun connecting => ?_) safe
      exact lives.early (TcpConnection.connecting_of_forceCloseInLoop connecting)
  | startReadInLoop =>
      have alive : c.tcp.Alive := of_decide_eq_true disciplined
      exact lives.keep (lives.proper.startReadInLoop alive) TcpConnection.state_startReadInLoop
        (.inl rfl) rfl
  | stopReadInLoop =>
      have alive : c.tcp.Alive := of_decide_eq_true disciplined
      exact lives.keep (lives.proper.stopReadInLoop alive) TcpConnection.state_stopReadInLoop
        (.inl rfl) rfl
  | connectDestroyed =>
      have settled : c.tcp.state_ ≠ .kDisconnecting ∧ c.tcp.channel_.index_ ≠ kNew :=
        of_decide_eq_true disciplined
      refine .of_safe (lives.proper.connectDestroyed settled.1 settled.2)
        (fun connecting => ?_) safe
      exact lives.early (TcpConnection.connecting_of_connectDestroyed connecting)
  | writeCompleteCallback => exact lives.keep (lives.proper.callBack rfl) rfl (.inl rfl) rfl
  | highWaterMarkCallback len => exact lives.keep (lives.proper.callBack rfl) rfl (.inl rfl) rfl

theorem test [DecidableEq ι] (lives : Lives c) {t : ι} {request : Request α}
    (passes : request.passes c.tcp.state_ = true) :
    Lives { c with
      passed := Function.update c.passed t (some request)
      sent := c.sent ++ (request.message (some t)).toList } := by
  refine lives.keep lives.proper rfl ?_ rfl
  cases request with
  | send content =>
      have connected : c.tcp.Alive := .inl (of_decide_eq_true passes)
      exact .inr connected.ne_connecting
  | _ => exact .inl (List.append_nil _)

/-- A call in another thread that stores what it has tested. -/
theorem proceed (lives : Lives c) {passed : ι → Option (Request α)} {request : Request α}
    (disciplined : request.store c.tcp = c.tcp ∨ request.passes c.tcp.state_ = true) :
    Lives { c with tcp := request.store c.tcp, passed := passed } := by
  rcases disciplined with same | passes
  · rw [same]
    exact lives.keep lives.proper rfl (.inl rfl) rfl
  · cases request with
    | shutdown =>
        have alive : c.tcp.Alive := .inl (of_decide_eq_true passes)
        exact .of_alive (lives.proper.setState alive) (.inr rfl) lives.once
    | forceClose =>
        have alive : c.tcp.Alive := of_decide_eq_true passes
        exact .of_alive (lives.proper.setState alive) (.inr rfl) lives.once
    | _ => exact lives.keep lives.proper rfl (.inl rfl) rfl

theorem react [DecidableEq ι] {who : Option ι} {event : Event α}
    {reaction : Connection ι α × Option (Functor (Message ι α))} (lives : Lives c)
    (disciplined : c.reactDisciplined who event = true)
    (reacts : Reacts data c who event reaction) : Lives reaction.1 := by
  cases reacts with
  | ignored => exact lives
  | perform request outcome passes =>
      refine lives.perform outcome request passes ?_
      rintro (rfl | rfl) <;> exact of_decide_eq_true disciplined
  | test t request outcome free passes => exact lives.test passes
  | proceed t request passed =>
      simp only [reactDisciplined, passed, Option.all_some, decide_eq_true_eq] at disciplined
      exact lives.proceed disciplined
  | connectEstablished =>
      have connecting : c.tcp.state_ = .kConnecting := of_decide_eq_true disciplined
      exact .of_alive (lives.proper.connectEstablished connecting) (.inl rfl) lives.once
  | poll revents_ free watched =>
      exact .of_alive lives.proper (lives.proper.alive_of_watched watched)
        (countP_handlers_le disciplined)
  | @handle result retrieved outcome handler due first =>
      refine lives.handle first result retrieved outcome fun closes => ?_
      simpa only [reactDisciplined, first, List.head?_cons, Option.all_some, closes,
        Bool.not_true, Bool.false_or] using disciplined
  | removeConnection => exact lives
  | _ =>
      exact lives.keep (lives.proper.keep rfl rfl rfl rfl rfl) rfl (.inl rfl) rfl

end Lives

section

variable [DecidableEq ι]

/-- What is queued was sent. -/
theorem Ordered.mem_sent_of_queued {s : Mailbox ι (Connection ι α) (Functor (Message ι α))}
    (ordered : Ordered s) {message : Message ι α} (queued : .sendInLoop message ∈ s.queue) :
    message ∈ s.state.sent := by
  have order := ordered.order message.sender
  have mine : message ∈ (s.state.executed ++ s.queue.filterMap Functor.message).filter
      (fun other => other.sender = message.sender) := by
    refine List.mem_filter.mpr ⟨List.mem_append_right _ ?_, decide_eq_true rfl⟩
    exact List.mem_filterMap.mpr ⟨_, queued, rfl⟩
  have listed := List.mem_append_left (waiting s message.sender) mine
  rw [order] at listed
  exact (List.mem_filter.mp listed).1

omit [DecidableEq ι] in
theorem eq_sendInLoop_of_message {functor : Functor (Message ι α)} {message : Message ι α}
    (isMessage : message ∈ functor.message) : functor = .sendInLoop message := by
  cases functor with
  | sendInLoop sent => rw [Option.some.inj isMessage]
  | _ => cases isMessage

theorem Lives.move {action : Mailbox.Action ι (Event α)}
    {s s' : Mailbox ι (Connection ι α) (Functor (Message ι α))} (ordered : Ordered s)
    (lives : Lives s.state) (disciplined : Disciplined action s)
    (moved : Mailbox.Move (actor data) s action s') : Lives s'.state := by
  cases moved with
  | react free reacted => exact lives.react disciplined (reacts_of_react reacted)
  | post ready => exact lives
  | @call event functor rest state next free first called =>
      obtain ⟨outcome, -, quiet, same⟩ := calls_of_call called
      have allowed : s.state.callDisciplined functor = true := by
        simpa only [Disciplined, first, List.head?_cons, Option.all_some] using disciplined
      have notEarly : ∀ message ∈ functor.message, s.state.tcp.state_ ≠ .kConnecting := by
        intro message isMessage connecting
        have queued : .sendInLoop message ∈ s.queue := by
          rw [first, ← eq_sendInLoop_of_message isMessage]
          exact List.mem_cons_self
        have sent := ordered.mem_sent_of_queued queued
        rw [lives.early connecting] at sent
        cases sent
      have ran : Lives (s.state.call data outcome functor).1 :=
        lives.call quiet notEarly allowed outcome
      rw [same] at ran
      exact ran

/-- What holds in all disciplined runs of one queue. -/
structure Orderly (s : Mailbox ι (Connection ι α) (Functor (Message ι α))) : Prop where
  ordered : Ordered s
  lives : Lives s.state

theorem Orderly.of_reachable {s : Mailbox ι (Connection ι α) (Functor (Message ι α))}
    (reachable : Reachable (Mailbox.step (actor data)) Disciplined
      (.initial ι (Connection.initial ι α)) s) : Orderly s := by
  refine Reachable.invariant reachable ⟨Ordered.initial, Lives.initial⟩ ?_
  intro action s s' orderly disciplined stepped
  have moved := Mailbox.move_of_step stepped
  exact ⟨orderly.ordered.move moved, orderly.lives.move orderly.ordered disciplined moved⟩

/-- A state that the event loop of a connection reaches in a disciplined run. -/
def Behaves (data : α → Bytes) (s : EventLoop ι (Connection ι α) (Functor (Message ι α))) :
    Prop :=
  Reachable (EventLoop.step (actor data)) (EventLoop.Lifted Disciplined)
    (.initial ι (Functor (Message ι α)) (Connection.initial ι α)) s

theorem Behaves.lives {s : EventLoop ι (Connection ι α) (Functor (Message ι α))}
    (behaves : Behaves data s) : Lives s.program :=
  (Orderly.of_reachable (EventLoop.reachable_mailbox behaves)).lives

end

/-- The last bytes are written just before the peer closes the connection. The
callback that reports them is called behind the close, and there the program
starts reading. -/
def startReadRun : List (EventLoop.Action Unit (Event Bytes)) :=
  [.own .enter, .own .testQuit, .own (.poll true), .react none .connectEstablished,
    .react none (.setWriteCompleteCallback true), .react none (.request .stopRead (.wrote 0)),
    .react none (.request (.send [1]) (.wrote 1)), .pushBack none, .testThread none,
    .react none (.request .startRead (.wrote 0)),
    .react none (.poll ⟨true, false, false, false, false, false, false⟩),
    .react none (.handle (.read []) 0 (.wrote 0)),
    .own .startFunctors, .own .swap, .own (.callFunctor (.run (.wrote 0))),
    .react none (.request .startRead (.wrote 0)), .own .finishFunctors, .own .testQuit,
    .own (.poll true), .react none (.poll ⟨true, false, false, false, false, false, false⟩),
    .react none (.handle (.read []) 0 (.wrote 0))]

/-- **Reading started behind a close closes the connection twice.** -/
theorem startRead_after_close :
    ∃ s : EventLoop Unit (Connection Unit Bytes) (Functor (Message Unit Bytes)),
      Runs id s ∧ s.program.tcp.asserted = false ∧
      s.program.tcp.callbacks = [.connectionCallback_ true, .connectionCallback_ false,
        .closeCallback_, .writeCompleteCallback_, .connectionCallback_ false, .closeCallback_] := by
  have outcome : (execute (EventLoop.step (actor id)) startReadRun
      (.initial Unit _ (Connection.initial Unit Bytes))).map (fun s =>
        (s.program.tcp.asserted, s.program.tcp.callbacks)) =
      some (false, [.connectionCallback_ true, .connectionCallback_ false, .closeCallback_,
        .writeCompleteCallback_, .connectionCallback_ false, .closeCallback_]) := by decide
  obtain ⟨s, -, reachable, same⟩ :=
    Reachable.exists_of_execute (fun _ _ => True) outcome (by decide)
  obtain ⟨asserted, callbacks⟩ := Prod.mk.inj same
  exact ⟨s, reachable, asserted, callbacks⟩

/-- The program stops reading and closes the connection by force. The server queues
`connectDestroyed`, but the loop polls before it calls that. -/
def forceCloseRun : List (EventLoop.Action Unit (Event Bytes)) :=
  [.own .enter, .own .testQuit, .own (.poll true), .react none .connectEstablished,
    .react none (.request .stopRead (.wrote 0)), .react none (.request .forceClose (.wrote 0)),
    .pushBack none, .testThread none,
    .own .startFunctors, .own .swap, .own (.callFunctor (.run (.wrote 0))),
    .react none .removeConnection, .pushBack none, .testThread none, .wakeup none,
    .own .finishFunctors, .own .testQuit, .own (.poll true), .own .handleRead,
    .react none (.poll ⟨false, false, false, true, false, false, false⟩),
    .react none (.handle (.read []) 0 (.wrote 0))]

/-- **A connection closed by force while it is not read may be closed twice.**  The
kernel reports only a hangup. -/
theorem forceClose_while_not_read :
    ∃ s : EventLoop Unit (Connection Unit Bytes) (Functor (Message Unit Bytes)),
      Runs id s ∧ s.program.tcp.asserted = false ∧
      s.program.tcp.callbacks = [.connectionCallback_ true, .connectionCallback_ false,
        .closeCallback_, .connectionCallback_ false, .closeCallback_] := by
  have outcome : (execute (EventLoop.step (actor id)) forceCloseRun
      (.initial Unit _ (Connection.initial Unit Bytes))).map (fun s =>
        (s.program.tcp.asserted, s.program.tcp.callbacks)) =
      some (false, [.connectionCallback_ true, .connectionCallback_ false, .closeCallback_,
        .connectionCallback_ false, .closeCallback_]) := by decide
  obtain ⟨s, -, reachable, same⟩ :=
    Reachable.exists_of_execute (fun _ _ => True) outcome (by decide)
  obtain ⟨asserted, callbacks⟩ := Prod.mk.inj same
  exact ⟨s, reachable, asserted, callbacks⟩

/-- A server that is destroyed while a connection disconnects removes a channel that is
still enabled. -/
example : ((TcpConnection.construct.connectEstablished).setState
    .kDisconnecting).connectDestroyed.asserted = false := by decide

end Connection

end AirNet.Muduo
