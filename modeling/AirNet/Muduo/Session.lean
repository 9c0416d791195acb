import AirNet.Muduo.Lifecycle
import AirNet.Net.BackPressure

/-!
# A session on its event loop

Flow control is about lengths: how many bytes wait to be written, which callbacks are
installed, which calls are queued (`Net.SessionFlow`, `Net.BackPressure`). Here it is
brought to the connection with its bytes, its handlers and its threads, on the event loop
that calls functors in batches.

`lengths` forgets the bytes. A function of the connection does to the lengths what its
counterpart in the flow does (`lengths_sendInLoop`, `lengths_handleWrite` and those
beside them). The functors queued, with the one that the thread of the loop is about to
queue, are the queue of the flow. A step of the loop is then a step of the flow, or none,
or a send of another thread arrives (`flows_of_move`); the last is not a step of the flow,
since the send may come before a functor that the thread of the loop has made earlier and
queues later. All three keep the invariants of the flow. So the connection is never deaf
and its back-pressure is never lost, as long as it is up and only the session starts and
stops reading (`session_flow_kept`).
-/

set_option autoImplicit false

namespace AirNet.Net.Flow

/-! ## Sends that arrive -/

/-- A send of another thread is put anywhere in the queue. -/
inductive Arrives : Flow → Flow → Prop where
  | mk (conn : TcpConnection) (before after : List EventLoop.Functor) (len : Nat) :
      Arrives ⟨conn, before ++ after⟩ ⟨conn, before ++ .sendInLoop len :: after⟩

variable {s s' : Flow}

theorem Arrives.conn (arrives : Arrives s s') : s'.conn = s.conn := by
  cases arrives
  rfl

/-- The other functors stay. -/
theorem Arrives.mem_iff (arrives : Arrives s s') {functor : EventLoop.Functor}
    (other : ∀ len, functor ≠ .sendInLoop len) :
    functor ∈ s'.pendingFunctors_ ↔ functor ∈ s.pendingFunctors_ := by
  cases arrives with
  | mk conn before after len => simp [other len]

theorem Invariant.arrives (inv : Invariant s) (arrives : Arrives s s') : Invariant s' where
  neverDeaf := by
    intro stopped
    rw [arrives.conn] at stopped ⊢
    rw [arrives.mem_iff fun len => by simp]
    exact inv.neverDeaf stopped
  writing := by
    rw [arrives.conn]
    exact inv.writing

/-- The call that stops reading comes at most one place later. -/
theorem stopsWithin_insert {before after : List EventLoop.Functor} {bound : Nat} (len : Nat)
    (stops : EventLoop.StopsWithin (before ++ after) bound) :
    EventLoop.StopsWithin (before ++ .sendInLoop len :: after) (bound + 1) := by
  obtain ⟨front, mark, back, split, nothing, close⟩ := stops
  rcases List.append_eq_append_iff.mp split with ⟨between, rfl, rest⟩ | ⟨between, rfl, rest⟩
  · refine ⟨before ++ .sendInLoop len :: between, mark, back, ?_, nothing, ?_⟩
    · rw [rest, List.append_assoc, List.cons_append]
    · simp only [List.length_append, List.length_cons] at close ⊢
      omega
  · cases between with
    | nil =>
        rw [List.nil_append] at rest
        refine ⟨front ++ [.sendInLoop len], mark, back, ?_, nothing, ?_⟩
        · simp only [List.append_nil, List.append_assoc, List.cons_append, List.nil_append, rest]
        · simpa using close
    | cons first between =>
        obtain ⟨rfl, rfl⟩ := List.cons.inj rest
        refine ⟨front, mark, between ++ .sendInLoop len :: after, ?_, ?_, Nat.lt_succ_of_lt close⟩
        · rw [List.append_assoc, List.cons_append]
        · simpa using nothing

theorem Pressure.arrives {watermark : Nat} (pressure : Pressure watermark s)
    (arrives : Arrives s s') : Pressure watermark s' where
  mark := by
    rw [arrives.conn]
    exact pressure.mark
  installed := by
    rw [arrives.conn]
    exact pressure.installed
  backed := by
    rw [arrives.conn]
    intro above
    rcases pressure.backed above with ⟨halted, nothing⟩ | stops
    · refine .inl ⟨by rwa [arrives.conn], ?_⟩
      rwa [arrives.mem_iff fun len => by simp]
    · cases arrives with
      | mk conn before after len =>
          refine .inr ?_
          simpa only [List.length_append, List.length_cons, Nat.add_assoc] using
            stopsWithin_insert len stops

end AirNet.Net.Flow

namespace AirNet.Muduo

open AirNet.Cpp AirNet.Lib
open AirNet.Net (StateE WriteResult)

/-! ## Lengths -/

/-- What flow control sees of a functor. -/
def Functor.inFlow {μ : Type} (size : μ → Nat) : Functor μ → Option Net.EventLoop.Functor
  | .sendInLoop message => some (.sendInLoop (size message))
  | .writeCompleteCallback => some .writeCompleteCallback
  | .highWaterMarkCallback len => some (.highWaterMarkCallback len)
  | _ => none

/-- What flow control sees of the functors. -/
def inFlow {μ : Type} (size : μ → Nat) (functors : List (Functor μ)) :
    List Net.EventLoop.Functor :=
  functors.filterMap (Functor.inFlow size)

/-- What flow control sees of a functor that is queued on a condition. -/
theorem inFlow_ite {μ : Type} {size : μ → Nat} {functor : Functor μ}
    {seen : Net.EventLoop.Functor} (condition : Prop) [Decidable condition]
    (isSeen : functor.inFlow size = some seen) :
    inFlow size (if condition then some functor else none).toList =
      if condition then [seen] else [] := by
  split_ifs
  · simp only [inFlow, Option.toList_some, List.filterMap_cons, isSeen, List.filterMap_nil]
  · rfl

theorem Socket.write_atMost (socket : Socket) (data : Bytes) (outcome : WriteResult) :
    (socket.write data outcome).2.AtMost data.length := by
  rcases socket.write_cases data outcome with ⟨-, n, bound, taken⟩ | ⟨errno, -, refused⟩
  · rw [taken]
    exact bound
  · rw [refused]
    trivial

namespace TcpConnection

variable {μ : Type}

/-- What flow control sees of the connection. -/
def lengths (conn : TcpConnection) : Net.TcpConnection where
  state_ := conn.state_
  reading_ := conn.reading_
  channel_ := conn.channel_.events
  writeCompleteCallback_ := conn.writeCompleteCallback_
  highWaterMarkCallback_ := conn.highWaterMarkCallback_
  highWaterMark_ := conn.highWaterMark_
  outputBuffer_ := conn.outputBuffer_.length

variable (conn : TcpConnection) (size : μ → Nat)

theorem lengths_startReadInLoop : conn.startReadInLoop.lengths = conn.lengths.startReadInLoop := by
  unfold startReadInLoop Net.TcpConnection.startReadInLoop
  exact apply_ite lengths _ _ _

theorem lengths_stopReadInLoop : conn.stopReadInLoop.lengths = conn.lengths.stopReadInLoop := by
  unfold stopReadInLoop Net.TcpConnection.stopReadInLoop
  exact apply_ite lengths _ _ _

theorem lengths_shutdownInLoop : conn.shutdownInLoop.lengths = conn.lengths := by
  unfold shutdownInLoop
  split_ifs <;> rfl

/-- The direct write moves no bytes of the output. -/
theorem lengths_writeDirectly (data : Bytes) (outcome : WriteResult) :
    (conn.writeDirectly data outcome : Direct μ).conn.lengths = conn.lengths := by
  unfold writeDirectly
  split_ifs
  · split <;> rfl
  · rfl

theorem writeDirectly_lengths (data : Bytes) (outcome : WriteResult) :
    conn.lengths.writeDirectly data.length (conn.socket_.write data outcome).2 =
      (data.length - (conn.writeDirectly data outcome : Direct μ).nwrote,
        (conn.writeDirectly data outcome : Direct μ).faultError,
        inFlow size (conn.writeDirectly data outcome : Direct μ).queued.toList) := by
  have idle : (conn.lengths.channel_.writing = false ∧ conn.lengths.outputBuffer_ = 0) ↔
      (conn.channel_.writing = false ∧ conn.outputBuffer_ = []) :=
    and_congr Iff.rfl List.length_eq_zero_iff
  unfold writeDirectly Net.TcpConnection.writeDirectly
  simp only [idle]
  split_ifs with direct
  · rcases conn.socket_.write_cases data outcome with ⟨-, n, -, taken⟩ | ⟨errno, -, refused⟩
    · rw [taken]
      exact congrArg (fun queued => (data.length - n, false, queued)) (inFlow_ite _ rfl).symm
    · rw [refused]
      rfl
  · rfl

theorem lengths_appendOutput (rest : Bytes) :
    (conn.appendOutput rest : TcpConnection × Option (Functor μ)).1.lengths =
        (conn.lengths.appendOutput rest.length).1 ∧
      inFlow size (conn.appendOutput rest : TcpConnection × Option (Functor μ)).2.toList =
        (conn.lengths.appendOutput rest.length).2 := by
  constructor
  · have channel : (if conn.channel_.writing then conn.channel_ else
        conn.channel_.enableWriting).events = { conn.channel_.events with writing := true } := by
      split_ifs with writing
      · unfold Channel.events
        rw [← writing]
      · rfl
    simp only [appendOutput, Net.TcpConnection.appendOutput, lengths, channel, List.length_append]
  · exact inFlow_ite _ rfl

/-- What remains unwritten is appended, and then the direct write has queued nothing. -/
theorem lengths_sendInLoop (data : Bytes) (outcome : WriteResult) :
    (conn.sendInLoop data outcome : Sent μ).conn.lengths =
        (conn.lengths.sendInLoop data.length (conn.socket_.write data outcome).2).1 ∧
      inFlow size (conn.sendInLoop data outcome : Sent μ).queued.toList =
        (conn.lengths.sendInLoop data.length (conn.socket_.write data outcome).2).2 := by
  unfold sendInLoop Net.TcpConnection.sendInLoop
  rw [conn.writeDirectly_lengths size]
  have same := conn.lengths_writeDirectly (μ := μ) data outcome
  have moved : DirectMove conn data (conn.writeDirectly data outcome : Direct μ) :=
    conn.directMove data outcome
  generalize (conn.writeDirectly data outcome : Direct μ) = direct at same moved
  by_cases disconnected : conn.state_ = .kDisconnected
  · rw [if_pos disconnected, if_pos (show conn.lengths.state_ = .kDisconnected from disconnected)]
    exact ⟨rfl, rfl⟩
  rw [if_neg disconnected, if_neg (show ¬ conn.lengths.state_ = .kDisconnected from disconnected)]
  dsimp only
  split_ifs with remains
  · have silent : direct.queued = none := by
      cases moved with
      | fault => rfl
      | nothing => rfl
      | @wrote n queued _ _ _ notice =>
          cases queued with
          | none => rfl
          | some functor =>
              have whole := (notice functor rfl).1
              have left : 0 < data.length - n := remains.2
              omega
    obtain ⟨appended, queued⟩ := direct.conn.lengths_appendOutput size (data.drop direct.nwrote)
    rw [same, List.length_drop] at appended queued
    rw [silent]
    exact ⟨appended, queued⟩
  · exact ⟨same, rfl⟩

theorem lengths_handleWrite (outcome : WriteResult) :
    (conn.handleWrite outcome : TcpConnection × Option (Functor μ)).1.lengths =
        (conn.lengths.handleWrite (conn.socket_.write conn.outputBuffer_ outcome).2).1 ∧
      inFlow size (conn.handleWrite outcome : TcpConnection × Option (Functor μ)).2.toList =
        (conn.lengths.handleWrite (conn.socket_.write conn.outputBuffer_ outcome).2).2 := by
  unfold handleWrite Net.TcpConnection.handleWrite
  by_cases writing : conn.channel_.writing = true
  · rw [if_pos writing, if_pos (show conn.lengths.channel_.writing = true from writing)]
    rcases conn.socket_.write_cases conn.outputBuffer_ outcome with
      ⟨-, n, -, taken⟩ | ⟨errno, -, refused⟩
    · rw [taken]
      dsimp only
      have emptied : conn.outputBuffer_.drop n = [] ↔ conn.lengths.outputBuffer_ - n = 0 := by
        rw [← List.length_eq_zero_iff, List.length_drop]
        rfl
      by_cases positive : 0 < n
      · rw [if_pos positive, if_pos positive]
        by_cases empty : conn.outputBuffer_.drop n = []
        · rw [if_pos empty, if_pos (emptied.mp empty)]
          constructor
          · rw [apply_ite lengths, lengths_shutdownInLoop, ite_self]
            simp only [lengths, empty, List.length_nil]
            rfl
          · exact inFlow_ite _ rfl
        · rw [if_neg empty, if_neg (mt emptied.mpr empty)]
          refine ⟨?_, rfl⟩
          simp only [lengths, List.length_drop]
      · rw [if_neg positive, if_neg positive]
        exact ⟨rfl, rfl⟩
    · rw [refused]
      exact ⟨rfl, rfl⟩
  · rw [if_neg writing, if_neg (show ¬ conn.lengths.channel_.writing = true from writing)]
    exact ⟨rfl, rfl⟩

end TcpConnection

/-! ## The session -/

namespace Session

/-- The connection for which a session has just been constructed. -/
def construct (watermark : Nat) (conn : TcpConnection) : TcpConnection :=
  { conn with highWaterMarkCallback_ := true, highWaterMark_ := watermark }

def onWriteComplete (conn : TcpConnection) : TcpConnection :=
  { conn.startReadInLoop with writeCompleteCallback_ := false }

def onHighWaterMark (conn : TcpConnection) : TcpConnection :=
  if 0 < conn.outputBuffer_.length then
    { conn.stopReadInLoop with writeCompleteCallback_ := true }
  else conn

/-- What the session does in the callbacks that functors make. -/
def notified {μ : Type} (conn : TcpConnection) : Functor μ → TcpConnection
  | .writeCompleteCallback => onWriteComplete conn
  | .highWaterMarkCallback _ => onHighWaterMark conn
  | _ => conn

theorem lengths_onWriteComplete (conn : TcpConnection) :
    (onWriteComplete conn).lengths = Net.Session.onWriteComplete conn.lengths := by
  unfold Net.Session.onWriteComplete
  rw [← conn.lengths_startReadInLoop]
  rfl

theorem lengths_onHighWaterMark (conn : TcpConnection) :
    (onHighWaterMark conn).lengths = Net.Session.onHighWaterMark conn.lengths := by
  unfold onHighWaterMark Net.Session.onHighWaterMark
  rw [← conn.lengths_stopReadInLoop]
  exact apply_ite TcpConnection.lengths _ _ _

variable {ι α : Type} (data : α → Bytes)

def initial (ι α : Type) (watermark : Nat) : Connection ι α :=
  { Connection.initial ι α with
    tcp := construct watermark TcpConnection.construct.connectEstablished }

variable [DecidableEq ι]

/-- The connection of a session as a program of the event loop. -/
def actor : Actor ι (Connection ι α) (Functor (Message ι α)) (Connection.Event α) where
  react := (Connection.actor data).react
  call := fun functor event c =>
    ((Connection.actor data).call functor event c).map fun result =>
      ({ result.1 with tcp := notified result.1.tcp functor }, result.2)

end Session

/-- The event leaves reading and the callbacks to the session. -/
def Connection.Event.leavesReading {α : Type} : Connection.Event α → Bool
  | .request .startRead _ => false
  | .request .stopRead _ => false
  | .connectEstablished => false
  | .setWriteCompleteCallback _ => false
  | .setHighWaterMarkCallback _ _ => false
  | _ => true

/-- The functor leaves reading to the session. -/
def Functor.leavesReading {μ : Type} : Functor μ → Bool
  | .startReadInLoop => false
  | .stopReadInLoop => false
  | _ => true

namespace Session

variable {ι α : Type}

/-- The connection is up, and only the session starts and stops reading. -/
def Served (action : Mailbox.Action ι (Connection.Event α))
    (s : Mailbox ι (Connection ι α) (Functor (Message ι α))) : Prop :=
  s.state.tcp.Alive ∧
    match action with
    | .react none event => event.leavesReading = true
    | .react (some _) _ => True
    | .post _ => True
    | .call _ => s.queue.head?.all Functor.leavesReading = true

variable (data : α → Bytes)

/-- The number of bytes of a message. -/
def size (message : Message ι α) : Nat := (data message.content).length

/-- What flow control sees of a connection and its queue, with the functor that the thread
of the loop is about to queue. -/
def flow (s : Mailbox ι (Connection ι α) (Functor (Message ι α))) : Net.Flow where
  conn := s.state.tcp.lengths
  pendingFunctors_ := inFlow (size data) (s.queue ++ (s.outbox none).toList)

variable {data} {s s' : Mailbox ι (Connection ι α) (Functor (Message ι α))}

/-- What a step of the loop comes to for flow control. -/
def Flows (data : α → Bytes) (s s' : Mailbox ι (Connection ι α) (Functor (Message ι α))) : Prop :=
  flow data s' = flow data s ∨
    Transition Net.Flow.step Net.Flow.Possible (flow data s) (flow data s') ∨
    Net.Flow.Arrives (flow data s) (flow data s')

/-- The thread of the loop has nothing to queue. -/
theorem flow_of_free (free : s.outbox none = none) :
    flow data s = ⟨s.state.tcp.lengths, inFlow (size data) s.queue⟩ := by
  simp only [flow, free, Option.toList_none, List.append_nil]

variable [DecidableEq ι]

/-- The thread of the loop has done something. -/
theorem flow_next (c : Connection ι α) (queue : List (Functor (Message ι α)))
    (next : Option (Functor (Message ι α))) :
    flow data { state := c, queue := queue, outbox := Function.update s.outbox none next } =
      ⟨c.tcp.lengths, inFlow (size data) queue ++ inFlow (size data) next.toList⟩ := by
  simp only [flow, Function.update_self, inFlow, List.filterMap_append]

/-- Another thread has done something. -/
theorem flow_thread (c : Connection ι α) (t : ι) (next : Option (Functor (Message ι α))) :
    flow data { s with state := c, outbox := Function.update s.outbox (some t) next } =
      ⟨c.tcp.lengths, (flow data s).pendingFunctors_⟩ := by
  simp only [flow, Function.update_of_ne (Option.some_ne_none t).symm]

/-- The thread of the loop does what flow control does not see. -/
theorem flows_unseen {c : Connection ι α} {next : Option (Functor (Message ι α))}
    (free : s.outbox none = none) (conn : c.tcp.lengths = s.state.tcp.lengths)
    (unseen : inFlow (size data) next.toList = []) :
    Flows data s { s with state := c, outbox := Function.update s.outbox none next } := by
  refine .inl ?_
  rw [flow_next, flow_of_free free, conn, unseen, List.append_nil]

/-- Another thread does what flow control does not see. -/
theorem flows_thread {c : Connection ι α} {next : Option (Functor (Message ι α))} (t : ι)
    (conn : c.tcp.lengths = s.state.tcp.lengths) :
    Flows data s { s with state := c, outbox := Function.update s.outbox (some t) next } := by
  refine .inl ?_
  rw [flow_thread, conn]
  rfl

/-- The thread of the loop does what is an event of the flow. -/
theorem flows_event {c : Connection ι α} {next : Option (Functor (Message ι α))}
    (free : s.outbox none = none) (event : Net.TcpConnection.Event)
    (possible : event.Possible s.state.tcp.lengths)
    (conn : c.tcp.lengths = (event.perform s.state.tcp.lengths).1)
    (queued : inFlow (size data) next.toList = (event.perform s.state.tcp.lengths).2) :
    Flows data s { s with state := c, outbox := Function.update s.outbox none next } := by
  refine .inr (.inl ⟨.event event, possible, ?_⟩)
  rw [flow_next, flow_of_free free, conn, queued]
  rfl

/-- Another thread disconnects. -/
theorem flows_shutdown {c : Connection ι α} {next : Option (Functor (Message ι α))} (t : ι)
    (conn : c.tcp.lengths = (Net.TcpConnection.Event.shutdown.perform s.state.tcp.lengths).1) :
    Flows data s { s with state := c, outbox := Function.update s.outbox (some t) next } := by
  refine .inr (.inl ⟨.event .shutdown, trivial, ?_⟩)
  rw [flow_thread, conn]
  exact congrArg (fun queue => some (Net.Flow.mk _ queue)) (List.append_nil _)

/-- A functor is called that flow control sees. -/
theorem flows_call {c : Connection ι α} {next : Option (Functor (Message ι α))}
    {functor : Functor (Message ι α)} {rest : List (Functor (Message ι α))}
    {seen : Net.EventLoop.Functor} (free : s.outbox none = none)
    (first : s.queue = functor :: rest) (isSeen : functor.inFlow (size data) = some seen)
    (result : WriteResult) (possible : result.AtMost seen.len)
    (conn : c.tcp.lengths = (seen.call s.state.tcp.lengths result).1)
    (queued : inFlow (size data) next.toList = (seen.call s.state.tcp.lengths result).2) :
    Flows data s { state := c, queue := rest, outbox := Function.update s.outbox none next } := by
  have before : flow data s = ⟨s.state.tcp.lengths, seen :: inFlow (size data) rest⟩ := by
    rw [flow_of_free free, first]
    simp only [inFlow, List.filterMap_cons, isSeen]
  refine .inr (.inl ⟨.callFirst result, ?_, ?_⟩)
  · rw [before]
    intro head isHead
    obtain rfl := Option.some.inj isHead
    exact possible
  · rw [before, flow_next, conn, queued]
    rfl

/-- A functor is called that flow control does not see. -/
theorem flows_call_unseen {c : Connection ι α} {functor : Functor (Message ι α)}
    {rest : List (Functor (Message ι α))} (free : s.outbox none = none)
    (first : s.queue = functor :: rest) (unseen : functor.inFlow (size data) = none)
    (conn : c.tcp.lengths = s.state.tcp.lengths) :
    Flows data s { state := c, queue := rest, outbox := Function.update s.outbox none none } := by
  refine .inl ?_
  rw [flow_next, flow_of_free free, first, conn]
  simp only [inFlow, List.filterMap_cons, unseen, Option.toList_none, List.filterMap_nil,
    List.append_nil]

/-- Both calls that store `kDisconnecting` do what a shutdown does. -/
theorem lengths_setState {conn : TcpConnection} (alive : conn.Alive) :
    (conn.setState .kDisconnecting).lengths =
      (Net.TcpConnection.Event.shutdown.perform conn.lengths).1 := by
  have state : Net.shutdown conn.state_ = .kDisconnecting := by
    rcases alive with up | up <;> rw [up] <;> rfl
  simp only [Net.TcpConnection.Event.perform, TcpConnection.lengths, TcpConnection.setState, state]

theorem flows_perform (free : s.outbox none = none) (request : Request α)
    (outcome : WriteResult) (passes : request.passes s.state.tcp.state_ = true)
    (leaves : (Connection.Event.request request outcome).leavesReading = true) :
    Flows data s { s with
      state := (s.state.perform data outcome request).1
      outbox := Function.update s.outbox none (s.state.perform data outcome request).2 } := by
  cases request with
  | send content =>
      have connected : s.state.tcp.lengths.state_ = .kConnected := of_decide_eq_true passes
      obtain ⟨conn, queued⟩ :=
        s.state.tcp.lengths_sendInLoop (size data) (data content) outcome
      refine flows_event free (.send (data content).length
        (s.state.tcp.socket_.write (data content) outcome).2) (Socket.write_atMost _ _ _) ?_ ?_
      · rw [Net.TcpConnection.Event.perform, Net.TcpConnection.send, if_pos connected]
        exact conn
      · rw [Net.TcpConnection.Event.perform, Net.TcpConnection.send, if_pos connected]
        exact queued
  | shutdown =>
      have alive : s.state.tcp.Alive := .inl (of_decide_eq_true passes)
      refine flows_event free .shutdown trivial ?_ rfl
      exact (TcpConnection.lengths_shutdownInLoop _).trans (lengths_setState alive)
  | forceClose =>
      have alive : s.state.tcp.Alive := of_decide_eq_true passes
      exact flows_event free .shutdown trivial (lengths_setState alive) rfl
  | startRead => cases leaves
  | stopRead => cases leaves

theorem not_alive_handleClose (conn : TcpConnection) : ¬ conn.handleClose.Alive := by
  rintro (up | up) <;> cases up

theorem flows_handle (free : s.outbox none = none) {handler : Handler} {due : List Handler}
    (result : ReadResult) (retrieved : Nat) (outcome : WriteResult)
    {reaction : Connection ι α × Option (Functor (Message ι α))}
    (handled : { s.state with due := due }.handle result retrieved outcome handler = reaction)
    (alive : reaction.1.tcp.Alive) :
    Flows data s
      { s with state := reaction.1, outbox := Function.update s.outbox none reaction.2 } := by
  subst handled
  cases handler with
  | closeCallback_ => exact absurd alive (not_alive_handleClose _)
  | errorCallback_ => exact flows_unseen free rfl rfl
  | readCallback_ =>
      refine flows_unseen free ?_ rfl
      cases result with
      | failed errno => rfl
      | read bytes =>
          cases bytes with
          | nil => exact absurd alive (not_alive_handleClose _)
          | cons => rfl
  | writeCallback_ =>
      obtain ⟨conn, queued⟩ := s.state.tcp.lengths_handleWrite (size data) outcome
      exact flows_event free (.handleWrite _) (Socket.write_atMost _ _ _) conn queued

theorem flows_react {who : Option ι} {event : Connection.Event α}
    {reaction : Connection ι α × Option (Functor (Message ι α))}
    (free : s.outbox who = none) (served : Served (.react who event) s)
    (reacts : Connection.Reacts data s.state who event reaction)
    (alive : reaction.1.tcp.Alive) :
    Flows data s
      { s with state := reaction.1, outbox := Function.update s.outbox who reaction.2 } := by
  obtain ⟨up, leaves⟩ := served
  cases reacts with
  | ignored who =>
      cases who with
      | none => exact flows_unseen free rfl rfl
      | some t => exact flows_thread t rfl
  | perform request outcome passes => exact flows_perform free request outcome passes leaves
  | test t => exact flows_thread t rfl
  | proceed t request =>
      cases request with
      | shutdown => exact flows_shutdown t (lengths_setState up)
      | forceClose => exact flows_shutdown t (lengths_setState up)
      | _ => exact flows_thread t rfl
  | connectEstablished => cases leaves
  | setWriteCompleteCallback => cases leaves
  | setHighWaterMarkCallback => cases leaves
  | poll => exact flows_unseen free rfl rfl
  | handle result retrieved outcome => exact flows_handle free result retrieved outcome rfl alive
  | removeConnection who =>
      cases who with
      | none => exact flows_unseen free rfl rfl
      | some t => exact flows_thread t rfl

/-- A connection that is destroyed and up is disconnecting, and its output stays. -/
theorem lengths_connectDestroyed {conn : TcpConnection} (alive : conn.connectDestroyed.Alive) :
    conn.connectDestroyed.lengths = conn.lengths := by
  unfold TcpConnection.connectDestroyed at alive ⊢
  split_ifs at alive ⊢ with connected
  · rcases alive with up | up <;> cases up
  · rfl

theorem lengths_forceCloseInLoop {conn : TcpConnection} (alive : conn.forceCloseInLoop.Alive) :
    conn.forceCloseInLoop.lengths = conn.lengths := by
  unfold TcpConnection.forceCloseInLoop at alive ⊢
  split_ifs at alive ⊢
  · exact absurd alive (not_alive_handleClose _)
  · rfl

theorem flows_functor {functor : Functor (Message ι α)} {rest : List (Functor (Message ι α))}
    (free : s.outbox none = none) (first : s.queue = functor :: rest)
    (leaves : functor.leavesReading = true) (outcome : WriteResult)
    {reaction : Connection ι α × Option (Functor (Message ι α))}
    (called : s.state.call data outcome functor = reaction)
    (alive : (notified reaction.1.tcp functor).Alive) :
    Flows data s
      { state := { reaction.1 with tcp := notified reaction.1.tcp functor }
        queue := rest
        outbox := Function.update s.outbox none reaction.2 } := by
  subst called
  cases functor with
  | sendInLoop message =>
      obtain ⟨conn, queued⟩ :=
        s.state.tcp.lengths_sendInLoop (size data) (data message.content) outcome
      exact flows_call free first rfl _ (Socket.write_atMost _ _ _) conn queued
  | shutdownInLoop =>
      exact flows_call_unseen free first rfl (TcpConnection.lengths_shutdownInLoop _)
  | forceCloseInLoop => exact flows_call_unseen free first rfl (lengths_forceCloseInLoop alive)
  | startReadInLoop => cases leaves
  | stopReadInLoop => cases leaves
  | connectDestroyed => exact flows_call_unseen free first rfl (lengths_connectDestroyed alive)
  | writeCompleteCallback =>
      exact flows_call free first rfl (.wrote 0) (Nat.zero_le _) (lengths_onWriteComplete _) rfl
  | highWaterMarkCallback len =>
      exact flows_call free first rfl (.wrote 0) (Nat.zero_le _) (lengths_onHighWaterMark _) rfl

/-- Other threads queue no callbacks. -/
def OthersSilent (s : Mailbox ι (Connection ι α) (Functor (Message ι α))) : Prop :=
  ∀ t, ∀ functor ∈ s.outbox (some t), functor.isNotice = false

/-- A send of another thread comes before what the thread of the loop has still to queue. -/
theorem flows_post {who : Option ι} {functor : Functor (Message ι α)} (silent : OthersSilent s)
    (ready : s.outbox who = some functor) :
    Flows data s
      { s with queue := s.queue ++ [functor], outbox := Function.update s.outbox who none } := by
  cases who with
  | none =>
      refine .inl ?_
      simp only [flow, ready, Function.update_self, Option.toList_none, Option.toList_some,
        List.append_nil]
  | some t =>
      have before : flow data s = ⟨s.state.tcp.lengths,
          inFlow (size data) s.queue ++ inFlow (size data) (s.outbox none).toList⟩ := by
        simp only [flow, inFlow, List.filterMap_append]
      have after : flow data { s with
            queue := s.queue ++ [functor]
            outbox := Function.update s.outbox (some t) none } = ⟨s.state.tcp.lengths,
          inFlow (size data) s.queue ++ (inFlow (size data) [functor] ++
            inFlow (size data) (s.outbox none).toList)⟩ := by
        simp only [flow, Function.update_of_ne (Option.some_ne_none t).symm, inFlow,
          List.filterMap_append, List.append_assoc]
      unfold Flows
      rw [before, after]
      have notNotice := silent t functor ready
      cases functor with
      | sendInLoop message => exact .inr (.inr (.mk _ _ _ _))
      | writeCompleteCallback => cases notNotice
      | highWaterMarkCallback len => cases notNotice
      | _ => exact .inl rfl

/-- **The loop of a session runs its flow control.** -/
theorem flows_of_move {action : Mailbox.Action ι (Connection.Event α)} (silent : OthersSilent s)
    (served : Served action s) (moved : Mailbox.Move (actor data) s action s')
    (alive : s'.state.tcp.Alive) : Flows data s s' := by
  cases moved with
  | react free reacted =>
      exact flows_react free served (Connection.reacts_of_react reacted) alive
  | post ready => exact flows_post silent ready
  | @call event functor rest state next free first called =>
      obtain ⟨reaction, calls, same⟩ := Option.map_eq_some_iff.mp called
      obtain ⟨rfl, rfl⟩ := Prod.mk.inj same
      obtain ⟨outcome, -, -, ran⟩ := Connection.calls_of_call calls
      have leaves : functor.leavesReading = true := by
        simpa only [first, List.head?_cons, Option.all_some] using served.2
      exact flows_functor free first leaves outcome ran alive

theorem OthersSilent.update (silent : OthersSilent s) {who : Option ι} {c : Connection ι α}
    {queue : List (Functor (Message ι α))} {next : Option (Functor (Message ι α))}
    (fits : who ≠ none → ∀ functor ∈ next, functor.isNotice = false) :
    OthersSilent { state := c, queue := queue, outbox := Function.update s.outbox who next } := by
  intro t functor
  dsimp only
  by_cases same : some t = who
  · subst same
    rw [Function.update_self]
    exact fits (Option.some_ne_none t) functor
  · rw [Function.update_of_ne same]
    exact silent t functor

theorem not_notice_of_reacts {c : Connection ι α} {who : Option ι} {event : Connection.Event α}
    {reaction : Connection ι α × Option (Functor (Message ι α))}
    (reacts : Connection.Reacts data c who event reaction) (other : who ≠ none) :
    ∀ functor ∈ reaction.2, functor.isNotice = false := by
  intro functor isNext
  cases reacts with
  | ignored => cases isNext
  | test => cases isNext
  | proceed t request =>
      obtain rfl := Option.some.inj isNext
      cases request <;> rfl
  | removeConnection =>
      obtain rfl := Option.some.inj isNext
      rfl
  | _ => exact absurd rfl other

theorem OthersSilent.move {action : Mailbox.Action ι (Connection.Event α)}
    (silent : OthersSilent s) (moved : Mailbox.Move (actor data) s action s') :
    OthersSilent s' := by
  cases moved with
  | react free reacted =>
      exact silent.update fun other =>
        not_notice_of_reacts (Connection.reacts_of_react reacted) other
  | post ready => exact silent.update fun _ functor isNext => by cases isNext
  | call free first called => exact silent.update fun other => absurd rfl other

/-- What holds of a session while its connection is up. -/
structure Keeps (data : α → Bytes) (watermark : Nat)
    (s : Mailbox ι (Connection ι α) (Functor (Message ι α))) : Prop where
  silent : OthersSilent s
  inv : s.state.tcp.Alive → (flow data s).Invariant
  pressure : s.state.tcp.Alive → (flow data s).Pressure watermark

namespace Keeps

variable {watermark : Nat}

omit [DecidableEq ι] in
theorem initial (positive : 0 < watermark) :
    Keeps data watermark (.initial ι (Session.initial ι α watermark)) where
  silent := by
    intro t functor isNext
    cases isNext
  inv := fun _ => Net.Flow.Invariant.initial watermark
  pressure := fun _ => Net.Flow.Pressure.initial positive

theorem move (positive : 0 < watermark) {action : Mailbox.Action ι (Connection.Event α)}
    (keeps : Keeps data watermark s) (served : Served action s)
    (moved : Mailbox.Move (actor data) s action s') : Keeps data watermark s' := by
  have inv := keeps.inv served.1
  have pressure := keeps.pressure served.1
  refine ⟨keeps.silent.move moved, fun alive => ?_, fun alive => ?_⟩
  · rcases flows_of_move keeps.silent served moved alive with same | ⟨_, -, stepped⟩ | arrives
    · rwa [same]
    · exact inv.step stepped
    · exact inv.arrives arrives
  · rcases flows_of_move keeps.silent served moved alive with same | ⟨_, -, stepped⟩ | arrives
    · rwa [same]
    · exact pressure.step positive stepped
    · exact pressure.arrives arrives

theorem of_reachable (positive : 0 < watermark)
    (reachable : Reachable (Mailbox.step (actor data)) Served
      (.initial ι (Session.initial ι α watermark)) s) : Keeps data watermark s :=
  reachable.invariant (initial positive) fun _ _ _ keeps served stepped =>
    keeps.move positive served (Mailbox.move_of_step stepped)

end Keeps

/-- **Flow control is kept on the event loop.**  As long as the connection is up and only
the session starts and stops reading, it is never deaf. With its output at or above the
mark, reading is stopped or a call that stops it is on its way, and nothing behind that
starts it again. -/
theorem session_flow_kept {watermark : Nat} (positive : 0 < watermark)
    {s : EventLoop ι (Connection ι α) (Functor (Message ι α))}
    (reachable : Reachable (EventLoop.step (actor data)) (EventLoop.Lifted Served)
      (.initial ι (Functor (Message ι α)) (Session.initial ι α watermark)) s)
    (alive : s.program.tcp.Alive) :
    (flow data s.mailbox).NeverDeaf ∧
      (watermark ≤ s.program.tcp.outputBuffer_.length →
        (flow data s.mailbox).Backed (flow data s.mailbox).pendingFunctors_.length) := by
  have keeps := Keeps.of_reachable positive (EventLoop.reachable_mailbox reachable)
  exact ⟨(keeps.inv alive).neverDeaf, (keeps.pressure alive).backed⟩

/-- Two bytes reach a mark of two, and reading is stopped until they are written. -/
example : (execute (EventLoop.step (actor id))
    [.own .enter, .own .testQuit, .own (.poll true),
      .react none (.request (.send [1, 2]) (.failed .eWouldBlock)), .pushBack none,
      .testThread none, .own .startFunctors, .own .swap, .own (.callFunctor (.run (.wrote 0)))]
    (.initial Unit _ (Session.initial Unit Bytes 2))).map
      (fun s => (s.program.tcp.reading_, s.program.tcp.writeCompleteCallback_)) =
    some (false, true) := by decide

end Session

end AirNet.Muduo
