import AirNet.Lib.Mailbox
import AirNet.Muduo.Channel

/-!
# The connection, byte by byte

A `TcpConnection` belongs to one event loop. Its handlers and the functors
queued for it run in the thread of the loop; `send`, `shutdown` and `forceClose`
may be called in any thread. In another thread such a call tests `state_`, in a
second step stores to it where it has to, and leaves a functor for the loop. The
definitions follow `TcpConnection.cc` and `Channel.cc` of muduo, with the bytes
of the output buffer and of the socket, for the connection, the handlers that
`handleEventWithGuard` has still to call, and any number of threads.

`forceCloseWithDelay`, which stores `kDisconnecting` and leaves the rest to a
timer, is not among the calls.

The kernel takes what it likes of the bytes written, or refuses them; after
`shutdownWrite` it refuses all of them. It reports events of the descriptor as
long as `EPollPoller` has added it, also when the channel wants none. Assertions
do not stop the program: whether all held so far is recorded (`asserted`), and
the program goes on as with assertions compiled out. The messages sent, those
that reached `sendInLoop`, and those that were kept there are recorded as well.
-/

set_option autoImplicit false

namespace AirNet.Muduo

open AirNet.Cpp AirNet.Lib
open AirNet.Net (StateE Errno WriteResult)

/-! ## The socket -/

structure Socket where
  /-- The bytes that the kernel has taken, in order. -/
  written : Bytes
  writeShutdown : Bool
  deriving DecidableEq, Repr

namespace Socket

/-- `sockets::write`, where the kernel decides the outcome. -/
def write (socket : Socket) (data : Bytes) (outcome : WriteResult) : Socket × WriteResult :=
  if socket.writeShutdown then (socket, .failed .ePipe)
  else
    match outcome with
    | .wrote n =>
        ({ socket with written := socket.written ++ data.take n }, .wrote (min n data.length))
    | .failed errno => (socket, .failed errno)

def shutdownWrite (socket : Socket) : Socket :=
  { socket with writeShutdown := true }

/-- A write takes a first part of the bytes, or nothing. -/
theorem write_cases (socket : Socket) (data : Bytes) (outcome : WriteResult) :
    (socket.writeShutdown = false ∧ ∃ n ≤ data.length, socket.write data outcome =
        ({ socket with written := socket.written ++ data.take n }, .wrote n)) ∨
      ∃ errno, (socket.writeShutdown = true → errno = .ePipe) ∧
        socket.write data outcome = (socket, .failed errno) := by
  unfold write
  split_ifs with closed
  · exact .inr ⟨.ePipe, fun _ => rfl, rfl⟩
  · cases outcome with
    | wrote n =>
        refine .inl ⟨Bool.eq_false_of_not_eq_true closed, min n data.length, min_le_right _ _, ?_⟩
        dsimp only
        rw [← List.take_eq_take_min]
    | failed errno => exact .inr ⟨errno, fun isClosed => absurd isClosed closed, rfl⟩

end Socket

/-! ## The connection -/

/-- The callbacks of the program. -/
inductive Callback where
  | connectionCallback_ (connected : Bool)
  | messageCallback_
  | writeCompleteCallback_
  | highWaterMarkCallback_ (len : Nat)
  | closeCallback_
  deriving DecidableEq, Repr

/-- What a connection leaves for its loop; a send carries what it sends. -/
inductive Functor (μ : Type) where
  | sendInLoop (message : μ)
  | shutdownInLoop
  | forceCloseInLoop
  | startReadInLoop
  | stopReadInLoop
  | connectDestroyed
  | writeCompleteCallback
  | highWaterMarkCallback (len : Nat)
  deriving DecidableEq, Repr

/-- The result of `readFd`; no bytes are the end of the stream. -/
inductive ReadResult where
  | read (bytes : Bytes)
  | failed (errno : Errno)
  deriving DecidableEq, Repr

/-- Of the two callbacks that a program may leave out, a flag says whether they
are there. The callbacks made are recorded. -/
structure TcpConnection where
  state_ : StateE
  reading_ : Bool
  channel_ : Channel
  socket_ : Socket
  inputBuffer_ : Bytes
  outputBuffer_ : Bytes
  highWaterMark_ : Nat
  writeCompleteCallback_ : Bool
  highWaterMarkCallback_ : Bool
  callbacks : List Callback
  asserted : Bool
  deriving DecidableEq, Repr

namespace TcpConnection

def construct : TcpConnection where
  state_ := .kConnecting
  reading_ := true
  channel_ := .construct
  socket_ := { written := [], writeShutdown := false }
  inputBuffer_ := []
  outputBuffer_ := []
  highWaterMark_ := 64 * 1024 * 1024
  writeCompleteCallback_ := false
  highWaterMarkCallback_ := false
  callbacks := []
  asserted := true

def check (conn : TcpConnection) (condition : Bool) : TcpConnection :=
  { conn with asserted := conn.asserted && condition }

def callBack (conn : TcpConnection) (made : List Callback) : TcpConnection :=
  { conn with callbacks := conn.callbacks ++ made }

def setState (conn : TcpConnection) (s : StateE) : TcpConnection :=
  { conn with state_ := s }

/-! ### Sending -/

/-- The direct write of `sendInLoop`: the connection, the number of bytes
written, whether an error forbids to keep the rest, and what is queued. -/
structure Direct (μ : Type) where
  conn : TcpConnection
  nwrote : Nat
  faultError : Bool
  queued : Option (Functor μ)

variable {μ : Type}

def writeDirectly (conn : TcpConnection) (data : Bytes) (outcome : WriteResult) : Direct μ :=
  if conn.channel_.writing = false ∧ conn.outputBuffer_ = [] then
    match conn.socket_.write data outcome with
    | (socket, .wrote nwrote) =>
        { conn := { conn with socket_ := socket }
          nwrote := nwrote
          faultError := false
          queued :=
            if data.length - nwrote = 0 ∧ conn.writeCompleteCallback_ = true then
              some .writeCompleteCallback
            else none }
    | (_, .failed errno) =>
        { conn := conn
          nwrote := 0
          faultError := errno = .ePipe ∨ errno = .eConnReset
          queued := none }
  else { conn := conn, nwrote := 0, faultError := false, queued := none }

/-- The rest of `sendInLoop`, for bytes that were not written. -/
def appendOutput (conn : TcpConnection) (rest : Bytes) : TcpConnection × Option (Functor μ) :=
  ({ conn with
      outputBuffer_ := conn.outputBuffer_ ++ rest
      channel_ := if conn.channel_.writing then conn.channel_ else conn.channel_.enableWriting },
    if conn.highWaterMark_ ≤ conn.outputBuffer_.length + rest.length ∧
        conn.outputBuffer_.length < conn.highWaterMark_ ∧
        conn.highWaterMarkCallback_ = true then
      some (.highWaterMarkCallback (conn.outputBuffer_.length + rest.length))
    else none)

/-- What a call of `sendInLoop` comes to. The bytes are kept when they were
written or appended to the output buffer. -/
structure Sent (μ : Type) where
  conn : TcpConnection
  kept : Bool
  queued : Option (Functor μ)

def sendInLoop (conn : TcpConnection) (data : Bytes) (outcome : WriteResult) : Sent μ :=
  if conn.state_ = .kDisconnected then { conn := conn, kept := false, queued := none }
  else
    let direct : Direct μ := conn.writeDirectly data outcome
    if direct.faultError = false ∧ 0 < data.length - direct.nwrote then
      let appended := direct.conn.appendOutput (data.drop direct.nwrote)
      { conn := appended.1, kept := true, queued := direct.queued.or appended.2 }
    else { conn := direct.conn, kept := !direct.faultError, queued := direct.queued }

def shutdownInLoop (conn : TcpConnection) : TcpConnection :=
  if conn.channel_.writing = false then { conn with socket_ := conn.socket_.shutdownWrite }
  else conn

def handleWrite (conn : TcpConnection) (outcome : WriteResult) :
    TcpConnection × Option (Functor μ) :=
  if conn.channel_.writing = true then
    match conn.socket_.write conn.outputBuffer_ outcome with
    | (socket, .wrote n) =>
        if 0 < n then
          let written :=
            { conn with socket_ := socket, outputBuffer_ := conn.outputBuffer_.drop n }
          if written.outputBuffer_ = [] then
            let done := { written with channel_ := written.channel_.disableWriting }
            (if done.state_ = .kDisconnecting then done.shutdownInLoop else done,
              if done.writeCompleteCallback_ = true then some .writeCompleteCallback else none)
          else (written, none)
        else (conn, none)
    | (_, .failed _) => (conn, none)
  else (conn, none)

/-! ### Reading and closing -/

def startReadInLoop (conn : TcpConnection) : TcpConnection :=
  if conn.reading_ = false ∨ conn.channel_.reading = false then
    { conn with channel_ := conn.channel_.enableReading, reading_ := true }
  else conn

def stopReadInLoop (conn : TcpConnection) : TcpConnection :=
  if conn.reading_ = true ∨ conn.channel_.reading = true then
    { conn with channel_ := conn.channel_.disableReading, reading_ := false }
  else conn

def connectEstablished (conn : TcpConnection) : TcpConnection :=
  let conn := (conn.check (conn.state_ = .kConnecting)).setState .kConnected
  { conn with channel_ := conn.channel_.enableReading }.callBack [.connectionCallback_ true]

def handleClose (conn : TcpConnection) : TcpConnection :=
  let conn := conn.check (conn.state_ = .kConnected ∨ conn.state_ = .kDisconnecting)
  { conn.setState .kDisconnected with channel_ := conn.channel_.disableAll }.callBack
    [.connectionCallback_ false, .closeCallback_]

def forceCloseInLoop (conn : TcpConnection) : TcpConnection :=
  if conn.state_ = .kConnected ∨ conn.state_ = .kDisconnecting then conn.handleClose else conn

/-- `channel_->remove()` asserts that no event is enabled, and the poller that it knows the
channel. -/
def connectDestroyed (conn : TcpConnection) : TcpConnection :=
  let conn :=
    if conn.state_ = .kConnected then
      { conn.setState .kDisconnected with channel_ := conn.channel_.disableAll }.callBack
        [.connectionCallback_ false]
    else conn
  { conn.check (conn.channel_.events = noneEvent ∧ conn.channel_.index_ ≠ kNew) with
    channel_ := conn.channel_.remove }

/-- The program retrieves some of the input in its callback. -/
def handleRead (conn : TcpConnection) (result : ReadResult) (retrieved : Nat) : TcpConnection :=
  match result with
  | .read [] => conn.handleClose
  | .read (byte :: bytes) =>
      { conn with
        inputBuffer_ := (conn.inputBuffer_ ++ byte :: bytes).drop retrieved }.callBack
        [.messageCallback_]
  | .failed _ => conn

end TcpConnection

/-! ## Calls from any thread -/

/-- The calls that any thread may make. -/
inductive Request (α : Type) where
  | send (content : α)
  | shutdown
  | forceClose
  | startRead
  | stopRead
  deriving DecidableEq, Repr

/-- The test of `state_` with which a call begins. -/
def Request.passes {α : Type} (state_ : StateE) : Request α → Bool
  | .send _ => state_ = .kConnected
  | .shutdown => state_ = .kConnected
  | .forceClose => state_ = .kConnected ∨ state_ = .kDisconnecting
  | .startRead => true
  | .stopRead => true

/-- Something sent, with the thread that sent it. -/
structure Message (ι α : Type) where
  sender : Option ι
  content : α
  deriving DecidableEq, Repr

/-- What the call sends. -/
def Request.message {ι α : Type} (who : Option ι) : Request α → Option (Message ι α)
  | .send content => some ⟨who, content⟩
  | _ => none

/-- What the call stores to `state_` behind the test. -/
def Request.store {α : Type} (conn : TcpConnection) : Request α → TcpConnection
  | .shutdown => conn.setState .kDisconnecting
  | .forceClose => conn.setState .kDisconnecting
  | _ => conn

/-- What the call leaves for the loop when it is made in another thread. -/
def Request.functor {ι α : Type} (who : Option ι) : Request α → Functor (Message ι α)
  | .send content => .sendInLoop ⟨who, content⟩
  | .shutdown => .shutdownInLoop
  | .forceClose => .forceCloseInLoop
  | .startRead => .startReadInLoop
  | .stopRead => .stopReadInLoop

/-- A connection with the handlers that are due, the calls of other threads that
have passed the test of `state_`, and what was sent, what reached `sendInLoop`
and what was kept there. -/
structure Connection (ι α : Type) where
  tcp : TcpConnection
  due : List Handler
  passed : ι → Option (Request α)
  sent : List (Message ι α)
  executed : List (Message ι α)
  kept : List (Message ι α)

namespace Connection

variable {ι α : Type}

def initial (ι α : Type) : Connection ι α where
  tcp := .construct
  due := []
  passed := fun _ => none
  sent := []
  executed := []
  kept := []

/-- What happens to a connection, with what the kernel and the program decide. -/
inductive Event (α : Type) where
  /-- A call in the thread of the loop, or the test of a call in another thread. -/
  | request (request : Request α) (outcome : WriteResult)
  /-- A call in another thread goes on behind the test. -/
  | proceed
  | connectEstablished
  | setWriteCompleteCallback (installed : Bool)
  | setHighWaterMarkCallback (installed : Bool) (highWaterMark : Nat)
  /-- `poll` has reported events of the channel. -/
  | poll (revents_ : Revents)
  /-- The next handler that is due. -/
  | handle (result : ReadResult) (retrieved : Nat) (outcome : WriteResult)
  /-- The server queues `connectDestroyed`. -/
  | removeConnection
  /-- A functor is called. -/
  | run (outcome : WriteResult)
  deriving DecidableEq, Repr

variable (data : α → Bytes)

/-- `sendInLoop`, recorded. -/
def transmit (c : Connection ι α) (message : Message ι α) (outcome : WriteResult) :
    Connection ι α × Option (Functor (Message ι α)) :=
  let sent : TcpConnection.Sent (Message ι α) := c.tcp.sendInLoop (data message.content) outcome
  ({ c with
      tcp := sent.conn
      executed := c.executed ++ [message]
      kept := c.kept ++ if sent.kept then [message] else [] },
    sent.queued)

/-- A call in the thread of the loop, behind the test: `runInLoop` calls the
functor at once, `forceClose` queues it. -/
def perform (c : Connection ι α) (outcome : WriteResult) :
    Request α → Connection ι α × Option (Functor (Message ι α))
  | .send content =>
      let message : Message ι α := ⟨none, content⟩
      { c with sent := c.sent ++ [message] }.transmit data message outcome
  | .shutdown => ({ c with tcp := (c.tcp.setState .kDisconnecting).shutdownInLoop }, none)
  | .forceClose =>
      ({ c with tcp := c.tcp.setState .kDisconnecting }, some .forceCloseInLoop)
  | .startRead => ({ c with tcp := c.tcp.startReadInLoop }, none)
  | .stopRead => ({ c with tcp := c.tcp.stopReadInLoop }, none)

def handle (c : Connection ι α) (result : ReadResult) (retrieved : Nat) (outcome : WriteResult) :
    Handler → Connection ι α × Option (Functor (Message ι α))
  | .closeCallback_ => ({ c with tcp := c.tcp.handleClose }, none)
  | .errorCallback_ => (c, none)
  | .readCallback_ => ({ c with tcp := c.tcp.handleRead result retrieved }, none)
  | .writeCallback_ =>
      let written : TcpConnection × Option (Functor (Message ι α)) := c.tcp.handleWrite outcome
      ({ c with tcp := written.1 }, written.2)

def call (c : Connection ι α) (outcome : WriteResult) :
    Functor (Message ι α) → Connection ι α × Option (Functor (Message ι α))
  | .sendInLoop message => c.transmit data message outcome
  | .shutdownInLoop => ({ c with tcp := c.tcp.shutdownInLoop }, none)
  | .forceCloseInLoop => ({ c with tcp := c.tcp.forceCloseInLoop }, none)
  | .startReadInLoop => ({ c with tcp := c.tcp.startReadInLoop }, none)
  | .stopReadInLoop => ({ c with tcp := c.tcp.stopReadInLoop }, none)
  | .connectDestroyed => ({ c with tcp := c.tcp.connectDestroyed }, none)
  | .writeCompleteCallback => ({ c with tcp := c.tcp.callBack [.writeCompleteCallback_] }, none)
  | .highWaterMarkCallback len =>
      ({ c with tcp := c.tcp.callBack [.highWaterMarkCallback_ len] }, none)

/-- What the thread of the loop does outside functors. -/
def reactInLoop : Event α → Connection ι α →
    Option (Connection ι α × Option (Functor (Message ι α)))
  | .request request outcome, c =>
      if request.passes c.tcp.state_ = true then some (c.perform data outcome request)
      else some (c, none)
  | .connectEstablished, c => some ({ c with tcp := c.tcp.connectEstablished }, none)
  | .setWriteCompleteCallback installed, c =>
      some ({ c with tcp := { c.tcp with writeCompleteCallback_ := installed } }, none)
  | .setHighWaterMarkCallback installed highWaterMark, c =>
      some ({ c with
        tcp := { c.tcp with
          highWaterMarkCallback_ := installed, highWaterMark_ := highWaterMark } }, none)
  | .poll revents_, c =>
      if c.due = [] ∧ c.tcp.channel_.isWatched = true then
        some ({ c with due := revents_.handlers }, none)
      else none
  | .handle result retrieved outcome, c =>
      match c.due with
      | [] => none
      | handler :: due => some ({ c with due := due }.handle result retrieved outcome handler)
  | .removeConnection, c => some (c, some .connectDestroyed)
  | .proceed, _ => none
  | .run _, _ => none

variable [DecidableEq ι]

/-- What another thread does. -/
def reactFromThread (t : ι) : Event α → Connection ι α →
    Option (Connection ι α × Option (Functor (Message ι α)))
  | .request request _, c =>
      match c.passed t with
      | some _ => none
      | none =>
          if request.passes c.tcp.state_ = true then
            some ({ c with
              passed := Function.update c.passed t (some request)
              sent := c.sent ++ (request.message (some t)).toList }, none)
          else some (c, none)
  | .proceed, c =>
      match c.passed t with
      | none => none
      | some request =>
          some ({ c with
            tcp := request.store c.tcp
            passed := Function.update c.passed t none }, some (request.functor (some t)))
  | .removeConnection, c => some (c, some .connectDestroyed)
  | _, _ => none

/-- The connection as a program of the event loop. No functor is called while
handlers are due. -/
def actor : Actor ι (Connection ι α) (Functor (Message ι α)) (Event α) where
  react := fun who event c =>
    match who with
    | none => c.reactInLoop data event
    | some t => c.reactFromThread t event
  call := fun functor event c =>
    match event with
    | .run outcome => if c.due = [] then some (c.call data outcome functor) else none
    | _ => none

end Connection

end AirNet.Muduo
