import AirNet.Muduo.Stream

/-!
# Shutting down

A shutdown is graceful: the socket is closed for writing only when the output
buffer is empty, so the stream ends behind a whole message. And a connection
that is disconnecting is never forgotten. The socket is closed for writing, or
there is output whose last write closes it, or the functor that will shut down
or close the connection is on its way (`shutdown_is_graceful`).

Both are about a connection that is still open: `handleClose` and
`connectDestroyed` drop the interest in writing together with what is in the
output buffer. The calls may come from any thread. A thread that has found the
connection connected stores `kDisconnecting` in a later step, when others may
have stored to `state_` in between.

Graceful is not lossless for the thread that asks. Its earlier messages may
still be queued when the last of the output is written, and this write already
finds the connection disconnecting (`shutdown_overtakes_send`).
-/

set_option autoImplicit false

namespace AirNet.Muduo

open AirNet.Cpp AirNet.Lib
open AirNet.Net (StateE Errno WriteResult)

namespace TcpConnection

/-- No assertion has failed, and the program was not told that the connection is
down. -/
def Open (conn : TcpConnection) : Prop :=
  conn.asserted = true ∧ .connectionCallback_ false ∉ conn.callbacks

/-- Output is watched by the channel, and there is none once the socket is closed
for writing. -/
structure Tidy (conn : TcpConnection) : Prop where
  watched : conn.channel_.writing = true ↔ conn.outputBuffer_ ≠ []
  shut : conn.socket_.writeShutdown = true →
    conn.state_ = .kDisconnecting ∧ conn.outputBuffer_ = []

/-- The shutdown is done, or the last write of the output does it. -/
def Closing (conn : TcpConnection) : Prop :=
  conn.socket_.writeShutdown = true ∨ conn.channel_.writing = true

/-- What leaves the state alone and keeps the order of things. -/
structure Carries (conn conn' : TcpConnection) : Prop where
  opened : conn'.Open → conn.Open
  state : conn'.state_ = conn.state_
  tidy : conn'.Open → conn.Tidy → conn'.Tidy
  closing : conn.state_ = .kDisconnecting → conn.Closing → conn'.Closing

variable {conn conn' : TcpConnection} {μ : Type}

namespace Carries

/-- Neither the output nor the interest in writing changes. -/
theorem of_same (opened : conn'.Open → conn.Open) (state : conn'.state_ = conn.state_)
    (socket : conn'.socket_ = conn.socket_) (output : conn'.outputBuffer_ = conn.outputBuffer_)
    (writing : conn'.channel_.writing = conn.channel_.writing) : Carries conn conn' where
  opened := opened
  state := state
  tidy := fun _ tidy => ⟨by rw [writing, output]; exact tidy.watched,
    by rw [socket, state, output]; exact tidy.shut⟩
  closing := by
    intro _ closing
    rwa [Closing, socket, writing]

theorem refl (conn : TcpConnection) : Carries conn conn :=
  of_same id rfl rfl rfl rfl

theorem of_sendMove {data : Bytes} {sent : Sent μ} (moved : SendMove conn data sent) :
    Carries conn sent.conn := by
  cases moved with
  | refused => exact refl conn
  | empty => exact refl conn
  | wrote idle writable notice =>
      exact
        { opened := id
          state := rfl
          tidy := fun _ tidy => ⟨tidy.watched, tidy.shut⟩
          closing := fun _ closing => closing }
  | @buffered n queued some direct writable notice =>
      have writes := conn.channel_.writing_of_ite
      refine ⟨id, rfl, fun _ tidy => ⟨?_, ?_⟩, fun _ _ => .inr writes⟩
      · refine iff_of_true writes ?_
        simp only [ne_eq, List.append_eq_nil_iff, List.drop_eq_nil_iff, not_and, not_le]
        exact fun _ => some
      · -- behind a shutdown nothing is appended
        intro shut
        obtain ⟨-, none⟩ := tidy.shut shut
        have idle : conn.Idle :=
          ⟨Bool.eq_false_of_not_eq_true fun writing => tidy.watched.mp writing none, none⟩
        have open_ := writable idle
        rw [show conn.socket_.writeShutdown = true from shut] at open_
        cases open_

theorem of_drainMove {drained : TcpConnection × Option (Functor μ)}
    (moved : DrainMove conn drained) : Carries conn drained.1 := by
  cases moved with
  | nothing => exact refl conn
  | some writing writable left =>
      refine ⟨id, rfl, fun _ tidy => ⟨iff_of_true writing left, fun shut => ?_⟩,
        fun _ _ => .inr writing⟩
      rw [show conn.socket_.writeShutdown = true from shut] at writable
      cases writable
  | all writing writable notice =>
      refine ⟨id, rfl, fun _ _ => ⟨?_, fun shut => ⟨of_decide_eq_true shut, rfl⟩⟩,
        fun leaving _ => .inl (decide_eq_true leaving)⟩
      simp

end Carries

/-! ## The operations -/

theorem not_open_handleClose (conn : TcpConnection) : ¬ conn.handleClose.Open := by
  intro isOpen
  exact isOpen.2 (List.mem_append_right _ (by simp))

theorem carries_startReadInLoop (conn : TcpConnection) : Carries conn conn.startReadInLoop := by
  unfold startReadInLoop
  split_ifs
  · exact .of_same id rfl rfl rfl rfl
  · exact .refl conn

theorem carries_stopReadInLoop (conn : TcpConnection) : Carries conn conn.stopReadInLoop := by
  unfold stopReadInLoop
  split_ifs
  · exact .of_same id rfl rfl rfl rfl
  · exact .refl conn

theorem carries_callBack (conn : TcpConnection) (made : List Callback) :
    Carries conn (conn.callBack made) :=
  .of_same (fun isOpen => ⟨isOpen.1, fun member => isOpen.2 (List.mem_append_left _ member)⟩)
    rfl rfl rfl rfl

theorem open_of_check {condition : Bool} (isOpen : (conn.check condition).Open) :
    condition = true ∧ conn.Open := by
  obtain ⟨asserted, up⟩ := isOpen
  obtain ⟨before, holds⟩ := Bool.and_eq_true_iff.mp asserted
  exact ⟨holds, before, up⟩

theorem carries_handleRead (conn : TcpConnection) (result : ReadResult) (retrieved : Nat) :
    Carries conn (conn.handleRead result retrieved) ∨
      ¬ (conn.handleRead result retrieved).Open := by
  cases result with
  | failed errno => exact .inl (.refl conn)
  | read bytes =>
      cases bytes with
      | nil => exact .inr conn.not_open_handleClose
      | cons byte bytes =>
          refine .inl (.of_same ?_ rfl rfl rfl rfl)
          exact fun isOpen => ⟨isOpen.1, fun member => isOpen.2 (List.mem_append_left _ member)⟩

theorem carries_connectDestroyed (conn : TcpConnection) :
    Carries conn conn.connectDestroyed ∨ ¬ conn.connectDestroyed.Open := by
  unfold connectDestroyed
  split_ifs
  · refine .inr fun isOpen => ?_
    exact (open_of_check isOpen).2.2 (List.mem_append_right _ (by simp))
  · exact .inl (.of_same (fun isOpen => (open_of_check isOpen).2) rfl rfl rfl rfl)

theorem carries_forceCloseInLoop (conn : TcpConnection) :
    (conn.forceCloseInLoop = conn ∧ conn.state_ ≠ .kDisconnecting) ∨
      ¬ conn.forceCloseInLoop.Open := by
  unfold forceCloseInLoop
  split_ifs with alive
  · exact .inr conn.not_open_handleClose
  · exact .inl ⟨rfl, fun leaving => alive (.inr leaving)⟩

theorem Tidy.setState (tidy : conn.Tidy) : (conn.setState .kDisconnecting).Tidy where
  watched := tidy.watched
  shut := fun shut => ⟨rfl, (tidy.shut shut).2⟩

/-- `shutdownInLoop` closes the socket for writing, or output is left whose last
write does. -/
theorem Tidy.shutdownInLoop (tidy : conn.Tidy) (leaving : conn.state_ = .kDisconnecting) :
    conn.shutdownInLoop.Tidy ∧ conn.shutdownInLoop.Closing := by
  unfold TcpConnection.shutdownInLoop
  split_ifs with quiet
  · refine ⟨⟨tidy.watched, fun _ => ⟨leaving, ?_⟩⟩, .inl rfl⟩
    by_contra some
    rw [tidy.watched.mpr some] at quiet
    cases quiet
  · exact ⟨tidy, .inr (Bool.eq_true_of_not_eq_false quiet)⟩

/-- The write that takes the rest of the output closes the socket for writing. -/
theorem Tidy.handleWrite_all (tidy : conn.Tidy) (writing : conn.channel_.writing = true)
    (leaving : conn.state_ = .kDisconnecting) :
    (conn.handleWrite (.wrote conn.outputBuffer_.length) :
        TcpConnection × Option (Functor μ)).1.socket_ =
      { written := conn.stream, writeShutdown := true } := by
  have some := tidy.watched.mp writing
  have writable : conn.socket_.writeShutdown = false :=
    Bool.eq_false_of_not_eq_true fun shut => some (tidy.shut shut).2
  simp [TcpConnection.handleWrite, Socket.write, Socket.shutdownWrite, TcpConnection.shutdownInLoop,
    TcpConnection.stream, writing, writable, leaving, List.length_pos_iff.mpr some]

theorem open_of_shutdownInLoop (isOpen : conn.shutdownInLoop.Open) : conn.Open := by
  unfold TcpConnection.shutdownInLoop at isOpen
  split_ifs at isOpen <;> exact isOpen

end TcpConnection

namespace Connection

variable {ι α : Type} {data : α → Bytes}

/-- The functor is queued, or a thread is about to queue it. -/
def OnItsWay (s : Mailbox ι (Connection ι α) (Functor (Message ι α)))
    (functor : Functor (Message ι α)) : Prop :=
  functor ∈ s.queue ∨ ∃ who, s.outbox who = some functor

/-- What holds of a connection that is open. -/
structure Graceful (s : Mailbox ι (Connection ι α) (Functor (Message ι α))) : Prop where
  tidy : s.state.tcp.Open → s.state.tcp.Tidy
  asked : s.state.tcp.Open → OnItsWay s .shutdownInLoop → s.state.tcp.state_ = .kDisconnecting
  leaving : s.state.tcp.Open → s.state.tcp.state_ = .kDisconnecting →
    s.state.tcp.Closing ∨ OnItsWay s .shutdownInLoop ∨ OnItsWay s .forceCloseInLoop

namespace OnItsWay

variable [DecidableEq ι] {s : Mailbox ι (Connection ι α) (Functor (Message ι α))}
  {functor : Functor (Message ι α)} {who : Option ι} {c : Connection ι α}
  {next : Option (Functor (Message ι α))}

/-- A thread that had nothing to queue loses nothing. -/
theorem react (way : OnItsWay s functor) (free : s.outbox who = none) :
    OnItsWay ⟨c, s.queue, Function.update s.outbox who next⟩ functor := by
  rcases way with queued | ⟨other, ready⟩
  · exact .inl queued
  · refine .inr ⟨other, ?_⟩
    have different : other ≠ who := by
      rintro rfl
      rw [free] at ready
      cases ready
    exact (Function.update_of_ne different next s.outbox).trans ready

theorem of_react
    (way : OnItsWay ⟨c, s.queue, Function.update s.outbox who next⟩ functor) :
    OnItsWay s functor ∨ next = some functor := by
  rcases way with queued | ⟨other, ready⟩
  · exact .inl (.inl queued)
  · by_cases same : other = who
    · subst same
      exact .inr ((Function.update_self other next s.outbox).symm.trans ready)
    · exact .inl (.inr ⟨other, (Function.update_of_ne same next s.outbox).symm.trans ready⟩)

theorem of_next {queue : List (Functor (Message ι α))}
    {outbox : Option ι → Option (Functor (Message ι α))} :
    OnItsWay ⟨c, queue, Function.update outbox who (some functor)⟩ functor :=
  .inr ⟨who, by simp only [Function.update_self]⟩

theorem post {posted : Functor (Message ι α)} (ready : s.outbox who = some posted) :
    OnItsWay ⟨s.state, s.queue ++ [posted], Function.update s.outbox who none⟩ functor ↔
      OnItsWay s functor := by
  constructor
  · rintro (queued | ⟨other, isReady⟩)
    · rcases List.mem_append.mp queued with before | isPosted
      · exact .inl before
      · rw [List.mem_singleton.mp isPosted]
        exact .inr ⟨who, ready⟩
    · by_cases same : other = who
      · subst same
        have emptied := (Function.update_self other none s.outbox).symm.trans isReady
        cases emptied
      · exact .inr ⟨other, (Function.update_of_ne same _ s.outbox).symm.trans isReady⟩
  · rintro (queued | ⟨other, isReady⟩)
    · exact .inl (List.mem_append_left _ queued)
    · by_cases same : other = who
      · subst same
        rw [ready] at isReady
        rw [← Option.some.inj isReady]
        exact .inl (List.mem_append_right _ (List.mem_singleton_self posted))
      · exact .inr ⟨other, (Function.update_of_ne same _ s.outbox).trans isReady⟩

/-- A functor other than the one called stays on its way. -/
theorem call {called : Functor (Message ι α)} {rest : List (Functor (Message ι α))}
    (way : OnItsWay s functor) (free : s.outbox none = none) (first : s.queue = called :: rest)
    (different : functor ≠ called) :
    OnItsWay ⟨c, rest, Function.update s.outbox none next⟩ functor := by
  rcases way with queued | ⟨other, ready⟩
  · rw [first] at queued
    exact .inl ((List.mem_cons.mp queued).resolve_left different)
  · refine .inr ⟨other, ?_⟩
    have notOwn : other ≠ none := by
      rintro rfl
      rw [free] at ready
      cases ready
    exact (Function.update_of_ne notOwn next s.outbox).trans ready

theorem of_call {called : Functor (Message ι α)} {rest : List (Functor (Message ι α))}
    (first : s.queue = called :: rest)
    (way : OnItsWay ⟨c, rest, Function.update s.outbox none next⟩ functor) :
    OnItsWay s functor ∨ next = some functor := by
  rcases way with queued | ready
  · exact .inl (.inl (first ▸ List.mem_cons_of_mem called queued))
  · rcases of_react (s := s) (c := c) (.inr ready) with before | isNext
    · exact .inl before
    · exact .inr isNext

end OnItsWay

namespace Graceful

variable {s s' : Mailbox ι (Connection ι α) (Functor (Message ι α))}

theorem initial : Graceful (.initial ι (Connection.initial ι α)) where
  tidy := by
    intro _
    refine ⟨?_, fun shut => ?_⟩
    · exact iff_of_false Bool.false_ne_true (not_not_intro rfl)
    · cases shut
  asked := by
    rintro _ (queued | ⟨_, ready⟩)
    · cases queued
    · cases ready
  leaving := by
    intro _ leaving
    cases leaving

theorem closed (isClosed : ¬ s.state.tcp.Open) : Graceful s where
  tidy := fun isOpen => absurd isOpen isClosed
  asked := fun isOpen => absurd isOpen isClosed
  leaving := fun isOpen => absurd isOpen isClosed

/-- The connection carries on, and no functor that matters is lost or added. -/
theorem carry (graceful : Graceful s) (carries : s.state.tcp.Carries s'.state.tcp)
    (back : OnItsWay s' .shutdownInLoop → OnItsWay s .shutdownInLoop)
    (shutdown : OnItsWay s .shutdownInLoop → OnItsWay s' .shutdownInLoop)
    (forceClose : s.state.tcp.state_ = .kDisconnecting →
      OnItsWay s .forceCloseInLoop → OnItsWay s' .forceCloseInLoop) : Graceful s' where
  tidy := fun isOpen => carries.tidy isOpen (graceful.tidy (carries.opened isOpen))
  asked := by
    intro isOpen way
    rw [carries.state]
    exact graceful.asked (carries.opened isOpen) (back way)
  leaving := by
    intro isOpen leaving
    rw [carries.state] at leaving
    rcases graceful.leaving (carries.opened isOpen) leaving with closing | way | way
    · exact .inl (carries.closing leaving closing)
    · exact .inr (.inl (shutdown way))
    · exact .inr (.inr (forceClose leaving way))

/-- The connection is disconnecting, and a functor will finish it or it is
closing. -/
theorem of_leaving (leaving : s'.state.tcp.state_ = .kDisconnecting)
    (tidy : s'.state.tcp.Open → s'.state.tcp.Tidy)
    (finishes : s'.state.tcp.Open →
      s'.state.tcp.Closing ∨ OnItsWay s' .shutdownInLoop ∨ OnItsWay s' .forceCloseInLoop) :
    Graceful s' where
  tidy := tidy
  asked := fun _ _ => leaving
  leaving := fun isOpen _ => finishes isOpen

section

variable [DecidableEq ι]

/-- The thread reacts without touching what matters. -/
theorem carry_react (graceful : Graceful s) {who : Option ι} (free : s.outbox who = none)
    {reaction : Connection ι α × Option (Functor (Message ι α))}
    (carries : s.state.tcp.Carries reaction.1.tcp) (next : reaction.2 ≠ some .shutdownInLoop) :
    Graceful ⟨reaction.1, s.queue, Function.update s.outbox who reaction.2⟩ :=
  graceful.carry carries (fun way => way.of_react.resolve_right next) (fun way => way.react free)
    fun _ way => way.react free

theorem carry_call (graceful : Graceful s) (free : s.outbox none = none)
    {functor : Functor (Message ι α)} {rest : List (Functor (Message ι α))}
    (first : s.queue = functor :: rest)
    {reaction : Connection ι α × Option (Functor (Message ι α))}
    (carries : s.state.tcp.Carries reaction.1.tcp) (next : reaction.2 ≠ some .shutdownInLoop)
    (shutdown : .shutdownInLoop ≠ functor)
    (forceClose : s.state.tcp.state_ = .kDisconnecting → .forceCloseInLoop ≠ functor) :
    Graceful ⟨reaction.1, rest, Function.update s.outbox none reaction.2⟩ :=
  graceful.carry carries (fun way => (way.of_call first).resolve_right next)
    (fun way => way.call free first shutdown)
    fun leaving way => way.call free first (forceClose leaving)

end

theorem ne_shutdown_of_notice {queued : Option (Functor (Message ι α))}
    (notice : ∀ functor ∈ queued, functor.isNotice = true) : queued ≠ some .shutdownInLoop := by
  rintro rfl
  have isNotice := notice _ rfl
  cases isNotice

section

variable [DecidableEq ι]

theorem perform (graceful : Graceful s) (free : s.outbox none = none) (request : Request α)
    (outcome : WriteResult) :
    Graceful ⟨(s.state.perform data outcome request).1, s.queue,
      Function.update s.outbox none (s.state.perform data outcome request).2⟩ := by
  cases request with
  | send content =>
      have moved : TcpConnection.SendMove s.state.tcp (data content)
        (s.state.tcp.sendInLoop (data content) outcome : TcpConnection.Sent (Message ι α)) :=
          s.state.tcp.sendMove _ outcome
      exact graceful.carry_react free (.of_sendMove moved) (ne_shutdown_of_notice moved.notice)
  | shutdown =>
      have tidy (isOpen : (s.state.tcp.setState .kDisconnecting).shutdownInLoop.Open) :
          (s.state.tcp.setState .kDisconnecting).Tidy := by
        have before : (s.state.tcp.setState .kDisconnecting).Open :=
          TcpConnection.open_of_shutdownInLoop isOpen
        exact (graceful.tidy before).setState
      refine of_leaving ?_ (fun isOpen => ((tidy isOpen).shutdownInLoop rfl).1)
        fun isOpen => .inl ((tidy isOpen).shutdownInLoop rfl).2
      show (s.state.tcp.setState .kDisconnecting).shutdownInLoop.state_ = .kDisconnecting
      rw [TcpConnection.state_shutdownInLoop]
      rfl
  | forceClose =>
      exact of_leaving rfl (fun isOpen => (graceful.tidy isOpen).setState) fun _ =>
        .inr (.inr .of_next)
  | startRead =>
      exact graceful.carry_react free s.state.tcp.carries_startReadInLoop
        (by simp [Connection.perform])
  | stopRead =>
      exact graceful.carry_react free s.state.tcp.carries_stopReadInLoop
        (by simp [Connection.perform])

theorem proceed (graceful : Graceful s) {t : ι} (free : s.outbox (some t) = none)
    (request : Request α) :
    Graceful ⟨{ s.state with
        tcp := request.store s.state.tcp
        passed := Function.update s.state.passed t none }, s.queue,
      Function.update s.outbox (some t) (some (request.functor (some t)))⟩ := by
  cases request with
  | shutdown =>
      exact of_leaving rfl (fun isOpen => (graceful.tidy isOpen).setState) fun _ =>
        .inr (.inl .of_next)
  | forceClose =>
      exact of_leaving rfl (fun isOpen => (graceful.tidy isOpen).setState) fun _ =>
        .inr (.inr .of_next)
  | _ =>
      refine graceful.carry (.refl _) (fun way => way.of_react.resolve_right ?_)
        (fun way => way.react free) fun _ way => way.react free
      simp [Request.functor]

/-- A connection that passes the assertion was connecting, so nothing had been
shut down. -/
theorem connectEstablished (graceful : Graceful s) :
    Graceful ⟨{ s.state with tcp := s.state.tcp.connectEstablished }, s.queue,
      Function.update s.outbox none none⟩ := by
  have before (isOpen : s.state.tcp.connectEstablished.Open) :
      s.state.tcp.state_ = .kConnecting ∧ s.state.tcp.Open := by
    obtain ⟨asserted, up⟩ := isOpen
    obtain ⟨holds, connecting⟩ := Bool.and_eq_true_iff.mp asserted
    exact ⟨of_decide_eq_true connecting, holds, fun member => up (List.mem_append_left _ member)⟩
  refine ⟨fun isOpen => ?_, fun isOpen way => ?_, fun isOpen leaving => ?_⟩
  · obtain ⟨connecting, wasOpen⟩ := before isOpen
    have tidy := graceful.tidy wasOpen
    refine ⟨tidy.watched, fun shut => ?_⟩
    rw [(tidy.shut shut).1] at connecting
    cases connecting
  · obtain ⟨connecting, wasOpen⟩ := before isOpen
    rw [graceful.asked wasOpen (way.of_react.resolve_right (by simp))] at connecting
    cases connecting
  · cases leaving

theorem handle (graceful : Graceful s) (free : s.outbox none = none) (result : ReadResult)
    (retrieved : Nat) (outcome : WriteResult) (handler : Handler) :
    Graceful ⟨(s.state.handle result retrieved outcome handler).1, s.queue,
      Function.update s.outbox none (s.state.handle result retrieved outcome handler).2⟩ := by
  cases handler with
  | closeCallback_ => exact closed s.state.tcp.not_open_handleClose
  | errorCallback_ => exact graceful.carry_react free (.refl _) (by simp [Connection.handle])
  | readCallback_ =>
      rcases s.state.tcp.carries_handleRead result retrieved with carries | isClosed
      · exact graceful.carry_react free carries (by simp [Connection.handle])
      · exact closed isClosed
  | writeCallback_ =>
      have moved : TcpConnection.DrainMove s.state.tcp
        (s.state.tcp.handleWrite outcome : _ × Option (Functor (Message ι α))) :=
          s.state.tcp.drainMove outcome
      exact graceful.carry_react free (.of_drainMove moved) (ne_shutdown_of_notice moved.notice)

theorem react (graceful : Graceful s) {who : Option ι} {event : Event α}
    (free : s.outbox who = none)
    {reaction : Connection ι α × Option (Functor (Message ι α))}
    (reacts : Reacts data s.state who event reaction) :
    Graceful ⟨reaction.1, s.queue, Function.update s.outbox who reaction.2⟩ := by
  cases reacts with
  | perform request outcome passes => exact graceful.perform free request outcome
  | proceed t request passed => exact graceful.proceed free request
  | connectEstablished => exact graceful.connectEstablished
  | @handle result retrieved outcome handler due first =>
      have left : Graceful (⟨{ s.state with due := due }, s.queue, s.outbox⟩ : Mailbox ι _ _) :=
        graceful.carry (.refl _) id id fun _ => id
      exact left.handle free result retrieved outcome handler
  | _ => exact graceful.carry_react free (.of_same id rfl rfl rfl rfl) (by simp)

theorem call (graceful : Graceful s) (data : α → Bytes) (free : s.outbox none = none)
    {functor : Functor (Message ι α)} {rest : List (Functor (Message ι α))}
    (first : s.queue = functor :: rest) (outcome : WriteResult) :
    Graceful ⟨(s.state.call data outcome functor).1, rest,
      Function.update s.outbox none (s.state.call data outcome functor).2⟩ := by
  cases functor with
  | sendInLoop message =>
      have moved : TcpConnection.SendMove s.state.tcp (data message.content)
        (s.state.tcp.sendInLoop (data message.content) outcome :
          TcpConnection.Sent (Message ι α)) := s.state.tcp.sendMove _ outcome
      exact graceful.carry_call free first (.of_sendMove moved)
        (ne_shutdown_of_notice moved.notice) (by simp) (by simp)
  | shutdownInLoop =>
      have before (isOpen : s.state.tcp.shutdownInLoop.Open) :
          s.state.tcp.Tidy ∧ s.state.tcp.state_ = .kDisconnecting := by
        have wasOpen := TcpConnection.open_of_shutdownInLoop isOpen
        exact ⟨graceful.tidy wasOpen,
          graceful.asked wasOpen (.inl (first ▸ List.mem_cons_self))⟩
      refine ⟨fun isOpen => ((before isOpen).1.shutdownInLoop (before isOpen).2).1,
        fun isOpen _ => ?_, fun isOpen _ =>
          .inl ((before isOpen).1.shutdownInLoop (before isOpen).2).2⟩
      exact s.state.tcp.state_shutdownInLoop.trans (before isOpen).2
  | forceCloseInLoop =>
      rcases s.state.tcp.carries_forceCloseInLoop with ⟨same, stays⟩ | isClosed
      · have carries : s.state.tcp.Carries s.state.tcp.forceCloseInLoop := by
          rw [same]
          exact .refl _
        exact graceful.carry_call free first carries (by simp [Connection.call]) (by simp)
          fun leaving => absurd leaving stays
      · exact closed isClosed
  | startReadInLoop =>
      exact graceful.carry_call free first s.state.tcp.carries_startReadInLoop
        (by simp [Connection.call]) (by simp) (by simp)
  | stopReadInLoop =>
      exact graceful.carry_call free first s.state.tcp.carries_stopReadInLoop
        (by simp [Connection.call]) (by simp) (by simp)
  | connectDestroyed =>
      rcases s.state.tcp.carries_connectDestroyed with carries | isClosed
      · exact graceful.carry_call free first carries (by simp [Connection.call]) (by simp)
          (by simp)
      · exact closed isClosed
  | writeCompleteCallback =>
      exact graceful.carry_call free first (s.state.tcp.carries_callBack _)
        (by simp [Connection.call]) (by simp) (by simp)
  | highWaterMarkCallback len =>
      exact graceful.carry_call free first (s.state.tcp.carries_callBack _)
        (by simp [Connection.call]) (by simp) (by simp)

theorem move {action : Mailbox.Action ι (Event α)} (graceful : Graceful s)
    (moved : Mailbox.Move (actor data) s action s') : Graceful s' := by
  cases moved with
  | react free reacted => exact graceful.react free (reacts_of_react reacted)
  | post ready =>
      exact graceful.carry (.refl _) (OnItsWay.post ready).mp (OnItsWay.post ready).mpr
        fun _ => (OnItsWay.post ready).mpr
  | call free first called =>
      obtain ⟨outcome, -, -, same⟩ := calls_of_call called
      have ran := graceful.call data free first outcome
      rwa [same] at ran

theorem of_queues (queues : Queues data s) : Graceful s :=
  Reachable.invariant queues Graceful.initial fun _ _ _ graceful _ stepped =>
    graceful.move (Mailbox.move_of_step stepped)

end

end Graceful

section

variable [DecidableEq ι]

/-- **Shutting down is graceful and never forgotten.**  Take a connection that is
open. If its socket is closed for writing, the output buffer is empty and the
socket has been given all messages kept. If it is disconnecting, the socket is
closed for writing, or there is output to be written, or a functor that shuts it
down or closes it is on its way. And a write that takes the rest of the output of
such a connection closes the socket for writing, behind the last message. -/
theorem shutdown_is_graceful {s : EventLoop ι (Connection ι α) (Functor (Message ι α))}
    (runs : Runs data s) (isOpen : s.program.tcp.Open) :
    (s.program.tcp.socket_.writeShutdown = true →
      s.program.tcp.outputBuffer_ = [] ∧ s.program.tcp.socket_.written =
        (s.program.kept.map fun message => data message.content).flatten) ∧
    (s.program.tcp.state_ = .kDisconnecting →
      s.program.tcp.socket_.writeShutdown = true ∨
        (s.program.tcp.channel_.writing = true ∧ s.program.tcp.outputBuffer_ ≠ []) ∨
        OnItsWay s.mailbox .shutdownInLoop ∨ OnItsWay s.mailbox .forceCloseInLoop) ∧
    (s.program.tcp.state_ = .kDisconnecting → s.program.tcp.channel_.writing = true →
      (s.program.tcp.handleWrite (.wrote s.program.tcp.outputBuffer_.length) :
          _ × Option (Functor (Message ι α))).1.socket_ =
        { written := (s.program.kept.map fun message => data message.content).flatten
          writeShutdown := true }) := by
  have graceful := Graceful.of_queues runs.queues
  have tidy : s.program.tcp.Tidy := graceful.tidy isOpen
  have stream : s.program.tcp.stream =
      (s.program.kept.map fun message => data message.content).flatten :=
    (Whole.of_queues runs.queues).stream
  refine ⟨fun shut => ?_, fun leaving => ?_, fun leaving writing => ?_⟩
  · have none := (tidy.shut shut).2
    rw [TcpConnection.stream, none, List.append_nil] at stream
    exact ⟨none, stream⟩
  · rcases graceful.leaving isOpen leaving with (shut | writing) | way
    · exact .inl shut
    · exact .inr (.inl ⟨writing, tidy.watched.mp writing⟩)
    · exact .inr (.inr way)
  · rw [← stream]
    exact tidy.handleWrite_all writing leaving

end

/-- The program sends three bytes, of which the kernel takes two, and shuts down;
then the rest is written. -/
def shutdownRun : List (EventLoop.Action Unit (Event Bytes)) :=
  [.own .enter, .own .testQuit, .own (.poll true), .react none .connectEstablished,
    .react none (.request (.send [1, 2, 3]) (.wrote 2)),
    .react none (.request .shutdown (.wrote 0)), .own .startFunctors, .own .swap,
    .own .finishFunctors, .own .testQuit, .own (.poll true),
    .react none (.poll ⟨false, false, false, false, false, false, true⟩),
    .react none (.handle (.failed .other) 0 (.wrote 1))]

theorem shutdown_is_graceful_run :
    ∃ s, execute (EventLoop.step (actor id)) shutdownRun
        (.initial Unit _ (Connection.initial Unit Bytes)) = some s ∧
      s.program.tcp.Open ∧ s.program.tcp.socket_.writeShutdown = true ∧
      s.program.tcp.socket_.written =
        (s.program.kept.map fun message => id message.content).flatten := by
  have outcome : (execute (EventLoop.step (actor id)) shutdownRun
      (.initial Unit _ (Connection.initial Unit Bytes))).map (fun s =>
        (s.program.tcp.asserted, s.program.tcp.callbacks,
          s.program.tcp.socket_.writeShutdown)) =
      some (true, [.connectionCallback_ true], true) := by decide
  obtain ⟨s, executed, reachable, same⟩ :=
    Reachable.exists_of_execute (fun _ _ => True) outcome (by decide)
  obtain ⟨asserted, callbacks, shut⟩ : s.program.tcp.asserted = true ∧
      s.program.tcp.callbacks = [.connectionCallback_ true] ∧
      s.program.tcp.socket_.writeShutdown = true := by
    simpa using same
  have isOpen : s.program.tcp.Open := ⟨asserted, by rw [callbacks]; simp⟩
  exact ⟨s, executed, isOpen, shut, ((shutdown_is_graceful reachable isOpen).1 shut).2⟩

/-- Another thread sends two messages and shuts down. The first message leaves
one byte in the output buffer. It is written while the second message is still
queued; the connection is already disconnecting, so this closes the socket. -/
def overtakingRun : List (EventLoop.Action Unit (Event Bytes)) :=
  [.own .enter, .own .testQuit, .own (.poll true), .react none .connectEstablished,
    .react (some ()) (.request (.send [1, 2]) (.wrote 0)), .react (some ()) .proceed,
    .pushBack (some ()), .testThread (some ()), .wakeup (some ()),
    .own .startFunctors, .own .swap, .own (.callFunctor (.run (.wrote 1))),
    .own .finishFunctors, .own .testQuit, .own (.poll true), .own .handleRead,
    .react (some ()) (.request (.send [3]) (.wrote 0)), .react (some ()) .proceed,
    .pushBack (some ()), .testThread (some ()), .wakeup (some ()),
    .react (some ()) (.request .shutdown (.wrote 0)), .react (some ()) .proceed,
    .pushBack (some ()), .testThread (some ()), .wakeup (some ()),
    .react none (.poll ⟨false, false, false, false, false, false, true⟩),
    .react none (.handle (.failed .other) 0 (.wrote 1)),
    .own .startFunctors, .own .swap, .own (.callFunctor (.run (.wrote 1)))]

/-- **A shutdown may overtake a send of the same thread.**  The second message
was sent before the shutdown and reaches `sendInLoop`, but the socket is closed
for writing by then. -/
theorem shutdown_overtakes_send :
    ∃ s, Runs id s ∧ s.program.tcp.Open ∧
      s.program.sent = [⟨some (), [1, 2]⟩, ⟨some (), [3]⟩] ∧
      s.program.executed = s.program.sent ∧ s.program.kept = [⟨some (), [1, 2]⟩] ∧
      s.program.tcp.socket_ = { written := [1, 2], writeShutdown := true } := by
  have tcp : (execute (EventLoop.step (actor id)) overtakingRun
      (.initial Unit _ (Connection.initial Unit Bytes))).map (fun s =>
        (s.program.tcp.asserted, s.program.tcp.callbacks, s.program.tcp.socket_)) =
      some (true, [.connectionCallback_ true], { written := [1, 2], writeShutdown := true }) := by
    decide
  have messages : (execute (EventLoop.step (actor id)) overtakingRun
      (.initial Unit _ (Connection.initial Unit Bytes))).map (fun s =>
        (s.program.sent, s.program.executed, s.program.kept)) =
      some ([⟨some (), [1, 2]⟩, ⟨some (), [3]⟩], [⟨some (), [1, 2]⟩, ⟨some (), [3]⟩],
        [⟨some (), [1, 2]⟩]) := by decide
  obtain ⟨s, ran, reachable, same⟩ := Reachable.exists_of_execute (fun _ _ => True) tcp (by decide)
  rw [ran, Option.map_some, Option.some.injEq] at messages
  simp only [Prod.mk.injEq] at same messages
  obtain ⟨asserted, callbacks, socket⟩ := same
  obtain ⟨sent, executed, kept⟩ := messages
  refine ⟨s, reachable, ⟨asserted, by rw [callbacks]; simp⟩, sent, ?_, kept, socket⟩
  rw [executed, sent]

end Connection

end AirNet.Muduo
