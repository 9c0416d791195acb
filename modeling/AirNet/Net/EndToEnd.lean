import AirNet.Muduo.Stream
import AirNet.Net.CodecRoundTrip

/-!
# From the threads that send to the messages received

Any number of threads send messages with `SendMsg` over one connection. Each
call encodes its message into a buffer of its own and hands the bytes to the
connection, which writes, buffers and queues them. The peer receives the bytes
that the socket has taken, cut anywhere, and calls `ParseMessages` after each
piece.

What the peer has at any time are the messages whose frames have arrived, in the
order in which the connection kept them, and those of one thread in the order in
which the thread sent them (`sent_messages_arrive`). No call reports an error.
When the output buffer is empty and all bytes have arrived, every message kept
has arrived. The codec and the connection meet only in the bytes of a frame: the
proof combines what `sendInLoop` does to the stream with what the decoder does on
streams of frames.
-/

set_option autoImplicit false

namespace AirNet.Net

open AirNet.Cpp AirNet.Lib AirNet.Muduo

namespace CodecEnv

variable (E : CodecEnv)

/-! ## Parts of a stream of frames -/

variable {γ : Type}

theorem Receiver.UpTo.initial (conn : γ) :
    Receiver.UpTo E [] (⟨conn, Buffer.fresh, []⟩ : E.Receiver γ) := by
  have drained : E.framing.drain [] = _ := Framing.drain_of_wait E.next_nil
  exact ⟨Buffer.fresh_valid _, by rw [drained, Buffer.content_fresh], by rw [drained], le_refl _⟩

/-- Chunks that make up a first part of a stream of frames are received without
an error. -/
theorem receive_chunks (readsArgument : E.protobuf.ReadsArgument)
    {messages : List E.protobuf.Message}
    (transmissible : ∀ message ∈ messages, E.Transmissible message) {chunks : List Bytes}
    (arrived : chunks.flatten <+: (messages.map E.wire).flatten)
    (fits : E.platform.fits (chunks.flatten.length + 2 * kCheapPrepend) = true)
    (errorCallback : γ → Buffer → ErrorCode → γ × Buffer) (conn : γ) :
    ∃ recorded, runTrace (Receiver.step E errorCallback) chunks ⟨conn, Buffer.fresh, []⟩ =
        .ok recorded ∧
      (∀ entry ∈ recorded, entry.2 = (0, [])) ∧
      Receiver.UpTo E chunks.flatten (lastState ⟨conn, Buffer.fresh, []⟩ recorded) := by
  have follows : ∀ done chunk receiver, done ++ [chunk] <+: chunks →
      Receiver.UpTo E done.flatten receiver →
      ∃ entry, Receiver.step E errorCallback chunk receiver = .ok entry ∧
        Receiver.UpTo E (done ++ [chunk]).flatten entry.1 ∧ entry.2 = (0, []) := by
    intro done chunk receiver isPrefix upTo
    have received := isPrefix.flatten
    rw [List.flatten_append, List.flatten_singleton] at received ⊢
    exact upTo.step E readsArgument transmissible errorCallback (received.trans arrived)
      (E.platform.fits_mono (Nat.add_le_add_right received.length_le _) fits)
  obtain ⟨recorded, run, -, history, last⟩ := runTrace_history
    (fun done receiver => Receiver.UpTo E done.flatten receiver) (fun _ out => out = (0, []))
    follows [] chunks rfl (Receiver.UpTo.initial E conn)
  refine ⟨recorded, run, fun entry member => ?_, last⟩
  obtain ⟨i, found⟩ := List.mem_iff_getElem?.mp member
  exact (history i entry found).2

/-! ## The connection in between -/

/-- What is sent with `SendMsg` is the frame of the message. -/
theorem data_eq_wire {data : E.protobuf.Message → Bytes} {message : E.protobuf.Message}
    (transmissible : E.Transmissible message) (sends : E.sendMsg message = .ok (data message)) :
    data message = E.wire message := by
  have bound := transmissible.length_wire.2
  have sent := transmissible.sendMsg_eq
    (E.platform.fits_mono (by rw [kCheapPrepend]; omega) E.platform.fits_least)
  rw [sends] at sent
  exact Except.ok.inj sent

variable {ι : Type} [DecidableEq ι]

/-- **Sent messages arrive, in the order of each sender.**  Threads send messages
with `SendMsg` over a connection, and some of the bytes that its socket has taken
arrive at the peer in chunks. Every call of `ParseMessages` returns 0 and reports
no error. The messages received are the first of those the connection kept, as
many as have arrived completely, and the messages of each thread among them are
in the order in which it sent them. When all bytes have arrived and none is left
in the output buffer, all messages kept were received and no byte is left. -/
theorem sent_messages_arrive (readsArgument : E.protobuf.ReadsArgument)
    {data : E.protobuf.Message → Bytes}
    {s : Muduo.EventLoop ι (Connection ι E.protobuf.Message)
      (Functor (Message ι E.protobuf.Message))}
    (runs : Connection.Runs data s)
    (transmissible : ∀ message ∈ s.program.sent, E.Transmissible message.content)
    (sends : ∀ message ∈ s.program.sent,
      E.sendMsg message.content = .ok (data message.content))
    {chunks : List Bytes} (arrived : chunks.flatten <+: s.program.tcp.socket_.written)
    (fits : E.platform.fits (chunks.flatten.length + 2 * kCheapPrepend) = true)
    (errorCallback : γ → Buffer → ErrorCode → γ × Buffer) (conn : γ) :
    ∃ recorded k, runTrace (Receiver.step E errorCallback) chunks ⟨conn, Buffer.fresh, []⟩ =
        .ok recorded ∧
      (∀ entry ∈ recorded, entry.2 = (0, [])) ∧
      (lastState ⟨conn, Buffer.fresh, []⟩ recorded).vecMessagePtr =
        (s.program.kept.take k).map Message.content ∧
      Framing.Complete (s.program.kept.map fun message => data message.content)
        chunks.flatten.length k ∧
      (∀ who, ((s.program.kept.take k).filter fun message => message.sender = who).Sublist
        (s.program.sent.filter fun message => message.sender = who)) ∧
      (chunks.flatten = s.program.tcp.socket_.written → s.program.tcp.outputBuffer_ = [] →
        k = s.program.kept.length ∧ (lastState ⟨conn, Buffer.fresh, []⟩ recorded).buf.readableBytes
          E.platform = 0) := by
  have whole := Connection.Whole.of_queues runs.queues
  have stream : s.program.tcp.socket_.written ++ s.program.tcp.outputBuffer_ =
      (s.program.kept.map fun message => data message.content).flatten := whole.stream
  have wasSent : ∀ message ∈ s.program.kept, message ∈ s.program.sent := fun message member =>
    Connection.mem_sent_of_executed runs (whole.kept.subset member)
  have frames : (s.program.kept.map fun message => data message.content) =
      (s.program.kept.map Message.content).map E.wire := by
    rw [List.map_map]
    refine List.map_congr_left fun message member => ?_
    have sent := wasSent message member
    exact E.data_eq_wire (transmissible message sent) (sends message sent)
  have each : ∀ message ∈ s.program.kept.map Message.content, E.Transmissible message := by
    intro message member
    obtain ⟨kept, isKept, rfl⟩ := List.mem_map.mp member
    exact transmissible kept (wasSent kept isKept)
  have isPrefix : chunks.flatten <+: ((s.program.kept.map Message.content).map E.wire).flatten := by
    rw [← frames, ← stream]
    exact arrived.trans (List.prefix_append _ _)
  obtain ⟨recorded, run, quiet, upTo⟩ :=
    E.receive_chunks readsArgument each isPrefix fits errorCallback conn
  obtain ⟨k, complete, drained⟩ := E.drain_frames readsArgument each isPrefix
  refine ⟨recorded, k, run, quiet, ?_, ?_, fun who => ?_, fun all none => ?_⟩
  · rw [upTo.vecMessagePtr, drained, List.map_take]
  · rw [frames]
    exact complete
  · have order := (Connection.executed_prefix_sent runs who).sublist
    exact (((List.take_sublist k _).trans whole.kept).filter _).trans order
  · have length : chunks.flatten.length =
        ((s.program.kept.map Message.content).map E.wire).flatten.length := by
      rw [← frames, ← stream, none, List.append_nil, all]
    rw [length] at complete
    obtain rfl := complete.all
    refine ⟨by rw [List.length_map, List.length_map], ?_⟩
    rw [← upTo.valid.length_content, upTo.content, drained, List.take_length, ← length,
      List.drop_length]
    rfl

instance : DecidableEq flagEnv.protobuf.Message := inferInstanceAs (DecidableEq (Option Bool))

/-- Another thread finds the connection up. Before it goes on the loop sends a `Flag`
of its own, of which the kernel takes five bytes; the rest and the other `Flag` are
buffered and written later. -/
def flagRun : List (Muduo.EventLoop.Action Unit (Connection.Event flagEnv.protobuf.Message)) :=
  [.own .enter, .own .testQuit, .own (.poll true), .react none .connectEstablished,
    .react (some ()) (.request (.send (some true)) (.wrote 0)),
    .react none (.request (.send (some false)) (.wrote 5)),
    .react (some ()) .proceed, .pushBack (some ()), .testThread (some ()), .wakeup (some ()),
    .own .startFunctors, .own .swap, .own (.callFunctor (.run (.wrote 0))),
    .own .finishFunctors, .own .testQuit, .own (.poll true), .own .handleRead,
    .react none (.poll ⟨false, false, false, false, false, false, true⟩),
    .react none (.handle (.read []) 0 (.wrote 100))]

/-- What the connection comes to. -/
def flagState : Option (Muduo.EventLoop Unit (Connection Unit flagEnv.protobuf.Message)
    (Functor (Message Unit flagEnv.protobuf.Message))) :=
  execute (Muduo.EventLoop.step (Connection.actor flagEnv.wire)) flagRun
    (.initial Unit _ (Connection.initial Unit flagEnv.protobuf.Message))

/-- The other thread sends first and arrives second. -/
theorem flagState_messages : flagState.map (fun s => (s.program.sent, s.program.kept)) =
    some ([⟨some (), some true⟩, ⟨none, some false⟩],
      [⟨none, some false⟩, ⟨some (), some true⟩]) := by decide +kernel

/-- The bytes of both arrive in two parts. -/
theorem sent_messages_arrive_flag :
    ∃ s, flagState = some s ∧
      s.program.tcp.socket_.written.length = 38 ∧ s.program.tcp.outputBuffer_ = [] ∧
      s.program.sent = [⟨some (), some true⟩, ⟨none, some false⟩] ∧
      ∃ recorded, runTrace (Receiver.step flagEnv defaultErrorCallback)
          [s.program.tcp.socket_.written.take 7, s.program.tcp.socket_.written.drop 7]
          ⟨some .kConnected, Buffer.fresh, []⟩ = .ok recorded ∧
        (lastState ⟨some .kConnected, Buffer.fresh, []⟩ recorded).vecMessagePtr =
          [some false, some true] := by
  have outcome : flagState.map (fun s =>
      (s.program.tcp.socket_.written.length, s.program.tcp.outputBuffer_)) = some (38, []) := by
    decide +kernel
  obtain ⟨s, executed, reachable, same⟩ :=
    Reachable.exists_of_execute (fun _ _ => True) outcome (by simp [flagRun, Guarded])
  obtain ⟨length, output⟩ := Prod.mk.inj same
  have isState : flagState = some s := executed
  have messages := flagState_messages
  rw [isState] at messages
  obtain ⟨sent, kept⟩ := Prod.mk.inj (Option.some.inj messages)
  have joined : [s.program.tcp.socket_.written.take 7,
      s.program.tcp.socket_.written.drop 7].flatten = s.program.tcp.socket_.written := by
    simp
  have sends (message : flagEnv.protobuf.Message) :
      flagEnv.sendMsg message = .ok (flagEnv.wire message) :=
    (flag_transmissible message).sendMsg_eq (by rcases message with _ | _ | _ <;> decide)
  obtain ⟨recorded, k, run, -, received, -, -, all⟩ := flagEnv.sent_messages_arrive
    flagProtobuf_readsArgument reachable (fun message _ => flag_transmissible message.content)
    (fun message _ => sends message.content) (by rw [joined])
    (by rw [joined, length]; decide) defaultErrorCallback (some .kConnected)
  refine ⟨s, isState, length, output, sent, recorded, run, ?_⟩
  rw [received, (all joined output).1, List.take_length, kept]
  rfl

end CodecEnv

end AirNet.Net
