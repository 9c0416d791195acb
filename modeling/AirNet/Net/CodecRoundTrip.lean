import AirNet.Net.CodecStream

/-!
# What is sent is received

The frames of messages, written by the encoder and cut into chunks anywhere,
are received as the same messages in the same order.

The decoder recognises every frame of the encoder and waits on each of its
proper prefixes (`isFrame_wire`). On a stream of such frames the bytes behind a
frame do not matter, because `ParseFromArray` is only asked for the data of the
frame (`localOn_frames`); so no assumption is made about sizes the encoder
never produces. The rest is the rule for streams of frames.
-/

set_option autoImplicit false

namespace AirNet.Net

open AirNet.Cpp AirNet.Lib

namespace CodecEnv

variable (E : CodecEnv)

/-! ## The frame of a message -/

/-- A message of a registered type that the library serializes and parses back,
whose frame is not longer than the decoder allows. -/
structure Transmissible (message : E.protobuf.Message) : Prop where
  named : E.protobuf.getTypeName message ≠ []
  short : ((E.protobuf.getTypeName message).length +
    (E.protobuf.serializeWithCachedSizesToArray message).length + 9 : Int) ≤ kMaxMessageLen
  size : E.protobuf.byteSize message =
    (E.protobuf.serializeWithCachedSizesToArray message).length
  registered : ∃ prototype,
    E.protobuf.createMessage (E.protobuf.getTypeName message) = some prototype ∧
    E.protobuf.parseFromArray prototype (E.protobuf.serializeWithCachedSizesToArray message)
      (E.protobuf.serializeWithCachedSizesToArray message).length = .ok (some message)

/-- The frame of a message. -/
def wire (message : E.protobuf.Message) : Bytes :=
  E.frame (E.protobuf.getTypeName message)
    (E.protobuf.serializeWithCachedSizesToArray message)

namespace Transmissible

variable {E} {message : E.protobuf.Message}

theorem bound (transmissible : E.Transmissible message) :
    (E.protobuf.getTypeName message).length +
      (E.protobuf.serializeWithCachedSizesToArray message).length + 9 ≤ 64 * 1024 * 1024 := by
  have short := transmissible.short
  rw [kMaxMessageLen] at short
  omega

theorem serializable (transmissible : E.Transmissible message) : E.Serializable message := by
  obtain ⟨prototype, -, parsed⟩ := transmissible.registered
  refine ⟨E.protobuf.parse_isInitialized parsed, transmissible.size, ?_⟩
  have bound := transmissible.bound
  omega

/-- **`SendMsg` sends the frame.** -/
theorem sendMsg_eq (transmissible : E.Transmissible message)
    (fits : E.platform.fits ((E.wire message).length + 2 * kCheapPrepend) = true) :
    E.sendMsg message = .ok (E.wire message) := by
  rw [wire, length_frame] at fits
  obtain ⟨buf, filled, -, content, -⟩ := E.fillEmptyBuffer_spec rfl rfl
    transmissible.serializable (Buffer.fresh_valid E.platform)
    (by rw [← (Buffer.fresh_valid E.platform).length_content, Buffer.content_fresh]; rfl)
    (E.platform.fits_mono (by omega) fits)
  simp only [sendMsg, Buffer.construct_eq, filled, ok_bind, content]
  rfl

/-! ## The decoder on a frame -/

theorem frontInt_wire (transmissible : E.Transmissible message) :
    frontInt 4 (E.wire message) = (E.wire message).length - 4 := by
  have bound := transmissible.bound
  rw [wire, length_frame, frame, frontInt_beBytes_append, toInt_ofNat_of_lt (by omega)]
  omega

theorem length_wire (transmissible : E.Transmissible message) :
    14 ≤ (E.wire message).length ∧ (E.wire message).length ≤ 64 * 1024 * 1024 + 4 := by
  have bound := transmissible.bound
  have positive := List.length_pos_iff.mpr transmissible.named
  rw [wire, length_frame]
  omega

/-- A stream that shares its first four bytes with the frame announces the
length of the frame. -/
theorem announced (transmissible : E.Transmissible message) {stream : Bytes}
    (same : frontInt 4 stream = frontInt 4 (E.wire message)) :
    LengthAllowed stream ∧ frameLen stream + 4 = (E.wire message).length := by
  obtain ⟨lower, upper⟩ := transmissible.length_wire
  rw [transmissible.frontInt_wire] at same
  constructor
  · simp only [LengthAllowed, not_or, not_lt, kMaxMessageLen, kMinMessageLen, kHeaderLen,
      kCheckSumLen]
    omega
  · rw [frameLen]
    omega

/-- The message is found in the frame, whatever is behind it. -/
theorem decode_wire (transmissible : E.Transmissible message)
    (readsArgument : E.protobuf.ReadsArgument) (rest : Bytes) :
    E.decode ((E.wire message).drop 4 ++ rest) ((E.wire message).length - 4) = .ok message := by
  have bound := transmissible.bound
  obtain ⟨prototype, created, parsed⟩ := transmissible.registered
  rw [wire, length_frame, frame, List.drop_left' (length_beBytes 4 _)]
  rw [show ∀ n : Nat, n + 13 - 4 = n + 9 from fun n => rfl]
  rw [E.decode_body 0 rest transmissible.named (by omega), parseNamed_eq_ok_iff]
  refine ⟨prototype, created, ?_⟩
  rw [readsArgument, List.take_left, parsed]

end Transmissible

/-- **The decoder recognises the frames of the encoder** and waits on their
proper prefixes. -/
theorem isFrame_wire (readsArgument : E.protobuf.ReadsArgument) {message : E.protobuf.Message}
    (transmissible : E.Transmissible message) :
    E.framing.IsFrame (E.wire message) message where
  complete := by
    obtain ⟨lower, -⟩ := transmissible.length_wire
    obtain ⟨allowed, whole⟩ := transmissible.announced rfl
    have decoded := transmissible.decode_wire readsArgument []
    rw [List.append_nil] at decoded
    have size : frameLen (E.wire message) = (E.wire message).length - 4 := by omega
    have all : ((E.wire message).drop 4).take (frameLen (E.wire message)) =
        (E.wire message).drop 4 :=
      List.take_of_length_le (by rw [List.length_drop]; omega)
    show E.next (E.wire message) = _
    rw [next, if_neg (by omega), if_neg (not_not_intro allowed), if_neg (by omega), all, size,
      decoded, Nat.sub_add_cancel (by omega)]
  incomplete := by
    rintro start ⟨more, cut⟩ short
    show E.next start = _
    by_cases few : start.length < 14
    · exact if_pos few
    · have same : frontInt 4 start = frontInt 4 (E.wire message) := by
        rw [← cut, frontInt_append more (by omega)]
      obtain ⟨allowed, whole⟩ := transmissible.announced same
      rw [next, if_neg few, if_neg (not_not_intro allowed), if_pos (by omega)]

/-! ## Streams of frames -/

/-- A part of the stream that starts with a frame. -/
def StartsAtFrame (messages : List E.protobuf.Message) (stream : Bytes) : Prop :=
  ∃ k, stream <+: ((messages.drop k).map E.wire).flatten

/-- When the length at the front of such a part has arrived, it belongs to a
frame of the stream. -/
theorem StartsAtFrame.front {messages : List E.protobuf.Message}
    (transmissible : ∀ message ∈ messages, E.Transmissible message) {stream : Bytes} {k : Nat}
    (isPrefix : stream <+: ((messages.drop k).map E.wire).flatten)
    (whole : frameLen stream + 4 ≤ stream.length) (allowed : LengthAllowed stream) :
    ∃ message ∈ messages, ∃ rest, stream = E.wire message ++ rest ∧
      frameLen stream + 4 = (E.wire message).length ∧
      rest <+: ((messages.drop (k + 1)).map E.wire).flatten := by
  have lower := allowed.bounds.2.1
  cases remaining : messages.drop k with
  | nil =>
      rw [remaining] at isPrefix
      have empty := List.prefix_nil.mp isPrefix
      rw [empty, List.length_nil] at whole
      omega
  | cons message later =>
      have member : message ∈ messages :=
        List.mem_of_mem_drop (remaining ▸ List.mem_cons_self)
      have next : messages.drop (k + 1) = later := by
        rw [← List.drop_drop, remaining]
        rfl
      rw [remaining, List.map_cons, List.flatten_cons] at isPrefix
      have long := (transmissible message member).length_wire.1
      have same : frontInt 4 stream = frontInt 4 (E.wire message) := by
        obtain ⟨more, cut⟩ := isPrefix
        rw [← frontInt_append more (by omega), cut, frontInt_append _ (by omega)]
      obtain ⟨-, size⟩ := (transmissible message member).announced same
      obtain ⟨rest, rfl⟩ : E.wire message <+: stream :=
        List.prefix_of_prefix_length_le (List.prefix_append _ _) isPrefix (by omega)
      refine ⟨message, member, rest, rfl, size, ?_⟩
      rw [next]
      rwa [List.prefix_append_right_inj] at isPrefix

/-- On a stream of frames the bytes behind a frame do not matter. -/
theorem localOn_frames (readsArgument : E.protobuf.ReadsArgument)
    {messages : List E.protobuf.Message}
    (transmissible : ∀ message ∈ messages, E.Transmissible message) :
    E.LocalOn (E.StartsAtFrame messages) where
  decode := by
    rintro stream mem ⟨k, isPrefix⟩ ⟨behind, rfl⟩ allowed whole
    obtain ⟨message, member, rest, rfl, size, -⟩ :=
      StartsAtFrame.front E transmissible isPrefix whole allowed
    have long := (transmissible message member).length_wire.1
    have decoded := (transmissible message member).decode_wire readsArgument
    have isLen : frameLen (E.wire message ++ rest) = (E.wire message).length - 4 := by omega
    rw [isLen, List.append_assoc, List.drop_append_of_le_length (by omega), decoded,
      List.drop_append_of_le_length (by omega), List.take_left' (by rw [List.length_drop]),
      ← List.append_nil ((E.wire message).drop 4), decoded]
  deliver := by
    rintro stream message size ⟨k, isPrefix⟩ verdict
    obtain ⟨allowed, isSize, whole, -⟩ := E.next_eq_deliver verdict
    obtain ⟨_, -, rest, rfl, length, later⟩ :=
      StartsAtFrame.front E transmissible isPrefix (by omega) allowed
    refine ⟨k + 1, ?_⟩
    rwa [isSize, length, List.drop_left]

theorem forall₂_isFrame (readsArgument : E.protobuf.ReadsArgument)
    {messages : List E.protobuf.Message}
    (transmissible : ∀ message ∈ messages, E.Transmissible message) :
    List.Forall₂ E.framing.IsFrame (messages.map E.wire) messages := by
  rw [List.forall₂_map_left_iff, List.forall₂_same]
  exact fun message member => E.isFrame_wire readsArgument (transmissible message member)

/-- Draining a prefix of the stream delivers the messages whose frames lie in
it, and leaves a part that starts with a frame. -/
theorem drain_frames (readsArgument : E.protobuf.ReadsArgument)
    {messages : List E.protobuf.Message}
    (transmissible : ∀ message ∈ messages, E.Transmissible message) {received : Bytes}
    (isPrefix : received <+: (messages.map E.wire).flatten) :
    ∃ k, Framing.Complete (messages.map E.wire) received.length k ∧
      E.framing.drain received = ⟨messages.take k, none,
        received.drop ((messages.map E.wire).take k).flatten.length⟩ :=
  E.framing.drain_prefix E.next_nil (E.forall₂_isFrame readsArgument transmissible) isPrefix

/-! ## The receiving side -/

variable {γ : Type}

/-- The receiving side between two chunks. -/
structure Receiver (γ : Type) where
  conn : γ
  buf : Buffer
  vecMessagePtr : List E.protobuf.Message

/-- A chunk arrives; the output is the result of the call and the codes
reported. -/
def Receiver.step (errorCallback : γ → Buffer → ErrorCode → γ × Buffer) (chunk : Bytes)
    (receiver : E.Receiver γ) : Except Fault (E.Receiver γ × Int × List ErrorCode) := do
  let result ← E.receive errorCallback chunk receiver.conn receiver.buf receiver.vecMessagePtr
  pure (⟨result.conn, result.buf, result.vecMessagePtr⟩, result.ret, result.errors)

/-- The receiving side has processed the bytes received. -/
structure Receiver.UpTo (received : Bytes) (receiver : E.Receiver γ) : Prop where
  valid : receiver.buf.Valid E.platform
  content : receiver.buf.content = (E.framing.drain received).rest
  vecMessagePtr : receiver.vecMessagePtr = (E.framing.drain received).delivered
  writer_le : receiver.buf.writerIndex_ ≤ kCheapPrepend + received.length

/-- One chunk more of the stream. -/
theorem Receiver.UpTo.step (readsArgument : E.protobuf.ReadsArgument)
    {messages : List E.protobuf.Message}
    (transmissible : ∀ message ∈ messages, E.Transmissible message)
    (errorCallback : γ → Buffer → ErrorCode → γ × Buffer) {received chunk : Bytes}
    {receiver : E.Receiver γ} (upTo : Receiver.UpTo E received receiver)
    (isPrefix : received ++ chunk <+: (messages.map E.wire).flatten)
    (fits : E.platform.fits ((received ++ chunk).length + 2 * kCheapPrepend) = true) :
    ∃ entry, Receiver.step E errorCallback chunk receiver = .ok entry ∧
      Receiver.UpTo E (received ++ chunk) entry.1 ∧ entry.2 = (0, []) := by
  have writer := upTo.writer_le
  rw [List.length_append] at fits
  obtain ⟨k, complete, before⟩ := E.drain_frames readsArgument transmissible
    ((List.prefix_append received chunk).trans isPrefix)
  obtain ⟨_, -, after⟩ := E.drain_frames readsArgument transmissible isPrefix
  have joined := E.framing.drain_append received chunk
  rw [← upTo.content, ← upTo.vecMessagePtr] at joined
  -- what is pending begins behind the frames delivered so far
  have starts : E.StartsAtFrame messages (receiver.buf.content ++ chunk) := by
    refine ⟨k, ?_⟩
    rw [upTo.content, before, ← List.drop_append_of_le_length complete.arrived]
    have cut : (messages.map E.wire).flatten = ((messages.map E.wire).take k).flatten ++
        ((messages.map E.wire).drop k).flatten := by
      rw [← List.flatten_append, List.take_append_drop]
    have behind := isPrefix.drop ((messages.map E.wire).take k).flatten.length
    rwa [cut, List.drop_left, ← List.map_drop] at behind
  obtain ⟨buf', done, returns⟩ := E.receive_spec (E.localOn_frames readsArgument transmissible)
    errorCallback chunk receiver.conn receiver.vecMessagePtr upTo.valid
    (E.platform.fits_mono (by omega) fits) starts
  have quiet : (E.framing.drain (receiver.buf.content ++ chunk)).error = none := by
    have error := congrArg Outcome.error joined
    rw [after] at error
    exact error.symm
  rw [quiet] at returns
  refine ⟨_, by rw [Receiver.step, returns]; rfl, ⟨done.valid, ?_, ?_, ?_⟩, rfl⟩
  · rw [joined]
    exact done.content
  · rw [joined]
    rfl
  · rw [List.length_append]
    have bound : buf'.writerIndex_ ≤ _ := done.writer_le
    show buf'.writerIndex_ ≤ _
    omega

theorem mapM_sendMsg {messages : List E.protobuf.Message}
    (transmissible : ∀ message ∈ messages, E.Transmissible message)
    (fits : E.platform.fits ((messages.map E.wire).flatten.length + 2 * kCheapPrepend) = true) :
    messages.mapM E.sendMsg = .ok (messages.map E.wire) := by
  induction messages with
  | nil => rfl
  | cons message messages ih =>
      rw [List.map_cons, List.flatten_cons, List.length_append] at fits
      have sent := (transmissible message List.mem_cons_self).sendMsg_eq
        (E.platform.fits_mono (by omega) fits)
      have others := ih (fun other member => transmissible other (List.mem_cons_of_mem _ member))
        (E.platform.fits_mono (by omega) fits)
      rw [List.mapM_cons, sent, others]
      rfl

/-- **What is sent is received under every segmentation.**  The frames of the
messages are sent, and their concatenation arrives in chunks. Every call
returns 0 and reports no error, the vector holds the messages whose frames have
arrived, and in the end all messages, with no byte left. -/
theorem stream_round_trip (readsArgument : E.protobuf.ReadsArgument)
    {messages : List E.protobuf.Message}
    (transmissible : ∀ message ∈ messages, E.Transmissible message)
    (fits : E.platform.fits ((messages.map E.wire).flatten.length + 2 * kCheapPrepend) = true)
    (errorCallback : γ → Buffer → ErrorCode → γ × Buffer) (conn : γ) :
    ∃ frames, messages.mapM E.sendMsg = .ok frames ∧
      ∀ chunks : List Bytes, chunks.flatten = frames.flatten →
        ∃ recorded, runTrace (Receiver.step E errorCallback) chunks
            ⟨conn, Buffer.fresh, []⟩ = .ok recorded ∧
          recorded.length = chunks.length ∧
          (∀ i entry, recorded[i]? = some entry → entry.2 = (0, []) ∧
            ∃ k, entry.1.vecMessagePtr = messages.take k ∧
              Framing.Complete frames (chunks.take (i + 1)).flatten.length k) ∧
          (lastState ⟨conn, Buffer.fresh, []⟩ recorded).vecMessagePtr = messages ∧
          (lastState ⟨conn, Buffer.fresh, []⟩ recorded).buf.readableBytes E.platform = 0 := by
  refine ⟨_, E.mapM_sendMsg transmissible fits, ?_⟩
  intro chunks cut
  have start : Receiver.UpTo E [] (⟨conn, Buffer.fresh, []⟩ : E.Receiver γ) := by
    have drained : E.framing.drain [] = _ := Framing.drain_of_wait E.next_nil
    exact ⟨Buffer.fresh_valid _, by rw [drained, Buffer.content_fresh], by rw [drained],
      le_refl _⟩
  have follows : ∀ done chunk receiver, done ++ [chunk] <+: chunks →
      Receiver.UpTo E done.flatten receiver →
      ∃ entry, Receiver.step E errorCallback chunk receiver = .ok entry ∧
        Receiver.UpTo E (done ++ [chunk]).flatten entry.1 ∧ entry.2 = (0, []) := by
    intro done chunk receiver isPrefix upTo
    have received := isPrefix.flatten
    rw [cut] at received
    rw [List.flatten_append, List.flatten_singleton] at received ⊢
    exact upTo.step E readsArgument transmissible errorCallback received
      (E.platform.fits_mono (Nat.add_le_add_right received.length_le _) fits)
  obtain ⟨recorded, run, length, history, last⟩ := runTrace_history
    (fun done receiver => Receiver.UpTo E done.flatten receiver) (fun _ out => out = (0, []))
    follows [] chunks rfl start
  obtain ⟨n, complete, drained⟩ := E.drain_frames readsArgument transmissible
    (List.prefix_refl (messages.map E.wire).flatten)
  obtain rfl := complete.all
  rw [cut] at last
  refine ⟨recorded, run, length, ?_, ?_, ?_⟩
  · intro i entry found
    obtain ⟨upTo, quiet⟩ := history i entry found
    have received := (List.take_prefix (i + 1) chunks).flatten
    rw [cut] at received
    obtain ⟨k, complete, drained⟩ := E.drain_frames readsArgument transmissible received
    refine ⟨quiet, k, ?_, complete⟩
    rw [upTo.vecMessagePtr, List.nil_append, drained]
  · rw [last.vecMessagePtr, drained, List.length_map, List.take_length]
  · rw [← last.valid.length_content, last.content, drained, List.take_length, List.drop_length]
    rfl

theorem flag_transmissible (message : flagEnv.protobuf.Message) :
    flagEnv.Transmissible message := by
  refine ⟨List.cons_ne_nil _ _, ?_, rfl, none, rfl, ?_⟩
  · rcases message with _ | _ | _ <;> decide
  · rcases message with _ | _ | _ <;> rfl

/-- Two messages arrive byte by byte. -/
theorem stream_round_trip_flags :
    ∃ frames, [some true, none].mapM flagEnv.sendMsg = .ok frames ∧
      ∃ recorded, runTrace (Receiver.step flagEnv defaultErrorCallback)
          (frames.flatten.map fun byte => [byte])
          ⟨some .kConnected, Buffer.fresh, []⟩ = .ok recorded ∧
        recorded.length = (frames.flatten.map fun byte => [byte]).length ∧
        (lastState ⟨some .kConnected, Buffer.fresh, []⟩ recorded).vecMessagePtr =
          [some true, none] := by
  obtain ⟨frames, sent, received⟩ := flagEnv.stream_round_trip flagProtobuf_readsArgument
    (fun message (_ : message ∈ [some true, none]) => flag_transmissible message) (by decide)
    defaultErrorCallback (some .kConnected)
  obtain ⟨recorded, run, length, -, all, -⟩ :=
    received (frames.flatten.map fun byte => [byte])
      (by rw [← List.flatMap_def, List.flatMap_singleton'])
  exact ⟨frames, sent, recorded, run, length, all⟩

end CodecEnv

end AirNet.Net
