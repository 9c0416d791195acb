import AirNet.Lib.Framing
import AirNet.Lib.Run
import AirNet.Net.CodecFrame

/-!
# The codec on a stream

`ParseMessages` takes one decision after the other on the readable bytes of the
buffer: wait, reject, or deliver a message and retrieve its frame. The
decisions depend only on the bytes of the frame that is looked at, so they form
a framing in the sense of the library (`framing`), and a call of
`ParseMessages` drains the readable bytes (`parseMessages_spec`). The messages
it appends are recorded, since an exception that leaves the call leaves them in
the vector of the caller (`parseLoopRecorded_spec`).

`Parse` hands the library a pointer into the buffer, with bytes of the vector
behind the readable ones. Where these do not matter is stated by `LocalOn`: for
every stream, when `ParseFromArray` depends only on the bytes of the frame.

Segmentation independence and the persistence of errors then follow from the
rules of framings.
-/

set_option autoImplicit false

namespace AirNet.Net

open AirNet.Cpp AirNet.Lib

/-- `ParseFromArray(data, size)` depends only on the bytes of the frame: the data
and the four bytes of the checksum behind it. Of a negative size `-k` the last
`4 - k` bytes are left. -/
def Protobuf.FrameLocal (pb : Protobuf) : Prop :=
  ∀ {message : pb.Message} {data other : Bytes} {size : Int},
    data.take (size + 4).toNat = other.take (size + 4).toNat →
      pb.parseFromArray message data size = pb.parseFromArray message other size

namespace CodecEnv

variable (E : CodecEnv)

/-! ## The decisions of the parser -/

/-- The length at the front of the stream. -/
def frameLen (stream : Bytes) : Nat := (frontInt 4 stream).toNat

/-- The check of the length in `ParseMessages`. -/
def LengthAllowed (stream : Bytes) : Prop :=
  ¬ (kMaxMessageLen < frontInt 4 stream ∨ frontInt 4 stream < kMinMessageLen)

instance (stream : Bytes) : Decidable (LengthAllowed stream) :=
  inferInstanceAs (Decidable (¬ _))

/-- What one round of the loop decides on the readable bytes. -/
def next (stream : Bytes) : Verdict E.protobuf.Message Failure :=
  if stream.length < 14 then .wait
  else if ¬ LengthAllowed stream then .reject (.code .kInvalidLength)
  else if stream.length < frameLen stream + 4 then .wait
  else
    match E.decode ((stream.drop 4).take (frameLen stream)) (frameLen stream) with
    | .ok message => .deliver message (frameLen stream + 4)
    | .error failure => .reject failure

/-- The same with the bytes of memory behind the readable ones in reach. -/
def nextIn (mem stream : Bytes) : Verdict E.protobuf.Message Failure :=
  if stream.length < 14 then .wait
  else if ¬ LengthAllowed stream then .reject (.code .kInvalidLength)
  else if stream.length < frameLen stream + 4 then .wait
  else
    match E.decode (mem.drop 4) (frameLen stream) with
    | .ok message => .deliver message (frameLen stream + 4)
    | .error failure => .reject failure

theorem LengthAllowed.bounds {stream : Bytes} (allowed : LengthAllowed stream) :
    frontInt 4 stream = frameLen stream ∧ 10 ≤ frameLen stream ∧
      frameLen stream ≤ 64 * 1024 * 1024 := by
  simp only [LengthAllowed, not_or, not_lt, kMaxMessageLen, kMinMessageLen, kHeaderLen,
    kCheckSumLen] at allowed
  rw [frameLen]
  omega

theorem frameLen_append {stream : Bytes} (more : Bytes) (long : 14 ≤ stream.length) :
    frameLen (stream ++ more) = frameLen stream := by
  rw [frameLen, frontInt_append more (by omega), frameLen]

theorem lengthAllowed_append {stream : Bytes} (more : Bytes) (long : 14 ≤ stream.length) :
    LengthAllowed (stream ++ more) ↔ LengthAllowed stream := by
  rw [LengthAllowed, frontInt_append more (by omega), LengthAllowed]

/-- A decision other than to wait is final. -/
theorem next_append {stream : Bytes} (more : Bytes) (decided : E.next stream ≠ .wait) :
    E.next (stream ++ more) = E.next stream := by
  by_cases short : stream.length < 14
  · exact absurd (if_pos short) decided
  have long : 14 ≤ stream.length := Nat.le_of_not_lt short
  have longer : ¬ (stream ++ more).length < 14 := by
    rw [List.length_append]
    omega
  rw [next, if_neg short] at decided
  rw [next, next, if_neg short, if_neg longer]
  by_cases allowed : LengthAllowed stream
  · rw [if_neg (not_not_intro allowed)] at decided
    rw [if_neg (not_not_intro allowed),
      if_neg (not_not_intro ((lengthAllowed_append more long).mpr allowed)),
      frameLen_append more long]
    by_cases partly : stream.length < frameLen stream + 4
    · exact absurd (if_pos partly) decided
    · have whole : ¬ (stream ++ more).length < frameLen stream + 4 := by
        rw [List.length_append]
        omega
      rw [if_neg partly, if_neg whole, List.drop_append_of_le_length (by omega),
        List.take_append_of_le_length (by rw [List.length_drop]; omega)]
  · rw [if_pos allowed, if_pos (mt (lengthAllowed_append more long).mp allowed)]

/-- What is known of a stream from which a message is delivered. -/
theorem next_eq_deliver {stream : Bytes} {message : E.protobuf.Message} {size : Nat}
    (verdict : E.next stream = .deliver message size) :
    LengthAllowed stream ∧ size = frameLen stream + 4 ∧ size ≤ stream.length ∧
      E.decode ((stream.drop 4).take (frameLen stream)) (frameLen stream) = .ok message := by
  unfold next at verdict
  split_ifs at verdict with short allowed partly
  cases decoded : E.decode ((stream.drop 4).take (frameLen stream)) (frameLen stream) with
  | error failure =>
      rw [decoded] at verdict
      cases verdict
  | ok parsed =>
      rw [decoded] at verdict
      cases verdict
      exact ⟨allowed, rfl, Nat.le_of_not_lt partly, rfl⟩

/-- The parser as a framing of the stream. -/
def framing : Framing UInt8 E.protobuf.Message Failure where
  next := E.next
  size_pos := by
    intro stream message size verdict
    obtain ⟨-, isSize, -⟩ := E.next_eq_deliver verdict
    omega
  size_le := fun verdict => (E.next_eq_deliver verdict).2.2.1
  deliver_append := by
    intro stream message size more verdict
    rw [E.next_append more (by rw [verdict]; simp), verdict]
  reject_append := by
    intro stream failure more verdict
    rw [E.next_append more (by rw [verdict]; simp), verdict]

theorem next_nil : E.framing.next [] = .wait := rfl

/-! ## Bytes behind the frame -/

/-- Streams on which the bytes behind the frame do not matter, now and after
every delivery. -/
structure LocalOn (Good : Bytes → Prop) : Prop where
  decode : ∀ {stream mem : Bytes}, Good stream → stream <+: mem → LengthAllowed stream →
    frameLen stream + 4 ≤ stream.length →
    E.decode (mem.drop 4) (frameLen stream) =
      E.decode ((stream.drop 4).take (frameLen stream)) (frameLen stream)
  deliver : ∀ {stream : Bytes} {message : E.protobuf.Message} {size : Nat}, Good stream →
    E.next stream = .deliver message size → Good (stream.drop size)

theorem LocalOn.nextIn_eq {E : CodecEnv} {Good : Bytes → Prop} (localOn : E.LocalOn Good)
    {stream mem : Bytes} (good : Good stream) (isPrefix : stream <+: mem) :
    E.nextIn mem stream = E.next stream := by
  rw [nextIn, CodecEnv.next]
  by_cases allowed : LengthAllowed stream
  · by_cases whole : frameLen stream + 4 ≤ stream.length
    · rw [localOn.decode good isPrefix allowed whole]
    · simp only [if_pos (Nat.lt_of_not_le whole)]
  · simp only [if_pos allowed]

/-- A decoder that depends only on the bytes of the frame may be given the
frame alone. -/
theorem decode_take (frameLocal : E.protobuf.FrameLocal) {mem : Bytes} {len : Nat}
    (lower : 10 ≤ len) : E.decode (mem.take len) len = E.decode mem len := by
  have front : frontInt 4 (mem.take len) = frontInt 4 mem := by
    rw [frontInt, List.take_take, Nat.min_eq_left (by omega), frontInt]
  have agrees : E.CheckSumAgrees (mem.take len) len ↔ E.CheckSumAgrees mem len := by
    have tail : frontInt 4 ((mem.take len).drop (len - 4)) = frontInt 4 (mem.drop (len - 4)) := by
      rw [List.drop_take, frontInt, List.take_take, Nat.min_eq_left (by omega), frontInt]
    rw [CheckSumAgrees, tail, List.take_take, Nat.min_eq_left (by omega), CheckSumAgrees]
  have range : NameLenInRange (mem.take len) len ↔ NameLenInRange mem len := by
    rw [NameLenInRange, front, NameLenInRange]
  have isNameLen : nameLen (mem.take len) = nameLen mem := by
    rw [nameLen, front, nameLen]
  rw [decode, decode, isNameLen]
  by_cases inRange : NameLenInRange mem len
  · have bounds := inRange
    rw [NameLenInRange] at bounds
    have name : nameField (mem.take len) = nameField mem := by
      rw [nameField, nameField, isNameLen, List.drop_take, List.take_take,
        Nat.min_eq_left (by rw [nameLen]; omega)]
    have data : ∀ prototype : E.protobuf.Message,
        E.protobuf.parseFromArray prototype ((mem.take len).drop (4 + nameLen mem))
          (len - nameLen mem - 8) =
        E.protobuf.parseFromArray prototype (mem.drop (4 + nameLen mem))
          (len - nameLen mem - 8) := by
      intro prototype
      apply frameLocal
      rw [List.drop_take, List.take_take, Nat.min_eq_left (by rw [nameLen]; omega)]
    simp only [agrees, range, name, parseNamed, data]
  · simp only [agrees, range, if_neg inRange]

theorem localOn_of_frameLocal (frameLocal : E.protobuf.FrameLocal) :
    E.LocalOn fun _ => True where
  decode := by
    rintro stream mem - ⟨behind, rfl⟩ allowed whole
    have lower := allowed.bounds.2.1
    rw [← E.decode_take frameLocal lower, List.drop_append_of_le_length (by omega),
      List.take_append_of_le_length (by rw [List.length_drop]; omega)]
  deliver := fun _ _ => trivial

/-! ## One call -/

variable {γ : Type}

/-- How `ParseMessages` ends when its loop ended with the given failure. -/
def finish (errorCallback : γ → Buffer → ErrorCode → γ × Buffer) (conn : γ) (buf : Buffer)
    (vecMessagePtr : List E.protobuf.Message) : Option Failure → Except Fault (E.ParseResult γ)
  | none =>
      .ok { ret := 0, conn := conn, buf := buf, vecMessagePtr := vecMessagePtr, errors := [] }
  | some (.code errorCode) => .ok (.failed errorCallback conn buf vecMessagePtr errorCode)
  | some (.thrown fault) => .error fault

theorem sizeOfInt_eq {size : Nat} (small : size < 2 ^ 31) : E.platform.sizeOfInt size = size :=
  E.platform.sizeOfInt_of_fits (E.platform.fits_mono (by omega) E.platform.fits_least)

/-- Memory at `peek()` begins with the readable bytes. -/
theorem content_prefix_peek (buf : Buffer) : buf.content <+: buf.peek :=
  List.take_prefix _ _

/-- `Parse`, with a record of the message that is then appended to the vector. -/
def parseAppending (buf : Bytes) (len : Int) :
    Recorded E.protobuf.Message Fault (Option E.protobuf.Message × ErrorCode) where
  events :=
    match E.parse buf len with
    | .ok (some message, .kNoError) => [message]
    | _ => []
  outcome := E.parse buf len

/-- The loop of `ParseMessages`, with a record of the messages it appends. They are in
the vector of the caller also when an exception leaves the call. -/
def parseLoopRecorded (errorCallback : γ → Buffer → ErrorCode → γ × Buffer) (conn : γ) :
    (fuel : Nat) → Buffer → List E.protobuf.Message →
      Recorded E.protobuf.Message Fault (E.ParseResult γ) :=
  parseLoopWith E.platform E.parseAppending errorCallback conn

theorem outcome_parseLoopRecorded (errorCallback : γ → Buffer → ErrorCode → γ × Buffer)
    (conn : γ) (fuel : Nat) (buf : Buffer) (vecMessagePtr : List E.protobuf.Message) :
    (E.parseLoopRecorded errorCallback conn fuel buf vecMessagePtr).outcome =
      E.parseLoop errorCallback conn fuel buf vecMessagePtr := by
  induction fuel generalizing buf vecMessagePtr with
  | zero => rfl
  | succ fuel ih =>
      rw [parseLoopRecorded, parseLoop, parseLoopWith, parseLoopWith]
      simp only [apply_ite Recorded.outcome, Recorded.outcome_bind, Recorded.outcome_lift,
        monadLift_self]
      by_cases enough : E.platform.sizeOfInt (kMinMessageLen + kHeaderLen) ≤
          buf.readableBytes E.platform
      · rw [if_pos enough, if_pos enough]
        refine bind_congr fun be32 => ?_
        split_ifs
        · rfl
        · refine bind_congr fun body => bind_congr fun result => ?_
          obtain ⟨message | message, errorCode⟩ := result
          · cases errorCode <;> rfl
          · cases errorCode with
            | kNoError =>
                refine (Recorded.outcome_bind _ _).trans ?_
                exact bind_congr fun rest => ih rest (vecMessagePtr ++ [message])
            | _ => rfl
        · rfl
      · rw [if_neg enough, if_neg enough]
        rfl

/-- One round of the loop acts on the decision. -/
theorem parseLoopRecorded_round (errorCallback : γ → Buffer → ErrorCode → γ × Buffer) (conn : γ)
    (fuel : Nat) {buf : Buffer} (vecMessagePtr : List E.protobuf.Message)
    (valid : buf.Valid E.platform) :
    E.parseLoopRecorded errorCallback conn (fuel + 1) buf vecMessagePtr =
      (match E.nextIn buf.peek buf.content with
      | .wait => liftM (E.finish errorCallback conn buf vecMessagePtr none)
      | .reject failure => liftM (E.finish errorCallback conn buf vecMessagePtr (some failure))
      | .deliver message size =>
          ((liftM (buf.retrieve E.platform size) : Recorded _ _ _) >>= fun buf =>
            E.parseLoopRecorded errorCallback conn fuel buf
              (vecMessagePtr ++ [message])).after [message]) := by
  have minimum : E.platform.sizeOfInt (kMinMessageLen + kHeaderLen) = 14 :=
    E.sizeOfInt_eq (by decide)
  have readable := valid.length_content
  rw [parseLoopRecorded, parseLoopWith, nextIn, minimum, ← readable]
  by_cases short : buf.content.length < 14
  · rw [if_neg (Nat.not_le.mpr short), if_pos short]
    rfl
  have field : buf.peekInt32 E.platform =
      .ok (BitVec.ofNat 32 (ofBe (buf.content.take 4))) :=
    Buffer.peekInt32_eq valid (by omega)
  rw [if_pos (Nat.le_of_not_lt short), if_neg short]
  have isField : (BitVec.ofNat 32 (ofBe (buf.content.take 4))).toInt = frontInt 4 buf.content :=
    rfl
  simp only [field, Recorded.lift_ok_bind, isField]
  by_cases allowed : LengthAllowed buf.content
  · obtain ⟨isLen, lower, upper⟩ := allowed.bounds
    have total : E.platform.sizeOfInt ((frameLen buf.content : Int) + kHeaderLen) =
        frameLen buf.content + 4 := E.sizeOfInt_eq (show frameLen buf.content + 4 < 2 ^ 31 by omega)
    have retrieved : E.platform.sizeOfInt (kHeaderLen + (frameLen buf.content : Int)) =
        frameLen buf.content + 4 := by
      rw [Int.add_comm]
      exact total
    rw [if_neg (not_not_intro allowed)]
    refine (if_neg allowed).trans ?_
    rw [isLen, total]
    by_cases partly : buf.content.length < frameLen buf.content + 4
    · rw [if_neg (Nat.not_le.mpr partly), if_pos partly]
      rfl
    · have reachable := valid.readableBytes_le_length_peek
      have body : advance buf.peek kHeaderLen = .ok (buf.peek.drop 4) :=
        advance_of_le (show 4 ≤ buf.peek.length by omega)
      have inside : frameLen buf.content ≤ (buf.peek.drop 4).length := by
        rw [List.length_drop]
        omega
      have parsed := E.parse_eq lower (by omega) inside
      rw [if_pos (Nat.le_of_not_lt partly), if_neg partly]
      simp only [body, parseAppending, parsed, retrieved, Recorded.lift_ok_bind]
      rcases E.decode (buf.peek.drop 4) (frameLen buf.content) with (errorCode | fault) | message
      · cases errorCode <;> rfl
      · rfl
      · rfl
  · rw [if_pos allowed]
    refine (if_pos (not_not.mp allowed)).trans ?_
    rfl

theorem parseLoop_round (errorCallback : γ → Buffer → ErrorCode → γ × Buffer) (conn : γ)
    (fuel : Nat) {buf : Buffer} (vecMessagePtr : List E.protobuf.Message)
    (valid : buf.Valid E.platform) :
    E.parseLoop errorCallback conn (fuel + 1) buf vecMessagePtr =
      (match E.nextIn buf.peek buf.content with
      | .wait => E.finish errorCallback conn buf vecMessagePtr none
      | .reject failure => E.finish errorCallback conn buf vecMessagePtr (some failure)
      | .deliver message size => buf.retrieve E.platform size >>= fun buf =>
          E.parseLoop errorCallback conn fuel buf (vecMessagePtr ++ [message])) := by
  rw [← outcome_parseLoopRecorded,
    E.parseLoopRecorded_round errorCallback conn fuel vecMessagePtr valid]
  cases E.nextIn buf.peek buf.content with
  | wait => rfl
  | reject failure => rfl
  | deliver message size =>
      refine (Recorded.outcome_bind _ _).trans ?_
      simp only [Recorded.outcome_lift, outcome_parseLoopRecorded]

/-- What the loop leaves in the buffer. -/
structure Drained (buf buf' : Buffer) : Prop where
  valid : buf'.Valid E.platform
  content : buf'.content = (E.framing.drain buf.content).rest
  writer_le : buf'.writerIndex_ ≤ buf.writerIndex_

/-- The loop appends the messages that are delivered while the readable bytes are drained. -/
theorem parseLoopRecorded_spec {Good : Bytes → Prop} (localOn : E.LocalOn Good)
    (errorCallback : γ → Buffer → ErrorCode → γ × Buffer) (conn : γ) {fuel : Nat}
    {buf : Buffer} (vecMessagePtr : List E.protobuf.Message) (valid : buf.Valid E.platform)
    (good : Good buf.content) (enough : buf.content.length < fuel) :
    ∃ buf', E.Drained buf buf' ∧
      E.parseLoopRecorded errorCallback conn fuel buf vecMessagePtr =
        ⟨(E.framing.drain buf.content).delivered,
          E.finish errorCallback conn buf'
            (vecMessagePtr ++ (E.framing.drain buf.content).delivered)
            (E.framing.drain buf.content).error⟩ := by
  induction fuel generalizing buf vecMessagePtr with
  | zero => exact absurd enough (Nat.not_lt_zero _)
  | succ fuel ih =>
      rw [E.parseLoopRecorded_round errorCallback conn fuel vecMessagePtr valid,
        localOn.nextIn_eq good (content_prefix_peek buf)]
      cases verdict : E.next buf.content with
      | wait =>
          have drained : E.framing.drain buf.content = _ := Framing.drain_of_wait verdict
          refine ⟨buf, ⟨valid, by rw [drained], le_refl _⟩, ?_⟩
          rw [drained, List.append_nil]
          rfl
      | reject failure =>
          have drained : E.framing.drain buf.content = _ := Framing.drain_of_reject verdict
          refine ⟨buf, ⟨valid, by rw [drained], le_refl _⟩, ?_⟩
          rw [drained, List.append_nil]
          rfl
      | deliver message size =>
          have drained : E.framing.drain buf.content = _ := Framing.drain_of_deliver verdict
          have pos := E.framing.size_pos verdict
          have le : size ≤ buf.content.length := E.framing.size_le verdict
          obtain ⟨rest, retrieved, consumed⟩ :=
            Buffer.retrieve_spec valid (le.trans_eq valid.length_content)
          have shorter : rest.content.length < fuel := by
            rw [consumed.content, List.length_drop]
            omega
          obtain ⟨buf', after, returns⟩ := ih (vecMessagePtr ++ [message]) consumed.valid
            (by rw [consumed.content]; exact localOn.deliver good verdict) shorter
          refine ⟨buf', ⟨after.valid, ?_, after.writer_le.trans consumed.writer_le⟩, ?_⟩
          · rw [after.content, consumed.content, drained]
            rfl
          · simp only [retrieved, Recorded.lift_ok_bind, returns]
            rw [consumed.content, drained, List.append_assoc]
            rfl

theorem parseLoop_spec {Good : Bytes → Prop} (localOn : E.LocalOn Good)
    (errorCallback : γ → Buffer → ErrorCode → γ × Buffer) (conn : γ) {fuel : Nat}
    {buf : Buffer} (vecMessagePtr : List E.protobuf.Message) (valid : buf.Valid E.platform)
    (good : Good buf.content) (enough : buf.content.length < fuel) :
    ∃ buf', E.Drained buf buf' ∧
      E.parseLoop errorCallback conn fuel buf vecMessagePtr =
        E.finish errorCallback conn buf'
          (vecMessagePtr ++ (E.framing.drain buf.content).delivered)
          (E.framing.drain buf.content).error := by
  obtain ⟨buf', drained, recorded⟩ :=
    E.parseLoopRecorded_spec localOn errorCallback conn vecMessagePtr valid good enough
  refine ⟨buf', drained, ?_⟩
  rw [← outcome_parseLoopRecorded, recorded]

/-- **A call of `ParseMessages` drains the readable bytes.** -/
theorem parseMessages_spec {Good : Bytes → Prop} (localOn : E.LocalOn Good)
    (errorCallback : γ → Buffer → ErrorCode → γ × Buffer) (conn : γ) {buf : Buffer}
    (vecMessagePtr : List E.protobuf.Message) (valid : buf.Valid E.platform)
    (good : Good buf.content) :
    ∃ buf', E.Drained buf buf' ∧
      E.parseMessages errorCallback conn buf vecMessagePtr =
        E.finish errorCallback conn buf'
          (vecMessagePtr ++ (E.framing.drain buf.content).delivered)
          (E.framing.drain buf.content).error := by
  apply E.parseLoop_spec localOn errorCallback conn vecMessagePtr valid good
  rw [valid.length_content]
  exact Nat.lt_succ_self _

/-! ## Receiving -/

/-- A chunk arrives: it is appended, and `ParseMessages` is called. -/
def receive (errorCallback : γ → Buffer → ErrorCode → γ × Buffer) (chunk : Bytes) (conn : γ)
    (buf : Buffer) (vecMessagePtr : List E.protobuf.Message) :
    Except Fault (E.ParseResult γ) := do
  let buf ← buf.append E.platform chunk chunk.length
  E.parseMessages errorCallback conn buf vecMessagePtr

/-- What is left in the buffer after a chunk arrived. -/
structure Received (chunk : Bytes) (buf buf' : Buffer) : Prop where
  valid : buf'.Valid E.platform
  content : buf'.content = (E.framing.drain (buf.content ++ chunk)).rest
  writer_le : buf'.writerIndex_ ≤ buf.writerIndex_ + chunk.length

/-- `receive`, with a record of the messages it appends. -/
def receiveRecorded (errorCallback : γ → Buffer → ErrorCode → γ × Buffer) (chunk : Bytes)
    (conn : γ) (buf : Buffer) (vecMessagePtr : List E.protobuf.Message) :
    Recorded E.protobuf.Message Fault (E.ParseResult γ) := do
  let buf ← buf.append E.platform chunk chunk.length
  E.parseLoopRecorded errorCallback conn (buf.readableBytes E.platform + 1) buf vecMessagePtr

theorem outcome_receiveRecorded (errorCallback : γ → Buffer → ErrorCode → γ × Buffer)
    (chunk : Bytes) (conn : γ) (buf : Buffer) (vecMessagePtr : List E.protobuf.Message) :
    (E.receiveRecorded errorCallback chunk conn buf vecMessagePtr).outcome =
      E.receive errorCallback chunk conn buf vecMessagePtr := by
  refine (Recorded.outcome_bind _ _).trans (bind_congr fun buf => ?_)
  exact E.outcome_parseLoopRecorded errorCallback conn _ buf vecMessagePtr

theorem receiveRecorded_spec {Good : Bytes → Prop} (localOn : E.LocalOn Good)
    (errorCallback : γ → Buffer → ErrorCode → γ × Buffer) (chunk : Bytes) (conn : γ)
    {buf : Buffer} (vecMessagePtr : List E.protobuf.Message) (valid : buf.Valid E.platform)
    (fits : E.platform.fits (buf.writerIndex_ + chunk.length + kCheapPrepend) = true)
    (good : Good (buf.content ++ chunk)) :
    ∃ buf', E.Received chunk buf buf' ∧
      E.receiveRecorded errorCallback chunk conn buf vecMessagePtr =
        ⟨(E.framing.drain (buf.content ++ chunk)).delivered,
          E.finish errorCallback conn buf'
            (vecMessagePtr ++ (E.framing.drain (buf.content ++ chunk)).delivered)
            (E.framing.drain (buf.content ++ chunk)).error⟩ := by
  obtain ⟨longer, appended, done⟩ := Buffer.append_all_spec chunk valid fits
  rw [← done.content] at good ⊢
  have enough : longer.content.length < longer.readableBytes E.platform + 1 := by
    rw [done.valid.length_content]
    exact Nat.lt_succ_self _
  obtain ⟨buf', drained, recorded⟩ :=
    E.parseLoopRecorded_spec localOn errorCallback conn vecMessagePtr done.valid good enough
  refine ⟨buf', ⟨drained.valid, ?_, drained.writer_le.trans done.writer_le⟩, ?_⟩
  · rw [drained.content, done.content]
  · rw [receiveRecorded, appended]
    exact recorded

theorem receive_spec {Good : Bytes → Prop} (localOn : E.LocalOn Good)
    (errorCallback : γ → Buffer → ErrorCode → γ × Buffer) (chunk : Bytes) (conn : γ)
    {buf : Buffer} (vecMessagePtr : List E.protobuf.Message) (valid : buf.Valid E.platform)
    (fits : E.platform.fits (buf.writerIndex_ + chunk.length + kCheapPrepend) = true)
    (good : Good (buf.content ++ chunk)) :
    ∃ buf', E.Received chunk buf buf' ∧
      E.receive errorCallback chunk conn buf vecMessagePtr =
        E.finish errorCallback conn buf'
          (vecMessagePtr ++ (E.framing.drain (buf.content ++ chunk)).delivered)
          (E.framing.drain (buf.content ++ chunk)).error := by
  obtain ⟨buf', received, recorded⟩ :=
    E.receiveRecorded_spec localOn errorCallback chunk conn vecMessagePtr valid fits good
  refine ⟨buf', received, ?_⟩
  rw [← outcome_receiveRecorded, recorded]

/-! ## Segmentation -/

/-- The chunks arrive one by one until a call returns -1. -/
def receiveUntilError (errorCallback : γ → Buffer → ErrorCode → γ × Buffer) :
    List Bytes → γ → Buffer → List E.protobuf.Message → Except Fault (E.ParseResult γ)
  | [], conn, buf, vecMessagePtr => E.finish errorCallback conn buf vecMessagePtr none
  | chunk :: chunks, conn, buf, vecMessagePtr => do
      let result ← E.receive errorCallback chunk conn buf vecMessagePtr
      if result.ret = -1 then pure result
      else receiveUntilError errorCallback chunks result.conn result.buf result.vecMessagePtr

/-- `receiveUntilError`, with a record of the messages it appends. -/
def receiveUntilErrorRecorded (errorCallback : γ → Buffer → ErrorCode → γ × Buffer) :
    List Bytes → γ → Buffer → List E.protobuf.Message →
      Recorded E.protobuf.Message Fault (E.ParseResult γ)
  | [], conn, buf, vecMessagePtr => liftM (E.finish errorCallback conn buf vecMessagePtr none)
  | chunk :: chunks, conn, buf, vecMessagePtr => do
      let result ← E.receiveRecorded errorCallback chunk conn buf vecMessagePtr
      if result.ret = -1 then pure result
      else
        receiveUntilErrorRecorded errorCallback chunks result.conn result.buf result.vecMessagePtr

theorem outcome_receiveUntilErrorRecorded (errorCallback : γ → Buffer → ErrorCode → γ × Buffer)
    (chunks : List Bytes) (conn : γ) (buf : Buffer) (vecMessagePtr : List E.protobuf.Message) :
    (E.receiveUntilErrorRecorded errorCallback chunks conn buf vecMessagePtr).outcome =
      E.receiveUntilError errorCallback chunks conn buf vecMessagePtr := by
  induction chunks generalizing conn buf vecMessagePtr with
  | nil => rfl
  | cons chunk chunks ih =>
      rw [receiveUntilErrorRecorded, receiveUntilError, Recorded.outcome_bind,
        outcome_receiveRecorded]
      refine bind_congr fun result => ?_
      split_ifs
      · rfl
      · exact ih result.conn result.buf result.vecMessagePtr

/-- The messages in the vector when all chunks were received, or a call returned -1, or an
exception has left it. -/
def appended (errorCallback : γ → Buffer → ErrorCode → γ × Buffer) (chunks : List Bytes)
    (conn : γ) : List E.protobuf.Message :=
  (E.receiveUntilErrorRecorded errorCallback chunks conn Buffer.fresh []).events

/-- A result shows an outcome of the framing. -/
structure Shows (result : E.ParseResult γ) (earlier : List E.protobuf.Message)
    (outcome : Outcome UInt8 E.protobuf.Message Failure) : Prop where
  ret : result.ret = if outcome.error = none then 0 else -1
  errors : result.errors.map .code = outcome.error.toList
  vecMessagePtr : result.vecMessagePtr = earlier ++ outcome.delivered
  content : result.buf.content = outcome.rest

/-- A call ends with a result that shows the outcome, or by the exception that
the outcome ends with. -/
def EndsWith (action : Except Fault (E.ParseResult γ)) (earlier : List E.protobuf.Message)
    (outcome : Outcome UInt8 E.protobuf.Message Failure) : Prop :=
  (∃ result, action = .ok result ∧ E.Shows result earlier outcome) ∨
    ∃ fault, action = .error fault ∧ outcome.error = some (.thrown fault)

theorem finish_endsWith {errorCallback : γ → Buffer → ErrorCode → γ × Buffer}
    (keepsBuffer : ∀ conn buf errorCode, (errorCallback conn buf errorCode).2 = buf)
    (conn : γ) {buf : Buffer} (earlier : List E.protobuf.Message)
    {outcome : Outcome UInt8 E.protobuf.Message Failure} (content : buf.content = outcome.rest) :
    E.EndsWith (E.finish errorCallback conn buf (earlier ++ outcome.delivered) outcome.error)
      earlier outcome := by
  rcases failed : outcome.error with _ | errorCode | fault
  · exact .inl ⟨_, rfl, by rw [failed]; rfl, by rw [failed]; rfl, rfl, content⟩
  · refine .inl ⟨_, rfl, by rw [failed]; rfl, by rw [failed]; rfl, rfl, ?_⟩
    rw [← content]
    exact congrArg Buffer.content (keepsBuffer conn buf errorCode)
  · exact .inr ⟨fault, rfl, failed⟩

/-- The exception of an outcome is not a result. -/
theorem not_thrown_of_shows {result : E.ParseResult γ} {earlier : List E.protobuf.Message}
    {outcome : Outcome UInt8 E.protobuf.Message Failure} (shows : E.Shows result earlier outcome)
    (fault : Fault) : outcome.error ≠ some (.thrown fault) := by
  intro thrown
  have errors := shows.errors
  rw [thrown] at errors
  cases reported : result.errors with
  | nil =>
      rw [reported] at errors
      cases errors
  | cons errorCode others =>
      rw [reported] at errors
      cases errors

/-- What ends with the rest of the chunks ends with all of them. -/
theorem endsWith_after {action : Except Fault (E.ParseResult γ)}
    {earlier delivered : List E.protobuf.Message}
    {outcome : Outcome UInt8 E.protobuf.Message Failure}
    (ends : E.EndsWith action (earlier ++ delivered) outcome) :
    E.EndsWith action earlier (outcome.after delivered) := by
  rcases ends with ⟨result, returns, shows⟩ | ⟨fault, thrown, error⟩
  · refine .inl ⟨result, returns, shows.ret, shows.errors, ?_, shows.content⟩
    rw [shows.vecMessagePtr, List.append_assoc]
    rfl
  · exact .inr ⟨fault, thrown, error⟩

/-- Receiving chunks until an error feeds them to the framing, as long as every
chunk finds room in the buffer. -/
theorem receiveUntilError_feeds (frameLocal : E.protobuf.FrameLocal)
    {errorCallback : γ → Buffer → ErrorCode → γ × Buffer}
    (keepsBuffer : ∀ conn buf errorCode, (errorCallback conn buf errorCode).2 = buf)
    (Roomy : Buffer → List Bytes → Prop)
    (fits : ∀ {buf chunk chunks}, Roomy buf (chunk :: chunks) →
      E.platform.fits (buf.writerIndex_ + chunk.length + kCheapPrepend) = true)
    (next : ∀ {buf buf' chunk chunks conn earlier delivered}, Roomy buf (chunk :: chunks) →
      E.Received chunk buf buf' →
      E.receive errorCallback chunk conn buf earlier =
        E.finish errorCallback conn buf' delivered none → Roomy buf' chunks)
    (chunks : List Bytes) (conn : γ) {buf : Buffer} (earlier : List E.protobuf.Message)
    (valid : buf.Valid E.platform) (roomy : Roomy buf chunks) :
    E.EndsWith (E.receiveUntilError errorCallback chunks conn buf earlier) earlier
      (E.framing.feed buf.content chunks) := by
  induction chunks generalizing conn buf earlier with
  | nil => exact .inl ⟨_, rfl, rfl, rfl, (List.append_nil _).symm, rfl⟩
  | cons chunk chunks ih =>
      obtain ⟨buf', received, returns⟩ := E.receive_spec (E.localOn_of_frameLocal frameLocal)
        errorCallback chunk conn earlier valid (fits roomy) trivial
      rcases failed : (E.framing.drain (buf.content ++ chunk)).error with _ | errorCode | fault
      · rw [failed] at returns
        have shows := ih conn (earlier ++ (E.framing.drain (buf.content ++ chunk)).delivered)
          received.valid (next roomy received returns)
        rw [received.content] at shows
        rw [receiveUntilError, returns, Framing.feed_of_quiet failed]
        exact E.endsWith_after shows
      · have shows := E.finish_endsWith keepsBuffer conn earlier received.content
        rw [failed] at returns shows
        rwa [receiveUntilError, returns, Framing.feed_of_error failed]
      · rw [failed] at returns
        rw [receiveUntilError, returns]
        exact .inr ⟨fault, rfl, by rw [Framing.feed_of_error failed, failed]⟩

/-- A vector that can hold all chunks has room for each of them. -/
theorem receiveUntilError_spec (frameLocal : E.protobuf.FrameLocal)
    {errorCallback : γ → Buffer → ErrorCode → γ × Buffer}
    (keepsBuffer : ∀ conn buf errorCode, (errorCallback conn buf errorCode).2 = buf)
    (chunks : List Bytes) (conn : γ) {buf : Buffer} (earlier : List E.protobuf.Message)
    (valid : buf.Valid E.platform)
    (fits : E.platform.fits (buf.writerIndex_ + chunks.flatten.length + kCheapPrepend) = true) :
    E.EndsWith (E.receiveUntilError errorCallback chunks conn buf earlier) earlier
      (E.framing.feed buf.content chunks) := by
  refine E.receiveUntilError_feeds frameLocal keepsBuffer (fun buf chunks =>
    E.platform.fits (buf.writerIndex_ + chunks.flatten.length + kCheapPrepend) = true)
    ?_ ?_ chunks conn earlier valid fits
  · intro buf chunk chunks fits
    rw [List.flatten_cons, List.length_append] at fits
    exact E.platform.fits_mono (by omega) fits
  · intro buf buf' chunk chunks conn earlier delivered fits received _
    have writer := received.writer_le
    rw [List.flatten_cons, List.length_append] at fits
    exact E.platform.fits_mono (by omega) fits

/-- However the run ends, the messages appended are those delivered by the framing. -/
theorem events_receiveUntilErrorRecorded (frameLocal : E.protobuf.FrameLocal)
    (errorCallback : γ → Buffer → ErrorCode → γ × Buffer) (chunks : List Bytes) (conn : γ)
    {buf : Buffer} (earlier : List E.protobuf.Message) (valid : buf.Valid E.platform)
    (fits : E.platform.fits (buf.writerIndex_ + chunks.flatten.length + kCheapPrepend) = true) :
    (E.receiveUntilErrorRecorded errorCallback chunks conn buf earlier).events =
      (E.framing.feed buf.content chunks).delivered := by
  induction chunks generalizing conn buf earlier with
  | nil => rfl
  | cons chunk chunks ih =>
      rw [List.flatten_cons, List.length_append] at fits
      obtain ⟨buf', received, recorded⟩ := E.receiveRecorded_spec
        (E.localOn_of_frameLocal frameLocal) errorCallback chunk conn earlier valid
        (E.platform.fits_mono (by omega) fits) trivial
      rw [receiveUntilErrorRecorded, recorded]
      rcases failed : (E.framing.drain (buf.content ++ chunk)).error with _ | errorCode | fault
      · have writer := received.writer_le
        have later := ih conn (earlier ++ (E.framing.drain (buf.content ++ chunk)).delivered)
          received.valid (E.platform.fits_mono (by omega) fits)
        rw [received.content] at later
        rw [Framing.feed_of_quiet failed]
        exact congrArg (_ ++ ·) later
      · rw [Framing.feed_of_error failed]
        exact List.append_nil _
      · rw [Framing.feed_of_error failed]
        rfl

/-- The exception that ends a stream comes from one of its frames. -/
theorem throws_of_drain {stream : Bytes} {fault : Fault}
    (failed : (E.framing.drain stream).error = some (.thrown fault)) :
    ∃ frame, frame <:+: stream ∧ E.Throws frame frame.length fault := by
  have verdict : E.next (E.framing.drain stream).rest = .reject (.thrown fault) := by
    have last := E.framing.next_rest stream
    rwa [failed] at last
  obtain ⟨rest, isRest⟩ : ∃ rest, (E.framing.drain stream).rest = rest := ⟨_, rfl⟩
  have isSuffix := E.framing.rest_suffix stream
  rw [isRest] at verdict isSuffix
  rw [next] at verdict
  split_ifs at verdict with short allowed partly
  · obtain ⟨-, lower, -⟩ := allowed.bounds
    have length : ((rest.drop 4).take (frameLen rest)).length = frameLen rest :=
      List.length_take_of_le (by rw [List.length_drop]; omega)
    refine ⟨(rest.drop 4).take (frameLen rest), ?_, ?_⟩
    · exact (List.take_prefix _ _).isInfix.trans
        ((List.drop_suffix 4 rest).isInfix.trans isSuffix.isInfix)
    · rw [length, ← E.decode_eq_thrown_iff lower length.ge]
      cases decoded : E.decode ((rest.drop 4).take (frameLen rest)) (frameLen rest) with
      | ok message =>
          rw [decoded] at verdict
          cases verdict
      | error failure =>
          rw [decoded] at verdict
          cases verdict
          rfl
  · cases verdict

/-- **Segmentation independence.**  However the bytes are cut into chunks, an
empty receive buffer yields the same messages, the same error or none, and
without an error the same readable bytes; or the same exception ends both runs,
thrown for a frame in the stream, and finds the same messages in the vector. -/
theorem segmentation_independent (frameLocal : E.protobuf.FrameLocal)
    {errorCallback : γ → Buffer → ErrorCode → γ × Buffer}
    (keepsBuffer : ∀ conn buf errorCode, (errorCallback conn buf errorCode).2 = buf)
    (conn : γ) {chunks others : List Bytes} (same : chunks.flatten = others.flatten)
    (fits : E.platform.fits (chunks.flatten.length + 2 * kCheapPrepend) = true) :
    (∃ one other : E.ParseResult γ,
      E.receiveUntilError errorCallback chunks conn Buffer.fresh [] = .ok one ∧
      E.receiveUntilError errorCallback others conn Buffer.fresh [] = .ok other ∧
      one.vecMessagePtr = other.vecMessagePtr ∧ one.ret = other.ret ∧
      one.errors = other.errors ∧
      (one.ret = 0 → one.buf.content = other.buf.content)) ∨
    ∃ fault, E.receiveUntilError errorCallback chunks conn Buffer.fresh [] = .error fault ∧
      E.receiveUntilError errorCallback others conn Buffer.fresh [] = .error fault ∧
      E.appended errorCallback chunks conn = E.appended errorCallback others conn ∧
      ∃ frame, frame <:+: chunks.flatten ∧ E.Throws frame frame.length fault := by
  have fresh := Buffer.fresh_valid E.platform
  have size : kCheapPrepend + chunks.flatten.length + kCheapPrepend =
      chunks.flatten.length + 2 * kCheapPrepend := by omega
  rw [← size] at fits
  have first := E.receiveUntilError_spec frameLocal keepsBuffer chunks conn [] fresh fits
  have second := E.receiveUntilError_spec frameLocal keepsBuffer others conn [] fresh (same ▸ fits)
  rw [Buffer.content_fresh] at first second
  obtain ⟨delivered, error, rest⟩ := E.framing.feed_eq_drain E.next_nil chunks
  obtain ⟨delivered', error', rest'⟩ := E.framing.feed_eq_drain E.next_nil others
  rw [List.nil_append] at delivered error rest delivered' error' rest'
  rw [← same] at delivered' error' rest'
  rcases first with ⟨one, isOne, shown⟩ | ⟨fault, isFault, thrown⟩
  · rcases second with ⟨other, isOther, shownToo⟩ | ⟨fault, -, thrown⟩
    · refine .inl ⟨one, other, isOne, isOther, ?_, ?_, ?_, ?_⟩
      · rw [shown.vecMessagePtr, shownToo.vecMessagePtr, delivered, delivered']
      · rw [shown.ret, shownToo.ret, error, error']
      · refine List.map_injective_iff.mpr (fun _ _ => Failure.code.inj) ?_
        rw [shown.errors, shownToo.errors, error, error']
      · intro quiet
        have none : (E.framing.feed [] chunks).error = none := by
          by_contra failed
          rw [shown.ret, if_neg failed] at quiet
          cases quiet
        rw [shown.content, shownToo.content, rest none,
          rest' (error'.trans (error.symm.trans none))]
    · exact absurd (error.trans (error'.symm.trans thrown)) (E.not_thrown_of_shows shown fault)
  · rcases second with ⟨other, -, shownToo⟩ | ⟨fault', isFault', thrown'⟩
    · exact absurd (error'.trans (error.symm.trans thrown)) (E.not_thrown_of_shows shownToo fault)
    · have sameFault : some (Failure.thrown fault) = some (.thrown fault') :=
        thrown.symm.trans (error.trans (error'.symm.trans thrown'))
      cases sameFault
      refine .inr ⟨fault, isFault, isFault', ?_, E.throws_of_drain (error.symm.trans thrown)⟩
      rw [appended, appended,
        E.events_receiveUntilErrorRecorded frameLocal errorCallback chunks conn [] fresh fits,
        E.events_receiveUntilErrorRecorded frameLocal errorCallback others conn [] fresh
          (same ▸ fits), Buffer.content_fresh, delivered, delivered']

theorem defaultErrorCallback_keepsBuffer (conn : Option StateE) (buf : Buffer)
    (errorCode : ErrorCode) : (defaultErrorCallback conn buf errorCode).2 = buf := by
  unfold defaultErrorCallback
  split <;> rfl

theorem flagProtobuf_frameLocal : flagProtobuf.FrameLocal := by
  intro message data other size same
  have front : data.take size.toNat = other.take size.toNat := by
    have cut := congrArg (List.take size.toNat) same
    rwa [List.take_take, List.take_take, Nat.min_eq_left (by omega)] at cut
  simp only [flagProtobuf, front]

/-- `Flag` has no field that makes its parser throw. -/
theorem flagEnv_not_throws {mem : Bytes} {len : Nat} {fault : Fault} :
    ¬ flagEnv.Throws mem len fault := by
  rintro ⟨-, -, message, -, thrown⟩
  cases thrown

/-- A frame of `Flag` and two more bytes, cut at the fifth byte or not at all. -/
theorem segmentation_independent_flag :
    ∃ one other : flagEnv.ParseResult (Option StateE),
      flagEnv.receiveUntilError defaultErrorCallback [flagEnv.frame flagName [8, 1] ++ [0, 0]]
        (some .kConnected) Buffer.fresh [] = .ok one ∧
      flagEnv.receiveUntilError defaultErrorCallback
        [(flagEnv.frame flagName [8, 1]).take 5, [],
          (flagEnv.frame flagName [8, 1]).drop 5 ++ [0, 0]]
        (some .kConnected) Buffer.fresh [] = .ok other ∧
      one.vecMessagePtr = other.vecMessagePtr ∧ one.ret = other.ret ∧
      one.errors = other.errors ∧
      (one.ret = 0 → one.buf.content = other.buf.content) := by
  have cut : [flagEnv.frame flagName [8, 1] ++ [0, 0]].flatten =
      [(flagEnv.frame flagName [8, 1]).take 5, [],
        (flagEnv.frame flagName [8, 1]).drop 5 ++ [0, 0]].flatten := by decide
  rcases flagEnv.segmentation_independent flagProtobuf_frameLocal defaultErrorCallback_keepsBuffer
    (some .kConnected) cut (by decide) with agree | ⟨fault, -, -, -, frame, -, throws⟩
  · exact agree
  · exact absurd throws flagEnv_not_throws

/-! ## Errors -/

/-- What happens to a receive buffer: bytes arrive, or it is parsed for some
connection into some vector. -/
inductive Event where
  | append (bytes : Bytes)
  | parseMessages (conn : Option StateE) (vecMessagePtr : List E.protobuf.Message)

/-- What a call shows to its caller: the result, the vector and the reported
codes. -/
abbrev Report := Int × List E.protobuf.Message × List ErrorCode

namespace Event

variable {E}

def exec : Event E → Buffer → Except Fault (Buffer × Option E.Report)
  | .append bytes, buf => do
      let buf ← buf.append E.platform bytes bytes.length
      pure (buf, none)
  | .parseMessages conn vecMessagePtr, buf => do
      let result ← E.parseMessages defaultErrorCallback conn buf vecMessagePtr
      pure (result.buf, some (result.ret, result.vecMessagePtr, result.errors))

/-- The bytes that arrive. -/
def bytes : Event E → Bytes
  | .append bytes => bytes
  | .parseMessages _ _ => []

end Event

/-- An event on a buffer whose readable bytes are rejected. -/
theorem Event.exec_rejected (frameLocal : E.protobuf.FrameLocal) (event : E.Event)
    {buf : Buffer} {errorCode : ErrorCode} (valid : buf.Valid E.platform)
    (rejected : E.next buf.content = .reject (.code errorCode))
    (fits : E.platform.fits (buf.writerIndex_ + event.bytes.length + kCheapPrepend) = true) :
    ∃ entry, event.exec buf = .ok entry ∧ entry.1.Valid E.platform ∧
      entry.1.content = buf.content ++ event.bytes ∧
      entry.1.writerIndex_ ≤ buf.writerIndex_ + event.bytes.length ∧
      ∀ conn vecMessagePtr, event = .parseMessages conn vecMessagePtr →
        entry.2 = some (-1, vecMessagePtr, [errorCode]) := by
  cases event with
  | append bytes =>
      obtain ⟨longer, appended, done⟩ := Buffer.append_all_spec bytes valid fits
      refine ⟨(longer, none), ?_, done.valid, done.content, done.writer_le, ?_⟩
      · rw [exec, appended]
        rfl
      · intro conn vecMessagePtr other
        cases other
  | parseMessages conn vecMessagePtr =>
      have drained : E.framing.drain buf.content = _ := Framing.drain_of_reject rejected
      obtain ⟨rest, left, returns⟩ := E.parseMessages_spec (E.localOn_of_frameLocal frameLocal)
        defaultErrorCallback conn vecMessagePtr valid trivial
      have content := left.content
      rw [drained] at returns content
      have kept := defaultErrorCallback_keepsBuffer conn rest errorCode
      refine ⟨(rest, some (-1, vecMessagePtr, [errorCode])), ?_, left.valid, ?_, left.writer_le, ?_⟩
      · simp only [exec, returns, ok_bind, finish, CallResult.failed, kept, List.append_nil]
        rfl
      · rw [content]
        exact (List.append_nil _).symm
      · intro _ _ same
        cases same
        rfl

/-- The buffer after some events since `rest` was left. -/
structure Since (rest : Buffer) (events : List E.Event) (buf : Buffer) : Prop where
  valid : buf.Valid E.platform
  content : buf.content = rest.content ++ events.flatMap Event.bytes
  writer_le : buf.writerIndex_ ≤ rest.writerIndex_ + (events.flatMap Event.bytes).length

/-- If the last event was a call, it was answered with the error. -/
def Answered (errorCode : ErrorCode) (events : List E.Event) (report : Option E.Report) : Prop :=
  ∀ conn vecMessagePtr, events.getLast? = some (.parseMessages conn vecMessagePtr) →
    report = some (-1, vecMessagePtr, [errorCode])

theorem Since.event (frameLocal : E.protobuf.FrameLocal) {rest : Buffer} {errorCode : ErrorCode}
    (rejected : E.next rest.content = .reject (.code errorCode)) {done : List E.Event}
    {event : E.Event}
    {buf : Buffer} (since : E.Since rest done buf)
    (fits : E.platform.fits (rest.writerIndex_ + ((done ++ [event]).flatMap Event.bytes).length +
      kCheapPrepend) = true) :
    ∃ entry, event.exec buf = .ok entry ∧ E.Since rest (done ++ [event]) entry.1 ∧
      E.Answered errorCode (done ++ [event]) entry.2 := by
  have writer := since.writer_le
  have all : (done ++ [event]).flatMap Event.bytes =
      done.flatMap Event.bytes ++ event.bytes := by
    rw [List.flatMap_append, List.flatMap_singleton]
  have still : E.next buf.content = .reject (.code errorCode) := by
    rw [since.content, E.next_append _ (by rw [rejected]; simp), rejected]
  rw [all, List.length_append] at fits
  obtain ⟨entry, executed, valid, content, entryWriter, answered⟩ :=
    Event.exec_rejected E frameLocal event since.valid still
      (E.platform.fits_mono (by omega) fits)
  refine ⟨entry, executed, ⟨valid, ?_, ?_⟩, ?_⟩
  · rw [content, since.content, all, List.append_assoc]
  · rw [all, List.length_append]
    omega
  · intro conn vecMessagePtr last
    rw [List.getLast?_concat] at last
    exact answered conn vecMessagePtr (Option.some.inj last)

/-- **Errors are absorbing.**  After a call has returned -1 with a code, the
readable bytes are those left by that call and the bytes appended since, and
every further call returns -1 with that code and leaves its vector as it was. -/
theorem errors_absorb (frameLocal : E.protobuf.FrameLocal) {buf : Buffer}
    (valid : buf.Valid E.platform) (conn : Option StateE)
    (vecMessagePtr : List E.protobuf.Message) {result : E.ParseResult (Option StateE)}
    (returned : E.parseMessages defaultErrorCallback conn buf vecMessagePtr = .ok result)
    (failed : result.ret = -1) (events : List E.Event)
    (fits : E.platform.fits (result.buf.writerIndex_ + (events.flatMap Event.bytes).length +
      kCheapPrepend) = true) :
    ∃ errorCode, result.errors = [errorCode] ∧
      ∃ recorded, runTrace Event.exec events result.buf = .ok recorded ∧
        recorded.length = events.length ∧
        ∀ i entry, recorded[i]? = some entry →
          entry.1.content =
            result.buf.content ++ (events.take (i + 1)).flatMap Event.bytes ∧
          ∀ conn vecMessagePtr, events[i]? = some (.parseMessages conn vecMessagePtr) →
            entry.2 = some (-1, vecMessagePtr, [errorCode]) := by
  obtain ⟨rest, left, returns⟩ := E.parseMessages_spec (E.localOn_of_frameLocal frameLocal)
    defaultErrorCallback conn vecMessagePtr valid trivial
  rw [returned] at returns
  obtain ⟨errorCode, error⟩ : ∃ errorCode,
      (E.framing.drain buf.content).error = some (.code errorCode) := by
    rcases error : (E.framing.drain buf.content).error with _ | errorCode | fault
    · rw [error] at returns
      cases returns
      cases failed
    · exact ⟨errorCode, rfl⟩
    · rw [error] at returns
      cases returns
  rw [error] at returns
  obtain rfl := Except.ok.inj returns
  have rejected := E.framing.next_rest buf.content
  rw [error, ← left.content] at rejected
  have kept := defaultErrorCallback_keepsBuffer conn rest errorCode
  simp only [CallResult.failed, kept] at fits ⊢
  refine ⟨errorCode, rfl, ?_⟩
  have start : E.Since rest [] rest := ⟨left.valid, (List.append_nil _).symm, le_refl _⟩
  -- a part of the events appends no more bytes than all of them
  have follows : ∀ done event buf, done ++ [event] <+: events → E.Since rest done buf →
      ∃ entry, event.exec buf = .ok entry ∧ E.Since rest (done ++ [event]) entry.1 ∧
        E.Answered errorCode (done ++ [event]) entry.2 := by
    rintro done event buf ⟨later, rfl⟩ since
    have cut : (done ++ [event] ++ later).flatMap Event.bytes =
        (done ++ [event]).flatMap Event.bytes ++ later.flatMap Event.bytes := List.flatMap_append
    refine since.event E frameLocal rejected (E.platform.fits_mono ?_ fits)
    rw [cut, List.length_append]
    omega
  obtain ⟨recorded, run, length, history, -⟩ :=
    runTrace_history (E.Since rest) (E.Answered errorCode) follows [] events rfl start
  refine ⟨recorded, run, length, ?_⟩
  intro i entry found
  obtain ⟨since, answered⟩ := history i entry found
  refine ⟨since.content, ?_⟩
  intro conn vecMessagePtr event
  apply answered
  rw [List.nil_append, List.getLast?_take, if_neg (Nat.succ_ne_zero i), Nat.add_sub_cancel, event]
  rfl

/-- Fourteen zero bytes announce an invalid length; bytes that arrive later do
not help. -/
theorem errors_absorb_zeros :
    ∃ buf result, buf.Valid flagEnv.platform ∧
      flagEnv.parseMessages defaultErrorCallback (some .kConnected) buf [] = .ok result ∧
      result.ret = -1 ∧
      ∃ errorCode, result.errors = [errorCode] ∧
        ∃ recorded, runTrace (Event.exec (E := flagEnv))
            [.append [1, 2], .parseMessages none []] result.buf = .ok recorded ∧
          recorded.length = 2 := by
  obtain ⟨buf, -, done⟩ := Buffer.append_all_spec (List.replicate 14 0)
    (Buffer.fresh_valid flagEnv.platform) (by decide)
  have content : buf.content = List.replicate 14 0 := by
    rw [done.content, Buffer.content_fresh, List.nil_append]
  have rejected : flagEnv.next buf.content = .reject (.code .kInvalidLength) := by
    rw [content]
    rfl
  have drained : flagEnv.framing.drain buf.content = _ := Framing.drain_of_reject rejected
  obtain ⟨rest, left, returns⟩ := flagEnv.parseMessages_spec
    (flagEnv.localOn_of_frameLocal flagProtobuf_frameLocal) defaultErrorCallback
    (some .kConnected) [] done.valid trivial
  rw [drained] at returns
  have writer : rest.writerIndex_ ≤ 22 := left.writer_le.trans done.writer_le
  have kept := defaultErrorCallback_keepsBuffer (some .kConnected) rest .kInvalidLength
  refine ⟨buf, _, done.valid, returns, rfl, ?_⟩
  obtain ⟨errorCode, reported, recorded, run, length, -⟩ := flagEnv.errors_absorb
    flagProtobuf_frameLocal done.valid (some .kConnected) [] returns rfl
    [.append [1, 2], .parseMessages none []]
    (flagEnv.platform.fits_mono (by
      simp only [CallResult.failed, kept]
      exact Nat.add_le_add_right (Nat.add_le_add_right writer 2) kCheapPrepend)
      (show flagEnv.platform.fits 32 = true by decide))
  exact ⟨errorCode, reported, recorded, run, length⟩

end CodecEnv

end AirNet.Net
