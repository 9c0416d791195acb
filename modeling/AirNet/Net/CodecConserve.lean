import AirNet.Net.CodecStream

/-!
# A call of `ParseMessages` conserves the stream

A call splits the readable bytes into the frames it consumes and the bytes it
leaves. Every consumed frame is a length within the limits and that many bytes
which `Parse` accepts, and its message is what `Parse` returned for it; the
messages are appended to the vector in the order of their frames. What is left
is a frame that has not arrived completely, and the call returns 0; or it begins
with a length outside the limits or with a complete frame that `Parse` rejects,
and the call returns -1 after one call of the error callback (`Conserves`).

There is a third way to end. When the call gets to a frame whose name length
reaches into its last eight bytes, `ParseFromArray` may be called with a negative
size and throw, and the exception leaves `ParseMessages`. That is the only
exception: the call conserves the stream exactly when it gets to no such frame
(`parseMessages_conserves_iff`).

Of the protobuf library it is assumed that a range of bytes that is there is
parsed without an exception and that a negative size never succeeds. `Parse` is
given a pointer into the vector, so what it accepts is the frame together with
the bytes behind it; where the library looks only at the frame, it is the frame
alone.
-/

set_option autoImplicit false

namespace AirNet.Net

open AirNet.Cpp AirNet.Lib

namespace CodecEnv

variable (E : CodecEnv)

/-! ## The exits of the loop -/

/-- A frame that has not arrived completely, as far as its length is known. -/
def Incomplete (stream : Bytes) : Prop :=
  stream.length < 14 ∨ LengthAllowed stream ∧ stream.length < frameLen stream + 4

instance (stream : Bytes) : Decidable (Incomplete stream) :=
  inferInstanceAs (Decidable (_ ∨ _))

/-- The stream, at the front of memory, begins with a frame to which the error
code belongs: its length is outside the limits, or it is complete and `Parse`
rejects it. -/
def Offends (mem stream : Bytes) (errorCode : ErrorCode) : Prop :=
  ¬ LengthAllowed stream ∧ errorCode = .kInvalidLength ∨
  LengthAllowed stream ∧ frameLen stream + 4 ≤ stream.length ∧
    E.parse (mem.drop 4) (frameLen stream) = .ok (none, errorCode)

/-- The stream, at the front of memory, begins with a complete frame for which
`ParseFromArray` throws. -/
def Overruns (mem stream : Bytes) (fault : Fault) : Prop :=
  LengthAllowed stream ∧ frameLen stream + 4 ≤ stream.length ∧
    E.Throws (mem.drop 4) (frameLen stream) fault

/-- Frames that `Parse` accepts stand in front, in memory and in the stream. -/
inductive Reaches : (mem stream mem' stream' : Bytes) → Prop where
  | here (mem stream : Bytes) : Reaches mem stream mem stream
  | behind {mem stream mem' stream' : Bytes} {message : E.protobuf.Message}
      (allowed : LengthAllowed stream) (whole : frameLen stream + 4 ≤ stream.length)
      (accepted : E.parse (mem.drop 4) (frameLen stream) = .ok (some message, .kNoError))
      (further : Reaches (mem.drop (frameLen stream + 4)) (stream.drop (frameLen stream + 4))
        mem' stream') : Reaches mem stream mem' stream'

/-- Less than the longest frame is incomplete. -/
theorem Incomplete.length_lt {stream : Bytes} (incomplete : Incomplete stream) :
    (stream.length : Int) < kMaxMessageLen + kHeaderLen := by
  rw [kMaxMessageLen, kHeaderLen]
  rcases incomplete with short | ⟨allowed, partly⟩
  · omega
  · have upper := allowed.bounds.2.2
    omega

variable {mem stream : Bytes}

/-- A complete frame of the stream lies in memory. -/
theorem parse_drop (isPrefix : stream <+: mem) (allowed : LengthAllowed stream)
    (whole : frameLen stream + 4 ≤ stream.length) :
    E.parse (mem.drop 4) (frameLen stream) =
      E.report (E.decode (mem.drop 4) (frameLen stream)) := by
  obtain ⟨-, lower, upper⟩ := allowed.bounds
  have longer := isPrefix.length_le
  refine E.parse_eq lower (by omega) ?_
  rw [List.length_drop]
  omega

variable {E}

theorem incomplete_of_wait (verdict : E.nextIn mem stream = .wait) : Incomplete stream := by
  rw [nextIn] at verdict
  split_ifs at verdict with short allowed partly
  · exact .inl short
  · exact .inr ⟨allowed, partly⟩
  · cases decoded : E.decode (mem.drop 4) (frameLen stream) with
    | ok message =>
        rw [decoded] at verdict
        cases verdict
    | error failure =>
        rw [decoded] at verdict
        cases verdict

/-- A rejected stream has an invalid length, or a complete frame in which
nothing was found. -/
theorem cases_of_reject {failure : Failure} (verdict : E.nextIn mem stream = .reject failure) :
    ¬ Incomplete stream ∧
      (¬ LengthAllowed stream ∧ failure = .code .kInvalidLength ∨
      LengthAllowed stream ∧ frameLen stream + 4 ≤ stream.length ∧
        E.decode (mem.drop 4) (frameLen stream) = .error failure) := by
  rw [nextIn] at verdict
  split_ifs at verdict with short allowed partly
  · have whole := Nat.le_of_not_lt partly
    cases decoded : E.decode (mem.drop 4) (frameLen stream) with
    | ok message =>
        rw [decoded] at verdict
        cases verdict
    | error other =>
        rw [decoded] at verdict
        cases verdict
        refine ⟨?_, .inr ⟨allowed, whole, rfl⟩⟩
        exact fun incomplete => incomplete.elim short fun behind => partly behind.2
  · cases verdict
    refine ⟨?_, .inl ⟨allowed, rfl⟩⟩
    exact fun incomplete => incomplete.elim short fun behind => allowed behind.1

theorem offends_of_reject {errorCode : ErrorCode} (isPrefix : stream <+: mem)
    (verdict : E.nextIn mem stream = .reject (.code errorCode)) :
    ¬ Incomplete stream ∧ errorCode ≠ .kNoError ∧ E.Offends mem stream errorCode := by
  obtain ⟨complete, ⟨outside, same⟩ | ⟨allowed, whole, decoded⟩⟩ := cases_of_reject verdict
  · cases same
    exact ⟨complete, by decide, .inl ⟨outside, rfl⟩⟩
  · have parsed := E.parse_drop isPrefix allowed whole
    rw [decoded] at parsed
    refine ⟨complete, ?_, .inr ⟨allowed, whole, parsed⟩⟩
    rintro rfl
    exact absurd (E.code_of_decode decoded) (by decide)

theorem overruns_of_reject {fault : Fault} (isPrefix : stream <+: mem)
    (verdict : E.nextIn mem stream = .reject (.thrown fault)) : E.Overruns mem stream fault := by
  obtain ⟨-, ⟨-, same⟩ | ⟨allowed, whole, decoded⟩⟩ := cases_of_reject verdict
  · cases same
  · have lower := allowed.bounds.2.1
    have longer := isPrefix.length_le
    exact ⟨allowed, whole, (E.decode_eq_thrown_iff lower
      (by rw [List.length_drop]; omega)).mp decoded⟩

theorem reject_of_overruns {fault : Fault} (isPrefix : stream <+: mem)
    (overruns : E.Overruns mem stream fault) : E.nextIn mem stream = .reject (.thrown fault) := by
  obtain ⟨allowed, whole, throws⟩ := overruns
  have lower := allowed.bounds.2.1
  have longer := isPrefix.length_le
  rw [nextIn, if_neg (by omega), if_neg (not_not_intro allowed), if_neg (by omega),
    (E.decode_eq_thrown_iff lower (by rw [List.length_drop]; omega)).mpr throws]

theorem accepted_of_deliver {message : E.protobuf.Message} {size : Nat}
    (isPrefix : stream <+: mem) (verdict : E.nextIn mem stream = .deliver message size) :
    LengthAllowed stream ∧ size = frameLen stream + 4 ∧ size ≤ stream.length ∧
      E.parse (mem.drop 4) (frameLen stream) = .ok (some message, .kNoError) := by
  rw [nextIn] at verdict
  split_ifs at verdict with short allowed partly
  have whole := Nat.le_of_not_lt partly
  have parsed := E.parse_drop isPrefix allowed whole
  cases decoded : E.decode (mem.drop 4) (frameLen stream) with
  | error failure =>
      rw [decoded] at verdict
      cases verdict
  | ok found =>
      rw [decoded] at verdict parsed
      cases verdict
      exact ⟨allowed, rfl, whole, parsed⟩

theorem deliver_of_accepted {message : E.protobuf.Message} (isPrefix : stream <+: mem)
    (allowed : LengthAllowed stream) (whole : frameLen stream + 4 ≤ stream.length)
    (accepted : E.parse (mem.drop 4) (frameLen stream) = .ok (some message, .kNoError)) :
    E.nextIn mem stream = .deliver message (frameLen stream + 4) := by
  have lower := allowed.bounds.2.1
  have parsed := E.parse_drop isPrefix allowed whole
  rw [accepted] at parsed
  rw [nextIn, if_neg (by omega), if_neg (not_not_intro allowed), if_neg (by omega)]
  rcases decoded : E.decode (mem.drop 4) (frameLen stream) with (errorCode | fault) | found
  · rw [decoded] at parsed
    cases parsed
  · rw [decoded] at parsed
    cases parsed
  · rw [decoded] at parsed
    cases parsed
    rfl

/-! ## The frames consumed -/

variable (E)

/-- The frame is a length within the limits and that many bytes which `Parse`,
called on them where they lie in the vector, accepts with the message. -/
def AcceptedIn (vector frame : Bytes) (message : E.protobuf.Message) : Prop :=
  ∃ body behind, frame = beBytes 4 body.length ++ body ∧ frame ++ behind <:+ vector ∧
    kMinMessageLen ≤ body.length ∧ body.length ≤ kMaxMessageLen ∧
    E.parse (body ++ behind) body.length = .ok (some message, .kNoError)

variable {E}

/-- What is delivered at the front of memory is a frame with its message. -/
theorem acceptedIn_of_deliver {vector : Bytes} {message : E.protobuf.Message} {size : Nat}
    (isPrefix : stream <+: mem) (isSuffix : mem <:+ vector)
    (verdict : E.nextIn mem stream = .deliver message size) :
    E.AcceptedIn vector (stream.take size) message := by
  obtain ⟨allowed, isSize, whole, parsed⟩ := accepted_of_deliver isPrefix verdict
  obtain ⟨isLen, lower, upper⟩ := allowed.bounds
  have longer := isPrefix.length_le
  have front : stream.take size = mem.take size := by
    obtain ⟨more, rfl⟩ := isPrefix
    rw [List.take_append_of_le_length whole]
  have length : ((mem.drop 4).take (frameLen stream)).length = frameLen stream :=
    List.length_take_of_le (by rw [List.length_drop]; omega)
  have field : mem.take 4 = beBytes 4 (frameLen stream) := by
    have same : stream.take 4 = mem.take 4 := by
      obtain ⟨more, rfl⟩ := isPrefix
      rw [List.take_append_of_le_length (by omega)]
    rw [← same, ← frontInt_eq_iff (by omega), isLen, toInt_ofNat_of_lt (by omega)]
  refine ⟨(mem.drop 4).take (frameLen stream), mem.drop size, ?_, ?_, ?_, ?_, ?_⟩
  · rw [front, length, ← field, isSize, Nat.add_comm, List.take_add]
  · rw [front, List.take_append_drop]
    exact isSuffix
  · rw [length]
    exact Int.ofNat_le.mpr lower
  · rw [length]
    exact Int.ofNat_le.mpr upper
  · rw [length, isSize, Nat.add_comm, ← List.drop_drop, List.take_append_drop]
    exact parsed

/-- Where the library looks only at the frame, `Parse` may be given the frame
alone. -/
theorem AcceptedIn.alone (frameLocal : E.protobuf.FrameLocal) {vector frame : Bytes}
    {message : E.protobuf.Message} (accepted : E.AcceptedIn vector frame message) :
    ∃ body, frame = beBytes 4 body.length ++ body ∧
      E.parse body body.length = .ok (some message, .kNoError) := by
  obtain ⟨body, behind, isFrame, -, lower, upper, parsed⟩ := accepted
  have long : 10 ≤ body.length := Int.ofNat_le.mp lower
  have short : body.length ≤ 64 * 1024 * 1024 := Int.ofNat_le.mp upper
  refine ⟨body, isFrame, ?_⟩
  rw [E.parse_eq long (by omega) (by simp), ← E.decode_take frameLocal long, List.take_left]
    at parsed
  rwa [E.parse_eq long (by omega) (le_refl _)]

/-! ## A whole call -/

variable (E) {γ : Type}

/-- How the loop that began on one buffer ended on the buffer it left. -/
def Ends (buf left : Buffer) : Option Failure → Prop
  | none => Incomplete left.content
  | some (.code errorCode) => ¬ Incomplete left.content ∧ errorCode ≠ .kNoError ∧
      E.Offends left.peek left.content errorCode
  | some (.thrown fault) => ∃ mem, E.Reaches buf.peek buf.content mem left.content ∧
      E.Overruns mem left.content fault

/-- Between the two buffers the frames were consumed, with these messages. -/
structure Consumes (buf left : Buffer) (frames : List Bytes)
    (messages : List E.protobuf.Message) : Prop where
  valid : left.Valid E.platform
  buffer : left.buffer_ = buf.buffer_
  content : buf.content = frames.flatten ++ left.content
  accepted : List.Forall₂ (E.AcceptedIn buf.buffer_) frames messages

variable {E}

/-- Nothing can be reached behind the last byte. -/
theorem Reaches.ne_nil {mem' stream' : Bytes} {fault : Fault}
    (reaches : E.Reaches mem stream mem' stream') (overruns : E.Overruns mem' stream' fault) :
    stream ≠ [] := by
  rintro rfl
  cases reaches with
  | here =>
      have whole := overruns.2.1
      rw [List.length_nil] at whole
      omega
  | behind allowed whole accepted further =>
      rw [List.length_nil] at whole
      omega

/-- A frame that was reached behind the first one is reached from it. -/
theorem Ends.of_rest {buf rest left : Buffer} {failure : Option Failure} {size : Nat}
    {message : E.protobuf.Message} (valid : buf.Valid E.platform)
    (verdict : E.nextIn buf.peek buf.content = .deliver message size)
    (retrieved : buf.retrieve E.platform size = .ok rest)
    (content : rest.content = buf.content.drop size) (ends : E.Ends rest left failure) :
    E.Ends buf left failure := by
  rcases failure with _ | errorCode | fault
  · exact ends
  · exact ends
  · obtain ⟨mem, reaches, overruns⟩ := ends
    obtain ⟨allowed, rfl, whole, accepted⟩ :=
      accepted_of_deliver (content_prefix_peek buf) verdict
    have more := reaches.ne_nil overruns
    have part : frameLen buf.content + 4 < buf.readableBytes E.platform := by
      rw [← valid.length_content]
      by_contra all
      exact more (by rw [content, List.drop_of_length_le (by omega)])
    rw [content, Buffer.retrieve_peek valid part retrieved] at reaches
    exact ⟨mem, .behind allowed whole accepted reaches, overruns⟩

variable (E)

theorem parseLoop_conserves (errorCallback : γ → Buffer → ErrorCode → γ × Buffer) (conn : γ)
    {buf : Buffer} (vecMessagePtr : List E.protobuf.Message) (valid : buf.Valid E.platform) :
    ∃ frames messages left failure, E.Consumes buf left frames messages ∧
      E.Ends buf left failure ∧
      ∀ fuel, buf.content.length < fuel →
        E.parseLoop errorCallback conn fuel buf vecMessagePtr =
          E.finish errorCallback conn left (vecMessagePtr ++ messages) failure := by
  -- every round that goes on consumes a frame
  induction size : buf.content.length using Nat.strong_induction_on
    generalizing buf vecMessagePtr with
  | _ length ih =>
      subst size
      have round := fun fuel =>
        E.parseLoop_round errorCallback conn fuel vecMessagePtr valid
      have isPrefix := content_prefix_peek buf
      cases verdict : E.nextIn buf.peek buf.content with
      | wait =>
          refine ⟨[], [], buf, none, ⟨valid, rfl, rfl, .nil⟩, incomplete_of_wait verdict, ?_⟩
          intro fuel enough
          obtain ⟨fuel, rfl⟩ := Nat.exists_eq_add_one_of_ne_zero (Nat.ne_zero_of_lt enough)
          rw [round, verdict, List.append_nil]
      | reject failure =>
          have ends : E.Ends buf buf (some failure) := by
            cases failure with
            | code errorCode => exact offends_of_reject isPrefix verdict
            | thrown fault => exact ⟨_, .here _ _, overruns_of_reject isPrefix verdict⟩
          refine ⟨[], [], buf, some failure, ⟨valid, rfl, rfl, .nil⟩, ends, ?_⟩
          intro fuel enough
          obtain ⟨fuel, rfl⟩ := Nat.exists_eq_add_one_of_ne_zero (Nat.ne_zero_of_lt enough)
          rw [round, verdict, List.append_nil]
      | deliver message size =>
          obtain ⟨-, isSize, whole, -⟩ := accepted_of_deliver isPrefix verdict
          have accepted := acceptedIn_of_deliver isPrefix (List.drop_suffix _ _) verdict
          obtain ⟨rest, retrieved, consumed⟩ :=
            Buffer.retrieve_spec valid (whole.trans_eq valid.length_content)
          have shorter : rest.content.length < buf.content.length := by
            rw [consumed.content, List.length_drop]
            omega
          obtain ⟨frames, messages, left, failure, after, ends, returns⟩ :=
            ih _ shorter (vecMessagePtr ++ [message]) consumed.valid rfl
          refine ⟨buf.content.take size :: frames, message :: messages, left, failure,
            ⟨after.valid, ?_, ?_, ?_⟩, ends.of_rest valid verdict retrieved consumed.content, ?_⟩
          · rw [after.buffer, Buffer.retrieve_buffer retrieved]
          · rw [List.flatten_cons, List.append_assoc, ← after.content, consumed.content,
              List.take_append_drop]
          · have kept := after.accepted
            rw [Buffer.retrieve_buffer retrieved] at kept
            exact .cons accepted kept
          · intro fuel enough
            obtain ⟨fuel, rfl⟩ := Nat.exists_eq_add_one_of_ne_zero (Nat.ne_zero_of_lt enough)
            rw [round, verdict]
            simp only [retrieved, ok_bind]
            rw [returns fuel (by omega), List.append_assoc]
            rfl

/-- A frame for which `ParseFromArray` throws ends the loop when it is reached. -/
theorem parseLoop_of_overruns (errorCallback : γ → Buffer → ErrorCode → γ × Buffer) (conn : γ)
    {mem' stream' : Bytes} {fault : Fault} (reaches : E.Reaches mem stream mem' stream')
    (overruns : E.Overruns mem' stream' fault) {buf : Buffer} (valid : buf.Valid E.platform)
    (isMem : buf.peek = mem) (isStream : buf.content = stream)
    (vecMessagePtr : List E.protobuf.Message) {fuel : Nat} (enough : stream.length < fuel) :
    E.parseLoop errorCallback conn fuel buf vecMessagePtr = .error fault := by
  induction reaches generalizing buf vecMessagePtr fuel with
  | here mem stream =>
      subst isMem isStream
      obtain ⟨fuel, rfl⟩ := Nat.exists_eq_add_one_of_ne_zero (Nat.ne_zero_of_lt enough)
      rw [E.parseLoop_round errorCallback conn fuel vecMessagePtr valid,
        reject_of_overruns (content_prefix_peek buf) overruns]
      rfl
  | @behind mem stream _ _ message allowed whole accepted further ih =>
      subst isMem isStream
      obtain ⟨fuel, rfl⟩ := Nat.exists_eq_add_one_of_ne_zero (Nat.ne_zero_of_lt enough)
      obtain ⟨rest, retrieved, consumed⟩ :=
        Buffer.retrieve_spec valid (whole.trans_eq valid.length_content)
      have part : frameLen buf.content + 4 < buf.readableBytes E.platform := by
        rw [← valid.length_content]
        by_contra all
        exact further.ne_nil overruns (List.drop_of_length_le (by omega))
      rw [E.parseLoop_round errorCallback conn fuel vecMessagePtr valid,
        deliver_of_accepted (content_prefix_peek buf) allowed whole accepted]
      simp only [retrieved, ok_bind]
      refine ih overruns consumed.valid (Buffer.retrieve_peek valid part retrieved)
        consumed.content _ ?_
      rw [List.length_drop]
      omega

/-- The call returns, with any fuel that covers the readable bytes. It appends to
the vector the messages of the frames it consumes, in order, and these frames and
the bytes left are the bytes that were readable. It returns 0 and reports nothing
exactly when what is left is an incomplete frame. Otherwise it returns -1 after
one call of the error callback, with a code other than `kNoError`, on the buffer
that still holds the offending frame. -/
def Conserves (errorCallback : γ → Buffer → ErrorCode → γ × Buffer) (conn : γ) (buf : Buffer)
    (vecMessagePtr : List E.protobuf.Message) : Prop :=
  ∃ frames messages left result, E.Consumes buf left frames messages ∧
    (∀ fuel, buf.content.length < fuel →
      E.parseLoop errorCallback conn fuel buf vecMessagePtr = .ok result) ∧
    E.parseMessages errorCallback conn buf vecMessagePtr = .ok result ∧
    result.vecMessagePtr = vecMessagePtr ++ messages ∧
    (E.protobuf.FrameLocal → List.Forall₂ (fun frame message =>
      ∃ body, frame = beBytes 4 body.length ++ body ∧
        E.parse body body.length = .ok (some message, .kNoError)) frames messages) ∧
    (result.ret = 0 ∧ result.errors = [] ↔ Incomplete left.content) ∧
    (Incomplete left.content → result.buf = left ∧ result.conn = conn ∧
      (left.content.length : Int) < kMaxMessageLen + kHeaderLen) ∧
    (¬ Incomplete left.content → ∃ errorCode, errorCode ≠ .kNoError ∧
      E.Offends left.peek left.content errorCode ∧ result.ret = -1 ∧
      result.errors = [errorCode] ∧
      (result.conn, result.buf) = errorCallback conn left errorCode)

theorem enough_fuel {buf : Buffer} (valid : buf.Valid E.platform) :
    buf.content.length < buf.readableBytes E.platform + 1 := by
  rw [valid.length_content]
  exact Nat.lt_succ_self _

/-- **`ParseMessages` conserves the stream exactly when it gets to no frame for
which `ParseFromArray` throws.**  Such a frame stands behind frames that `Parse`
accepts, has a checksum that agrees, a name length in its last eight bytes that
passes the check, and a name for which a type is found. -/
theorem parseMessages_conserves_iff (errorCallback : γ → Buffer → ErrorCode → γ × Buffer)
    (conn : γ) {buf : Buffer} (vecMessagePtr : List E.protobuf.Message)
    (valid : buf.Valid E.platform) :
    E.Conserves errorCallback conn buf vecMessagePtr ↔
      ∀ mem stream fault, E.Reaches buf.peek buf.content mem stream →
        ¬ E.Overruns mem stream fault := by
  constructor
  · rintro ⟨-, -, -, result, -, -, returns, -⟩ mem stream fault reaches overruns
    have thrown := E.parseLoop_of_overruns errorCallback conn reaches overruns valid rfl rfl
      vecMessagePtr (E.enough_fuel valid)
    cases returns.symm.trans thrown
  · intro quiet
    obtain ⟨frames, messages, left, failure, consumes, ends, returns⟩ :=
      E.parseLoop_conserves errorCallback conn vecMessagePtr valid
    have alone := fun frameLocal =>
      consumes.accepted.imp fun _ _ => AcceptedIn.alone frameLocal (E := E)
    rcases failure with _ | errorCode | fault
    · have incomplete : Incomplete left.content := ends
      refine ⟨frames, messages, left, _, consumes, returns, returns _ (E.enough_fuel valid), rfl,
        alone, iff_of_true ⟨rfl, rfl⟩ incomplete, ?_, absurd incomplete⟩
      exact fun _ => ⟨rfl, rfl, incomplete.length_lt⟩
    · obtain ⟨complete, isError, offends⟩ := ends
      refine ⟨frames, messages, left, _, consumes, returns, returns _ (E.enough_fuel valid), rfl,
        alone, iff_of_false ?_ complete, fun incomplete => absurd incomplete complete, ?_⟩
      · rintro ⟨-, none⟩
        cases none
      · exact fun _ => ⟨errorCode, isError, offends, rfl, rfl, rfl⟩
    · obtain ⟨mem, reaches, overruns⟩ := ends
      exact absurd overruns (quiet mem left.content fault reaches)

/-- A frame of `Flag` and two bytes of the next one. -/
theorem parseMessages_conserves_flag :
    ∃ buf, buf.Valid flagEnv.platform ∧ buf.content = flagEnv.frame flagName [8, 1] ++ [0, 0] ∧
      flagEnv.Conserves defaultErrorCallback (some .kConnected) buf [] := by
  obtain ⟨buf, -, done⟩ := Buffer.append_all_spec (flagEnv.frame flagName [8, 1] ++ [0, 0])
    (Buffer.fresh_valid flagEnv.platform) (by decide)
  refine ⟨buf, done.valid, ?_, ?_⟩
  · rw [done.content, Buffer.content_fresh, List.nil_append]
  · refine (flagEnv.parseMessages_conserves_iff defaultErrorCallback (some .kConnected) []
      done.valid).mpr ?_
    intro mem stream fault _ overruns
    exact flagEnv_not_throws overruns.2.2

end CodecEnv

/-! ## A message type with one optional string field -/

/-- The name `User`. -/
def userName : Bytes := [85, 115, 101, 114]

def readUser : Bytes → Option (Option Bytes)
  | [] => some none
  | 10 :: size :: text => if text.length = size.toNat then some (some text) else none
  | _ => none

/-- With a negative size the tag and the length of the string are read from
beyond the end. Then a negative number of bytes is left and appended to the
string, as a `size_t`. -/
def overreadUser : Bytes → Except Fault (Option (Option Bytes))
  | 10 :: _ :: _ => .error .lengthError
  | _ => .ok none

/-- The library linked with the one type `User`, for strings of less than 128
bytes. -/
def userProtobuf : Protobuf where
  Message := Option Bytes
  Descriptor := Unit
  getTypeName _ := userName
  isInitialized _ := true
  byteSize message := (message.elim 0 fun text => text.length + 2 : Nat)
  serializeWithCachedSizesToArray message :=
    message.elim [] fun text => 10 :: UInt8.ofNat text.length :: text
  findMessageTypeByName name := if cString name = userName then some () else none
  getPrototype _ := some none
  newMessage _ := none
  parseFromArray _ data size :=
    if 0 ≤ size then .ok (readUser (data.take size.toNat)) else overreadUser data
  parse_isInitialized _ := rfl
  parse_returns _ _ _ _ := ⟨_, if_pos (Int.natCast_nonneg _)⟩
  parse_negative := by
    intro message parsed data size negative
    rw [if_neg (Int.not_le.mpr negative)]
    unfold overreadUser
    split <;> simp

def userEnv : CodecEnv where
  platform := .lp64 false false
  protobuf := userProtobuf
  adler32 := adler32

/-- A frame whose body is the name length, the name `User`, and the checksum
04 0A 01 A5 of both. The data begins in the checksum, at the byte 0A, which is the
tag of the string. -/
def userFrame : Bytes := [0, 0, 0, 12, 0, 0, 0, 5, 85, 115, 101, 114, 4, 10, 1, 165]

theorem userFrame_throws (more : Bytes) :
    userEnv.Throws ((userFrame ++ more).drop 4) 12 .lengthError := by
  have front : frontInt 4 ((userFrame ++ more).drop 4) = 5 := by
    rw [show (userFrame ++ more).drop 4 = userFrame.drop 4 ++ more from rfl,
      frontInt_append more (by decide)]
    decide
  have isNameLen : CodecEnv.nameLen ((userFrame ++ more).drop 4) = 5 := by
    rw [CodecEnv.nameLen, front]
    rfl
  refine ⟨?_, by rw [front]; decide, none, ?_, ?_⟩
  · have field : ((userFrame ++ more).drop 4).drop 8 = [4, 10, 1, 165] ++ more := rfl
    have covered : ((userFrame ++ more).drop 4).take 8 = [0, 0, 0, 5, 85, 115, 101, 114] := rfl
    rw [CodecEnv.CheckSumAgrees, field, covered, frontInt_append more (by decide)]
    decide +kernel
  · rw [CodecEnv.nameField, isNameLen]
    rfl
  · rw [isNameLen, front]
    rfl

/-- `ParseMessages` neither returns 0 nor reports an error: `ParseFromArray` is
called with the size -1, and the exception of its string leaves the call. -/
theorem exception_leaves_parseMessages :
    ∃ buf, buf.Valid userEnv.platform ∧ buf.content = userFrame ∧
      userEnv.parseMessages defaultErrorCallback (some .kConnected) buf [] =
        .error .lengthError ∧
      ¬ userEnv.Conserves defaultErrorCallback (some .kConnected) buf [] := by
  obtain ⟨buf, -, done⟩ := Buffer.append_all_spec userFrame
    (Buffer.fresh_valid userEnv.platform) (by decide)
  have content : buf.content = userFrame := by
    rw [done.content, Buffer.content_fresh, List.nil_append]
  obtain ⟨more, isPeek⟩ := CodecEnv.content_prefix_peek buf
  rw [content] at isPeek
  have overruns : userEnv.Overruns buf.peek buf.content .lengthError := by
    rw [content, ← isPeek]
    exact ⟨by decide, by decide, userFrame_throws more⟩
  have thrown : userEnv.parseMessages defaultErrorCallback (some .kConnected) buf [] =
      .error .lengthError :=
    userEnv.parseLoop_of_overruns defaultErrorCallback (some .kConnected) (.here _ _) overruns
      done.valid rfl rfl [] (userEnv.enough_fuel done.valid)
  refine ⟨buf, done.valid, content, thrown, ?_⟩
  rintro ⟨-, -, -, result, -, -, returns, -⟩
  cases returns.symm.trans thrown

end AirNet.Net
