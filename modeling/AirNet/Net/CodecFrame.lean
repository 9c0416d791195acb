import Mathlib.Data.List.TakeWhile
import AirNet.Net.Codec
import AirNet.Net.BufferInvariant

/-!
# Frames: what the encoder writes and what the parser accepts

`FillEmptyBuffer` writes into any valid empty buffer the frame of the message:
the length, the payload, and the checksum of the payload
(`fillEmptyBuffer_spec`). The prefix of four bytes always finds room, because an
empty buffer keeps its reader index at the cheap prepend while bytes are
appended.

`Parse` reads the same fields by their offsets. On a frame that lies in memory
it reports what `decode` finds (`parse_eq`). It accepts a frame exactly when the
frame is a payload with a name for which a type is found, data that the type
accepts, and its checksum; the byte behind the name may be any byte
(`parse_accepts_iff`), while the encoder writes zero there. Otherwise it returns
the null pointer with an error code, or `ParseFromArray` throws, which needs a
name length that reaches into the last eight bytes.
-/

set_option autoImplicit false

namespace AirNet.Net

open AirNet.Cpp AirNet.Lib

/-- `ParseFromArray(data, size)` reads the `size` bytes at `data`. -/
def Protobuf.ReadsArgument (pb : Protobuf) : Prop :=
  ∀ (message : pb.Message) (data : Bytes) (size : Nat),
    pb.parseFromArray message data size = pb.parseFromArray message (data.take size) size

/-- How `Parse` ends without a message: with an error code, or by an exception
of `ParseFromArray`. -/
inductive Failure where
  | code (errorCode : ErrorCode)
  | thrown (fault : Fault)
  deriving DecidableEq, Repr

namespace CodecEnv

variable (E : CodecEnv)

/-! ## The frame -/

/-- The name length, the name, the byte behind it, and the data. -/
def payload (typeName : Bytes) (terminator : UInt8) (data : Bytes) : Bytes :=
  beBytes 4 (typeName.length + 1) ++ typeName ++ [terminator] ++ data

/-- The payload followed by its checksum. -/
def body (typeName : Bytes) (terminator : UInt8) (data : Bytes) : Bytes :=
  payload typeName terminator data ++ beBytes 4 (E.adler32 1 (payload typeName terminator data))

/-- The length, the payload and the checksum, as the encoder writes them. -/
def frame (typeName data : Bytes) : Bytes :=
  beBytes 4 (typeName.length + data.length + 9) ++ E.body typeName 0 data

theorem length_payload (typeName : Bytes) (terminator : UInt8) (data : Bytes) :
    (payload typeName terminator data).length = typeName.length + data.length + 5 := by
  simp only [payload, List.length_append, length_beBytes, List.length_singleton]
  omega

theorem length_body (typeName : Bytes) (terminator : UInt8) (data : Bytes) :
    (E.body typeName terminator data).length = typeName.length + data.length + 9 := by
  rw [body, List.length_append, length_payload, length_beBytes]

theorem length_frame (typeName data : Bytes) :
    (E.frame typeName data).length = typeName.length + data.length + 13 := by
  rw [frame, List.length_append, length_body, length_beBytes]
  omega

/-! ## Encoding -/

/-- What the encoder relies on: the message may be serialized, it produces as
many bytes as announced, and its frame is shorter than `2^31`. -/
structure Serializable (message : E.protobuf.Message) : Prop where
  initialized : E.protobuf.isInitialized message = true
  size : E.protobuf.byteSize message =
    (E.protobuf.serializeWithCachedSizesToArray message).length
  short : (E.protobuf.getTypeName message).length +
    (E.protobuf.serializeWithCachedSizesToArray message).length + 9 < 2 ^ 31

theorem dcheckInitialized_of {message : E.protobuf.Message}
    (initialized : E.protobuf.isInitialized message = true) :
    E.dcheckInitialized message = .ok () :=
  if_pos (Or.inr initialized)

/-- The steps of `FillEmptyBuffer` up to the checksum append the payload. -/
theorem payload_appended {P : Platform} {buf : Buffer} (name data : Bytes) (valid : buf.Valid P)
    (short : name.length + 1 < 2 ^ 32)
    (fits : P.fits (buf.writerIndex_ + (name.length + data.length + 5) + kCheapPrepend) = true) :
    ∃ b₁ b₂ b₃ b₄,
      buf.appendInt P 4 (BitVec.ofNat 32 (name.length + 1)).toNat = .ok b₁ ∧
      b₁.append P (name ++ [0]) (name.length + 1) = .ok b₂ ∧
      b₂.ensureWritableBytes P data.length = .ok b₃ ∧
      b₃.writeAtBeginWrite data = .ok b₄ ∧
      Buffer.Appended P (payload name 0 data) buf (b₄.hasWritten P data.length) := by
  obtain ⟨b₁, wrote₁, done₁⟩ := Buffer.appendInt_spec 4
    (BitVec.ofNat 32 (name.length + 1)).toNat valid (P.fits_mono (by omega) fits)
  have writer₁ := done₁.writer_le
  rw [length_beBytes] at writer₁
  obtain ⟨b₂, wrote₂, done₂⟩ := Buffer.append_all_spec (name ++ [0]) done₁.valid
    (P.fits_mono (by simp only [List.length_append, List.length_singleton]; omega) fits)
  have writer₂ := done₂.writer_le
  rw [List.length_append, List.length_singleton] at wrote₂ writer₂
  obtain ⟨b₃, wrote₃, roomy⟩ := Buffer.ensureWritableBytes_spec data.length done₂.valid
    (P.fits_mono (by omega) fits)
  obtain ⟨b₄, wrote₄, done₄⟩ := roomy.written
  refine ⟨b₁, b₂, b₃, b₄, wrote₁, wrote₂, wrote₃, wrote₄, ?_⟩
  have appended := (done₁.trans done₂).trans done₄
  rwa [toNat_ofNat_of_lt short, ← List.append_assoc] at appended

/-- The encoder fails at `GOOGLE_DCHECK` or writes the frame. The length of the
frame need only be a 32-bit number, with or without sign. -/
theorem fillEmptyBuffer_eq {message : E.protobuf.Message} {buf : Buffer}
    {name data : Bytes} (isName : E.protobuf.getTypeName message = name)
    (isData : E.protobuf.serializeWithCachedSizesToArray message = data)
    (size : E.protobuf.byteSize message = data.length)
    (nameShort : name.length + 1 < 2 ^ 31) (short : name.length + data.length + 9 < 2 ^ 32)
    (valid : buf.Valid E.platform) (empty : buf.readableBytes E.platform = 0)
    (fits : E.platform.fits (name.length + data.length + 9 + 2 * kCheapPrepend) = true) :
    ∃ buf', E.fillEmptyBuffer message buf =
        (E.dcheckInitialized message >>= fun _ => .ok buf') ∧ buf'.Valid E.platform ∧
      buf'.content = E.frame name data ∧ buf'.readerIndex_ = 4 := by
  obtain ⟨reader, writer⟩ := valid.indices_of_unread empty
  have content := valid.content_of_unread empty
  -- the lengths survive their conversions
  have nameSize : E.platform.sizeAdd name.length 1 = name.length + 1 :=
    E.platform.sizeAdd_eq (by omega) fits
  have nameInt : (BitVec.ofNat 32 (name.length + 1)).toInt = (name.length + 1 : Nat) :=
    toInt_ofNat_of_lt nameShort
  have nameLen : E.platform.sizeOfInt ((name.length + 1 : Nat) : Int) = name.length + 1 :=
    E.platform.sizeOfInt_of_fits (E.platform.fits_mono (by omega) fits)
  have dataLen : E.platform.sizeOfInt ((data.length : Nat) : Int) = data.length :=
    E.platform.sizeOfInt_of_fits (E.platform.fits_mono (by omega) fits)
  -- the payload
  obtain ⟨b₁, b₂, b₃, b₄, wrote₁, wrote₂, wrote₃, wrote₄, payloadDone⟩ :=
    payload_appended name data valid (by omega)
      (E.platform.fits_mono (by omega) fits)
  obtain ⟨b₅, isB₅⟩ : ∃ b₅, b₄.hasWritten E.platform data.length = b₅ := ⟨_, rfl⟩
  rw [isB₅] at payloadDone
  have payloadContent : b₅.content = payload name 0 data := by
    rw [payloadDone.content, content, List.nil_append]
  have covered : b₅.readableBytes E.platform = name.length + data.length + 5 := by
    rw [← payloadDone.valid.length_content, payloadContent, length_payload]
  have writer₅ := payloadDone.writer_le
  rw [length_payload] at writer₅
  have summed : readBytes b₅.peek (BitVec.ofNat 32 (b₅.readableBytes E.platform)).toNat =
      .ok (payload name 0 data) := by
    rw [toNat_ofNat_of_lt (by omega), payloadDone.valid.readBytes_peek, payloadContent]
  -- the checksum
  obtain ⟨b₆, wrote₆, done₆⟩ := Buffer.appendInt_spec 4
    (BitVec.ofNat 32 (E.adler32 1 (payload name 0 data))).toNat payloadDone.valid
    (E.platform.fits_mono (by omega) fits)
  have bodyDone : Buffer.Appended E.platform (E.body name 0 data) buf b₆ := by
    have appended := payloadDone.trans done₆
    rwa [BitVec.toNat_ofNat, show 2 ^ 32 = 256 ^ 4 from rfl, beBytes_mod] at appended
  have total : b₆.readableBytes E.platform = name.length + data.length + 9 := by
    rw [← bodyDone.valid.length_content, bodyDone.content, content, List.nil_append, length_body]
  have announced : E.platform.sizeAdd (E.platform.sizeAdd (E.platform.sizeAdd 4
      (name.length + 1)) data.length) 4 = name.length + data.length + 9 := by
    rw [E.platform.sizeAdd_eq (m := 4) (by omega) fits,
      E.platform.sizeAdd_eq (n := data.length) (by omega) fits,
      E.platform.sizeAdd_eq (by omega) fits]
    omega
  -- the length goes into the cheap prepend
  obtain ⟨b₇, wrote₇, done₇⟩ := Buffer.prependInt_spec 4
    (name.length + data.length + 9) bodyDone.valid
    (by rw [Buffer.prependableBytes, bodyDone.reader reader]; decide)
  refine ⟨b₇, ?_, done₇.valid, ?_, ?_⟩
  · simp only [fillEmptyBuffer, E.platform.assert_of empty, isName, isData, size, nameSize,
      Buffer.appendInt32, wrote₁, nameInt, nameLen, dataLen, wrote₂, wrote₃, wrote₄,
      ok_bind, isB₅, summed, wrote₆, total, announced]
    refine bind_congr fun _ => ?_
    rw [if_neg (fun differs => differs rfl), E.platform.assert_of trivial,
      toNat_ofNat_of_lt (by omega)]
    exact wrote₇
  · rw [done₇.content, bodyDone.content, content, List.nil_append, frame]
  · rw [done₇.reader, bodyDone.reader reader, length_beBytes]
    rfl

/-- The encoder writes the frame of a message that passes its checks. -/
theorem fillEmptyBuffer_of_checked {message : E.protobuf.Message} {buf : Buffer}
    {name data : Bytes} (isName : E.protobuf.getTypeName message = name)
    (isData : E.protobuf.serializeWithCachedSizesToArray message = data)
    (checked : E.dcheckInitialized message = .ok ())
    (size : E.protobuf.byteSize message = data.length)
    (nameShort : name.length + 1 < 2 ^ 31) (short : name.length + data.length + 9 < 2 ^ 32)
    (valid : buf.Valid E.platform) (empty : buf.readableBytes E.platform = 0)
    (fits : E.platform.fits (name.length + data.length + 9 + 2 * kCheapPrepend) = true) :
    ∃ buf', E.fillEmptyBuffer message buf = .ok buf' ∧ buf'.Valid E.platform ∧
      buf'.content = E.frame name data ∧ buf'.readerIndex_ = 4 := by
  obtain ⟨buf', filled, done⟩ :=
    E.fillEmptyBuffer_eq isName isData size nameShort short valid empty fits
  rw [checked] at filled
  exact ⟨buf', filled, done⟩

/-- **The encoder writes the frame.**  The buffer may have any history as long
as it is valid and has no readable bytes. -/
theorem fillEmptyBuffer_spec {message : E.protobuf.Message} {buf : Buffer} {name data : Bytes}
    (isName : E.protobuf.getTypeName message = name)
    (isData : E.protobuf.serializeWithCachedSizesToArray message = data)
    (serializable : E.Serializable message)
    (valid : buf.Valid E.platform) (empty : buf.readableBytes E.platform = 0)
    (fits : E.platform.fits (name.length + data.length + 9 + 2 * kCheapPrepend) = true) :
    ∃ buf', E.fillEmptyBuffer message buf = .ok buf' ∧ buf'.Valid E.platform ∧
      buf'.content = E.frame name data ∧ buf'.readerIndex_ = 4 := by
  obtain ⟨initialized, size, short⟩ := serializable
  rw [isName, isData] at short
  rw [isData] at size
  exact E.fillEmptyBuffer_of_checked isName isData (E.dcheckInitialized_of initialized) size
    (by omega) (by omega) valid empty fits

/-- An encoder that returns has passed its checks. -/
theorem checked_of_fillEmptyBuffer {message : E.protobuf.Message} {buf buf' : Buffer}
    (filled : E.fillEmptyBuffer message buf = .ok buf') :
    E.dcheckInitialized message = .ok () ∧ E.protobuf.byteSize message =
      (E.protobuf.serializeWithCachedSizesToArray message).length := by
  obtain ⟨_, -, filled⟩ := bind_eq_ok.mp filled
  obtain ⟨_, -, filled⟩ := bind_eq_ok.mp filled
  obtain ⟨_, -, filled⟩ := bind_eq_ok.mp filled
  obtain ⟨_, checked, filled⟩ := bind_eq_ok.mp filled
  obtain ⟨_, -, filled⟩ := bind_eq_ok.mp filled
  obtain ⟨_, -, filled⟩ := bind_eq_ok.mp filled
  split_ifs at filled with inconsistent
  · cases filled
  · exact ⟨checked, (not_not.mp inconsistent).symm⟩

/-! ## Decoding -/

/-- The name-length field at the front of `mem`. -/
def nameLen (mem : Bytes) : Nat := (frontInt 4 mem).toNat

/-- The bytes that `Parse` takes for the type name. -/
def nameField (mem : Bytes) : Bytes := (mem.drop 4).take (nameLen mem - 1)

/-- The message object of the type found for the name, filled from the data. -/
def parseNamed (typeName data : Bytes) (dataLen : Int) : Except Failure E.protobuf.Message :=
  match E.protobuf.createMessage typeName with
  | none => .error (.code .kUnknownMessageType)
  | some message =>
      match E.protobuf.parseFromArray message data dataLen with
      | .error fault => .error (.thrown fault)
      | .ok none => .error (.code .kParseError)
      | .ok (some parsed) => .ok parsed

/-- The last four of the `len` bytes hold the checksum of the bytes before. -/
def CheckSumAgrees (mem : Bytes) (len : Nat) : Prop :=
  frontInt 4 (mem.drop (len - 4)) = (BitVec.ofNat 32 (E.adler32 1 (mem.take (len - 4)))).toInt

instance (mem : Bytes) (len : Nat) : Decidable (E.CheckSumAgrees mem len) :=
  inferInstanceAs (Decidable (_ = _))

/-- The check of the name length in `Parse`. -/
def NameLenInRange (mem : Bytes) (len : Nat) : Prop :=
  2 ≤ frontInt 4 mem ∧ frontInt 4 mem ≤ len - 4

instance (mem : Bytes) (len : Nat) : Decidable (NameLenInRange mem len) :=
  inferInstanceAs (Decidable (_ ∧ _))

/-- What `Parse` finds in the `len` bytes at the front of `mem`. -/
def decode (mem : Bytes) (len : Nat) : Except Failure E.protobuf.Message :=
  if E.CheckSumAgrees mem len then
    if NameLenInRange mem len then
      E.parseNamed (nameField mem) (mem.drop (4 + nameLen mem)) (len - nameLen mem - 8)
    else .error (.code .kInvalidNameLen)
  else .error (.code .kCheckSumError)

/-- The pointer and the error code with which `Parse` ends, or the exception. -/
def report : Except Failure E.protobuf.Message →
    Except Fault (Option E.protobuf.Message × ErrorCode)
  | .ok message => .ok (some message, .kNoError)
  | .error (.code errorCode) => .ok (none, errorCode)
  | .error (.thrown fault) => .error fault

/-- What `Parse` does once it has created the message object. -/
def dataEvents (message : E.protobuf.Message) (mem : Bytes) (len : Nat) :
    List (ParseEvent E.protobuf.Message) :=
  [.creates message, .uses (.data ⟨4 + nameLen mem, len - nameLen mem - 8⟩)] ++
    match E.protobuf.parseFromArray message (mem.drop (4 + nameLen mem))
      (len - nameLen mem - 8) with
    | .error _ => []
    | .ok none => [.deletes]
    | .ok (some parsed) => [.fills parsed]

/-- What `Parse` does with the `len` bytes at the front of `mem`. -/
def frameEvents (mem : Bytes) (len : Nat) : List (ParseEvent E.protobuf.Message) :=
  [.uses (.expectedCheckSum ⟨len - 4, 4⟩), .uses (.covered ⟨0, (len - 4 : Nat)⟩)] ++
    if E.CheckSumAgrees mem len then
      .uses (.nameLen ⟨0, 4⟩) ::
        if NameLenInRange mem len then
          .uses (.typeName ⟨4, nameLen mem - 1⟩) ::
            match E.protobuf.createMessage (nameField mem) with
            | none => []
            | some message => E.dataEvents message mem len
        else []
    else []

theorem parseNamed_eq_ok_iff {typeName data : Bytes} {dataLen : Int}
    {parsed : E.protobuf.Message} :
    E.parseNamed typeName data dataLen = .ok parsed ↔
      ∃ message, E.protobuf.createMessage typeName = some message ∧
        E.protobuf.parseFromArray message data dataLen = .ok (some parsed) := by
  unfold parseNamed
  cases E.protobuf.createMessage typeName with
  | none => simp
  | some message =>
      rcases filled : E.protobuf.parseFromArray message data dataLen with _ | _ | _ <;>
        simp [filled]

theorem parseNamed_eq_thrown_iff {typeName data : Bytes} {dataLen : Int} {fault : Fault} :
    E.parseNamed typeName data dataLen = .error (.thrown fault) ↔
      ∃ message, E.protobuf.createMessage typeName = some message ∧
        E.protobuf.parseFromArray message data dataLen = .error fault := by
  unfold parseNamed
  cases E.protobuf.createMessage typeName with
  | none => simp
  | some message =>
      rcases filled : E.protobuf.parseFromArray message data dataLen with _ | _ | _ <;>
        simp [filled]

/-- The codes with which `Parse` reports an error. -/
theorem code_of_decode {mem : Bytes} {len : Nat} {errorCode : ErrorCode}
    (failed : E.decode mem len = .error (.code errorCode)) :
    errorCode ∈ [.kCheckSumError, .kInvalidNameLen, .kUnknownMessageType, .kParseError] := by
  unfold decode parseNamed at failed
  split_ifs at failed
  · split at failed
    · cases failed
      simp
    · split at failed
      · cases failed
      · cases failed
        simp
      · cases failed
  · cases failed
    simp
  · cases failed
    simp

theorem asInt32_eq {buf : Bytes} (inside : 4 ≤ buf.length) :
    E.asInt32 buf = .ok (frontInt 4 buf) := by
  have width : (buf.take 4).length = 4 := List.length_take_of_le inside
  have value := E.platform.networkToHost_ofObjectBytes (buf.take 4)
  rw [width] at value
  simp only [asInt32, readBytes_of_le inside, ok_bind, value]
  rfl

section

variable {mem : Bytes} {len : Nat}

/-- The reads of `Parse` up to the comparison of the checksums. -/
theorem checkSum_reads (lower : 10 ≤ len) (upper : len < 2 ^ 31) (inside : len ≤ mem.length) :
    advance mem (len - kCheckSumLen) = .ok (mem.drop (len - 4)) ∧
    E.asInt32 (mem.drop (len - 4)) = .ok (frontInt 4 (mem.drop (len - 4))) ∧
    (BitVec.ofInt 32 (len - kCheckSumLen)).toNat = len - 4 ∧
    readBytes mem (len - 4) = .ok (mem.take (len - 4)) ∧
    E.asInt32 mem = .ok (frontInt 4 mem) := by
  have short : (len : Int) - kCheckSumLen = ((len - 4 : Nat) : Int) := by
    rw [kCheckSumLen]
    omega
  refine ⟨?_, ?_, ?_, readBytes_of_le (by omega), E.asInt32_eq (by omega)⟩
  · rw [short, advance_of_le (by omega)]
  · exact E.asInt32_eq (by rw [List.length_drop]; omega)
  · rw [short, BitVec.ofInt_natCast, toNat_ofNat_of_lt (by omega)]

theorem frontInt_of_inRange (range : NameLenInRange mem len) : frontInt 4 mem = nameLen mem :=
  (Int.toNat_of_nonneg (le_trans (by decide) range.1)).symm

/-- An accepted name length keeps the name and the start of the data in the
frame. -/
theorem name_reads (inside : len ≤ mem.length) (range : NameLenInRange mem len) :
    advance mem kNamelenLen = .ok (mem.drop 4) ∧
    readBytes (mem.drop 4) (nameLen mem - 1) = .ok (nameField mem) ∧
    advance mem (kNamelenLen + nameLen mem) = .ok (mem.drop (4 + nameLen mem)) := by
  have bounds := range
  rw [NameLenInRange, frontInt_of_inRange range] at bounds
  refine ⟨advance_of_le (show 4 ≤ mem.length by omega), ?_, ?_⟩
  · exact readBytes_of_le (by rw [List.length_drop]; omega)
  · exact advance_of_le (show 4 + nameLen mem ≤ mem.length by omega)

/-- **What `Parse` does on a frame in memory**, and that it reports what `decode`
finds. -/
theorem parseRecorded_eq (lower : 10 ≤ len) (upper : len < 2 ^ 31) (inside : len ≤ mem.length) :
    E.parseRecorded mem len = ⟨E.frameEvents mem len, E.report (E.decode mem len)⟩ := by
  obtain ⟨tail, checkSum, size, covered, nameRead⟩ := E.checkSum_reads lower upper inside
  simp only [parseRecorded, tail, checkSum, size, covered, nameRead, Recorded.record_bind,
    Recorded.lift_ok_bind, Int.toNat_natCast, frameEvents, decode]
  by_cases agrees : E.CheckSumAgrees mem len
  · rw [if_pos agrees.symm, if_pos agrees, if_pos agrees]
    by_cases range : NameLenInRange mem len
    · obtain ⟨name, typeName, data⟩ := name_reads inside range
      have isNameLen := frontInt_of_inRange range
      have inRange : 2 ≤ (nameLen mem : Int) ∧ (nameLen mem : Int) ≤ len - kCheckSumLen :=
        isNameLen ▸ range
      have nameSize : ((nameLen mem : Int) - 1).toNat = nameLen mem - 1 := Int.pred_toNat _
      have dataSize : (len : Int) - nameLen mem - kNamelenLen - kCheckSumLen =
          len - nameLen mem - 8 := by
        rw [kNamelenLen, kCheckSumLen]
        omega
      rw [if_pos range, if_pos range, isNameLen, if_pos inRange]
      simp only [name, nameSize, typeName, data, dataSize, Recorded.lift_ok_bind, parseNamed,
        dataEvents]
      cases E.protobuf.createMessage (nameField mem) with
      | none => rfl
      | some message =>
          dsimp only
          rcases E.protobuf.parseFromArray message (mem.drop (4 + nameLen mem))
            (len - nameLen mem - 8) with _ | _ | _ <;> rfl
    · rw [if_neg range, if_neg range]
      refine congrArg _ (congrArg _ (congrArg _ (if_neg range)))
  · rw [if_neg fun same => agrees same.symm, if_neg agrees, if_neg agrees]
    rfl

/-- **`Parse` on a frame in memory** reports what `decode` finds. -/
theorem parse_eq (lower : 10 ≤ len) (upper : len < 2 ^ 31) (inside : len ≤ mem.length) :
    E.parse mem len = E.report (E.decode mem len) :=
  congrArg Recorded.outcome (E.parseRecorded_eq lower upper inside)

end

/-! ## The grammar of accepted frames -/

theorem body_append (typeName : Bytes) (terminator : UInt8) (data rest : Bytes) :
    E.body typeName terminator data ++ rest =
      beBytes 4 (typeName.length + 1) ++ (typeName ++ ([terminator] ++ (data ++
        (beBytes 4 (E.adler32 1 (payload typeName terminator data)) ++ rest)))) := by
  simp only [body, payload, List.append_assoc]

/-- Decoding a body finds the parts it was made of. -/
theorem decode_body {typeName data : Bytes} (terminator : UInt8) (rest : Bytes)
    (named : typeName ≠ []) (short : typeName.length + data.length + 9 < 2 ^ 31) :
    E.decode (E.body typeName terminator data ++ rest) (typeName.length + data.length + 9) =
      E.parseNamed typeName (data ++
        (beBytes 4 (E.adler32 1 (payload typeName terminator data)) ++ rest)) data.length := by
  have positive := List.length_pos_iff.mpr named
  have width := length_payload typeName terminator data
  have front : frontInt 4 (E.body typeName terminator data ++ rest) = typeName.length + 1 := by
    rw [body_append, frontInt_beBytes_append]
    exact toInt_ofNat_of_lt (by omega)
  have isNameLen : nameLen (E.body typeName terminator data ++ rest) = typeName.length + 1 := by
    rw [nameLen, front]
    omega
  have agrees : E.CheckSumAgrees (E.body typeName terminator data ++ rest)
      (typeName.length + data.length + 9) := by
    have split : typeName.length + data.length + 9 - 4 =
        (payload typeName terminator data).length := by omega
    rw [CheckSumAgrees, split, body, List.append_assoc, List.drop_left, List.take_left,
      frontInt_beBytes_append]
  have range : NameLenInRange (E.body typeName terminator data ++ rest)
      (typeName.length + data.length + 9) := by
    rw [NameLenInRange, front]
    omega
  have name : nameField (E.body typeName terminator data ++ rest) = typeName := by
    rw [nameField, isNameLen, body_append, List.drop_left' (length_beBytes 4 _),
      Nat.add_sub_cancel, List.take_left]
  have behind : (E.body typeName terminator data ++ rest).drop (4 + (typeName.length + 1)) =
      data ++ (beBytes 4 (E.adler32 1 (payload typeName terminator data)) ++ rest) := by
    rw [body_append, ← List.drop_drop, List.drop_left' (length_beBytes 4 _), ← List.drop_drop,
      List.drop_left, List.drop_left' (List.length_singleton)]
  have size : ((typeName.length + data.length + 9 : Nat) : Int) -
      ((typeName.length + 1 : Nat) : Int) - 8 = data.length := by
    omega
  rw [decode, if_pos agrees, if_pos range, name, isNameLen, behind, size]

section

variable {mem : Bytes} {len : Nat}

/-- `Parse` gets to a call of `ParseFromArray` with a negative size, and the
call throws. -/
def Throws (mem : Bytes) (len : Nat) (fault : Fault) : Prop :=
  E.CheckSumAgrees mem len ∧ (len - 8 < frontInt 4 mem ∧ frontInt 4 mem ≤ len - 4) ∧
    ∃ message, E.protobuf.createMessage (nameField mem) = some message ∧
      E.protobuf.parseFromArray message (mem.drop (4 + nameLen mem)) (len - frontInt 4 mem - 8) =
        .error fault

/-- An exception leaves `Parse` exactly on these frames. -/
theorem decode_eq_thrown_iff (lower : 10 ≤ len) (inside : len ≤ mem.length) {fault : Fault} :
    E.decode mem len = .error (.thrown fault) ↔ E.Throws mem len fault := by
  constructor
  · intro decoded
    rw [decode] at decoded
    split_ifs at decoded with agrees range
    · obtain ⟨message, created, thrown⟩ := E.parseNamed_eq_thrown_iff.mp decoded
      have isNameLen := frontInt_of_inRange range
      refine ⟨agrees, ⟨?_, range.2⟩, message, created, by rw [isNameLen]; exact thrown⟩
      by_contra room
      -- a size that is not negative is one of bytes that are there
      obtain ⟨size, isSize⟩ : ∃ size : Nat, (len : Int) - nameLen mem - 8 = size :=
        Int.eq_ofNat_of_zero_le (by omega)
      have there : size ≤ (mem.drop (4 + nameLen mem)).length := by
        rw [List.length_drop]
        omega
      obtain ⟨result, returns⟩ := E.protobuf.parse_returns message there
      rw [isSize, returns] at thrown
      cases thrown
    · cases decoded
    · cases decoded
  · rintro ⟨agrees, ⟨tight, inField⟩, message, created, thrown⟩
    have range : NameLenInRange mem len := ⟨by omega, inField⟩
    rw [frontInt_of_inRange range] at thrown
    rw [decode, if_pos agrees, if_pos range, E.parseNamed_eq_thrown_iff]
    exact ⟨message, created, thrown⟩

end

end CodecEnv

/-! ## A message type with one optional boolean field -/

/-- The name `Flag`. -/
def flagName : Bytes := [70, 108, 97, 103]

/-- The bytes in front of the first zero: the pool looks types up by
`c_str()`. -/
def cString (name : Bytes) : Bytes := name.takeWhile (· ≠ 0)

/-- The wire format of the field with number 1, if it is set. -/
def flagBytes : Option Bool → Bytes
  | none => []
  | some value => [8, if value then 1 else 0]

def readFlag : Bytes → Option (Option Bool)
  | [] => some none
  | [8, 0] => some (some false)
  | [8, 1] => some (some true)
  | _ => none

/-- The library linked with the one type `Flag`. -/
def flagProtobuf : Protobuf where
  Message := Option Bool
  Descriptor := Unit
  getTypeName _ := flagName
  isInitialized _ := true
  byteSize message := (flagBytes message).length
  serializeWithCachedSizesToArray := flagBytes
  findMessageTypeByName name := if cString name = flagName then some () else none
  getPrototype _ := some none
  newMessage _ := none
  parseFromArray _ data size := .ok (if 0 ≤ size then readFlag (data.take size.toNat) else none)
  parse_isInitialized _ := rfl
  parse_returns _ _ _ _ := ⟨_, rfl⟩
  parse_negative negative parsed := by
    rw [if_neg (Int.not_le.mpr negative)] at parsed
    cases parsed

/-- A debug build on a little-endian machine, with the checksum of zlib. -/
def flagEnv : CodecEnv where
  platform := .lp64 false false
  protobuf := flagProtobuf
  adler32 := adler32

theorem flagProtobuf_readsArgument : flagProtobuf.ReadsArgument := by
  intro message data size
  have count : min size size = size := Nat.min_self size
  simp only [flagProtobuf, Int.toNat_natCast, List.take_take, count]

end AirNet.Net
