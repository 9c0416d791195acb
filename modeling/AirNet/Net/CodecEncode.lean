import AirNet.Net.BufferReach
import AirNet.Net.CodecStream

/-!
# What the encoder emits

`FillEmptyBuffer` works in a buffer that may have been used before: the vector
has some size, and old bytes lie around the indices. On a 64-bit host the result
does not depend on any of this. A buffer without readable bytes, whatever its
history, is filled with the frame of the message, and four bytes stay free in
front of it (`fillEmptyBuffer_writes_frame`).

The length in front of the frame is checked by the receiver alone. The encoder
writes it for every message, cast to an `int32_t`. So a frame is within the
limits exactly when the type name and the message are small enough, and a peer
that receives another frame, complete and undamaged, reports `kInvalidLength`
(`emitted_length_allowed_iff`).
-/

set_option autoImplicit false

namespace AirNet.Net

open AirNet.Cpp

namespace CodecEnv

variable {E : CodecEnv} {ndebug bigEndian : Bool}

/-! ## Filling a buffer with any history -/

section

variable {ι : Type} [DecidableEq ι] {buffers : ι → Buffer}

theorem fillEmptyBuffer_of_arises (host : E.platform = .lp64 ndebug bigEndian)
    (arises : Call.Arises E.platform buffers) (i : ι)
    (empty : (buffers i).readableBytes E.platform = 0) (message : E.protobuf.Message)
    (size : E.protobuf.byteSize message =
      (E.protobuf.serializeWithCachedSizesToArray message).length)
    (nameShort : (E.protobuf.getTypeName message).length + 1 < 2 ^ 31)
    (short : (E.protobuf.getTypeName message).length +
      (E.protobuf.serializeWithCachedSizesToArray message).length + 9 < 2 ^ 32) :
    ∃ filled, E.fillEmptyBuffer message (buffers i) =
        (E.dcheckInitialized message >>= fun _ => .ok filled) ∧
      filled.Valid E.platform ∧
      filled.content = E.frame (E.protobuf.getTypeName message)
        (E.protobuf.serializeWithCachedSizesToArray message) ∧
      filled.readerIndex_ = 4 := by
  have valid : (buffers i).Valid E.platform := by
    rw [host] at arises ⊢
    exact arises.valid i
  have fits : E.platform.fits ((E.protobuf.getTypeName message).length +
      (E.protobuf.serializeWithCachedSizesToArray message).length + 9 + 2 * kCheapPrepend) =
        true := by
    rw [host]
    refine decide_eq_true ?_
    rw [kCheapPrepend]
    omega
  exact E.fillEmptyBuffer_eq rfl rfl size nameShort short valid empty fits

/-- **The encoder writes the frame, whatever the history of the buffer.** Every
assertion on the way holds for a message that is initialized, or where
`GOOGLE_DCHECK` is compiled out. -/
theorem fillEmptyBuffer_writes_frame (host : E.platform = .lp64 ndebug bigEndian)
    (arises : Call.Arises E.platform buffers) (i : ι)
    (empty : (buffers i).readableBytes E.platform = 0) (message : E.protobuf.Message)
    (checked : E.protobuf.isInitialized message = true ∨ E.platform.ndebug = true)
    (size : E.protobuf.byteSize message =
      (E.protobuf.serializeWithCachedSizesToArray message).length)
    (short : (E.protobuf.getTypeName message).length +
      (E.protobuf.serializeWithCachedSizesToArray message).length + 9 < 2 ^ 31) :
    ∃ filled, E.fillEmptyBuffer message (buffers i) = .ok filled ∧
      filled.content = E.frame (E.protobuf.getTypeName message)
        (E.protobuf.serializeWithCachedSizesToArray message) ∧
      filled.prependableBytes = 4 := by
  obtain ⟨filled, fills, -, content, reader⟩ :=
    fillEmptyBuffer_of_arises host arises i empty message size (by omega) (by omega)
  have passes : E.dcheckInitialized message = .ok () := if_pos checked.symm
  rw [passes] at fills
  exact ⟨filled, fills, content, reader⟩

end

/-! ## The length that the receiver checks -/

/-- The receiver allows the length of a frame exactly up to the limit, also
where the cast to `int32_t` has changed its sign. -/
theorem lengthAllowed_frame_iff {name data : Bytes} (named : name ≠ [])
    (short : name.length + data.length + 9 < 2 ^ 32) :
    LengthAllowed (E.frame name data) ↔
      (name.length + data.length + 9 : Int) ≤ kMaxMessageLen := by
  have positive := List.length_pos_iff.mpr named
  rw [LengthAllowed, frame, frontInt_beBytes_append, BitVec.toInt_eq_toNat_cond,
    toNat_ofNat_of_lt short]
  simp only [kMaxMessageLen, kMinMessageLen, kHeaderLen, kCheckSumLen]
  split
  · omega
  · omega

section

variable {γ : Type} (errorCallback : γ → Buffer → ErrorCode → γ × Buffer) (conn : γ)
  {inbox : Buffer} {name data : Bytes}

/-- One round on a complete frame delivers its message or rejects it. -/
theorem nextIn_frame (peer : CodecEnv) (mem : Bytes) (named : name ≠ [])
    (allowed : LengthAllowed (E.frame name data))
    (short : name.length + data.length + 9 < 2 ^ 32) :
    (∀ message, peer.decode (mem.drop 4) (name.length + data.length + 9) = .ok message →
      peer.nextIn mem (E.frame name data) =
        .deliver message (name.length + data.length + 9 + 4)) ∧
    ∀ failure, peer.decode (mem.drop 4) (name.length + data.length + 9) = .error failure →
      peer.nextIn mem (E.frame name data) = .reject failure := by
  have positive := List.length_pos_iff.mpr named
  have length := E.length_frame name data
  have limit := (lengthAllowed_frame_iff named short).mp allowed
  rw [kMaxMessageLen] at limit
  have isLen : frameLen (E.frame name data) = name.length + data.length + 9 := by
    rw [frameLen, frame, frontInt_beBytes_append, toInt_ofNat_of_lt (by omega), Int.toNat_natCast]
  rw [nextIn, if_neg (by omega), if_neg (not_not_intro allowed), isLen, if_neg (by omega)]
  refine ⟨fun message decoded => ?_, fun failure decoded => ?_⟩
  · rw [decoded]
  · rw [decoded]

/-- The name of an encoded message leaves room for the data and the checksum, so
no peer passes a negative size on. -/
theorem not_throws_frame (peer : CodecEnv) {mem : Bytes} (isPrefix : E.frame name data <+: mem)
    (short : name.length + 1 < 2 ^ 31) (fault : Fault) :
    ¬ peer.Throws (mem.drop 4) (name.length + data.length + 9) fault := by
  obtain ⟨behind, rfl⟩ := isPrefix
  rintro ⟨-, ⟨tight, -⟩, -⟩
  rw [frame, List.append_assoc, List.drop_left' (length_beBytes 4 _), body_append,
    frontInt_beBytes_append, toInt_ofNat_of_lt short] at tight
  omega

/-- `ParseMessages` on a complete frame reports `kInvalidLength` exactly when
the length is not allowed. -/
theorem parseMessages_frame (peer : CodecEnv) (vecMessagePtr : List peer.protobuf.Message)
    (valid : inbox.Valid peer.platform) (content : inbox.content = E.frame name data)
    (named : name ≠ []) (short : name.length + data.length + 9 < 2 ^ 32) :
    ∃ result, peer.parseMessages errorCallback conn inbox vecMessagePtr = .ok result ∧
      (.kInvalidLength ∈ result.errors ↔ ¬ LengthAllowed (E.frame name data)) := by
  have length := E.length_frame name data
  have positive := List.length_pos_iff.mpr named
  have readable : inbox.readableBytes peer.platform = name.length + data.length + 9 + 4 := by
    rw [← valid.length_content, content, length]
  have isPrefix := content_prefix_peek inbox
  rw [content] at isPrefix
  rw [parseMessages, peer.parseLoop_round errorCallback conn _ vecMessagePtr valid, content]
  by_cases allowed : LengthAllowed (E.frame name data)
  · obtain ⟨delivers, rejects⟩ := nextIn_frame peer inbox.peek named allowed short
    have limit := (lengthAllowed_frame_iff named short).mp allowed
    rw [kMaxMessageLen] at limit
    rcases decoded : peer.decode (inbox.peek.drop 4) (name.length + data.length + 9) with
      (errorCode | fault) | message
    · rw [rejects _ decoded]
      refine ⟨_, rfl, iff_of_false (fun reported => ?_) (not_not_intro allowed)⟩
      have isCode : .kInvalidLength = errorCode := List.mem_singleton.mp reported
      exact absurd (peer.code_of_decode decoded) (isCode ▸ by decide)
    · have inside : name.length + data.length + 9 ≤ (inbox.peek.drop 4).length := by
        have longer := isPrefix.length_le
        rw [List.length_drop]
        omega
      exact absurd ((peer.decode_eq_thrown_iff (by omega) inside).mp decoded)
        (not_throws_frame peer isPrefix (by omega) fault)
    · -- nothing is left for the second round
      obtain ⟨rest, retrieved, consumed⟩ := Buffer.retrieve_spec valid readable.ge
      have nothing : rest.content = [] := by
        rw [consumed.content, content, List.drop_of_length_le (by rw [length])]
      rw [delivers message decoded]
      simp only [retrieved, ok_bind, readable]
      rw [peer.parseLoop_round errorCallback conn _ _ consumed.valid, nothing]
      exact ⟨_, rfl, iff_of_false List.not_mem_nil (not_not_intro allowed)⟩
  · have rejects : peer.nextIn inbox.peek (E.frame name data) =
        .reject (.code .kInvalidLength) := by
      rw [nextIn, if_neg (by omega), if_pos allowed]
    rw [rejects]
    exact ⟨_, rfl, iff_of_true (List.mem_singleton.mpr rfl) allowed⟩

end

/-- **The limits of the receiver and the encoder.** Let a message have a type
name of at most `2^16` bytes and a size below `2^31`. It is encoded if it passes
the checks of the encoder. Then the length prefix is within the limits, and no
peer reports `kInvalidLength` for the complete frame, if and only if name,
message and the nine bytes between and behind them are within the larger limit. -/
theorem emitted_length_allowed_iff (host : E.platform = .lp64 ndebug bigEndian) {ι : Type}
    [DecidableEq ι] {buffers : ι → Buffer} (arises : Call.Arises E.platform buffers) (i : ι)
    (empty : (buffers i).readableBytes E.platform = 0) (message : E.protobuf.Message)
    (named : E.protobuf.getTypeName message ≠ [])
    (nameShort : (E.protobuf.getTypeName message).length ≤ 2 ^ 16)
    (small : E.protobuf.byteSize message < 2 ^ 31) :
    (E.dcheckInitialized message = .ok () →
      E.protobuf.byteSize message =
        (E.protobuf.serializeWithCachedSizesToArray message).length →
      ∃ filled, E.fillEmptyBuffer message (buffers i) = .ok filled) ∧
    ∀ filled, E.fillEmptyBuffer message (buffers i) = .ok filled →
      ((kMinMessageLen ≤ frontInt 4 filled.content ∧
          frontInt 4 filled.content ≤ kMaxMessageLen ∧
          ∀ (peer : CodecEnv) (γ : Type) (errorCallback : γ → Buffer → ErrorCode → γ × Buffer)
            (conn : γ) (inbox : Buffer) (vecMessagePtr : List peer.protobuf.Message),
            inbox.Valid peer.platform → inbox.content = filled.content →
            ∃ result, peer.parseMessages errorCallback conn inbox vecMessagePtr = .ok result ∧
              .kInvalidLength ∉ result.errors) ↔
        (E.protobuf.getTypeName message).length + E.protobuf.byteSize message + 9 ≤
          kMaxMessageLen) := by
  have fills := fun size => fillEmptyBuffer_of_arises host arises i empty message size
    (by omega) (by omega)
  refine ⟨fun checked size => ?_, fun filled produced => ?_⟩
  · obtain ⟨filled, fills, -⟩ := fills size
    rw [checked] at fills
    exact ⟨filled, fills⟩
  obtain ⟨checked, size⟩ := E.checked_of_fillEmptyBuffer produced
  obtain ⟨other, fills, -, content, -⟩ := fills size
  rw [checked, produced] at fills
  obtain rfl : filled = other := Except.ok.inj fills
  have short : (E.protobuf.getTypeName message).length +
      (E.protobuf.serializeWithCachedSizesToArray message).length + 9 < 2 ^ 32 := by
    omega
  rw [content, size, ← lengthAllowed_frame_iff named short]
  constructor
  · rintro ⟨lower, upper, -⟩
    exact not_or.mpr ⟨Int.not_lt.mpr upper, Int.not_lt.mpr lower⟩
  · intro allowed
    obtain ⟨upper, lower⟩ := not_or.mp allowed
    refine ⟨Int.not_lt.mp lower, Int.not_lt.mp upper, ?_⟩
    intro peer γ errorCallback conn inbox vecMessagePtr valid received
    obtain ⟨result, returns, reported⟩ :=
      parseMessages_frame errorCallback conn peer vecMessagePtr valid received named short
    exact ⟨result, returns, fun reports => reported.mp reports allowed⟩

end CodecEnv

/-! ## Messages that are any bytes -/

/-- The name `Blob`. -/
def blobName : Bytes := [66, 108, 111, 98]

/-- The library linked with the one type `Blob`, whose messages are byte strings. -/
def blobProtobuf : Protobuf where
  Message := Bytes
  Descriptor := Unit
  getTypeName _ := blobName
  isInitialized _ := true
  byteSize message := message.length
  serializeWithCachedSizesToArray message := message
  findMessageTypeByName name := if cString name = blobName then some () else none
  getPrototype _ := some []
  newMessage _ := []
  parseFromArray _ data size := .ok (if 0 ≤ size then some (data.take size.toNat) else none)
  parse_isInitialized _ := rfl
  parse_returns _ _ _ _ := ⟨_, rfl⟩
  parse_negative negative parsed := by
    rw [if_neg (Int.not_le.mpr negative)] at parsed
    cases parsed

def blobEnv : CodecEnv where
  platform := .lp64 false false
  protobuf := blobProtobuf
  adler32 := adler32

theorem fresh_arises : Call.Arises blobEnv.platform (fun _ : Unit => Buffer.fresh) := .refl

theorem fresh_unread : Buffer.fresh.readableBytes blobEnv.platform = 0 := by decide +kernel

/-- A blob of three bytes in a buffer in which other bytes were written before. -/
theorem fillEmptyBuffer_writes_frame_blob :
    ∃ stale filled : Buffer, [9, 9, 9] <+: stale.peek ∧
      blobEnv.fillEmptyBuffer [1, 2, 3] stale = .ok filled ∧
      filled.content = blobEnv.frame blobName [1, 2, 3] ∧ filled.prependableBytes = 4 := by
  obtain ⟨stale, arises, unread, past⟩ :=
    Call.exists_arises_stale false false [9, 9, 9] (by decide)
  obtain ⟨filled, fills, content, front⟩ :=
    CodecEnv.fillEmptyBuffer_writes_frame (E := blobEnv) rfl arises () unread [1, 2, 3]
      (.inl rfl) rfl (by decide)
  exact ⟨stale, filled, past, fills, content, front⟩

/-- The library linked with the type `Flag`, where the field is required. -/
def requiredProtobuf : Protobuf :=
  { flagProtobuf with
    isInitialized := Option.isSome
    parseFromArray := fun _ data size =>
      .ok (if 0 ≤ size then (readFlag (data.take size.toNat)).filter Option.isSome else none)
    parse_isInitialized := by
      intro message parsed data size accepted
      have accepted := Except.ok.inj accepted
      split at accepted
      · exact (Option.filter_eq_some_iff.mp accepted).2
      · cases accepted
    parse_returns := fun _ _ _ _ => ⟨_, rfl⟩
    parse_negative := by
      intro message parsed data size negative accepted
      rw [if_neg (Int.not_le.mpr negative)] at accepted
      cases accepted }

/-- A debug build with it. -/
def requiredEnv : CodecEnv where
  platform := .lp64 false false
  protobuf := requiredProtobuf
  adler32 := adler32

/-- A debug build ends where a message without its required field is encoded,
although its size is right and the buffer was just constructed. -/
theorem uninitialized_message_aborts :
    requiredEnv.protobuf.byteSize none =
        (requiredEnv.protobuf.serializeWithCachedSizesToArray none).length ∧
      requiredEnv.fillEmptyBuffer none .fresh =
        .error (.fatal "Check failed: message.IsInitialized()") := by
  have arises : Call.Arises requiredEnv.platform (fun _ : Unit => Buffer.fresh) := .refl
  have unread : Buffer.fresh.readableBytes requiredEnv.platform = 0 := by decide +kernel
  obtain ⟨filled, fills, -⟩ := CodecEnv.fillEmptyBuffer_of_arises (E := requiredEnv) rfl arises
    () unread none rfl (by decide) (by decide)
  exact ⟨rfl, fills⟩

/-- No peer rejects the length of a blob of three bytes. -/
theorem emitted_length_allowed_iff_blob :
    ∃ filled, blobEnv.fillEmptyBuffer [1, 2, 3] .fresh = .ok filled ∧
      kMinMessageLen ≤ frontInt 4 filled.content ∧
      frontInt 4 filled.content ≤ kMaxMessageLen := by
  obtain ⟨returns, allowed⟩ := CodecEnv.emitted_length_allowed_iff (E := blobEnv) rfl
    fresh_arises () fresh_unread [1, 2, 3] (by decide) (by decide) (by decide)
  obtain ⟨filled, fills⟩ := returns rfl rfl
  obtain ⟨lower, upper, -⟩ := (allowed filled fills).mpr (by decide)
  exact ⟨filled, fills, lower, upper⟩

/-- The frame of a blob that is too large for the receiver. -/
theorem blob_rejected (message : Bytes) (large : 2 ^ 26 ≤ message.length)
    (small : message.length < 2 ^ 31) :
    ∃ filled result, blobEnv.fillEmptyBuffer message .fresh = .ok filled ∧
      filled.content = blobEnv.frame blobName message ∧
      blobEnv.parseMessages defaultErrorCallback (some .kConnected) filled [] = .ok result ∧
      .kInvalidLength ∈ result.errors := by
  have named : blobName ≠ [] := by decide
  have nameLength : blobName.length = 4 := rfl
  have short : blobName.length + message.length + 9 < 2 ^ 32 := by omega
  obtain ⟨filled, fills, valid, written, -⟩ := CodecEnv.fillEmptyBuffer_of_arises (E := blobEnv)
    rfl fresh_arises () fresh_unread message rfl (show blobName.length + 1 < 2 ^ 31 by decide)
    short
  have content : filled.content = blobEnv.frame blobName message := written
  obtain ⟨result, returns, reported⟩ := CodecEnv.parseMessages_frame defaultErrorCallback
    (some .kConnected) blobEnv [] valid content named short
  refine ⟨filled, result, fills, content, returns, reported.mpr ?_⟩
  rw [CodecEnv.lengthAllowed_frame_iff named short, nameLength, kMaxMessageLen]
  omega

/-- A blob of 64 MiB is emitted with a length above the limit, and the receiver
rejects the complete frame. -/
theorem oversized_frame_is_emitted :
    ∃ filled result, blobEnv.fillEmptyBuffer (List.replicate (2 ^ 26) 0) .fresh = .ok filled ∧
      frontInt 4 filled.content = 67108877 ∧ kMaxMessageLen < frontInt 4 filled.content ∧
      blobEnv.parseMessages defaultErrorCallback (some .kConnected) filled [] = .ok result ∧
      .kInvalidLength ∈ result.errors := by
  have length : (List.replicate (2 ^ 26) (0 : UInt8)).length = 2 ^ 26 := List.length_replicate
  obtain ⟨filled, result, fills, content, returns, reported⟩ :=
    blob_rejected (List.replicate (2 ^ 26) 0) length.ge (by rw [length]; decide)
  have front : frontInt 4 filled.content = 67108877 := by
    have nameLength : blobName.length = 4 := rfl
    rw [content, CodecEnv.frame, frontInt_beBytes_append, length, nameLength]
    decide
  refine ⟨filled, result, fills, front, ?_, returns, reported⟩
  rw [front]
  decide

end AirNet.Net
