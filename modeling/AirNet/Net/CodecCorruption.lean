import AirNet.Net.CodecStream

/-!
# A corrupted frame is rejected

The checksum of a frame covers everything between the length and itself, and it
is compared before any of the covered fields is interpreted. With the Adler-32
checksum of zlib one changed byte in the covered part changes the checksum, and
a changed byte of the checksum itself differs from it. So a frame of the encoder
in which one byte behind the length was changed is rejected with
`kCheckSumError`, and nothing is delivered or consumed
(`corruption_is_caught`).
-/

set_option autoImplicit false

namespace AirNet.Net

open AirNet.Cpp AirNet.Lib

namespace CodecEnv

variable (E : CodecEnv)

/-- The checksum field behind the covered bytes. -/
theorem checkSumAgrees_append_iff {covered field : Bytes} (rest : Bytes)
    (width : field.length = 4) :
    E.CheckSumAgrees (covered ++ (field ++ rest)) (covered.length + 4) ↔
      field = beBytes 4 (E.adler32 1 covered) := by
  have long : 4 ≤ (field ++ rest).length := by
    rw [List.length_append]
    omega
  rw [CheckSumAgrees, Nat.add_sub_cancel, List.drop_left, List.take_left, frontInt_eq_iff long,
    List.take_left' width]

/-- A changed byte of the checksum is noticed. -/
theorem not_checkSumAgrees_of_changed_field {covered front after : Bytes} {old new : UInt8}
    (rest : Bytes) (field : beBytes 4 (E.adler32 1 covered) = front ++ old :: after)
    (changed : new ≠ old) :
    ¬ E.CheckSumAgrees (covered ++ (front ++ new :: after ++ rest)) (covered.length + 4) := by
  intro agrees
  have width : (front ++ new :: after).length = 4 := by
    rw [← length_beBytes 4 (E.adler32 1 covered), field]
    simp
  rw [E.checkSumAgrees_append_iff rest width, field] at agrees
  exact changed (List.cons.inj (List.append_cancel_left agrees)).1

variable {E}

/-- A changed byte that the checksum covers is noticed. -/
theorem not_checkSumAgrees_of_changed_covered
    (standard : ∀ bytes, E.adler32 1 bytes = Cpp.adler32 1 bytes) {before after : Bytes}
    {old new : UInt8} (rest : Bytes) (changed : new ≠ old) :
    ¬ E.CheckSumAgrees
      (before ++ new :: after ++ (beBytes 4 (E.adler32 1 (before ++ old :: after)) ++ rest))
      ((before ++ new :: after).length + 4) := by
  intro agrees
  rw [E.checkSumAgrees_append_iff rest (length_beBytes 4 _)] at agrees
  have values := congrArg ofBe agrees
  rw [ofBe_beBytes, ofBe_beBytes, standard, standard] at values
  exact adler32_ne_of_changed before after changed values.symm

/-- One changed byte of the covered bytes and their checksum is noticed. -/
theorem not_checkSumAgrees_of_changed
    (standard : ∀ bytes, E.adler32 1 bytes = Cpp.adler32 1 bytes)
    {covered before after : Bytes} {old new : UInt8} (rest : Bytes)
    (split : covered ++ beBytes 4 (E.adler32 1 covered) = before ++ old :: after)
    (changed : new ≠ old) :
    ¬ E.CheckSumAgrees (before ++ new :: after ++ rest) (covered.length + 4) := by
  rcases List.append_eq_append_iff.mp split with ⟨front, rfl, field⟩ | ⟨tail, isCovered, ends⟩
  · rw [List.append_assoc, List.append_assoc, ← List.append_assoc front]
    exact E.not_checkSumAgrees_of_changed_field rest field changed
  · cases tail with
    | nil =>
        rw [List.append_nil] at isCovered
        subst isCovered
        have field : beBytes 4 (E.adler32 1 covered) = [] ++ old :: after := ends.symm
        have caught := E.not_checkSumAgrees_of_changed_field rest field changed
        rwa [List.nil_append, ← List.append_assoc] at caught
    | cons byte tail =>
        rw [List.cons_append] at ends
        obtain ⟨rfl, rfl⟩ := List.cons.inj ends
        subst isCovered
        have caught : ¬ E.CheckSumAgrees (before ++ new :: tail ++
            (beBytes 4 (E.adler32 1 (before ++ old :: tail)) ++ rest)) _ :=
          not_checkSumAgrees_of_changed_covered standard rest changed
        rw [List.length_append, List.length_cons] at caught ⊢
        rwa [List.append_assoc, List.cons_append, ← List.append_assoc tail, ← List.cons_append,
          ← List.append_assoc] at caught

/-! ## The call -/

/-- A complete frame of an allowed length whose checksum disagrees is rejected,
whatever else it holds. -/
theorem nextIn_of_disagreeing {body rest mem : Bytes} (lower : 10 ≤ body.length)
    (upper : (body.length : Int) ≤ kMaxMessageLen)
    (isPrefix : beBytes 4 body.length ++ (body ++ rest) <+: mem)
    (disagrees : ∀ behind, ¬ E.CheckSumAgrees (body ++ behind) body.length) :
    E.nextIn mem (beBytes 4 body.length ++ (body ++ rest)) = .reject (.code .kCheckSumError) := by
  have small : body.length < 2 ^ 31 := by
    rw [kMaxMessageLen] at upper
    omega
  have announced : frontInt 4 (beBytes 4 body.length ++ (body ++ rest)) = body.length := by
    rw [frontInt_beBytes_append, toInt_ofNat_of_lt small]
  have isLen : frameLen (beBytes 4 body.length ++ (body ++ rest)) = body.length := by
    rw [frameLen, announced, Int.toNat_natCast]
  have allowed : LengthAllowed (beBytes 4 body.length ++ (body ++ rest)) := by
    rw [LengthAllowed, announced, not_or, not_lt, not_lt]
    exact ⟨upper, Int.ofNat_le.mpr lower⟩
  have size : (beBytes 4 body.length ++ (body ++ rest)).length =
      body.length + 4 + rest.length := by
    rw [List.length_append, List.length_append, length_beBytes]
    omega
  obtain ⟨behind, rfl⟩ := isPrefix
  rw [nextIn, if_neg (by omega), if_neg (not_not_intro allowed), isLen, if_neg (by omega),
    List.append_assoc, List.drop_left' (length_beBytes 4 _), List.append_assoc, decode,
    if_neg (disagrees _)]

/-- A frame that `FillEmptyBuffer` produced consists of the length, the payload
and its checksum. -/
theorem content_of_fillEmptyBuffer {message : E.protobuf.Message} {empty filled : Buffer}
    (short : ((E.protobuf.getTypeName message).length +
      (E.protobuf.serializeWithCachedSizesToArray message).length + 9 : Int) ≤ kMaxMessageLen)
    (valid : empty.Valid E.platform) (unread : empty.readableBytes E.platform = 0)
    (produced : E.fillEmptyBuffer message empty = .ok filled) :
    filled.content = E.frame (E.protobuf.getTypeName message)
      (E.protobuf.serializeWithCachedSizesToArray message) := by
  rw [kMaxMessageLen] at short
  obtain ⟨checked, size⟩ := E.checked_of_fillEmptyBuffer produced
  have fits := E.platform.fits_mono (m := (E.protobuf.getTypeName message).length +
    (E.protobuf.serializeWithCachedSizesToArray message).length + 9 + 2 * kCheapPrepend)
    (by rw [kCheapPrepend]; omega) E.platform.fits_least
  obtain ⟨buf, isFilled, -, content, -⟩ := E.fillEmptyBuffer_of_checked rfl rfl checked size
    (by omega) (by omega) valid unread fits
  rw [produced] at isFilled
  cases isFilled
  exact content

/-- A byte behind the length prefix is one of the body. -/
theorem split_behind {len : Nat} {body before after : Bytes} {byte : UInt8}
    (long : 4 ≤ before.length) (split : before ++ byte :: after = beBytes 4 len ++ body) :
    ∃ front, before = beBytes 4 len ++ front ∧ body = front ++ byte :: after := by
  have isPrefix : before <+: beBytes 4 len ++ body := ⟨byte :: after, split⟩
  obtain ⟨front, rfl⟩ := List.prefix_of_prefix_length_le (List.prefix_append _ body) isPrefix
    (by rwa [length_beBytes])
  rw [List.append_assoc] at split
  exact ⟨front, rfl, (List.append_cancel_left split).symm⟩

variable {γ : Type}

/-- A call that stops at the first frame. -/
theorem parseMessages_of_reject {buf : Buffer} (valid : buf.Valid E.platform)
    {errorCode : ErrorCode} (verdict : E.nextIn buf.peek buf.content = .reject (.code errorCode))
    (errorCallback : γ → Buffer → ErrorCode → γ × Buffer) (conn : γ)
    (vecMessagePtr : List E.protobuf.Message) :
    E.parseMessages errorCallback conn buf vecMessagePtr =
      .ok (.failed errorCallback conn buf vecMessagePtr errorCode) := by
  rw [parseMessages, E.parseLoop_round errorCallback conn _ vecMessagePtr valid, verdict]
  rfl

/-- **Every corruption of a single byte is caught.** Take the frame that
`FillEmptyBuffer` produces for a message with a name, of a length that
`ParseMessages` admits, and change one byte behind the length prefix. On a
buffer with this frame and any bytes behind it `ParseMessages` returns -1. It
reports `kCheckSumError`, delivers nothing and hands the buffer to the error
callback as it was. -/
theorem corruption_is_caught (standard : ∀ bytes, E.adler32 1 bytes = Cpp.adler32 1 bytes)
    {message : E.protobuf.Message} (named : E.protobuf.getTypeName message ≠ [])
    (short : ((E.protobuf.getTypeName message).length +
      (E.protobuf.serializeWithCachedSizesToArray message).length + 9 : Int) ≤ kMaxMessageLen)
    {empty filled : Buffer} (emptyValid : empty.Valid E.platform)
    (unread : empty.readableBytes E.platform = 0)
    (produced : E.fillEmptyBuffer message empty = .ok filled)
    {before after : Bytes} {old new : UInt8} (split : filled.content = before ++ old :: after)
    (behindLength : 4 ≤ before.length) (changed : new ≠ old)
    {buf : Buffer} (valid : buf.Valid E.platform) {rest : Bytes}
    (content : buf.content = before ++ new :: after ++ rest)
    (errorCallback : γ → Buffer → ErrorCode → γ × Buffer) (conn : γ)
    (vecMessagePtr : List E.protobuf.Message) :
    ∃ result, E.parseMessages errorCallback conn buf vecMessagePtr = .ok result ∧
      result.ret = -1 ∧ result.errors = [.kCheckSumError] ∧
      result.vecMessagePtr = vecMessagePtr ∧
      (result.conn, result.buf) = errorCallback conn buf .kCheckSumError ∧
      ((∀ conn buf errorCode, (errorCallback conn buf errorCode).2 = buf) →
        result.buf.content = before ++ new :: after ++ rest) := by
  have isFrame := content_of_fillEmptyBuffer short emptyValid unread produced
  have lower := List.length_pos_iff.mpr named
  rw [split, frame] at isFrame
  generalize E.protobuf.getTypeName message = name at isFrame short lower
  generalize E.protobuf.serializeWithCachedSizesToArray message = data at isFrame short
  obtain ⟨front, rfl, isBody⟩ := split_behind behindLength isFrame
  have width : (front ++ new :: after).length = name.length + data.length + 9 := by
    rw [← E.length_body name 0 data, isBody]
    simp
  have verdict : E.nextIn buf.peek buf.content = .reject (.code .kCheckSumError) := by
    have isPrefix := content_prefix_peek buf
    rw [content, List.append_assoc, List.append_assoc, ← List.append_assoc front, ← width]
      at isPrefix ⊢
    refine nextIn_of_disagreeing (by omega) (by rw [width]; exact short) isPrefix fun behind => ?_
    rw [width]
    have caught := not_checkSumAgrees_of_changed standard behind isBody changed
    rwa [length_payload] at caught
  refine ⟨_, parseMessages_of_reject valid verdict errorCallback conn vecMessagePtr, rfl, rfl, rfl,
    rfl, fun keeps => ?_⟩
  rw [← content]
  exact congrArg Buffer.content (keeps _ _ _)

/-- The last byte of the data of a `Flag` is changed from 1 to 0, and another
byte follows the frame. -/
theorem corruption_is_caught_flag :
    ∃ filled buf before after, flagEnv.fillEmptyBuffer (some true) .fresh = .ok filled ∧
      filled.content = before ++ 1 :: after ∧ buf.content = before ++ 0 :: after ++ [7] ∧
      ∃ result,
        flagEnv.parseMessages defaultErrorCallback (some .kConnected) buf [] = .ok result ∧
        result.ret = -1 ∧ result.errors = [.kCheckSumError] ∧ result.vecMessagePtr = [] := by
  have fresh := Buffer.fresh_valid flagEnv.platform
  have unread : Buffer.fresh.readableBytes flagEnv.platform = 0 := by decide +kernel
  have isName : flagEnv.protobuf.getTypeName (some true) = flagName := rfl
  obtain ⟨filled, produced, -, content, -⟩ := flagEnv.fillEmptyBuffer_of_checked isName rfl rfl rfl
    (by decide) (by decide) fresh unread (by decide)
  have split : filled.content =
      [0, 0, 0, 15, 0, 0, 0, 5, 70, 108, 97, 103, 0, 8] ++ 1 :: [8, 55, 1, 137] :=
    content.trans (by decide +kernel)
  obtain ⟨buf, -, done⟩ := Buffer.append_all_spec
    ([0, 0, 0, 15, 0, 0, 0, 5, 70, 108, 97, 103, 0, 8] ++ 0 :: [8, 55, 1, 137] ++ [7])
    fresh (by decide)
  have received := done.content
  rw [Buffer.content_fresh, List.nil_append] at received
  obtain ⟨result, returns, ret, errors, delivered, -⟩ := corruption_is_caught (fun _ => rfl)
    (by decide) (by decide) fresh unread produced split (by decide) (by decide) done.valid
    received defaultErrorCallback (some .kConnected) []
  exact ⟨filled, buf, _, _, produced, split, received, result, returns, ret, errors, delivered⟩

end CodecEnv

end AirNet.Net
