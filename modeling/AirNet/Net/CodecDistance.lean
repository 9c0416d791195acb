import AirNet.Cpp.AdlerDistance
import AirNet.Net.CodecCorruption

/-!
# Two corrupted bytes are noticed

The covered bytes of a frame and its checksum are a code of distance three as
long as the frame covers less than 65521 bytes. So the parser also rejects a
frame of the encoder in which two bytes behind the length were changed, wherever
they are: both in the covered part, both in the checksum, or one in each
(`two_corruptions_are_caught`).
-/

set_option autoImplicit false

namespace AirNet.Net

open AirNet.Cpp AirNet.Lib

namespace CodecEnv

variable {E : CodecEnv}

/-- One or two changes in the covered bytes and their checksum are noticed. -/
theorem not_checkSumAgrees_of_distance
    (standard : ∀ bytes, E.adler32 1 bytes = Cpp.adler32 1 bytes)
    {covered covered' field' : Bytes} (rest : Bytes) (length : covered.length = covered'.length)
    (width : field'.length = 4) (short : covered.length < adlerBase)
    (changed : covered ++ beBytes 4 (E.adler32 1 covered) ≠ covered' ++ field')
    (few : distance (covered ++ beBytes 4 (E.adler32 1 covered)) (covered' ++ field') ≤ 2) :
    ¬ E.CheckSumAgrees (covered' ++ (field' ++ rest)) (covered'.length + 4) := by
  rw [E.checkSumAgrees_append_iff rest width]
  intro agrees
  subst agrees
  rw [distance_append length, standard, standard] at few
  by_cases same : covered = covered'
  · subst same
    exact changed rfl
  · have far := adler32_distance length short same
    omega

theorem not_checkSumAgrees_of_corrupted
    (standard : ∀ bytes, E.adler32 1 bytes = Cpp.adler32 1 bytes) {name data body : Bytes}
    (rest : Bytes) (length : body.length = name.length + data.length + 9)
    (short : name.length + data.length + 5 < adlerBase) (changed : E.body name 0 data ≠ body)
    (few : distance (E.body name 0 data) body ≤ 2) :
    ¬ E.CheckSumAgrees (body ++ rest) body.length := by
  have covers := length_payload name 0 data
  have split := List.take_append_drop (payload name 0 data).length body
  have front : (body.take (payload name 0 data).length).length = (payload name 0 data).length := by
    rw [List.length_take, min_eq_left (by omega)]
  have width : (body.drop (payload name 0 data).length).length = 4 := by
    rw [List.length_drop]
    omega
  rw [CodecEnv.body, ← split] at changed few
  have caught :=
    not_checkSumAgrees_of_distance standard rest front.symm width (by omega) changed few
  rw [← List.append_assoc, split, front] at caught
  rwa [show body.length = (payload name 0 data).length + 4 by omega]

variable {γ : Type}

/-- **Two corrupted bytes are caught.**  Take the frame that `FillEmptyBuffer`
produces for a message with a name, of less than 65521 bytes between the length
and the checksum. Change one or two bytes behind the length. On a buffer with
this frame and any bytes behind it `ParseMessages` returns -1. It reports
`kCheckSumError`, delivers nothing and hands the buffer to the error callback as
it was. -/
theorem two_corruptions_are_caught (standard : ∀ bytes, E.adler32 1 bytes = Cpp.adler32 1 bytes)
    {message : E.protobuf.Message} (named : E.protobuf.getTypeName message ≠ [])
    (short : (E.protobuf.getTypeName message).length +
      (E.protobuf.serializeWithCachedSizesToArray message).length + 5 < adlerBase)
    {empty filled : Buffer} (emptyValid : empty.Valid E.platform)
    (unread : empty.readableBytes E.platform = 0)
    (produced : E.fillEmptyBuffer message empty = .ok filled)
    {received : Bytes} (length : received.length = filled.content.length)
    (announced : received.take 4 = filled.content.take 4) (changed : received ≠ filled.content)
    (few : distance filled.content received ≤ 2)
    {buf : Buffer} (valid : buf.Valid E.platform) {rest : Bytes}
    (content : buf.content = received ++ rest)
    (errorCallback : γ → Buffer → ErrorCode → γ × Buffer) (conn : γ)
    (vecMessagePtr : List E.protobuf.Message) :
    ∃ result, E.parseMessages errorCallback conn buf vecMessagePtr = .ok result ∧
      result.ret = -1 ∧ result.errors = [.kCheckSumError] ∧
      result.vecMessagePtr = vecMessagePtr ∧
      (result.conn, result.buf) = errorCallback conn buf .kCheckSumError := by
  have isFrame : filled.content = E.frame (E.protobuf.getTypeName message)
      (E.protobuf.serializeWithCachedSizesToArray message) :=
    content_of_fillEmptyBuffer (by rw [adlerBase] at short; rw [kMaxMessageLen]; omega) emptyValid
      unread produced
  have lower := List.length_pos_iff.mpr named
  rw [isFrame, frame] at length announced changed few
  generalize E.protobuf.getTypeName message = name at length announced changed few short lower
  generalize E.protobuf.serializeWithCachedSizesToArray message = data
    at length announced changed few short
  rw [adlerBase] at short
  rw [List.take_left' (length_beBytes 4 _)] at announced
  -- the length, the covered bytes and the checksum as they were received
  obtain ⟨body, rfl⟩ : ∃ body, received =
      beBytes 4 (name.length + data.length + 9) ++ body :=
    ⟨received.drop 4, by rw [← announced, List.take_append_drop]⟩
  rw [List.length_append, List.length_append, length_body] at length
  have long : body.length = name.length + data.length + 9 := by omega
  rw [distance_append rfl, distance_self, Nat.zero_add] at few
  have changedBody : E.body name 0 data ≠ body := fun same => changed (by rw [same])
  have verdict : E.nextIn buf.peek buf.content = .reject (.code .kCheckSumError) := by
    have isPrefix := content_prefix_peek buf
    rw [content, List.append_assoc, ← long] at isPrefix ⊢
    refine nextIn_of_disagreeing (by omega) (by rw [kMaxMessageLen]; omega) isPrefix
      fun behind => ?_
    exact not_checkSumAgrees_of_corrupted standard behind long (by rw [adlerBase]; omega)
      changedBody few
  exact ⟨_, parseMessages_of_reject valid verdict errorCallback conn vecMessagePtr, rfl, rfl, rfl,
    rfl⟩

/-- Two bytes of the name `Flag` are exchanged. -/
theorem two_corruptions_are_caught_flag :
    ∃ filled buf received, flagEnv.fillEmptyBuffer (some true) .fresh = .ok filled ∧
      buf.content = received ∧ distance filled.content received = 2 ∧
      ∃ result,
        flagEnv.parseMessages defaultErrorCallback (some .kConnected) buf [] = .ok result ∧
        result.ret = -1 ∧ result.errors = [.kCheckSumError] ∧ result.vecMessagePtr = [] := by
  have fresh := Buffer.fresh_valid flagEnv.platform
  have unread : Buffer.fresh.readableBytes flagEnv.platform = 0 := by decide +kernel
  have isName : flagEnv.protobuf.getTypeName (some true) = flagName := rfl
  obtain ⟨filled, produced, -, content, -⟩ := flagEnv.fillEmptyBuffer_of_checked isName rfl rfl rfl
    (by decide) (by decide) fresh unread (by decide)
  have isFrame : filled.content =
      [0, 0, 0, 15, 0, 0, 0, 5, 70, 108, 97, 103, 0, 8, 1, 8, 55, 1, 137] :=
    content.trans (by decide +kernel)
  obtain ⟨buf, -, done⟩ := Buffer.append_all_spec
    [0, 0, 0, 15, 0, 0, 0, 5, 70, 97, 108, 103, 0, 8, 1, 8, 55, 1, 137] fresh (by decide)
  have received := done.content
  rw [Buffer.content_fresh, List.nil_append] at received
  obtain ⟨result, returns, ret, errors, delivered, -⟩ := two_corruptions_are_caught (fun _ => rfl)
    (by decide) (by decide) fresh unread produced (by rw [isFrame]; rfl) (by rw [isFrame]; rfl)
    (by rw [isFrame]; decide) (by rw [isFrame]; decide) done.valid
    (received.trans (List.append_nil _).symm) defaultErrorCallback (some .kConnected) []
  exact ⟨filled, buf, _, produced, received, by rw [isFrame]; decide, result, returns, ret, errors,
    delivered⟩

end CodecEnv

end AirNet.Net
