import AirNet.Cpp.Adler32
import AirNet.Lib.Recorded
import AirNet.Net.Buffer

/-!
# The codec of protobuf messages

A message travels as its length, the length of its type name, the type name
with a terminating zero, the serialized message, and a checksum. The
definitions follow `common/net/codec_proto.cpp` and `codec_proto.h`, with the
conversions between `size_t`, `int` and `int32_t` of the source.

The protobuf library and the checksum of zlib are parameters. Of the library
only the operations the codec calls are named, and three facts its sources bear
out: a message that was parsed successfully is initialized, parsing a range of
bytes that is there throws nothing, and parsing a range of negative size never
succeeds. With a negative size the library reads on from the pointer; what it
finds may make it append a negative number of bytes to a string, and the
exception of the string leaves `ParseFromArray`, `Parse` and `ParseMessages`.

`Parse` is given a pointer into the buffer, so it may reach bytes beyond the
frame. The one definition of it (`parseRecorded`) records the ranges of bytes
used and what happens to the message object; the result of `Parse` is its
outcome. `ParseMessages` is written for any representation of the messages. It
calls an error callback that may change the connection and the buffer.
-/

set_option autoImplicit false

namespace AirNet.Net

open AirNet.Cpp AirNet.Lib
open AirNet.Lib.Recorded (record)

inductive ErrorCode where
  | kNoError
  | kInvalidLength
  | kCheckSumError
  | kInvalidNameLen
  | kUnknownMessageType
  | kParseError
  deriving DecidableEq, Repr

def kHeaderLen : Int := 4
def kNamelenLen : Int := 4
def kCheckSumLen : Int := 4
def kMinMessageLen : Int := kHeaderLen + 2 + kCheckSumLen
def kMaxMessageLen : Int := 64 * 1024 * 1024

/-- The operations of the protobuf library that the codec uses. A pointer
argument is the list of the bytes reachable from it. -/
structure Protobuf where
  Message : Type
  Descriptor : Type
  getTypeName : Message → Bytes
  isInitialized : Message → Bool
  byteSize : Message → Int
  /-- The bytes written by `SerializeWithCachedSizesToArray`. -/
  serializeWithCachedSizesToArray : Message → Bytes
  findMessageTypeByName : Bytes → Option Descriptor
  getPrototype : Descriptor → Option Message
  newMessage : Message → Message
  /-- `ParseFromArray(data, size)` on a message object; `none` is the result
  `false`, an error is an exception. -/
  parseFromArray : Message → Bytes → Int → Except Fault (Option Message)
  parse_isInitialized : ∀ {message parsed : Message} {data : Bytes} {size : Int},
    parseFromArray message data size = .ok (some parsed) → isInitialized parsed = true
  parse_returns : ∀ (message : Message) {data : Bytes} {size : Nat}, size ≤ data.length →
    ∃ result, parseFromArray message data size = .ok result
  parse_negative : ∀ {message parsed : Message} {data : Bytes} {size : Int}, size < 0 →
    parseFromArray message data size ≠ .ok (some parsed)

/-- What the codec is linked with. -/
structure CodecEnv where
  platform : Platform
  protobuf : Protobuf
  adler32 : Nat → Bytes → Nat

namespace Protobuf

variable (pb : Protobuf)

/-- `CreateMessage(typeName)`; `none` is the null pointer. -/
def createMessage (typeName : Bytes) : Option pb.Message :=
  match pb.findMessageTypeByName typeName with
  | none => none
  | some descriptor =>
      match pb.getPrototype descriptor with
      | none => none
      | some prototype => some (pb.newMessage prototype)

end Protobuf

/-! ## What `Parse` does -/

/-- A range of bytes, by the index of the first and their number. -/
structure Span where
  start : Int
  size : Int
  deriving DecidableEq, Repr

/-- What `Parse` uses a range of bytes for. -/
inductive Use where
  | expectedCheckSum (span : Span)
  /-- The range over which the checksum is computed. -/
  | covered (span : Span)
  | nameLen (span : Span)
  | typeName (span : Span)
  /-- The arguments of `ParseFromArray`. -/
  | data (span : Span)
  deriving DecidableEq, Repr

/-- What `Parse` does besides computing: it uses a range of bytes, creates the
message object, has it filled, or deletes it. -/
inductive ParseEvent (M : Type) where
  | uses (use : Use)
  | creates (message : M)
  | fills (message : M)
  | deletes

/-! ## Encoding -/

namespace CodecEnv

variable (E : CodecEnv)

/-- `GOOGLE_DCHECK(message.IsInitialized())`. -/
def dcheckInitialized (message : E.protobuf.Message) : Except Fault Unit :=
  if E.platform.ndebug = true ∨ E.protobuf.isInitialized message = true then .ok ()
  else .error (.fatal "Check failed: message.IsInitialized()")

/-- `ByteSizeConsistencyError`, called when the size announced by `ByteSize`
differs from the number of bytes written. -/
def byteSizeConsistencyError : Fault :=
  .fatal "Byte size calculation and serialization were inconsistent."

def fillEmptyBuffer (message : E.protobuf.Message) (buf : Buffer) : Except Fault Buffer := do
  let P := E.platform
  P.assert (buf.readableBytes P = 0) "buf->ReadableBytes() == 0"
  let typeName := E.protobuf.getTypeName message
  let nameLen := BitVec.ofNat 32 (P.sizeAdd typeName.length 1)
  let buf ← buf.appendInt32 P nameLen
  -- `c_str()` points to the name and its terminating zero
  let buf ← buf.append P (typeName ++ [0]) (P.sizeOfInt nameLen.toInt)
  E.dcheckInitialized message
  let byteSize := E.protobuf.byteSize message
  let buf ← buf.ensureWritableBytes P (P.sizeOfInt byteSize)
  let written := E.protobuf.serializeWithCachedSizesToArray message
  let buf ← buf.writeAtBeginWrite written
  if (written.length : Int) ≠ byteSize then
    throw byteSizeConsistencyError
  let buf := buf.hasWritten P (P.sizeOfInt byteSize)
  -- the length passes through an `int` and arrives as an unsigned 32-bit number
  let covered ← readBytes buf.peek (BitVec.ofNat 32 (buf.readableBytes P)).toNat
  let checkSum := BitVec.ofNat 32 (E.adler32 1 covered)
  let buf ← buf.appendInt32 P checkSum
  P.assert (buf.readableBytes P =
      P.sizeAdd (P.sizeAdd (P.sizeAdd 4 (P.sizeOfInt nameLen.toInt)) (P.sizeOfInt byteSize)) 4)
    "buf->ReadableBytes() == sizeof nameLen + nameLen + byte_size + sizeof checkSum"
  let len := P.hostToNetwork 4 (BitVec.ofNat 32 (buf.readableBytes P)).toNat
  buf.prepend P (P.objectBytes 4 len) 4

/-- `SendMsg`: the bytes handed to the connection. -/
def sendMsg (message : E.protobuf.Message) : Except Fault Bytes := do
  let buf ← Buffer.construct E.platform
  let buf ← E.fillEmptyBuffer message buf
  pure buf.content

/-! ## Decoding -/

def asInt32 (buf : Bytes) : Except Fault Int := do
  let be32 ← readBytes buf 4
  let value := E.platform.networkToHost 4 (E.platform.ofObjectBytes be32)
  pure (BitVec.ofNat 32 value).toInt

/-- `Parse(buf, len, error)` with a record of what it does. The message is
returned, or the null pointer, and the error code. -/
def parseRecorded (buf : Bytes) (len : Int) :
    Recorded (ParseEvent E.protobuf.Message) Fault (Option E.protobuf.Message × ErrorCode) := do
  let checkSumSpan : Span := ⟨len - kCheckSumLen, kCheckSumLen⟩
  record (.uses (.expectedCheckSum checkSumSpan))
  let tail ← advance buf checkSumSpan.start
  let expectedCheckSum ← E.asInt32 tail
  let coveredSpan : Span := ⟨0, (BitVec.ofInt 32 (len - kCheckSumLen)).toNat⟩
  record (.uses (.covered coveredSpan))
  let covered ← readBytes buf coveredSpan.size.toNat
  let checkSum := (BitVec.ofNat 32 (E.adler32 1 covered)).toInt
  if checkSum = expectedCheckSum then
    record (.uses (.nameLen ⟨0, kNamelenLen⟩))
    let nameLen ← E.asInt32 buf
    if 2 ≤ nameLen ∧ nameLen ≤ len - kCheckSumLen then
      let nameSpan : Span := ⟨kNamelenLen, nameLen - 1⟩
      record (.uses (.typeName nameSpan))
      let name ← advance buf nameSpan.start
      let typeName ← readBytes name nameSpan.size.toNat
      match E.protobuf.createMessage typeName with
      | some message =>
          record (.creates message)
          let dataSpan : Span :=
            ⟨kNamelenLen + nameLen, len - nameLen - kNamelenLen - kCheckSumLen⟩
          record (.uses (.data dataSpan))
          let data ← advance buf dataSpan.start
          match ← E.protobuf.parseFromArray message data dataSpan.size with
          | some parsed =>
              record (.fills parsed)
              pure (some parsed, .kNoError)
          | none =>
              -- `SAFE_DELETE` leaves a null pointer behind
              record .deletes
              pure (none, .kParseError)
      | none => pure (none, .kUnknownMessageType)
    else
      pure (none, .kInvalidNameLen)
  else
    pure (none, .kCheckSumError)

/-- `Parse(buf, len, error)`. -/
def parse (buf : Bytes) (len : Int) : Except Fault (Option E.protobuf.Message × ErrorCode) :=
  (E.parseRecorded buf len).outcome

end CodecEnv

/-- What a call of `ParseMessages` returns and leaves behind; `errors` lists
the codes with which the error callback was called. -/
structure CallResult (γ μ : Type) where
  ret : Int
  conn : γ
  buf : Buffer
  vecMessagePtr : List μ
  errors : List ErrorCode

section

variable {γ μ : Type}

/-- The error callback is called and `ParseMessages` returns -1. -/
def CallResult.failed (errorCallback : γ → Buffer → ErrorCode → γ × Buffer) (conn : γ)
    (buf : Buffer) (vecMessagePtr : List μ) (errorCode : ErrorCode) : CallResult γ μ :=
  let called := errorCallback conn buf errorCode
  { ret := -1, conn := called.1, buf := called.2, vecMessagePtr := vecMessagePtr,
    errors := [errorCode] }

/-- The loop of `ParseMessages`, with what `Parse` does and returns left open. -/
def parseLoopWith {m : Type → Type} [Monad m] [MonadLiftT (Except Fault) m] (P : Platform)
    (parse : Bytes → Int → m (Option μ × ErrorCode))
    (errorCallback : γ → Buffer → ErrorCode → γ × Buffer) (conn : γ) :
    (fuel : Nat) → Buffer → List μ → m (CallResult γ μ)
  | 0, _, _ => liftM (Except.error Fault.outOfFuel : Except Fault (CallResult γ μ))
  | fuel + 1, buf, vecMessagePtr => do
      if P.sizeOfInt (kMinMessageLen + kHeaderLen) ≤ buf.readableBytes P then
        let be32 ← buf.peekInt32 P
        let len := be32.toInt
        if kMaxMessageLen < len ∨ len < kMinMessageLen then
          pure (.failed errorCallback conn buf vecMessagePtr .kInvalidLength)
        else if P.sizeOfInt (len + kHeaderLen) ≤ buf.readableBytes P then
          let body ← advance buf.peek kHeaderLen
          let (message, errorCode) ← parse body len
          match errorCode, message with
          | .kNoError, some message =>
              let buf ← buf.retrieve P (P.sizeOfInt (kHeaderLen + len))
              parseLoopWith P parse errorCallback conn fuel buf (vecMessagePtr ++ [message])
          | errorCode, _ => pure (.failed errorCallback conn buf vecMessagePtr errorCode)
        else
          pure { ret := 0, conn := conn, buf := buf, vecMessagePtr := vecMessagePtr, errors := [] }
      else
        pure { ret := 0, conn := conn, buf := buf, vecMessagePtr := vecMessagePtr, errors := [] }

end

namespace CodecEnv

variable (E : CodecEnv) {γ : Type}

abbrev ParseResult (γ : Type) := CallResult γ E.protobuf.Message

/-- The loop of `ParseMessages` with the messages as values. -/
def parseLoop (errorCallback : γ → Buffer → ErrorCode → γ × Buffer) (conn : γ) :
    (fuel : Nat) → Buffer → List E.protobuf.Message → Except Fault (E.ParseResult γ) :=
  parseLoopWith E.platform E.parse errorCallback conn

/-- `ParseMessages(conn, buf, vecMessagePtr)`; every round of the loop consumes
bytes, so their number bounds the rounds. -/
def parseMessages (errorCallback : γ → Buffer → ErrorCode → γ × Buffer) (conn : γ)
    (buf : Buffer) (vecMessagePtr : List E.protobuf.Message) :
    Except Fault (E.ParseResult γ) :=
  E.parseLoop errorCallback conn (buf.readableBytes E.platform + 1) buf vecMessagePtr

end CodecEnv

/-! ## The default error callback -/

/-- The states of a `TcpConnection`. -/
inductive StateE where
  | kDisconnected
  | kConnecting
  | kConnected
  | kDisconnecting
  deriving DecidableEq, Repr

/-- `shutdown()` of a connection: only a connected one starts to disconnect. -/
def shutdown : StateE → StateE
  | .kConnected => .kDisconnecting
  | state => state

/-- `DefaultErrorCallback`: half-close the connection; `none` is a null
pointer. The buffer is not touched. -/
def defaultErrorCallback (conn : Option StateE) (buf : Buffer) (_errorCode : ErrorCode) :
    Option StateE × Buffer :=
  match conn with
  | some .kConnected => (some (shutdown .kConnected), buf)
  | conn => (conn, buf)

end AirNet.Net
