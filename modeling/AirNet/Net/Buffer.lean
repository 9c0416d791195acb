import AirNet.Cpp.Memory

/-!
# The byte buffer of a connection

A buffer is a vector of bytes with two indices. The bytes between the reader
index and the writer index are readable; what lies before is free for
prepending, what lies behind is free for writing.

The definitions follow `common/net/buffer.h`. Every `assert` of the source is
executed, sums and differences of sizes are those of the platform, and the
vector throws when it is asked to grow beyond its maximal size. The data to be
appended or prepended is given, as in the source, by a pointer and a length.

The operations on 16-bit and 32-bit integers differ only in the width; they
convert between host and network order. The operations on single bytes do not
convert.
-/

set_option autoImplicit false

namespace AirNet.Net

open AirNet.Cpp

def kCheapPrepend : Nat := 8
def kInitialSize : Nat := 1024

structure Buffer where
  buffer_ : Bytes
  readerIndex_ : Nat
  writerIndex_ : Nat
  deriving DecidableEq, Repr

/-- A pointer and a length that is an `int`. -/
structure StringPiece where
  ptr_ : Bytes
  length_ : Int

namespace Buffer

/-- The state the constructor leaves: no readable bytes, and eight bytes free
for prepending. -/
def fresh : Buffer where
  buffer_ := List.replicate (kCheapPrepend + kInitialSize) 0
  readerIndex_ := kCheapPrepend
  writerIndex_ := kCheapPrepend

variable (P : Platform)

def readableBytes (b : Buffer) : Nat := P.sizeSub b.writerIndex_ b.readerIndex_

def writableBytes (b : Buffer) : Nat := P.sizeSub b.buffer_.length b.writerIndex_

def prependableBytes (b : Buffer) : Nat := b.readerIndex_

/-- The pointer to the first readable byte. -/
def peek (b : Buffer) : Bytes := b.buffer_.drop b.readerIndex_

/-- `Buffer()`. -/
def construct : Except Fault Buffer := do
  P.assert (fresh.readableBytes P = 0) "ReadableBytes() == 0"
  P.assert (fresh.writableBytes P = kInitialSize) "WritableBytes() == kInitialSize"
  P.assert (fresh.prependableBytes = kCheapPrepend) "PrependableBytes() == kCheapPrepend"
  pure fresh

def swap (b rhs : Buffer) : Buffer × Buffer := (rhs, b)

/-! ## Retrieving -/

def retrieveAll (b : Buffer) : Buffer :=
  { b with readerIndex_ := kCheapPrepend, writerIndex_ := kCheapPrepend }

def retrieve (len : Nat) (b : Buffer) : Except Fault Buffer := do
  P.assert (len ≤ b.readableBytes P) "len <= ReadableBytes()"
  if len < b.readableBytes P then
    pure { b with readerIndex_ := P.sizeAdd b.readerIndex_ len }
  else
    pure b.retrieveAll

/-- `RetrieveUntil(end)`; the pointer is given by its index in the vector. -/
def retrieveUntil (stop : Nat) (b : Buffer) : Except Fault Buffer := do
  P.assert (b.readerIndex_ ≤ stop) "peek() <= end"
  P.assert (stop ≤ b.writerIndex_) "end <= BeginWrite()"
  b.retrieve P (P.sizeSub stop b.readerIndex_)

def retrieveInt32 (b : Buffer) : Except Fault Buffer := b.retrieve P 4

def retrieveInt16 (b : Buffer) : Except Fault Buffer := b.retrieve P 2

def retrieveInt8 (b : Buffer) : Except Fault Buffer := b.retrieve P 1

def retrieveAsString (len : Nat) (b : Buffer) : Except Fault (Bytes × Buffer) := do
  P.assert (len ≤ b.readableBytes P) "len <= ReadableBytes()"
  let result ← readBytes b.peek len
  let b ← b.retrieve P len
  pure (result, b)

def retrieveAllAsString (b : Buffer) : Except Fault (Bytes × Buffer) :=
  b.retrieveAsString P (b.readableBytes P)

def toStringPiece (b : Buffer) : StringPiece where
  ptr_ := b.peek
  length_ := (BitVec.ofNat 32 (b.readableBytes P)).toInt

/-! ## Making room -/

/-- `buffer_.resize(size)`. -/
def resize (size : Nat) (b : Buffer) : Except Fault Buffer :=
  if P.fits size = true then
    .ok { b with buffer_ :=
            b.buffer_.take size ++ List.replicate (size - b.buffer_.length) 0 }
  else
    .error .lengthError

/-- The bytes of the source range of `std::copy` must lie in the vector, and so
must the range they are copied to. -/
def moveToFront (b : Buffer) : Except Fault Bytes :=
  let readable := b.writerIndex_ - b.readerIndex_
  if b.readerIndex_ ≤ b.writerIndex_ ∧ b.writerIndex_ ≤ b.buffer_.length ∧
      kCheapPrepend + readable ≤ b.buffer_.length then
    .ok (copyForward readable b.readerIndex_ kCheapPrepend b.buffer_)
  else
    .error .outOfBounds

def makeSpace (len : Nat) (b : Buffer) : Except Fault Buffer := do
  if P.sizeAdd (b.writableBytes P) b.prependableBytes < P.sizeAdd len kCheapPrepend then
    b.resize P (P.sizeAdd b.writerIndex_ len)
  else
    P.assert (kCheapPrepend < b.readerIndex_) "kCheapPrepend < readerIndex_"
    let readable := b.readableBytes P
    let moved ← b.moveToFront
    let b : Buffer :=
      { buffer_ := moved
        readerIndex_ := kCheapPrepend
        writerIndex_ := P.sizeAdd kCheapPrepend readable }
    P.assert (readable = b.readableBytes P) "readable == ReadableBytes()"
    pure b

def ensureWritableBytes (len : Nat) (b : Buffer) : Except Fault Buffer := do
  let b ← if b.writableBytes P < len then b.makeSpace P len else pure b
  P.assert (len ≤ b.writableBytes P) "WritableBytes() >= len"
  pure b

/-! ## Appending -/

/-- Bytes written by the caller at `BeginWrite()`. -/
def writeAtBeginWrite (bytes : Bytes) (b : Buffer) : Except Fault Buffer := do
  let region ← storeBytes b.buffer_ b.writerIndex_ bytes
  pure { b with buffer_ := region }

def hasWritten (len : Nat) (b : Buffer) : Buffer :=
  { b with writerIndex_ := P.sizeAdd b.writerIndex_ len }

def append (data : Bytes) (len : Nat) (b : Buffer) : Except Fault Buffer := do
  let b ← b.ensureWritableBytes P len
  let bytes ← readBytes data len
  let b ← b.writeAtBeginWrite bytes
  pure (b.hasWritten P len)

/-- `Append(const StringPiece&)`. -/
def appendPiece (str : StringPiece) (b : Buffer) : Except Fault Buffer :=
  b.append P str.ptr_ (P.sizeOfInt str.length_)

/-- Append an integer of the given width in network order. -/
def appendInt (width value : Nat) (b : Buffer) : Except Fault Buffer :=
  b.append P (P.objectBytes width (P.hostToNetwork width value)) width

def appendInt32 (x : BitVec 32) (b : Buffer) : Except Fault Buffer := b.appendInt P 4 x.toNat

def appendInt16 (x : BitVec 16) (b : Buffer) : Except Fault Buffer := b.appendInt P 2 x.toNat

def appendInt8 (x : BitVec 8) (b : Buffer) : Except Fault Buffer :=
  b.append P (P.objectBytes 1 x.toNat) 1

/-! ## Prepending -/

def prepend (data : Bytes) (len : Nat) (b : Buffer) : Except Fault Buffer := do
  P.assert (len ≤ b.prependableBytes) "len <= PrependableBytes()"
  let b := { b with readerIndex_ := P.sizeSub b.readerIndex_ len }
  let bytes ← readBytes data len
  let region ← storeBytes b.buffer_ b.readerIndex_ bytes
  pure { b with buffer_ := region }

/-- Prepend an integer of the given width in network order. -/
def prependInt (width value : Nat) (b : Buffer) : Except Fault Buffer :=
  b.prepend P (P.objectBytes width (P.hostToNetwork width value)) width

def prependInt32 (x : BitVec 32) (b : Buffer) : Except Fault Buffer := b.prependInt P 4 x.toNat

def prependInt16 (x : BitVec 16) (b : Buffer) : Except Fault Buffer := b.prependInt P 2 x.toNat

def prependInt8 (x : BitVec 8) (b : Buffer) : Except Fault Buffer :=
  b.prepend P (P.objectBytes 1 x.toNat) 1

/-! ## Reading integers -/

/-- The integer of the given width, in network order, at the front of the
readable bytes. -/
def peekInt (width : Nat) (expression : String) (b : Buffer) : Except Fault Nat := do
  P.assert (width ≤ b.readableBytes P) expression
  let bytes ← readBytes b.peek width
  pure (P.networkToHost width (P.ofObjectBytes bytes))

def peekInt32 (b : Buffer) : Except Fault (BitVec 32) := do
  let value ← b.peekInt P 4 "ReadableBytes() >= sizeof(int32_t)"
  pure (BitVec.ofNat 32 value)

def peekInt16 (b : Buffer) : Except Fault (BitVec 16) := do
  let value ← b.peekInt P 2 "ReadableBytes() >= sizeof(int16_t)"
  pure (BitVec.ofNat 16 value)

def peekInt8 (b : Buffer) : Except Fault (BitVec 8) := do
  P.assert (1 ≤ b.readableBytes P) "ReadableBytes() >= sizeof(int8_t)"
  let bytes ← readBytes b.peek 1
  pure (BitVec.ofNat 8 (P.ofObjectBytes bytes))

def readInt32 (b : Buffer) : Except Fault (BitVec 32 × Buffer) := do
  let result ← b.peekInt32 P
  let b ← b.retrieveInt32 P
  pure (result, b)

def readInt16 (b : Buffer) : Except Fault (BitVec 16 × Buffer) := do
  let result ← b.peekInt16 P
  let b ← b.retrieveInt16 P
  pure (result, b)

def readInt8 (b : Buffer) : Except Fault (BitVec 8 × Buffer) := do
  let result ← b.peekInt8 P
  let b ← b.retrieveInt8 P
  pure (result, b)

/-! ## Shrinking -/

/-- `Shrink(reserve)`: the local buffer is swapped in and the old storage is
dropped with it. -/
def shrink (reserve : Nat) (b : Buffer) : Except Fault Buffer := do
  let other ← construct P
  let other ← other.ensureWritableBytes P (P.sizeAdd (b.readableBytes P) reserve)
  let other ← other.appendPiece P (b.toStringPiece P)
  pure (b.swap other).1

/-! ## The readable bytes -/

/-- The bytes between the two indices. -/
def content (b : Buffer) : Bytes :=
  (b.buffer_.drop b.readerIndex_).take (b.writerIndex_ - b.readerIndex_)

end Buffer

end AirNet.Net
