import AirNet.Net.BufferReach

/-!
# Typed integers in a buffer

Integers of 8, 16 and 32 bits are stored in network order, whatever the byte
order of the host. A list of them, each with its type, is appended one after
the other and read back by the types alone.

The bytes stored for an integer are its big-endian two's complement
(`TypedInt.twosComplement`). One integer is appended, prepended and read by one
lemma each; lists follow by induction. What was readable before is in front of
the list and is retrieved first, and after the last integer nothing is left
(`typedInts_survive`). Prepending builds the same bytes from the back.

A vector that would have to be larger than the largest one throws, and then
nothing is promised of the list.
-/

set_option autoImplicit false

namespace AirNet.Net

open AirNet.Cpp

/-- The integer types that a buffer stores. -/
inductive IntType where
  | int8
  | int16
  | int32
  deriving DecidableEq, Repr

/-- An integer with its type. -/
inductive TypedInt where
  | int8 (x : BitVec 8)
  | int16 (x : BitVec 16)
  | int32 (x : BitVec 32)
  deriving DecidableEq, Repr

namespace TypedInt

def tag : TypedInt → IntType
  | .int8 _ => .int8
  | .int16 _ => .int16
  | .int32 _ => .int32

/-- The size of the integer in bytes. -/
def width : TypedInt → Nat
  | .int8 _ => 1
  | .int16 _ => 2
  | .int32 _ => 4

def toInt : TypedInt → Int
  | .int8 x => x.toInt
  | .int16 x => x.toInt
  | .int32 x => x.toInt

/-- The bits of the integer as a number without sign. -/
def toNat : TypedInt → Nat
  | .int8 x => x.toNat
  | .int16 x => x.toNat
  | .int32 x => x.toNat

/-- The big-endian bytes of the integer modulo `256^width`. -/
def twosComplement (v : TypedInt) : Bytes :=
  beBytes v.width (v.toInt % 256 ^ v.width).toNat

variable (P : Platform)

def append : TypedInt → Buffer → Except Fault Buffer
  | .int8 x, b => b.appendInt8 P x
  | .int16 x, b => b.appendInt16 P x
  | .int32 x, b => b.appendInt32 P x

def prepend : TypedInt → Buffer → Except Fault Buffer
  | .int8 x, b => b.prependInt8 P x
  | .int16 x, b => b.prependInt16 P x
  | .int32 x, b => b.prependInt32 P x

/-- Append the integers in order. -/
def appendAll (values : List TypedInt) (b : Buffer) : Except Fault Buffer :=
  values.foldlM (fun b v => v.append P b) b

/-- Prepend the integers in order, so that the last one comes first. -/
def prependAll (values : List TypedInt) (b : Buffer) : Except Fault Buffer :=
  values.foldlM (fun b v => v.prepend P b) b

/-- Read an integer of the type. -/
def read : IntType → Buffer → Except Fault (TypedInt × Buffer)
  | .int8, b => do
      let (x, b) ← b.readInt8 P
      pure (.int8 x, b)
  | .int16, b => do
      let (x, b) ← b.readInt16 P
      pure (.int16 x, b)
  | .int32, b => do
      let (x, b) ← b.readInt32 P
      pure (.int32 x, b)

/-- Read integers of the types in order. -/
def readAll : List IntType → Buffer → Except Fault (List TypedInt × Buffer)
  | [], b => pure ([], b)
  | type :: types, b => do
      let (v, b) ← read P type b
      let (values, b) ← readAll types b
      pure (v :: values, b)

/-- The bytes stored for a list of integers. -/
def encode (values : List TypedInt) : Bytes := values.flatMap twosComplement

variable {P}

/-! ## One integer -/

@[simp] theorem length_twosComplement (v : TypedInt) : v.twosComplement.length = v.width :=
  length_beBytes _ _

theorem width_le (v : TypedInt) : v.width ≤ 4 := by
  cases v <;> simp [width]

/-- The two's complement of a word is the word. -/
theorem toNat_toInt_emod {bits : Nat} (x : BitVec bits) :
    (x.toInt % 2 ^ bits).toNat = x.toNat := by
  have bound := x.isLt
  have modulus : ((2 ^ bits : Nat) : Int) = 2 ^ bits := by norm_cast
  rw [BitVec.toInt_eq_toNat_bmod, ← modulus, Int.bmod_emod]
  norm_cast
  exact Nat.mod_eq_of_lt bound

theorem twosComplement_eq (v : TypedInt) : v.twosComplement = beBytes v.width v.toNat := by
  cases v with
  | int8 x => exact congrArg (beBytes 1) (toNat_toInt_emod x)
  | int16 x => exact congrArg (beBytes 2) (toNat_toInt_emod x)
  | int32 x => exact congrArg (beBytes 4) (toNat_toInt_emod x)

section

variable {ndebug bigEndian : Bool} {b : Buffer}

/-- The bytes that appending an integer appends. -/
theorem append_eq (v : TypedInt) :
    v.append P b = b.append P v.twosComplement v.twosComplement.length := by
  rw [length_twosComplement, twosComplement_eq]
  cases v with
  | int8 x => exact congrArg (b.append P · 1) (P.objectBytes_one x.toNat)
  | int16 x => exact congrArg (b.append P · 2) (P.objectBytes_hostToNetwork 2 x.toNat)
  | int32 x => exact congrArg (b.append P · 4) (P.objectBytes_hostToNetwork 4 x.toNat)

theorem append_cases (v : TypedInt) (valid : b.Valid (.lp64 ndebug bigEndian)) :
    (2 ^ 63 - 1 < b.writerIndex_ + v.twosComplement.length ∧
        v.append (.lp64 ndebug bigEndian) b = .error .lengthError) ∨
      ∃ b', v.append (.lp64 ndebug bigEndian) b = .ok b' ∧
        Buffer.Appended (.lp64 ndebug bigEndian) v.twosComplement b b' := by
  have small : v.twosComplement.length ≤ 2 ^ 63 - 1 := by
    rw [length_twosComplement]
    exact v.width_le.trans (by decide)
  rw [append_eq]
  exact Buffer.append_all_cases _ valid small

theorem prepend_spec (v : TypedInt) (valid : b.Valid P) (room : v.width ≤ b.prependableBytes) :
    ∃ b', v.prepend P b = .ok b' ∧ Buffer.Prepended P v.twosComplement b b' := by
  rw [twosComplement_eq]
  cases v with
  | int8 x => exact Buffer.prependInt8_spec valid room
  | int16 x => exact Buffer.prependInt_spec 2 x.toNat valid room
  | int32 x => exact Buffer.prependInt_spec 4 x.toNat valid room

/-- An integer read off the front is the one whose bytes are there. -/
theorem read_front {width : Nat} {x : BitVec (8 * width)} {rest : Bytes}
    {result : Except Fault (BitVec (8 * width) × Buffer)}
    (spec : ∃ b', result = .ok (BitVec.ofNat _ (ofBe (b.content.take width)), b') ∧
      Buffer.Consumed P width b b')
    (front : b.content = beBytes width x.toNat ++ rest) :
    ∃ b', result = .ok (x, b') ∧ b'.Valid P ∧ b'.content = rest := by
  obtain ⟨b', returns, consumed⟩ := spec
  have length := length_beBytes width x.toNat
  have value : BitVec.ofNat (8 * width) (ofBe (b.content.take width)) = x := by
    have bound : x.toNat < 256 ^ width := by
      have word := x.isLt
      rwa [pow_mul] at word
    rw [front, List.take_left' length, ofBe_beBytes, Nat.mod_eq_of_lt bound, BitVec.ofNat_toNat,
      BitVec.setWidth_eq]
  refine ⟨b', by rw [returns, value], consumed.valid, ?_⟩
  rw [consumed.content, front, List.drop_left' length]

theorem read_spec (v : TypedInt) {rest : Bytes} (valid : b.Valid P)
    (front : b.content = v.twosComplement ++ rest) :
    ∃ b', read P v.tag b = .ok (v, b') ∧ b'.Valid P ∧ b'.content = rest := by
  have long : v.width ≤ b.readableBytes P := by
    rw [← valid.length_content, front, List.length_append, length_twosComplement]
    exact Nat.le_add_right _ _
  rw [twosComplement_eq] at front
  cases v with
  | int8 x =>
      obtain ⟨b', returns, kept⟩ := read_front (Buffer.readInt8_spec valid long) front
      refine ⟨b', ?_, kept⟩
      rw [tag, read, returns]
      rfl
  | int16 x =>
      obtain ⟨b', returns, kept⟩ := read_front (Buffer.readInt16_spec valid long) front
      refine ⟨b', ?_, kept⟩
      rw [tag, read, returns]
      rfl
  | int32 x =>
      obtain ⟨b', returns, kept⟩ := read_front (Buffer.readInt32_spec valid long) front
      refine ⟨b', ?_, kept⟩
      rw [tag, read, returns]
      rfl

end

/-! ## Lists of integers -/

section

variable {ndebug bigEndian : Bool}

theorem encode_cons (v : TypedInt) (values : List TypedInt) :
    encode (v :: values) = v.twosComplement ++ encode values :=
  List.flatMap_cons

theorem appendAll_cases (values : List TypedInt) {b : Buffer}
    (valid : b.Valid (.lp64 ndebug bigEndian)) :
    (2 ^ 63 - 1 < b.writerIndex_ + (encode values).length ∧
        appendAll (.lp64 ndebug bigEndian) values b = .error .lengthError) ∨
      ∃ b', appendAll (.lp64 ndebug bigEndian) values b = .ok b' ∧
        Buffer.Appended (.lp64 ndebug bigEndian) (encode values) b b' := by
  induction values generalizing b with
  | nil => exact .inr ⟨b, rfl, valid, (List.append_nil _).symm, le_refl _, id⟩
  | cons v values ih =>
      rw [encode_cons, List.length_append, appendAll, List.foldlM_cons]
      rcases v.append_cases valid with ⟨large, throws⟩ | ⟨b', returns, first⟩
      · refine .inl ⟨by omega, ?_⟩
        rw [throws]
        rfl
      have bound := first.writer_le
      rw [returns, ok_bind]
      rcases ih first.valid with ⟨large, throws⟩ | ⟨b'', returns', others⟩
      · exact .inl ⟨by omega, throws⟩
      · exact .inr ⟨b'', returns', first.trans others⟩

theorem readAll_encode (values : List TypedInt) {b : Buffer} {rest : Bytes} (valid : b.Valid P)
    (front : b.content = encode values ++ rest) :
    ∃ b', readAll P (values.map tag) b = .ok (values, b') ∧ b'.Valid P ∧ b'.content = rest := by
  induction values generalizing b with
  | nil => exact ⟨b, rfl, valid, front⟩
  | cons v values ih =>
      rw [encode_cons, List.append_assoc] at front
      obtain ⟨b', returns, kept, content⟩ := v.read_spec valid front
      obtain ⟨b'', others, done⟩ := ih kept content
      refine ⟨b'', ?_, done⟩
      simp only [List.map_cons, readAll, returns, others, ok_bind]
      rfl

/-- Prepending in reverse order puts the bytes of the list in front. -/
theorem prependAll_reverse (values : List TypedInt) {b : Buffer} (valid : b.Valid P)
    (room : (encode values).length ≤ b.prependableBytes) :
    ∃ b', prependAll P values.reverse b = .ok b' ∧ Buffer.Prepended P (encode values) b b' := by
  induction values with
  | nil => exact ⟨b, rfl, valid, rfl, rfl, rfl⟩
  | cons v values ih =>
      rw [encode_cons, List.length_append, length_twosComplement] at room
      obtain ⟨b', returns, others⟩ := ih (by omega)
      have front : v.width ≤ b'.prependableBytes := by
        have start : b'.prependableBytes = b.prependableBytes - (encode values).length :=
          others.reader
        omega
      obtain ⟨b'', returns', first⟩ := v.prepend_spec others.valid front
      refine ⟨b'', ?_, ?_⟩
      · rw [prependAll, List.reverse_cons, List.foldlM_append]
        rw [prependAll] at returns
        rw [returns, ok_bind, List.foldlM_cons, returns']
        rfl
      · rw [encode_cons]
        exact others.trans first

/-- **Typed integers survive the buffer.** Whatever the history of the buffer,
integers appended to what is readable are read back by their types once that is
retrieved, and nothing remains; only a vector that would grow beyond the largest
one throws instead. Prepended in reverse order they stand in front as the bytes
that appending puts into an empty buffer. -/
theorem typedInts_survive {ι : Type} [DecidableEq ι] {buffers : ι → Buffer}
    (arises : Call.Arises (.lp64 ndebug bigEndian) buffers) (i : ι) (values : List TypedInt) :
    ((2 ^ 63 - 1 < (buffers i).writerIndex_ + (encode values).length ∧
        appendAll (.lp64 ndebug bigEndian) values (buffers i) = .error .lengthError) ∨
      ∃ appended rest last,
        appendAll (.lp64 ndebug bigEndian) values (buffers i) = .ok appended ∧
        appended.content = (buffers i).content ++ encode values ∧
        appended.retrieve (.lp64 ndebug bigEndian) (buffers i).content.length = .ok rest ∧
        readAll (.lp64 ndebug bigEndian) (values.map tag) rest = .ok (values, last) ∧
        last.readableBytes (.lp64 ndebug bigEndian) = 0) ∧
    ((encode values).length ≤ (buffers i).prependableBytes →
      ∃ prepended, prependAll (.lp64 ndebug bigEndian) values.reverse (buffers i) = .ok prepended ∧
        prepended.content = encode values ++ (buffers i).content ∧
        ∀ j appended, (buffers j).readableBytes (.lp64 ndebug bigEndian) = 0 →
          appendAll (.lp64 ndebug bigEndian) values (buffers j) = .ok appended →
            prepended.content = appended.content ++ (buffers i).content) := by
  have valid := arises.valid
  refine ⟨?_, fun room => ?_⟩
  · refine (appendAll_cases values (valid i)).imp id ?_
    rintro ⟨appended, returns, done⟩
    have long : (buffers i).content.length ≤
        appended.readableBytes (.lp64 ndebug bigEndian) := by
      rw [← done.valid.length_content, done.content, List.length_append]
      exact Nat.le_add_right _ _
    obtain ⟨rest, retrieved, consumed⟩ := Buffer.retrieve_spec done.valid long
    have left : rest.content = encode values ++ [] := by
      rw [consumed.content, done.content, List.drop_left, List.append_nil]
    obtain ⟨last, read, kept, nothing⟩ := readAll_encode values consumed.valid left
    refine ⟨appended, rest, last, returns, done.content, retrieved, read, ?_⟩
    rw [← kept.length_content, nothing, List.length_nil]
  · obtain ⟨prepended, returns, done⟩ := prependAll_reverse values (valid i) room
    refine ⟨prepended, returns, done.content, ?_⟩
    intro j appended unread returned
    have built := holds_of_returns (appendAll_cases values (valid j)) returned
    rw [done.content, built.content, (valid j).content_of_unread unread, List.nil_append]

end

/-- Minus two and five in a buffer that has held two bytes and holds one of them
still. -/
theorem typedInts_survive_used :
    ∃ used : Buffer, Call.Arises (.lp64 false false) (fun _ : Unit => used) ∧
      used.content = [8] ∧ used.prependableBytes = 9 ∧
      (∃ appended rest last,
        appendAll (.lp64 false false) [.int16 (-2), .int8 5] used = .ok appended ∧
        appended.content = [8, 255, 254, 5] ∧
        appended.retrieve (.lp64 false false) 1 = .ok rest ∧
        readAll (.lp64 false false) [.int16, .int8] rest = .ok ([.int16 (-2), .int8 5], last) ∧
        last.readableBytes (.lp64 false false) = 0) ∧
      ∃ prepended,
        prependAll (.lp64 false false) [.int8 5, .int16 (-2)] used = .ok prepended ∧
        prepended.content = [255, 254, 5, 8] := by
  obtain ⟨b, arises, content, reader⟩ := Call.exists_arises false false [7, 8] (by decide)
  have readable : b.readableBytes (.lp64 false false) = 2 := by
    rw [← (arises.valid ()).length_content, content]
    rfl
  have part : 1 < b.readableBytes (.lp64 false false) := by omega
  obtain ⟨used, retrieved, consumed⟩ := Buffer.retrieve_spec (arises.valid ()) part.le
  have moved := (Buffer.retrieve_part (arises.valid ()) part).symm.trans retrieved
  have index : used.prependableBytes = 9 := by
    obtain rfl := Except.ok.inj moved
    rw [Buffer.prependableBytes, reader, kCheapPrepend]
  have left : used.content = [8] := by
    rw [consumed.content, content]
    rfl
  have writer : used.writerIndex_ = 10 := by
    have valid := consumed.valid
    have length := valid.length_content
    rw [left, valid.readableBytes_eq] at length
    have front : used.readerIndex_ = 9 := index
    have one : [8].length = 1 := rfl
    omega
  have ran : (Method.retrieve 1).run (.lp64 false false) b = .ok (.nothing, used) := by
    rw [Method.run, retrieved]
    rfl
  have arises := arises.then (m := .retrieve 1) part.le ran
  obtain ⟨appends, prepends⟩ := typedInts_survive arises () [.int16 (-2), .int8 5]
  have bytes : encode [.int16 (-2), .int8 5] = [255, 254, 5] := by decide
  simp only [bytes, left, writer, index] at appends prepends
  obtain ⟨prepended, returns, content, -⟩ := prepends (by decide)
  exact ⟨used, arises, left, index, appends.resolve_left fun both => absurd both.1 (by decide),
    prepended, returns, content⟩

end TypedInt

end AirNet.Net
