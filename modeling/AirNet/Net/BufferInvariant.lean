import AirNet.Net.Buffer

/-!
# The representation invariant of the buffer

A buffer is valid when its indices are in order, the vector never shrank below
its initial size, and a buffer without readable bytes has both indices at the
cheap prepend. On a valid buffer the size computations of the platform are
exact.

Each operation called within its precondition returns, keeps the buffer valid,
and changes the readable bytes as its name says. Together these are the only
facts about the operations that later modules use. In particular an operation
that returns on a platform with assertions has met all of them, so the
specifications include the assertions inside `EnsureWritableBytes` and
`MakeSpace`.

The readable bytes are moved to the front only when the failed comparison of
the free space leaves no other case than a reader index above the cheap
prepend (`makeSpace_cases`).
-/

set_option autoImplicit false

namespace AirNet.Net.Buffer

open AirNet.Cpp

/-- The indices are in order, and the vector has a size a vector may have. -/
structure InOrder (P : Platform) (b : Buffer) : Prop where
  reader_le : b.readerIndex_ ≤ b.writerIndex_
  writer_le : b.writerIndex_ ≤ b.buffer_.length
  fits : P.fits b.buffer_.length = true

/-- The representation invariant. -/
structure Valid (P : Platform) (b : Buffer) : Prop where
  reader_le : b.readerIndex_ ≤ b.writerIndex_
  writer_le : b.writerIndex_ ≤ b.buffer_.length
  size_ge : kCheapPrepend + kInitialSize ≤ b.buffer_.length
  reset : b.readerIndex_ = b.writerIndex_ → b.readerIndex_ = kCheapPrepend
  writer_ge : kCheapPrepend ≤ b.writerIndex_
  fits : P.fits b.buffer_.length = true

variable {P : Platform} {b : Buffer}

namespace InOrder

theorem readableBytes_eq (ordered : b.InOrder P) :
    b.readableBytes P = b.writerIndex_ - b.readerIndex_ :=
  P.sizeSub_eq ordered.reader_le ordered.writer_le ordered.fits

theorem writableBytes_eq (ordered : b.InOrder P) :
    b.writableBytes P = b.buffer_.length - b.writerIndex_ :=
  P.sizeSub_of_fits ordered.writer_le ordered.fits

/-- The bytes before and behind the readable ones. -/
theorem free_eq (ordered : b.InOrder P) :
    P.sizeAdd (b.writableBytes P) b.prependableBytes =
      b.buffer_.length - b.writerIndex_ + b.readerIndex_ := by
  have reader := ordered.reader_le
  have writer := ordered.writer_le
  rw [ordered.writableBytes_eq, prependableBytes]
  exact P.sizeAdd_eq (by omega) ordered.fits

end InOrder

namespace Valid

theorem inOrder (valid : b.Valid P) : b.InOrder P :=
  ⟨valid.reader_le, valid.writer_le, valid.fits⟩

theorem readableBytes_eq (valid : b.Valid P) :
    b.readableBytes P = b.writerIndex_ - b.readerIndex_ :=
  valid.inOrder.readableBytes_eq

theorem writableBytes_eq (valid : b.Valid P) :
    b.writableBytes P = b.buffer_.length - b.writerIndex_ :=
  valid.inOrder.writableBytes_eq

theorem length_content (valid : b.Valid P) : b.content.length = b.readableBytes P := by
  have reader := valid.reader_le
  have writer := valid.writer_le
  rw [valid.readableBytes_eq, content, List.length_take, List.length_drop]
  omega

/-- The readable bytes are the first bytes at `peek()`. -/
theorem take_peek (valid : b.Valid P) {len : Nat} (le : len ≤ b.readableBytes P) :
    b.peek.take len = b.content.take len := by
  rw [valid.readableBytes_eq] at le
  rw [peek, content, List.take_take, Nat.min_eq_left le]

theorem readableBytes_le_length_peek (valid : b.Valid P) :
    b.readableBytes P ≤ b.peek.length := by
  have writer := valid.writer_le
  rw [valid.readableBytes_eq, peek, List.length_drop]
  omega

theorem readBytes_peek (valid : b.Valid P) :
    readBytes b.peek (b.readableBytes P) = .ok b.content := by
  rw [readBytes_of_le valid.readableBytes_le_length_peek, valid.take_peek (le_refl _),
    ← valid.length_content, List.take_length]

/-- A buffer without readable bytes has both indices at the cheap prepend. -/
theorem indices_of_unread (valid : b.Valid P) (unread : b.readableBytes P = 0) :
    b.readerIndex_ = kCheapPrepend ∧ b.writerIndex_ = kCheapPrepend := by
  have order := valid.reader_le
  rw [valid.readableBytes_eq] at unread
  have reader := valid.reset (by omega)
  exact ⟨reader, by omega⟩

theorem content_of_unread (valid : b.Valid P) (unread : b.readableBytes P = 0) :
    b.content = [] := by
  rw [← List.length_eq_zero_iff, valid.length_content, unread]

theorem room_of_le (valid : b.Valid P) {len : Nat} (le : len ≤ b.writableBytes P) :
    b.writerIndex_ + len ≤ b.buffer_.length := by
  have writer := valid.writer_le
  rw [valid.writableBytes_eq] at le
  omega

end Valid

/-! ## Construction and retrieval -/

theorem fresh_valid (P : Platform) : fresh.Valid P where
  reader_le := le_refl _
  writer_le := by simp [fresh]
  size_ge := by simp [fresh]
  reset := fun _ => rfl
  writer_ge := le_refl _
  fits := by
    refine P.fits_mono ?_ P.fits_least
    rw [fresh, List.length_replicate]
    decide

@[simp] theorem content_fresh : fresh.content = [] := by
  simp [content, fresh]

theorem construct_eq (P : Platform) : construct P = .ok fresh := by
  have valid := fresh_valid P
  have readable : fresh.readableBytes P = 0 := by
    rw [valid.readableBytes_eq]
    rfl
  have writable : fresh.writableBytes P = kInitialSize := by
    rw [valid.writableBytes_eq]
    simp [fresh]
  simp only [construct, P.assert_of readable, P.assert_of writable,
    P.assert_of (show fresh.prependableBytes = kCheapPrepend from rfl), ok_bind]
  rfl

theorem retrieveAll_valid (valid : b.Valid P) : b.retrieveAll.Valid P where
  reader_le := le_refl _
  writer_le := le_trans (Nat.le_add_right _ _) valid.size_ge
  size_ge := valid.size_ge
  reset := fun _ => rfl
  writer_ge := le_refl _
  fits := valid.fits

@[simp] theorem content_retrieveAll : b.retrieveAll.content = [] := by
  simp [content, retrieveAll]

/-- What an operation that consumes `len` readable bytes leaves behind. -/
structure Consumed (P : Platform) (len : Nat) (b b' : Buffer) : Prop where
  valid : b'.Valid P
  content : b'.content = b.content.drop len
  writer_le : b'.writerIndex_ ≤ b.writerIndex_

/-- Retrieving less than all moves the reader index. -/
theorem retrieve_part {len : Nat} (valid : b.Valid P) (part : len < b.readableBytes P) :
    b.retrieve P len = .ok { b with readerIndex_ := b.readerIndex_ + len } := by
  have readable := valid.readableBytes_eq
  have writer := valid.writer_le
  have sum : P.sizeAdd b.readerIndex_ len = b.readerIndex_ + len :=
    P.sizeAdd_eq (by omega) valid.fits
  simp only [retrieve, P.assert_of part.le, ok_bind, if_pos part, sum]
  rfl

theorem retrieve_spec {len : Nat} (valid : b.Valid P) (le : len ≤ b.readableBytes P) :
    ∃ b', b.retrieve P len = .ok b' ∧ Consumed P len b b' := by
  have readable := valid.readableBytes_eq
  by_cases part : len < b.readableBytes P
  · refine ⟨_, retrieve_part valid part, ⟨?_, valid.writer_le, valid.size_ge, ?_,
      valid.writer_ge, valid.fits⟩, ?_, le_refl _⟩
    · show b.readerIndex_ + len ≤ b.writerIndex_
      omega
    · intro empty
      have empty : b.readerIndex_ + len = b.writerIndex_ := empty
      omega
    · simp only [Buffer.content, List.drop_take, List.drop_drop]
      congr 1
      omega
  · simp only [retrieve, P.assert_of le, ok_bind, if_neg part]
    refine ⟨_, rfl, retrieveAll_valid valid, ?_, valid.writer_ge⟩
    have all : b.content.length ≤ len := by
      rw [valid.length_content]
      omega
    rw [content_retrieveAll, List.drop_of_length_le all]

/-- Retrieving moves the indices only. -/
theorem retrieve_buffer {len : Nat} {b' : Buffer} (returns : b.retrieve P len = .ok b') :
    b'.buffer_ = b.buffer_ := by
  obtain ⟨_, -, returns⟩ := bind_eq_ok.mp returns
  split_ifs at returns
  · obtain rfl := Except.ok.inj returns
    rfl
  · obtain rfl := Except.ok.inj returns
    rfl

/-- Behind the bytes retrieved lies the memory that lay there before, unless all
of them were retrieved. -/
theorem retrieve_peek {len : Nat} {b' : Buffer} (valid : b.Valid P)
    (part : len < b.readableBytes P) (returns : b.retrieve P len = .ok b') :
    b'.peek = b.peek.drop len := by
  obtain rfl := Except.ok.inj ((retrieve_part valid part).symm.trans returns)
  rw [peek, peek, List.drop_drop]

theorem retrieveUntil_spec {stop : Nat} (valid : b.Valid P) (lower : b.readerIndex_ ≤ stop)
    (upper : stop ≤ b.writerIndex_) :
    ∃ b', b.retrieveUntil P stop = .ok b' ∧ Consumed P (stop - b.readerIndex_) b b' := by
  have distance : P.sizeSub stop b.readerIndex_ = stop - b.readerIndex_ :=
    P.sizeSub_eq lower (upper.trans valid.writer_le) valid.fits
  simp only [retrieveUntil, P.assert_of lower, P.assert_of upper, ok_bind, distance]
  apply retrieve_spec valid
  rw [valid.readableBytes_eq]
  omega

theorem retrieveAsString_spec {len : Nat} (valid : b.Valid P) (le : len ≤ b.readableBytes P) :
    ∃ b', b.retrieveAsString P len = .ok (b.content.take len, b') ∧ Consumed P len b b' := by
  obtain ⟨b', returns, consumed⟩ := retrieve_spec valid le
  refine ⟨b', ?_, consumed⟩
  simp only [retrieveAsString, P.assert_of le, ok_bind,
    readBytes_of_le (le.trans valid.readableBytes_le_length_peek), returns, valid.take_peek le]
  rfl

theorem retrieveAllAsString_spec (valid : b.Valid P) :
    ∃ b', b.retrieveAllAsString P = .ok (b.content, b') ∧
      Consumed P (b.readableBytes P) b b' := by
  have spec := retrieveAsString_spec valid (le_refl (b.readableBytes P))
  rwa [← valid.length_content, List.take_length, valid.length_content] at spec

/-! ## Making room -/

/-- What making room for `len` bytes does. The vector grows and the indices
stay, or the readable bytes slide down to the cheap prepend. -/
structure Made (P : Platform) (len : Nat) (b b' : Buffer) : Prop where
  inOrder : b'.InOrder P
  content : b'.content = b.content
  room : b'.writerIndex_ + len ≤ b'.buffer_.length
  grows : b.buffer_.length ≤ b'.buffer_.length
  indices : b'.readerIndex_ = b.readerIndex_ ∧ b'.writerIndex_ = b.writerIndex_ ∨
    kCheapPrepend < b.readerIndex_ ∧ b'.readerIndex_ = kCheapPrepend ∧
      b'.writerIndex_ = kCheapPrepend + (b.writerIndex_ - b.readerIndex_)

theorem Made.refl {len : Nat} (ordered : b.InOrder P) (enough : len ≤ b.writableBytes P) :
    Made P len b b := by
  have writer := ordered.writer_le
  rw [ordered.writableBytes_eq] at enough
  exact ⟨ordered, rfl, by omega, le_refl _, .inl ⟨rfl, rfl⟩⟩

theorem Made.enough {len : Nat} {b' : Buffer} (made : Made P len b b') :
    len ≤ b'.writableBytes P := by
  have room := made.room
  rw [made.inOrder.writableBytes_eq]
  omega

theorem resize_made {len : Nat} (ordered : b.InOrder P)
    (grows : b.buffer_.length ≤ b.writerIndex_ + len)
    (fits : P.fits (b.writerIndex_ + len) = true) :
    ∃ b', b.resize P (b.writerIndex_ + len) = .ok b' ∧ Made P len b b' := by
  have size : (b.buffer_.take (b.writerIndex_ + len) ++
      List.replicate (b.writerIndex_ + len - b.buffer_.length) 0).length =
        b.writerIndex_ + len := by
    rw [List.length_append, List.length_take, List.length_replicate]
    omega
  have reader := ordered.reader_le
  have writer := ordered.writer_le
  rw [resize, if_pos fits]
  refine ⟨_, rfl, ⟨reader, ?_, ?_⟩, ?_, ?_, ?_, .inl ⟨rfl, rfl⟩⟩
  · simp only [size]
    omega
  · simp only [size]
    exact fits
  · simp only [Buffer.content]
    rw [List.take_of_length_le grows, List.drop_append_of_le_length (reader.trans writer),
      List.take_append_of_le_length (by rw [List.length_drop]; omega)]
  · simp only [size]
    exact le_refl _
  · simp only [size]
    exact grows

theorem moveToFront_eq (ordered : b.InOrder P) (above : kCheapPrepend ≤ b.readerIndex_) :
    b.moveToFront = .ok (copyForward (b.writerIndex_ - b.readerIndex_) b.readerIndex_
      kCheapPrepend b.buffer_) := by
  have reader := ordered.reader_le
  have writer := ordered.writer_le
  rw [moveToFront]
  exact if_pos ⟨reader, writer, by omega⟩

/-- The buffer after its readable bytes were moved to the front. -/
def slid (b : Buffer) : Buffer where
  buffer_ := copyForward (b.writerIndex_ - b.readerIndex_) b.readerIndex_ kCheapPrepend b.buffer_
  readerIndex_ := kCheapPrepend
  writerIndex_ := kCheapPrepend + (b.writerIndex_ - b.readerIndex_)

/-- Moving the readable bytes to the front turns prependable bytes into
writable ones. -/
theorem slid_made {len : Nat} (ordered : b.InOrder P) (above : kCheapPrepend < b.readerIndex_)
    (enough : len + kCheapPrepend ≤ b.buffer_.length - b.writerIndex_ + b.readerIndex_) :
    Made P len b b.slid := by
  have reader := ordered.reader_le
  have writer := ordered.writer_le
  refine ⟨⟨Nat.le_add_right _ _, ?_, ?_⟩, ?_, ?_, ?_, .inr ⟨above, rfl, rfl⟩⟩
  · simp only [slid, length_copyForward]
    omega
  · simp only [slid, length_copyForward]
    exact ordered.fits
  · simp only [Buffer.content, slid, Nat.add_sub_cancel_left]
    exact copyForward_range (le_of_lt above) (by omega)
  · simp only [slid, length_copyForward]
    omega
  · simp only [slid, length_copyForward]
    exact le_refl _

/-- Called without enough writable bytes, `MakeSpace` lets the vector grow, or
throws where it cannot, or finds the reader index above the cheap prepend and
slides the readable bytes down over themselves. -/
theorem makeSpace_cases {len : Nat} (ordered : b.InOrder P) (short : b.writableBytes P < len)
    (needed : P.sizeAdd len kCheapPrepend = len + kCheapPrepend)
    (target : P.sizeAdd b.writerIndex_ len = b.writerIndex_ + len) :
    (P.fits (b.writerIndex_ + len) = false ∧ b.makeSpace P len = .error .lengthError) ∨
      ∃ b', b.makeSpace P len = .ok b' ∧ Made P len b b' := by
  have reader := ordered.reader_le
  have writer := ordered.writer_le
  rw [makeSpace, ordered.free_eq, needed, target]
  rw [ordered.writableBytes_eq] at short
  by_cases grow : b.buffer_.length - b.writerIndex_ + b.readerIndex_ < len + kCheapPrepend
  · rw [if_pos grow]
    cases fits : P.fits (b.writerIndex_ + len) with
    | true => exact .inr (resize_made ordered (by omega) fits)
    | false => exact .inl ⟨rfl, if_neg (Bool.not_eq_true _ ▸ fits)⟩
  · -- the writable bytes alone are too few, so the reader index makes up the difference
    have above : kCheapPrepend < b.readerIndex_ := by omega
    have made : Made P len b b.slid := slid_made ordered above (Nat.le_of_not_lt grow)
    have moved : P.sizeAdd kCheapPrepend (b.readableBytes P) =
        kCheapPrepend + (b.writerIndex_ - b.readerIndex_) := by
      rw [ordered.readableBytes_eq]
      exact P.sizeAdd_eq (by omega) ordered.fits
    have kept : b.readableBytes P = b.slid.readableBytes P := by
      rw [ordered.readableBytes_eq, made.inOrder.readableBytes_eq, slid, Nat.add_sub_cancel_left]
    refine .inr ⟨b.slid, ?_, made⟩
    rw [if_neg grow]
    simp only [P.assert_of above, moveToFront_eq ordered (le_of_lt above), ok_bind, moved]
    exact congrArg (· >>= fun _ => pure b.slid) (P.assert_of kept _)

/-- As long as its sums are exact, `EnsureWritableBytes` makes room or throws. -/
theorem ensureWritableBytes_cases {len : Nat} (ordered : b.InOrder P)
    (needed : P.sizeAdd len kCheapPrepend = len + kCheapPrepend)
    (target : P.sizeAdd b.writerIndex_ len = b.writerIndex_ + len) :
    (P.fits (b.writerIndex_ + len) = false ∧
        b.ensureWritableBytes P len = .error .lengthError) ∨
      ∃ b', b.ensureWritableBytes P len = .ok b' ∧ Made P len b b' := by
  by_cases short : b.writableBytes P < len
  · rcases makeSpace_cases ordered short needed target with ⟨large, throws⟩ | ⟨b', returns, made⟩
    · refine .inl ⟨large, ?_⟩
      simp only [ensureWritableBytes, if_pos short, throws]
      rfl
    · refine .inr ⟨b', ?_, made⟩
      simp only [ensureWritableBytes, if_pos short, returns, ok_bind, P.assert_of made.enough]
      rfl
  · have enough := Nat.le_of_not_lt short
    refine .inr ⟨b, ?_, .refl ordered enough⟩
    simp only [ensureWritableBytes, if_neg short, pure_bind, P.assert_of enough, ok_bind]
    rfl

/-- What an operation that makes room for `len` bytes leaves behind. -/
structure Roomy (P : Platform) (len : Nat) (b b' : Buffer) : Prop where
  valid : b'.Valid P
  content : b'.content = b.content
  room : b'.writerIndex_ + len ≤ b'.buffer_.length
  writer_le : b'.writerIndex_ ≤ b.writerIndex_
  reader : b.readerIndex_ = kCheapPrepend → b'.readerIndex_ = kCheapPrepend

theorem Made.roomy {len : Nat} {b' : Buffer} (made : Made P len b b') (valid : b.Valid P) :
    Roomy P len b b' := by
  obtain ⟨⟨reader_le, writer_le, fits⟩, content, room, grows, indices⟩ := made
  have size_ge := valid.size_ge.trans grows
  have order := valid.reader_le
  have writer_ge := valid.writer_ge
  rcases indices with ⟨reader, writer⟩ | ⟨above, reader, writer⟩
  · refine ⟨⟨reader_le, writer_le, size_ge, ?_, ?_, fits⟩, content, room, writer.le, ?_⟩
    · rw [reader, writer]
      exact valid.reset
    · rw [writer]
      exact writer_ge
    · rw [reader]
      exact id
  · refine ⟨⟨reader_le, writer_le, size_ge, fun _ => reader, ?_, fits⟩, content, room, ?_,
      fun _ => reader⟩
    · rw [writer]
      exact Nat.le_add_right _ _
    · omega

theorem ensureWritableBytes_spec (len : Nat) (valid : b.Valid P)
    (fits : P.fits (b.writerIndex_ + len + kCheapPrepend) = true) :
    ∃ b', b.ensureWritableBytes P len = .ok b' ∧ Roomy P len b b' := by
  have needed : P.sizeAdd len kCheapPrepend = len + kCheapPrepend :=
    P.sizeAdd_eq (by omega) fits
  have target : P.sizeAdd b.writerIndex_ len = b.writerIndex_ + len :=
    P.sizeAdd_eq (Nat.le_add_right _ _) fits
  rcases ensureWritableBytes_cases valid.inOrder needed target with
    ⟨large, -⟩ | ⟨b', returns, made⟩
  · rw [P.fits_mono (Nat.le_add_right _ _) fits] at large
    cases large
  · exact ⟨b', returns, made.roomy valid⟩

/-! ## Appending -/

theorem writeAtBeginWrite_eq {bytes : Bytes}
    (room : b.writerIndex_ + bytes.length ≤ b.buffer_.length) :
    b.writeAtBeginWrite bytes =
      .ok { b with buffer_ := overwrite b.buffer_ b.writerIndex_ bytes } := by
  simp only [writeAtBeginWrite, storeBytes_of_le room, ok_bind]
  rfl

theorem overwritten_valid {bytes : Bytes} {position : Nat} (valid : b.Valid P)
    (room : position + bytes.length ≤ b.buffer_.length) :
    Valid P { b with buffer_ := overwrite b.buffer_ position bytes } where
  reader_le := valid.reader_le
  writer_le := (length_overwrite room).symm ▸ valid.writer_le
  size_ge := (length_overwrite room).symm ▸ valid.size_ge
  reset := valid.reset
  writer_ge := valid.writer_ge
  fits := (length_overwrite room).symm ▸ valid.fits

/-- The readable bytes end where those at `BeginWrite()` begin. -/
theorem content_overwritten (bytes : Bytes) (valid : b.Valid P) :
    content { b with buffer_ := overwrite b.buffer_ b.writerIndex_ bytes } = b.content := by
  have front := take_overwrite bytes valid.writer_le
  simp only [Buffer.content]
  rw [← List.drop_take, front, List.drop_take]

theorem hasWritten_writerIndex {len : Nat} (valid : b.Valid P)
    (le : b.writerIndex_ + len ≤ b.buffer_.length) :
    (b.hasWritten P len).writerIndex_ = b.writerIndex_ + len :=
  P.sizeAdd_eq le valid.fits

theorem hasWritten_valid {len : Nat} (valid : b.Valid P)
    (le : b.writerIndex_ + len ≤ b.buffer_.length) : (b.hasWritten P len).Valid P := by
  have writer := hasWritten_writerIndex valid le
  have reader := valid.reader_le
  refine ⟨?_, ?_, valid.size_ge, ?_, ?_, valid.fits⟩
  · rw [writer]
    exact reader.trans (Nat.le_add_right _ _)
  · rw [writer]
    exact le
  · intro empty
    rw [writer] at empty
    -- no byte was added to an empty buffer
    have unchanged : b.readerIndex_ = b.writerIndex_ := by
      have same : b.readerIndex_ = b.writerIndex_ + len := empty
      omega
    exact valid.reset unchanged
  · rw [writer]
    exact valid.writer_ge.trans (Nat.le_add_right _ _)

/-- Bytes written at the writer index become the last readable bytes. -/
theorem content_written {bytes : Bytes} (valid : b.Valid P)
    (room : b.writerIndex_ + bytes.length ≤ b.buffer_.length) :
    (hasWritten P bytes.length
      { b with buffer_ := overwrite b.buffer_ b.writerIndex_ bytes }).content =
        b.content ++ bytes := by
  have reader := valid.reader_le
  have front : (b.buffer_.take b.writerIndex_).length = b.writerIndex_ :=
    List.length_take_of_le valid.writer_le
  have count : P.sizeAdd b.writerIndex_ bytes.length - b.readerIndex_ =
      (b.writerIndex_ - b.readerIndex_) + bytes.length := by
    rw [P.sizeAdd_eq room valid.fits]
    omega
  have readable : ((b.buffer_.take b.writerIndex_).drop b.readerIndex_).length =
      b.writerIndex_ - b.readerIndex_ := by
    rw [List.length_drop, front]
  simp only [Buffer.content, hasWritten, overwrite, List.append_assoc, count]
  rw [List.drop_append_of_le_length (by rw [front]; exact reader), ← readable,
    List.take_length_add_append, List.take_append_of_le_length (le_refl _), List.take_length,
    readable, List.drop_take]

/-- What an operation that appends the bytes leaves behind. -/
structure Appended (P : Platform) (bytes : Bytes) (b b' : Buffer) : Prop where
  valid : b'.Valid P
  content : b'.content = b.content ++ bytes
  writer_le : b'.writerIndex_ ≤ b.writerIndex_ + bytes.length
  reader : b.readerIndex_ = kCheapPrepend → b'.readerIndex_ = kCheapPrepend

theorem Appended.trans {first second : Bytes} {b' b'' : Buffer}
    (before : Appended P first b b') (after : Appended P second b' b'') :
    Appended P (first ++ second) b b'' where
  valid := after.valid
  content := by rw [after.content, before.content, List.append_assoc]
  writer_le := by
    have firstBound := before.writer_le
    have secondBound := after.writer_le
    rw [List.length_append]
    omega
  reader := after.reader ∘ before.reader

/-- Room, bytes written at `BeginWrite()`, and `HasWritten` append the bytes. -/
theorem Roomy.written {bytes : Bytes} {b' : Buffer} (roomy : Roomy P bytes.length b b') :
    ∃ b'', b'.writeAtBeginWrite bytes = .ok b'' ∧
      Appended P bytes b (b''.hasWritten P bytes.length) := by
  refine ⟨_, writeAtBeginWrite_eq roomy.room, ?_⟩
  have overwritten := overwritten_valid roomy.valid roomy.room
  have room : b'.writerIndex_ + bytes.length ≤
      (overwrite b'.buffer_ b'.writerIndex_ bytes).length := by
    rw [length_overwrite roomy.room]
    exact roomy.room
  refine ⟨hasWritten_valid overwritten room, ?_, ?_, roomy.reader⟩
  · rw [content_written roomy.valid roomy.room, roomy.content]
  · rw [hasWritten_writerIndex overwritten room]
    exact Nat.add_le_add_right roomy.writer_le _

/-- Once room was made, the bytes are appended. -/
theorem Roomy.append {data : Bytes} {len : Nat} {b' : Buffer} (roomy : Roomy P len b b')
    (le : len ≤ data.length) (ensured : b.ensureWritableBytes P len = .ok b') :
    ∃ b'', b.append P data len = .ok b'' ∧ Appended P (data.take len) b b'' := by
  have length : (data.take len).length = len := List.length_take_of_le le
  rw [← length] at roomy
  obtain ⟨b'', stored, appended⟩ := roomy.written
  refine ⟨_, ?_, appended⟩
  simp only [Buffer.append, ensured, readBytes_of_le le, stored, ok_bind, length]
  rfl

theorem append_spec {data : Bytes} {len : Nat} (valid : b.Valid P) (le : len ≤ data.length)
    (fits : P.fits (b.writerIndex_ + len + kCheapPrepend) = true) :
    ∃ b', b.append P data len = .ok b' ∧ Appended P (data.take len) b b' := by
  obtain ⟨b', ensured, roomy⟩ := ensureWritableBytes_spec len valid fits
  exact roomy.append le ensured

/-- Appending a whole byte string. -/
theorem append_all_spec (data : Bytes) (valid : b.Valid P)
    (fits : P.fits (b.writerIndex_ + data.length + kCheapPrepend) = true) :
    ∃ b', b.append P data data.length = .ok b' ∧ Appended P data b b' := by
  have spec := append_spec valid (le_refl data.length) fits
  rwa [List.take_length] at spec

theorem appendInt_spec (width value : Nat) (valid : b.Valid P)
    (fits : P.fits (b.writerIndex_ + width + kCheapPrepend) = true) :
    ∃ b', b.appendInt P width value = .ok b' ∧ Appended P (beBytes width value) b b' := by
  have length := length_beBytes width value
  have spec := append_all_spec (beBytes width value) valid (by rwa [length])
  rw [appendInt, P.objectBytes_hostToNetwork]
  rwa [length] at spec

theorem appendInt8_spec {x : BitVec 8} (valid : b.Valid P)
    (fits : P.fits (b.writerIndex_ + 1 + kCheapPrepend) = true) :
    ∃ b', b.appendInt8 P x = .ok b' ∧ Appended P (beBytes 1 x.toNat) b b' := by
  have length := length_beBytes 1 x.toNat
  have spec := append_all_spec (beBytes 1 x.toNat) valid (by rwa [length])
  rw [appendInt8, P.objectBytes_one]
  rwa [length] at spec

/-! ## Prepending -/

/-- What an operation that prepends the bytes leaves behind. -/
structure Prepended (P : Platform) (bytes : Bytes) (b b' : Buffer) : Prop where
  valid : b'.Valid P
  content : b'.content = bytes ++ b.content
  reader : b'.readerIndex_ = b.readerIndex_ - bytes.length
  writer : b'.writerIndex_ = b.writerIndex_

theorem Prepended.trans {first second : Bytes} {b' b'' : Buffer}
    (before : Prepended P second b b') (after : Prepended P first b' b'') :
    Prepended P (first ++ second) b b'' where
  valid := after.valid
  content := by rw [after.content, before.content, List.append_assoc]
  reader := by
    rw [after.reader, before.reader, List.length_append]
    omega
  writer := after.writer.trans before.writer

theorem prepend_spec (data : Bytes) {len : Nat} (valid : b.Valid P) (le : len ≤ data.length)
    (room : len ≤ b.prependableBytes) :
    ∃ b', b.prepend P data len = .ok b' ∧ Prepended P (data.take len) b b' := by
  have length : (data.take len).length = len := List.length_take_of_le le
  have front : len ≤ b.readerIndex_ := room
  have reader := valid.reader_le
  have writer := valid.writer_le
  have start : P.sizeSub b.readerIndex_ len = b.readerIndex_ - len :=
    P.sizeSub_eq front (reader.trans writer) valid.fits
  have inside : b.readerIndex_ - len + (data.take len).length ≤ b.buffer_.length := by
    rw [length]
    omega
  have shifted : Valid P { b with readerIndex_ := b.readerIndex_ - len } := by
    refine ⟨by simp only; omega, writer, valid.size_ge, ?_, valid.writer_ge, valid.fits⟩
    intro empty
    simp only at empty ⊢
    have unchanged : b.readerIndex_ = b.writerIndex_ := by omega
    have reset := valid.reset unchanged
    omega
  refine ⟨_, ?_, overwritten_valid shifted inside, ?_, ?_, rfl⟩
  · simp only [prepend, P.assert_of room, ok_bind, start, readBytes_of_le le,
      storeBytes_of_le inside]
    rfl
  · have count : b.writerIndex_ - (b.readerIndex_ - len) =
        (data.take len).length + (b.writerIndex_ - b.readerIndex_) := by
      rw [length]
      omega
    simp only [Buffer.content]
    rw [drop_overwrite (by omega), count, List.take_length_add_append, length,
      Nat.sub_add_cancel front]
  · simp only [length]

theorem prependInt_spec (width value : Nat) (valid : b.Valid P)
    (room : width ≤ b.prependableBytes) :
    ∃ b', b.prependInt P width value = .ok b' ∧ Prepended P (beBytes width value) b b' := by
  have length := length_beBytes width value
  have spec := prepend_spec (beBytes width value) valid (le_of_eq length.symm) room
  rw [prependInt, P.objectBytes_hostToNetwork]
  rwa [List.take_of_length_le (le_of_eq length)] at spec

theorem prependInt8_spec {x : BitVec 8} (valid : b.Valid P) (room : 1 ≤ b.prependableBytes) :
    ∃ b', b.prependInt8 P x = .ok b' ∧ Prepended P (beBytes 1 x.toNat) b b' := by
  have length := length_beBytes 1 x.toNat
  have spec := prepend_spec (beBytes 1 x.toNat) valid (le_of_eq length.symm) room
  rw [prependInt8, P.objectBytes_one]
  rwa [List.take_of_length_le (le_of_eq length)] at spec

/-! ## Reading integers -/

theorem peekInt_eq {width : Nat} {expression : String} (valid : b.Valid P)
    (le : width ≤ b.readableBytes P) :
    b.peekInt P width expression = .ok (ofBe (b.content.take width)) := by
  have length : (b.content.take width).length = width := by
    rw [List.length_take_of_le (by rw [valid.length_content]; exact le)]
  have value := P.networkToHost_ofObjectBytes (b.content.take width)
  rw [length] at value
  simp only [peekInt, P.assert_of le, ok_bind,
    readBytes_of_le (le.trans valid.readableBytes_le_length_peek), valid.take_peek le, value]
  rfl

theorem peekInt32_eq (valid : b.Valid P) (le : 4 ≤ b.readableBytes P) :
    b.peekInt32 P = .ok (BitVec.ofNat 32 (ofBe (b.content.take 4))) := by
  simp only [peekInt32, peekInt_eq valid le, ok_bind]
  rfl

theorem peekInt16_eq (valid : b.Valid P) (le : 2 ≤ b.readableBytes P) :
    b.peekInt16 P = .ok (BitVec.ofNat 16 (ofBe (b.content.take 2))) := by
  simp only [peekInt16, peekInt_eq valid le, ok_bind]
  rfl

theorem peekInt8_eq (valid : b.Valid P) (le : 1 ≤ b.readableBytes P) :
    b.peekInt8 P = .ok (BitVec.ofNat 8 (ofBe (b.content.take 1))) := by
  have length : (b.content.take 1).length = 1 :=
    List.length_take_of_le (by rw [valid.length_content]; exact le)
  simp only [peekInt8, P.assert_of le, ok_bind,
    readBytes_of_le (le.trans valid.readableBytes_le_length_peek), valid.take_peek le,
    P.ofObjectBytes_of_length_one length]
  rfl

theorem readInt32_spec (valid : b.Valid P) (le : 4 ≤ b.readableBytes P) :
    ∃ b', b.readInt32 P = .ok (BitVec.ofNat 32 (ofBe (b.content.take 4)), b') ∧
      Consumed P 4 b b' := by
  obtain ⟨b', returns, consumed⟩ := retrieve_spec valid le
  refine ⟨b', ?_, consumed⟩
  simp only [readInt32, peekInt32_eq valid le, retrieveInt32, returns, ok_bind]
  rfl

theorem readInt16_spec (valid : b.Valid P) (le : 2 ≤ b.readableBytes P) :
    ∃ b', b.readInt16 P = .ok (BitVec.ofNat 16 (ofBe (b.content.take 2)), b') ∧
      Consumed P 2 b b' := by
  obtain ⟨b', returns, consumed⟩ := retrieve_spec valid le
  refine ⟨b', ?_, consumed⟩
  simp only [readInt16, peekInt16_eq valid le, retrieveInt16, returns, ok_bind]
  rfl

theorem readInt8_spec (valid : b.Valid P) (le : 1 ≤ b.readableBytes P) :
    ∃ b', b.readInt8 P = .ok (BitVec.ofNat 8 (ofBe (b.content.take 1)), b') ∧
      Consumed P 1 b b' := by
  obtain ⟨b', returns, consumed⟩ := retrieve_spec valid le
  refine ⟨b', ?_, consumed⟩
  simp only [readInt8, peekInt8_eq valid le, retrieveInt8, returns, ok_bind]
  rfl

/-! ## Shrinking -/

/-- The length of a `StringPiece` is exact below `2^31`. -/
theorem toStringPiece_length (short : b.readableBytes P < 2 ^ 31) :
    (b.toStringPiece P).length_ = b.readableBytes P :=
  toInt_ofNat_of_lt short

/-- The number of bytes that `Shrink` copies: that of the readable bytes, cast
to an `int` and back to `size_t`. -/
def pieceSize (P : Platform) (b : Buffer) : Nat := P.sizeOfInt (b.toStringPiece P).length_

theorem pieceSize_of_lt (short : b.readableBytes P < 2 ^ 31) :
    b.pieceSize P = b.readableBytes P := by
  rw [pieceSize, toStringPiece_length short]
  exact P.sizeOfInt_of_fits (P.fits_mono (by omega) P.fits_least)

/-- `Shrink` makes room in a buffer just constructed and appends the piece. -/
theorem shrink_eq (reserve : Nat) :
    b.shrink P reserve =
      fresh.ensureWritableBytes P (P.sizeAdd (b.readableBytes P) reserve) >>= fun other =>
        other.append P b.peek (b.pieceSize P) := by
  rw [shrink, construct_eq, ok_bind]
  refine bind_congr fun other => ?_
  exact bind_pure _

theorem shrink_spec {reserve : Nat} (valid : b.Valid P) (short : b.readableBytes P < 2 ^ 31)
    (fits : P.fits (kCheapPrepend + (b.readableBytes P + reserve) + kCheapPrepend) = true) :
    ∃ b', b.shrink P reserve = .ok b' ∧ b'.Valid P ∧ b'.content = b.content ∧
      b'.readerIndex_ = kCheapPrepend := by
  have sum : P.sizeAdd (b.readableBytes P) reserve = b.readableBytes P + reserve :=
    P.sizeAdd_eq (by omega) fits
  obtain ⟨other, ensured, roomy⟩ := ensureWritableBytes_spec _ (fresh_valid P) fits
  have writer : other.writerIndex_ ≤ kCheapPrepend := roomy.writer_le
  obtain ⟨b', appended, done⟩ := append_spec (b := other) roomy.valid
    valid.readableBytes_le_length_peek (P.fits_mono (by omega) fits)
  refine ⟨b', ?_, done.valid, ?_, done.reader (roomy.reader rfl)⟩
  · rw [shrink_eq, sum, ensured, ok_bind, pieceSize_of_lt short, appended]
  · rw [done.content, roomy.content, content_fresh, List.nil_append,
      valid.take_peek (le_refl _), ← valid.length_content, List.take_length]

end AirNet.Net.Buffer
