import AirNet.Lib.Transition
import AirNet.Net.BufferRuns

/-!
# The size of a long-lived buffer

`MakeSpace` lets the vector grow to `writerIndex_ + len` and leaves the readable
bytes where they are, so each growth keeps the unused bytes before the reader
index. They do not accumulate. The vector grows only when the free bytes, those
before the reader index included, are fewer than asked for, and then the size
before was at most what is readable and asked for together.

A run calls the operations in any order. As long as no more than `R` bytes are
readable in any state and no operation asks for more than `L` bytes, the vector
never gets larger than `R + 2 * L + kCheapPrepend` or than it was constructed
(`size_stays_bounded`). The argument is one about sums modulo `2^64`, so it does
not matter whether sums wrap, whether assertions are compiled in, or where a
bare `HasWritten` has moved the writer index. A vector that cannot grow throws
and leaves the buffer as it was.
-/

set_option autoImplicit false

namespace AirNet.Net

open AirNet.Cpp AirNet.Lib

namespace Buffer

variable {P : Platform} {b b' : Buffer} {len : Nat}

/-! ## Operations that may let the vector grow -/

theorem resize_length {size : Nat} (returns : b.resize P size = .ok b') :
    b'.buffer_.length = size ∧ P.fits size = true := by
  rw [resize] at returns
  split_ifs at returns with fits
  obtain rfl := Except.ok.inj returns
  refine ⟨?_, fits⟩
  rw [List.length_append, List.length_take, List.length_replicate]
  omega

theorem moveToFront_length {moved : Bytes} (returns : b.moveToFront = .ok moved) :
    moved.length = b.buffer_.length := by
  simp only [moveToFront] at returns
  split_ifs at returns
  obtain rfl := Except.ok.inj returns
  exact length_copyForward _ _ _ _

/-- The vector has grown for `len` more bytes. -/
structure Grown (P : Platform) (len : Nat) (b b' : Buffer) : Prop where
  short : b.writableBytes P < len
  scarce : P.sizeAdd (b.writableBytes P) b.prependableBytes < P.sizeAdd len kCheapPrepend
  size : b'.buffer_.length = P.sizeAdd b.writerIndex_ len
  fits : P.fits b'.buffer_.length = true

/-- The vector has the size it had, or has grown for `len` more bytes. -/
def Resized (P : Platform) (len : Nat) (b b' : Buffer) : Prop :=
  b'.buffer_.length = b.buffer_.length ∨ Grown P len b b'

theorem Resized.then {b'' : Buffer} (resized : Resized P len b b')
    (same : b''.buffer_.length = b'.buffer_.length) : Resized P len b b'' := by
  refine resized.imp (same.trans ·) fun grown => ?_
  exact ⟨grown.short, grown.scarce, same.trans grown.size, same ▸ grown.fits⟩

theorem makeSpace_resized (short : b.writableBytes P < len)
    (returns : b.makeSpace P len = .ok b') : Resized P len b b' := by
  rw [makeSpace] at returns
  split_ifs at returns with scarce
  · obtain ⟨size, fits⟩ := resize_length returns
    exact .inr ⟨short, scarce, size, size ▸ fits⟩
  · obtain ⟨_, -, returns⟩ := bind_eq_ok.mp returns
    obtain ⟨moved, copied, returns⟩ := bind_eq_ok.mp returns
    obtain ⟨_, -, returns⟩ := bind_eq_ok.mp returns
    obtain rfl := Except.ok.inj returns
    exact .inl (moveToFront_length copied)

theorem ensureWritableBytes_resized (returns : b.ensureWritableBytes P len = .ok b') :
    Resized P len b b' := by
  by_cases short : b.writableBytes P < len
  · simp only [ensureWritableBytes, if_pos short] at returns
    obtain ⟨made, room, returns⟩ := bind_eq_ok.mp returns
    obtain ⟨_, -, returns⟩ := bind_eq_ok.mp returns
    obtain rfl := Except.ok.inj returns
    exact makeSpace_resized short room
  · simp only [ensureWritableBytes, if_neg short, pure_bind] at returns
    obtain ⟨_, -, returns⟩ := bind_eq_ok.mp returns
    obtain rfl := Except.ok.inj returns
    exact .inl rfl

theorem writeAtBeginWrite_length {bytes : Bytes} (returns : b.writeAtBeginWrite bytes = .ok b') :
    b'.buffer_.length = b.buffer_.length := by
  obtain ⟨region, stored, returns⟩ := bind_eq_ok.mp returns
  obtain rfl := Except.ok.inj returns
  exact length_of_storeBytes stored

theorem append_resized {data : Bytes} (returns : b.append P data len = .ok b') :
    Resized P len b b' ∧ len ≤ data.length := by
  obtain ⟨ensured, room, returns⟩ := bind_eq_ok.mp returns
  obtain ⟨bytes, read, returns⟩ := bind_eq_ok.mp returns
  obtain ⟨written, stored, returns⟩ := bind_eq_ok.mp returns
  obtain rfl := Except.ok.inj returns
  have same : written.buffer_.length = ensured.buffer_.length := writeAtBeginWrite_length stored
  exact ⟨(ensureWritableBytes_resized room).then same, le_of_readBytes read⟩

/-! ## Operations that keep the vector -/

theorem retrieve_length (returns : b.retrieve P len = .ok b') :
    b'.buffer_.length = b.buffer_.length := by
  rw [retrieve_buffer returns]

theorem retrieveUntil_length {stop : Nat} (returns : b.retrieveUntil P stop = .ok b') :
    b'.buffer_.length = b.buffer_.length := by
  obtain ⟨_, -, returns⟩ := bind_eq_ok.mp returns
  obtain ⟨_, -, returns⟩ := bind_eq_ok.mp returns
  exact retrieve_length returns

theorem retrieveAsString_length {result : Bytes}
    (returns : b.retrieveAsString P len = .ok (result, b')) :
    b'.buffer_.length = b.buffer_.length := by
  obtain ⟨_, -, returns⟩ := bind_eq_ok.mp returns
  obtain ⟨_, -, returns⟩ := bind_eq_ok.mp returns
  obtain ⟨retrieved, taken, returns⟩ := bind_eq_ok.mp returns
  obtain ⟨-, rfl⟩ := Prod.mk.inj (Except.ok.inj returns)
  exact retrieve_length taken

/-- Reading an integer off the front. -/
theorem read_length {α : Type} {x : α} {peeked : Except Fault α}
    (returns : (peeked >>= fun result => b.retrieve P len >>= fun b => pure (result, b)) =
      .ok (x, b')) : b'.buffer_.length = b.buffer_.length := by
  obtain ⟨result, -, returns⟩ := bind_eq_ok.mp returns
  obtain ⟨retrieved, taken, returns⟩ := bind_eq_ok.mp returns
  obtain ⟨-, rfl⟩ := Prod.mk.inj (Except.ok.inj returns)
  exact retrieve_length taken

theorem prepend_length {data : Bytes} (returns : b.prepend P data len = .ok b') :
    b'.buffer_.length = b.buffer_.length := by
  obtain ⟨_, -, returns⟩ := bind_eq_ok.mp returns
  obtain ⟨_, -, returns⟩ := bind_eq_ok.mp returns
  obtain ⟨region, stored, returns⟩ := bind_eq_ok.mp returns
  obtain rfl := Except.ok.inj returns
  exact length_of_storeBytes stored

/-! ## Sums modulo `2^64` -/

/-- The size is at most `bound`, and one a vector may have. -/
structure Sized (bound : Nat) (b : Buffer) : Prop where
  le : b.buffer_.length ≤ bound
  fits : b.buffer_.length ≤ 2 ^ 63 - 1

/-- The largest size of a buffer with at most `R` readable bytes that is asked
for at most `L` bytes at a time. -/
def sizeBound (R L : Nat) : Nat := max (kCheapPrepend + kInitialSize) (R + 2 * L + kCheapPrepend)

section

variable {ndebug bigEndian : Bool} {R L : Nat}

theorem fresh_sized (R L : Nat) : Sized (sizeBound R L) fresh where
  le := by
    rw [fresh, List.length_replicate]
    exact le_max_left _ _
  fits := by
    rw [fresh, List.length_replicate]
    decide

/-- No vector exceeds a bound that sums could wrap at. -/
theorem Sized.of_fits (fits : b.buffer_.length ≤ 2 ^ 63 - 1)
    (small : R < 2 ^ 63 → L < 2 ^ 62 → b.buffer_.length ≤ sizeBound R L) :
    Sized (sizeBound R L) b := by
  refine ⟨?_, fits⟩
  by_cases below : R < 2 ^ 63 ∧ L < 2 ^ 62
  · exact small below.1 below.2
  · have large : 2 ^ 63 ≤ R + 2 * L + kCheapPrepend := by omega
    exact le_trans (by omega) (le_max_right _ _)

/-- After a growth the size is at most the size before and what was asked for;
the size before is what was readable and the free bytes, which are fewer than
asked for. -/
theorem Grown.le (grown : Grown (.lp64 ndebug bigEndian) len b b')
    (readable : b.readableBytes (.lp64 ndebug bigEndian) ≤ R) (asked : len ≤ L)
    (fits : b.buffer_.length ≤ 2 ^ 63 - 1) (smallR : R < 2 ^ 63) (smallL : L < 2 ^ 62) :
    b'.buffer_.length ≤ R + 2 * L + kCheapPrepend := by
  obtain ⟨short, scarce, size, -⟩ := grown
  simp only [writableBytes, prependableBytes, readableBytes, Platform.lp64, kCheapPrepend]
    at short scarce size readable ⊢
  have before : b.buffer_.length < R + (len + 8) := by omega
  have after : b'.buffer_.length ≤ b.buffer_.length + len := by omega
  omega

theorem Resized.fits (resized : Resized (.lp64 ndebug bigEndian) len b b')
    (fits : b.buffer_.length ≤ 2 ^ 63 - 1) : b'.buffer_.length ≤ 2 ^ 63 - 1 := by
  rcases resized with same | grown
  · rw [same]
    exact fits
  · exact of_decide_eq_true grown.fits

theorem Resized.sized (resized : Resized (.lp64 ndebug bigEndian) len b b')
    (sized : Sized (sizeBound R L) b)
    (readable : b.readableBytes (.lp64 ndebug bigEndian) ≤ R) (asked : len ≤ L) :
    Sized (sizeBound R L) b' := by
  refine .of_fits (resized.fits sized.fits) fun smallR smallL => ?_
  rcases resized with same | grown
  · rw [same]
    exact sized.le
  · exact le_trans (grown.le readable asked sized.fits smallR smallL) (le_max_right _ _)

/-! ## Shrinking -/

/-- Room in a buffer just constructed is made by growing. -/
theorem fresh_ensureWritableBytes {other : Buffer} (small : len < 2 ^ 64 - kCheapPrepend)
    (returns : fresh.ensureWritableBytes (.lp64 ndebug bigEndian) len = .ok other) :
    len ≤ other.writableBytes (.lp64 ndebug bigEndian) ∧
      other.buffer_.length ≤ max (kCheapPrepend + kInitialSize) (kCheapPrepend + len) := by
  have needed : len + kCheapPrepend < 2 ^ 64 := by omega
  have target : fresh.writerIndex_ + len < 2 ^ 64 := by
    rw [Nat.add_comm]
    exact needed
  have made := holds_of_returns (ensureWritableBytes_cases
    (fresh_valid (.lp64 ndebug bigEndian)).inOrder (Nat.mod_eq_of_lt needed)
    (Nat.mod_eq_of_lt target)) returns
  refine ⟨made.enough, ?_⟩
  rcases ensureWritableBytes_resized returns with same | grown
  · rw [same, fresh, List.length_replicate]
    exact le_max_left _ _
  · rw [grown.size]
    exact (Nat.mod_le _ _).trans (le_max_right _ _)

/-- The length of a piece that can be read is at most that of the readable
bytes, even where the conversion to `int` cuts it off. -/
theorem pieceSize_le (read : b.pieceSize (.lp64 ndebug bigEndian) ≤ 2 ^ 63 - 1) :
    b.pieceSize (.lp64 ndebug bigEndian) ≤ b.readableBytes (.lp64 ndebug bigEndian) := by
  simp only [pieceSize, toStringPiece, BitVec.toInt_eq_toNat_cond, BitVec.toNat_ofNat,
    Platform.lp64] at read ⊢
  split_ifs at read ⊢ with positive
  · omega
  · omega

theorem shrink_sized {reserve : Nat} (sized : Sized (sizeBound R L) b)
    (readable : b.readableBytes (.lp64 ndebug bigEndian) ≤ R) (asked : reserve ≤ L)
    (returns : b.shrink (.lp64 ndebug bigEndian) reserve = .ok b') :
    Sized (sizeBound R L) b' := by
  rw [shrink_eq] at returns
  obtain ⟨other, ensured, appended⟩ := bind_eq_ok.mp returns
  obtain ⟨resized, inside⟩ := append_resized appended
  have otherFits := (ensureWritableBytes_resized ensured).fits (fresh_sized R L).fits
  refine .of_fits (resized.fits otherFits) fun smallR smallL => ?_
  have sum : (Platform.lp64 ndebug bigEndian).sizeAdd
      (b.readableBytes (.lp64 ndebug bigEndian)) reserve =
        b.readableBytes (.lp64 ndebug bigEndian) + reserve :=
    Nat.mod_eq_of_lt (by omega)
  rw [sum] at ensured
  obtain ⟨enough, size⟩ := fresh_ensureWritableBytes (by rw [kCheapPrepend]; omega) ensured
  -- the room made is enough for the readable bytes, so nothing grows when they are appended
  have same : b'.buffer_.length = other.buffer_.length := by
    refine resized.resolve_right fun grown => ?_
    have piece : b.peek.length ≤ 2 ^ 63 - 1 := by
      rw [peek, List.length_drop]
      exact (Nat.sub_le _ _).trans sized.fits
    have le := pieceSize_le (inside.trans piece)
    have short := grown.short
    omega
  rw [same]
  refine size.trans (max_le_max (le_refl _) ?_)
  omega

end

end Buffer

namespace Method

/-! ## Runs -/

/-- Call the operation. An exception thrown by the vector leaves the buffer as
it was; after any other fault there is no next state. -/
def step (P : Platform) (m : Method) (b : Buffer) : Option Buffer :=
  match m.run P b with
  | .ok (_, b') => some b'
  | .error .lengthError => some b
  | .error _ => none

/-- The bytes the operation asks for. -/
def asked : Method → Nat
  | .append data => data.length
  | .appendInt32 _ => 4
  | .appendInt16 _ => 2
  | .appendInt8 _ => 1
  | .ensureWritableBytes len => len
  | .fill bytes => bytes.length
  | .shrink reserve => reserve
  | _ => 0

/-- At most `R` bytes are readable and at most `L` bytes are asked for. -/
def Bounded (P : Platform) (R L : Nat) (m : Method) (b : Buffer) : Prop :=
  b.readableBytes P ≤ R ∧ m.asked ≤ L

instance (P : Platform) (R L : Nat) (m : Method) (b : Buffer) : Decidable (Bounded P R L m b) :=
  inferInstanceAs (Decidable (_ ∧ _))

theorem silent_eq_ok {result : Except Fault Buffer} {v : Value} {b' : Buffer}
    (returns : silent result = .ok (v, b')) : result = .ok b' := by
  obtain ⟨b, returned, same⟩ := bind_eq_ok.mp returns
  obtain ⟨-, rfl⟩ := Prod.mk.inj (Except.ok.inj same)
  exact returned

theorem peeked_eq_ok {α : Type} {result : Except Fault α} {value : α → Value} {v : Value}
    {b b' : Buffer} (returns : (result >>= fun x => pure (value x, b)) = .ok (v, b')) :
    b = b' := by
  obtain ⟨x, -, same⟩ := bind_eq_ok.mp returns
  exact (Prod.mk.inj (Except.ok.inj same)).2

theorem read_eq_ok {α : Type} (value : α → Value) {result : Except Fault (α × Buffer)} {v : Value}
    {b' : Buffer} (returns : (result >>= fun (x, b) => pure (value x, b)) = .ok (v, b')) :
    ∃ x, result = .ok (x, b') := by
  obtain ⟨⟨x, b⟩, returned, same⟩ := bind_eq_ok.mp returns
  obtain ⟨-, rfl⟩ := Prod.mk.inj (Except.ok.inj same)
  exact ⟨x, returned⟩

variable {P : Platform} {b b' : Buffer} {v : Value}

/-- Every operation but `Shrink` lets the vector grow only for what it asks. -/
theorem run_resized (m : Method) (returns : m.run P b = .ok (v, b'))
    (other : ∀ reserve, m ≠ .shrink reserve) : Buffer.Resized P m.asked b b' := by
  cases m with
  | append data => exact (Buffer.append_resized (silent_eq_ok returns)).1
  | appendInt32 x => exact (Buffer.append_resized (silent_eq_ok returns)).1
  | appendInt16 x => exact (Buffer.append_resized (silent_eq_ok returns)).1
  | appendInt8 x => exact (Buffer.append_resized (silent_eq_ok returns)).1
  | prepend data => exact .inl (Buffer.prepend_length (silent_eq_ok returns))
  | prependInt32 x => exact .inl (Buffer.prepend_length (silent_eq_ok returns))
  | prependInt16 x => exact .inl (Buffer.prepend_length (silent_eq_ok returns))
  | prependInt8 x => exact .inl (Buffer.prepend_length (silent_eq_ok returns))
  | ensureWritableBytes len => exact Buffer.ensureWritableBytes_resized (silent_eq_ok returns)
  | writeAtBeginWrite bytes => exact .inl (Buffer.writeAtBeginWrite_length (silent_eq_ok returns))
  | hasWritten len =>
      obtain ⟨-, rfl⟩ := Prod.mk.inj (Except.ok.inj returns)
      exact .inl rfl
  | fill bytes =>
      obtain ⟨ensured, room, returns⟩ := bind_eq_ok.mp returns
      obtain ⟨written, stored, returns⟩ := bind_eq_ok.mp returns
      obtain ⟨-, rfl⟩ := Prod.mk.inj (Except.ok.inj returns)
      have same : written.buffer_.length = ensured.buffer_.length :=
        Buffer.writeAtBeginWrite_length stored
      exact (Buffer.ensureWritableBytes_resized room).then same
  | retrieve len => exact .inl (Buffer.retrieve_length (silent_eq_ok returns))
  | retrieveUntil len => exact .inl (Buffer.retrieveUntil_length (silent_eq_ok returns))
  | retrieveInt32 => exact .inl (Buffer.retrieve_length (silent_eq_ok returns))
  | retrieveInt16 => exact .inl (Buffer.retrieve_length (silent_eq_ok returns))
  | retrieveInt8 => exact .inl (Buffer.retrieve_length (silent_eq_ok returns))
  | retrieveAll =>
      obtain ⟨-, rfl⟩ := Prod.mk.inj (Except.ok.inj returns)
      exact .inl rfl
  | retrieveAsString len =>
      obtain ⟨result, retrieved⟩ := read_eq_ok .string returns
      exact .inl (Buffer.retrieveAsString_length retrieved)
  | retrieveAllAsString =>
      obtain ⟨result, retrieved⟩ := read_eq_ok .string returns
      exact .inl (Buffer.retrieveAsString_length retrieved)
  | peekInt32 => exact .inl (by rw [peeked_eq_ok returns])
  | peekInt16 => exact .inl (by rw [peeked_eq_ok returns])
  | peekInt8 => exact .inl (by rw [peeked_eq_ok returns])
  | readInt32 =>
      obtain ⟨x, read⟩ := read_eq_ok (fun x : BitVec 32 => .int x.toInt) returns
      exact .inl (Buffer.read_length read)
  | readInt16 =>
      obtain ⟨x, read⟩ := read_eq_ok (fun x : BitVec 16 => .int x.toInt) returns
      exact .inl (Buffer.read_length read)
  | readInt8 =>
      obtain ⟨x, read⟩ := read_eq_ok (fun x : BitVec 8 => .int x.toInt) returns
      exact .inl (Buffer.read_length read)
  | shrink reserve => exact absurd rfl (other reserve)

variable {ndebug bigEndian : Bool} {R L : Nat}

/-- One call within the bounds. -/
theorem run_sized (m : Method) (sized : Buffer.Sized (Buffer.sizeBound R L) b)
    (bounded : Bounded (.lp64 ndebug bigEndian) R L m b)
    (returns : m.run (.lp64 ndebug bigEndian) b = .ok (v, b')) :
    Buffer.Sized (Buffer.sizeBound R L) b' := by
  by_cases shrinks : ∃ reserve, m = .shrink reserve
  · obtain ⟨reserve, rfl⟩ := shrinks
    exact Buffer.shrink_sized sized bounded.1 bounded.2 (silent_eq_ok returns)
  · have resized := run_resized m returns fun reserve same => shrinks ⟨reserve, same⟩
    exact resized.sized sized bounded.1 bounded.2

theorem step_sized {m : Method} (sized : Buffer.Sized (Buffer.sizeBound R L) b)
    (bounded : Bounded (.lp64 ndebug bigEndian) R L m b)
    (stepped : m.step (.lp64 ndebug bigEndian) b = some b') :
    Buffer.Sized (Buffer.sizeBound R L) b' := by
  rw [step] at stepped
  split at stepped
  case h_1 v after returns =>
    obtain rfl := Option.some.inj stepped
    exact run_sized m sized bounded returns
  case h_2 =>
    obtain rfl := Option.some.inj stepped
    exact sized
  case h_3 => cases stepped

end Method

/-- **A buffer with bounded contents stays bounded.** Along every run of buffer
operations, of any length, in which at most `R` bytes are readable and no call
asks for more than `L` bytes, the vector is never larger than it was constructed
or than `R + 2 * L + kCheapPrepend`. -/
theorem size_stays_bounded {ndebug bigEndian : Bool} {R L : Nat} {b : Buffer}
    (reachable : Reachable (Method.step (.lp64 ndebug bigEndian))
      (Method.Bounded (.lp64 ndebug bigEndian) R L) Buffer.fresh b) :
    b.buffer_.length ≤ max (kCheapPrepend + kInitialSize) (R + 2 * L + kCheapPrepend) := by
  have sized : Buffer.Sized (Buffer.sizeBound R L) b := by
    refine reachable.invariant (Buffer.fresh_sized R L) ?_
    intro m b b' sized bounded stepped
    exact Method.step_sized sized bounded stepped
  exact sized.le

/-- The vector grows for one byte more than it has room for. -/
def growAndRead : List Method := [.ensureWritableBytes 1025, .hasWritten 20, .retrieve 12]

theorem size_stays_bounded_growAndRead :
    ∃ b, execute (Method.step (.lp64 true false)) growAndRead Buffer.fresh = some b ∧
      b.buffer_.length = 1033 ∧ b.buffer_.length ≤ max (8 + 1024) (20 + 2 * 1025 + 8) := by
  have outcome : (execute (Method.step (.lp64 true false)) growAndRead Buffer.fresh).map
      (fun b => b.buffer_.length) = some 1033 := by decide +kernel
  obtain ⟨b, executed, reachable, size⟩ := Reachable.exists_of_execute
    (Method.Bounded (.lp64 true false) 20 1025) outcome (by decide +kernel)
  exact ⟨b, executed, size, size_stays_bounded reachable⟩

end AirNet.Net
