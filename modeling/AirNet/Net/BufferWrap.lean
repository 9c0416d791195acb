import AirNet.Net.BufferBound

/-!
# Room for a length close to the end of `size_t`

`MakeSpace` compares the free bytes with `len + kCheapPrepend` and lets the
vector grow to `writerIndex_ + len`. On a 64-bit host both sums are taken modulo
`2^64`, and a length converted from a negative `int` is large enough for either
to wrap.

A sum of the comparison that has wrapped is small, so the readable bytes are
moved although no amount of moving makes the room. A target that has wrapped is
below the writer index, so the vector is cut off in the middle of the readable
bytes. The assertion of `EnsureWritableBytes` does not see the second: the
difference of the sizes wraps back to `len`.

Wherever the sums do not wrap the function makes room or throws, and nowhere
else (`ensureWritableBytes_safe_iff`). The one exception is a vector with almost
no free bytes, which is told to grow although the sum has wrapped, and throws.
-/

set_option autoImplicit false

namespace AirNet.Net.Buffer

open AirNet.Cpp

variable {P : Platform} {b : Buffer} {len : Nat}

/-- The sums in `MakeSpace` do not wrap, or a wrapped one is still above the
free bytes. -/
def SumsHold (len : Nat) (b : Buffer) : Prop :=
  b.writerIndex_ + len < 2 ^ 64 ∧
    (len + kCheapPrepend < 2 ^ 64 ∨
      b.buffer_.length - b.writerIndex_ + b.readerIndex_ + 2 ^ 64 < len + kCheapPrepend)

instance (len : Nat) (b : Buffer) : Decidable (SumsHold len b) :=
  inferInstanceAs (Decidable (_ ∧ _))

/-- The function throws, with the buffer as it was, or makes room for `len`
bytes, keeps the readable bytes and leaves the indices in order. -/
def Ensures (P : Platform) (len : Nat) (b : Buffer) : Prop :=
  b.ensureWritableBytes P len = .error .lengthError ∨
    ∃ b', b.ensureWritableBytes P len = .ok b' ∧ len ≤ b'.writableBytes P ∧
      b'.content = b.content ∧ b'.readerIndex_ ≤ b'.writerIndex_ ∧
      b'.writerIndex_ ≤ b'.buffer_.length

/-! ## When the vector throws -/

theorem resize_eq_lengthError_iff {size : Nat} :
    b.resize P size = .error .lengthError ↔ P.fits size = false := by
  rw [resize]
  split_ifs with fits
  · simp [fits]
  · simp [Bool.not_eq_true _ ▸ fits]

theorem makeSpace_eq_lengthError_iff :
    b.makeSpace P len = .error .lengthError ↔
      P.sizeAdd (b.writableBytes P) b.prependableBytes < P.sizeAdd len kCheapPrepend ∧
        P.fits (P.sizeAdd b.writerIndex_ len) = false := by
  by_cases grow :
      P.sizeAdd (b.writableBytes P) b.prependableBytes < P.sizeAdd len kCheapPrepend
  · rw [makeSpace, if_pos grow, resize_eq_lengthError_iff, and_iff_right grow]
  · refine iff_of_false (fun throws => ?_) fun both => grow both.1
    rw [makeSpace, if_neg grow] at throws
    -- moving the readable bytes ends with an assertion or an access outside the vector
    rcases bind_eq_error.mp throws with failed | ⟨_, -, throws⟩
    · exact Platform.assert_ne_lengthError failed
    rcases bind_eq_error.mp throws with failed | ⟨_, -, throws⟩
    · rw [moveToFront] at failed
      split_ifs at failed
      cases failed
    rcases bind_eq_error.mp throws with failed | ⟨_, -, throws⟩
    · exact Platform.assert_ne_lengthError failed
    · cases throws

theorem ensureWritableBytes_eq_lengthError_iff :
    b.ensureWritableBytes P len = .error .lengthError ↔
      b.writableBytes P < len ∧
        P.sizeAdd (b.writableBytes P) b.prependableBytes < P.sizeAdd len kCheapPrepend ∧
          P.fits (P.sizeAdd b.writerIndex_ len) = false := by
  have asserted : ∀ b' : Buffer, (P.assert (len ≤ b'.writableBytes P) "WritableBytes() >= len" >>=
      fun _ => pure b') ≠ .error .lengthError := by
    intro b' throws
    rcases bind_eq_error.mp throws with failed | ⟨_, -, returned⟩
    · exact Platform.assert_ne_lengthError failed
    · cases returned
  by_cases short : b.writableBytes P < len
  · rw [and_iff_right short, ← makeSpace_eq_lengthError_iff, ensureWritableBytes, if_pos short,
      bind_eq_error]
    refine or_iff_left ?_
    rintro ⟨b', -, throws⟩
    exact asserted b' throws
  · refine iff_of_false (fun throws => ?_) fun all => short all.1
    rw [ensureWritableBytes, if_neg short, pure_bind] at throws
    exact asserted b throws

/-! ## On a 64-bit host -/

section

variable {ndebug bigEndian : Bool}

/-- Lengths up to the size of the largest vector are safe. -/
theorem sumsHold_of_le (writer_le : b.writerIndex_ ≤ b.buffer_.length)
    (size : b.buffer_.length ≤ 2 ^ 63 - 1) (small : len ≤ 2 ^ 63 - 1) : b.SumsHold len := by
  refine ⟨by omega, .inl ?_⟩
  rw [kCheapPrepend]
  omega

/-- Where the sums hold, the function makes room, or throws because the vector
would have to be larger than the largest one. -/
theorem ensureWritableBytes_of_sumsHold (ordered : b.InOrder (.lp64 ndebug bigEndian))
    (hold : b.SumsHold len) :
    (2 ^ 63 - 1 < b.writerIndex_ + len ∧
        b.ensureWritableBytes (.lp64 ndebug bigEndian) len = .error .lengthError) ∨
      ∃ b', b.ensureWritableBytes (.lp64 ndebug bigEndian) len = .ok b' ∧
        Made (.lp64 ndebug bigEndian) len b b' := by
  obtain ⟨target, needed | full⟩ := hold
  · rcases ensureWritableBytes_cases ordered (Nat.mod_eq_of_lt needed)
      (Nat.mod_eq_of_lt target) with ⟨large, throws⟩ | returns
    · exact .inl ⟨Nat.lt_of_not_le (of_decide_eq_false large), throws⟩
    · exact .inr returns
  · -- the sum of the comparison has wrapped and the vector is told to grow
    have reader := ordered.reader_le
    have writer := ordered.writer_le
    have fits := of_decide_eq_true ordered.fits
    rw [kCheapPrepend] at full
    refine .inl ⟨by omega, ensureWritableBytes_eq_lengthError_iff.mpr ⟨?_, ?_, ?_⟩⟩
    · rw [ordered.writableBytes_eq]
      omega
    · rw [ordered.free_eq]
      simp only [Platform.lp64, kCheapPrepend]
      omega
    · simp only [Platform.lp64, decide_eq_false_iff_not]
      omega

/-- A length beyond the size of the largest vector can only be answered by an
exception. -/
theorem Ensures.throws (ensures : b.Ensures (.lp64 ndebug bigEndian) len)
    (size : b.buffer_.length ≤ 2 ^ 63 - 1) (large : 2 ^ 63 - 1 < len) :
    b.ensureWritableBytes (.lp64 ndebug bigEndian) len = .error .lengthError := by
  refine ensures.resolve_right ?_
  rintro ⟨b', returns, enough, -, reader, writer⟩
  have fits := (ensureWritableBytes_resized returns).fits size
  have ordered : b'.InOrder (.lp64 ndebug bigEndian) := ⟨reader, writer, decide_eq_true fits⟩
  rw [ordered.writableBytes_eq] at enough
  omega

/-- **`EnsureWritableBytes` and wrap-around.** Let the indices be in order in a
vector of a size it may have. For every length, with or without assertions, the
function throws or makes room and keeps the readable bytes if and only if its
sums hold. -/
theorem ensureWritableBytes_safe_iff (reader_le : b.readerIndex_ ≤ b.writerIndex_)
    (writer_le : b.writerIndex_ ≤ b.buffer_.length) (size : b.buffer_.length ≤ 2 ^ 63 - 1)
    (word : len < 2 ^ 64) :
    b.Ensures (.lp64 ndebug bigEndian) len ↔ b.SumsHold len := by
  have ordered : b.InOrder (.lp64 ndebug bigEndian) :=
    ⟨reader_le, writer_le, decide_eq_true size⟩
  constructor
  · intro ensures
    by_cases small : len ≤ 2 ^ 63 - 1
    · exact sumsHold_of_le writer_le size small
    · have throws := ensures.throws size (Nat.lt_of_not_le small)
      obtain ⟨-, grow, large⟩ := ensureWritableBytes_eq_lengthError_iff.mp throws
      rw [ordered.free_eq] at grow
      simp only [Platform.lp64, decide_eq_false_iff_not, kCheapPrepend] at grow large
      refine ⟨by omega, ?_⟩
      rw [kCheapPrepend]
      omega
  · intro hold
    rcases ensureWritableBytes_of_sumsHold ordered hold with ⟨-, throws⟩ | ⟨b', returns, made⟩
    · exact .inl throws
    · exact .inr ⟨b', returns, made.enough, made.content, made.inOrder.reader_le,
        made.inOrder.writer_le⟩

end

/-- Two kilobytes in a buffer just constructed. -/
theorem ensureWritableBytes_safe_iff_fresh :
    fresh.SumsHold 2048 ∧ fresh.Ensures (.lp64 true false) 2048 := by
  have hold : fresh.SumsHold 2048 := by decide +kernel
  exact ⟨hold, (ensureWritableBytes_safe_iff (by decide) (by decide +kernel) (by decide +kernel)
    (by decide)).mpr hold⟩

/-- The length -1 as a `size_t`: the function returns with the room there was. -/
theorem negative_length_makes_no_room :
    fresh.ensureWritableBytes (.lp64 true false) (2 ^ 64 - 1) = .ok fresh ∧
      fresh.writableBytes (.lp64 true false) = 1024 ∧
      ¬ fresh.Ensures (.lp64 true false) (2 ^ 64 - 1) := by
  have returns : fresh.ensureWritableBytes (.lp64 true false) (2 ^ 64 - 1) = .ok fresh := by
    decide +kernel
  have writable : fresh.writableBytes (.lp64 true false) = 1024 := by decide +kernel
  refine ⟨returns, writable, ?_⟩
  rintro (throws | ⟨b', same, enough, -⟩)
  · rw [returns] at throws
    cases throws
  · rw [returns] at same
    rw [← Except.ok.inj same, writable] at enough
    exact absurd enough (by decide)

/-- With one readable byte the length -9 cuts the vector off before the readable
byte, also where assertions are compiled in. -/
example : ({ fresh with writerIndex_ := 9 } : Buffer).ensureWritableBytes (.lp64 false false)
    (2 ^ 64 - 9) = .ok { buffer_ := [], readerIndex_ := 8, writerIndex_ := 9 } := by
  decide +kernel

end AirNet.Net.Buffer
