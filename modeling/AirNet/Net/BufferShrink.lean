import AirNet.Net.BufferReach

/-!
# What `Shrink` keeps

`Shrink` copies the readable bytes into a new buffer. They travel as a
`StringPiece`, whose length is an `int`, so their number is cut to 32 bits and
extended again with its sign. Below `2^31` nothing happens to it. At `2^31` it
turns into a `size_t` close to `2^64`, and at `2^32` into zero.

The readable bytes survive exactly below `2^31` (`shrink_keeps_iff`), whatever
the history of the buffer and whatever is reserved. A buffer with `2^32`
readable bytes is emptied without any complaint
(`shrink_empties_four_gigabytes`).
-/

set_option autoImplicit false

namespace AirNet.Net

open AirNet.Cpp

namespace Buffer

variable {ndebug bigEndian : Bool} {b : Buffer} {reserve : Nat}

/-- The cast to `int` and back keeps the number of readable bytes only below
`2^31`. -/
theorem pieceSize_eq_iff (small : b.readableBytes (.lp64 ndebug bigEndian) ≤ 2 ^ 63 - 1) :
    b.pieceSize (.lp64 ndebug bigEndian) = b.readableBytes (.lp64 ndebug bigEndian) ↔
      b.readableBytes (.lp64 ndebug bigEndian) < 2 ^ 31 := by
  have cast : b.pieceSize (.lp64 ndebug bigEndian) =
      ((BitVec.ofNat 32 (b.readableBytes (.lp64 ndebug bigEndian))).toInt % 2 ^ 64).toNat := rfl
  rw [cast, BitVec.toInt_eq_toNat_cond, BitVec.toNat_ofNat]
  omega

theorem Valid.readableBytes_le (valid : b.Valid (.lp64 ndebug bigEndian)) :
    b.readableBytes (.lp64 ndebug bigEndian) ≤ 2 ^ 63 - 1 := by
  have size := of_decide_eq_true valid.fits
  have writer := valid.writer_le
  rw [valid.readableBytes_eq]
  omega

/-- A piece that is not longer than the readable bytes fits into the new buffer. -/
theorem Valid.shrink_returns (valid : b.Valid (.lp64 ndebug bigEndian))
    (fits : b.readableBytes (.lp64 ndebug bigEndian) + reserve + kCheapPrepend ≤ 2 ^ 63 - 1)
    (short : b.pieceSize (.lp64 ndebug bigEndian) ≤
      b.readableBytes (.lp64 ndebug bigEndian)) :
    ∃ b', b.shrink (.lp64 ndebug bigEndian) reserve = .ok b' ∧
      Shrunk (.lp64 ndebug bigEndian) reserve b b' := by
  have started := fresh_valid (.lp64 ndebug bigEndian)
  have hold : fresh.SumsHold (b.readableBytes (.lp64 ndebug bigEndian) + reserve) :=
    started.sumsHold ((Nat.le_add_right _ _).trans fits)
  rcases ensureWritableBytes_of_sumsHold started.inOrder hold with
    ⟨large, -⟩ | ⟨other, ensured, made⟩
  · have writer : fresh.writerIndex_ = kCheapPrepend := rfl
    omega
  have roomy := made.roomy started
  have writer := roomy.valid.writerIndex_eq (roomy.reader rfl)
  rw [roomy.content, content_fresh, List.length_nil] at writer
  rcases append_of_sumsHold roomy.valid (short.trans valid.readableBytes_le_length_peek)
    (roomy.valid.sumsHold (short.trans valid.readableBytes_le)) with
    ⟨large, -⟩ | ⟨b', stored, -⟩
  · omega
  have returns : b.shrink (.lp64 ndebug bigEndian) reserve = .ok b' := by
    rw [shrink_eq, shrinkSum_eq hold, ensured]
    exact stored
  exact ⟨b', returns, valid.shrunk hold returns⟩

/-- **`Shrink` and the cast to `int`.** Let a buffer have any history, and let
its readable bytes, the bytes to reserve and the cheap prepend fit into a
vector. Then `Shrink` keeps the readable bytes behind the cheap prepend, with
the room asked for, if and only if there are fewer than `2^31` of them. -/
theorem shrink_keeps_iff {ι : Type} [DecidableEq ι] {buffers : ι → Buffer}
    (arises : Call.Arises (.lp64 ndebug bigEndian) buffers) (i : ι)
    (fits : (buffers i).readableBytes (.lp64 ndebug bigEndian) + reserve + kCheapPrepend ≤
      2 ^ 63 - 1) :
    (∃ b', (buffers i).shrink (.lp64 ndebug bigEndian) reserve = .ok b' ∧
        b'.content = (buffers i).content ∧ b'.prependableBytes = kCheapPrepend ∧
        reserve ≤ b'.writableBytes (.lp64 ndebug bigEndian)) ↔
      (buffers i).readableBytes (.lp64 ndebug bigEndian) < 2 ^ 31 := by
  have valid := arises.valid i
  have size := pieceSize_eq_iff valid.readableBytes_le
  constructor
  · rintro ⟨b', returns, content, -, -⟩
    have hold := (fresh_valid (.lp64 ndebug bigEndian)).sumsHold
      ((Nat.le_add_right _ _).trans fits)
    have shrunk := valid.shrunk hold returns
    refine size.mp ?_
    rw [← valid.length_content, ← content, shrunk.content, List.length_take_of_le shrunk.inside]
  · intro short
    have same := size.mpr short
    obtain ⟨b', returns, shrunk⟩ := valid.shrink_returns fits same.le
    refine ⟨b', returns, ?_, shrunk.reader, shrunk.reserved same.le⟩
    rw [shrunk.content, same, valid.take_peek (le_refl _), ← valid.length_content,
      List.take_length]

/-- Two bytes, with a hundred to reserve. -/
theorem shrink_keeps_iff_twoBytes :
    ∃ b : Buffer, b.content = [1, 2] ∧ ∃ b', b.shrink (.lp64 false false) 100 = .ok b' ∧
      b'.content = b.content ∧ b'.prependableBytes = kCheapPrepend ∧
      100 ≤ b'.writableBytes (.lp64 false false) := by
  obtain ⟨b, arises, content, -⟩ := Call.exists_arises false false [1, 2] (by decide)
  have readable : b.readableBytes (.lp64 false false) = 2 := by
    rw [← (arises.valid ()).length_content, content]
    rfl
  exact ⟨b, content, (shrink_keeps_iff arises () (by rw [readable]; decide)).mpr
    (by rw [readable]; decide)⟩

/-- `2^32` readable bytes: `Shrink` returns with none of them. -/
theorem shrink_empties_four_gigabytes :
    ∃ b b' : Buffer, Call.Arises (.lp64 true false) (fun _ : Unit => b) ∧
      b.readableBytes (.lp64 true false) = 2 ^ 32 ∧
      b.shrink (.lp64 true false) 0 = .ok b' ∧ b'.content = [] := by
  obtain ⟨b, arises, content, -⟩ := Call.exists_arises true false
    (List.replicate (2 ^ 32) (0 : UInt8)) (by rw [List.length_replicate]; decide)
  have valid := arises.valid ()
  have readable : b.readableBytes (.lp64 true false) = 2 ^ 32 := by
    rw [← valid.length_content, content, List.length_replicate]
  have cut : b.pieceSize (.lp64 true false) = 0 := by
    have cast : (Platform.lp64 true false).sizeOfInt (BitVec.ofNat 32 (2 ^ 32)).toInt = 0 := by
      decide
    rw [pieceSize, toStringPiece, readable]
    exact cast
  have fits : b.readableBytes (.lp64 true false) + 0 + kCheapPrepend ≤ 2 ^ 63 - 1 := by
    rw [readable]
    decide
  have short : b.pieceSize (.lp64 true false) ≤ b.readableBytes (.lp64 true false) := by
    rw [cut]
    exact Nat.zero_le _
  obtain ⟨b', returns, shrunk⟩ := valid.shrink_returns fits short
  refine ⟨b, b', arises, readable, returns, ?_⟩
  rw [shrunk.content, cut, List.take_zero]

end Buffer

end AirNet.Net
