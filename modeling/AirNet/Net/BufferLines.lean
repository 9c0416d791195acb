import AirNet.Lib.Run
import AirNet.Lib.Search
import AirNet.Net.BufferInvariant

/-!
# Lines in a buffer

`FindCRLF()` searches the readable bytes for the line end, `FindCRLF(start)` from a
position on. Both return a null pointer when the search arrives at `BeginWrite()`.
The bytes of the line end, `kCRLF`, are defined outside the header; all that matters
here is that there are two of them.

A reader that found no line end need not search everything again when more bytes
have arrived, only from the last byte on: a line end may have been cut in two
(`resumed_search_agrees`). And a reader that appends what arrives and takes lines
off the front, with `RetrieveUntil` two bytes behind what `FindCRLF()` returned,
gets the lines of the stream, whatever chunks they arrive in and whenever it asks
(`lines_are_those_of_the_stream`).
-/

set_option autoImplicit false

namespace AirNet.Net

open AirNet.Cpp AirNet.Lib

namespace Buffer

section Definitions

variable (P : Platform) (kCRLF : Bytes)

/-- `FindCRLF()`; a pointer is given by its index in the vector, `none` is the null
pointer. -/
def findCRLF (b : Buffer) : Except Fault (Option Nat) := do
  let searched ← readBytes b.peek (b.readableBytes P)
  let crlf := b.readerIndex_ + search kCRLF searched
  pure (if crlf = b.writerIndex_ then none else some crlf)

/-- `FindCRLF(start)`. -/
def findCRLFFrom (start : Nat) (b : Buffer) : Except Fault (Option Nat) := do
  P.assert (b.readerIndex_ ≤ start) "peek() <= start"
  P.assert (start ≤ b.writerIndex_) "start <= BeginWrite()"
  let searched ← readBytes (b.buffer_.drop start) (P.sizeSub b.writerIndex_ start)
  let crlf := start + search kCRLF searched
  pure (if crlf = b.writerIndex_ then none else some crlf)

end Definitions

variable {P : Platform} {kCRLF : Bytes} {b b' : Buffer}

/-! ## What is found -/

/-- The pointer that a search of the readable bytes ends with. -/
def lineEnd (kCRLF : Bytes) (b : Buffer) : Option Nat :=
  if search kCRLF b.content = b.content.length then none
  else some (b.readerIndex_ + search kCRLF b.content)

theorem Valid.writerIndex_eq_content (valid : b.Valid P) :
    b.writerIndex_ = b.readerIndex_ + b.content.length := by
  have reader := valid.reader_le
  rw [valid.length_content, valid.readableBytes_eq]
  omega

theorem findCRLF_eq (valid : b.Valid P) : b.findCRLF P kCRLF = .ok (b.lineEnd kCRLF) := by
  have writer := valid.writerIndex_eq_content
  simp only [findCRLF, valid.readBytes_peek, ok_bind, lineEnd]
  have same : b.readerIndex_ + search kCRLF b.content = b.writerIndex_ ↔
      search kCRLF b.content = b.content.length := by omega
  simp only [same]
  rfl

theorem findCRLFFrom_eq (valid : b.Valid P) {k : Nat} (inside : k ≤ b.content.length) :
    b.findCRLFFrom P kCRLF (b.readerIndex_ + k) =
      .ok (if k + search kCRLF (b.content.drop k) = b.content.length then none
        else some (b.readerIndex_ + (k + search kCRLF (b.content.drop k)))) := by
  have writer := valid.writerIndex_eq_content
  have size := valid.writer_le
  have above : b.readerIndex_ ≤ b.readerIndex_ + k := Nat.le_add_right _ _
  have below : b.readerIndex_ + k ≤ b.writerIndex_ := by omega
  have left : P.sizeSub b.writerIndex_ (b.readerIndex_ + k) = b.content.length - k := by
    rw [P.sizeSub_eq below size valid.fits]
    omega
  have read : readBytes (b.buffer_.drop (b.readerIndex_ + k)) (b.content.length - k) =
      .ok (b.content.drop k) := by
    rw [readBytes_of_le (by rw [List.length_drop]; omega)]
    simp only [content, List.drop_take, List.drop_drop, List.length_take, List.length_drop]
    congr 2
    omega
  simp only [findCRLFFrom, P.assert_of above, P.assert_of below, ok_bind, left, read]
  have same : b.readerIndex_ + (k + search kCRLF (b.content.drop k)) = b.writerIndex_ ↔
      k + search kCRLF (b.content.drop k) = b.content.length := by omega
  simp only [Nat.add_assoc, same]
  rfl

/-- A null pointer says that the line end does not occur. -/
theorem search_of_null (valid : b.Valid P) (null : b.findCRLF P kCRLF = .ok none) :
    search kCRLF b.content = b.content.length := by
  rw [findCRLF_eq valid, Except.ok.injEq, lineEnd] at null
  split_ifs at null with absent
  exact absent

/-- **A search may be resumed.**  `FindCRLF()` returned a null pointer. Later, when
more bytes are readable behind those it searched, `FindCRLF(start)` returns what
`FindCRLF()` does, for every start up to the last of the bytes that were
searched. -/
theorem resumed_search_agrees (two : kCRLF.length = 2) (valid : b.Valid P)
    (null : b.findCRLF P kCRLF = .ok none) (valid' : b'.Valid P)
    (longer : b.content <+: b'.content) {k : Nat} (start : k = 0 ∨ k < b.content.length) :
    b'.findCRLFFrom P kCRLF (b'.readerIndex_ + k) = b'.findCRLF P kCRLF := by
  obtain ⟨more, grown⟩ := longer
  have absent := search_of_null valid null
  have resumed : search kCRLF b'.content = k + search kCRLF (b'.content.drop k) := by
    rw [← grown]
    exact search_append absent more (by omega) (by omega)
  have inside : k ≤ b'.content.length := by
    rw [← grown, List.length_append]
    omega
  rw [findCRLFFrom_eq valid' inside, findCRLF_eq valid', lineEnd, resumed]

/-- The first byte of a line end has arrived, then the second. -/
theorem resumed_search_agrees_cut :
    ∃ b b', fresh.append (.lp64 false false) [65, 13] 2 = .ok b ∧
      b.append (.lp64 false false) [10] 1 = .ok b' ∧
      b'.findCRLFFrom (.lp64 false false) [13, 10] (b'.readerIndex_ + 1) =
        b'.findCRLF (.lp64 false false) [13, 10] := by
  obtain ⟨b, appended, first⟩ := append_all_spec [65, 13]
    (fresh_valid (.lp64 false false)) (by decide)
  obtain ⟨b', appended', second⟩ := append_all_spec [10] first.valid
    ((Platform.lp64 false false).fits_mono
      (Nat.add_le_add_right (Nat.add_le_add_right first.writer_le _) _) (by decide))
  have content : b.content = [65, 13] := by
    rw [first.content, content_fresh, List.nil_append]
  have null : b.findCRLF (.lp64 false false) [13, 10] = .ok none := by
    rw [findCRLF_eq first.valid, lineEnd, content, if_pos (by decide)]
  refine ⟨b, b', appended, appended', resumed_search_agrees rfl first.valid null second.valid
    ⟨[10], second.content.symm⟩ (.inr ?_)⟩
  rw [content]
  decide

end Buffer

/-! ## Taking lines -/

/-- A reader with the lines it has taken. -/
structure LineReader where
  buf : Buffer
  lines : List Bytes

/-- Bytes arrive, or the reader asks for a line. -/
inductive LineOp where
  | append (data : Bytes)
  | takeLine

namespace LineReader

variable (P : Platform) (kCRLF : Bytes)

/-- The bytes in front of the line end are taken, and the buffer is retrieved until
behind it. -/
def takeLine (s : LineReader) : Except Fault (LineReader × Option Bytes) := do
  match ← s.buf.findCRLF P kCRLF with
  | none => pure (s, none)
  | some crlf =>
      let line ← readBytes s.buf.peek (P.sizeSub crlf s.buf.readerIndex_)
      let buf ← s.buf.retrieveUntil P (P.sizeAdd crlf 2)
      pure (⟨buf, s.lines ++ [line]⟩, some line)

def step : LineOp → LineReader → Except Fault (LineReader × Option Bytes)
  | .append data, s => do
      let buf ← s.buf.append P data data.length
      pure (⟨buf, s.lines⟩, none)
  | .takeLine, s => s.takeLine P kCRLF

end LineReader

/-- The bytes that arrive. -/
def LineOp.arrived : LineOp → Bytes
  | .append data => data
  | .takeLine => []

def streamOf (ops : List LineOp) : Bytes := (ops.map LineOp.arrived).flatten

theorem streamOf_append (done : List LineOp) (op : LineOp) :
    streamOf (done ++ [op]) = streamOf done ++ op.arrived := by
  rw [streamOf, List.map_append, List.flatten_append, List.map_singleton,
    List.flatten_singleton, streamOf]

theorem streamOf_mono {done ops : List LineOp} (sofar : done <+: ops) :
    streamOf done <+: streamOf ops := by
  obtain ⟨later, rfl⟩ := sofar
  rw [streamOf, streamOf, List.map_append, List.flatten_append]
  exact List.prefix_append _ _

namespace LineReader

variable {P : Platform} {kCRLF : Bytes}

/-- The lines taken and the readable bytes are a cut of what has arrived. -/
structure Reads (P : Platform) (kCRLF : Bytes) (done : List LineOp) (s : LineReader) : Prop where
  valid : s.buf.Valid P
  writer_le : s.buf.writerIndex_ ≤ kCheapPrepend + (streamOf done).length
  cuts : Cuts kCRLF s.lines s.buf.content (streamOf done)

namespace Reads

variable {done : List LineOp} {s : LineReader}

theorem append (reads : Reads P kCRLF done s) (data : Bytes)
    (fits : P.fits (kCheapPrepend + (streamOf done ++ data).length + kCheapPrepend) = true) :
    ∃ entry, step P kCRLF (.append data) s = .ok entry ∧
      Reads P kCRLF (done ++ [.append data]) entry.1 := by
  rw [List.length_append] at fits
  have writer := reads.writer_le
  obtain ⟨buf, appended, after⟩ := Buffer.append_all_spec data reads.valid
    (P.fits_mono (by omega) fits)
  refine ⟨(⟨buf, s.lines⟩, none), ?_, ⟨after.valid, ?_, ?_⟩⟩
  · simp only [step, appended, ok_bind]
    rfl
  · have grown := after.writer_le
    rw [streamOf_append, LineOp.arrived, List.length_append]
    exact grown.trans (by omega)
  · rw [streamOf_append]
    show Cuts kCRLF s.lines buf.content (streamOf done ++ data)
    rw [after.content]
    exact reads.cuts.grow data

theorem takeLine (two : kCRLF.length = 2) (reads : Reads P kCRLF done s) :
    ∃ entry, step P kCRLF .takeLine s = .ok entry ∧
      Reads P kCRLF (done ++ [.takeLine]) entry.1 := by
  have valid := reads.valid
  have found : s.buf.findCRLF P kCRLF = .ok (s.buf.lineEnd kCRLF) := Buffer.findCRLF_eq valid
  have notEmpty : kCRLF ≠ [] := by
    rintro rfl
    cases two
  have unmoved : streamOf (done ++ [.takeLine]) = streamOf done := by
    rw [streamOf_append, LineOp.arrived, List.append_nil]
  by_cases absent : search kCRLF s.buf.content = s.buf.content.length
  · refine ⟨(s, none), ?_, ⟨valid, ?_, ?_⟩⟩
    · rw [Buffer.lineEnd, if_pos absent] at found
      simp only [step, LineReader.takeLine, found, ok_bind]
      rfl
    · rw [unmoved]
      exact reads.writer_le
    · rw [unmoved]
      exact reads.cuts
  · have inside := lt_of_le_of_ne (search_le_length kCRLF s.buf.content) absent
    have room := (isPrefix_drop_search inside).length_le
    rw [List.length_drop, two] at room
    have writer := valid.writerIndex_eq_content
    have size := valid.writer_le
    have length : P.sizeSub (s.buf.readerIndex_ + search kCRLF s.buf.content)
        s.buf.readerIndex_ = search kCRLF s.buf.content := by
      rw [P.sizeSub_eq (Nat.le_add_right _ _) (by omega) valid.fits, Nat.add_sub_cancel_left]
    have stop : P.sizeAdd (s.buf.readerIndex_ + search kCRLF s.buf.content) 2 =
        s.buf.readerIndex_ + search kCRLF s.buf.content + 2 :=
      P.sizeAdd_eq (by omega) valid.fits
    have line : readBytes s.buf.peek (search kCRLF s.buf.content) =
        .ok (s.buf.content.take (search kCRLF s.buf.content)) := by
      have reach := valid.readableBytes_le_length_peek
      have readable := valid.length_content
      rw [readBytes_of_le (by omega), valid.take_peek (by omega)]
    obtain ⟨buf, retrieved, consumed⟩ := Buffer.retrieveUntil_spec valid
      (show s.buf.readerIndex_ ≤ s.buf.readerIndex_ + search kCRLF s.buf.content + 2 by omega)
      (by omega)
    have content : buf.content = s.buf.content.drop (search kCRLF s.buf.content + 2) := by
      rw [consumed.content]
      congr 1
      omega
    refine ⟨(⟨buf, s.lines ++ [s.buf.content.take (search kCRLF s.buf.content)]⟩,
      some (s.buf.content.take (search kCRLF s.buf.content))), ?_, ⟨consumed.valid, ?_, ?_⟩⟩
    · rw [Buffer.lineEnd, if_neg absent] at found
      simp only [step, LineReader.takeLine, found, ok_bind, length, stop, line, retrieved]
      rfl
    · rw [unmoved]
      exact consumed.writer_le.trans reads.writer_le
    · rw [unmoved]
      show Cuts kCRLF _ buf.content _
      rw [content, ← two]
      exact reads.cuts.take notEmpty inside

end Reads

/-- A run of the reader from an empty buffer. -/
theorem reads_of_run (two : kCRLF.length = 2) (ops : List LineOp)
    (fits : P.fits (kCheapPrepend + (streamOf ops).length + kCheapPrepend) = true) :
    ∃ recorded, runTrace (step P kCRLF) ops ⟨Buffer.fresh, []⟩ = .ok recorded ∧
      Reads P kCRLF ops (lastState ⟨Buffer.fresh, []⟩ recorded) := by
  have start : Reads P kCRLF [] ⟨Buffer.fresh, []⟩ := by
    refine ⟨Buffer.fresh_valid P, le_refl _, ?_⟩
    show Cuts kCRLF [] Buffer.fresh.content []
    rw [Buffer.content_fresh]
    exact .nil []
  have follows : ∀ done op s, done ++ [op] <+: ops → Reads P kCRLF done s →
      ∃ entry, step P kCRLF op s = .ok entry ∧ Reads P kCRLF (done ++ [op]) entry.1 ∧ True := by
    intro done op s sofar reads
    have length := (streamOf_mono sofar).length_le
    cases op with
    | append data =>
        rw [streamOf_append, LineOp.arrived] at length
        obtain ⟨entry, stepped, kept⟩ := reads.append data (P.fits_mono (by omega) fits)
        exact ⟨entry, stepped, kept, trivial⟩
    | takeLine =>
        obtain ⟨entry, stepped, kept⟩ := reads.takeLine two
        exact ⟨entry, stepped, kept, trivial⟩
  obtain ⟨recorded, run, -, -, last⟩ :=
    runTrace_history (Reads P kCRLF) (fun _ _ => True) follows [] ops rfl start
  exact ⟨recorded, run, last⟩

end LineReader

/-- **The lines are those of the stream.**  Bytes arrive in any chunks at an empty
buffer, and in between the reader asks for lines as often as it likes. Every call
returns. The lines taken, each with its line end behind it, and the readable bytes
are what has arrived, and no line contains a line end. Two readers at which the
same bytes arrived, and for which `FindCRLF()` now returns a null pointer, have
taken the same lines and have the same bytes left. -/
theorem lines_are_those_of_the_stream {P : Platform} {kCRLF : Bytes} (two : kCRLF.length = 2)
    {ops others : List LineOp} (same : streamOf ops = streamOf others)
    (fits : P.fits (kCheapPrepend + (streamOf ops).length + kCheapPrepend) = true) :
    ∃ recorded recorded' s s',
      runTrace (LineReader.step P kCRLF) ops ⟨Buffer.fresh, []⟩ = .ok recorded ∧
      runTrace (LineReader.step P kCRLF) others ⟨Buffer.fresh, []⟩ = .ok recorded' ∧
      s = lastState ⟨Buffer.fresh, []⟩ recorded ∧ s' = lastState ⟨Buffer.fresh, []⟩ recorded' ∧
      Cuts kCRLF s.lines s.buf.content (streamOf ops) ∧
      (s.buf.findCRLF P kCRLF = .ok none → s'.buf.findCRLF P kCRLF = .ok none →
        s.lines = s'.lines ∧ s.buf.content = s'.buf.content) := by
  obtain ⟨recorded, run, reads⟩ := LineReader.reads_of_run two ops fits
  obtain ⟨recorded', run', reads'⟩ := LineReader.reads_of_run two others (same ▸ fits)
  refine ⟨recorded, recorded', _, _, run, run', rfl, rfl, reads.cuts, ?_⟩
  intro null null'
  have notEmpty : kCRLF ≠ [] := by
    rintro rfl
    cases two
  have cuts' := reads'.cuts
  rw [← same] at cuts'
  exact reads.cuts.unique cuts' notEmpty (Buffer.search_of_null reads.valid null)
    (Buffer.search_of_null reads'.valid null')

/-- Two lines in two chunks, cut between the bytes of a line end, and in one. -/
def twoChunks : List LineOp :=
  [.append [65, 13], .takeLine, .append [10, 13, 10, 66], .takeLine, .takeLine, .takeLine]

def oneChunk : List LineOp :=
  [.takeLine, .append [65, 13, 10, 13, 10, 66], .takeLine, .takeLine]

theorem lines_are_those_of_the_stream_twoChunks :
    streamOf twoChunks = streamOf oneChunk ∧
    ∃ recorded recorded' s s',
      runTrace (LineReader.step (.lp64 false false) [13, 10]) twoChunks ⟨Buffer.fresh, []⟩ =
        .ok recorded ∧
      runTrace (LineReader.step (.lp64 false false) [13, 10]) oneChunk ⟨Buffer.fresh, []⟩ =
        .ok recorded' ∧
      s = lastState ⟨Buffer.fresh, []⟩ recorded ∧ s' = lastState ⟨Buffer.fresh, []⟩ recorded' ∧
      Cuts [13, 10] s.lines s.buf.content (streamOf twoChunks) ∧
      (s.buf.findCRLF (.lp64 false false) [13, 10] = .ok none →
        s'.buf.findCRLF (.lp64 false false) [13, 10] = .ok none →
        s.lines = s'.lines ∧ s.buf.content = s'.buf.content) :=
  ⟨by decide, lines_are_those_of_the_stream rfl (by decide) (by decide)⟩

end AirNet.Net
