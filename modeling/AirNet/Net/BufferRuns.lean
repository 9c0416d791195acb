import AirNet.Lib.Run
import AirNet.Net.BufferInvariant

/-!
# Runs of buffer operations

A family of buffers is used by a program that calls the public operations in
any order. The program keeps to the assertions of the operations, writes no
more than the writable bytes, and asks for no size beyond what a vector can
hold.

Along every such run no assertion fails, inside or outside, and every buffer
keeps the representation invariant (`runs_keep_representation`). In particular
a buffer without readable bytes has exactly eight bytes free for prepending,
whatever its history.

Seen through its readable bytes a buffer is a byte string: appending adds at
the back, prepending at the front, retrieving drops from the front, and room is
made without any visible effect (`runs_refine_byteStrings`). The one operation
that has no meaning on byte strings is a bare `HasWritten`, which makes
readable whatever the caller left behind the writer index; a program writes the
bytes first.
-/

set_option autoImplicit false

namespace AirNet.Net

open AirNet.Cpp AirNet.Lib

/-- What an operation returns. -/
inductive Value where
  | nothing
  | string (bytes : Bytes)
  | int (value : Int)
  deriving DecidableEq, Repr

/-- The public operations of one buffer. -/
inductive Method where
  | append (data : Bytes)
  | appendInt32 (x : BitVec 32)
  | appendInt16 (x : BitVec 16)
  | appendInt8 (x : BitVec 8)
  | prepend (data : Bytes)
  | prependInt32 (x : BitVec 32)
  | prependInt16 (x : BitVec 16)
  | prependInt8 (x : BitVec 8)
  | ensureWritableBytes (len : Nat)
  | writeAtBeginWrite (bytes : Bytes)
  | hasWritten (len : Nat)
  /-- `EnsureWritableBytes`, the bytes written at `BeginWrite()`, `HasWritten`. -/
  | fill (bytes : Bytes)
  | retrieve (len : Nat)
  /-- `RetrieveUntil` with the pointer `peek() + len`. -/
  | retrieveUntil (len : Nat)
  | retrieveInt32
  | retrieveInt16
  | retrieveInt8
  | retrieveAll
  | retrieveAsString (len : Nat)
  | retrieveAllAsString
  | peekInt32
  | peekInt16
  | peekInt8
  | readInt32
  | readInt16
  | readInt8
  | shrink (reserve : Nat)
  deriving DecidableEq, Repr

namespace Method

variable (P : Platform)

/-- An operation that returns nothing. -/
def silent (result : Except Fault Buffer) : Except Fault (Value × Buffer) := do
  let b ← result
  pure (.nothing, b)

/-- Call the operation on a buffer. -/
def run : Method → Buffer → Except Fault (Value × Buffer)
  | .append data, b => silent (b.append P data data.length)
  | .appendInt32 x, b => silent (b.appendInt32 P x)
  | .appendInt16 x, b => silent (b.appendInt16 P x)
  | .appendInt8 x, b => silent (b.appendInt8 P x)
  | .prepend data, b => silent (b.prepend P data data.length)
  | .prependInt32 x, b => silent (b.prependInt32 P x)
  | .prependInt16 x, b => silent (b.prependInt16 P x)
  | .prependInt8 x, b => silent (b.prependInt8 P x)
  | .ensureWritableBytes len, b => silent (b.ensureWritableBytes P len)
  | .writeAtBeginWrite bytes, b => silent (b.writeAtBeginWrite bytes)
  | .hasWritten len, b => .ok (.nothing, b.hasWritten P len)
  | .fill bytes, b => do
      let b ← b.ensureWritableBytes P bytes.length
      let b ← b.writeAtBeginWrite bytes
      pure (.nothing, b.hasWritten P bytes.length)
  | .retrieve len, b => silent (b.retrieve P len)
  | .retrieveUntil len, b => silent (b.retrieveUntil P (b.readerIndex_ + len))
  | .retrieveInt32, b => silent (b.retrieveInt32 P)
  | .retrieveInt16, b => silent (b.retrieveInt16 P)
  | .retrieveInt8, b => silent (b.retrieveInt8 P)
  | .retrieveAll, b => .ok (.nothing, b.retrieveAll)
  | .retrieveAsString len, b => do
      let (result, b) ← b.retrieveAsString P len
      pure (.string result, b)
  | .retrieveAllAsString, b => do
      let (result, b) ← b.retrieveAllAsString P
      pure (.string result, b)
  | .peekInt32, b => do
      let x ← b.peekInt32 P
      pure (.int x.toInt, b)
  | .peekInt16, b => do
      let x ← b.peekInt16 P
      pure (.int x.toInt, b)
  | .peekInt8, b => do
      let x ← b.peekInt8 P
      pure (.int x.toInt, b)
  | .readInt32, b => do
      let (x, b) ← b.readInt32 P
      pure (.int x.toInt, b)
  | .readInt16, b => do
      let (x, b) ← b.readInt16 P
      pure (.int x.toInt, b)
  | .readInt8, b => do
      let (x, b) ← b.readInt8 P
      pure (.int x.toInt, b)
  | .shrink reserve, b => silent (b.shrink P reserve)

/-- Room for `len` more bytes can be asked for. -/
def Room (len : Nat) (b : Buffer) : Prop :=
  P.fits (b.writerIndex_ + len + kCheapPrepend) = true

/-- The operation may be called: its assertion holds, no more bytes are written
than there is room for, and no size exceeds that of the largest vector. -/
def Pre : Method → Buffer → Prop
  | .append data, b => Room P data.length b
  | .appendInt32 _, b => Room P 4 b
  | .appendInt16 _, b => Room P 2 b
  | .appendInt8 _, b => Room P 1 b
  | .prepend data, b => data.length ≤ b.prependableBytes
  | .prependInt32 _, b => 4 ≤ b.prependableBytes
  | .prependInt16 _, b => 2 ≤ b.prependableBytes
  | .prependInt8 _, b => 1 ≤ b.prependableBytes
  | .ensureWritableBytes len, b => Room P len b
  | .writeAtBeginWrite bytes, b => bytes.length ≤ b.writableBytes P
  | .hasWritten len, b => len ≤ b.writableBytes P
  | .fill bytes, b => Room P bytes.length b
  | .retrieve len, b => len ≤ b.readableBytes P
  | .retrieveUntil len, b => len ≤ b.readableBytes P
  | .retrieveInt32, b => 4 ≤ b.readableBytes P
  | .retrieveInt16, b => 2 ≤ b.readableBytes P
  | .retrieveInt8, b => 1 ≤ b.readableBytes P
  | .retrieveAll, _ => True
  | .retrieveAsString len, b => len ≤ b.readableBytes P
  | .retrieveAllAsString, _ => True
  | .peekInt32, b => 4 ≤ b.readableBytes P
  | .peekInt16, b => 2 ≤ b.readableBytes P
  | .peekInt8, b => 1 ≤ b.readableBytes P
  | .readInt32, b => 4 ≤ b.readableBytes P
  | .readInt16, b => 2 ≤ b.readableBytes P
  | .readInt8, b => 1 ≤ b.readableBytes P
  | .shrink reserve, b =>
      b.readableBytes P < 2 ^ 31 ∧ Room P (b.readableBytes P + reserve) Buffer.fresh

/-- The operation has a meaning on byte strings. -/
def OnContent : Method → Prop
  | .hasWritten _ => False
  | _ => True

/-- The operation on byte strings. -/
def apply : Method → Bytes → Value × Bytes
  | .append data, c => (.nothing, c ++ data)
  | .appendInt32 x, c => (.nothing, c ++ beBytes 4 x.toNat)
  | .appendInt16 x, c => (.nothing, c ++ beBytes 2 x.toNat)
  | .appendInt8 x, c => (.nothing, c ++ beBytes 1 x.toNat)
  | .prepend data, c => (.nothing, data ++ c)
  | .prependInt32 x, c => (.nothing, beBytes 4 x.toNat ++ c)
  | .prependInt16 x, c => (.nothing, beBytes 2 x.toNat ++ c)
  | .prependInt8 x, c => (.nothing, beBytes 1 x.toNat ++ c)
  | .ensureWritableBytes _, c => (.nothing, c)
  | .writeAtBeginWrite _, c => (.nothing, c)
  | .hasWritten _, c => (.nothing, c)
  | .fill bytes, c => (.nothing, c ++ bytes)
  | .retrieve len, c => (.nothing, c.drop len)
  | .retrieveUntil len, c => (.nothing, c.drop len)
  | .retrieveInt32, c => (.nothing, c.drop 4)
  | .retrieveInt16, c => (.nothing, c.drop 2)
  | .retrieveInt8, c => (.nothing, c.drop 1)
  | .retrieveAll, _ => (.nothing, [])
  | .retrieveAsString len, c => (.string (c.take len), c.drop len)
  | .retrieveAllAsString, c => (.string c, [])
  | .peekInt32, c => (.int (frontInt 4 c), c)
  | .peekInt16, c => (.int (frontInt 2 c), c)
  | .peekInt8, c => (.int (frontInt 1 c), c)
  | .readInt32, c => (.int (frontInt 4 c), c.drop 4)
  | .readInt16, c => (.int (frontInt 2 c), c.drop 2)
  | .readInt8, c => (.int (frontInt 1 c), c.drop 1)
  | .shrink _, c => (.nothing, c)

variable {P}

/-- What is to be shown of one operation: it returns, keeps the buffer valid,
and acts on the readable bytes as on a byte string. -/
def Correct (P : Platform) (m : Method) (b : Buffer) : Prop :=
  ∃ v b', m.run P b = .ok (v, b') ∧ b'.Valid P ∧
    (m.OnContent → m.apply b.content = (v, b'.content))

theorem correct_of_silent {m : Method} {b b' : Buffer} {result : Except Fault Buffer}
    (defined : m.run P b = silent result) (returns : result = .ok b') (valid : b'.Valid P)
    (content : m.apply b.content = (.nothing, b'.content)) : Correct P m b := by
  refine ⟨.nothing, b', ?_, valid, fun _ => content⟩
  rw [defined, returns]
  rfl

theorem correct_of_appended {m : Method} {b : Buffer} {bytes : Bytes}
    {result : Except Fault Buffer} (defined : m.run P b = silent result)
    (spec : ∃ b', result = .ok b' ∧ Buffer.Appended P bytes b b')
    (meaning : m.apply b.content = (.nothing, b.content ++ bytes)) : Correct P m b := by
  obtain ⟨b', returns, appended⟩ := spec
  exact correct_of_silent defined returns appended.valid (by rw [meaning, appended.content])

theorem correct_of_prepended {m : Method} {b : Buffer} {bytes : Bytes}
    {result : Except Fault Buffer} (defined : m.run P b = silent result)
    (spec : ∃ b', result = .ok b' ∧ Buffer.Prepended P bytes b b')
    (meaning : m.apply b.content = (.nothing, bytes ++ b.content)) : Correct P m b := by
  obtain ⟨b', returns, prepended⟩ := spec
  exact correct_of_silent defined returns prepended.valid (by rw [meaning, prepended.content])

theorem correct_of_consumed {m : Method} {b : Buffer} {len : Nat}
    {result : Except Fault Buffer} (defined : m.run P b = silent result)
    (spec : ∃ b', result = .ok b' ∧ Buffer.Consumed P len b b')
    (meaning : m.apply b.content = (.nothing, b.content.drop len)) : Correct P m b := by
  obtain ⟨b', returns, consumed⟩ := spec
  exact correct_of_silent defined returns consumed.valid (by rw [meaning, consumed.content])

/-- An operation that returns a value and leaves the buffer alone. -/
theorem correct_of_peeked {m : Method} {b : Buffer} {α : Type} {x : α} {result : Except Fault α}
    (value : α → Value) (valid : b.Valid P)
    (defined : m.run P b = result >>= fun x => pure (value x, b)) (returns : result = .ok x)
    (meaning : m.apply b.content = (value x, b.content)) : Correct P m b := by
  refine ⟨value x, b, ?_, valid, fun _ => meaning⟩
  rw [defined, returns]
  rfl

/-- An operation that returns a value and consumes bytes. -/
theorem correct_of_read {m : Method} {b : Buffer} {α : Type} {x : α} {len : Nat}
    {result : Except Fault (α × Buffer)} (value : α → Value)
    (defined : m.run P b = result >>= fun (x, b) => pure (value x, b))
    (spec : ∃ b', result = .ok (x, b') ∧ Buffer.Consumed P len b b')
    (meaning : m.apply b.content = (value x, b.content.drop len)) : Correct P m b := by
  obtain ⟨b', returns, consumed⟩ := spec
  refine ⟨value x, b', ?_, consumed.valid, fun _ => by rw [meaning, consumed.content]⟩
  rw [defined, returns]
  rfl

/-- **Every operation called within its precondition is correct.** -/
theorem correct (m : Method) {b : Buffer} (valid : b.Valid P) (pre : m.Pre P b) :
    Correct P m b := by
  cases m with
  | append data => exact correct_of_appended rfl (Buffer.append_all_spec data valid pre) rfl
  | appendInt32 x => exact correct_of_appended rfl (Buffer.appendInt_spec _ _ valid pre) rfl
  | appendInt16 x => exact correct_of_appended rfl (Buffer.appendInt_spec _ _ valid pre) rfl
  | appendInt8 x => exact correct_of_appended rfl (Buffer.appendInt8_spec valid pre) rfl
  | prepend data =>
      have spec := Buffer.prepend_spec data valid (le_refl data.length) pre
      rw [List.take_length] at spec
      exact correct_of_prepended rfl spec rfl
  | prependInt32 x => exact correct_of_prepended rfl (Buffer.prependInt_spec _ _ valid pre) rfl
  | prependInt16 x => exact correct_of_prepended rfl (Buffer.prependInt_spec _ _ valid pre) rfl
  | prependInt8 x => exact correct_of_prepended rfl (Buffer.prependInt8_spec valid pre) rfl
  | ensureWritableBytes len =>
      obtain ⟨b', returns, roomy⟩ := Buffer.ensureWritableBytes_spec _ valid pre
      exact correct_of_silent rfl returns roomy.valid (by rw [roomy.content]; rfl)
  | writeAtBeginWrite bytes =>
      have room := valid.room_of_le pre
      refine correct_of_silent rfl (Buffer.writeAtBeginWrite_eq room)
        (Buffer.overwritten_valid valid room) ?_
      rw [Buffer.content_overwritten bytes valid]
      rfl
  | hasWritten len =>
      exact ⟨.nothing, _, rfl, Buffer.hasWritten_valid valid (valid.room_of_le pre),
        fun never => never.elim⟩
  | fill bytes =>
      obtain ⟨b', ensured, roomy⟩ := Buffer.ensureWritableBytes_spec _ valid pre
      obtain ⟨b'', stored, appended⟩ := roomy.written
      refine ⟨.nothing, _, ?_, appended.valid, fun _ => by rw [appended.content]; rfl⟩
      simp only [run, ensured, stored, ok_bind]
      rfl
  | retrieve len => exact correct_of_consumed rfl (Buffer.retrieve_spec valid pre) rfl
  | retrieveUntil len =>
      have le : len ≤ b.readableBytes P := pre
      rw [valid.readableBytes_eq] at le
      have spec := Buffer.retrieveUntil_spec valid (Nat.le_add_right b.readerIndex_ len)
        (by have reader := valid.reader_le; omega)
      rw [Nat.add_sub_cancel_left] at spec
      exact correct_of_consumed rfl spec rfl
  | retrieveInt32 => exact correct_of_consumed rfl (Buffer.retrieve_spec valid pre) rfl
  | retrieveInt16 => exact correct_of_consumed rfl (Buffer.retrieve_spec valid pre) rfl
  | retrieveInt8 => exact correct_of_consumed rfl (Buffer.retrieve_spec valid pre) rfl
  | retrieveAll =>
      exact ⟨.nothing, _, rfl, Buffer.retrieveAll_valid valid,
        fun _ => by rw [Buffer.content_retrieveAll]; rfl⟩
  | retrieveAsString len =>
      exact correct_of_read .string rfl (Buffer.retrieveAsString_spec valid pre) rfl
  | retrieveAllAsString =>
      refine correct_of_read .string rfl (Buffer.retrieveAllAsString_spec valid) ?_
      rw [← valid.length_content, List.drop_length]
      rfl
  | peekInt32 =>
      exact correct_of_peeked (fun x => .int x.toInt) valid rfl (Buffer.peekInt32_eq valid pre) rfl
  | peekInt16 =>
      exact correct_of_peeked (fun x => .int x.toInt) valid rfl (Buffer.peekInt16_eq valid pre) rfl
  | peekInt8 =>
      exact correct_of_peeked (fun x => .int x.toInt) valid rfl (Buffer.peekInt8_eq valid pre) rfl
  | readInt32 =>
      exact correct_of_read (fun x => .int x.toInt) rfl (Buffer.readInt32_spec valid pre) rfl
  | readInt16 =>
      exact correct_of_read (fun x => .int x.toInt) rfl (Buffer.readInt16_spec valid pre) rfl
  | readInt8 =>
      exact correct_of_read (fun x => .int x.toInt) rfl (Buffer.readInt8_spec valid pre) rfl
  | shrink reserve =>
      obtain ⟨b', returns, kept, content, -⟩ := Buffer.shrink_spec valid pre.1 pre.2
      exact correct_of_silent rfl returns kept (by rw [content]; rfl)

end Method

/-! ## Programs that use several buffers -/

/-- A call on one of the buffers, an exchange of two, or an assignment. -/
inductive Call (ι : Type) where
  | on (i : ι) (m : Method)
  | swap (i j : ι)
  | assign (i j : ι)

namespace Call

variable {ι : Type} (P : Platform)

def Pre : Call ι → (ι → Buffer) → Prop
  | .on i m, buffers => m.Pre P (buffers i)
  | _, _ => True

def OnContent : Call ι → Prop
  | .on _ m => m.OnContent
  | _ => True

variable [DecidableEq ι]

def exec : Call ι → (ι → Buffer) → Except Fault ((ι → Buffer) × Value)
  | .on i m, buffers => do
      let (v, b) ← m.run P (buffers i)
      pure (Function.update buffers i b, v)
  | .swap i j, buffers =>
      let swapped := (buffers i).swap (buffers j)
      .ok (Function.update (Function.update buffers i swapped.1) j swapped.2, .nothing)
  | .assign i j, buffers => .ok (Function.update buffers i (buffers j), .nothing)

/-- The call on byte strings. -/
def apply : Call ι → (ι → Bytes) → (ι → Bytes) × Value
  | .on i m, contents =>
      (Function.update contents i (m.apply (contents i)).2, (m.apply (contents i)).1)
  | .swap i j, contents =>
      (Function.update (Function.update contents i (contents j)) j (contents i), .nothing)
  | .assign i j, contents => (Function.update contents i (contents j), .nothing)

/-- The readable bytes of every buffer. -/
def contents (buffers : ι → Buffer) : ι → Bytes := fun i => (buffers i).content

theorem contents_update (buffers : ι → Buffer) (i : ι) (b : Buffer) :
    contents (Function.update buffers i b) = Function.update (contents buffers) i b.content := by
  funext j
  by_cases same : j = i
  · subst same
    simp only [contents, Function.update_self]
  · simp only [contents, Function.update_of_ne same]

variable {P}

theorem valid_update {buffers : ι → Buffer} (valid : ∀ i, (buffers i).Valid P) (i : ι)
    {b : Buffer} (new : b.Valid P) : ∀ j, (Function.update buffers i b j).Valid P := by
  intro j
  by_cases same : j = i
  · subst same
    rwa [Function.update_self]
  · rw [Function.update_of_ne same]
    exact valid j

/-- One call keeps every buffer valid and acts as its meaning on byte
strings. -/
theorem exec_correct (call : Call ι) {buffers : ι → Buffer}
    (valid : ∀ i, (buffers i).Valid P) (pre : call.Pre P buffers) :
    ∃ entry, call.exec P buffers = .ok entry ∧ (∀ i, (entry.1 i).Valid P) ∧
      (call.OnContent → call.apply (contents buffers) = (contents entry.1, entry.2)) := by
  cases call with
  | on i m =>
      obtain ⟨v, b, returns, new, meaning⟩ := m.correct (valid i) pre
      refine ⟨(Function.update buffers i b, v), ?_, valid_update valid i new, ?_⟩
      · simp only [exec, returns, ok_bind]
        rfl
      · intro onContent
        simp only [apply, contents_update]
        rw [show contents buffers i = (buffers i).content from rfl, meaning onContent]
  | swap i j =>
      refine ⟨_, rfl, valid_update (valid_update valid i (valid j)) j (valid i), ?_⟩
      intro _
      simp only [apply, contents_update, Buffer.swap]
      rfl
  | assign i j =>
      refine ⟨_, rfl, valid_update valid i (valid j), ?_⟩
      intro _
      simp only [apply, contents_update]
      rfl

end Call

/-! ## Whole runs -/

/-- A program on two buffers. It prepends two bytes, appends more than is
writable, swaps the buffers and takes three bytes off. -/
def prependGrowSwap : List (Call Bool) :=
  [.on true (.prepend [1, 2]), .on true (.append (List.replicate 1025 7)), .swap true false,
    .on false (.retrieveAsString 3)]

theorem prependGrowSwap_admissible :
    Admissible (Call.exec (.lp64 false false))
      (fun call buffers => call.Pre (.lp64 false false) buffers ∧ call.OnContent)
      prependGrowSwap fun _ => Buffer.fresh := by
  have free : 2 ≤ Buffer.fresh.prependableBytes := by decide
  obtain ⟨front, prepends, prepended⟩ := Buffer.prepend_spec [1, 2]
    (Buffer.fresh_valid (.lp64 false false)) (le_refl 2) free
  have room : (Platform.lp64 false false).fits
      (front.writerIndex_ + (List.replicate 1025 (7 : UInt8)).length + kCheapPrepend) = true := by
    rw [prepended.writer, List.length_replicate]
    decide
  obtain ⟨grown, appends, appended⟩ := Buffer.append_all_spec _ prepended.valid room
  refine ⟨⟨free, trivial⟩, fun entry returned => ?_⟩
  simp only [Call.exec, Method.run, List.length_cons, List.length_nil, Nat.zero_add,
    Nat.reduceAdd, prepends] at returned
  obtain rfl := Except.ok.inj returned
  refine ⟨⟨room, trivial⟩, fun entry returned => ?_⟩
  simp only [Call.exec, Method.run, Function.update_self, appends] at returned
  obtain rfl := Except.ok.inj returned
  refine ⟨⟨trivial, trivial⟩, fun entry returned => ⟨⟨?_, trivial⟩, fun _ _ => trivial⟩⟩
  obtain rfl := Except.ok.inj returned
  show 3 ≤ grown.readableBytes (.lp64 false false)
  rw [← appended.valid.length_content, appended.content, List.length_append,
    List.length_replicate]
  omega

section Runs

variable (P : Platform) {ι : Type} [DecidableEq ι]

/-- **The representation invariant and the validity of the assertions.**  A
program that keeps to the preconditions of the operations runs to its end: with
assertions compiled in, none of them fails. In every state on the way the
indices are in order, no vector is smaller than the initial one, and a buffer
without readable bytes has both indices at the cheap prepend. -/
theorem runs_keep_representation (calls : List (Call ι))
    (admissible : Admissible (Call.exec P) (Call.Pre P) calls fun _ => Buffer.fresh) :
    ∃ trace, runTrace (Call.exec P) calls (fun _ => Buffer.fresh) = .ok trace ∧
      trace.length = calls.length ∧
      ∀ entry ∈ ((fun _ => Buffer.fresh), Value.nothing) :: trace, ∀ i,
        (entry.1 i).readerIndex_ ≤ (entry.1 i).writerIndex_ ∧
        (entry.1 i).writerIndex_ ≤ (entry.1 i).buffer_.length ∧
        kCheapPrepend + kInitialSize ≤ (entry.1 i).buffer_.length ∧
        ((entry.1 i).readableBytes P = 0 →
          (entry.1 i).readerIndex_ = kCheapPrepend ∧
          (entry.1 i).writerIndex_ = kCheapPrepend) := by
  have safe : ∀ (call : Call ι) (buffers : ι → Buffer), (∀ i, (buffers i).Valid P) →
      call.Pre P buffers → ∃ entry, call.exec P buffers = .ok entry ∧
        ∀ i, (entry.1 i).Valid P := by
    intro call buffers valid pre
    obtain ⟨entry, returns, kept, -⟩ := Call.exec_correct call valid pre
    exact ⟨entry, returns, kept⟩
  obtain ⟨trace, run, length, all⟩ :=
    runTrace_invariant safe calls (fun _ => Buffer.fresh_valid P) admissible
  refine ⟨trace, run, length, fun entry member i => ?_⟩
  have valid : (entry.1 i).Valid P := by
    rcases List.mem_cons.mp member with rfl | later
    · exact Buffer.fresh_valid P
    · exact all entry later i
  refine ⟨valid.reader_le, valid.writer_le, valid.size_ge, fun empty => ?_⟩
  have reader := valid.reader_le
  rw [valid.readableBytes_eq] at empty
  have same : (entry.1 i).readerIndex_ = (entry.1 i).writerIndex_ := by omega
  exact ⟨valid.reset same, same ▸ valid.reset same⟩

theorem runs_keep_representation_prependGrowSwap :
    ∃ trace, runTrace (Call.exec (Platform.lp64 false false)) prependGrowSwap
        (fun _ => Buffer.fresh) = .ok trace ∧ trace.length = 4 := by
  have admissible := prependGrowSwap_admissible.mono fun _ _ pre => pre.1
  obtain ⟨trace, run, length, -⟩ := runs_keep_representation _ prependGrowSwap admissible
  exact ⟨trace, run, length⟩

/-- **A buffer is a byte string.**  After every call of a program that keeps to
the preconditions, the readable bytes of every buffer are those of the run on
byte strings, and so is every string returned. -/
theorem runs_refine_byteStrings (calls : List (Call ι))
    (admissible : Admissible (Call.exec P) (fun call buffers => call.Pre P buffers ∧ call.OnContent)
      calls fun _ => Buffer.fresh) :
    ∃ trace, runTrace (Call.exec P) calls (fun _ => Buffer.fresh) = .ok trace ∧
      trace.map (fun entry => (Call.contents entry.1, entry.2)) =
        specTrace Call.apply calls fun _ => [] := by
  have simulates : ∀ (call : Call ι) (buffers : ι → Buffer), (∀ i, (buffers i).Valid P) →
      (call.Pre P buffers ∧ call.OnContent) → ∃ entry, call.exec P buffers = .ok entry ∧
        (∀ i, (entry.1 i).Valid P) ∧
        call.apply (Call.contents buffers) = (Call.contents entry.1, entry.2) := by
    intro call buffers valid pre
    obtain ⟨entry, returns, kept, meaning⟩ := Call.exec_correct call valid pre.1
    exact ⟨entry, returns, kept, meaning pre.2⟩
  have initial : Call.contents (fun _ : ι => Buffer.fresh) = fun _ => [] := by
    funext i
    exact Buffer.content_fresh
  rw [← initial]
  exact runTrace_refines simulates calls (fun _ => Buffer.fresh_valid P) admissible

theorem runs_refine_byteStrings_prependGrowSwap :
    ∃ trace, runTrace (Call.exec (Platform.lp64 false false)) prependGrowSwap
        (fun _ => Buffer.fresh) = .ok trace ∧
      trace.map Prod.snd = [.nothing, .nothing, .nothing, .string [1, 2, 7]] := by
  obtain ⟨trace, run, contents⟩ :=
    runs_refine_byteStrings _ prependGrowSwap prependGrowSwap_admissible
  refine ⟨trace, run, ?_⟩
  have outputs := congrArg (List.map Prod.snd) contents
  rw [List.map_map] at outputs
  exact outputs

end Runs

end AirNet.Net
