import AirNet.Net.BufferWrap

/-!
# Buffers with any history

The buffers of a program on a 64-bit host, after any sequence of calls. A call
is within the assertion the operation makes of its caller, moves the writer
index no further than the vector reaches, and asks for no room whose sums wrap.
Nothing else is required: calls may throw, and a call that throws leaves the
buffers as they were; buffers may be exchanged and assigned; `Shrink` may be
called on a buffer of any size.

Every such buffer is valid (`Arises.valid`). So what is proved of valid buffers
holds for a buffer whatever its history.
-/

set_option autoImplicit false

namespace AirNet.Net

open AirNet.Cpp AirNet.Lib

namespace Buffer

variable {ndebug bigEndian : Bool} {b b' : Buffer} {len : Nat}

/-- Making room that returns. -/
theorem Valid.roomy_of_ensured (valid : b.Valid (.lp64 ndebug bigEndian))
    (hold : b.SumsHold len)
    (returns : b.ensureWritableBytes (.lp64 ndebug bigEndian) len = .ok b') :
    Roomy (.lp64 ndebug bigEndian) len b b' :=
  (holds_of_returns (ensureWritableBytes_of_sumsHold valid.inOrder hold) returns).roomy valid

/-- Where the sums hold, `Append` appends or throws. -/
theorem append_of_sumsHold {data : Bytes} (valid : b.Valid (.lp64 ndebug bigEndian))
    (le : len ≤ data.length) (hold : b.SumsHold len) :
    (2 ^ 63 - 1 < b.writerIndex_ + len ∧
        b.append (.lp64 ndebug bigEndian) data len = .error .lengthError) ∨
      ∃ b', b.append (.lp64 ndebug bigEndian) data len = .ok b' ∧
        Appended (.lp64 ndebug bigEndian) (data.take len) b b' := by
  rcases ensureWritableBytes_of_sumsHold valid.inOrder hold with
    ⟨large, throws⟩ | ⟨other, ensured, made⟩
  · refine .inl ⟨large, ?_⟩
    rw [append, throws]
    rfl
  · exact .inr ((made.roomy valid).append le ensured)

theorem Valid.appended_of_append {data : Bytes} (valid : b.Valid (.lp64 ndebug bigEndian))
    (le : len ≤ data.length) (hold : b.SumsHold len)
    (returns : b.append (.lp64 ndebug bigEndian) data len = .ok b') :
    Appended (.lp64 ndebug bigEndian) (data.take len) b b' :=
  holds_of_returns (append_of_sumsHold valid le hold) returns

/-- A valid buffer on a 64-bit host can be asked for any length a vector can
have. -/
theorem Valid.sumsHold (valid : b.Valid (.lp64 ndebug bigEndian)) (small : len ≤ 2 ^ 63 - 1) :
    b.SumsHold len :=
  sumsHold_of_le valid.writer_le (of_decide_eq_true valid.fits) small

/-- `Append` of a whole byte string appends it, or throws because the vector
would have to be larger than the largest one. -/
theorem append_all_cases (data : Bytes) (valid : b.Valid (.lp64 ndebug bigEndian))
    (small : data.length ≤ 2 ^ 63 - 1) :
    (2 ^ 63 - 1 < b.writerIndex_ + data.length ∧
        b.append (.lp64 ndebug bigEndian) data data.length = .error .lengthError) ∨
      ∃ b', b.append (.lp64 ndebug bigEndian) data data.length = .ok b' ∧
        Appended (.lp64 ndebug bigEndian) data b b' := by
  have cases := append_of_sumsHold valid (le_refl data.length) (valid.sumsHold small)
  rwa [List.take_length] at cases

/-! ## Shrinking -/

/-- What `Shrink` leaves when it returns. -/
structure Shrunk (P : Platform) (reserve : Nat) (b b' : Buffer) : Prop where
  valid : b'.Valid P
  inside : b.pieceSize P ≤ b.peek.length
  content : b'.content = b.peek.take (b.pieceSize P)
  reader : b'.readerIndex_ = kCheapPrepend
  reserved : b.pieceSize P ≤ b.readableBytes P → reserve ≤ b'.writableBytes P

/-- In a buffer that starts at the cheap prepend the content ends at the writer
index. -/
theorem Valid.writerIndex_eq {P : Platform} (valid : b.Valid P)
    (reader : b.readerIndex_ = kCheapPrepend) :
    b.writerIndex_ = kCheapPrepend + b.content.length := by
  have order := valid.reader_le
  rw [valid.length_content, valid.readableBytes_eq, reader]
  omega

/-- The sum that `Shrink` passes on is exact. -/
theorem shrinkSum_eq {reserve : Nat}
    (hold : fresh.SumsHold (b.readableBytes (.lp64 ndebug bigEndian) + reserve)) :
    (Platform.lp64 ndebug bigEndian).sizeAdd (b.readableBytes (.lp64 ndebug bigEndian)) reserve =
      b.readableBytes (.lp64 ndebug bigEndian) + reserve :=
  Nat.mod_eq_of_lt (lt_of_le_of_lt (Nat.le_add_left _ _) hold.1)

theorem Valid.shrunk {reserve : Nat} (valid : b.Valid (.lp64 ndebug bigEndian))
    (hold : fresh.SumsHold (b.readableBytes (.lp64 ndebug bigEndian) + reserve))
    (returns : b.shrink (.lp64 ndebug bigEndian) reserve = .ok b') :
    Shrunk (.lp64 ndebug bigEndian) reserve b b' := by
  rw [shrink_eq, shrinkSum_eq hold] at returns
  obtain ⟨other, ensured, stored⟩ := bind_eq_ok.mp returns
  have roomy := (fresh_valid (.lp64 ndebug bigEndian)).roomy_of_ensured hold ensured
  obtain ⟨resized, inside⟩ := append_resized stored
  have reach : b.peek.length ≤ 2 ^ 63 - 1 := by
    rw [peek, List.length_drop]
    exact (Nat.sub_le _ _).trans (of_decide_eq_true valid.fits)
  have appended := roomy.valid.appended_of_append inside
    (roomy.valid.sumsHold (inside.trans reach)) stored
  have reader := appended.reader (roomy.reader rfl)
  have content : b'.content = b.peek.take (b.pieceSize (.lp64 ndebug bigEndian)) := by
    rw [appended.content, roomy.content, content_fresh, List.nil_append]
  refine ⟨appended.valid, inside, content, reader, fun short => ?_⟩
  -- the room made is enough for the piece, so nothing grows when it is appended
  have room := roomy.room
  have before := roomy.valid.writerIndex_eq (roomy.reader rfl)
  have after := appended.valid.writerIndex_eq reader
  rw [content, List.length_take_of_le inside] at after
  rw [roomy.content, content_fresh, List.length_nil] at before
  have enough : b.pieceSize (.lp64 ndebug bigEndian) ≤
      other.writableBytes (.lp64 ndebug bigEndian) := by
    rw [roomy.valid.writableBytes_eq]
    omega
  have same := resized.resolve_right fun grown => absurd grown.short (Nat.not_lt.mpr enough)
  rw [appended.valid.writableBytes_eq]
  omega

end Buffer

namespace Method

variable {ndebug bigEndian : Bool} {b b' : Buffer} {v : Value}

/-- The operation may be called. Operations that ask for room are called with
lengths whose sums hold; the others within their assertions. -/
def Permitted (P : Platform) : Method → Buffer → Prop
  | .append data, b => b.SumsHold data.length
  | .appendInt32 _, _ => True
  | .appendInt16 _, _ => True
  | .appendInt8 _, _ => True
  | .ensureWritableBytes len, b => b.SumsHold len
  | .fill bytes, b => b.SumsHold bytes.length
  | .shrink reserve, b => Buffer.fresh.SumsHold (b.readableBytes P + reserve)
  | m, b => m.Pre P b

/-- An operation called within its precondition leaves a valid buffer. -/
theorem valid_of_pre {P : Platform} {m : Method} (returns : m.run P b = .ok (v, b'))
    (valid : b.Valid P) (pre : m.Pre P b) : b'.Valid P := by
  obtain ⟨_, other, same, kept, -⟩ := correct m valid pre
  obtain ⟨-, rfl⟩ := Prod.mk.inj (Except.ok.inj (same.symm.trans returns))
  exact kept

/-- A permitted operation that returns leaves a valid buffer. -/
theorem valid_of_run (m : Method) (valid : b.Valid (.lp64 ndebug bigEndian))
    (permitted : m.Permitted (.lp64 ndebug bigEndian) b)
    (returns : m.run (.lp64 ndebug bigEndian) b = .ok (v, b')) :
    b'.Valid (.lp64 ndebug bigEndian) := by
  have byAppend : ∀ {data : Bytes} {len : Nat}, len ≤ data.length → b.SumsHold len →
      silent (b.append (.lp64 ndebug bigEndian) data len) = .ok (v, b') →
        b'.Valid (.lp64 ndebug bigEndian) := by
    intro data len le hold returns
    exact (valid.appended_of_append le hold (silent_eq_ok returns)).valid
  cases m with
  | append data => exact byAppend (le_refl _) permitted returns
  | appendInt32 x =>
      exact byAppend (Platform.length_objectBytes _ _ _).ge (valid.sumsHold (by decide)) returns
  | appendInt16 x =>
      exact byAppend (Platform.length_objectBytes _ _ _).ge (valid.sumsHold (by decide)) returns
  | appendInt8 x =>
      exact byAppend (Platform.length_objectBytes _ _ _).ge (valid.sumsHold (by decide)) returns
  | ensureWritableBytes len =>
      exact (valid.roomy_of_ensured permitted (silent_eq_ok returns)).valid
  | fill bytes =>
      obtain ⟨made, ensured, returns⟩ := bind_eq_ok.mp returns
      obtain ⟨written, stored, returns⟩ := bind_eq_ok.mp returns
      obtain ⟨-, rfl⟩ := Prod.mk.inj (Except.ok.inj returns)
      obtain ⟨other, same, appended⟩ := (valid.roomy_of_ensured permitted ensured).written
      obtain rfl : other = written := Except.ok.inj (same.symm.trans stored)
      exact appended.valid
  | shrink reserve =>
      exact (valid.shrunk permitted (silent_eq_ok returns)).valid
  | _ => exact valid_of_pre returns valid permitted

end Method

namespace Call

variable {ι : Type} {ndebug bigEndian : Bool}

def Permitted (P : Platform) : Call ι → (ι → Buffer) → Prop
  | .on i m, buffers => m.Permitted P (buffers i)
  | _, _ => True

def AllValid (P : Platform) (buffers : ι → Buffer) : Prop := ∀ i, (buffers i).Valid P

variable [DecidableEq ι]

/-- The buffers after a call. An exception thrown by a vector leaves them as
they were; after any other fault there is no next state. -/
def step (P : Platform) (call : Call ι) (buffers : ι → Buffer) : Option (ι → Buffer) :=
  match call.exec P buffers with
  | .ok (buffers', _) => some buffers'
  | .error .lengthError => some buffers
  | .error _ => none

/-- The buffers of a program after any history of permitted calls. -/
def Arises (P : Platform) (buffers : ι → Buffer) : Prop :=
  Reachable (step P) (Permitted P) (fun _ => Buffer.fresh) buffers

theorem valid_of_exec {call : Call ι} {buffers buffers' : ι → Buffer} {v : Value}
    (valid : AllValid (.lp64 ndebug bigEndian) buffers)
    (permitted : call.Permitted (.lp64 ndebug bigEndian) buffers)
    (returns : call.exec (.lp64 ndebug bigEndian) buffers = .ok (buffers', v)) :
    AllValid (.lp64 ndebug bigEndian) buffers' := by
  cases call with
  | on i m =>
      obtain ⟨⟨_, b⟩, ran, returns⟩ := bind_eq_ok.mp returns
      obtain ⟨rfl, -⟩ := Prod.mk.inj (Except.ok.inj returns)
      exact valid_update valid i (m.valid_of_run (valid i) permitted ran)
  | swap i j =>
      obtain ⟨rfl, -⟩ := Prod.mk.inj (Except.ok.inj returns)
      exact valid_update (valid_update valid i (valid j)) j (valid i)
  | assign i j =>
      obtain ⟨rfl, -⟩ := Prod.mk.inj (Except.ok.inj returns)
      exact valid_update valid i (valid j)

theorem valid_of_step {call : Call ι} {buffers buffers' : ι → Buffer}
    (valid : AllValid (.lp64 ndebug bigEndian) buffers)
    (permitted : call.Permitted (.lp64 ndebug bigEndian) buffers)
    (stepped : call.step (.lp64 ndebug bigEndian) buffers = some buffers') :
    AllValid (.lp64 ndebug bigEndian) buffers' := by
  rw [step] at stepped
  split at stepped
  case h_1 after v returns =>
    obtain rfl := Option.some.inj stepped
    exact valid_of_exec valid permitted returns
  case h_2 =>
    obtain rfl := Option.some.inj stepped
    exact valid
  case h_3 => cases stepped

/-- **A buffer is valid whatever its history.** -/
theorem Arises.valid {buffers : ι → Buffer} (arises : Arises (.lp64 ndebug bigEndian) buffers) :
    AllValid (.lp64 ndebug bigEndian) buffers := by
  refine Reachable.invariant arises (fun _ => Buffer.fresh_valid _) ?_
  intro call buffers buffers' valid permitted stepped
  exact valid_of_step valid permitted stepped

/-- The history of a single buffer goes on with a permitted operation. -/
theorem Arises.then {P : Platform} {b b' : Buffer} {m : Method} {v : Value}
    (arises : Arises P (fun _ : Unit => b)) (permitted : m.Permitted P b)
    (returns : m.run P b = .ok (v, b')) : Arises P (fun _ : Unit => b') := by
  have only : Function.update (fun _ : Unit => b) () b' = fun _ => b' := by
    funext i
    exact Function.update_self ..
  refine arises.tail ⟨.on () m, permitted, ?_⟩
  rw [step, exec, returns]
  exact congrArg some only

/-- Any bytes that a vector can hold behind the cheap prepend are the content of
some buffer. -/
theorem exists_arises (ndebug bigEndian : Bool) (data : Bytes)
    (small : kCheapPrepend + data.length ≤ 2 ^ 63 - 1) :
    ∃ b : Buffer, Arises (.lp64 ndebug bigEndian) (fun _ : Unit => b) ∧ b.content = data ∧
      b.readerIndex_ = kCheapPrepend := by
  have valid := Buffer.fresh_valid (.lp64 ndebug bigEndian)
  have hold : Buffer.fresh.SumsHold data.length :=
    valid.sumsHold ((Nat.le_add_left _ _).trans small)
  rcases Buffer.append_all_cases data valid ((Nat.le_add_left _ _).trans small) with
    ⟨large, -⟩ | ⟨b, returns, appended⟩
  · exact absurd large (Nat.not_lt.mpr small)
  · have ran : (Method.append data).run (.lp64 ndebug bigEndian) Buffer.fresh =
        .ok (.nothing, b) := by
      rw [Method.run, returns]
      rfl
    have initial : Arises (.lp64 ndebug bigEndian) (fun _ : Unit => Buffer.fresh) := .refl
    refine ⟨b, initial.then (m := .append data) hold ran, ?_, appended.reader rfl⟩
    rw [appended.content, Buffer.content_fresh, List.nil_append]

/-- Some buffer without readable bytes has any given bytes of its past where it
is written next. -/
theorem exists_arises_stale (ndebug bigEndian : Bool) (data : Bytes)
    (small : kCheapPrepend + data.length ≤ 2 ^ 63 - 1) :
    ∃ b : Buffer, Arises (.lp64 ndebug bigEndian) (fun _ : Unit => b) ∧
      b.readableBytes (.lp64 ndebug bigEndian) = 0 ∧ data <+: b.peek := by
  obtain ⟨b, arises, rfl, reader⟩ := exists_arises ndebug bigEndian data small
  have cleared := Buffer.retrieveAll_valid (arises.valid ())
  refine ⟨b.retrieveAll, arises.then (m := .retrieveAll) trivial rfl, ?_, ?_⟩
  · rw [← cleared.length_content, Buffer.content_retrieveAll, List.length_nil]
  · have same : b.retrieveAll.peek = b.peek := by
      rw [Buffer.peek, Buffer.peek, reader]
      rfl
    rw [same]
    exact List.take_prefix _ _

end Call

end AirNet.Net
