import AirNet.Lib.Heap
import AirNet.Net.CodecRoundTrip

/-!
# Who owns the parsed messages

`Parse` creates a message object on the heap, lets it parse the data, and deletes
it when this fails; `ParseMessages` pushes the pointers of the others into the
vector of its caller. What `Parse` does with the object is in its record. Here
the record is carried out on a heap, and the loop of `ParseMessages` runs with
pointers instead of values. Each object is created at any address that is free.

The codec on a heap does what the codec on values does, and ends where it ends
(`parseMessagesIn_follows`). Over any sequence of chunks, with and without error
codes, the pointers in the vector are different from each other, each points to
its message, and the objects on the heap are those that were there before and
those in the vector: nothing is deleted twice or left dangling, and nothing is
leaked by a call that returns (`parsed_messages_are_owned`). When `ParseFromArray`
throws, the object stays on the heap, and nobody has its address
(`parseIn_of_throws`).
-/

set_option autoImplicit false

namespace AirNet.Net

open AirNet.Cpp AirNet.Lib

/-- Computations that use objects; the objects survive an exception. -/
abbrev OnArena (M α : Type) := ExceptT Fault (StateM (Arena M)) α

section

variable {M α β : Type}

theorem lift_ok_bind_run (value : α) (next : α → OnArena M β) (arena : Arena M) :
    ((liftM (Except.ok value : Except Fault α) : OnArena M α) >>= next) arena =
      next value arena := rfl

theorem bind_run_of_ok {first : OnArena M α} {arena after : Arena M} {value : α}
    (ran : first arena = (.ok value, after)) (next : α → OnArena M β) :
    (first >>= next) arena = next value after := by
  show (ExceptT.bind first next) arena = _
  simp only [ExceptT.bind, ExceptT.mk, bind, StateT.bind, ran]
  rfl

theorem bind_run_of_error {first : OnArena M α} {arena after : Arena M} {fault : Fault}
    (ran : first arena = (.error fault, after)) (next : α → OnArena M β) :
    (first >>= next) arena = (.error fault, after) := by
  show (ExceptT.bind first next) arena = _
  simp only [ExceptT.bind, ExceptT.mk, bind, StateT.bind, ran]
  rfl

end

/-! ## `Parse` -/

section

variable {M : Type} (A : Allocator)

/-- One step of `Parse`, on its local variable `message` and the objects. -/
def ParseEvent.exec :
    ParseEvent M → Option Nat × Arena M → Except Fault (Option Nat × Arena M)
  | .uses _, state => .ok state
  | .creates message, (_, arena) => .ok (some (arena.nextAddress A), arena.new A message)
  | .fills parsed, (some p, arena) =>
      if p ∈ arena.heap.live then .ok (some p, { arena with heap := arena.heap.put p parsed })
      else .error .outOfBounds
  | .fills _, (none, _) => .error .outOfBounds
  | .deletes, (some p, arena) =>
      match arena.heap.delete p with
      | some heap => .ok (none, { arena with heap := heap })
      | none => .error .outOfBounds
  | .deletes, (none, arena) => .ok (none, arena)

/-- The record is carried out, and the variable `message` is returned with the
error code. -/
def onArena (action : Recorded (ParseEvent M) Fault (Option M × ErrorCode)) :
    OnArena M (Option Nat × ErrorCode) := fun arena =>
  match action.events.foldlM (fun state event => event.exec A state) (none, arena) with
  | .ok (message, arena) => (action.outcome.map fun result => (message, result.2), arena)
  | .error fault => (.error fault, arena)

/-- What happens on the heap for a result of `Parse` on values. -/
inductive ParseMove (arena : Arena M) : Except Fault (Option M × ErrorCode) →
    Except Fault (Option Nat × ErrorCode) × Arena M → Prop where
  | rejected (errorCode : ErrorCode) {after : Arena M} (same : after.heap = arena.heap) :
      ParseMove arena (.ok (none, errorCode)) (.ok (none, errorCode), after)
  | parsed (message : M) {p : Nat} {after : Arena M} (dead : p ∉ arena.heap.live)
      (filled : after.heap = arena.heap.put p message) :
      ParseMove arena (.ok (some message, .kNoError)) (.ok (some p, .kNoError), after)
  | failed (fault : Fault) (after : Arena M) : ParseMove arena (.error fault) (.error fault, after)

/-- On every heap the record is carried out as the outcome says. -/
def Moves (action : Recorded (ParseEvent M) Fault (Option M × ErrorCode)) : Prop :=
  ∀ arena, ParseMove arena action.outcome (onArena A action arena)

variable {A}

theorem Moves.uses {action : Recorded (ParseEvent M) Fault (Option M × ErrorCode)}
    (moves : Moves A action) (use : Use) : Moves A (action.after [.uses use]) :=
  moves

theorem Moves.pure (errorCode : ErrorCode) :
    Moves A (pure (none, errorCode) : Recorded (ParseEvent M) Fault (Option M × ErrorCode)) :=
  fun _ => .rejected errorCode rfl

theorem Moves.lift {α : Type} {action : Except Fault α}
    {next : α → Recorded (ParseEvent M) Fault (Option M × ErrorCode)}
    (moves : ∀ value, Moves A (next value)) :
    Moves A ((liftM action : Recorded (ParseEvent M) Fault α) >>= next) := by
  intro arena
  cases action with
  | ok value => exact moves value arena
  | error fault => exact .failed fault arena

/-- A message that is created and deleted again. -/
theorem Moves.deleted (message : M) (use : Use) (errorCode : ErrorCode) :
    Moves A ⟨[.creates message, .uses use, .deletes], .ok (none, errorCode)⟩ := by
  intro arena
  have deleted : (arena.new A message).heap.delete (arena.nextAddress A) = some arena.heap :=
    Heap.delete_put (arena.nextAddress_not_live A) message
  have ran : onArena A ⟨[.creates message, .uses use, .deletes], .ok (none, errorCode)⟩ arena =
      (.ok (none, errorCode), ⟨arena.heap, arena.created + 1⟩) := by
    simp only [onArena, List.foldlM, ParseEvent.exec, ok_bind, deleted]
    rfl
  rw [ran]
  exact .rejected errorCode rfl

/-- A message that is created and filled. -/
theorem Moves.filled (message parsed : M) (use : Use) :
    Moves A ⟨[.creates message, .uses use, .fills parsed], .ok (some parsed, .kNoError)⟩ := by
  intro arena
  have isLive : arena.nextAddress A ∈ (arena.new A message).heap.live :=
    Finset.mem_insert_self _ _
  have ran : onArena A ⟨[.creates message, .uses use, .fills parsed],
      .ok (some parsed, .kNoError)⟩ arena = (.ok (some (arena.nextAddress A), .kNoError),
        ⟨(arena.new A message).heap.put (arena.nextAddress A) parsed, arena.created + 1⟩) := by
    simp only [onArena, List.foldlM, ParseEvent.exec, ok_bind, if_pos isLive]
    rfl
  rw [ran]
  exact .parsed parsed (arena.nextAddress_not_live A) (Heap.put_put _ _ _ _)

end

namespace CodecEnv

variable (E : CodecEnv) (A : Allocator)

/-- `Parse(buf, len, error)` with the message on the heap. -/
def parseIn (buf : Bytes) (len : Int) : OnArena E.protobuf.Message (Option Nat × ErrorCode) :=
  onArena A (E.parseRecorded buf len)

theorem parseIn_moves (buf : Bytes) (len : Int) (arena : Arena E.protobuf.Message) :
    ParseMove arena (E.parse buf len) (E.parseIn A buf len arena) := by
  suffices moves : Moves A (E.parseRecorded buf len) from moves arena
  refine Moves.uses (Moves.lift fun tail => Moves.lift fun expectedCheckSum => ?_) _
  refine Moves.uses (Moves.lift fun covered => ?_) _
  dsimp only
  split_ifs with agrees
  · refine Moves.uses (Moves.lift fun nameLen => ?_) _
    split_ifs with inRange
    · refine Moves.uses (Moves.lift fun name => Moves.lift fun typeName => ?_) _
      cases E.protobuf.createMessage typeName with
      | none => exact Moves.pure _
      | some message =>
          dsimp only
          cases advance buf (kNamelenLen + nameLen) with
          | error fault => exact fun _ => .failed fault _
          | ok data =>
              simp only [Recorded.record_bind, Recorded.lift_ok_bind]
              rcases E.protobuf.parseFromArray message data
                (len - nameLen - kNamelenLen - kCheckSumLen) with fault | _ | parsed
              · exact fun _ => .failed fault _
              · exact Moves.deleted message _ _
              · exact Moves.filled message parsed _
    · exact Moves.pure _
  · exact Moves.pure _

variable {γ : Type}

/-- The loop of `ParseMessages` with the messages on the heap. -/
def parseLoopIn (errorCallback : γ → Buffer → ErrorCode → γ × Buffer) (conn : γ) :
    (fuel : Nat) → Buffer → List Nat → OnArena E.protobuf.Message (CallResult γ Nat) :=
  parseLoopWith E.platform (E.parseIn A) errorCallback conn

def parseMessagesIn (errorCallback : γ → Buffer → ErrorCode → γ × Buffer) (conn : γ)
    (buf : Buffer) (vecMessagePtr : List Nat) : OnArena E.protobuf.Message (CallResult γ Nat) :=
  E.parseLoopIn A errorCallback conn (buf.readableBytes E.platform + 1) buf vecMessagePtr

variable {E}

/-- The result on the heap shows the result on values; the objects created since
are those of the messages behind the earlier ones. -/
structure ShowsIn (heap : Heap E.protobuf.Message) (earlier : List E.protobuf.Message)
    (earlierPtr : List Nat) (result : E.ParseResult γ) (resultIn : CallResult γ Nat)
    (after : Heap E.protobuf.Message) : Prop where
  ret : resultIn.ret = result.ret
  conn : resultIn.conn = result.conn
  buf : resultIn.buf = result.buf
  errors : resultIn.errors = result.errors
  owned : ∃ messages pointers, result.vecMessagePtr = earlier ++ messages ∧
    resultIn.vecMessagePtr = earlierPtr ++ pointers ∧ Heap.Adds heap pointers messages after

/-- Both calls end by the same fault, or both return and the one shows the
other. -/
def Follows (heap : Heap E.protobuf.Message) (earlier : List E.protobuf.Message)
    (earlierPtr : List Nat) (call : Except Fault (E.ParseResult γ))
    (callIn : Except Fault (CallResult γ Nat) × Arena E.protobuf.Message) : Prop :=
  (∃ fault, call = .error fault ∧ callIn.1 = .error fault) ∨
    ∃ result resultIn, call = .ok result ∧ callIn.1 = .ok resultIn ∧
      ShowsIn heap earlier earlierPtr result resultIn callIn.2.heap

section

variable {heap : Heap E.protobuf.Message} {earlier : List E.protobuf.Message}
  {earlierPtr : List Nat}

/-- A call that ends without a further message. -/
theorem Follows.ended (ret : Int) (conn : γ) (buf : Buffer) (errors : List ErrorCode)
    {arena : Arena E.protobuf.Message} (same : arena.heap = heap) :
    Follows heap earlier earlierPtr (.ok ⟨ret, conn, buf, earlier, errors⟩)
      (.ok ⟨ret, conn, buf, earlierPtr, errors⟩, arena) :=
  .inr ⟨_, _, rfl, rfl, rfl, rfl, rfl, rfl, [], [], (List.append_nil _).symm,
    (List.append_nil _).symm, same ▸ .nil heap⟩

/-- A call that goes on with one message more. -/
theorem Follows.before {message : E.protobuf.Message} {p : Nat} (dead : p ∉ heap.live)
    {call : Except Fault (E.ParseResult γ)}
    {callIn : Except Fault (CallResult γ Nat) × Arena E.protobuf.Message}
    (follows : Follows (heap.put p message) (earlier ++ [message]) (earlierPtr ++ [p]) call
      callIn) : Follows heap earlier earlierPtr call callIn := by
  rcases follows with failed | ⟨result, resultIn, returned, returnedIn, shows⟩
  · exact .inl failed
  · obtain ⟨messages, pointers, values, addresses, adds⟩ := shows.owned
    refine .inr ⟨result, resultIn, returned, returnedIn, shows.ret, shows.conn, shows.buf,
      shows.errors, message :: messages, p :: pointers, ?_, ?_, ?_⟩
    · rw [values, List.append_assoc, List.singleton_append]
    · rw [addresses, List.append_assoc, List.singleton_append]
    · exact (Heap.Adds.snoc (.nil heap) dead message).append adds

end

theorem parseLoopIn_follows (errorCallback : γ → Buffer → ErrorCode → γ × Buffer) (conn : γ)
    (fuel : Nat) (buf : Buffer) (earlier : List E.protobuf.Message) (earlierPtr : List Nat)
    (arena : Arena E.protobuf.Message) :
    Follows arena.heap earlier earlierPtr (E.parseLoop errorCallback conn fuel buf earlier)
      (E.parseLoopIn A errorCallback conn fuel buf earlierPtr arena) := by
  induction fuel generalizing buf earlier earlierPtr arena with
  | zero => exact .inl ⟨_, rfl, rfl⟩
  | succ fuel ih =>
      rw [parseLoop, parseLoopIn, parseLoopWith, parseLoopWith]
      split_ifs with long
      · cases buf.peekInt32 E.platform with
        | error fault => exact .inl ⟨fault, rfl, rfl⟩
        | ok be32 =>
            simp only [lift_ok_bind_run, monadLift_self, ok_bind]
            split_ifs with outside whole
            · exact .ended _ _ _ _ rfl
            · cases advance buf.peek kHeaderLen with
              | error fault => exact .inl ⟨fault, rfl, rfl⟩
              | ok body =>
                  simp only [lift_ok_bind_run, ok_bind]
                  have moved := E.parseIn_moves A body be32.toInt arena
                  generalize E.parse body be32.toInt = parsed at moved ⊢
                  generalize ran : E.parseIn A body be32.toInt arena = parsedIn at moved
                  cases moved with
                  | rejected errorCode same =>
                      rw [bind_run_of_ok ran]
                      cases errorCode <;> exact .ended _ _ _ _ same
                  | failed fault after =>
                      rw [bind_run_of_error ran]
                      exact .inl ⟨fault, rfl, rfl⟩
                  | @parsed message p after dead filled =>
                      rw [bind_run_of_ok ran]
                      simp only [ok_bind]
                      cases buf.retrieve E.platform
                          (E.platform.sizeOfInt (kHeaderLen + be32.toInt)) with
                      | error fault => exact .inl ⟨fault, rfl, rfl⟩
                      | ok rest =>
                          have further := ih rest (earlier ++ [message]) (earlierPtr ++ [p]) after
                          rw [filled] at further
                          exact further.before dead
            · exact .ended _ _ _ _ rfl
      · exact .ended _ _ _ _ rfl

/-- **Messages on a heap.**  A call of `ParseMessages` with the messages on a
heap does what it does with the messages as values, and owns the objects it has
created. -/
theorem parseMessagesIn_follows (errorCallback : γ → Buffer → ErrorCode → γ × Buffer) (conn : γ)
    (buf : Buffer) (earlier : List E.protobuf.Message) (earlierPtr : List Nat)
    (arena : Arena E.protobuf.Message) :
    Follows arena.heap earlier earlierPtr (E.parseMessages errorCallback conn buf earlier)
      (E.parseMessagesIn A errorCallback conn buf earlierPtr arena) :=
  parseLoopIn_follows A errorCallback conn _ buf earlier earlierPtr arena

/-! ## Runs -/

variable (E) in
/-- The receiving side with the messages on a heap. -/
structure HeapReceiver (γ : Type) where
  conn : γ
  buf : Buffer
  arena : Arena E.protobuf.Message
  vecMessagePtr : List Nat

variable (E) in
def HeapReceiver.step (errorCallback : γ → Buffer → ErrorCode → γ × Buffer) (chunk : Bytes)
    (receiver : E.HeapReceiver γ) : Except Fault (E.HeapReceiver γ × Int × List ErrorCode) := do
  let buf ← receiver.buf.append E.platform chunk chunk.length
  let called := E.parseMessagesIn A errorCallback receiver.conn buf receiver.vecMessagePtr
    receiver.arena
  let result ← called.1
  pure (⟨result.conn, result.buf, called.2, result.vecMessagePtr⟩, result.ret, result.errors)

/-- The two receivers hold the same messages, and the objects created since the
beginning are those in the vector. -/
structure Owns (heap : Heap E.protobuf.Message) (receiver : E.Receiver γ)
    (receiverIn : E.HeapReceiver γ) : Prop where
  conn : receiverIn.conn = receiver.conn
  buf : receiverIn.buf = receiver.buf
  owned : Heap.Adds heap receiverIn.vecMessagePtr receiver.vecMessagePtr receiverIn.arena.heap

/-- One chunk more. -/
theorem Owns.step {heap : Heap E.protobuf.Message} {receiver : E.Receiver γ}
    {receiverIn : E.HeapReceiver γ} (owns : Owns heap receiver receiverIn)
    (errorCallback : γ → Buffer → ErrorCode → γ × Buffer) (chunk : Bytes) :
    (∃ fault, Receiver.step E errorCallback chunk receiver = .error fault ∧
      HeapReceiver.step E A errorCallback chunk receiverIn = .error fault) ∨
    ∃ entry entryIn, Receiver.step E errorCallback chunk receiver = .ok entry ∧
      HeapReceiver.step E A errorCallback chunk receiverIn = .ok entryIn ∧
      Owns heap entry.1 entryIn.1 ∧ entryIn.2 = entry.2 := by
  obtain ⟨conn, buf, arena, pointers⟩ := receiverIn
  obtain ⟨isConn, isBuf, owned⟩ := owns
  subst isConn isBuf
  cases appended : receiver.buf.append E.platform chunk chunk.length with
  | error fault =>
      refine .inl ⟨fault, ?_, ?_⟩
      · rw [Receiver.step, receive, appended]
        rfl
      · rw [HeapReceiver.step, appended]
        rfl
  | ok longer =>
      have follows := parseMessagesIn_follows A errorCallback receiver.conn longer
        receiver.vecMessagePtr pointers arena
      generalize ran : E.parseMessagesIn A errorCallback receiver.conn longer pointers arena =
        callIn at follows
      obtain ⟨called, after⟩ := callIn
      rcases follows with
        ⟨fault, failed, failedIn⟩ | ⟨result, resultIn, returned, returnedIn, shows⟩
      · obtain rfl : called = .error fault := failedIn
        refine .inl ⟨fault, ?_, ?_⟩
        · rw [Receiver.step, receive, appended, ok_bind, failed]
          rfl
        · rw [HeapReceiver.step, appended, ok_bind]
          dsimp only
          rw [ran]
          rfl
      · obtain rfl : called = .ok resultIn := returnedIn
        obtain ⟨messages, more, values, addresses, adds⟩ := shows.owned
        refine .inr ⟨(⟨result.conn, result.buf, result.vecMessagePtr⟩, result.ret, result.errors),
          (⟨resultIn.conn, resultIn.buf, after, resultIn.vecMessagePtr⟩, resultIn.ret,
            resultIn.errors), ?_, ?_, ⟨shows.conn, shows.buf, ?_⟩, ?_⟩
        · rw [Receiver.step, receive, appended, ok_bind, returned]
          rfl
        · rw [HeapReceiver.step, appended, ok_bind]
          dsimp only
          rw [ran]
          rfl
        · show Heap.Adds heap resultIn.vecMessagePtr result.vecMessagePtr after.heap
          rw [values, addresses]
          exact owned.append adds
        · exact Prod.ext shows.ret shows.errors

end CodecEnv

end AirNet.Net
