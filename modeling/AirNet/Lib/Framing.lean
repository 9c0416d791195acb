import Mathlib.Tactic

/-!
# Incremental decoding of a framed stream

A stream of symbols carries messages in frames. Given what has arrived, the
decoder waits for more, rejects the stream with an error, or delivers a message
and says how many symbols its frame occupies. The decision must be stable:
once taken, symbols that arrive later do not change it.

Draining a stream takes decisions until the decoder waits or rejects. A
receiver drains after every chunk that arrives and keeps what is left.

Stability is all that is needed for three results. How a stream is cut into
chunks has no influence on the messages delivered, on the error, or on what is
left (`feed_eq_drain`). An error is absorbing: more symbols leave the same
error and consume nothing (`drain_rest_append_of_error`). And a stream of
frames that the decoder recognises, and whose proper prefixes make it wait, is
decoded frame by frame under every segmentation (`drain_prefix`).
-/

set_option autoImplicit false

namespace AirNet.Lib

/-- What a decoder decides on the symbols that have arrived. -/
inductive Verdict (μ ε : Type) where
  | wait
  | reject (error : ε)
  | deliver (message : μ) (size : Nat)

/-- A decoder whose decisions are stable under further input. -/
structure Framing (α μ ε : Type) where
  next : List α → Verdict μ ε
  size_pos : ∀ {stream : List α} {m : μ} {size : Nat},
    next stream = .deliver m size → 0 < size
  size_le : ∀ {stream : List α} {m : μ} {size : Nat},
    next stream = .deliver m size → size ≤ stream.length
  deliver_append : ∀ {stream : List α} {m : μ} {size : Nat} (more : List α),
    next stream = .deliver m size → next (stream ++ more) = .deliver m size
  reject_append : ∀ {stream : List α} {e : ε} (more : List α),
    next stream = .reject e → next (stream ++ more) = .reject e

/-- The messages delivered, the error if there was one, and what is left. -/
@[ext] structure Outcome (α μ ε : Type) where
  delivered : List μ
  error : Option ε
  rest : List α

/-- The outcome with messages delivered before it. -/
def Outcome.after {α μ ε : Type} (earlier : List μ) (o : Outcome α μ ε) : Outcome α μ ε where
  delivered := earlier ++ o.delivered
  error := o.error
  rest := o.rest

namespace Framing

variable {α μ ε : Type} (F : Framing α μ ε)

/-- Decide until the decoder waits or rejects. -/
def drain (stream : List α) : Outcome α μ ε :=
  match _verdict : F.next stream with
  | .wait => ⟨[], none, stream⟩
  | .reject e => ⟨[], some e, stream⟩
  | .deliver m size => (drain (stream.drop size)).after [m]
termination_by stream.length
decreasing_by
  have pos := F.size_pos _verdict
  have le := F.size_le _verdict
  rw [List.length_drop]
  omega

variable {F}

theorem drain_of_wait {stream : List α} (verdict : F.next stream = .wait) :
    F.drain stream = ⟨[], none, stream⟩ := by
  rw [drain]
  split
  · rfl
  · next other => rw [verdict] at other; cases other
  · next other => rw [verdict] at other; cases other

theorem drain_of_reject {stream : List α} {e : ε} (verdict : F.next stream = .reject e) :
    F.drain stream = ⟨[], some e, stream⟩ := by
  rw [drain]
  split
  · next other => rw [verdict] at other; cases other
  · next other => rw [verdict] at other; cases other; rfl
  · next other => rw [verdict] at other; cases other

theorem drain_of_deliver {stream : List α} {m : μ} {size : Nat}
    (verdict : F.next stream = .deliver m size) :
    F.drain stream = (F.drain (stream.drop size)).after [m] := by
  conv_lhs => rw [drain]
  split
  · next other => rw [verdict] at other; cases other
  · next other => rw [verdict] at other; cases other
  · next other => rw [verdict] at other; cases other; rfl

variable (F)

/-- Induction along the decisions taken while a stream is drained. -/
theorem drain_induction {motive : List α → Prop}
    (wait : ∀ stream, F.next stream = .wait → motive stream)
    (reject : ∀ stream e, F.next stream = .reject e → motive stream)
    (deliver : ∀ stream m size, F.next stream = .deliver m size →
      motive (stream.drop size) → motive stream)
    (stream : List α) : motive stream := by
  induction bound : stream.length using Nat.strong_induction_on generalizing stream with
  | _ length ih =>
      cases verdict : F.next stream with
      | wait => exact wait stream verdict
      | reject e => exact reject stream e verdict
      | deliver m size =>
          have pos := F.size_pos verdict
          have le := F.size_le verdict
          refine deliver stream m size verdict (ih (stream.drop size).length ?_ _ rfl)
          rw [List.length_drop]
          omega

/-! ## More input after a drain -/

/-- Draining stops where the decoder waits or where it rejects. -/
theorem next_rest (stream : List α) :
    F.next (F.drain stream).rest =
      match (F.drain stream).error with
      | none => .wait
      | some e => .reject e := by
  induction stream using F.drain_induction with
  | wait stream verdict => rw [drain_of_wait verdict]; exact verdict
  | reject stream e verdict => rw [drain_of_reject verdict]; exact verdict
  | deliver stream m size verdict ih => rw [drain_of_deliver verdict]; exact ih

/-- What is left is the end of the stream. -/
theorem rest_suffix (stream : List α) : (F.drain stream).rest <:+ stream := by
  induction stream using F.drain_induction with
  | wait stream verdict => rw [drain_of_wait verdict]
  | reject stream e verdict => rw [drain_of_reject verdict]
  | deliver stream m size verdict ih =>
      rw [drain_of_deliver verdict]
      exact ih.trans (List.drop_suffix size stream)

/-- What is left after a drain is drained again with what arrives next. -/
theorem drain_append (stream more : List α) :
    F.drain (stream ++ more) =
      (F.drain ((F.drain stream).rest ++ more)).after (F.drain stream).delivered := by
  induction stream using F.drain_induction with
  | wait stream verdict => rw [drain_of_wait verdict]; rfl
  | reject stream e verdict => rw [drain_of_reject verdict]; rfl
  | deliver stream m size verdict ih =>
      rw [drain_of_deliver (F.deliver_append more verdict),
        List.drop_append_of_le_length (F.size_le verdict), ih, drain_of_deliver verdict]
      simp only [Outcome.after, List.append_assoc]

/-- **Errors are absorbing.**  After an error, more input leaves the error as
it was, delivers nothing and consumes nothing. -/
theorem drain_rest_append_of_error {stream : List α} {e : ε}
    (failed : (F.drain stream).error = some e) (more : List α) :
    F.drain ((F.drain stream).rest ++ more) =
      ⟨[], some e, (F.drain stream).rest ++ more⟩ := by
  have verdict := F.next_rest stream
  rw [failed] at verdict
  exact drain_of_reject (F.reject_append more verdict)

/-! ## Segmentation -/

/-- Drain after every chunk and stop at the first error. -/
def feed : List α → List (List α) → Outcome α μ ε
  | pending, [] => ⟨[], none, pending⟩
  | pending, chunk :: chunks =>
      let now := F.drain (pending ++ chunk)
      match now.error with
      | some _ => now
      | none => (feed now.rest chunks).after now.delivered

variable {F}

/-- The receiver stops at the first error. -/
theorem feed_of_error {pending chunk : List α} {chunks : List (List α)} {e : ε}
    (failed : (F.drain (pending ++ chunk)).error = some e) :
    F.feed pending (chunk :: chunks) = F.drain (pending ++ chunk) := by
  simp only [feed, failed]

/-- Without an error the receiver goes on with what is left. -/
theorem feed_of_quiet {pending chunk : List α} {chunks : List (List α)}
    (quiet : (F.drain (pending ++ chunk)).error = none) :
    F.feed pending (chunk :: chunks) =
      (F.feed (F.drain (pending ++ chunk)).rest chunks).after
        (F.drain (pending ++ chunk)).delivered := by
  simp only [feed, quiet]

variable (F)

/-- **Segmentation independence.**  Feeding a stream in chunks has the outcome
of draining it at once; only the symbols behind an error depend on when the
receiver stopped. -/
theorem feed_eq_drain {pending : List α} (waiting : F.next pending = .wait)
    (chunks : List (List α)) :
    (F.feed pending chunks).delivered = (F.drain (pending ++ chunks.flatten)).delivered ∧
    (F.feed pending chunks).error = (F.drain (pending ++ chunks.flatten)).error ∧
    ((F.feed pending chunks).error = none →
      (F.feed pending chunks).rest = (F.drain (pending ++ chunks.flatten)).rest) := by
  induction chunks generalizing pending with
  | nil =>
      rw [List.flatten_nil, List.append_nil, drain_of_wait waiting]
      exact ⟨rfl, rfl, fun _ => rfl⟩
  | cons chunk chunks ih =>
      rw [List.flatten_cons, ← List.append_assoc, drain_append]
      cases failed : (F.drain (pending ++ chunk)).error with
      | some e =>
          rw [F.drain_rest_append_of_error failed]
          simp only [feed, failed, Outcome.after, List.append_nil]
          exact ⟨trivial, trivial, fun none => by cases none⟩
      | none =>
          have still : F.next (F.drain (pending ++ chunk)).rest = .wait := by
            rw [F.next_rest, failed]
          obtain ⟨delivered, error, rest⟩ := ih still
          simp only [feed, failed, Outcome.after, delivered, error]
          exact ⟨trivial, trivial, fun quiet => rest (error.trans quiet)⟩

/-! ## Streams of frames -/

/-- The decoder recognises the frame, and waits on every proper prefix. -/
structure IsFrame (frame : List α) (m : μ) : Prop where
  complete : F.next frame = .deliver m frame.length
  incomplete : ∀ {start : List α}, start <+: frame → start.length < frame.length →
    F.next start = .wait

/-- Exactly the first `k` frames lie within the symbols received. -/
structure Complete (frames : List (List α)) (received k : Nat) : Prop where
  le : k ≤ frames.length
  arrived : (frames.take k).flatten.length ≤ received
  pending : k < frames.length → received < (frames.take (k + 1)).flatten.length

/-- When the whole stream was received, all frames are complete. -/
theorem Complete.all {frames : List (List α)} {k : Nat}
    (complete : Complete frames frames.flatten.length k) : k = frames.length := by
  by_contra different
  have pending := complete.pending (lt_of_le_of_ne complete.le different)
  have whole : (frames.take (k + 1)).flatten.length ≤ frames.flatten.length :=
    (List.take_sublist _ _).flatten.length_le
  omega

/-- **Frames are decoded one by one.**  Of a prefix of a stream of frames,
exactly the messages whose frames lie in it are delivered, no error occurs, and
what is left is the part behind these frames. -/
theorem drain_prefix (idle : F.next [] = .wait) {frames : List (List α)} {messages : List μ}
    (recognised : List.Forall₂ F.IsFrame frames messages) {start : List α}
    (isPrefix : start <+: frames.flatten) :
    ∃ k, Complete frames start.length k ∧
      F.drain start =
        ⟨messages.take k, none, start.drop (frames.take k).flatten.length⟩ := by
  induction recognised generalizing start with
  | nil =>
      obtain rfl : start = [] := List.prefix_nil.mp isPrefix
      exact ⟨0, ⟨le_refl _, le_refl _, fun below => absurd below (lt_irrefl _)⟩,
        drain_of_wait idle⟩
  | @cons frame m frames messages isFrame _ ih =>
      rw [List.flatten_cons] at isPrefix
      by_cases short : start.length < frame.length
      · have start_prefix : start <+: frame :=
          List.prefix_of_prefix_length_le isPrefix (List.prefix_append _ _) (le_of_lt short)
        refine ⟨0, ⟨Nat.zero_le _, Nat.zero_le _, fun _ => ?_⟩, ?_⟩
        · simpa using short
        · exact drain_of_wait (isFrame.incomplete start_prefix short)
      · obtain ⟨later, rfl⟩ : frame <+: start :=
          List.prefix_of_prefix_length_le (List.prefix_append _ _) isPrefix (by omega)
        have later_prefix : later <+: frames.flatten := by
          rwa [List.prefix_append_right_inj] at isPrefix
        obtain ⟨k, ⟨le, arrived, pending⟩, drained⟩ := ih later_prefix
        refine ⟨k + 1, ⟨Nat.succ_le_succ le, ?_, ?_⟩, ?_⟩
        · rw [List.take_succ_cons, List.flatten_cons, List.length_append, List.length_append]
          omega
        · intro below
          have bound := pending (Nat.lt_of_succ_lt_succ below)
          rw [List.take_succ_cons, List.flatten_cons, List.length_append, List.length_append]
          omega
        · rw [drain_of_deliver (F.deliver_append later isFrame.complete), List.drop_left, drained]
          simp only [Outcome.after, List.take_succ_cons, List.flatten_cons, List.length_append,
            List.singleton_append, List.drop_append, List.drop_of_length_le (Nat.le_add_right _ _),
            Nat.add_sub_cancel_left, List.nil_append]

end Framing

end AirNet.Lib
