import AirNet.Net.SessionFlow

/-!
# Channels

A channel holds the events of its descriptor that it wants. Each change is told to the
poller of its loop, and what the poller then waits for is decided by what it has noted in
`index_`: `EPollPoller`, which a program gets unless it asks for the other one, adds a
channel that is new or was deleted, whatever it wants, and deletes one that wants nothing.
So a channel that is disabled once is not watched, and one that is disabled twice is
watched again: for hangups and errors, which the kernel always reports.

The definitions follow `Channel.h`, `Channel.cc` and what `EPollPoller::updateChannel` and
`removeChannel` do to one channel.
-/

set_option autoImplicit false

namespace AirNet.Muduo

/-- `events_`. -/
abbrev Events := AirNet.Net.Channel

def noneEvent : Events where
  reading := false
  writing := false

def kNew : Int := -1

def kAdded : Int := 1

def kDeleted : Int := 2

structure Channel extends AirNet.Net.Channel where
  index_ : Int
  deriving DecidableEq, Repr

namespace Channel

def construct : Channel := ⟨noneEvent, kNew⟩

def events (channel : Channel) : Events := channel.toChannel

/-- The kernel reports what happens on the descriptor. -/
def isWatched (channel : Channel) : Bool := channel.index_ = kAdded

/-- `index_` behind `update()`. -/
def updated (events : Events) (index_ : Int) : Int :=
  if index_ = kNew ∨ index_ = kDeleted then kAdded
  else if events = noneEvent then kDeleted
  else index_

/-- Other events are wanted, and the poller is told. -/
def set (channel : Channel) (events : Events) : Channel :=
  ⟨events, updated events channel.index_⟩

def enableReading (channel : Channel) : Channel :=
  channel.set { channel.events with reading := true }

def disableReading (channel : Channel) : Channel :=
  channel.set { channel.events with reading := false }

def enableWriting (channel : Channel) : Channel :=
  channel.set { channel.events with writing := true }

def disableWriting (channel : Channel) : Channel :=
  channel.set { channel.events with writing := false }

def disableAll (channel : Channel) : Channel := channel.set noneEvent

/-- `remove()`, where its assertions hold. -/
def remove (channel : Channel) : Channel := { channel with index_ := kNew }

/-- A channel that is disabled twice is watched again. -/
example : construct.enableReading.disableAll.isWatched = false ∧
    construct.enableReading.disableAll.disableAll.isWatched = true := by decide

section

variable (channel : Channel)

@[simp] theorem disableWriting_writing : channel.disableWriting.writing = false := rfl

/-- Writing is enabled where it was not. -/
theorem writing_of_ite :
    (if channel.writing then channel else channel.enableWriting).writing = true := by
  split_ifs with writing
  · exact writing
  · rfl

theorem remove_index : channel.remove.index_ ≠ kAdded := by
  change kNew ≠ kAdded
  decide

end

/-! ## Channels in step -/

/-- The kernel watches the channel just when it wants something. -/
structure InStep (channel : Channel) : Prop where
  known : channel.index_ = kAdded ∨ channel.index_ = kDeleted
  watched : channel.index_ = kAdded ↔ channel.events ≠ noneEvent

variable {channel : Channel} {events : Events}

theorem wants_of_reading (reading : events.reading = true) : events ≠ noneEvent := by
  rintro rfl
  cases reading

theorem wants_of_writing (writing : events.writing = true) : events ≠ noneEvent := by
  rintro rfl
  cases writing

/-- A channel that was not watched is, whatever it wants. -/
theorem updated_of_unwatched {index_ : Int} (unwatched : index_ = kNew ∨ index_ = kDeleted) :
    updated events index_ = kAdded :=
  if_pos unwatched

/-- A channel that was watched is as long as it wants something. -/
theorem updated_kAdded : updated events kAdded = if events = noneEvent then kDeleted else kAdded :=
  if_neg (by decide)

/-- A channel that was not watched is in step when it wants something. -/
theorem InStep.of_unwatched (unwatched : channel.index_ = kNew ∨ channel.index_ = kDeleted)
    (wants : events ≠ noneEvent) : (channel.set events).InStep := by
  have index : (channel.set events).index_ = kAdded := updated_of_unwatched unwatched
  exact ⟨.inl index, iff_of_true index wants⟩

/-- A channel that was watched is in step after every change. -/
theorem InStep.of_watched (watched : channel.index_ = kAdded) : (channel.set events).InStep := by
  have index : (channel.set events).index_ = updated events channel.index_ := rfl
  rw [watched, updated_kAdded] at index
  by_cases nothing : events = noneEvent
  · rw [if_pos nothing] at index
    refine ⟨.inr index, ?_⟩
    rw [index]
    exact iff_of_false (by decide) (not_not_intro nothing)
  · rw [if_neg nothing] at index
    exact ⟨.inl index, iff_of_true index nothing⟩

/-- A channel that the poller knows stays known when it is disabled. -/
theorem disableAll_index (inStep : channel.InStep) : channel.disableAll.index_ ≠ kNew := by
  have index : channel.disableAll.index_ = updated noneEvent channel.index_ := rfl
  rw [index]
  rcases inStep.known with added | deleted
  · rw [added]
    decide
  · rw [deleted]
    decide

namespace InStep

/-- A change keeps a channel in step, unless it wanted nothing before and wants nothing
after it. -/
theorem set (inStep : channel.InStep)
    (wants : channel.events ≠ noneEvent ∨ events ≠ noneEvent) : (channel.set events).InStep := by
  by_cases before : channel.events = noneEvent
  · have unwatched : channel.index_ = kNew ∨ channel.index_ = kDeleted :=
      .inr (inStep.known.resolve_left fun added => inStep.watched.mp added before)
    exact of_unwatched unwatched (wants.resolve_left (not_not_intro before))
  · exact of_watched (inStep.watched.mpr before)

theorem enableReading (inStep : channel.InStep) : channel.enableReading.InStep :=
  inStep.set (.inr (wants_of_reading rfl))

theorem disableReading (inStep : channel.InStep) (reading : channel.reading = true) :
    channel.disableReading.InStep :=
  inStep.set (.inl (wants_of_reading reading))

theorem enableWriting (inStep : channel.InStep) : channel.enableWriting.InStep :=
  inStep.set (.inr (wants_of_writing rfl))

theorem disableWriting (inStep : channel.InStep) (writing : channel.writing = true) :
    channel.disableWriting.InStep :=
  inStep.set (.inl (wants_of_writing writing))

end InStep

end Channel

/-! ## Events that have happened -/

/-- `revents_`. -/
structure Revents where
  pollIn : Bool
  pollPri : Bool
  pollRdhup : Bool
  pollHup : Bool
  pollErr : Bool
  pollNval : Bool
  pollOut : Bool
  deriving DecidableEq, Repr

/-- The callbacks of a channel. -/
inductive Handler where
  | closeCallback_
  | errorCallback_
  | readCallback_
  | writeCallback_
  deriving DecidableEq, Repr

/-- `handleEventWithGuard`: the callbacks it makes, in order. -/
def Revents.handlers (revents_ : Revents) : List Handler :=
  (if revents_.pollHup && !revents_.pollIn then [.closeCallback_] else []) ++
  (if revents_.pollErr || revents_.pollNval then [.errorCallback_] else []) ++
  (if revents_.pollIn || revents_.pollPri || revents_.pollRdhup then [.readCallback_] else []) ++
  if revents_.pollOut then [.writeCallback_] else []

end AirNet.Muduo
