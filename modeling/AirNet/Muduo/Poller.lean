import AirNet.Cpp.Platform
import AirNet.Lib.Slots
import AirNet.Lib.Transition
import AirNet.Muduo.Channel

/-!
# The two pollers

A channel tells the poller of its loop which events of its descriptor it wants, and
the poller asks the kernel. There are two pollers, and an environment variable decides
which one a program runs with. The definitions follow `PollPoller.cc`,
`EPollPoller.cc`, `Poller.cc` and `Channel.cc`.

`PollPoller` keeps the list of descriptors that it passes to `poll(2)`. A channel
remembers the place of its own in `index_`; one that wants nothing stays in the list
with the complement of its descriptor, and removal moves the last entry into the gap.
`EPollPoller` leaves the list to the kernel and uses `index_` for the state of the
channel: never added, added, or deleted since it wants nothing.

What both are for is simple (`Status`): a channel is known with the events it wants, and
is watched until it is told to want nothing, or it is not known.
-/

set_option autoImplicit false

namespace AirNet.Muduo.Poller

open AirNet.Cpp AirNet.Lib

/-! ## Channels and the kernel -/

/-- What a program calls on a channel. -/
inductive Call where
  | enableReading
  | disableReading
  | enableWriting
  | disableWriting
  | disableAll
  | remove
  deriving DecidableEq, Repr

/-- `events_` after the call. -/
def Call.apply : Call → Events → Events
  | .enableReading, events => { events with reading := true }
  | .disableReading, events => { events with reading := false }
  | .enableWriting, events => { events with writing := true }
  | .disableWriting, events => { events with writing := false }
  | .disableAll, _ => noneEvent
  | .remove, events => events

/-- What the kernel reports of a descriptor for which these events are wanted. The
descriptor is open, so it is never invalid. -/
def report (events : Events) (ready : Revents) : Revents where
  pollIn := events.reading && ready.pollIn
  pollPri := events.reading && ready.pollPri
  pollRdhup := false
  pollHup := ready.pollHup
  pollErr := ready.pollErr
  pollNval := false
  pollOut := events.writing && ready.pollOut

/-- `revents > 0`. -/
def positive (revents : Revents) : Bool :=
  revents.pollIn || revents.pollPri || revents.pollRdhup || revents.pollHup ||
    revents.pollErr || revents.pollNval || revents.pollOut

/-! ## What a poller is for -/

/-- A channel, the events that it wants, and whether the kernel is asked for them. -/
inductive Status where
  | fresh
  | known (events : Events) (watched : Bool)
  | removed
  deriving DecidableEq, Repr

def Status.events : Status → Events
  | .known events _ => events
  | _ => noneEvent

/-- A channel that is added is watched, also when it wants nothing. -/
def Status.apply (call : Call) : Status → Status
  | .known events _ =>
      if call = .remove then .removed
      else .known (call.apply events) (call.apply events ≠ noneEvent)
  | status =>
      if call = .remove then .removed else .known (call.apply status.events) true

/-- The channels of a loop. -/
abbrev Channels := Nat → Status

/-- The channels after a call on one of them. -/
def after (s : Channels) (label : Nat × Call) : Channels :=
  Function.update s label.1 ((s label.1).apply label.2)

def Channels.step (label : Nat × Call) (s : Channels) : Option Channels := some (after s label)

section Descriptors

variable (fd : Nat → Nat)

/-- The calls on which the pollers agree. A channel is added while no other has its
descriptor; a channel that is not watched is not disabled again, and no other is removed;
and one that was removed is not used any more. -/
def Contract (label : Nat × Call) (s : Channels) : Prop :=
  match s label.1 with
  | .fresh =>
      label.2 ≠ .remove ∧ ∀ d events watched, s d = .known events watched → fd d ≠ fd label.1
  | .known events watched =>
      if label.2 = .remove then events = noneEvent ∧ watched = false
      else watched = true ∨ label.2.apply events ≠ noneEvent
  | .removed => False

/-- The channels with something to report, and what. -/
def IsActive (s : Channels) (ready : Nat → Revents) (active : Nat × Revents) : Prop :=
  ∃ events, s active.1 = .known events true ∧
    active.2 = report events (ready (fd active.1)) ∧ positive active.2 = true

end Descriptors

end AirNet.Muduo.Poller

namespace AirNet.Muduo

open AirNet.Cpp AirNet.Lib Poller

/-! ## `PollPoller` -/

/-- `struct pollfd`; what is returned in it is an answer of the kernel. -/
structure Pollfd where
  fd : Int
  events : Events
  deriving DecidableEq, Repr

/-- The poller, with what the channels hold of it. -/
structure PollPoller where
  pollfds_ : List Pollfd
  channels_ : Int → Option Nat
  events_ : Nat → Events
  index_ : Nat → Int

namespace PollPoller

def initial : PollPoller where
  pollfds_ := []
  channels_ := fun _ => none
  events_ := fun _ => noneEvent
  index_ := fun _ => -1

variable (fd : Nat → Nat)

def updateChannel (channel : Nat) (s : PollPoller) : Except Fault PollPoller := do
  if s.index_ channel < 0 then
    check (s.channels_ (fd channel) = none) "channels_.find(channel->fd()) == channels_.end()"
    let pfd : Pollfd := ⟨fd channel, s.events_ channel⟩
    let pollfds := s.pollfds_ ++ [pfd]
    let idx := (pollfds.length : Int) - 1
    pure { s with
      pollfds_ := pollfds
      index_ := Function.update s.index_ channel idx
      channels_ := Function.update s.channels_ pfd.fd (some channel) }
  else
    check (s.channels_ (fd channel) ≠ none) "channels_.find(channel->fd()) != channels_.end()"
    check (s.channels_ (fd channel) = some channel) "channels_[channel->fd()] == channel"
    let idx := s.index_ channel
    check (0 ≤ idx ∧ idx < s.pollfds_.length) "0 <= idx && idx < static_cast<int>(pollfds_.size())"
    match s.pollfds_[idx.toNat]? with
    | none => .error .outOfBounds
    | some pfd =>
        check (pfd.fd = fd channel ∨ pfd.fd = -(fd channel) - 1)
          "pfd.fd == channel->fd() || pfd.fd == -channel->fd()-1"
        let pfd : Pollfd :=
          ⟨if s.events_ channel = noneEvent then -(fd channel) - 1 else fd channel,
            s.events_ channel⟩
        pure { s with pollfds_ := s.pollfds_.set idx.toNat pfd }

def removeChannel (channel : Nat) (s : PollPoller) : Except Fault PollPoller := do
  check (s.channels_ (fd channel) ≠ none) "channels_.find(channel->fd()) != channels_.end()"
  check (s.channels_ (fd channel) = some channel) "channels_[channel->fd()] == channel"
  check (s.events_ channel = noneEvent) "channel->isNoneEvent()"
  let idx := s.index_ channel
  check (0 ≤ idx ∧ idx < s.pollfds_.length) "0 <= idx && idx < static_cast<int>(pollfds_.size())"
  match s.pollfds_[idx.toNat]?, s.pollfds_.getLast? with
  | some pfd, some back =>
      check (pfd.fd = -(fd channel) - 1 ∧ pfd.events = s.events_ channel)
        "pfd.fd == -channel->fd()-1 && pfd.events == channel->events()"
      -- The erase removes one: the channel was found.
      let channels := Function.update s.channels_ (fd channel) none
      if idx.toNat = s.pollfds_.length - 1 then
        pure { s with channels_ := channels, pollfds_ := s.pollfds_.dropLast }
      else
        let channelAtEnd := if back.fd < 0 then -back.fd - 1 else back.fd
        -- `iter_swap` and `pop_back`
        let pollfds := ((s.pollfds_.set idx.toNat back).set (s.pollfds_.length - 1) pfd).dropLast
        match channels channelAtEnd with
        | none => .error .outOfBounds
        | some other =>
            pure { s with
              channels_ := channels, pollfds_ := pollfds
              index_ := Function.update s.index_ other idx }
  | _, _ => .error .outOfBounds

/-- A call on a channel. -/
def perform (s : PollPoller) (label : Nat × Call) : Except Fault PollPoller :=
  if label.2 = .remove then do
    check (s.events_ label.1 = noneEvent) "isNoneEvent()"
    removeChannel fd label.1 s
  else
    updateChannel fd label.1
      { s with events_ := Function.update s.events_ label.1 (label.2.apply (s.events_ label.1)) }

/-- What `poll(2)` returns for an entry; it ignores negative descriptors. -/
def answer (ready : Nat → Revents) (pfd : Pollfd) : Revents :=
  if pfd.fd < 0 then report noneEvent ⟨false, false, false, false, false, false, false⟩
  else report pfd.events (ready pfd.fd.toNat)

def fillActiveChannels (s : PollPoller) :
    Nat → List (Int × Revents) → Except Fault (List (Nat × Revents))
  | 0, _ => .ok []
  | _, [] => .ok []
  | numEvents + 1, (pfd, revents) :: pollfds =>
      if positive revents = true then
        match s.channels_ pfd with
        | none => .error (.assertion "ch != channels_.end()")
        | some channel => do
            check ((fd channel : Int) = pfd) "channel->fd() == pfd->fd"
            let activeChannels ← fillActiveChannels s numEvents pollfds
            pure ((channel, revents) :: activeChannels)
      else fillActiveChannels s (numEvents + 1) pollfds

/-- `poll`, where these events are ready. -/
def poll (ready : Nat → Revents) (s : PollPoller) : Except Fault (List (Nat × Revents)) :=
  let answers := s.pollfds_.map fun pfd => (pfd.fd, answer ready pfd)
  fillActiveChannels fd s (answers.countP fun pfd => positive pfd.2) answers

end PollPoller

/-! ## `EPollPoller` -/

inductive EpollCtl where
  | add
  | mod
  | del
  deriving DecidableEq, Repr

/-- The poller, with what the channels hold of it and the list that the kernel keeps:
to a descriptor the events that are wanted and the channel. -/
structure EPollPoller where
  epoll : Int → Option (Events × Nat)
  channels_ : Int → Option Nat
  events_ : Nat → Events
  index_ : Nat → Int

namespace EPollPoller

def initial : EPollPoller where
  epoll := fun _ => none
  channels_ := fun _ => none
  events_ := fun _ => noneEvent
  index_ := fun _ => kNew

variable (fd : Nat → Nat)

def operationToString : EpollCtl → String
  | .add => "ADD"
  | .del => "DEL"
  | .mod => "MOD"

/-- `update(operation, channel)`. What is there cannot be added, and what is not there
cannot be changed; a failed removal is only logged. -/
def update (operation : EpollCtl) (channel : Nat) (s : EPollPoller) : Except Fault EPollPoller :=
  let event := (s.events_ channel, channel)
  let fatal := Fault.fatal
    ("epoll_ctl op =" ++ operationToString operation ++ " fd =" ++ toString (fd channel))
  match operation, s.epoll (fd channel) with
  | .add, none => .ok { s with epoll := Function.update s.epoll (fd channel) (some event) }
  | .add, some _ => .error fatal
  | .mod, some _ => .ok { s with epoll := Function.update s.epoll (fd channel) (some event) }
  | .mod, none => .error fatal
  | .del, _ => .ok { s with epoll := Function.update s.epoll (fd channel) none }

def updateChannel (channel : Nat) (s : EPollPoller) : Except Fault EPollPoller := do
  let index := s.index_ channel
  if index = kNew ∨ index = kDeleted then
    let s ←
      if index = kNew then do
        check (s.channels_ (fd channel) = none) "channels_.find(fd) == channels_.end()"
        pure { s with channels_ := Function.update s.channels_ (fd channel) (some channel) }
      else do
        check (s.channels_ (fd channel) ≠ none) "channels_.find(fd) != channels_.end()"
        check (s.channels_ (fd channel) = some channel) "channels_[fd] == channel"
        pure s
    update fd .add channel { s with index_ := Function.update s.index_ channel kAdded }
  else
    check (s.channels_ (fd channel) ≠ none) "channels_.find(fd) != channels_.end()"
    check (s.channels_ (fd channel) = some channel) "channels_[fd] == channel"
    check (index = kAdded) "index == kAdded"
    if s.events_ channel = noneEvent then
      let s ← update fd .del channel s
      pure { s with index_ := Function.update s.index_ channel kDeleted }
    else update fd .mod channel s

def removeChannel (channel : Nat) (s : EPollPoller) : Except Fault EPollPoller := do
  check (s.channels_ (fd channel) ≠ none) "channels_.find(fd) != channels_.end()"
  check (s.channels_ (fd channel) = some channel) "channels_[fd] == channel"
  check (s.events_ channel = noneEvent) "channel->isNoneEvent()"
  let index := s.index_ channel
  check (index = kAdded ∨ index = kDeleted) "index == kAdded || index == kDeleted"
  let s := { s with channels_ := Function.update s.channels_ (fd channel) none }
  let s ← if index = kAdded then update fd .del channel s else pure s
  pure { s with index_ := Function.update s.index_ channel kNew }

/-- A call on a channel. -/
def perform (s : EPollPoller) (label : Nat × Call) : Except Fault EPollPoller :=
  if label.2 = .remove then do
    check (s.events_ label.1 = noneEvent) "isNoneEvent()"
    removeChannel fd label.1 s
  else
    updateChannel fd label.1
      { s with events_ := Function.update s.events_ label.1 (label.2.apply (s.events_ label.1)) }

/-- What `epoll_wait` may return: as many of the descriptors with something to report as
there is room for, in any order. -/
structure EpollWait (s : EPollPoller) (ready : Nat → Revents) (maxevents : Nat)
    (events : List (Nat × Revents)) : Prop where
  nodup : events.Nodup
  listed : ∀ active ∈ events, ∃ descriptor wanted,
    s.epoll descriptor = some (wanted, active.1) ∧
      active.2 = report wanted (ready descriptor.toNat) ∧ positive active.2 = true
  room : events.length ≤ maxevents
  all : events.length < maxevents → ∀ descriptor wanted channel,
    s.epoll descriptor = some (wanted, channel) →
    positive (report wanted (ready descriptor.toNat)) = true →
    (channel, report wanted (ready descriptor.toNat)) ∈ events

def fillActiveChannels (s : EPollPoller) :
    List (Nat × Revents) → Except Fault (List (Nat × Revents))
  | [] => .ok []
  | (channel, revents) :: events => do
      check (s.channels_ (fd channel) ≠ none) "it != channels_.end()"
      check (s.channels_ (fd channel) = some channel) "it->second == channel"
      let activeChannels ← fillActiveChannels s events
      pure ((channel, revents) :: activeChannels)

/-- `poll`, where `epoll_wait` returns these events: the active channels and the size of
`events_`, which nothing else changes. -/
def poll (eventsSize : Nat) (events : List (Nat × Revents)) (s : EPollPoller) :
    Except Fault (List (Nat × Revents) × Nat) := do
  check (events.length ≤ eventsSize) "implicit_cast<size_t>(numEvents) <= events_.size()"
  let activeChannels ← fillActiveChannels fd s events
  if 0 < events.length ∧ events.length = eventsSize then pure (activeChannels, eventsSize * 2)
  else pure (activeChannels, eventsSize)

end EPollPoller

end AirNet.Muduo
