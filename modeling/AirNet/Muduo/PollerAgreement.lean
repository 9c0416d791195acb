import AirNet.Muduo.Poller

/-!
# The pollers agree

Both pollers are shown to be what a poller is for: a channel that a program adds and
changes is known to them with the events that it wants (`PollPoller.Refines`,
`EPollPoller.Refines`), and no assertion and no call of the kernel fails. So they report
the same channels with the same events, and a program cannot tell which one it runs with
(`pollers_agree`).

This is about the calls of `Contract`, and about no others: any other call fails an
assertion of `PollPoller`, or makes `EPollPoller` watch what `PollPoller` ignores. The
last is what happens to a channel that is disabled a second time.

`EPollPoller` alone asks for less. Whatever calls it takes, the kernel watches a channel
just when the channel has noted so (`EPollPoller.Sound`), and the calls do to the channel
what `Channel` says: this is what a connection sees of its poller.
-/

set_option autoImplicit false

namespace AirNet.Muduo

open AirNet.Cpp AirNet.Lib Poller

variable {fd : Nat → Nat} {s : Channels} {c : Nat} {call : Call}

/-! ## What both pollers know -/

namespace Poller

def Status.IsKnown (status : Status) : Prop := ∃ events watched, status = .known events watched

def Status.watched : Status → Bool
  | .known _ watched => watched
  | _ => false

/-- The map of a poller has the channels that are known. -/
structure Knows (fd : Nat → Nat) (s : Channels) (channels_ : Int → Option Nat)
    (events_ : Nat → Events) : Prop where
  events : ∀ c, events_ c = (s c).events
  listed : ∀ descriptor c, channels_ descriptor = some c ↔ (s c).IsKnown ∧ descriptor = fd c

theorem after_fresh (updates : call ≠ .remove) (fresh : s c = .fresh) :
    after s (c, call) c = .known (call.apply noneEvent) true := by
  simp only [after, Function.update_self, fresh, Status.apply, if_neg updates, Status.events]

theorem after_known (updates : call ≠ .remove) {events : Events} {watched : Bool}
    (known : s c = .known events watched) :
    after s (c, call) c = .known (call.apply events) (call.apply events ≠ noneEvent) := by
  simp only [after, Function.update_self, known, Status.apply, if_neg updates]

theorem isKnown_after (s : Channels) (c : Nat) (updates : call ≠ .remove) :
    (after s (c, call) c).IsKnown := by
  cases status : s c with
  | fresh => exact ⟨_, _, after_fresh updates status⟩
  | known events watched => exact ⟨_, _, after_known updates status⟩
  | removed =>
      simp only [after, Function.update_self, status, Status.apply, if_neg updates]
      exact ⟨_, _, rfl⟩

theorem events_after (s : Channels) (c : Nat) (updates : call ≠ .remove) :
    (after s (c, call) c).events = call.apply (s c).events := by
  cases status : s c <;>
    simp only [after, Function.update_self, status, Status.apply, if_neg updates, Status.events]

theorem after_remove (s : Channels) (c : Nat) : after s (c, .remove) c = .removed := by
  cases status : s c <;> simp only [after, Function.update_self, status, Status.apply, if_true]

theorem after_of_ne (s : Channels) {d : Nat} (other : d ≠ c) : after s (c, call) d = s d := by
  rw [after, Function.update_of_ne other]

theorem not_isKnown_of_fresh (fresh : s c = .fresh) : ¬ (s c).IsKnown := by
  rintro ⟨events, watched, known⟩
  rw [fresh] at known
  cases known

theorem not_isKnown_removed : ¬ Status.removed.IsKnown := by
  rintro ⟨events, watched, known⟩
  cases known

namespace Knows

variable {channels_ : Int → Option Nat} {events_ : Nat → Events}

theorem initial : Knows fd (fun _ => .fresh) (fun _ => none) (fun _ => noneEvent) where
  events := fun _ => rfl
  listed := fun _ c => iff_of_false nofun
    fun both => not_isKnown_of_fresh (s := fun _ => .fresh) (c := c) rfl both.1

theorem find (knows : Knows fd s channels_ events_) (known : (s c).IsKnown) :
    channels_ (fd c) = some c :=
  (knows.listed (fd c) c).mpr ⟨known, rfl⟩

/-- Descriptors of known channels are different. -/
theorem eq_of_fd (knows : Knows fd s channels_ events_) {d : Nat} (known : (s c).IsKnown)
    (known' : (s d).IsKnown) (same : fd c = fd d) : c = d := by
  have first := knows.find known
  rw [same, knows.find known'] at first
  exact (Option.some.inj first).symm

/-- A new channel has a descriptor of its own. -/
theorem find_none (knows : Knows fd s channels_ events_)
    (alone : ∀ d, (s d).IsKnown → fd d ≠ fd c) : channels_ (fd c) = none := by
  cases found : channels_ (fd c) with
  | none => rfl
  | some d =>
      obtain ⟨known, same⟩ := (knows.listed _ d).mp found
      exact absurd (Nat.cast_injective same).symm (alone d known)

/-- A channel that is not known is not found. -/
theorem find_ne (knows : Knows fd s channels_ events_) (unknown : ¬ (s c).IsKnown) :
    channels_ (fd c) ≠ some c :=
  fun found => unknown ((knows.listed _ c).mp found).1

theorem events_update (knows : Knows fd s channels_ events_) (updates : call ≠ .remove) :
    ∀ d, Function.update events_ c (call.apply (events_ c)) d = (after s (c, call) d).events := by
  intro d
  by_cases own : d = c
  · subst own
    rw [events_after s d updates, Function.update_self, knows.events d]
  · rw [after_of_ne s own, Function.update_of_ne own, knows.events d]

/-- A channel is added. -/
theorem add (knows : Knows fd s channels_ events_) (alone : ∀ d, (s d).IsKnown → fd d ≠ fd c)
    (updates : call ≠ .remove) :
    Knows fd (after s (c, call)) (Function.update channels_ (fd c) (some c))
      (Function.update events_ c (call.apply (events_ c))) where
  events := knows.events_update updates
  listed := by
    intro descriptor d
    by_cases own : d = c
    · subst own
      by_cases here : descriptor = fd d
      · subst here
        rw [Function.update_self]
        exact iff_of_true rfl ⟨isKnown_after s d updates, rfl⟩
      · rw [Function.update_of_ne here, knows.listed]
        exact iff_of_false (fun both => here both.2) (fun both => here both.2)
    · rw [after_of_ne s own]
      by_cases here : descriptor = fd c
      · subst here
        rw [Function.update_self]
        refine iff_of_false (fun same => own (Option.some.inj same).symm) ?_
        rintro ⟨known, same⟩
        exact alone d known (Nat.cast_injective same).symm
      · rw [Function.update_of_ne here, knows.listed]

/-- A known channel wants something else. -/
theorem change (knows : Knows fd s channels_ events_) (known : (s c).IsKnown)
    (updates : call ≠ .remove) :
    Knows fd (after s (c, call)) channels_
      (Function.update events_ c (call.apply (events_ c))) where
  events := knows.events_update updates
  listed := by
    intro descriptor d
    rw [knows.listed]
    by_cases own : d = c
    · subst own
      exact and_congr_left fun _ => iff_of_true known (isKnown_after s d updates)
    · rw [after_of_ne s own]

/-- A known channel that wants nothing is removed. -/
theorem remove (knows : Knows fd s channels_ events_) (known : (s c).IsKnown)
    (nothing : (s c).events = noneEvent) :
    Knows fd (after s (c, .remove)) (Function.update channels_ (fd c) none) events_ where
  events := by
    intro d
    rw [knows.events d]
    by_cases own : d = c
    · subst own
      rw [after_remove, nothing]
      rfl
    · rw [after_of_ne s own]
  listed := by
    intro descriptor d
    by_cases own : d = c
    · subst own
      rw [after_remove]
      refine iff_of_false ?_ (fun both => not_isKnown_removed both.1)
      by_cases here : descriptor = fd d
      · rw [here, Function.update_self]
        exact nofun
      · rw [Function.update_of_ne here, knows.listed]
        exact fun both => here both.2
    · rw [after_of_ne s own]
      by_cases here : descriptor = fd c
      · subst here
        rw [Function.update_self]
        refine iff_of_false nofun ?_
        rintro ⟨known', same⟩
        exact own (knows.eq_of_fd known' known (Nat.cast_injective same).symm)
      · rw [Function.update_of_ne here, knows.listed]

end Knows

/-- The descriptor of a new channel is free. -/
theorem alone_of_fresh
    (alone : ∀ d events watched, s d = .known events watched → fd d ≠ fd c) :
    ∀ d, (s d).IsKnown → fd d ≠ fd c := by
  rintro d ⟨events, watched, known⟩
  exact alone d events watched known

/-- What the contract says of an update. -/
theorem contract_update (updates : call ≠ .remove) :
    Contract fd (c, call) s ↔
      (s c = .fresh ∧ ∀ d, (s d).IsKnown → fd d ≠ fd c) ∨
        ∃ events watched, s c = .known events watched ∧
          (watched = true ∨ call.apply events ≠ noneEvent) := by
  simp only [Contract]
  cases status : s c with
  | fresh =>
      constructor
      · exact fun contract => .inl ⟨rfl, alone_of_fresh contract.2⟩
      · rintro (⟨-, alone⟩ | ⟨events, watched, known, -⟩)
        · exact ⟨updates, fun d events watched known => alone d ⟨events, watched, known⟩⟩
        · cases known
  | known events watched =>
      simp only [if_neg updates]
      constructor
      · exact fun contract => .inr ⟨events, watched, rfl, contract⟩
      · rintro (⟨fresh, -⟩ | ⟨events', watched', known, once⟩)
        · cases fresh
        · obtain ⟨rfl, rfl⟩ := Status.known.inj known
          exact once
  | removed =>
      refine iff_of_false id ?_
      rintro (⟨fresh, -⟩ | ⟨events, watched, known, -⟩)
      · cases fresh
      · cases known

/-- What it says of a removal. -/
theorem contract_remove : Contract fd (c, .remove) s ↔ s c = .known noneEvent false := by
  simp only [Contract]
  cases status : s c with
  | fresh => exact iff_of_false (fun contract => contract.1 rfl) nofun
  | known events watched => simp only [if_true, Status.known.injEq]
  | removed => exact iff_of_false id nofun

end Poller

/-! ## `PollPoller` knows its channels -/

namespace PollPoller

variable {p : PollPoller}

/-- The entry of a channel in the list. -/
def entry (fd : Nat → Nat) (s : Channels) (c : Nat) : Pollfd :=
  ⟨if (s c).watched = true then fd c else -(fd c) - 1, (s c).events⟩

structure Refines (fd : Nat → Nat) (s : Channels) (p : PollPoller) : Prop where
  knows : Knows fd s p.channels_ p.events_
  slots : Slots p.pollfds_ (fun c => (s c).IsKnown) (fun c => (p.index_ c).toNat) (entry fd s)
  fresh : ∀ c, s c = .fresh → p.index_ c < 0
  /-- A channel that was removed remembers its place. -/
  placed : ∀ c, s c ≠ .fresh → 0 ≤ p.index_ c

theorem Refines.initial : Refines fd (fun _ => .fresh) .initial where
  knows := Knows.initial
  slots := Slots.nil fun c => not_isKnown_of_fresh (s := fun _ => .fresh) (c := c) rfl
  fresh := fun _ _ => neg_one_lt_zero
  placed := fun _ notFresh => absurd rfl notFresh

theorem entry_of_ne {s s' : Channels} (same : s' c = s c) : entry fd s' c = entry fd s c := by
  rw [entry, entry, same]

/-- The descriptor of an entry, or its complement. -/
theorem entry_fd (fd : Nat → Nat) (s : Channels) (c : Nat) :
    (entry fd s c).fd = fd c ∨ (entry fd s c).fd = -(fd c) - 1 := by
  rw [entry]
  split_ifs
  · exact .inl rfl
  · exact .inr rfl

theorem perform_add (updates : call ≠ .remove) (unplaced : p.index_ c < 0)
    (unlisted : p.channels_ (fd c) = none) :
    perform fd p (c, call) = .ok
      { pollfds_ := p.pollfds_ ++ [⟨fd c, call.apply (p.events_ c)⟩]
        channels_ := Function.update p.channels_ (fd c) (some c)
        events_ := Function.update p.events_ c (call.apply (p.events_ c))
        index_ := Function.update p.index_ c p.pollfds_.length } := by
  simp only [perform, if_neg updates, updateChannel, if_pos unplaced, check_of unlisted, ok_bind,
    Function.update_self, List.length_append, List.length_singleton, Nat.cast_add, Nat.cast_one,
    add_sub_cancel_right]
  rfl

theorem ne_fresh_of_isKnown (known : (s c).IsKnown) : s c ≠ .fresh :=
  fun fresh => not_isKnown_of_fresh fresh known

/-- A new channel is entered at the end. -/
theorem Refines.add (refines : Refines fd s p) (updates : call ≠ .remove) (fresh : s c = .fresh)
    (alone : ∀ d, (s d).IsKnown → fd d ≠ fd c) :
    ∃ p', perform fd p (c, call) = .ok p' ∧ Refines fd (after s (c, call)) p' := by
  have known := after_fresh updates fresh
  have events : p.events_ c = noneEvent := by rw [refines.knows.events, fresh]; rfl
  have isEntry : entry fd (after s (c, call)) c = ⟨fd c, call.apply (p.events_ c)⟩ := by
    rw [entry, known, events]
    rfl
  have others : ∀ d, (s d).IsKnown → d ≠ c := by
    rintro d isKnown rfl
    exact not_isKnown_of_fresh fresh isKnown
  refine ⟨_, perform_add updates (refines.fresh c fresh) (refines.knows.find_none alone),
    refines.knows.add alone updates, ?_, ?_, ?_⟩
  · rw [← isEntry]
    refine refines.slots.push ?_ ?_ ?_ ?_
    · intro d
      by_cases own : d = c
      · subst own
        exact iff_of_true (isKnown_after s d updates) (.inl rfl)
      · rw [after_of_ne s own, or_iff_right own]
    · simp only [Function.update_self, Int.toNat_natCast]
    · intro d isKnown
      simp only [Function.update_of_ne (others d isKnown)]
    · intro d isKnown
      exact entry_of_ne (after_of_ne s (others d isKnown))
  · intro d isFresh
    have other : d ≠ c := by
      rintro rfl
      exact not_isKnown_of_fresh isFresh (isKnown_after s d updates)
    rw [after_of_ne s other] at isFresh
    simp only [Function.update_of_ne other]
    exact refines.fresh d isFresh
  · intro d notFresh
    by_cases own : d = c
    · subst own
      simp only [Function.update_self]
      exact Int.natCast_nonneg _
    · rw [after_of_ne s own] at notFresh
      simp only [Function.update_of_ne own]
      exact refines.placed d notFresh

theorem perform_change (updates : call ≠ .remove) (placed : 0 ≤ p.index_ c)
    (listed : p.channels_ (fd c) = some c) {pfd : Pollfd}
    (found : p.pollfds_[(p.index_ c).toNat]? = some pfd)
    (own : pfd.fd = fd c ∨ pfd.fd = -(fd c) - 1) :
    perform fd p (c, call) = .ok
      { p with
        pollfds_ := p.pollfds_.set (p.index_ c).toNat
          ⟨if call.apply (p.events_ c) = noneEvent then -(fd c) - 1 else fd c,
            call.apply (p.events_ c)⟩
        events_ := Function.update p.events_ c (call.apply (p.events_ c)) } := by
  have present : p.channels_ (fd c) ≠ none := by
    rw [listed]
    exact nofun
  have inside : 0 ≤ p.index_ c ∧ p.index_ c < p.pollfds_.length := by
    refine ⟨placed, ?_⟩
    have small := (List.getElem?_eq_some_iff.mp found).1
    omega
  simp only [perform, if_neg updates, updateChannel, if_neg (not_lt.mpr placed), check_of present,
    check_of listed, check_of inside, found, check_of own, ok_bind, Function.update_self]
  rfl

/-- The entry of a known channel is written anew. -/
theorem Refines.change (refines : Refines fd s p) (updates : call ≠ .remove) {events : Events}
    {watched : Bool} (known : s c = .known events watched) :
    ∃ p', perform fd p (c, call) = .ok p' ∧ Refines fd (after s (c, call)) p' := by
  have isKnown : (s c).IsKnown := ⟨events, watched, known⟩
  have found := refines.slots.found c isKnown
  have wanted : p.events_ c = events := by rw [refines.knows.events, known]; rfl
  have isEntry : entry fd (after s (c, call)) c =
      ⟨if call.apply (p.events_ c) = noneEvent then -(fd c) - 1 else fd c,
        call.apply (p.events_ c)⟩ := by
    rw [entry, after_known updates known, wanted]
    simp only [Status.watched, Status.events, decide_eq_true_eq, ite_not]
  refine ⟨_, perform_change updates (refines.placed c (ne_fresh_of_isKnown isKnown))
    (refines.knows.find isKnown) found (entry_fd fd s c), refines.knows.change isKnown updates,
    ?_, ?_, ?_⟩
  · rw [← isEntry]
    refine refines.slots.set isKnown ?_ ?_
    · intro d
      by_cases own : d = c
      · subst own
        exact iff_of_true (isKnown_after s d updates) isKnown
      · rw [after_of_ne s own]
    · exact fun d own => entry_of_ne (after_of_ne s own)
  · intro d isFresh
    have other : d ≠ c := by
      rintro rfl
      exact not_isKnown_of_fresh isFresh (isKnown_after s d updates)
    rw [after_of_ne s other] at isFresh
    exact refines.fresh d isFresh
  · intro d notFresh
    by_cases own : d = c
    · subst own
      exact refines.placed d (ne_fresh_of_isKnown isKnown)
    · rw [after_of_ne s own] at notFresh
      exact refines.placed d notFresh

/-- `channelAtEnd`, from an entry or its complement. -/
theorem decode_entry (fd : Nat → Nat) (s : Channels) (c : Nat) :
    (if (entry fd s c).fd < 0 then -(entry fd s c).fd - 1 else (entry fd s c).fd) = fd c := by
  rcases entry_fd fd s c with plain | complement
  · rw [plain, if_neg (by omega)]
  · rw [complement, if_pos (by omega)]
    omega

section Removal

variable {pfd back : Pollfd} (wantsNothing : p.events_ c = noneEvent) (placed : 0 ≤ p.index_ c)
  (listed : p.channels_ (fd c) = some c) (found : p.pollfds_[(p.index_ c).toNat]? = some pfd)
  (ignored : pfd.fd = -(fd c) - 1 ∧ pfd.events = p.events_ c)
  (last : p.pollfds_.getLast? = some back)

include wantsNothing placed listed found ignored last

theorem perform_remove_last (isLast : (p.index_ c).toNat = p.pollfds_.length - 1) :
    perform fd p (c, .remove) = .ok
      { p with
        channels_ := Function.update p.channels_ (fd c) none
        pollfds_ := p.pollfds_.dropLast } := by
  have present : p.channels_ (fd c) ≠ none := by
    rw [listed]
    exact nofun
  have inside : 0 ≤ p.index_ c ∧ p.index_ c < p.pollfds_.length := by
    refine ⟨placed, ?_⟩
    have small := (List.getElem?_eq_some_iff.mp found).1
    omega
  simp only [perform, if_true, removeChannel, check_of present, check_of listed,
    check_of wantsNothing, check_of inside, found, last, check_of ignored, ok_bind, if_pos isLast]
  rfl

theorem perform_remove_swap {other : Nat}
    (notLast : (p.index_ c).toNat ≠ p.pollfds_.length - 1)
    (atEnd : Function.update p.channels_ (fd c) none
      (if back.fd < 0 then -back.fd - 1 else back.fd) = some other) :
    perform fd p (c, .remove) = .ok
      { p with
        channels_ := Function.update p.channels_ (fd c) none
        pollfds_ := (p.pollfds_.set (p.index_ c).toNat back).dropLast
        index_ := Function.update p.index_ other (p.index_ c) } := by
  have present : p.channels_ (fd c) ≠ none := by
    rw [listed]
    exact nofun
  have inside : 0 ≤ p.index_ c ∧ p.index_ c < p.pollfds_.length := by
    refine ⟨placed, ?_⟩
    have small := (List.getElem?_eq_some_iff.mp found).1
    omega
  have popped :
      ((p.pollfds_.set (p.index_ c).toNat back).set (p.pollfds_.length - 1) pfd).dropLast =
      (p.pollfds_.set (p.index_ c).toNat back).dropLast := by
    have same := Slots.dropLast_set_last (p.pollfds_.set (p.index_ c).toNat back) pfd
    rwa [List.length_set] at same
  simp only [perform, if_true, removeChannel, check_of present, check_of listed,
    check_of wantsNothing, check_of inside, found, last, check_of ignored, ok_bind,
    if_neg notLast, atEnd, popped]
  rfl

end Removal

/-- A channel that is ignored is removed, and the last entry takes the place of its own. -/
theorem Refines.remove (refines : Refines fd s p) (known : s c = .known noneEvent false) :
    ∃ p', perform fd p (c, .remove) = .ok p' ∧ Refines fd (after s (c, .remove)) p' := by
  have isOwner : (s c).IsKnown := ⟨_, _, known⟩
  have inside := refines.slots.place_lt isOwner
  have found := refines.slots.found c isOwner
  have nothing : (s c).events = noneEvent := by rw [known]; rfl
  have wantsNothing : p.events_ c = noneEvent := by rw [refines.knows.events, nothing]
  have ignored : (entry fd s c).fd = -(fd c) - 1 ∧ (entry fd s c).events = p.events_ c := by
    rw [wantsNothing, entry, known]
    exact ⟨rfl, rfl⟩
  obtain ⟨e, isOwner', atEnd⟩ := refines.slots.owned (p.pollfds_.length - 1) (by omega)
  have last : p.pollfds_.getLast? = some (entry fd s e) := by
    rw [List.getLast?_eq_getElem?, ← atEnd]
    exact refines.slots.found e isOwner'
  have placed := refines.placed c (ne_fresh_of_isKnown isOwner)
  have listed := refines.knows.find isOwner
  have owners : ∀ d, (after s (c, .remove) d).IsKnown ↔ d ≠ c ∧ (s d).IsKnown := by
    intro d
    by_cases own : d = c
    · subst own
      rw [after_remove]
      exact iff_of_false not_isKnown_removed (fun both => both.1 rfl)
    · rw [after_of_ne s own, and_iff_right own]
  have stays : ∀ d, (after s (c, .remove) d).IsKnown →
      entry fd (after s (c, .remove)) d = entry fd s d :=
    fun d isKnown => entry_of_ne (after_of_ne s ((owners d).mp isKnown).1)
  have before : ∀ d, after s (c, .remove) d ≠ .fresh → s d ≠ .fresh := by
    intro d notFresh
    by_cases own : d = c
    · subst own
      exact ne_fresh_of_isKnown isOwner
    · rwa [after_of_ne s own] at notFresh
  have fresh : ∀ d, after s (c, .remove) d = .fresh → p.index_ d < 0 := by
    intro d isFresh
    have other : d ≠ c := by
      rintro rfl
      rw [after_remove] at isFresh
      cases isFresh
    rw [after_of_ne s other] at isFresh
    exact refines.fresh d isFresh
  by_cases isLast : (p.index_ c).toNat = p.pollfds_.length - 1
  · refine ⟨_, perform_remove_last wantsNothing placed listed found ignored last isLast,
      refines.knows.remove isOwner nothing, ?_, fresh, ?_⟩
    · exact (refines.slots.pop owners isLast isOwner).congr (fun _ _ => rfl) stays
    · exact fun d notFresh => refines.placed d (before d notFresh)
  · have other : e ≠ c := by
      rintro rfl
      exact isLast atEnd
    have owner : Function.update p.channels_ (fd c) none
        (if (entry fd s e).fd < 0 then -(entry fd s e).fd - 1 else (entry fd s e).fd) = some e := by
      rw [decode_entry, Function.update_of_ne]
      · exact refines.knows.find isOwner'
      · intro same
        exact other (refines.knows.eq_of_fd isOwner' isOwner (Nat.cast_injective same))
    refine ⟨_, perform_remove_swap wantsNothing placed listed found ignored last isLast owner,
      refines.knows.remove isOwner nothing, ?_, ?_, ?_⟩
    · refine (refines.slots.swap_pop owners isOwner isOwner' atEnd other).congr ?_ stays
      intro d _
      exact (Function.apply_update (fun _ => Int.toNat) p.index_ e (p.index_ c) d)
    · intro d isFresh
      have moved : d ≠ e := by
        rintro rfl
        rw [after_of_ne s other] at isFresh
        exact not_isKnown_of_fresh isFresh isOwner'
      simp only [Function.update_of_ne moved]
      exact fresh d isFresh
    · intro d notFresh
      by_cases moved : d = e
      · simp only [moved, Function.update_self]
        exact placed
      · simp only [Function.update_of_ne moved]
        exact refines.placed d (before d notFresh)

/-- Every call of the contract is taken. -/
theorem Refines.takes (label : Nat × Call) (s s' : Channels) (p : PollPoller)
    (refines : Refines fd s p) (contract : Contract fd label s)
    (stepped : Channels.step label s = some s') :
    ∃ p', perform fd p label = .ok p' ∧ Refines fd s' p' := by
  obtain rfl : after s label = s' := Option.some.inj stepped
  obtain ⟨c, call⟩ := label
  by_cases removes : call = .remove
  · subst removes
    exact refines.remove (contract_remove.mp contract)
  · rcases (contract_update removes).mp contract with ⟨fresh, alone⟩ | ⟨events, watched, known, -⟩
    · exact refines.add removes fresh alone
    · exact refines.change removes known

/-! ### Calls that fail -/

/-- A channel that is not found cannot be changed or removed. -/
theorem update_not_found (updates : call ≠ .remove) (placed : 0 ≤ p.index_ c)
    (unlisted : p.channels_ (fd c) ≠ some c) :
    ∃ fault, perform fd p (c, call) = .error fault := by
  simp only [perform, if_neg updates, updateChannel, if_neg (not_lt.mpr placed)]
  by_cases present : p.channels_ (fd c) ≠ none
  · rw [check_of present, check_of_not unlisted]
    exact ⟨_, rfl⟩
  · rw [check_of_not present]
    exact ⟨_, rfl⟩

theorem remove_not_found (unlisted : p.channels_ (fd c) ≠ some c) :
    ∃ fault, perform fd p (c, .remove) = .error fault := by
  simp only [perform, if_true, removeChannel]
  by_cases nothing : p.events_ c = noneEvent
  · rw [check_of nothing]
    by_cases present : p.channels_ (fd c) ≠ none
    · rw [check_of present, check_of_not unlisted]
      exact ⟨_, rfl⟩
    · rw [check_of_not present]
      exact ⟨_, rfl⟩
  · rw [check_of_not nothing]
    exact ⟨_, rfl⟩

/-- A channel cannot be added where its descriptor is taken. -/
theorem add_taken (updates : call ≠ .remove) (unplaced : p.index_ c < 0)
    (taken : p.channels_ (fd c) ≠ none) :
    ∃ fault, perform fd p (c, call) = .error fault := by
  simp only [perform, if_neg updates, updateChannel, if_pos unplaced]
  rw [check_of_not taken]
  exact ⟨_, rfl⟩

/-- A channel that the list does not ignore cannot be removed. -/
theorem remove_watched {pfd : Pollfd} (found : p.pollfds_[(p.index_ c).toNat]? = some pfd)
    (watched : p.events_ c ≠ noneEvent ∨ pfd.fd ≠ -(fd c) - 1) :
    ∃ fault, perform fd p (c, .remove) = .error fault := by
  by_cases unlisted : p.channels_ (fd c) ≠ some c
  · exact remove_not_found unlisted
  have listed := not_not.mp unlisted
  have present : p.channels_ (fd c) ≠ none := by
    rw [listed]
    exact nofun
  simp only [perform, if_true, removeChannel]
  by_cases nothing : p.events_ c = noneEvent
  · have differs := watched.resolve_left (not_not_intro nothing)
    simp only [check_of nothing, check_of present, check_of listed, ok_bind, found]
    by_cases inside : 0 ≤ p.index_ c ∧ p.index_ c < p.pollfds_.length
    · simp only [check_of inside, ok_bind]
      cases p.pollfds_.getLast? with
      | none => exact ⟨_, rfl⟩
      | some back =>
          dsimp only
          rw [check_of_not fun both => differs both.1]
          exact ⟨_, rfl⟩
    · rw [check_of_not inside]
      exact ⟨_, rfl⟩
  · rw [check_of_not nothing]
    exact ⟨_, rfl⟩

/-- A call that is not one of the contract fails, unless it disables a channel that is
ignored. -/
theorem Refines.fails (refines : Refines fd s p) (broken : ¬ Contract fd (c, call) s) :
    (∃ fault, perform fd p (c, call) = .error fault) ∨
      call ≠ .remove ∧ ∃ events, s c = .known events false ∧ call.apply events = noneEvent := by
  by_cases removes : call = .remove
  · subst removes
    left
    by_cases isKnown : (s c).IsKnown
    · refine remove_watched (refines.slots.found c isKnown) ?_
      obtain ⟨events, watched, known⟩ := isKnown
      rw [contract_remove, known, Status.known.injEq] at broken
      rw [refines.knows.events, known]
      by_cases nothing : events = noneEvent
      · have isWatched : watched = true := by
          cases watched with
          | true => rfl
          | false => exact absurd ⟨nothing, rfl⟩ broken
        right
        rw [entry, known, isWatched]
        show (fd c : Int) ≠ -(fd c) - 1
        omega
      · exact .inl nothing
    · exact remove_not_found (refines.knows.find_ne isKnown)
  · rw [contract_update removes] at broken
    cases status : s c with
    | fresh =>
        left
        refine add_taken removes (refines.fresh c status) ?_
        intro free
        refine broken (.inl ⟨status, ?_⟩)
        intro d isKnown same
        have found := refines.knows.find isKnown
        rw [same, free] at found
        cases found
    | known events watched =>
        right
        refine ⟨removes, events, ?_, ?_⟩
        · cases watched with
          | true => exact absurd (.inr ⟨events, true, status, .inl rfl⟩) broken
          | false => rfl
        · by_contra wants
          exact broken (.inr ⟨events, watched, status, .inr wants⟩)
    | removed =>
        left
        refine update_not_found removes (refines.placed c (by rw [status]; exact nofun)) ?_
        refine refines.knows.find_ne ?_
        rw [status]
        exact not_isKnown_removed

/-! ### What is reported -/

/-- The channel that an answer makes active. -/
def activeOf (p : PollPoller) (answer : Int × Revents) : Option (Nat × Revents) :=
  if positive answer.2 = true then (p.channels_ answer.1).map (·, answer.2) else none

/-- The walk ends when as many answers were found as there are. -/
theorem fillActiveChannels_eq {answers : List (Int × Revents)}
    (found : ∀ answer ∈ answers, positive answer.2 = true →
      ∃ c, p.channels_ answer.1 = some c ∧ (fd c : Int) = answer.1) :
    fillActiveChannels fd p (answers.countP fun answer => positive answer.2) answers =
      .ok (answers.filterMap (activeOf p)) := by
  induction answers with
  | nil => rfl
  | cons first answers ih =>
      have rest := ih fun answer member => found answer (List.mem_cons_of_mem _ member)
      by_cases isPositive : positive first.2 = true
      · obtain ⟨c, listed, same⟩ := found first List.mem_cons_self isPositive
        have isActive : activeOf p first = some (c, first.2) := by
          rw [activeOf, if_pos isPositive, listed]
          rfl
        rw [List.countP_cons, if_pos isPositive, List.filterMap_cons_some isActive]
        simp only [fillActiveChannels, if_pos isPositive, listed, check_of same, rest, ok_bind]
        rfl
      · have isActive : activeOf p first = none := if_neg isPositive
        rw [List.countP_cons, if_neg isPositive, Nat.add_zero, List.filterMap_cons_none isActive,
          ← rest]
        cases numEvents : answers.countP fun answer => positive answer.2 with
        | zero => simp only [fillActiveChannels]
        | succ n => simp only [fillActiveChannels, if_neg isPositive]

theorem answer_negative {pfd : Pollfd} (ready : Nat → Revents) (negative : pfd.fd < 0) :
    positive (answer ready pfd) = false := by
  rw [answer, if_pos negative]
  rfl

/-- The entries that are not ignored are those of the channels that are watched. -/
theorem Refines.mem_pollfds (refines : Refines fd s p) {pfd : Pollfd} :
    pfd ∈ p.pollfds_ ∧ 0 ≤ pfd.fd ↔
      ∃ c, s c = .known pfd.events true ∧ pfd.fd = fd c := by
  constructor
  · rintro ⟨member, plain⟩
    obtain ⟨i, inside, rfl⟩ := List.mem_iff_getElem.mp member
    obtain ⟨c, ⟨events, watched, known⟩, at_⟩ := refines.slots.owned i inside
    have found := refines.slots.found c ⟨events, watched, known⟩
    rw [at_, List.getElem?_eq_getElem inside, Option.some.injEq] at found
    rw [found, entry, known] at plain ⊢
    cases watched with
    | true => exact ⟨c, known, rfl⟩
    | false =>
        simp only [Status.watched, Bool.false_eq_true, if_false] at plain
        omega
  · rintro ⟨c, known, isFd⟩
    have found := refines.slots.found c ⟨_, _, known⟩
    have isEntry : entry fd s c = pfd := by
      rw [entry, known]
      exact congrArg (Pollfd.mk · _) isFd.symm
    rw [isEntry] at found
    exact ⟨List.mem_of_getElem? found, by omega⟩

/-- An answer with something to report belongs to a channel that is watched. -/
theorem Refines.positive_answer (refines : Refines fd s p) (ready : Nat → Revents) {pfd : Pollfd}
    (member : pfd ∈ p.pollfds_) (isPositive : positive (answer ready pfd) = true) :
    ∃ c, s c = .known pfd.events true ∧ pfd.fd = fd c ∧ p.channels_ (fd c) = some c ∧
      answer ready pfd = report pfd.events (ready (fd c)) := by
  have plain : 0 ≤ pfd.fd := by
    by_contra negative
    rw [answer_negative ready (not_le.mp negative)] at isPositive
    cases isPositive
  obtain ⟨c, known, isFd⟩ := refines.mem_pollfds.mp ⟨member, plain⟩
  refine ⟨c, known, isFd, refines.knows.find ⟨_, _, known⟩, ?_⟩
  rw [answer, if_neg (not_lt.mpr plain), isFd]
  rfl

/-- Entries are different: they have different descriptors. -/
theorem Refines.nodup_pollfds (refines : Refines fd s p) : p.pollfds_.Nodup := by
  refine List.nodup_iff_getElem?_ne_getElem?.mpr ?_
  intro i j less inside same
  obtain ⟨c, known, at_⟩ := refines.slots.owned i (less.trans inside)
  obtain ⟨d, known', at_'⟩ := refines.slots.owned j inside
  have found := refines.slots.found c known
  have found' := refines.slots.found d known'
  rw [at_, same, ← at_', found', Option.some.injEq] at found
  have descriptors : (fd d : Int) = fd c := by
    rw [← decode_entry fd s d, ← decode_entry fd s c, found]
  have owners := refines.knows.eq_of_fd known' known (Nat.cast_injective descriptors)
  rw [← at_, ← at_', owners] at less
  exact lt_irrefl _ less

/-- What an entry makes active. -/
theorem Refines.mem_activeOf (refines : Refines fd s p) {ready : Nat → Revents} {pfd : Pollfd}
    (member : pfd ∈ p.pollfds_) {channel : Nat × Revents}
    (isActive : channel ∈ activeOf p (pfd.fd, answer ready pfd)) :
    IsActive fd s ready channel ∧ pfd = ⟨fd channel.1, (s channel.1).events⟩ := by
  rw [activeOf, Option.mem_def] at isActive
  split_ifs at isActive with isPositive
  obtain ⟨c, known, isFd, listed, isReport⟩ :=
    refines.positive_answer ready member isPositive
  obtain ⟨d, isListed, rfl⟩ := Option.map_eq_some_iff.mp isActive
  obtain rfl : c = d := by
    rw [isFd] at isListed
    exact Option.some.inj (listed.symm.trans isListed)
  refine ⟨⟨pfd.events, known, isReport, isPositive⟩, ?_⟩
  rw [known, ← isFd]
  rfl

theorem Refines.poll (refines : Refines fd s p) (ready : Nat → Revents) :
    ∃ active, poll fd ready p = .ok active ∧ active.Nodup ∧
      ∀ channel, channel ∈ active ↔ IsActive fd s ready channel := by
  refine ⟨_, fillActiveChannels_eq ?_, ?_, ?_⟩
  · intro isAnswer member isPositive
    obtain ⟨pfd, inList, rfl⟩ := List.mem_map.mp member
    obtain ⟨c, -, isFd, listed, -⟩ := refines.positive_answer ready inList isPositive
    exact ⟨c, by rw [isFd, listed], isFd.symm⟩
  · rw [List.filterMap_map, List.Nodup, List.pairwise_filterMap]
    refine refines.nodup_pollfds.imp_of_mem ?_
    rintro pfd pfd' member member' different channel isActive channel' isActive' rfl
    obtain ⟨-, isEntry⟩ := refines.mem_activeOf member isActive
    obtain ⟨-, isEntry'⟩ := refines.mem_activeOf member' isActive'
    exact different (isEntry.trans isEntry'.symm)
  · intro channel
    rw [List.filterMap_map, List.mem_filterMap]
    constructor
    · rintro ⟨pfd, member, isActive⟩
      exact (refines.mem_activeOf member isActive).1
    · rintro ⟨events, known, isReport, isPositive⟩
      have both : (⟨fd channel.1, events⟩ : Pollfd) ∈ p.pollfds_ ∧ (0 : Int) ≤ fd channel.1 :=
        refines.mem_pollfds.mpr ⟨channel.1, known, rfl⟩
      obtain ⟨member, -⟩ := both
      refine ⟨_, member, ?_⟩
      have isAnswer : answer ready ⟨fd channel.1, events⟩ = channel.2 := by
        rw [isReport, answer, if_neg (by simp)]
        rfl
      simp only [Function.comp_apply, isAnswer, activeOf, if_pos isPositive,
        refines.knows.find ⟨_, _, known⟩, Option.map_some]

end PollPoller

/-! ## `EPollPoller` and its channels -/

/-- What the call does to a channel. -/
def Poller.Call.onChannel : Call → Channel → Channel
  | .enableReading => Channel.enableReading
  | .disableReading => Channel.disableReading
  | .enableWriting => Channel.enableWriting
  | .disableWriting => Channel.disableWriting
  | .disableAll => Channel.disableAll
  | .remove => Channel.remove

theorem onChannel_eq_set (updates : call ≠ .remove) (channel : Channel) :
    call.onChannel channel = channel.set (call.apply channel.events) := by
  cases call with
  | remove => exact absurd rfl updates
  | _ => rfl

namespace EPollPoller

variable {p p' : EPollPoller}

/-- What a channel holds. -/
def channel (p : EPollPoller) (c : Nat) : Channel := ⟨p.events_ c, p.index_ c⟩

/-- The map has the channels that were added, and the kernel watches those that have noted
so, for what they want. -/
structure Sound (fd : Nat → Nat) (p : EPollPoller) : Prop where
  index : ∀ c, p.index_ c = kNew ∨ p.index_ c = kAdded ∨ p.index_ c = kDeleted
  listed : ∀ descriptor c, p.channels_ descriptor = some c ↔ p.index_ c ≠ kNew ∧ descriptor = fd c
  watched : ∀ descriptor events c, p.epoll descriptor = some (events, c) ↔
    p.index_ c = kAdded ∧ events = p.events_ c ∧ descriptor = fd c

theorem kAdded_ne_kNew : kAdded ≠ kNew := by decide

theorem kDeleted_ne_kNew : kDeleted ≠ kNew := by decide

theorem kDeleted_ne_kAdded : kDeleted ≠ kAdded := by decide

namespace Sound

theorem initial : Sound fd .initial where
  index := fun _ => .inl rfl
  listed := fun _ _ => iff_of_false nofun fun both => both.1 rfl
  watched := fun _ _ _ => iff_of_false nofun fun both => kAdded_ne_kNew both.1.symm

theorem find (sound : Sound fd p) (added : p.index_ c ≠ kNew) : p.channels_ (fd c) = some c :=
  (sound.listed (fd c) c).mpr ⟨added, rfl⟩

/-- Channels that were added have descriptors of their own. -/
theorem eq_of_fd (sound : Sound fd p) {d : Nat} (added : p.index_ c ≠ kNew)
    (added' : p.index_ d ≠ kNew) (same : fd c = fd d) : c = d := by
  have first := sound.find added
  rw [same, sound.find added'] at first
  exact (Option.some.inj first).symm

/-- No other channel with the descriptor of one that was added was added. -/
theorem alone (sound : Sound fd p) (added : p.index_ c ≠ kNew) (d : Nat) (other : d ≠ c)
    (same : fd d = fd c) : p.index_ d = kNew := by
  by_contra added'
  exact other (sound.eq_of_fd added' added same)

/-- Where no channel that has the descriptor is watched, nothing is. -/
theorem epoll_eq_none (sound : Sound fd p) (unwatched : p.index_ c ≠ kAdded)
    (alone : ∀ d, d ≠ c → fd d = fd c → p.index_ d = kNew) : p.epoll (fd c) = none := by
  cases isWatched : p.epoll (fd c) with
  | none => rfl
  | some watched =>
      obtain ⟨events, d⟩ := watched
      obtain ⟨added, -, descriptors⟩ := (sound.watched _ events d).mp isWatched
      have same : fd d = fd c := (Nat.cast_injective descriptors).symm
      by_cases own : d = c
      · rw [own] at added
        exact absurd added unwatched
      · rw [alone d own same] at added
        exact absurd added.symm kAdded_ne_kNew

/-- A poller in which one channel has changed. -/
theorem of_changed (sound : Sound fd p) (others : ∀ d, d ≠ c → p'.channel d = p.channel d)
    (index : p'.index_ c = kNew ∨ p'.index_ c = kAdded ∨ p'.index_ c = kDeleted)
    (elsewhere : ∀ descriptor : Int, descriptor ≠ fd c →
      p'.channels_ descriptor = p.channels_ descriptor ∧ p'.epoll descriptor = p.epoll descriptor)
    (alone : ∀ d, d ≠ c → fd d = fd c → p.index_ d = kNew)
    (listed : p'.channels_ (fd c) = if p'.index_ c = kNew then none else some c)
    (watched : p'.epoll (fd c) = if p'.index_ c = kAdded then some (p'.events_ c, c) else none) :
    Sound fd p' := by
  have same (d : Nat) (other : d ≠ c) : p'.events_ d = p.events_ d ∧ p'.index_ d = p.index_ d := by
    have held := others d other
    exact ⟨congrArg Channel.events held, congrArg Channel.index_ held⟩
  refine ⟨fun d => ?_, fun descriptor d => ?_, fun descriptor events d => ?_⟩
  · by_cases own : d = c
    · rw [own]
      exact index
    · rw [(same d own).2]
      exact sound.index d
  · by_cases here : descriptor = fd c
    · subst here
      rw [listed]
      by_cases own : d = c
      · subst own
        by_cases isNew : p'.index_ d = kNew
        · rw [if_pos isNew]
          exact iff_of_false nofun fun both => both.1 isNew
        · rw [if_neg isNew]
          exact iff_of_true rfl ⟨isNew, rfl⟩
      · refine iff_of_false ?_ ?_
        · split_ifs
          · exact nofun
          · exact fun isOwn => own (Option.some.inj isOwn).symm
        · rintro ⟨added, descriptors⟩
          rw [(same d own).2] at added
          exact added (alone d own (Nat.cast_injective descriptors).symm)
    · rw [(elsewhere descriptor here).1, sound.listed]
      by_cases own : d = c
      · subst own
        exact iff_of_false (fun both => here both.2) (fun both => here both.2)
      · rw [(same d own).2]
  · by_cases here : descriptor = fd c
    · subst here
      rw [watched]
      by_cases own : d = c
      · subst own
        by_cases isAdded : p'.index_ d = kAdded
        · rw [if_pos isAdded, Option.some.injEq, Prod.mk.injEq]
          constructor
          · rintro ⟨rfl, -⟩
            exact ⟨isAdded, rfl, rfl⟩
          · rintro ⟨-, rfl, -⟩
            exact ⟨rfl, rfl⟩
        · rw [if_neg isAdded]
          exact iff_of_false nofun fun both => isAdded both.1
      · refine iff_of_false ?_ ?_
        · split_ifs
          · intro isOwn
            exact own (Prod.mk.inj (Option.some.inj isOwn)).2.symm
          · exact nofun
        · rintro ⟨added, -, descriptors⟩
          rw [(same d own).2, alone d own (Nat.cast_injective descriptors).symm] at added
          exact kAdded_ne_kNew added.symm
    · rw [(elsewhere descriptor here).2, sound.watched]
      by_cases own : d = c
      · subst own
        exact iff_of_false (fun both => here both.2.2) (fun both => here both.2.2)
      · rw [(same d own).1, (same d own).2]

end Sound

/-- The call is taken and does to the channel what it should. -/
structure Taken (fd : Nat → Nat) (p : EPollPoller) (c : Nat) (call : Call) (p' : EPollPoller) :
    Prop where
  performed : perform fd p (c, call) = .ok p'
  sound : Sound fd p'
  channel : p'.channel = Function.update p.channel c (call.onChannel (p.channel c))

theorem channel_update (p : EPollPoller) (c : Nat) (events : Events) (index_ : Int)
    (epoll : Int → Option (Events × Nat)) (channels_ : Int → Option Nat) :
    channel
        { epoll := epoll
          channels_ := channels_
          events_ := Function.update p.events_ c events
          index_ := Function.update p.index_ c index_ } =
      Function.update p.channel c ⟨events, index_⟩ := by
  funext d
  by_cases own : d = c
  · subst own
    simp only [channel, Function.update_self]
  · simp only [channel, Function.update_of_ne own]

theorem perform_new (updates : call ≠ .remove) (isNew : p.index_ c = kNew)
    (unlisted : p.channels_ (fd c) = none) (unwatched : p.epoll (fd c) = none) :
    perform fd p (c, call) = .ok
      { epoll := Function.update p.epoll (fd c) (some (call.apply (p.events_ c), c))
        channels_ := Function.update p.channels_ (fd c) (some c)
        events_ := Function.update p.events_ c (call.apply (p.events_ c))
        index_ := Function.update p.index_ c kAdded } := by
  simp only [perform, if_neg updates, updateChannel, isNew, true_or, if_true, check_of unlisted,
    ok_bind, pure, Except.pure, update, unwatched, Function.update_self]

theorem perform_deleted (updates : call ≠ .remove) (isDeleted : p.index_ c = kDeleted)
    (listed : p.channels_ (fd c) = some c) (unwatched : p.epoll (fd c) = none) :
    perform fd p (c, call) = .ok
      { p with
        epoll := Function.update p.epoll (fd c) (some (call.apply (p.events_ c), c))
        events_ := Function.update p.events_ c (call.apply (p.events_ c))
        index_ := Function.update p.index_ c kAdded } := by
  have present : p.channels_ (fd c) ≠ none := by
    rw [listed]
    exact nofun
  simp only [perform, if_neg updates, updateChannel, isDeleted, or_true, if_true,
    if_neg kDeleted_ne_kNew, check_of present, check_of listed, ok_bind, pure, Except.pure, update,
    unwatched, Function.update_self]

theorem perform_added (updates : call ≠ .remove) (isAdded : p.index_ c = kAdded)
    (listed : p.channels_ (fd c) = some c) {watched : Events × Nat}
    (isWatched : p.epoll (fd c) = some watched) :
    perform fd p (c, call) = .ok
      { p with
        epoll := Function.update p.epoll (fd c)
          (if call.apply (p.events_ c) = noneEvent then none
            else some (call.apply (p.events_ c), c))
        events_ := Function.update p.events_ c (call.apply (p.events_ c))
        index_ := Function.update p.index_ c
          (if call.apply (p.events_ c) = noneEvent then kDeleted else kAdded) } := by
  have present : p.channels_ (fd c) ≠ none := by
    rw [listed]
    exact nofun
  have notNew : ¬ (kAdded = kNew ∨ kAdded = kDeleted) := by decide
  simp only [perform, if_neg updates, updateChannel, isAdded, if_neg notNew, check_of present,
    check_of listed, check_of, ok_bind, update, isWatched, Function.update_self]
  split_ifs with nothing
  · rfl
  · rw [← isAdded, Function.update_eq_self]

theorem perform_remove (nothing : p.events_ c = noneEvent)
    (known : p.index_ c = kAdded ∨ p.index_ c = kDeleted) (listed : p.channels_ (fd c) = some c) :
    perform fd p (c, .remove) = .ok
      { p with
        epoll := if p.index_ c = kAdded then Function.update p.epoll (fd c) none else p.epoll
        channels_ := Function.update p.channels_ (fd c) none
        index_ := Function.update p.index_ c kNew } := by
  have present : p.channels_ (fd c) ≠ none := by
    rw [listed]
    exact nofun
  simp only [perform, if_true, removeChannel, check_of nothing, check_of present,
    check_of listed, check_of known, ok_bind]
  split_ifs with isAdded
  · rfl
  · rfl

namespace Sound

/-- A new channel is added, where no other has its descriptor. -/
theorem updates_new (sound : Sound fd p) (updates : call ≠ .remove) (isNew : p.index_ c = kNew)
    (unlisted : p.channels_ (fd c) = none) : ∃ p', Taken fd p c call p' := by
  have alone : ∀ d, d ≠ c → fd d = fd c → p.index_ d = kNew := by
    intro d _ same
    by_contra added
    have found := sound.find added
    rw [same, unlisted] at found
    cases found
  have unwatched := sound.epoll_eq_none (fun added => kAdded_ne_kNew (added.symm.trans isNew)) alone
  refine ⟨_, perform_new updates isNew unlisted unwatched, ?_, ?_⟩
  · refine sound.of_changed (c := c) ?_ ?_ ?_ alone ?_ ?_
    · intro d own
      rw [channel_update, Function.update_of_ne own]
    · exact .inr (.inl (Function.update_self _ _ _))
    · intro descriptor other
      exact ⟨Function.update_of_ne other _ _, Function.update_of_ne other _ _⟩
    · simp only [Function.update_self, if_neg kAdded_ne_kNew]
    · simp only [Function.update_self, if_true]
  · rw [channel_update, onChannel_eq_set updates (p.channel c)]
    refine congrArg (Function.update p.channel c) ?_
    exact congrArg (Channel.mk _) (Channel.updated_of_unwatched (.inl isNew)).symm

/-- A channel that is watched is changed, or deleted when it wants nothing. -/
theorem updates_added (sound : Sound fd p) (updates : call ≠ .remove)
    (isAdded : p.index_ c = kAdded) : ∃ p', Taken fd p c call p' := by
  have added : p.index_ c ≠ kNew := by
    rw [isAdded]
    exact kAdded_ne_kNew
  have isWatched := (sound.watched (fd c) _ c).mpr ⟨isAdded, rfl, rfl⟩
  refine ⟨_, perform_added updates isAdded (sound.find added) isWatched, ?_, ?_⟩
  · refine sound.of_changed (c := c) ?_ ?_ ?_ (sound.alone added) ?_ ?_
    · intro d own
      rw [channel_update, Function.update_of_ne own]
    · simp only [Function.update_self]
      split_ifs
      · exact .inr (.inr rfl)
      · exact .inr (.inl rfl)
    · intro descriptor other
      exact ⟨rfl, Function.update_of_ne other _ _⟩
    · simp only [Function.update_self, sound.find added]
      split_ifs <;> simp_all [kAdded_ne_kNew, kDeleted_ne_kNew]
    · simp only [Function.update_self]
      split_ifs <;> simp_all [kDeleted_ne_kAdded]
  · rw [channel_update, onChannel_eq_set updates (p.channel c)]
    refine congrArg (Function.update p.channel c) ?_
    refine congrArg (Channel.mk _) ?_
    show _ = Channel.updated _ (p.index_ c)
    rw [isAdded, Channel.updated_kAdded]
    rfl

/-- A channel that was deleted is added again, whatever it wants. -/
theorem updates_deleted (sound : Sound fd p) (updates : call ≠ .remove)
    (isDeleted : p.index_ c = kDeleted) : ∃ p', Taken fd p c call p' := by
  have added : p.index_ c ≠ kNew := by
    rw [isDeleted]
    exact kDeleted_ne_kNew
  have alone := sound.alone added
  have unwatched :=
    sound.epoll_eq_none (fun added => kDeleted_ne_kAdded (isDeleted.symm.trans added)) alone
  refine ⟨_, perform_deleted updates isDeleted (sound.find added) unwatched, ?_, ?_⟩
  · refine sound.of_changed (c := c) ?_ ?_ ?_ alone ?_ ?_
    · intro d own
      rw [channel_update, Function.update_of_ne own]
    · exact .inr (.inl (Function.update_self _ _ _))
    · intro descriptor other
      exact ⟨rfl, Function.update_of_ne other _ _⟩
    · simp only [Function.update_self, if_neg kAdded_ne_kNew, sound.find added]
    · simp only [Function.update_self, if_true]
  · rw [channel_update, onChannel_eq_set updates (p.channel c)]
    refine congrArg (Function.update p.channel c) ?_
    exact congrArg (Channel.mk _) (Channel.updated_of_unwatched (.inr isDeleted)).symm

/-- A change is taken when the channel was added, or no other has its descriptor. -/
theorem updates (sound : Sound fd p) (updates : call ≠ .remove)
    (free : p.index_ c = kNew → p.channels_ (fd c) = none) : ∃ p', Taken fd p c call p' := by
  rcases sound.index c with isNew | isAdded | isDeleted
  · exact sound.updates_new updates isNew (free isNew)
  · exact sound.updates_added updates isAdded
  · exact sound.updates_deleted updates isDeleted

/-- A removal is taken when the channel was added and wants nothing. -/
theorem removes (sound : Sound fd p) (nothing : p.events_ c = noneEvent)
    (added : p.index_ c ≠ kNew) : ∃ p', Taken fd p c .remove p' := by
  have known := (sound.index c).resolve_left added
  have alone := sound.alone added
  have channels (epoll : Int → Option (Events × Nat)) (channels_ : Int → Option Nat) :
      channel ⟨epoll, channels_, p.events_, Function.update p.index_ c kNew⟩ =
        Function.update p.channel c (p.channel c).remove := by
    rw [← Function.update_eq_self c p.events_, channel_update]
    rfl
  refine ⟨_, perform_remove nothing known (sound.find added), ?_, channels _ _⟩
  refine sound.of_changed (c := c) ?_ (.inl (Function.update_self _ _ _)) ?_ alone ?_ ?_
  · intro d own
    rw [channels, Function.update_of_ne own]
  · intro descriptor other
    refine ⟨Function.update_of_ne other _ _, ?_⟩
    dsimp only
    split_ifs
    · exact Function.update_of_ne other _ _
    · rfl
  · simp only [Function.update_self, if_true]
  · simp only [Function.update_self, if_neg kAdded_ne_kNew.symm]
    split_ifs with isAdded
    · exact Function.update_self _ _ _
    · exact sound.epoll_eq_none isAdded alone

/-- Whatever call is taken keeps the poller sound and does to the channel what it should. -/
theorem of_perform (sound : Sound fd p) (performed : perform fd p (c, call) = .ok p') :
    Sound fd p' ∧ p'.channel = Function.update p.channel c (call.onChannel (p.channel c)) := by
  have finish (taken : ∃ p', Taken fd p c call p') :
      Sound fd p' ∧ p'.channel = Function.update p.channel c (call.onChannel (p.channel c)) := by
    obtain ⟨p'', taken⟩ := taken
    obtain rfl := Except.ok.inj (taken.performed.symm.trans performed)
    exact ⟨taken.sound, taken.channel⟩
  refine finish ?_
  by_cases isRemove : call = .remove
  · subst isRemove
    simp only [perform, if_true, removeChannel] at performed
    obtain ⟨nothing, performed⟩ := of_check_bind performed
    obtain ⟨-, performed⟩ := of_check_bind performed
    obtain ⟨listed, -⟩ := of_check_bind performed
    exact sound.removes nothing ((sound.listed _ c).mp listed).1
  · refine sound.updates isRemove fun isNew => ?_
    by_contra taken
    simp only [perform, if_neg isRemove, updateChannel, isNew, true_or, if_true] at performed
    rw [check_of_not taken] at performed
    cases performed

end Sound

/-- **What a connection sees of its poller.**  Let a program make any calls that the poller
takes. What a channel holds is what the calls on it make of it, and the kernel watches its
descriptor, for what it wants, just when it has noted so. -/
theorem channel_of_foldlM {labels : List (Nat × Call)}
    (performed : labels.foldlM (perform fd) .initial = .ok p) (c : Nat) :
    p.channel c = (labels.filter fun label => label.1 = c).foldl
        (fun channel label => label.2.onChannel channel) .construct ∧
      ∀ events, p.epoll (fd c) = some (events, c) ↔
        (p.channel c).isWatched = true ∧ events = (p.channel c).events := by
  have run (labels : List (Nat × Call)) (p₀ : EPollPoller) (sound : Sound fd p₀)
      (performed : labels.foldlM (perform fd) p₀ = .ok p) :
      Sound fd p ∧ p.channel c = (labels.filter fun label => label.1 = c).foldl
        (fun channel label => label.2.onChannel channel) (p₀.channel c) := by
    induction labels generalizing p₀ with
    | nil =>
        obtain rfl := Except.ok.inj performed
        exact ⟨sound, rfl⟩
    | cons label labels ih =>
        rw [List.foldlM_cons] at performed
        obtain ⟨p₁, first, rest⟩ := bind_eq_ok.mp performed
        obtain ⟨sound₁, channels⟩ := sound.of_perform first
        obtain ⟨sound', folded⟩ := ih p₁ sound₁ rest
        refine ⟨sound', folded.trans ?_⟩
        rw [channels, List.filter_cons]
        by_cases own : label.1 = c
        · rw [if_pos (decide_eq_true own), own, Function.update_self]
          rfl
        · rw [if_neg (by simpa using own), Function.update_of_ne (Ne.symm own)]
  obtain ⟨sound, folded⟩ := run labels .initial Sound.initial performed
  refine ⟨folded, fun events => ?_⟩
  rw [sound.watched, Channel.isWatched, decide_eq_true_eq]
  exact and_congr_right fun _ => and_iff_left rfl

/-! ## `EPollPoller` knows its channels -/

/-- What a channel of this status holds. -/
def holds : Status → Channel
  | .known events watched => ⟨events, if watched then kAdded else kDeleted⟩
  | _ => .construct

structure Refines (fd : Nat → Nat) (s : Channels) (p : EPollPoller) : Prop where
  sound : Sound fd p
  channel : ∀ c, p.channel c = holds (s c)

theorem Refines.initial : Refines fd (fun _ => .fresh) .initial where
  sound := Sound.initial
  channel := fun _ => rfl

namespace Refines

theorem index_ne_kNew (refines : Refines fd s p) : p.index_ c ≠ kNew ↔ (s c).IsKnown := by
  have index : p.index_ c = (holds (s c)).index_ := congrArg Channel.index_ (refines.channel c)
  rw [index]
  cases status : s c with
  | known events watched =>
      refine iff_of_true ?_ ⟨events, watched, rfl⟩
      cases watched
      · exact kDeleted_ne_kNew
      · exact kAdded_ne_kNew
  | fresh =>
      refine iff_of_false (fun isNew => isNew rfl) ?_
      rw [← status]
      exact not_isKnown_of_fresh status
  | removed => exact iff_of_false (fun isNew => isNew rfl) not_isKnown_removed

theorem knows (refines : Refines fd s p) : Knows fd s p.channels_ p.events_ where
  events := by
    intro c
    have events : p.events_ c = (holds (s c)).events := congrArg Channel.events (refines.channel c)
    rw [events]
    cases s c <;> rfl
  listed := by
    intro descriptor c
    rw [refines.sound.listed, refines.index_ne_kNew]

/-- The kernel has the channels that are watched. -/
theorem watches (refines : Refines fd s p) (descriptor : Int) (events : Events) :
    p.epoll descriptor = some (events, c) ↔ s c = .known events true ∧ descriptor = fd c := by
  have channel := refines.channel c
  have index : p.index_ c = (holds (s c)).index_ := congrArg Channel.index_ channel
  rw [refines.sound.watched, refines.knows.events, index]
  cases s c with
  | known events' watched =>
      cases watched with
      | true =>
          simp only [holds, if_true, true_and, Status.events, Status.known.injEq, and_true]
          exact and_congr_left fun _ => eq_comm
      | false =>
          refine iff_of_false (fun both => kDeleted_ne_kAdded both.1) ?_
          rintro ⟨known, -⟩
          cases known
  | _ =>
      refine iff_of_false (fun both => kAdded_ne_kNew both.1.symm) ?_
      rintro ⟨known, -⟩
      cases known

/-- A call that is taken keeps the refinement, where it does to the channel what the status
says. -/
theorem of_taken (refines : Refines fd s p) (taken : Taken fd p c call p')
    (held : call.onChannel (holds (s c)) = holds (after s (c, call) c)) :
    Refines fd (after s (c, call)) p' := by
  refine ⟨taken.sound, fun d => ?_⟩
  rw [taken.channel]
  by_cases own : d = c
  · rw [own, Function.update_self, refines.channel, held]
  · rw [Function.update_of_ne own, after_of_ne s own, refines.channel]

/-- Every call of the contract is taken. -/
theorem takes (label : Nat × Call) (s s' : Channels) (p : EPollPoller)
    (refines : Refines fd s p) (contract : Contract fd label s)
    (stepped : Channels.step label s = some s') :
    ∃ p', perform fd p label = .ok p' ∧ Refines fd s' p' := by
  obtain rfl : after s label = s' := Option.some.inj stepped
  obtain ⟨c, call⟩ := label
  by_cases removes : call = .remove
  · subst removes
    have known := contract_remove.mp contract
    have nothing : p.events_ c = noneEvent := by rw [refines.knows.events, known]; rfl
    obtain ⟨p', taken⟩ := refines.sound.removes nothing
      (refines.index_ne_kNew.mpr ⟨_, _, known⟩)
    refine ⟨p', taken.performed, refines.of_taken taken ?_⟩
    rw [after_remove, known]
    rfl
  · rcases (contract_update removes).mp contract with
      ⟨fresh, alone⟩ | ⟨events, watched, known, once⟩
    · obtain ⟨p', taken⟩ := refines.sound.updates removes fun _ => refines.knows.find_none alone
      refine ⟨p', taken.performed, refines.of_taken taken ?_⟩
      rw [after_fresh removes fresh, fresh, onChannel_eq_set removes]
      rfl
    · obtain ⟨p', taken⟩ := refines.sound.updates removes fun isNew =>
        absurd isNew (refines.index_ne_kNew.mpr ⟨_, _, known⟩)
      refine ⟨p', taken.performed, refines.of_taken taken ?_⟩
      rw [after_known removes known, known, onChannel_eq_set removes]
      refine congrArg (Channel.mk _) ?_
      show Channel.updated (call.apply events) (if watched then kAdded else kDeleted) = _
      cases watched with
      | true =>
          rw [if_pos rfl, Channel.updated_kAdded]
          simp only [decide_eq_true_eq, ite_not]
      | false =>
          have wants := once.resolve_left Bool.false_ne_true
          rw [if_neg Bool.false_ne_true, Channel.updated_of_unwatched (.inr rfl)]
          simp only [decide_eq_true_eq, ite_not, if_neg wants]

/-- A channel that is disabled again is watched. -/
theorem watches_again (refines : Refines fd s p) (updates : call ≠ .remove) {events : Events}
    (known : s c = .known events false) (nothing : call.apply events = noneEvent) :
    ∃ p', perform fd p (c, call) = .ok p' ∧ p'.epoll (fd c) = some (noneEvent, c) := by
  obtain ⟨p', taken⟩ := refines.sound.updates updates fun isNew =>
    absurd isNew (refines.index_ne_kNew.mpr ⟨_, _, known⟩)
  refine ⟨p', taken.performed, (taken.sound.watched _ _ c).mpr ?_⟩
  have channel : p'.channel c = ⟨noneEvent, kAdded⟩ := by
    rw [taken.channel, Function.update_self, refines.channel, known, onChannel_eq_set updates]
    show (⟨call.apply events, Channel.updated (call.apply events) kDeleted⟩ : Channel) = _
    rw [nothing]
    rfl
  exact ⟨congrArg Channel.index_ channel, (congrArg Channel.events channel).symm, rfl⟩

end Refines

/-- What the kernel returns is active. -/
theorem Refines.isActive (refines : Refines fd s p) {ready : Nat → Revents} {maxevents : Nat}
    {events : List (Nat × Revents)} (returned : EpollWait p ready maxevents events)
    {channel : Nat × Revents} (member : channel ∈ events) : IsActive fd s ready channel := by
  obtain ⟨descriptor, wanted, watched, isReport, isPositive⟩ := returned.listed channel member
  obtain ⟨known, rfl⟩ := (refines.watches _ wanted).mp watched
  exact ⟨wanted, known, isReport, isPositive⟩

theorem Refines.fillActiveChannels_eq (refines : Refines fd s p) {ready : Nat → Revents}
    {events : List (Nat × Revents)} (active : ∀ channel ∈ events, IsActive fd s ready channel) :
    fillActiveChannels fd p events = .ok events := by
  induction events with
  | nil => rfl
  | cons channel events ih =>
      obtain ⟨wanted, known, -⟩ := active channel List.mem_cons_self
      have listed := refines.knows.find ⟨_, _, known⟩
      have present : p.channels_ (fd channel.1) ≠ none := by
        rw [listed]
        exact nofun
      have rest := ih fun other member => active other (List.mem_cons_of_mem _ member)
      simp only [fillActiveChannels, check_of present, check_of listed, rest, ok_bind]
      rfl

theorem Refines.poll (refines : Refines fd s p) {ready : Nat → Revents} {eventsSize : Nat}
    {events : List (Nat × Revents)} (returned : EpollWait p ready eventsSize events) :
    ∃ size, eventsSize ≤ size ∧ poll fd eventsSize events p = .ok (events, size) ∧
      (∀ channel ∈ events, IsActive fd s ready channel) ∧
      (events.length < eventsSize → ∀ channel, IsActive fd s ready channel → channel ∈ events) := by
  have active := fun channel (member : channel ∈ events) => refines.isActive returned member
  have filled := refines.fillActiveChannels_eq active
  have all : events.length < eventsSize →
      ∀ channel, IsActive fd s ready channel → channel ∈ events := by
    rintro room ⟨c, revents⟩ ⟨wanted, known, isReport, isPositive⟩
    have watched := (refines.watches (fd c) wanted).mpr ⟨known, rfl⟩
    obtain rfl : revents = report wanted (ready (fd c)) := isReport
    exact returned.all room _ wanted c watched isPositive
  simp only [EPollPoller.poll, check_of returned.room, filled, ok_bind]
  split_ifs
  · exact ⟨eventsSize * 2, by omega, rfl, active, all⟩
  · exact ⟨eventsSize, le_rfl, rfl, active, all⟩

end EPollPoller

/-! ## Agreement -/

/-- The pollers know the same channels and ask the kernel for the same events of the same
descriptors. -/
structure Agree (p : PollPoller) (e : EPollPoller) : Prop where
  channels : p.channels_ = e.channels_
  watched : ∀ (descriptor : Nat) events, (⟨descriptor, events⟩ : Pollfd) ∈ p.pollfds_ ↔
    ∃ c, e.epoll descriptor = some (events, c)

section

variable {p : PollPoller} {e : EPollPoller}

theorem Agree.of_refines (polls : PollPoller.Refines fd s p) (epolls : EPollPoller.Refines fd s e) :
    Agree p e where
  channels := by
    funext descriptor
    refine Option.ext fun c => ?_
    rw [polls.knows.listed, epolls.knows.listed]
  watched := by
    intro descriptor events
    have listed : (⟨descriptor, events⟩ : Pollfd) ∈ p.pollfds_ ∧ (0 : Int) ≤ descriptor ↔ _ :=
      polls.mem_pollfds
    rw [and_iff_left (Int.natCast_nonneg _)] at listed
    simp only [listed, epolls.watches]

/-- The calls on which the pollers go on to agree are those of the contract. -/
theorem contract_iff (polls : PollPoller.Refines fd s p) (epolls : EPollPoller.Refines fd s e)
    (label : Nat × Call) :
    Contract fd label s ↔ ∃ p' e', PollPoller.perform fd p label = .ok p' ∧
      EPollPoller.perform fd e label = .ok e' ∧ Agree p' e' := by
  constructor
  · intro contract
    obtain ⟨p', performed, polls'⟩ := polls.takes label s _ p contract rfl
    obtain ⟨e', performed', epolls'⟩ := epolls.takes label s _ e contract rfl
    exact ⟨p', e', performed, performed', .of_refines polls' epolls'⟩
  · rintro ⟨p', e', performed, performed', agree⟩
    by_contra broken
    obtain ⟨c, call⟩ := label
    rcases polls.fails broken with ⟨fault, failed⟩ | ⟨updates, events, known, nothing⟩
    · rw [performed] at failed
      cases failed
    · -- `PollPoller` still ignores what `EPollPoller` watches again.
      obtain ⟨p'', ignored, polls'⟩ := polls.change updates known
      obtain rfl := Except.ok.inj (performed.symm.trans ignored)
      obtain ⟨e'', again, watched⟩ := epolls.watches_again updates known nothing
      obtain rfl := Except.ok.inj (performed'.symm.trans again)
      have listed := (agree.watched (fd c) noneEvent).mpr ⟨c, watched⟩
      obtain ⟨d, isWatched, same⟩ := polls'.mem_pollfds.mp ⟨listed, Int.natCast_nonneg _⟩
      have here := polls'.knows.eq_of_fd (isKnown_after s c updates) ⟨_, _, isWatched⟩
        (Nat.cast_injective same)
      rw [← here, after_known updates known, nothing] at isWatched
      cases isWatched

end

/-- **The pollers agree.**  Let a program make any calls of the contract on any channels. Both
pollers take every call: no assertion fails and no call of the kernel does. Then they know the
same channels and ask for the same events. Whatever is ready, `PollPoller` reports each channel
that is watched once, with what it wants; and what `EPollPoller` reports is the same in some
order, as far as there is room, and room is made. And of all further calls those of the
contract are the ones that both take and that leave them agreed. -/
theorem pollers_agree (fd : Nat → Nat) {labels : List (Nat × Call)} {s : Channels}
    (contract : Guarded Channels.step (Contract fd) labels (fun _ => .fresh))
    (executed : execute Channels.step labels (fun _ => .fresh) = some s) :
    ∃ p e, labels.foldlM (PollPoller.perform fd) .initial = .ok p ∧
      labels.foldlM (EPollPoller.perform fd) .initial = .ok e ∧ Agree p e ∧
      (∀ ready, ∃ active, PollPoller.poll fd ready p = .ok active ∧ active.Nodup ∧
        (∀ channel, channel ∈ active ↔ IsActive fd s ready channel) ∧
        ∀ eventsSize events, EPollPoller.EpollWait e ready eventsSize events →
          ∃ size, EPollPoller.poll fd eventsSize events e = .ok (events, size) ∧
            events.Subperm active ∧
            (events.length < eventsSize → events.Perm active)) ∧
      ∀ label, Contract fd label s ↔ ∃ p' e', PollPoller.perform fd p label = .ok p' ∧
        EPollPoller.perform fd e label = .ok e' ∧ Agree p' e' := by
  obtain ⟨p, performed, polls⟩ :=
    foldlM_of_execute PollPoller.Refines.takes PollPoller.Refines.initial contract executed
  obtain ⟨e, performed', epolls⟩ :=
    foldlM_of_execute EPollPoller.Refines.takes EPollPoller.Refines.initial contract executed
  refine ⟨p, e, performed, performed', .of_refines polls epolls, ?_, contract_iff polls epolls⟩
  intro ready
  obtain ⟨active, polled, nodup, isActive⟩ := polls.poll ready
  refine ⟨active, polled, nodup, isActive, ?_⟩
  intro eventsSize events returned
  obtain ⟨size, -, polled', listed, all⟩ := epolls.poll returned
  have subset : events ⊆ active := fun channel member =>
    (isActive channel).mpr (listed channel member)
  refine ⟨size, polled', returned.nodup.subperm subset, ?_⟩
  intro room
  refine (List.perm_ext_iff_of_nodup returned.nodup nodup).mpr fun channel => ?_
  exact ⟨fun member => subset member, fun member => all room channel ((isActive channel).mp member)⟩

/-- Three channels, the last of which is added without an event. The first is removed, and the
last takes its place. -/
def swapped : List (Nat × Call) :=
  [(0, .enableReading), (1, .enableReading), (2, .disableWriting), (0, .disableAll), (0, .remove),
    (2, .enableReading)]

theorem swapped_guarded :
    Guarded Channels.step (Contract (· + 5)) swapped (fun _ => .fresh) := by
  have second : ∀ (d : Nat) (events : Events) (watched : Bool),
      (if d = 0 then Status.known ⟨true, false⟩ true else .fresh) = .known events watched →
        ¬ d = 1 := by
    rintro d events watched known rfl
    cases known
  have third : ∀ (d : Nat) (events : Events) (watched : Bool),
      (if d = 1 then Status.known ⟨true, false⟩ true
        else if d = 0 then .known ⟨true, false⟩ true else .fresh) = .known events watched →
        ¬ d = 2 := by
    rintro d events watched known rfl
    cases known
  simpa [swapped, Guarded, Channels.step, Contract, after, Status.apply, Status.events, Call.apply,
    noneEvent, Function.update_apply] using And.intro second third

theorem pollers_agree_swapped :
    ∃ s p e, execute Channels.step swapped (fun _ => .fresh) = some s ∧
      swapped.foldlM (PollPoller.perform (· + 5)) .initial = .ok p ∧
      swapped.foldlM (EPollPoller.perform (· + 5)) .initial = .ok e ∧ Agree p e ∧
      (∀ ready, ∃ active, PollPoller.poll (· + 5) ready p = .ok active ∧
        ∀ eventsSize events, EPollPoller.EpollWait e ready eventsSize events →
          events.length < eventsSize → events.Perm active) ∧
      ¬ ∃ p' e', PollPoller.perform (· + 5) p (0, .enableReading) = .ok p' ∧
        EPollPoller.perform (· + 5) e (0, .enableReading) = .ok e' ∧ Agree p' e' := by
  obtain ⟨s, executed⟩ : ∃ s, execute Channels.step swapped (fun _ => .fresh) = some s := ⟨_, rfl⟩
  obtain ⟨p, e, performed, performed', agree, same, others⟩ :=
    pollers_agree (· + 5) swapped_guarded executed
  refine ⟨s, p, e, executed, performed, performed', agree, ?_, ?_⟩
  · intro ready
    obtain ⟨active, polled, -, -, isSame⟩ := same ready
    refine ⟨active, polled, ?_⟩
    intro eventsSize events returned room
    obtain ⟨size, -, -, perm⟩ := isSame eventsSize events returned
    exact perm room
  · -- The channel was removed.
    rw [← others]
    obtain rfl := Option.some.inj executed
    exact id

/-- A channel that is disabled twice is watched by the kernel again, for errors. -/
example :
    (([(0, .enableReading), (0, .disableAll), (0, .disableAll)] : List (Nat × Call)).foldlM
        (EPollPoller.perform (· + 5)) .initial).map (fun e => e.epoll 5) =
      .ok (some (noneEvent, 0)) ∧
    (([(0, .enableReading), (0, .disableAll), (0, .disableAll)] : List (Nat × Call)).foldlM
        (PollPoller.perform (· + 5)) .initial).map PollPoller.pollfds_ =
      .ok [⟨-6, noneEvent⟩] :=
  ⟨rfl, rfl⟩

/-- A channel that never wanted anything, such as that of an acceptor that never listened,
cannot be removed from the list. -/
example :
    (([(0, .disableAll), (0, .remove)] : List (Nat × Call)).foldlM
        (EPollPoller.perform (· + 5)) .initial).map (fun e => e.epoll 5) = .ok none ∧
    (([(0, .disableAll), (0, .remove)] : List (Nat × Call)).foldlM
        (PollPoller.perform (· + 5)) .initial).map PollPoller.pollfds_ =
      .error (.assertion "pfd.fd == -channel->fd()-1 && pfd.events == channel->events()") :=
  ⟨rfl, rfl⟩

end AirNet.Muduo
