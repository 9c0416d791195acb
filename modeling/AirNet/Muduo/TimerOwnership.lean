import AirNet.Muduo.TimerQueue

/-!
# Who owns the timers

Timers are deleted by hand: by `cancelInLoop` where they wait, and by `reset` after they
were run. A timer belongs to whoever will enter it into the sets or delete it: to the
functor that is to call `addTimerInLoop`, to the two sets, or to `handleRead` while it
runs the expired ones. `Owned` says so, and that the two sets agree. Every function of
the queue is shown to keep it and to return (`insert_eq` to `reset_eq`), and from this
what every step does (`Effect`, `perform_spec`).

Whatever the callbacks and the other threads do, no assertion fails, no function of the
loop touches a deleted timer, and every timer that was not deleted is in one place
(`timers_are_owned`). The one read that may find a deleted timer is that of `addTimer` in
another thread, when the loop has been faster.
-/

set_option autoImplicit false

namespace AirNet.Muduo.TimerQueue

open AirNet.Cpp AirNet.Lib

/-! ## Who owns the timers -/

/-- Every timer has its own number. -/
structure Numbered (heap : Heap Timer) (numCreated : Nat) : Prop where
  le : ∀ p t, heap.object p = some t → t.sequence_ ≤ numCreated
  distinct : ∀ p q t u, heap.object p = some t → heap.object q = some u →
    t.sequence_ = u.sequence_ → p = q

namespace Numbered

variable {heap : Heap Timer} {numCreated p : Nat} {t : Timer}

theorem create (numbered : Numbered heap numCreated) (number : t.sequence_ = numCreated + 1) :
    Numbered (heap.put p t) (numCreated + 1) := by
  have old : ∀ q u, q ≠ p → (heap.put p t).object q = some u → u.sequence_ ≤ numCreated := by
    intro q u isOld found
    rw [heap.object_put_of_ne isOld] at found
    exact numbered.le q u found
  have new : ∀ u, (heap.put p t).object p = some u → u.sequence_ = numCreated + 1 := by
    intro u found
    rw [Heap.object_put_self] at found
    rw [← Option.some.inj found, number]
  refine ⟨?_, ?_⟩
  · intro q u found
    by_cases isNew : q = p
    · subst isNew
      exact (new u found).le
    · exact (old q u isNew found).trans (Nat.le_succ _)
  · intro q r u v found found' same
    by_cases isNew : q = p
    · by_cases isNew' : r = p
      · rw [isNew, isNew']
      · have first := new u (isNew ▸ found)
        have second := old r v isNew' found'
        omega
    · by_cases isNew' : r = p
      · have first := old q u isNew found
        have second := new v (isNew' ▸ found')
        omega
      · rw [heap.object_put_of_ne isNew] at found
        rw [heap.object_put_of_ne isNew'] at found'
        exact numbered.distinct q r u v found found' same

/-- The timers that are left, or restarted, keep their numbers. -/
theorem keep (numbered : Numbered heap numCreated) {heap' : Heap Timer}
    (kept : ∀ q u, heap'.object q = some u →
      ∃ t, heap.object q = some t ∧ t.sequence_ = u.sequence_) : Numbered heap' numCreated where
  le := by
    intro q u found
    obtain ⟨t, before, same⟩ := kept q u found
    rw [← same]
    exact numbered.le q t before
  distinct := by
    intro q r u v found found' same
    obtain ⟨t, before, number⟩ := kept q u found
    obtain ⟨t', before', number'⟩ := kept r v found'
    refine numbered.distinct q r t t' before before' ?_
    rw [number, number', same]

end Numbered

/-- The two sets describe the same timers, and together with the others, each of
which is listed once, these are the timers on the heap. -/
structure Owned (heap : Heap Timer) (numCreated : Nat) (timers : SortedSet Entry)
    (active : SortedSet ActiveTimer) (others : List Nat) : Prop where
  nodup : others.Nodup
  apart : ∀ e ∈ timers, e.timer ∉ others
  live : ∀ p, p ∈ heap.live ↔ p ∈ others ∨ ∃ e ∈ timers, e.timer = p
  waiting : ∀ e ∈ timers, ∃ t, heap.object e.timer = some t ∧ e = entry t.expiration_ e.timer
  active_iff : ∀ x, x ∈ active ↔
    ∃ e ∈ timers, ∃ t, heap.object e.timer = some t ∧ x = activeTimer e.timer t.sequence_
  below : ∀ p ∈ heap.live, p < uintptrMax
  numbered : Numbered heap numCreated

namespace Owned

variable {heap : Heap Timer} {numCreated : Nat} {timers : SortedSet Entry}
  {active : SortedSet ActiveTimer} {others : List Nat}

theorem initial : Owned (Heap.empty Timer) 0 (.empty _) (.empty _) [] where
  nodup := .nil
  apart := fun e member => absurd member (SortedSet.not_mem_empty e)
  live := by simp [Heap.empty]
  waiting := fun e member => absurd member (SortedSet.not_mem_empty e)
  active_iff := by simp
  below := by simp [Heap.empty]
  numbered := ⟨by simp [Heap.empty], by simp [Heap.empty]⟩

theorem perm (owned : Owned heap numCreated timers active others) {others' : List Nat}
    (perm : others.Perm others') : Owned heap numCreated timers active others' where
  nodup := perm.nodup_iff.mp owned.nodup
  apart := fun e member listed => owned.apart e member (perm.mem_iff.mpr listed)
  live := fun p => by rw [owned.live p, perm.mem_iff]
  waiting := owned.waiting
  active_iff := owned.active_iff
  below := owned.below
  numbered := owned.numbered

/-- A timer has one entry. -/
theorem entry_unique (owned : Owned heap numCreated timers active others) {e e' : Entry}
    (member : e ∈ timers) (member' : e' ∈ timers) (same : e.timer = e'.timer) : e = e' := by
  obtain ⟨t, object, isEntry⟩ := owned.waiting e member
  obtain ⟨t', object', isEntry'⟩ := owned.waiting e' member'
  rw [← same, object] at object'
  obtain rfl := Option.some.inj object'
  rw [isEntry, isEntry', same]

theorem size_eq (owned : Owned heap numCreated timers active others) :
    timers.size = active.size := by
  refine SortedSet.size_eq
    (fun e => activeTimer e.timer (((heap.object e.timer).map Timer.sequence_).getD 0)) ?_ ?_
  · intro e member e' member' same
    exact owned.entry_unique member member' (Prod.mk.inj same).1
  · intro x
    rw [owned.active_iff]
    constructor
    · rintro ⟨e, member, t, object, rfl⟩
      exact ⟨e, member, by rw [object]; rfl⟩
    · rintro ⟨e, member, rfl⟩
      obtain ⟨t, object, -⟩ := owned.waiting e member
      exact ⟨e, member, t, object, by rw [object]; rfl⟩

/-- A listed timer is on the heap and in neither set. -/
theorem listed {p : Nat} (owned : Owned heap numCreated timers active others)
    (isListed : p ∈ others) :
    ∃ t, heap.object p = some t ∧ (∀ when, entry when p ∉ timers) ∧
      ∀ sequence, activeTimer p sequence ∉ active := by
  obtain ⟨t, object⟩ := Heap.object_of_live ((owned.live p).mpr (.inl isListed))
  refine ⟨t, object, ?_, ?_⟩
  · intro when member
    exact owned.apart _ member isListed
  · intro sequence member
    obtain ⟨e, inTimers, u, -, same⟩ := (owned.active_iff _).mp member
    refine owned.apart e inTimers ?_
    rw [← (Prod.mk.inj same).1]
    exact isListed

/-- A listed timer is entered into the sets. -/
theorem insert {p : Nat} {t : Timer}
    (owned : Owned heap numCreated timers active (p :: others)) (object : heap.object p = some t) :
    Owned heap numCreated (timers.insert (entry t.expiration_ p)).1
      (active.insert (activeTimer p t.sequence_)).1 others where
  nodup := (List.nodup_cons.mp owned.nodup).2
  apart := by
    intro e member isListed
    rcases SortedSet.mem_insert.mp member with rfl | before
    · exact (List.nodup_cons.mp owned.nodup).1 isListed
    · exact owned.apart e before (List.mem_cons_of_mem _ isListed)
  live := by
    intro q
    rw [owned.live q, List.mem_cons]
    simp only [SortedSet.mem_insert, exists_eq_or_imp]
    constructor
    · rintro ((rfl | isListed) | waits)
      · exact .inr (.inl rfl)
      · exact .inl isListed
      · exact .inr (.inr waits)
    · rintro (isListed | rfl | waits)
      · exact .inl (.inr isListed)
      · exact .inl (.inl rfl)
      · exact .inr waits
  waiting := by
    intro e member
    rcases SortedSet.mem_insert.mp member with rfl | before
    · exact ⟨t, object, rfl⟩
    · exact owned.waiting e before
  active_iff := by
    intro x
    rw [SortedSet.mem_insert, owned.active_iff]
    simp only [SortedSet.mem_insert, exists_eq_or_imp]
    refine or_congr ?_ Iff.rfl
    constructor
    · rintro rfl
      exact ⟨t, object, rfl⟩
    · rintro ⟨u, found, rfl⟩
      have found' : heap.object p = some u := found
      rw [object] at found'
      obtain rfl := Option.some.inj found'
      rfl
  below := owned.below
  numbered := owned.numbered

/-- A timer is taken out of the sets. -/
theorem erase {e : Entry} {t : Timer} (owned : Owned heap numCreated timers active others)
    (member : e ∈ timers) (object : heap.object e.timer = some t) :
    Owned heap numCreated (timers.erase e).1
      (active.erase (activeTimer e.timer t.sequence_)).1 (e.timer :: others) where
  nodup := List.nodup_cons.mpr ⟨owned.apart e member, owned.nodup⟩
  apart := by
    intro e' member' isListed
    obtain ⟨different, before⟩ := SortedSet.mem_erase.mp member'
    rcases List.mem_cons.mp isListed with same | earlier
    · exact different (owned.entry_unique before member same)
    · exact owned.apart e' before earlier
  live := by
    intro q
    rw [owned.live q, List.mem_cons]
    simp only [SortedSet.mem_erase]
    constructor
    · rintro (isListed | ⟨e', before, rfl⟩)
      · exact .inl (.inr isListed)
      · by_cases same : e' = e
        · exact .inl (.inl (same ▸ rfl))
        · exact .inr ⟨e', ⟨same, before⟩, rfl⟩
    · rintro ((rfl | isListed) | ⟨e', ⟨-, before⟩, rfl⟩)
      · exact .inr ⟨e, member, rfl⟩
      · exact .inl isListed
      · exact .inr ⟨e', before, rfl⟩
  waiting := fun e' member' => owned.waiting e' (SortedSet.mem_erase.mp member').2
  active_iff := by
    intro x
    rw [SortedSet.mem_erase, owned.active_iff]
    simp only [SortedSet.mem_erase]
    constructor
    · rintro ⟨different, e', before, u, found, rfl⟩
      refine ⟨e', ⟨?_, before⟩, u, found, rfl⟩
      rintro rfl
      rw [object] at found
      obtain rfl := Option.some.inj found
      exact different rfl
    · rintro ⟨e', ⟨different, before⟩, u, found, rfl⟩
      refine ⟨fun same => different ?_, e', before, u, found, rfl⟩
      exact owned.entry_unique before member (Prod.mk.inj same).1
  below := owned.below
  numbered := owned.numbered

/-- The heap has changed where the others are. -/
theorem of_heap (owned : Owned heap numCreated timers active others) {heap' : Heap Timer}
    {numCreated' : Nat} {others' : List Nat}
    (same : ∀ e ∈ timers, heap'.object e.timer = heap.object e.timer) (nodup : others'.Nodup)
    (live : ∀ p, p ∈ heap'.live ↔ p ∈ others' ∨ ∃ e ∈ timers, e.timer = p)
    (apart : ∀ e ∈ timers, e.timer ∉ others') (below : ∀ p ∈ heap'.live, p < uintptrMax)
    (numbered : Numbered heap' numCreated') :
    Owned heap' numCreated' timers active others' where
  nodup := nodup
  apart := apart
  live := live
  waiting := by
    intro e member
    rw [same e member]
    exact owned.waiting e member
  active_iff := by
    intro x
    rw [owned.active_iff]
    refine exists_congr fun e => and_congr_right fun member => ?_
    rw [same e member]
  below := below
  numbered := numbered

/-- A new timer is listed. -/
theorem create {p : Nat} {t : Timer} (owned : Owned heap numCreated timers active others)
    (fresh : p ∉ heap.live) (small : p < uintptrMax) (number : t.sequence_ = numCreated + 1) :
    Owned (heap.put p t) (numCreated + 1) timers active (p :: others) := by
  have elsewhere : ∀ e ∈ timers, e.timer ≠ p := by
    rintro e member rfl
    exact fresh ((owned.live _).mpr (.inr ⟨e, member, rfl⟩))
  refine owned.of_heap (fun e member => heap.object_put_of_ne (elsewhere e member) t) ?_ ?_ ?_ ?_
    (owned.numbered.create number)
  · refine List.nodup_cons.mpr ⟨fun isListed => fresh ?_, owned.nodup⟩
    exact (owned.live p).mpr (.inl isListed)
  · intro q
    rw [Heap.live_put, Finset.mem_insert, owned.live q, List.mem_cons, or_assoc]
  · intro e member isListed
    rcases List.mem_cons.mp isListed with isNew | before
    · exact elsewhere e member isNew
    · exact owned.apart e member before
  · intro q isLive
    rcases Finset.mem_insert.mp isLive with rfl | before
    · exact small
    · exact owned.below q before

/-- A listed timer is changed and keeps its number. -/
theorem update {p : Nat} {t t' : Timer} (owned : Owned heap numCreated timers active others)
    (isListed : p ∈ others) (object : heap.object p = some t)
    (number : t.sequence_ = t'.sequence_) :
    Owned (heap.put p t') numCreated timers active others := by
  have isLive := Heap.live_of_object object
  refine owned.of_heap ?_ owned.nodup ?_ owned.apart ?_ (owned.numbered.keep ?_)
  · intro e member
    refine heap.object_put_of_ne ?_ t'
    rintro rfl
    exact owned.apart e member isListed
  · intro q
    rw [Heap.live_put, Finset.insert_eq_of_mem isLive, owned.live q]
  · rw [Heap.live_put, Finset.insert_eq_of_mem isLive]
    exact owned.below
  · intro q u found
    by_cases isChanged : q = p
    · subst isChanged
      rw [Heap.object_put_self] at found
      exact ⟨t, object, Option.some.inj found ▸ number⟩
    · rw [heap.object_put_of_ne isChanged] at found
      exact ⟨u, found, rfl⟩

/-- A listed timer is deleted. -/
theorem delete {p : Nat} (owned : Owned heap numCreated timers active (p :: others)) :
    ∃ after, heap.delete p = some after ∧ after.object = Function.update heap.object p none ∧
      Owned after numCreated timers active others := by
  have isLive := (owned.live p).mpr (.inl List.mem_cons_self)
  obtain ⟨unlisted, nodup⟩ := List.nodup_cons.mp owned.nodup
  obtain ⟨after, deleted, live, object⟩ := Heap.exists_delete isLive
  have elsewhere : ∀ e ∈ timers, e.timer ≠ p := by
    intro e member same
    exact owned.apart e member (same ▸ List.mem_cons_self)
  refine ⟨after, deleted, object, owned.of_heap ?_ nodup ?_ ?_ ?_ (owned.numbered.keep ?_)⟩
  · intro e member
    rw [object, Function.update_of_ne (elsewhere e member)]
  · intro q
    rw [live q, owned.live q, List.mem_cons]
    constructor
    · rintro ⟨different, (isDeleted | isListed) | waits⟩
      · exact absurd isDeleted different
      · exact .inl isListed
      · exact .inr waits
    · rintro (isListed | ⟨e, member, rfl⟩)
      · exact ⟨fun same => unlisted (same ▸ isListed), .inl (.inr isListed)⟩
      · exact ⟨elsewhere e member, .inr ⟨e, member, rfl⟩⟩
  · exact fun e member isListed => owned.apart e member (List.mem_cons_of_mem _ isListed)
  · exact fun q isLive => owned.below q ((live q).mp isLive).2
  · intro q u found
    by_cases isDeleted : q = p
    · rw [object, isDeleted, Function.update_self] at found
      cases found
    · rw [object, Function.update_of_ne isDeleted] at found
      exact ⟨u, found, rfl⟩

/-- What the sets hold is known from the heap. -/
theorem mem_iff (owned : Owned heap numCreated timers active others) (e : Entry) :
    e ∈ timers ↔
      e.timer ∉ others ∧ ∃ t, heap.object e.timer = some t ∧ e = entry t.expiration_ e.timer := by
  constructor
  · intro member
    exact ⟨owned.apart e member, owned.waiting e member⟩
  · rintro ⟨unlisted, t, object, isEntry⟩
    have isLive := (owned.live e.timer).mp (Heap.live_of_object object)
    obtain ⟨e', member, same⟩ := isLive.resolve_left unlisted
    obtain ⟨t', object', isEntry'⟩ := owned.waiting e' member
    rw [same, object] at object'
    obtain rfl := Option.some.inj object'
    rw [isEntry, ← same, ← isEntry']
    exact member

end Owned

/-! ## What the functions do -/

variable {s : State} {others : List Nat}

/-- The queue with these timers elsewhere. -/
def State.Owns (s : State) (others : List Nat) : Prop :=
  Owned s.heap s.numCreated s.timers_ s.activeTimers_ others

theorem deref_of {p : Nat} {t : Timer} (object : s.heap.object p = some t) :
    deref p s = .ok t := by
  rw [deref, object]

theorem checkSizes_of (owned : s.Owns others) : checkSizes s = .ok () :=
  check_of owned.size_eq _

/-- The queue with the timer in both sets. -/
def State.enter (s : State) (p : Nat) (t : Timer) : State :=
  { s with
    timers_ := (s.timers_.insert (entry t.expiration_ p)).1
    activeTimers_ := (s.activeTimers_.insert (activeTimer p t.sequence_)).1 }

theorem insert_eq {p : Nat} {t : Timer} (owned : s.Owns (p :: others))
    (object : s.heap.object p = some t) :
    insert p s = .ok (earliestChanged t.expiration_ s, s.enter p t) ∧
      (s.enter p t).Owns others := by
  obtain ⟨u, -, absent, inactive⟩ := owned.listed List.mem_cons_self
  have entered : (s.enter p t).Owns others := Owned.insert owned object
  refine ⟨?_, entered⟩
  have first := checkSizes_of owned
  have last := checkSizes_of entered
  simp only [insert, first, deref_of object, check_of (SortedSet.insert_snd.mpr (absent _)),
    check_of (SortedSet.insert_snd.mpr (inactive _)), ok_bind]
  show (checkSizes (s.enter p t) >>= fun _ => _) = _
  rw [last]
  rfl

/-- What the descriptor is set to when a timer was entered. -/
def State.alarmAfter (s : State) (t : Timer) (now : Timestamp) : Option Alarm :=
  if earliestChanged t.expiration_ s then
    some ⟨now, now + howMuchTimeFromNow t.expiration_ now⟩
  else s.timerfd_

theorem addTimerInLoop_eq {p : Nat} {t : Timer} (now : Timestamp) (owned : s.Owns (p :: others))
    (object : s.heap.object p = some t) :
    addTimerInLoop p now s = .ok { s.enter p t with timerfd_ := s.alarmAfter t now } := by
  obtain ⟨inserted, -⟩ := insert_eq owned object
  have object' : (s.enter p t).heap.object p = some t := object
  simp only [addTimerInLoop, inserted, deref_of object', ok_bind, State.alarmAfter]
  split_ifs <;> rfl

/-- An active timer is deleted. -/
theorem cancelInLoop_active {p sequence : Nat} (owned : s.Owns others)
    (isActive : activeTimer p sequence ∈ s.activeTimers_) :
    ∃ heap timers active,
      cancelInLoop p sequence s =
        .ok { s with heap := heap, timers_ := timers, activeTimers_ := active } ∧
      heap.object = Function.update s.heap.object p none ∧
      Owned heap s.numCreated timers active others := by
  obtain ⟨e, member, t, object, same⟩ := (owned.active_iff _).mp isActive
  obtain ⟨rfl, rfl⟩ : p = e.timer ∧ sequence = t.sequence_ := Prod.mk.inj same
  obtain ⟨u, object', isEntry⟩ := owned.waiting e member
  rw [object] at object'
  obtain rfl := Option.some.inj object'
  obtain ⟨after, deleted, objects, rest⟩ := (Owned.erase owned member object).delete
  refine ⟨after, _, _, ?_, objects, rest⟩
  have removed : State.Owns
      { s with
        heap := after, timers_ := (s.timers_.erase e).1,
        activeTimers_ := (s.activeTimers_.erase (activeTimer e.timer t.sequence_)).1 } others :=
    rest
  have first := checkSizes_of owned
  have last := checkSizes_of removed
  have count := SortedSet.erase_snd member
  simp only [cancelInLoop, first, if_pos isActive, deref_of object, ← isEntry, check_of count,
    ok_bind, delete, deleted, pure, Except.pure, last]

/-- Any other timer is noted while timers are being run. -/
theorem cancelInLoop_inactive {p sequence : Nat} (owned : s.Owns others)
    (inactive : activeTimer p sequence ∉ s.activeTimers_) :
    cancelInLoop p sequence s = .ok
      { s with
        cancelingTimers_ :=
          if s.callingExpiredTimers_ then (s.cancelingTimers_.insert (activeTimer p sequence)).1
          else s.cancelingTimers_ } := by
  have sizes := checkSizes_of owned
  simp only [cancelInLoop, sizes, if_neg inactive, ok_bind]
  split_ifs with calling
  · have noted : State.Owns
        { s with
          cancelingTimers_ := (s.cancelingTimers_.insert (activeTimer p sequence)).1 } others :=
      owned
    simp only [pure, Except.pure, ok_bind, checkSizes_of noted]
  · simp only [pure, Except.pure, ok_bind, sizes]

/-- The loop in `getExpired`: the entries are in the first set no more, and taken out of
the second one by one. -/
theorem eraseActive_loop {l : List Entry} {timers : SortedSet Entry} {s : State}
    {others : List Nat} (owned : Owned s.heap s.numCreated timers s.activeTimers_ others)
    (nodup : l.Nodup) (members : ∀ e ∈ l, e ∈ timers) :
    ∃ active rest, l.foldlM eraseActive s = .ok { s with activeTimers_ := active } ∧
      (∀ e, e ∈ rest ↔ e ∈ timers ∧ e ∉ l) ∧
      Owned s.heap s.numCreated rest active ((l.map Entry.timer).reverse ++ others) := by
  induction l generalizing timers s others with
  | nil => exact ⟨s.activeTimers_, timers, rfl, by simp, owned⟩
  | cons e l ih =>
      obtain ⟨unrepeated, nodup⟩ := List.nodup_cons.mp nodup
      have member := members e List.mem_cons_self
      obtain ⟨t, object, -⟩ := owned.waiting e member
      have isActive : activeTimer e.timer t.sequence_ ∈ s.activeTimers_ :=
        (owned.active_iff _).mpr ⟨e, member, t, object, rfl⟩
      obtain ⟨active, rest, returned, elements, after⟩ :=
        ih (s := { s with
              activeTimers_ := (s.activeTimers_.erase (activeTimer e.timer t.sequence_)).1 })
          (owned.erase member object) nodup (by
            intro e' member'
            refine SortedSet.mem_erase.mpr ⟨?_, members e' (List.mem_cons_of_mem _ member')⟩
            rintro rfl
            exact unrepeated member')
      refine ⟨active, rest, ?_, ?_, ?_⟩
      · have count := SortedSet.erase_snd isActive
        simp only [List.foldlM_cons, eraseActive, deref_of object, check_of count, ok_bind, pure,
          Except.pure]
        exact returned
      · intro e'
        rw [elements, SortedSet.mem_erase, List.mem_cons]
        tauto
      · rw [List.map_cons, List.reverse_cons, List.append_assoc]
        exact after

/-- No address is above that of the sentry. -/
theorem lt_sentry {now : Timestamp} {e : Entry} (small : e.timer < uintptrMax) :
    e < entry now uintptrMax ↔ e.when ≤ now := by
  rw [Prod.Lex.lt_iff]
  constructor
  · rintro (earlier | ⟨same, -⟩)
    · exact earlier.le
    · exact same.le
  · intro due
    rcases lt_or_eq_of_le due with earlier | same
    · exact .inl earlier
    · exact .inr ⟨same, small⟩

theorem getExpired_eq (now : Timestamp) (owned : s.Owns others) :
    ∃ expired timers active,
      getExpired now s = .ok (expired, { s with timers_ := timers, activeTimers_ := active }) ∧
      (∀ e, e ∈ expired ↔ e ∈ s.timers_ ∧ e.when ≤ now) ∧
      Owned s.heap s.numCreated timers active (expired.map Entry.timer ++ others) := by
  have small : ∀ e ∈ s.timers_, e.timer < uintptrMax := fun e member =>
    owned.below _ ((owned.live _).mpr (.inr ⟨e, member, rfl⟩))
  have isExpired : ∀ e, e ∈ s.timers_.below (entry now uintptrMax) ↔
      e ∈ s.timers_ ∧ e.when ≤ now := by
    intro e
    rw [SortedSet.mem_below]
    exact and_congr_right fun member => lt_sentry (small e member)
  have remains : ∀ e, e ∈ s.timers_.rest (entry now uintptrMax) ↔
      e ∈ s.timers_ ∧ now < e.when := by
    intro e
    rw [SortedSet.mem_rest]
    refine and_congr_right fun member => ?_
    rw [lt_sentry (small e member), not_le]
  have nodup : (s.timers_.below (entry now uintptrMax)).Nodup := SortedSet.nodup_below
  obtain ⟨active, rest, returned, elements, after⟩ :=
    eraseActive_loop (s := { s with timers_ := s.timers_.rest (entry now uintptrMax) }) owned nodup
      (fun e member => ((isExpired e).mp member).1)
  obtain rfl : rest = s.timers_.rest (entry now uintptrMax) := by
    refine SortedSet.ext_mem fun e => ?_
    rw [elements, isExpired, remains, ← not_le]
    tauto
  have owned' : State.Owns
      { s with timers_ := s.timers_.rest (entry now uintptrMax), activeTimers_ := active }
      ((s.timers_.below (entry now uintptrMax)).map Entry.timer ++ others) :=
    Owned.perm after ((List.reverse_perm _).append_right others)
  refine ⟨_, _, _, ?_, isExpired, owned'⟩
  have later : ∀ e ∈ (s.timers_.rest (entry now uintptrMax)).first, now < e.when :=
    fun e isFirst => ((remains e).mp (SortedSet.first_mem isFirst)).2
  have first := checkSizes_of owned
  have last := checkSizes_of owned'
  simp only [getExpired, first, check_of later, returned, last, ok_bind, pure, Except.pure]

/-- What `reset` leaves of an expired timer. -/
def survivor (now : Timestamp) (s : State) (p : Nat) : Option Timer :=
  match s.heap.object p with
  | some t =>
      if t.repeat_ = true ∧ activeTimer p t.sequence_ ∉ s.cancelingTimers_ then
        some (t.restart now)
      else none
  | none => none

theorem Timer.restart_sequence (now : Timestamp) (t : Timer) :
    (t.restart now).sequence_ = t.sequence_ := by
  rw [restart]
  split_ifs <;> rfl

theorem survivor_congr {now : Timestamp} {s s' : State} {p : Nat}
    (object : s.heap.object p = s'.heap.object p)
    (canceling : s.cancelingTimers_ = s'.cancelingTimers_) :
    survivor now s p = survivor now s' p := by
  rw [survivor, survivor, object, canceling]

theorem resetOne_eq (now : Timestamp) {e : Entry} (owned : s.Owns (e.timer :: others)) :
    ∃ heap timers active,
      resetOne now s e =
        .ok { s with heap := heap, timers_ := timers, activeTimers_ := active } ∧
      heap.object = Function.update s.heap.object e.timer (survivor now s e.timer) ∧
      Owned heap s.numCreated timers active others := by
  obtain ⟨t, object, -, -⟩ := owned.listed List.mem_cons_self
  have left : survivor now s e.timer =
      if t.repeat_ = true ∧ activeTimer e.timer t.sequence_ ∉ s.cancelingTimers_ then
        some (t.restart now)
      else none := by
    rw [survivor, object]
  rw [left]
  simp only [resetOne, deref_of object, ok_bind]
  split_ifs with again
  · have restarted : State.Owns { s with heap := s.heap.put e.timer (t.restart now) }
        (e.timer :: others) :=
      Owned.update owned List.mem_cons_self object (t.restart_sequence now).symm
    obtain ⟨inserted, entered⟩ := insert_eq restarted (s.heap.object_put_self e.timer _)
    refine ⟨_, _, _, ?_, rfl, entered⟩
    simp only [inserted, ok_bind, pure, Except.pure, State.enter]
  · obtain ⟨after, deleted, objects, rest⟩ := Owned.delete owned
    refine ⟨after, s.timers_, s.activeTimers_, ?_, objects, rest⟩
    simp only [delete, deleted]

/-- The loop in `reset`: every expired timer is entered again or deleted. -/
theorem resetOne_loop (now : Timestamp) {l : List Entry} {s : State} {others : List Nat}
    (owned : s.Owns (l.map Entry.timer ++ others)) :
    ∃ heap timers active,
      l.foldlM (resetOne now) s =
        .ok { s with heap := heap, timers_ := timers, activeTimers_ := active } ∧
      (∀ p, heap.object p =
        if p ∈ l.map Entry.timer then survivor now s p else s.heap.object p) ∧
      Owned heap s.numCreated timers active others := by
  induction l generalizing s with
  | nil => exact ⟨s.heap, s.timers_, s.activeTimers_, rfl, by simp, owned⟩
  | cons e l ih =>
      obtain ⟨heap, timers, active, first, object, owned'⟩ := resetOne_eq now owned
      obtain ⟨heap', timers', active', returned, objects, owned''⟩ := ih (s :=
        { s with heap := heap, timers_ := timers, activeTimers_ := active }) owned'
      have unrepeated : e.timer ∉ l.map Entry.timer := fun repeated =>
        (List.nodup_cons.mp owned.nodup).1 (List.mem_append_left _ repeated)
      refine ⟨heap', timers', active', ?_, ?_, owned''⟩
      · rw [List.foldlM_cons, first]
        exact returned
      · intro p
        rw [objects p, List.map_cons]
        by_cases isFirst : p = e.timer
        · rw [isFirst, if_neg unrepeated, if_pos List.mem_cons_self, object, Function.update_self]
        · have same : heap.object p = s.heap.object p := by
            rw [object, Function.update_of_ne isFirst]
          have left : survivor now
              { s with heap := heap, timers_ := timers, activeTimers_ := active } p =
                survivor now s p :=
            survivor_congr same rfl
          rw [left, same]
          simp only [List.mem_cons, isFirst, false_or]

theorem reset_eq (now later : Timestamp) {expired : List Entry}
    (owned : s.Owns (expired.map Entry.timer ++ others)) :
    ∃ heap timers active timerfd,
      reset expired now later s =
        .ok { s with
          heap := heap, timers_ := timers, activeTimers_ := active, timerfd_ := timerfd } ∧
      (∀ p, heap.object p =
        if p ∈ expired.map Entry.timer then survivor now s p else s.heap.object p) ∧
      (∀ e ∈ timers.first, 0 < e.when →
        timerfd = some ⟨later, later + howMuchTimeFromNow e.when later⟩) ∧
      Owned heap s.numCreated timers active others := by
  obtain ⟨heap, timers, active, returned, objects, owned'⟩ := resetOne_loop now owned
  simp only [reset, returned, ok_bind]
  cases isFirst : timers.first with
  | none => exact ⟨heap, timers, active, s.timerfd_, rfl, objects, by simp [isFirst], owned'⟩
  | some it =>
      obtain ⟨t, object, isEntry⟩ := owned'.waiting it (SortedSet.first_mem isFirst)
      have when : it.when = t.expiration_ := congrArg Entry.when isEntry
      have next : ∀ e ∈ timers.first, e.when = t.expiration_ := by
        intro e first
        obtain rfl : it = e := Option.some.inj (isFirst.symm.trans first)
        exact when
      simp only [deref, object, ok_bind]
      split_ifs with valid
      · refine ⟨heap, timers, active, _, rfl, objects, ?_, owned'⟩
        intro e first _
        rw [next e first]
      · refine ⟨heap, timers, active, s.timerfd_, rfl, objects, ?_, owned'⟩
        intro e first positive
        exact absurd (next e first ▸ positive) valid

/-! ## Runs -/

/-- The timers that `handleRead` took out of the sets. -/
def State.called (s : State) : List Nat :=
  (s.batch.map fun batch => batch.expired.map Entry.timer).getD []

structure Inv (s : State) : Prop where
  owned : s.Owns (s.queued ++ s.called)
  calling : s.callingExpiredTimers_ = s.batch.isSome
  fits : ∀ batch ∈ s.batch, batch.Fits
  ran : ∀ run ∈ s.ran, run.sequence ≤ s.numCreated

theorem Inv.initial : Inv State.initial where
  owned := Owned.initial
  calling := rfl
  fits := nofun
  ran := nofun

/-- What a step does to the queue. -/
inductive Effect (s : State) : Label → State → Prop where
  | create {p : Nat} (when : Timestamp) (interval : Float) (dead : p ∉ s.heap.live) :
      Effect s (.create p when interval)
        { s with
          heap := s.heap.put p (.construct when interval (s.numCreated + 1))
          numCreated := s.numCreated + 1, queued := s.queued ++ [p]
          returning := s.returning ++ [(p, s.numCreated + 1)] }
  | addTimerInLoop {p : Nat} {t : Timer} (now : Timestamp) (isQueued : p ∈ s.queued)
      (object : s.heap.object p = some t) :
      Effect s (.addTimerInLoop p now)
        { s.enter p t with queued := s.queued.erase p, timerfd_ := s.alarmAfter t now }
  | returns (p sequence : Nat) (returning : List (Nat × Nat)) (returned : List (Nat × Nat × Nat)) :
      Effect s (.returns p sequence) { s with returning := returning, returned := returned }
  | cancelActive {p sequence : Nat} {heap : Heap Timer} {timers : SortedSet Entry}
      {active : SortedSet ActiveTimer} (isActive : activeTimer p sequence ∈ s.activeTimers_)
      (object : heap.object = Function.update s.heap.object p none) :
      Effect s (.cancelInLoop p sequence)
        { s with heap := heap, timers_ := timers, activeTimers_ := active }
  | cancelInactive {p sequence : Nat} (inactive : activeTimer p sequence ∉ s.activeTimers_) :
      Effect s (.cancelInLoop p sequence)
        { s with
          cancelingTimers_ :=
            if s.callingExpiredTimers_ then (s.cancelingTimers_.insert (activeTimer p sequence)).1
            else s.cancelingTimers_ }
  | handleRead {now : Timestamp} {fired : Bool} {expired : List Entry}
      (timers : SortedSet Entry) (active : SortedSet ActiveTimer) (idle : s.batch = none)
      (isExpired : ∀ e, e ∈ expired ↔ e ∈ s.timers_ ∧ e.when ≤ now) :
      Effect s (.handleRead now fired)
        { s with
          timerfd_ := if fired then none else s.timerfd_
          timers_ := timers, activeTimers_ := active
          callingExpiredTimers_ := true, cancelingTimers_ := .empty _
          batch := some ⟨now, expired, expired⟩ }
  | run {now : Timestamp} {expired left : List Entry} {e : Entry} {t : Timer} (time : Timestamp)
      (running : s.batch = some ⟨now, expired, e :: left⟩)
      (object : s.heap.object e.timer = some t) :
      Effect s (.run time)
        { s with
          ran := s.ran ++ [⟨t.sequence_, now, time⟩], batch := some ⟨now, expired, left⟩ }
  | reset {now later : Timestamp} {expired : List Entry} {heap : Heap Timer}
      {timers : SortedSet Entry} (active : SortedSet ActiveTimer) {timerfd : Option Alarm}
      (done : s.batch = some ⟨now, expired, []⟩)
      (objects : ∀ p, heap.object p =
        if p ∈ expired.map Entry.timer then survivor now s p else s.heap.object p)
      (armed : ∀ e ∈ timers.first, 0 < e.when →
        timerfd = some ⟨later, later + howMuchTimeFromNow e.when later⟩) :
      Effect s (.reset later)
        { s with
          heap := heap, timers_ := timers, activeTimers_ := active, timerfd_ := timerfd
          callingExpiredTimers_ := false, batch := none }

theorem perform_create (inv : Inv s) {p : Nat} {when : Timestamp} {interval : Float}
    (enabled : Enabled s (.create p when interval)) :
    ∃ s', perform s (.create p when interval) = .ok s' ∧
      Effect s (.create p when interval) s' ∧ Inv s' := by
  obtain ⟨dead, small⟩ := enabled
  refine ⟨_, rfl, .create when interval dead, ?_, inv.calling, inv.fits, fun run member =>
    (inv.ran run member).trans (Nat.le_succ _)⟩
  have created := Owned.create (t := .construct when interval (s.numCreated + 1)) inv.owned dead
    small rfl
  refine Owned.perm created ?_
  show List.Perm (p :: (s.queued ++ s.called)) ((s.queued ++ [p]) ++ s.called)
  rw [List.append_assoc]
  exact List.perm_middle.symm

theorem perform_addTimerInLoop (inv : Inv s) {p : Nat} (now : Timestamp)
    (isQueued : p ∈ s.queued) :
    ∃ s', perform s (.addTimerInLoop p now) = .ok s' ∧ Effect s (.addTimerInLoop p now) s' ∧
      Inv s' := by
  have owned : State.Owns { s with queued := s.queued.erase p }
      (p :: (s.queued.erase p ++ s.called)) :=
    Owned.perm inv.owned ((List.perm_cons_erase isQueued).append_right _)
  obtain ⟨t, object, -, -⟩ := owned.listed List.mem_cons_self
  have entered := (insert_eq owned object).2
  exact ⟨_, addTimerInLoop_eq now owned object, .addTimerInLoop now isQueued object, entered,
    inv.calling, inv.fits, inv.ran⟩

/-- `addTimer` returns the number of the timer at the address. -/
theorem perform_returns {p : Nat} {t : Timer} (sequence : Nat) (object : s.heap.object p = some t) :
    perform s (.returns p sequence) = .ok
      { s with
        returning := s.returning.erase (p, sequence)
        returned := s.returned ++ [(sequence, p, t.sequence_)] } := by
  simp only [perform, deref_of object, ok_bind]
  rfl

theorem perform_returns_of_deleted {p : Nat} (sequence : Nat) (dead : p ∉ s.heap.live) :
    perform s (.returns p sequence) = .error .outOfBounds := by
  simp only [perform, deref, Heap.object_of_not_live dead]
  rfl

theorem perform_cancelInLoop (inv : Inv s) (p sequence : Nat) :
    ∃ s', perform s (.cancelInLoop p sequence) = .ok s' ∧
      Effect s (.cancelInLoop p sequence) s' ∧ Inv s' := by
  by_cases isActive : activeTimer p sequence ∈ s.activeTimers_
  · obtain ⟨heap, timers, active, returned, object, owned⟩ :=
      cancelInLoop_active inv.owned isActive
    exact ⟨_, returned, .cancelActive isActive object, owned, inv.calling, inv.fits,
      inv.ran⟩
  · exact ⟨_, cancelInLoop_inactive inv.owned isActive, .cancelInactive isActive, inv.owned,
      inv.calling, inv.fits, inv.ran⟩

theorem perform_handleRead (inv : Inv s) (now : Timestamp) (fired : Bool)
    (idle : s.batch = none) :
    ∃ s', perform s (.handleRead now fired) = .ok s' ∧
      Effect s (.handleRead now fired) s' ∧ Inv s' := by
  have owned : State.Owns { s with timerfd_ := if fired then none else s.timerfd_ } s.queued := by
    have before := inv.owned
    rw [State.called, idle] at before
    exact List.append_nil s.queued ▸ before
  obtain ⟨expired, timers, active, returned, isExpired, owned'⟩ := getExpired_eq now owned
  refine ⟨_, ?_, .handleRead timers active idle isExpired, ?_, rfl, ?_, inv.ran⟩
  · simp only [perform, returned, ok_bind, pure, Except.pure]
  · exact Owned.perm owned' List.perm_append_comm
  · intro batch found
    obtain rfl := Option.mem_some_iff.mp found
    exact ⟨List.suffix_rfl, fun e member => ((isExpired e).mp member).2⟩

theorem perform_run (inv : Inv s) {time : Timestamp} (enabled : Enabled s (.run time)) :
    ∃ s', perform s (.run time) = .ok s' ∧ Effect s (.run time) s' ∧ Inv s' := by
  obtain ⟨⟨now, expired, left⟩, running, nonempty⟩ := enabled
  obtain ⟨e, left, rfl⟩ := List.exists_cons_of_ne_nil nonempty
  have running : s.batch = some ⟨now, expired, e :: left⟩ := running
  obtain ⟨suffix, due⟩ := inv.fits _ running
  have calledIs : s.called = expired.map Entry.timer := by
    rw [State.called, running]
    rfl
  have isCalled : e.timer ∈ s.queued ++ s.called := by
    rw [calledIs]
    exact List.mem_append_right _ (List.mem_map_of_mem (suffix.subset List.mem_cons_self))
  obtain ⟨t, object, -, -⟩ := inv.owned.listed isCalled
  refine ⟨_, ?_, .run time running object, ?_, ?_, ?_, ?_⟩
  · simp only [perform, running, deref_of object, ok_bind, pure, Except.pure]
  · have owned := inv.owned
    rw [calledIs] at owned
    exact owned
  · rw [inv.calling, running]
    rfl
  · intro batch found
    obtain rfl := Option.mem_some_iff.mp found
    exact ⟨(List.suffix_cons e left).trans suffix, due⟩
  · intro run member
    rcases List.mem_append.mp member with earlier | last
    · exact inv.ran run earlier
    · rw [List.mem_singleton.mp last]
      exact inv.owned.numbered.le e.timer t object

theorem perform_reset (inv : Inv s) {later : Timestamp} (enabled : Enabled s (.reset later)) :
    ∃ s', perform s (.reset later) = .ok s' ∧ Effect s (.reset later) s' ∧ Inv s' := by
  obtain ⟨⟨now, expired, left⟩, running, empty⟩ := enabled
  have done : s.batch = some ⟨now, expired, []⟩ := by
    rw [← show left = [] from empty]
    exact running
  have owned : State.Owns { s with callingExpiredTimers_ := false, batch := none }
      (expired.map Entry.timer ++ s.queued) := by
    have before := inv.owned
    rw [State.called, done] at before
    exact Owned.perm before List.perm_append_comm
  obtain ⟨heap, timers, active, timerfd, returned, objects, armed, owned'⟩ :=
    reset_eq now later owned
  refine ⟨_, ?_, .reset active done objects armed, ?_, rfl, nofun, inv.ran⟩
  · simp only [perform, done, returned]
  · show Owned heap s.numCreated timers active (s.queued ++ [])
    rw [List.append_nil]
    exact owned'

/-- The step reads no number of a deleted timer. -/
def Label.Finds (s : State) : Label → Prop
  | .returns timer _ => timer ∈ s.heap.live
  | _ => True

/-- **Every step.**  What the queue is asked to do it does, without a fault. -/
theorem perform_spec (inv : Inv s) {label : Label} (enabled : Enabled s label)
    (finds : label.Finds s) : ∃ s', perform s label = .ok s' ∧ Effect s label s' ∧ Inv s' := by
  cases label with
  | create p when interval => exact perform_create inv enabled
  | addTimerInLoop p now => exact perform_addTimerInLoop inv now enabled
  | returns p sequence =>
      obtain ⟨t, object⟩ := Heap.object_of_live finds
      exact ⟨_, perform_returns sequence object, .returns p sequence _ _, inv.owned, inv.calling,
        inv.fits, inv.ran⟩
  | cancelInLoop p sequence => exact perform_cancelInLoop inv p sequence
  | handleRead now fired => exact perform_handleRead inv now fired enabled
  | run time => exact perform_run inv enabled
  | reset later => exact perform_reset inv enabled

theorem finds_of_perform {label : Label} {s' : State} (performed : perform s label = .ok s') :
    label.Finds s := by
  cases label with
  | returns p sequence =>
      by_contra dead
      rw [perform_returns_of_deleted sequence dead] at performed
      cases performed
  | _ => trivial

theorem effect_of_step (inv : Inv s) {label : Label} {s' : State}
    (stepped : step label s = some s') : Effect s label s' ∧ Inv s' := by
  rw [step] at stepped
  split_ifs at stepped with enabled
  have performed : perform s label = .ok s' := by
    cases outcome : perform s label with
    | error fault =>
        rw [outcome] at stepped
        cases stepped
    | ok after =>
        rw [outcome] at stepped
        exact congrArg _ (Option.some.inj stepped)
  obtain ⟨s'', returned, effect, inv'⟩ := perform_spec inv enabled (finds_of_perform performed)
  obtain rfl : s'' = s' := Except.ok.inj (returned.symm.trans performed)
  exact ⟨effect, inv'⟩

/-- Any step may be taken. -/
def anyStep (_ : Label) (_ : State) : Prop := True

instance (label : Label) (s : State) : Decidable (anyStep label s) :=
  inferInstanceAs (Decidable True)

theorem Inv.reachable {guard : Label → State → Prop}
    (reachable : Reachable step guard State.initial s) : Inv s := by
  refine Reachable.invariant reachable Inv.initial ?_
  intro label s s' inv _ stepped
  exact (effect_of_step inv stepped).2

/-- **No timer is lost, none is touched after its deletion.**  In every state the queue
can reach, whatever callbacks and other threads do and wherever new timers are put, each
function returns: no assertion fails, and no timer is read, restarted or deleted that was
deleted before. The exception is the last line of `addTimer`, which returns the number
that it finds at the address of its timer and fails where there is none. The timers on
the heap are those on their way to the loop, those being run and those in `timers_`, each
in one place; and `activeTimers_` names exactly the latter. -/
theorem timers_are_owned (reachable : Reachable step anyStep State.initial s) :
    (∀ label, Enabled s label → (∀ p sequence, label ≠ .returns p sequence) →
      ∃ s', perform s label = .ok s') ∧
      (∀ p sequence, (p, sequence) ∈ s.returning →
        (p ∉ s.heap.live → perform s (.returns p sequence) = .error .outOfBounds) ∧
        ∀ t, s.heap.object p = some t → ∃ s', perform s (.returns p sequence) = .ok s' ∧
          s'.returned = s.returned ++ [(sequence, p, t.sequence_)]) ∧
      (s.queued ++ s.called ++ s.timers_.elements.map Entry.timer).Nodup ∧
      (∀ p, p ∈ s.heap.live ↔
        p ∈ s.queued ++ s.called ++ s.timers_.elements.map Entry.timer) ∧
      ∀ p sequence, activeTimer p sequence ∈ s.activeTimers_ ↔
        ∃ t, s.heap.object p = some t ∧ t.sequence_ = sequence ∧
          entry t.expiration_ p ∈ s.timers_ := by
  have inv := Inv.reachable reachable
  refine ⟨?_, ?_, ?_, ?_, ?_⟩
  · intro label enabled other
    have finds : label.Finds s := by
      cases label with
      | returns p sequence => exact absurd rfl (other p sequence)
      | _ => trivial
    obtain ⟨s', returned, -, -⟩ := perform_spec inv enabled finds
    exact ⟨s', returned⟩
  · intro p sequence _
    refine ⟨perform_returns_of_deleted sequence, fun t object => ?_⟩
    exact ⟨_, perform_returns sequence object, rfl⟩
  · refine List.Nodup.append inv.owned.nodup ?_ ?_
    · exact s.timers_.nodup.map_on fun e member e' member' => inv.owned.entry_unique member member'
    · intro p isListed waits
      obtain ⟨e, member, rfl⟩ := List.mem_map.mp waits
      exact inv.owned.apart e member isListed
  · intro p
    simp only [inv.owned.live p, List.mem_append, List.mem_map, SortedSet.mem_def]
  · intro p sequence
    rw [inv.owned.active_iff]
    constructor
    · rintro ⟨e, member, t, object, same⟩
      obtain ⟨rfl, rfl⟩ : p = e.timer ∧ sequence = t.sequence_ := Prod.mk.inj same
      obtain ⟨u, object', isEntry⟩ := inv.owned.waiting e member
      rw [object] at object'
      obtain rfl := Option.some.inj object'
      exact ⟨t, object, rfl, isEntry ▸ member⟩
    · rintro ⟨t, object, rfl, member⟩
      exact ⟨_, member, t, object, rfl⟩

/-- A repeating timer is cancelled by its callback, and deleted; its address is used
again for a timer that the old identity does not cancel. A third timer is put elsewhere. -/
def reuse : List Label :=
  [.create 7 10 0.000005, .addTimerInLoop 7 1, .returns 7 1, .handleRead 12 true, .run 12,
    .cancelInLoop 7 1, .reset 13, .create 7 30 0, .addTimerInLoop 7 14, .create 3 40 0,
    .cancelInLoop 7 1]

/-- What is seen of a state. -/
def State.observe (s : State) : List (Timestamp × Nat) × List (Nat × Nat) × List Run :=
  (s.timers_.elements.map ofLex, s.activeTimers_.elements.map ofLex, s.ran)

theorem timers_are_owned_reuse :
    ∃ s, execute step reuse State.initial = some s ∧
      s.observe = ([(30, 7)], [(7, 2)], [⟨1, 12, 12⟩]) ∧
      (∀ p, p ∈ s.heap.live ↔
        p ∈ s.queued ++ s.called ++ s.timers_.elements.map Entry.timer) := by
  have outcome : (execute step reuse State.initial).map State.observe =
      some ([(30, 7)], [(7, 2)], [⟨1, 12, 12⟩]) := by decide +kernel
  obtain ⟨s, executed, reachable, observed⟩ :=
    Reachable.exists_of_execute anyStep outcome (by decide +kernel)
  exact ⟨s, executed, observed, (timers_are_owned reachable).2.2.2.1⟩

/-- The loop is faster than `addTimer` in another thread: the timer is run and deleted
before its number is read. -/
example : ((execute step
    [.create 7 10 0, .addTimerInLoop 7 1, .handleRead 12 true, .run 12, .reset 13]
    State.initial).map fun s => (perform s (.returns 7 1)).toOption.isSome) = some false := by
  decide +kernel

end AirNet.Muduo.TimerQueue
