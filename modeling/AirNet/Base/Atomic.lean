import AirNet.Lib.History
import AirNet.Lib.Transition

/-!
# The atomic integers

`common/base/atomic.h` builds every call on one atomic builtin: an exchange, an
addition that returns the value before, or a compare and swap that changes
nothing. What follows the builtin is done by the thread alone. `add_and_get` adds
its argument a second time, to the value that the builtin returned. So a call
takes effect at its builtin, and the history of the builtins is a history of the
calls (`calls_linearize`).

The second addition is one of the language. For a signed type it is undefined
where the sum leaves the range, although the builtin wraps around, also in
`increment()`, which drops the result. Threads that number something with
`increment_and_get` get one after the other of the numbers from 1 on, none twice,
until the largest number of the type is reached (`tickets_are_distinct`).
-/

set_option autoImplicit false

namespace AirNet.Base.AtomicIntegerT

open AirNet.Lib

/-! ## The integer type -/

structure IntType where
  width : Nat
  signed : Bool
  deriving DecidableEq, Repr

def int32 : IntType := ⟨32, true⟩
def int64 : IntType := ⟨64, true⟩
def uint32 : IntType := ⟨32, false⟩
def uint64 : IntType := ⟨64, false⟩

namespace IntType

variable (T : IntType)

abbrev Value := BitVec T.width

/-- The largest number of the type. -/
def max : Nat := if T.signed then 2 ^ (T.width - 1) - 1 else 2 ^ T.width - 1

/-- The addition of the language: unsigned sums wrap, a signed sum outside the
range is undefined. -/
def plus (x y : T.Value) : Option T.Value :=
  if T.signed && x.saddOverflow y then none else some (x + y)

end IntType

/-! ## The calls -/

section Calls

variable (T : IntType)

/-- The builtins; each returns the value before. -/
inductive Builtin where
  | valCompareAndSwap (old new : T.Value)
  | fetchAndAdd (x : T.Value)
  | lockTestAndSet (newValue : T.Value)

inductive Call where
  | get
  | getAndAdd (x : T.Value)
  | addAndGet (x : T.Value)
  | incrementAndGet
  | decrementAndGet
  | add (x : T.Value)
  | increment
  | decrement
  | getAndSet (newValue : T.Value)
  deriving DecidableEq

inductive Ret where
  | void
  | value (v : T.Value)
  /-- A signed sum was out of range. -/
  | undefined
  deriving DecidableEq

variable {T}

/-- The value that the builtin stores. -/
def Builtin.store : Builtin T → T.Value → T.Value
  | .valCompareAndSwap old new, v => if v = old then new else v
  | .fetchAndAdd x, v => v + x
  | .lockTestAndSet newValue, _ => newValue

/-- The builtin that a call is built on. -/
def Call.builtin : Call T → Builtin T
  | .get => .valCompareAndSwap 0 0
  | .getAndAdd x => .fetchAndAdd x
  | .addAndGet x => .fetchAndAdd x
  | .incrementAndGet => .fetchAndAdd 1
  | .decrementAndGet => .fetchAndAdd (-1)
  | .add x => .fetchAndAdd x
  | .increment => .fetchAndAdd 1
  | .decrement => .fetchAndAdd (-1)
  | .getAndSet newValue => .lockTestAndSet newValue

/-- `get_and_add(x) + x` of the value that the builtin returned. -/
def addAgain (old x : T.Value) : Ret T :=
  match T.plus old x with
  | some v => .value v
  | none => .undefined

/-- A result that is dropped still has to be computed. -/
def Ret.drop : Ret T → Ret T
  | .undefined => .undefined
  | _ => .void

/-- What a call returns when its builtin returned `old`. -/
def Call.ret : Call T → T.Value → Ret T
  | .get, old => .value old
  | .getAndAdd _, old => .value old
  | .addAndGet x, old => addAgain old x
  | .incrementAndGet, old => addAgain old 1
  | .decrementAndGet, old => addAgain old (-1)
  | .add _, _ => .void
  | .increment, old => (addAgain old 1).drop
  | .decrement, old => (addAgain old (-1)).drop
  | .getAndSet _, old => .value old

/-- The integer used by one thread. -/
def counter (T : IntType) : SeqObject T.Value (Call T) (Ret T) where
  initial := 0
  apply := fun call v => some (call.ret v, call.builtin.store v)

end Calls

/-! ## Threads and their steps -/

/-- Where a thread stands: outside, or past the builtin of a call. -/
inductive Pc (T : IntType) where
  | idle
  | performed (call : Call T) (old : T.Value)
  deriving DecidableEq

structure State (ι : Type) (T : IntType) where
  value_ : T.Value
  pc : ι → Pc T
  log : List (Entry ι (Call T) (Ret T))
  returned : List (Entry ι (Call T) (Ret T))

variable {ι : Type} {T : IntType}

def State.initial (ι : Type) (T : IntType) : State ι T where
  value_ := 0
  pc := fun _ => .idle
  log := []
  returned := []

inductive Action (T : IntType) where
  | builtin (call : Call T)
  | return_

/-- The step of a thread. There is none after an undefined sum. -/
def step [DecidableEq ι] : ι × Action T → State ι T → Option (State ι T)
  | (t, .builtin call), s =>
      match s.pc t with
      | .idle => some
          { s with
            value_ := call.builtin.store s.value_
            pc := Function.update s.pc t (.performed call s.value_)
            log := s.log ++ [⟨t, call, call.ret s.value_⟩] }
      | _ => none
  | (t, .return_), s =>
      match s.pc t with
      | .performed call old =>
          if call.ret old = .undefined then none
          else some
            { s with
              pc := Function.update s.pc t .idle
              returned := s.returned ++ [⟨t, call, call.ret old⟩] }
      | _ => none

/-- The call that has taken effect and not returned. -/
def Pc.pending : Pc T → Option (Call T × Ret T)
  | .idle => none
  | .performed call old => some (call, call.ret old)

section Linearization

variable [DecidableEq ι]

theorem pending_update (pc : ι → Pc T) (t : ι) (p : Pc T) :
    (fun u => (Function.update pc t p u).pending) =
      Function.update (fun u => (pc u).pending) t p.pending :=
  Function.comp_update Pc.pending pc t p

/-- The calls in the order of their builtins are what the threads see. -/
def Linearized (s : State ι T) : Prop :=
  Linearizes (counter T) s.log s.returned (fun t => (s.pc t).pending) s.value_

theorem Linearized.step {s s' : State ι T} {label : ι × Action T} (linearized : Linearized s)
    (stepped : step label s = some s') : Linearized s' := by
  obtain ⟨t, action⟩ := label
  cases action with
  | builtin call =>
      cases at_ : s.pc t with
      | idle =>
          simp only [AtomicIntegerT.step, at_, Option.some.injEq] at stepped
          subst stepped
          have free : (s.pc t).pending = none := by rw [at_]; rfl
          have effect := linearized.effect (t := t) free
            (show (counter T).apply call s.value_ = some (_, _) from rfl)
          rw [Linearized, pending_update]
          exact effect
      | performed other old => simp only [AtomicIntegerT.step, at_, reduceCtorEq] at stepped
  | return_ =>
      cases at_ : s.pc t with
      | idle => simp only [AtomicIntegerT.step, at_, reduceCtorEq] at stepped
      | performed call old =>
          simp only [AtomicIntegerT.step, at_] at stepped
          split_ifs at stepped with undefined
          obtain rfl := Option.some.inj stepped
          have performed : (s.pc t).pending = some (call, call.ret old) := by rw [at_]; rfl
          have delivered := linearized.deliver performed
          rw [Linearized, pending_update]
          exact delivered

/-- **The calls linearize.**  One thread that makes the calls in the order of their
builtins gets the results that the threads get and leaves the same value. -/
theorem calls_linearize {guard : ι × Action T → State ι T → Prop} {s : State ι T}
    (reachable : Reachable step guard (State.initial ι T) s) : Linearized s :=
  reachable.invariant Linearizes.initial fun _ _ _ linearized _ stepped => linearized.step stepped

end Linearization

/-! ## Numbers that are given out once -/

/-- The call takes a number. -/
def Call.takesNumber : Call T → Bool
  | .incrementAndGet => true
  | _ => false

/-- The threads take numbers or read the integer. -/
def OnlyNumbers (label : ι × Action T) (_ : State ι T) : Prop :=
  match label.2 with
  | .builtin call => call = .incrementAndGet ∨ call = .get
  | .return_ => True

instance (label : ι × Action T) (s : State ι T) : Decidable (OnlyNumbers label s) := by
  unfold OnlyNumbers
  split <;> infer_instance

/-- The number that a call took. -/
def number (call : Call T) (ret : Ret T) : Option Nat :=
  match call, ret with
  | .incrementAndGet, .value v => some v.toNat
  | _, _ => none

/-- The numbers of a history. -/
def numbers (log : List (Entry ι (Call T) (Ret T))) : List Nat :=
  log.filterMap fun entry => number entry.call entry.ret

/-- The numbers that a thread took. -/
def numbersOf [DecidableEq ι] (t : ι) (log : List (Entry ι (Call T) (Ret T))) : List Nat :=
  (results t log).filterMap fun entry => number entry.1 entry.2

/-- How many calls took a number, or tried to. -/
def taken (log : List (Entry ι (Call T) (Ret T))) : Nat :=
  log.countP fun entry => entry.call.takesNumber

theorem max_lt (T : IntType) : T.max < 2 ^ T.width := by
  have positive := Nat.two_pow_pos T.width
  have half := Nat.pow_le_pow_right (show 0 < 2 by decide) (Nat.sub_le T.width 1)
  rw [IntType.max]
  split_ifs
  · omega
  · omega

theorem toInt_ofNat {w n : Nat} (small : 2 * n < 2 ^ w) : (BitVec.ofNat w n).toInt = n := by
  have same : (BitVec.ofNat w n).toNat = n := by
    rw [BitVec.toNat_ofNat]
    exact Nat.mod_eq_of_lt (by omega)
  rw [BitVec.toInt_eq_toNat_of_lt (by rw [same]; exact small), same]

/-- Up to the largest number the language adds one. -/
theorem addAgain_one {n : Nat} (below : n + 1 ≤ T.max) :
    addAgain (BitVec.ofNat T.width n) 1 = .value (BitVec.ofNat T.width (n + 1)) := by
  have sum : BitVec.ofNat T.width n + 1 = BitVec.ofNat T.width (n + 1) :=
    (BitVec.ofNat_add n 1).symm
  have inRange : (T.signed && (BitVec.ofNat T.width n).saddOverflow 1) = false := by
    cases signed : T.signed with
    | false => rfl
    | true =>
        rw [IntType.max, if_pos signed] at below
        obtain ⟨w, width⟩ : ∃ w, T.width = w + 1 := by
          refine Nat.exists_eq_add_one_of_ne_zero fun zero => ?_
          rw [zero] at below
          exact Nat.not_succ_le_zero n below
        rw [width, Nat.add_sub_cancel] at below
        rw [width, Bool.true_and]
        have before : (BitVec.ofNat (w + 1) n).toInt = n := toInt_ofNat (by rw [pow_succ]; omega)
        have one : (1 : BitVec (w + 1)).toInt = 1 :=
          toInt_ofNat (n := 1) (by rw [pow_succ]; omega)
        have bound : ((n + 1 : Nat) : Int) < 2 ^ w := by
          have strict : n + 1 < 2 ^ w := by omega
          exact_mod_cast strict
        simp only [BitVec.saddOverflow, before, one, Nat.add_sub_cancel, Bool.or_eq_false_iff,
          decide_eq_false_iff_not]
        push_cast at bound
        constructor
        · omega
        · omega
  rw [addAgain, IntType.plus, inRange, sum]
  rfl

/-- After the history the integer is `n`, and the numbers from 1 to `n` were given
out in order. -/
structure Numbered (log : List (Entry ι (Call T) (Ret T))) (v : T.Value) (n : Nat) : Prop where
  value : v = BitVec.ofNat T.width n
  given : numbers log = List.range' 1 n
  defined : ∀ entry ∈ log, entry.ret ≠ .undefined

namespace Numbered

variable {log : List (Entry ι (Call T) (Ret T))} {v : T.Value} {n : Nat}

theorem append (numbered : Numbered log v n) {entry : Entry ι (Call T) (Ret T)} {v' : T.Value}
    {n' : Nat} (value : v' = BitVec.ofNat T.width n')
    (given : List.range' 1 n ++ (number entry.call entry.ret).toList = List.range' 1 n')
    (defined : entry.ret ≠ .undefined) : Numbered (log ++ [entry]) v' n' where
  value := value
  given := by
    rw [← given, ← numbered.given, numbers, List.filterMap_append, numbers, List.filterMap_cons,
      List.filterMap_nil]
    cases number entry.call entry.ret <;> rfl
  defined := by
    intro other member
    rcases List.mem_append.mp member with earlier | isLast
    · exact numbered.defined other earlier
    · rwa [List.mem_singleton.mp isLast]

theorem take (numbered : Numbered log v n) (below : n + 1 ≤ T.max) (t : ι) :
    Numbered (log ++ [⟨t, .incrementAndGet, Call.incrementAndGet.ret v⟩]) (v + 1) (n + 1) := by
  have last : Call.incrementAndGet.ret v = .value (BitVec.ofNat T.width (n + 1)) := by
    rw [numbered.value]
    exact addAgain_one below
  refine numbered.append ?_ ?_ ?_
  · rw [numbered.value]
    exact (BitVec.ofNat_add n 1).symm
  · rw [last, number, BitVec.toNat_ofNat, Nat.mod_eq_of_lt (below.trans_lt (max_lt T)),
      List.range'_1_concat, Nat.add_comm 1 n]
    rfl
  · rw [last]
    simp

theorem read (numbered : Numbered log v n) (t : ι) :
    Numbered (log ++ [⟨t, .get, .value v⟩]) v n :=
  numbered.append numbered.value (List.append_nil _) (by simp)

/-- A history of calls that take numbers or read, with no more of the first than
there are numbers. -/
theorem of_legal (legal : Legal (counter T) log v)
    (only : ∀ entry ∈ log, entry.call = .incrementAndGet ∨ entry.call = .get)
    (few : taken log ≤ T.max) : Numbered log v (taken log) := by
  induction legal with
  | nil => exact ⟨rfl, rfl, fun entry member => (by cases member)⟩
  | @snoc log v v' entry before applied ih =>
      obtain ⟨t, call, ret⟩ := entry
      obtain ⟨rfl, rfl⟩ : call.ret v = ret ∧ call.builtin.store v = v' :=
        Prod.mk.inj (Option.some.inj applied)
      have earlier := fun other member => only other (List.mem_append_left _ member)
      rw [taken, List.countP_append, List.countP_singleton] at few ⊢
      rcases only _ (List.mem_append_right _ List.mem_cons_self) with takes | reads
      · obtain rfl : call = .incrementAndGet := takes
        exact (ih earlier (Nat.le_of_succ_le few)).take few t
      · obtain rfl : call = .get := reads
        have same : (Call.get : Call T).builtin.store v = v := by
          show (if v = 0 then 0 else v) = v
          split_ifs with zero
          · exact zero.symm
          · rfl
        rw [same]
        exact (ih earlier few).read t

end Numbered

/-- The calls that took effect took numbers or read the integer. -/
def Modest (s : State ι T) : Prop :=
  ∀ entry ∈ s.log, entry.call = .incrementAndGet ∨ entry.call = .get

section Threads

variable [DecidableEq ι]

theorem Modest.step {s s' : State ι T} {label : ι × Action T} (modest : Modest s)
    (admitted : OnlyNumbers label s) (stepped : step label s = some s') : Modest s' := by
  obtain ⟨t, action⟩ := label
  cases action with
  | builtin call =>
      cases at_ : s.pc t with
      | idle =>
          simp only [AtomicIntegerT.step, at_, Option.some.injEq] at stepped
          subst stepped
          intro entry member
          rcases List.mem_append.mp member with earlier | isLast
          · exact modest entry earlier
          · rw [List.mem_singleton.mp isLast]
            exact admitted
      | performed other old => simp only [AtomicIntegerT.step, at_, reduceCtorEq] at stepped
  | return_ =>
      cases at_ : s.pc t with
      | idle => simp only [AtomicIntegerT.step, at_, reduceCtorEq] at stepped
      | performed call old =>
          simp only [AtomicIntegerT.step, at_] at stepped
          split_ifs at stepped with undefined
          obtain rfl := Option.some.inj stepped
          exact modest

theorem numbersOf_eq (t : ι) (log : List (Entry ι (Call T) (Ret T))) :
    numbersOf t log = numbers (log.filter fun entry => entry.who = t) := by
  induction log with
  | nil => rfl
  | cons entry log ih =>
      rw [numbersOf, results, List.filterMap_cons, List.filter_cons]
      rw [numbersOf, results] at ih
      by_cases own : entry.who = t
      · simp only [own, if_true, decide_true, numbers, List.filterMap_cons, ih]
      · simp only [own, if_false, decide_false, ih, Bool.false_eq_true]

/-- What has returned to a thread is the front of what took effect. -/
theorem numbersOf_returned {s : State ι T} (linearized : Linearized s) (t : ι) :
    numbersOf t s.returned <+: numbersOf t s.log := by
  rw [numbersOf, numbersOf, linearized.seen t, List.filterMap_append]
  exact List.prefix_append _ _

/-- Two calls have different numbers. -/
def NoCommonNumber (one other : Entry ι (Call T) (Ret T)) : Prop :=
  ∀ k, number one.call one.ret = some k → number other.call other.ret ≠ some k

instance : Std.Symm (NoCommonNumber (ι := ι) (T := T)) where
  symm := fun _ _ distinct k second first => distinct k first second

/-- No two threads have a number in common. -/
theorem eq_of_number {log : List (Entry ι (Call T) (Ret T))}
    (increasing : (numbers log).Pairwise (· < ·)) {t u : ι} {k : Nat}
    (first : k ∈ numbersOf t log) (second : k ∈ numbersOf u log) : t = u := by
  rw [numbersOf_eq, numbers, List.mem_filterMap] at first second
  obtain ⟨one, isOne, hasOne⟩ := first
  obtain ⟨other, isOther, hasOther⟩ := second
  obtain ⟨inLog, own⟩ := List.mem_filter.mp isOne
  obtain ⟨inLog', own'⟩ := List.mem_filter.mp isOther
  have distinct : log.Pairwise NoCommonNumber := by
    refine (List.pairwise_filterMap.mp increasing).imp ?_
    intro one other less k hasOne hasOther
    exact lt_irrefl k (less k hasOne k hasOther)
  by_cases same : one = other
  · rw [← of_decide_eq_true own, ← of_decide_eq_true own', same]
  · exact absurd hasOther (distinct.forall inLog inLog' same k hasOne)

/-- **Every number is given out once.**  Any number of threads take numbers with
`increment_and_get`, and read the integer, in any order; the calls so far are no
more than the largest number of the type. Then the calls got 1, 2, 3 and so on in
the order of their builtins, no sum was undefined, the numbers that a thread has
got increase, and no two threads have got the same one. -/
theorem tickets_are_distinct {s : State ι T}
    (reachable : Reachable step OnlyNumbers (State.initial ι T) s) (few : taken s.log ≤ T.max) :
    numbers s.log = List.range' 1 (taken s.log) ∧
      (∀ t call old, s.pc t = .performed call old → call.ret old ≠ .undefined) ∧
      (∀ t, (numbersOf t s.returned).Pairwise (· < ·)) ∧
      ∀ t u, t ≠ u → (numbersOf t s.returned).Disjoint (numbersOf u s.returned) := by
  have linearized := calls_linearize reachable
  have modest : Modest s := reachable.invariant (fun entry member => (by cases member))
    fun _ _ _ modest admitted stepped => modest.step admitted stepped
  have numbered := Numbered.of_legal linearized.legal modest few
  have increasing : (numbers s.log).Pairwise (· < ·) := by
    rw [numbered.given]
    exact List.pairwise_lt_range'
  refine ⟨numbered.given, ?_, ?_, ?_⟩
  · intro t call old at_
    -- the call is the last one of its thread in the history
    have last : (call, call.ret old) ∈ results t s.log := by
      rw [linearized.seen t, at_]
      exact List.mem_append_right _ List.mem_cons_self
    obtain ⟨entry, member, isEntry⟩ := List.mem_filterMap.mp last
    split_ifs at isEntry with own
    obtain ⟨-, isRet⟩ := Prod.mk.inj (Option.some.inj isEntry)
    rw [← isRet]
    exact numbered.defined entry member
  · intro t
    have all : (numbersOf t s.log).Pairwise (· < ·) := by
      rw [numbersOf_eq]
      exact increasing.sublist (List.filter_sublist.filterMap _)
    exact all.sublist (numbersOf_returned linearized t).sublist
  · intro t u different k first second
    exact different (eq_of_number increasing ((numbersOf_returned linearized t).subset first)
      ((numbersOf_returned linearized u).subset second))

/-- Two threads take a number each, and the one that came second returns first. -/
def crossing : List (Bool × Action int32) :=
  [(false, .builtin .incrementAndGet), (true, .builtin .incrementAndGet), (true, .return_),
    (true, .builtin .get), (false, .return_)]

theorem tickets_are_distinct_crossing :
    ∃ s, execute step crossing (State.initial Bool int32) = some s ∧
      numbersOf false s.returned = [1] ∧ numbersOf true s.returned = [2] ∧
      ∀ t u, t ≠ u → (numbersOf t s.returned).Disjoint (numbersOf u s.returned) := by
  have observed : (execute step crossing (State.initial Bool int32)).map
      (fun s => (taken s.log, numbersOf false s.returned, numbersOf true s.returned)) =
        some (2, [1], [2]) := by decide
  obtain ⟨s, executed, reachable, same⟩ :=
    Reachable.exists_of_execute OnlyNumbers observed (by decide)
  obtain ⟨count, first, second⟩ : taken s.log = 2 ∧ numbersOf false s.returned = [1] ∧
      numbersOf true s.returned = [2] := by simpa using same
  have few : taken s.log ≤ int32.max := by
    rw [count]
    decide
  exact ⟨s, executed, first, second, (tickets_are_distinct reachable few).2.2.2⟩

end Threads

/-! ## At the largest number -/

/-- `increment()` is undefined exactly at the largest number of a signed type, where
`add(1)` wraps around. -/
theorem increment_undefined_iff (wide : 2 ≤ T.width) (v : T.Value) :
    (Call.increment : Call T).ret v = .undefined ↔ T.signed = true ∧ v.toNat = T.max := by
  obtain ⟨w, width⟩ : ∃ w, T.width = w + 1 := Nat.exists_eq_add_one_of_ne_zero (by omega)
  have one : (1 : T.Value).toInt = 1 := by
    refine toInt_ofNat (n := 1) ?_
    exact Nat.lt_of_lt_of_le (by decide) (Nat.pow_le_pow_right (by decide) wide)
  have dropped : (Call.increment : Call T).ret v = .undefined ↔ T.plus v 1 = none := by
    show (addAgain v 1).drop = .undefined ↔ _
    rw [addAgain]
    cases T.plus v 1 with
    | none => exact iff_of_true rfl rfl
    | some sum => exact iff_of_false (by simp [Ret.drop]) (by simp)
  have overflows : v.saddOverflow 1 = true ↔ v.toNat = 2 ^ w - 1 := by
    have half : 2 ^ T.width = 2 * 2 ^ w := by rw [width, pow_succ, Nat.mul_comm]
    have cast : ((2 ^ w : Nat) : Int) = 2 ^ w := by push_cast; rfl
    have below := v.isLt
    have positive := Nat.two_pow_pos w
    have value := BitVec.toInt_eq_toNat_cond v
    simp only [BitVec.saddOverflow, one, width, Nat.add_sub_cancel, Bool.or_eq_true,
      decide_eq_true_eq, ← cast]
    rw [half] at value below
    push_cast at value
    split_ifs at value <;> omega
  rw [dropped, IntType.plus, IntType.max]
  cases signed : T.signed with
  | false => simp
  | true =>
      have exponent : T.width - 1 = w := by omega
      rw [Bool.true_and, ite_eq_left_iff, if_pos rfl, exponent, ← overflows]
      simp

end AirNet.Base.AtomicIntegerT
