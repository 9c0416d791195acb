import Mathlib.Tactic

/-!
# Interleaved transitions

A system takes labelled steps; a label names the thread and what it does. A
step that is not enabled gives nothing. Runs are restricted by a guard on the
label and the state before the step, so the same system can be studied under
what its callers promise and under stronger conditions.

An invariant that the initial state satisfies and every guarded step keeps
holds in every reachable state (`Reachable.invariant`). A system whose steps
are, through an abstraction, steps of another or no steps at all reaches only
states whose abstractions the other reaches (`Reachable.simulates`). A run whose
steps lower a measure is no longer than the measure was (`length_le_of_execute`);
where only some steps lower it, a run with enough of them reaches its goal
(`countP_le_of_execute`).

Threads are indexed by a finite type. A quantity summed over the threads
changes at a step by the difference at the thread that moves
(`sum_update_add`).
-/

set_option autoImplicit false

namespace AirNet.Lib

variable {Label State : Type}

/-- A step of some label that the guard admits. -/
def Transition (step : Label → State → Option State) (guard : Label → State → Prop)
    (s s' : State) : Prop :=
  ∃ label, guard label s ∧ step label s = some s'

/-- The states reached by guarded steps. -/
abbrev Reachable (step : Label → State → Option State) (guard : Label → State → Prop)
    (initial s : State) : Prop :=
  Relation.ReflTransGen (Transition step guard) initial s

/-- Execute the labels in order. -/
def execute (step : Label → State → Option State) : List Label → State → Option State
  | [], s => some s
  | label :: labels, s => (step label s).bind (execute step labels)

/-- Every label is admitted in the state where it is executed. -/
def Guarded (step : Label → State → Option State) (guard : Label → State → Prop) :
    List Label → State → Prop
  | [], _ => True
  | label :: labels, s =>
      guard label s ∧ ∀ s' ∈ step label s, Guarded step guard labels s'

instance Guarded.decidable (step : Label → State → Option State)
    (guard : Label → State → Prop) [∀ label s, Decidable (guard label s)] :
    ∀ labels s, Decidable (Guarded step guard labels s)
  | [], _ => inferInstanceAs (Decidable True)
  | label :: labels, s =>
      have (s' : State) : Decidable (Guarded step guard labels s') :=
        Guarded.decidable step guard labels s'
      inferInstanceAs (Decidable (guard label s ∧ ∀ s' ∈ step label s,
        Guarded step guard labels s'))

/-- A guard that admits everything admits every execution. -/
theorem Guarded.of_forall {step : Label → State → Option State} {guard : Label → State → Prop}
    (all : ∀ label s, guard label s) (labels : List Label) (s : State) :
    Guarded step guard labels s := by
  induction labels generalizing s with
  | nil => trivial
  | cons label labels ih => exact ⟨all label s, fun s' _ => ih s'⟩

namespace Reachable

variable {step : Label → State → Option State} {guard : Label → State → Prop}
  {initial s : State}

/-- **Invariants.**  What holds initially and is kept by every guarded step
holds in every reachable state. -/
theorem invariant {Inv : State → Prop} (reachable : Reachable step guard initial s)
    (start : Inv initial)
    (keeps : ∀ label s s', Inv s → guard label s → step label s = some s' → Inv s') :
    Inv s := by
  induction reachable with
  | refl => exact start
  | tail _ transition ih =>
      obtain ⟨label, admitted, stepped⟩ := transition
      exact keeps label _ _ ih admitted stepped

/-- **Simulation.**  Where every guarded step is, through the abstraction, a
step of another system or no step at all, the other system reaches the
abstraction of every reachable state. -/
theorem simulates {Label' Abstract : Type} {step' : Label' → Abstract → Option Abstract}
    {guard' : Label' → Abstract → Prop} {abstraction : State → Abstract}
    (reachable : Reachable step guard initial s) {Inv : State → Prop} (start : Inv initial)
    (keeps : ∀ label s s', Inv s → guard label s → step label s = some s' → Inv s')
    (mimics : ∀ label s s', Inv s → guard label s → step label s = some s' →
      abstraction s' = abstraction s ∨
        Transition step' guard' (abstraction s) (abstraction s')) :
    Reachable step' guard' (abstraction initial) (abstraction s) := by
  induction reachable with
  | refl => exact Relation.ReflTransGen.refl
  | tail before transition ih =>
      obtain ⟨label, admitted, stepped⟩ := transition
      have inv := Reachable.invariant before start keeps
      rcases mimics label _ _ inv admitted stepped with same | moved
      · rw [same]
        exact ih
      · exact ih.tail moved

/-- Runs under a guard are runs under a weaker one. -/
theorem weaken {guard' : Label → State → Prop} (reachable : Reachable step guard initial s)
    (weaker : ∀ label s, guard label s → guard' label s) : Reachable step guard' initial s := by
  induction reachable with
  | refl => exact .refl
  | tail _ transition ih =>
      obtain ⟨label, admitted, stepped⟩ := transition
      exact ih.tail ⟨label, weaker label _ admitted, stepped⟩

/-- The state at the end of a guarded execution is reachable. -/
theorem of_execute {labels : List Label} (executed : execute step labels initial = some s)
    (guarded : Guarded step guard labels initial) : Reachable step guard initial s := by
  induction labels generalizing initial with
  | nil =>
      obtain rfl : initial = s := Option.some.inj executed
      exact Relation.ReflTransGen.refl
  | cons label labels ih =>
      obtain ⟨middle, first, rest⟩ := Option.bind_eq_some_iff.mp executed
      exact Relation.ReflTransGen.head ⟨label, guarded.1, first⟩
        (ih rest (guarded.2 middle first))

/-- A guarded execution with a known outcome ends in a reachable state with
that outcome. -/
theorem exists_of_execute {Outcome : Type} (guard : Label → State → Prop)
    {labels : List Label} {observe : State → Outcome} {outcome : Outcome}
    (observed : (execute step labels initial).map observe = some outcome)
    (guarded : Guarded step guard labels initial) :
    ∃ s, execute step labels initial = some s ∧ Reachable step guard initial s ∧
      observe s = outcome := by
  obtain ⟨s, executed, same⟩ := Option.map_eq_some_iff.mp observed
  exact ⟨s, executed, of_execute executed guarded, same⟩

end Reachable

/-- **Runs end.**  Where every admitted step lowers a measure, a run is no longer
than the measure was in the beginning. -/
theorem length_le_of_execute {step : Label → State → Option State}
    {guard : Label → State → Prop} {measure : State → Nat}
    (falls : ∀ label s s', guard label s → step label s = some s' → measure s' < measure s)
    {labels : List Label} {s s' : State} (guarded : Guarded step guard labels s)
    (executed : execute step labels s = some s') : labels.length + measure s' ≤ measure s := by
  induction labels generalizing s with
  | nil =>
      obtain rfl : s = s' := Option.some.inj executed
      rw [List.length_nil, Nat.zero_add]
  | cons label labels ih =>
      obtain ⟨middle, first, rest⟩ := Option.bind_eq_some_iff.mp executed
      have lower := falls label s middle guarded.1 first
      have onwards := ih (guarded.2 middle first) rest
      rw [List.length_cons]
      omega

/-- **Goals are reached.**  Where no admitted step raises a measure and those that are
counted lower it, as long as a goal is not reached, a run reaches the goal or has no more
of them than the measure was in the beginning. -/
theorem countP_le_of_execute {step : Label → State → Option State}
    {guard : Label → State → Prop} {Inv : State → Prop} (Goal : State → Prop)
    (measure : State → Nat) (counted : Label → Bool)
    (keeps : ∀ label s s', Inv s → guard label s → step label s = some s' → Inv s')
    (stays : ∀ label s s', Goal s → step label s = some s' → Goal s')
    (falls : ∀ label s s', Inv s → ¬ Goal s → guard label s → step label s = some s' →
      measure s' + (if counted label = true then 1 else 0) ≤ measure s)
    {labels : List Label} {s s' : State} (inv : Inv s) (guarded : Guarded step guard labels s)
    (executed : execute step labels s = some s') :
    Inv s' ∧ (Goal s' ∨ labels.countP counted + measure s' ≤ measure s) := by
  induction labels generalizing s with
  | nil =>
      obtain rfl : s = s' := Option.some.inj executed
      exact ⟨inv, .inr (by rw [List.countP_nil, Nat.zero_add])⟩
  | cons label labels ih =>
      obtain ⟨middle, first, rest⟩ := Option.bind_eq_some_iff.mp executed
      have reached (goal : Goal middle) : Goal s' := by
        have onwards : Reachable step (fun _ _ => True) middle s' :=
          Reachable.of_execute rest (Guarded.of_forall (fun _ _ => trivial) _ _)
        exact onwards.invariant goal fun label before after goal _ stepped =>
          stays label before after goal stepped
      obtain ⟨inv', onwards⟩ := ih (keeps label s middle inv guarded.1 first)
        (guarded.2 middle first) rest
      refine ⟨inv', ?_⟩
      by_cases goal : Goal s
      · exact .inl (reached (stays label s middle goal first))
      · refine onwards.imp_right fun few => ?_
        have lower := falls label s middle inv goal guarded.1 first
        rw [List.countP_cons]
        omega

/-- **Refinement of runs.**  Where every admitted step of a system is taken, without failing,
by an implementation that is related to it, the implementation takes every run. -/
theorem foldlM_of_execute {Concrete ε : Type} {step : Label → State → Option State}
    {guard : Label → State → Prop} {perform : Concrete → Label → Except ε Concrete}
    {Refines : State → Concrete → Prop}
    (takes : ∀ label s s' c, Refines s c → guard label s → step label s = some s' →
      ∃ c', perform c label = .ok c' ∧ Refines s' c')
    {labels : List Label} {s s' : State} {c : Concrete} (refines : Refines s c)
    (guarded : Guarded step guard labels s) (executed : execute step labels s = some s') :
    ∃ c', labels.foldlM perform c = .ok c' ∧ Refines s' c' := by
  induction labels generalizing s c with
  | nil =>
      obtain rfl : s = s' := Option.some.inj executed
      exact ⟨c, rfl, refines⟩
  | cons label labels ih =>
      obtain ⟨middle, first, rest⟩ := Option.bind_eq_some_iff.mp executed
      obtain ⟨c', taken, refines'⟩ := takes label s middle c refines guarded.1 first
      obtain ⟨c'', returned, refines''⟩ := ih refines' (guarded.2 middle first) rest
      refine ⟨c'', ?_, refines''⟩
      rw [List.foldlM_cons, taken]
      exact returned

/-! ## Sums over threads -/

/-- The sum over the threads after one of them moved. -/
theorem sum_update_add {ι α M : Type} [Fintype ι] [DecidableEq ι] [AddCommMonoid M]
    (f : α → M) (pc : ι → α) (t : ι) (a : α) :
    ∑ u, f (Function.update pc t a u) + f (pc t) = ∑ u, f (pc u) + f a := by
  rw [← Finset.add_sum_erase _ _ (Finset.mem_univ t),
    ← Finset.add_sum_erase _ (fun u => f (pc u)) (Finset.mem_univ t), Function.update_self]
  have others : ∑ u ∈ Finset.univ.erase t, f (Function.update pc t a u) =
      ∑ u ∈ Finset.univ.erase t, f (pc u) := by
    refine Finset.sum_congr rfl fun u member => ?_
    rw [Function.update_of_ne (Finset.ne_of_mem_erase member)]
  rw [others]
  abel

end AirNet.Lib
