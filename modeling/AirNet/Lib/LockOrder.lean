import Mathlib.Data.Set.Finite.Lemmas
import Mathlib.Tactic

/-!
# Waiting in an order

Threads own resources and wait for others. A deadlock is a set of threads each
of which waits for a resource of a thread of the set. Where the resources are
ordered and a thread waits only for a resource above all it owns, the resources
waited for get larger along the chain of owners; so among finitely many waiting
threads there is no deadlock (`not_deadlock`).
-/

set_option autoImplicit false

namespace AirNet.Lib

variable {ι M : Type}

/-- Every thread of the set waits for a resource of a thread of the set. -/
def Deadlock (owner : M → Option ι) (waits : ι → M → Prop) (threads : Set ι) : Prop :=
  threads.Nonempty ∧ ∀ t ∈ threads, ∃ m, waits t m ∧ ∃ u ∈ threads, owner m = some u

/-- **No deadlock in an order.** -/
theorem not_deadlock [LinearOrder M] {owner : M → Option ι} {waits : ι → M → Prop}
    (ordered : ∀ t m m', owner m = some t → waits t m' → m < m')
    (finite : {t | ∃ m, waits t m}.Finite) (threads : Set ι) :
    ¬ Deadlock owner waits threads := by
  rintro ⟨⟨someone, member⟩, blocked⟩
  obtain ⟨largest, -⟩ := blocked someone member
  have : Inhabited M := ⟨largest⟩
  choose! resource waiting owning using blocked
  have waitsFinite : threads.Finite :=
    finite.subset fun t member => ⟨resource t, waiting t member⟩
  -- the thread that waits for the largest resource
  obtain ⟨last, lastMember, maximal⟩ :=
    Set.exists_max_image threads resource waitsFinite ⟨someone, member⟩
  obtain ⟨u, uMember, owned⟩ := owning last lastMember
  have larger := ordered u (resource last) (resource u) owned (waiting u uMember)
  exact absurd (maximal u uMember) (not_le_of_gt larger)

end AirNet.Lib
