import AirNet.Cpp.Memory

/-!
# The Adler-32 checksum

The checksum keeps two sums modulo 65521, the largest prime below `2^16`: the
sum of the bytes, and the sum of the intermediate values of the first. The
starting value packs both sums, so that a checksum can be continued.

A byte changes the first sum by less than the modulus, so two strings that
differ in one byte have different checksums (`adler32_ne_of_changed`).
-/

set_option autoImplicit false

namespace AirNet.Cpp

/-- The modulus of both sums. -/
def adlerBase : Nat := 65521

/-- The two sums after the bytes. -/
def adlerSums : Nat × Nat → Bytes → Nat × Nat
  | sums, [] => sums
  | (a, b), byte :: bytes =>
      let a := (a + byte.toNat) % adlerBase
      adlerSums (a, (b + a) % adlerBase) bytes

/-- `adler32(adler, buf, len)`: continue the checksum with the bytes. -/
def adler32 (adler : Nat) (bytes : Bytes) : Nat :=
  let sums := adlerSums (adler % 2 ^ 16, adler / 2 ^ 16 % 2 ^ 16) bytes
  sums.2 * 2 ^ 16 + sums.1

theorem adlerSums_fst_mod (sums : Nat × Nat) (bytes : Bytes) :
    (adlerSums sums bytes).1 % adlerBase =
      (sums.1 + (bytes.map UInt8.toNat).sum) % adlerBase := by
  induction bytes generalizing sums with
  | nil => rfl
  | cons byte bytes ih =>
      rw [adlerSums, ih, List.map_cons, List.sum_cons, Nat.mod_add_mod, Nat.add_assoc]

theorem adlerSums_fst_lt {sums : Nat × Nat} (bytes : Bytes) (reduced : sums.1 < adlerBase) :
    (adlerSums sums bytes).1 < adlerBase := by
  induction bytes generalizing sums with
  | nil => exact reduced
  | cons byte bytes ih => exact ih (Nat.mod_lt _ (by decide))

/-- The lower half of the checksum is the sum of the bytes. -/
theorem adler32_one_mod (bytes : Bytes) :
    adler32 1 bytes % 2 ^ 16 = (1 + (bytes.map UInt8.toNat).sum) % adlerBase := by
  have reduced : (adlerSums (1, 0) bytes).1 < adlerBase := adlerSums_fst_lt bytes (by decide)
  have small : (adlerSums (1, 0) bytes).1 < 2 ^ 16 := reduced.trans (by decide)
  have sum := adlerSums_fst_mod (1, 0) bytes
  rw [Nat.mod_eq_of_lt reduced] at sum
  rw [← sum]
  exact (Nat.mul_add_mod_self_right _ _ _).trans (Nat.mod_eq_of_lt small)

/-- **One changed byte changes the checksum.** -/
theorem adler32_ne_of_changed (before after : Bytes) {old new : UInt8} (changed : new ≠ old) :
    adler32 1 (before ++ new :: after) % 2 ^ 32 ≠ adler32 1 (before ++ old :: after) % 2 ^ 32 := by
  intro same
  have lower := congrArg (· % 2 ^ 16) same
  have divides : 2 ^ 16 ∣ 2 ^ 32 := by decide
  simp only [Nat.mod_mod_of_dvd _ divides, adler32_one_mod, List.map_append, List.map_cons,
    List.sum_append, List.sum_cons, adlerBase] at lower
  have differ : new.toNat ≠ old.toNat := fun equal => changed (UInt8.toNat_inj.mp equal)
  have newSmall := new.toNat_lt
  have oldSmall := old.toNat_lt
  omega

-- the checksum of "Wikipedia"
example : adler32 1 [87, 105, 107, 105, 112, 101, 100, 105, 97] = 0x11E60398 := by decide

end AirNet.Cpp
