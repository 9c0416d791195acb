import AirNet.Cpp.Adler32
import AirNet.Lib.Distance

/-!
# How many changes the Adler-32 checksum notices

The second sum weighs each byte with its distance from the end
(`adlerSums_snd_mod`). The modulus is a prime, so for less than 65521 bytes one
changed byte changes both sums, and two changed bytes that leave the first sum
alone change the second. Bytes that carry their checksum are therefore a code of
distance three: two different strings of one length differ, together with their
checksums, in at least three bytes (`adler32_distance`).

More cannot be said. Three bytes in a row may be changed so that both sums stay
(`adler32_eq_of_three_changes`), and two bytes 65521 apart may be exchanged
(`adler32_eq_of_exchange`).
-/

set_option autoImplicit false

namespace AirNet.Cpp

open AirNet.Lib

/-! ## The second sum -/

/-- The sum of the bytes, each as often as there are bytes from it to the end. -/
def weightedSum : Bytes → Nat
  | [] => 0
  | byte :: bytes => (bytes.length + 1) * byte.toNat + weightedSum bytes

def byteSum (bytes : Bytes) : Nat := (bytes.map UInt8.toNat).sum

@[simp] theorem byteSum_cons (byte : UInt8) (bytes : Bytes) :
    byteSum (byte :: bytes) = byte.toNat + byteSum bytes :=
  List.sum_cons

@[simp] theorem byteSum_append (front back : Bytes) :
    byteSum (front ++ back) = byteSum front + byteSum back := by
  rw [byteSum, List.map_append, List.sum_append]
  rfl

@[simp] theorem weightedSum_append (front back : Bytes) :
    weightedSum (front ++ back) =
      weightedSum front + back.length * byteSum front + weightedSum back := by
  induction front with
  | nil => simp [weightedSum, byteSum]
  | cons byte front ih =>
      simp only [List.cons_append, weightedSum, ih, List.length_append, byteSum_cons]
      ring

theorem adlerSums_snd_mod (sums : Nat × Nat) (bytes : Bytes) :
    (adlerSums sums bytes).2 % adlerBase =
      (sums.2 + bytes.length * sums.1 + weightedSum bytes) % adlerBase := by
  induction bytes generalizing sums with
  | nil => simp [adlerSums, weightedSum]
  | cons byte bytes ih =>
      rw [adlerSums, ih]
      have first : (sums.1 + byte.toNat) % adlerBase ≡ sums.1 + byte.toNat [MOD adlerBase] :=
        Nat.mod_modEq _ _
      have second : (sums.2 + (sums.1 + byte.toNat) % adlerBase) % adlerBase ≡
          sums.2 + (sums.1 + byte.toNat) [MOD adlerBase] :=
        (Nat.mod_modEq _ _).trans (first.add_left _)
      have both := (second.add (first.mul_left bytes.length)).add_right (weightedSum bytes)
      refine both.trans (congrArg (· % adlerBase) ?_)
      simp only [List.length_cons, weightedSum]
      ring

theorem adlerSums_snd_lt {sums : Nat × Nat} (bytes : Bytes) (reduced : sums.2 < adlerBase) :
    (adlerSums sums bytes).2 < adlerBase := by
  induction bytes generalizing sums with
  | nil => exact reduced
  | cons byte bytes ih => exact ih (Nat.mod_lt _ (by decide))

theorem adler32_one_eq (bytes : Bytes) :
    adler32 1 bytes = (adlerSums (1, 0) bytes).2 * 2 ^ 16 + (adlerSums (1, 0) bytes).1 :=
  rfl

theorem adlerSums_fst_eq_iff {xs ys : Bytes} :
    (adlerSums (1, 0) xs).1 = (adlerSums (1, 0) ys).1 ↔
      (adlerBase : ℤ) ∣ byteSum ys - byteSum xs := by
  have xsSum := adlerSums_fst_mod (1, 0) xs
  have ysSum := adlerSums_fst_mod (1, 0) ys
  rw [Nat.mod_eq_of_lt (adlerSums_fst_lt _ (by decide))] at xsSum ysSum
  rw [xsSum, ysSum]
  have divides := Nat.modEq_iff_dvd (n := adlerBase) (a := 1 + byteSum xs) (b := 1 + byteSum ys)
  rw [Nat.cast_add, Nat.cast_add, add_sub_add_left_eq_sub] at divides
  exact divides

theorem adlerSums_snd_eq_iff {xs ys : Bytes} (length : xs.length = ys.length) :
    (adlerSums (1, 0) xs).2 = (adlerSums (1, 0) ys).2 ↔
      (adlerBase : ℤ) ∣ weightedSum ys - weightedSum xs := by
  have xsSum := adlerSums_snd_mod (1, 0) xs
  have ysSum := adlerSums_snd_mod (1, 0) ys
  rw [Nat.mod_eq_of_lt (adlerSums_snd_lt _ (by decide))] at xsSum ysSum
  rw [xsSum, ysSum, length]
  have divides := Nat.modEq_iff_dvd (n := adlerBase)
    (a := 0 + ys.length * 1 + weightedSum xs) (b := 0 + ys.length * 1 + weightedSum ys)
  rw [Nat.cast_add, Nat.cast_add _ (weightedSum xs), add_sub_add_left_eq_sub] at divides
  exact divides

/-! ## One change and two changes -/

theorem prime_adlerBase : Prime (adlerBase : ℤ) := by
  rw [← Nat.prime_iff_prime_int]
  norm_num [adlerBase]

/-- A multiple of the difference of two bytes is no multiple of the modulus. -/
theorem not_dvd_mul_sub {weight : Nat} {old new : UInt8} (changed : old ≠ new)
    (positive : 0 < weight) (small : weight < adlerBase) :
    ¬ (adlerBase : ℤ) ∣ weight * ((new.toNat : ℤ) - old.toNat) := by
  intro divides
  have differ : new.toNat ≠ old.toNat := fun equal => changed (UInt8.toNat_inj.mp equal.symm)
  have newSmall := new.toNat_lt
  have oldSmall := old.toNat_lt
  rcases prime_adlerBase.dvd_or_dvd divides with inWeight | inChange
  · have := Nat.le_of_dvd positive (Int.natCast_dvd_natCast.mp inWeight)
    omega
  · have := Int.eq_zero_of_abs_lt_dvd inChange (by rw [abs_lt, adlerBase]; omega)
    omega

variable {old new : UInt8}

/-- One changed byte changes both sums. -/
theorem adlerSums_ne_of_change (before after : Bytes) (changed : old ≠ new)
    (short : after.length + 1 < adlerBase) :
    (adlerSums (1, 0) (before ++ old :: after)).1 ≠
        (adlerSums (1, 0) (before ++ new :: after)).1 ∧
      (adlerSums (1, 0) (before ++ old :: after)).2 ≠
        (adlerSums (1, 0) (before ++ new :: after)).2 := by
  constructor
  · rw [Ne, adlerSums_fst_eq_iff]
    have difference : (byteSum (before ++ new :: after) : ℤ) - byteSum (before ++ old :: after) =
        (1 : ℕ) * ((new.toNat : ℤ) - old.toNat) := by
      simp only [byteSum_append, byteSum_cons]
      push_cast
      ring
    rw [difference]
    exact not_dvd_mul_sub changed (by decide) (by decide)
  · rw [Ne, adlerSums_snd_eq_iff (by simp)]
    have difference : (weightedSum (before ++ new :: after) : ℤ) -
        weightedSum (before ++ old :: after) =
        (after.length + 1 : ℕ) * ((new.toNat : ℤ) - old.toNat) := by
      simp only [weightedSum_append, weightedSum, List.length_cons]
      push_cast
      ring
    rw [difference]
    exact not_dvd_mul_sub changed (Nat.succ_pos _) short

/-- Two changed bytes change one of the sums. -/
theorem adlerSums_ne_of_two_changes (before middle after : Bytes) (old' new' : UInt8)
    (changed : old ≠ new) (short : middle.length + 1 < adlerBase) :
    (adlerSums (1, 0) (before ++ old :: (middle ++ old' :: after))).1 ≠
        (adlerSums (1, 0) (before ++ new :: (middle ++ new' :: after))).1 ∨
      (adlerSums (1, 0) (before ++ old :: (middle ++ old' :: after))).2 ≠
        (adlerSums (1, 0) (before ++ new :: (middle ++ new' :: after))).2 := by
  by_contra both
  rw [not_or, not_not, not_not, adlerSums_fst_eq_iff, adlerSums_snd_eq_iff (by simp)] at both
  obtain ⟨first, second⟩ := both
  -- the changes cancel in the first sum
  have opposite : (new'.toNat : ℤ) - old'.toNat = old.toNat - new.toNat := by
    have difference : (byteSum (before ++ new :: (middle ++ new' :: after)) : ℤ) -
        byteSum (before ++ old :: (middle ++ old' :: after)) =
        new.toNat - old.toNat + (new'.toNat - old'.toNat) := by
      simp only [byteSum_append, byteSum_cons]
      push_cast
      ring
    rw [difference] at first
    have bounds := And.intro (And.intro old.toNat_lt new.toNat_lt)
      (And.intro old'.toNat_lt new'.toNat_lt)
    have := Int.eq_zero_of_abs_lt_dvd first (by rw [abs_lt, adlerBase]; omega)
    omega
  -- in the second their distance remains
  have difference : (weightedSum (before ++ new :: (middle ++ new' :: after)) : ℤ) -
      weightedSum (before ++ old :: (middle ++ old' :: after)) =
      (middle.length + 1 : ℕ) * ((new.toNat : ℤ) - old.toNat) := by
    have isNew : (new'.toNat : ℤ) = old'.toNat + (old.toNat - new.toNat) := by omega
    simp only [weightedSum_append, weightedSum, List.length_cons, List.length_append]
    push_cast
    rw [isNew]
    ring
  rw [difference] at second
  exact not_dvd_mul_sub changed (Nat.succ_pos _) short second

/-- The sums decide the checksum. -/
theorem adler32_eq_of_sums {xs ys : Bytes} (length : xs.length = ys.length)
    (first : (adlerBase : ℤ) ∣ byteSum ys - byteSum xs)
    (second : (adlerBase : ℤ) ∣ weightedSum ys - weightedSum xs) : adler32 1 xs = adler32 1 ys := by
  rw [adler32_one_eq, adler32_one_eq, adlerSums_fst_eq_iff.mpr first,
    (adlerSums_snd_eq_iff length).mpr second]

/-- Three bytes in a row whose changes are a multiple of 1, -2, 1 keep the
checksum. -/
theorem adler32_eq_of_three_changes (before after : Bytes) {x y z x' y' z' : UInt8} {amount : Nat}
    (up : x'.toNat = x.toNat + amount) (down : y.toNat = y'.toNat + 2 * amount)
    (upAgain : z'.toNat = z.toNat + amount) :
    adler32 1 (before ++ x :: y :: z :: after) = adler32 1 (before ++ x' :: y' :: z' :: after) := by
  apply adler32_eq_of_sums
  · simp only [List.length_append, List.length_cons]
  · refine ⟨0, ?_⟩
    simp only [byteSum_append, byteSum_cons, up, down, upAgain]
    push_cast
    ring
  · refine ⟨0, ?_⟩
    simp only [weightedSum_append, weightedSum, List.length_cons, up, down, upAgain]
    push_cast
    ring

/-- Two bytes as far apart as the modulus may be exchanged. -/
theorem adler32_eq_of_exchange (before after : Bytes) {middle : Bytes} (x y : UInt8)
    (far : middle.length + 1 = adlerBase) :
    adler32 1 (before ++ x :: (middle ++ y :: after)) =
      adler32 1 (before ++ y :: (middle ++ x :: after)) := by
  apply adler32_eq_of_sums
  · simp only [List.length_append, List.length_cons]
  · refine ⟨0, ?_⟩
    simp only [byteSum_append, byteSum_cons]
    push_cast
    ring
  · refine ⟨(y.toNat : ℤ) - x.toNat, ?_⟩
    simp only [weightedSum_append, weightedSum, List.length_cons, List.length_append, ← far]
    push_cast
    ring

/-! ## The distance of the code -/

/-- The checksum is written as the second sum and the first. -/
theorem beBytes_adler32 (bytes : Bytes) :
    beBytes 4 (adler32 1 bytes) =
      beBytes 2 (adlerSums (1, 0) bytes).2 ++ beBytes 2 (adlerSums (1, 0) bytes).1 := by
  have small : (adlerSums (1, 0) bytes).1 < 2 ^ 16 :=
    (adlerSums_fst_lt bytes (by decide)).trans (by decide)
  have high : adler32 1 bytes / 256 ^ 2 = (adlerSums (1, 0) bytes).2 := by
    rw [adler32_one_eq]
    omega
  have low : beBytes 2 (adler32 1 bytes) = beBytes 2 (adlerSums (1, 0) bytes).1 := by
    rw [← beBytes_mod, adler32_one_eq, ← beBytes_mod 2 (adlerSums (1, 0) bytes).1]
    congr 1
    omega
  rw [show (4 : ℕ) = 2 + 2 from rfl, beBytes_add, high, low]

theorem distance_beBytes_pos {value value' : Nat} (differ : value ≠ value')
    (small : value < adlerBase) (small' : value' < adlerBase) :
    0 < distance (beBytes 2 value) (beBytes 2 value') := by
  refine distance_pos (by rw [length_beBytes, length_beBytes]) fun same => differ ?_
  have values := congrArg ofBe same
  rw [ofBe_beBytes, ofBe_beBytes] at values
  rw [adlerBase] at small small'
  omega

/-- **The code has distance three.**  Two different strings of one length below
65521 differ, together with their checksums, in at least three bytes. -/
theorem adler32_distance {xs ys : Bytes} (length : xs.length = ys.length)
    (short : xs.length < adlerBase) (differ : xs ≠ ys) :
    3 ≤ distance xs ys + distance (beBytes 4 (adler32 1 xs)) (beBytes 4 (adler32 1 ys)) := by
  have first (bytes : Bytes) : (adlerSums (1, 0) bytes).1 < adlerBase :=
    adlerSums_fst_lt bytes (by decide)
  have second (bytes : Bytes) : (adlerSums (1, 0) bytes).2 < adlerBase :=
    adlerSums_snd_lt bytes (by decide)
  have halves : distance (beBytes 4 (adler32 1 xs)) (beBytes 4 (adler32 1 ys)) =
      distance (beBytes 2 (adlerSums (1, 0) xs).2) (beBytes 2 (adlerSums (1, 0) ys).2) +
        distance (beBytes 2 (adlerSums (1, 0) xs).1) (beBytes 2 (adlerSums (1, 0) ys).1) := by
    rw [beBytes_adler32, beBytes_adler32,
      distance_append (by rw [length_beBytes, length_beBytes])]
  obtain ⟨before, old, new, xs', ys', rfl, rfl, changed, length', count⟩ :=
    exists_first_change length differ
  rw [count, halves]
  by_cases one : xs' = ys'
  · -- both halves of the checksum change
    subst one
    obtain ⟨fstNe, sndNe⟩ := adlerSums_ne_of_change before xs' changed (by
      rw [List.length_append, List.length_cons] at short
      omega)
    have := distance_beBytes_pos fstNe (first _) (first _)
    have := distance_beBytes_pos sndNe (second _) (second _)
    omega
  · obtain ⟨middle, old', new', xs'', ys'', rfl, rfl, changed', length'', count'⟩ :=
      exists_first_change length' one
    rw [count']
    by_cases two : xs'' = ys''
    · subst two
      have either := adlerSums_ne_of_two_changes before middle xs'' old' new' changed (by
        simp only [List.length_append, List.length_cons] at short
        omega)
      rcases either with fstNe | sndNe
      · have := distance_beBytes_pos fstNe (first _) (first _)
        omega
      · have := distance_beBytes_pos sndNe (second _) (second _)
        omega
    · have := distance_pos length'' two
      omega

end AirNet.Cpp
