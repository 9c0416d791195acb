import AirNet.Cpp.Platform

/-!
# Byte regions, copies and the representation of integers

A pointer is modelled by the bytes that can be reached from it onwards, a
vector by the list of its bytes. Reading, writing and moving a pointer outside
the region is a fault.

`std::copy` inside one region copies one byte after the other from the front.
When the destination does not lie behind the source, later reads are not
disturbed by earlier writes, and the copy moves the range as a whole
(`copyForward_range`).

An integer of a given width has a little-endian and a big-endian
representation. Converting to network order and storing the result gives the
big-endian bytes on either kind of host (`objectBytes_hostToNetwork`).
-/

set_option autoImplicit false

namespace AirNet.Cpp

abbrev Bytes := List UInt8

/-! ## Reading and writing through pointers -/

/-- The first `count` bytes at a pointer. -/
def readBytes (pointer : Bytes) (count : Nat) : Except Fault Bytes :=
  if count ≤ pointer.length then .ok (pointer.take count) else .error .outOfBounds

/-- The pointer moved by a signed offset. -/
def advance (pointer : Bytes) (offset : Int) : Except Fault Bytes :=
  if 0 ≤ offset ∧ offset ≤ pointer.length then .ok (pointer.drop offset.toNat)
  else .error .outOfBounds

/-- The region with the bytes written at a position. -/
def overwrite (region : Bytes) (position : Nat) (bytes : Bytes) : Bytes :=
  region.take position ++ bytes ++ region.drop (position + bytes.length)

/-- Write the bytes at a position of the region. -/
def storeBytes (region : Bytes) (position : Nat) (bytes : Bytes) : Except Fault Bytes :=
  if position + bytes.length ≤ region.length then .ok (overwrite region position bytes)
  else .error .outOfBounds

theorem readBytes_of_le {pointer : Bytes} {count : Nat} (le : count ≤ pointer.length) :
    readBytes pointer count = .ok (pointer.take count) :=
  if_pos le

theorem le_of_readBytes {pointer bytes : Bytes} {count : Nat}
    (read : readBytes pointer count = .ok bytes) : count ≤ pointer.length := by
  rw [readBytes] at read
  split_ifs at read with le
  exact le

theorem advance_of_le {pointer : Bytes} {offset : Nat} (le : offset ≤ pointer.length) :
    advance pointer offset = .ok (pointer.drop offset) := by
  simp [advance, le]

theorem storeBytes_of_le {region : Bytes} {position : Nat} {bytes : Bytes}
    (le : position + bytes.length ≤ region.length) :
    storeBytes region position bytes = .ok (overwrite region position bytes) :=
  if_pos le

theorem length_overwrite {region : Bytes} {position : Nat} {bytes : Bytes}
    (le : position + bytes.length ≤ region.length) :
    (overwrite region position bytes).length = region.length := by
  simp only [overwrite, List.length_append, List.length_take, List.length_drop]
  omega

theorem length_of_storeBytes {region written : Bytes} {position : Nat} {bytes : Bytes}
    (stored : storeBytes region position bytes = .ok written) :
    written.length = region.length := by
  rw [storeBytes] at stored
  split_ifs at stored with le
  rw [← Except.ok.inj stored, length_overwrite le]

/-- What lies before the written range is unchanged. -/
theorem take_overwrite {region : Bytes} {position : Nat} (bytes : Bytes)
    (le : position ≤ region.length) :
    (overwrite region position bytes).take position = region.take position := by
  simp [overwrite, List.length_take, Nat.min_eq_left le]

/-- From the position on, the region holds the written bytes and then what lay
behind them. -/
theorem drop_overwrite {region : Bytes} {position : Nat} {bytes : Bytes}
    (le : position ≤ region.length) :
    (overwrite region position bytes).drop position =
      bytes ++ region.drop (position + bytes.length) := by
  have start : (region.take position).length = position := List.length_take_of_le le
  rw [overwrite, List.append_assoc, List.drop_append_of_le_length (le_of_eq start.symm),
    List.drop_of_length_le (le_of_eq start), List.nil_append]

/-! ## Copying inside one region -/

/-- `std::copy` of `count` bytes inside one region: byte by byte, from the
front. -/
def copyForward : (count source destination : Nat) → Bytes → Bytes
  | 0, _, _, region => region
  | count + 1, source, destination, region =>
      copyForward count (source + 1) (destination + 1)
        (region.set destination (region.getD source 0))

@[simp] theorem length_copyForward (count source destination : Nat) (region : Bytes) :
    (copyForward count source destination region).length = region.length := by
  induction count generalizing source destination region with
  | zero => rfl
  | succ count ih => rw [copyForward, ih, List.length_set]

/-- A copy towards the front reads every byte before it is overwritten. -/
theorem getElem?_copyForward {count source destination : Nat} {region : Bytes}
    (front : destination ≤ source) (inside : source + count ≤ region.length) (index : Nat) :
    (copyForward count source destination region)[index]? =
      if destination ≤ index ∧ index < destination + count then
        region[source + (index - destination)]?
      else region[index]? := by
  induction count generalizing source destination region with
  | zero =>
      rw [copyForward, if_neg (by omega)]
  | succ count ih =>
      rw [copyForward, ih (by omega) (by rw [List.length_set]; omega)]
      have read : region.getD source 0 = region[source] := by
        rw [List.getD_eq_getElem?_getD, List.getElem?_eq_getElem, Option.getD_some]
      rcases Nat.lt_trichotomy index destination with before | rfl | behind
      · rw [if_neg (by omega), if_neg (by omega), List.getElem?_set_ne (by omega)]
      · rw [if_neg (by omega), if_pos (by omega), List.getElem?_set_self (by omega), read,
          Nat.sub_self, Nat.add_zero, List.getElem?_eq_getElem]
      · have same : source + 1 + (index - (destination + 1)) = source + (index - destination) := by
          omega
        rw [same, List.getElem?_set_ne (by omega), List.getElem?_set_ne (by omega)]
        exact if_congr (by omega) rfl rfl

/-- The destination of a copy towards the front holds the bytes that the
source held. -/
theorem copyForward_range {count source destination : Nat} {region : Bytes}
    (front : destination ≤ source) (inside : source + count ≤ region.length) :
    ((copyForward count source destination region).drop destination).take count =
      (region.drop source).take count := by
  apply List.ext_getElem?
  intro index
  rw [List.getElem?_take, List.getElem?_take]
  by_cases within : index < count
  · rw [if_pos within, if_pos within, List.getElem?_drop, List.getElem?_drop,
      getElem?_copyForward front inside, if_pos (by omega), Nat.add_sub_cancel_left]
  · rw [if_neg within, if_neg within]

/-! ## Integers as bytes -/

/-- The little-endian bytes of a number of `width` bytes. -/
def leBytes : (width : Nat) → Nat → Bytes
  | 0, _ => []
  | width + 1, value => UInt8.ofNat value :: leBytes width (value / 256)

/-- The number with the given little-endian bytes. -/
def ofLe : Bytes → Nat
  | [] => 0
  | byte :: bytes => byte.toNat + 256 * ofLe bytes

/-- The big-endian bytes of a number of `width` bytes. -/
def beBytes (width value : Nat) : Bytes := (leBytes width value).reverse

/-- The number with the given big-endian bytes. -/
def ofBe (bytes : Bytes) : Nat := ofLe bytes.reverse

/-- The number whose bytes are those of `value` in the opposite order. -/
def byteSwap (width value : Nat) : Nat := ofLe (beBytes width value)

@[simp] theorem length_leBytes (width value : Nat) : (leBytes width value).length = width := by
  induction width generalizing value with
  | zero => rfl
  | succ width ih => rw [leBytes, List.length_cons, ih]

@[simp] theorem length_beBytes (width value : Nat) : (beBytes width value).length = width := by
  rw [beBytes, List.length_reverse, length_leBytes]

theorem ofLe_leBytes (width value : Nat) : ofLe (leBytes width value) = value % 256 ^ width := by
  induction width generalizing value with
  | zero => simp [leBytes, ofLe, Nat.mod_one]
  | succ width ih =>
      have low : (UInt8.ofNat value).toNat = value % 256 := UInt8.toNat_ofNat'
      rw [leBytes, ofLe, ih, low, Nat.pow_succ', Nat.mod_mul]

theorem leBytes_ofLe (bytes : Bytes) : leBytes bytes.length (ofLe bytes) = bytes := by
  induction bytes with
  | nil => rfl
  | cons byte bytes ih =>
      have small : byte.toNat < 256 := byte.toNat_lt
      have low : UInt8.ofNat (byte.toNat + 256 * ofLe bytes) = byte := by
        apply UInt8.toNat_inj.mp
        rw [UInt8.toNat_ofNat']
        omega
      have high : (byte.toNat + 256 * ofLe bytes) / 256 = ofLe bytes := by omega
      rw [List.length_cons, leBytes, ofLe, low, high, ih]

theorem ofBe_beBytes (width value : Nat) : ofBe (beBytes width value) = value % 256 ^ width := by
  rw [ofBe, beBytes, List.reverse_reverse, ofLe_leBytes]

theorem beBytes_ofBe (bytes : Bytes) : beBytes bytes.length (ofBe bytes) = bytes := by
  have round := leBytes_ofLe bytes.reverse
  rw [List.length_reverse] at round
  rw [beBytes, ofBe, round, List.reverse_reverse]

/-- Only the low bytes of a number are stored. -/
theorem leBytes_mod (width value : Nat) :
    leBytes width (value % 256 ^ width) = leBytes width value := by
  have round := leBytes_ofLe (leBytes width value)
  rwa [length_leBytes, ofLe_leBytes] at round

theorem beBytes_mod (width value : Nat) :
    beBytes width (value % 256 ^ width) = beBytes width value := by
  rw [beBytes, leBytes_mod, beBytes]

theorem leBytes_add (low high value : Nat) :
    leBytes (low + high) value = leBytes low value ++ leBytes high (value / 256 ^ low) := by
  induction low generalizing value with
  | zero => rw [Nat.zero_add, Nat.pow_zero, Nat.div_one, leBytes, List.nil_append]
  | succ low ih =>
      rw [Nat.succ_add, leBytes, leBytes, ih, List.cons_append, Nat.div_div_eq_div_mul,
        ← Nat.pow_succ']

theorem beBytes_add (high low value : Nat) :
    beBytes (low + high) value = beBytes high (value / 256 ^ low) ++ beBytes low value := by
  rw [beBytes, leBytes_add, List.reverse_append, beBytes, beBytes]

theorem ofLe_lt (bytes : Bytes) : ofLe bytes < 256 ^ bytes.length := by
  have round := ofLe_leBytes bytes.length (ofLe bytes)
  rw [leBytes_ofLe] at round
  rw [round]
  exact Nat.mod_lt _ (by positivity)

theorem ofBe_lt (bytes : Bytes) : ofBe bytes < 256 ^ bytes.length := by
  have bound := ofLe_lt bytes.reverse
  rwa [List.length_reverse] at bound

/-- The signed integer of `8 * width` bits at the front of a byte string, in
network order. -/
def frontInt (width : Nat) (bytes : Bytes) : Int :=
  (BitVec.ofNat (8 * width) (ofBe (bytes.take width))).toInt

/-- Numbers below `2^31` pass through an `int` unchanged. -/
theorem toInt_ofNat_of_lt {value : Nat} (small : value < 2 ^ 31) :
    (BitVec.ofNat 32 value).toInt = value := by
  have same : (BitVec.ofNat 32 value).toNat = value := by
    rw [BitVec.toNat_ofNat]
    exact Nat.mod_eq_of_lt (by omega)
  rw [BitVec.toInt_eq_toNat_of_lt (by omega), same]

theorem toNat_ofNat_of_lt {value : Nat} (small : value < 2 ^ 32) :
    (BitVec.ofNat 32 value).toNat = value := by
  rw [BitVec.toNat_ofNat]
  exact Nat.mod_eq_of_lt small

/-- The 32-bit integer at the front of big-endian bytes that hold it. -/
theorem frontInt_beBytes_append (value : Nat) (more : Bytes) :
    frontInt 4 (beBytes 4 value ++ more) = (BitVec.ofNat 32 value).toInt := by
  have front : (beBytes 4 value ++ more).take 4 = beBytes 4 value := by
    rw [List.take_append_of_le_length (by rw [length_beBytes]),
      List.take_of_length_le (by rw [length_beBytes])]
  rw [frontInt, front, ofBe_beBytes]
  congr 1
  apply BitVec.eq_of_toNat_eq
  simp

theorem frontInt_append {width : Nat} {bytes : Bytes} (more : Bytes)
    (long : width ≤ bytes.length) : frontInt width (bytes ++ more) = frontInt width bytes := by
  rw [frontInt, List.take_append_of_le_length long, frontInt]

/-- The front of a byte string reads as the integer of a number exactly when it
holds the big-endian bytes of the number. -/
theorem frontInt_eq_iff {bytes : Bytes} {value : Nat} (long : 4 ≤ bytes.length) :
    frontInt 4 bytes = (BitVec.ofNat 32 value).toInt ↔ bytes.take 4 = beBytes 4 value := by
  have width : (bytes.take 4).length = 4 := List.length_take_of_le long
  constructor
  · intro same
    have small : ofBe (bytes.take 4) < 2 ^ (8 * 4) := by
      have bound := ofBe_lt (bytes.take 4)
      rwa [width] at bound
    have residues := congrArg BitVec.toNat (BitVec.toInt_inj.mp same)
    rw [BitVec.toNat_ofNat, BitVec.toNat_ofNat, Nat.mod_eq_of_lt small] at residues
    have stored := beBytes_ofBe (bytes.take 4)
    rw [width, residues] at stored
    rw [← stored]
    exact beBytes_mod 4 value
  · intro front
    rw [← List.take_append_drop 4 bytes, front, frontInt_beBytes_append]

namespace Platform

variable (P : Platform)

/-- The bytes an unsigned integer object of `width` bytes occupies. -/
def objectBytes (width value : Nat) : Bytes :=
  if P.bigEndian then beBytes width value else leBytes width value

/-- The unsigned integer whose object occupies the bytes. -/
def ofObjectBytes (bytes : Bytes) : Nat :=
  if P.bigEndian then ofBe bytes else ofLe bytes

/-- `htobe16`, `htobe32`: swap the bytes on a little-endian host. -/
def hostToNetwork (width value : Nat) : Nat :=
  if P.bigEndian then value else byteSwap width value

/-- `be16toh`, `be32toh`. -/
def networkToHost (width value : Nat) : Nat :=
  if P.bigEndian then value else byteSwap width value

theorem length_objectBytes (width value : Nat) : (P.objectBytes width value).length = width := by
  unfold objectBytes
  split
  · exact length_beBytes width value
  · exact length_leBytes width value

/-- A number in network order is stored as its big-endian bytes, whatever the
byte order of the host. -/
theorem objectBytes_hostToNetwork (width value : Nat) :
    P.objectBytes width (P.hostToNetwork width value) = beBytes width value := by
  unfold objectBytes hostToNetwork
  split
  · rfl
  · have round := leBytes_ofLe (beBytes width value)
    rwa [length_beBytes] at round

/-- A single byte has no byte order. -/
theorem objectBytes_one (value : Nat) : P.objectBytes 1 value = beBytes 1 value := by
  unfold objectBytes
  split <;> rfl

theorem ofObjectBytes_of_length_one {bytes : Bytes} (single : bytes.length = 1) :
    P.ofObjectBytes bytes = ofBe bytes := by
  obtain ⟨byte, rfl⟩ := List.length_eq_one_iff.mp single
  unfold ofObjectBytes
  split <;> rfl

/-- Big-endian bytes in memory are read back as the number they stand for. -/
theorem networkToHost_ofObjectBytes (bytes : Bytes) :
    P.networkToHost bytes.length (P.ofObjectBytes bytes) = ofBe bytes := by
  unfold networkToHost ofObjectBytes
  split
  · rfl
  · rw [byteSwap, beBytes, leBytes_ofLe, ofBe]

end Platform

end AirNet.Cpp
