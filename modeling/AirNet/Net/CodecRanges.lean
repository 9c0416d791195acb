import AirNet.Net.CodecFrame

/-!
# The bytes `Parse` uses

`Parse` takes the name length from the frame and derives from it where the name
ends, where the data begins and how long the data is. The ranges of bytes it uses
are part of its record (`parseUses`).

The name length is compared with `len - kCheckSumLen`, which leaves no room for
the name-length field itself. A name length in the four values above
`len - kNamelenLen - kCheckSumLen` passes, the length of the data comes out
negative, and if a type is found for the bytes taken for the name the negative
length is handed to `ParseFromArray`. In every other frame the ranges lie in the
frame, in order and apart from the checksum (`ranges_inside_iff`).
-/

set_option autoImplicit false

namespace AirNet.Net

open AirNet.Cpp

/-- The bytes lie in the first `len` ones. -/
def Span.Inside (len : Int) (span : Span) : Prop :=
  0 ≤ span.start ∧ 0 ≤ span.size ∧ span.start + span.size ≤ len

def Use.span : Use → Span
  | .expectedCheckSum span => span
  | .covered span => span
  | .nameLen span => span
  | .typeName span => span
  | .data span => span

def ParseEvent.use? {M : Type} : ParseEvent M → Option Use
  | .uses use => some use
  | _ => none

namespace CodecEnv

variable (E : CodecEnv)

/-- The ranges of bytes that `Parse(buf, len, error)` uses. -/
def parseUses (buf : Bytes) (len : Int) : List Use :=
  (E.parseRecorded buf len).events.filterMap ParseEvent.use?

/-- `CreateMessage` finds a type for the name. -/
def FindsType (typeName : Bytes) : Prop := (E.protobuf.createMessage typeName).isSome = true

instance (typeName : Bytes) : Decidable (E.FindsType typeName) :=
  inferInstanceAs (Decidable (_ = _))

/-- `Parse` gets as far as the call of `ParseFromArray`. -/
def ReachesData (mem : Bytes) (len : Nat) : Prop :=
  E.CheckSumAgrees mem len ∧ NameLenInRange mem len ∧ E.FindsType (nameField mem)

instance (mem : Bytes) (len : Nat) : Decidable (E.ReachesData mem len) :=
  inferInstanceAs (Decidable (_ ∧ _))

/-- Every range lies in the frame; and if `ParseFromArray` is called, the name
stands between the name-length field and the data, and the data ends where the
checksum begins. -/
structure Tidy (mem : Bytes) (len : Nat) (uses : List Use) : Prop where
  inside : ∀ use ∈ uses, use.span.Inside len
  apart : ∀ data, .data data ∈ uses → 0 ≤ data.size ∧
    .typeName ⟨4, frontInt 4 mem - 1⟩ ∈ uses ∧ data.start = 4 + frontInt 4 mem ∧
      4 + frontInt 4 mem + data.size = len - 4

/-- If `Parse` gets to the data, the name length leaves room for its own field
and the checksum. -/
def NameLeavesRoom (mem : Bytes) (len : Nat) : Prop :=
  E.ReachesData mem len → frontInt 4 mem ≤ len - 8

instance (mem : Bytes) (len : Nat) : Decidable (E.NameLeavesRoom mem len) :=
  inferInstanceAs (Decidable (_ → _))

section

variable {mem : Bytes} {len : Nat}

/-- Behind the creation of the message only the data is used. -/
theorem uses_dataEvents (message : E.protobuf.Message) :
    (E.dataEvents message mem len).filterMap ParseEvent.use? =
      [.data ⟨4 + nameLen mem, len - nameLen mem - 8⟩] := by
  unfold dataEvents
  rcases E.protobuf.parseFromArray message (mem.drop (4 + nameLen mem))
    (len - nameLen mem - 8) with _ | _ | _ <;> rfl

/-- The ranges that `Parse` uses in a frame in memory. -/
theorem mem_parseUses (lower : 10 ≤ len) (upper : len < 2 ^ 31) (inside : len ≤ mem.length)
    {use : Use} :
    use ∈ E.parseUses mem len ↔
      use = .expectedCheckSum ⟨len - 4, 4⟩ ∨ use = .covered ⟨0, (len - 4 : Nat)⟩ ∨
      E.CheckSumAgrees mem len ∧ use = .nameLen ⟨0, 4⟩ ∨
      (E.CheckSumAgrees mem len ∧ NameLenInRange mem len) ∧
        use = .typeName ⟨4, frontInt 4 mem - 1⟩ ∨
      E.ReachesData mem len ∧
        use = .data ⟨4 + frontInt 4 mem, len - frontInt 4 mem - 8⟩ := by
  rw [parseUses, E.parseRecorded_eq lower upper inside, frameEvents]
  by_cases agrees : E.CheckSumAgrees mem len
  · by_cases range : NameLenInRange mem len
    · rw [frontInt_of_inRange range]
      cases created : E.protobuf.createMessage (nameField mem) with
      | none => simp [agrees, range, ReachesData, FindsType, created, ParseEvent.use?]
      | some message =>
          simp [agrees, range, ReachesData, FindsType, created,
            uses_dataEvents, ParseEvent.use?]
    · simp [agrees, range, ReachesData, ParseEvent.use?]
  · simp [agrees, ReachesData, ParseEvent.use?]

/-- The arguments of `ParseFromArray`. -/
theorem data_mem_parseUses (lower : 10 ≤ len) (upper : len < 2 ^ 31) (inside : len ≤ mem.length)
    {data : Span} :
    .data data ∈ E.parseUses mem len ↔
      E.ReachesData mem len ∧ data = ⟨4 + frontInt 4 mem, len - frontInt 4 mem - 8⟩ := by
  simp [E.mem_parseUses lower upper inside]

theorem parseUses_tidy (lower : 10 ≤ len) (upper : len < 2 ^ 31) (inFrame : len ≤ mem.length)
    (room : E.NameLeavesRoom mem len) : Tidy mem len (E.parseUses mem len) where
  inside := by
    intro use member
    rcases (E.mem_parseUses lower upper inFrame).mp member with
      rfl | rfl | ⟨-, rfl⟩ | ⟨⟨-, range⟩, rfl⟩ | ⟨reaches, rfl⟩
    · simp only [Use.span, Span.Inside]
      omega
    · simp only [Use.span, Span.Inside]
      omega
    · simp only [Use.span, Span.Inside]
      omega
    · obtain ⟨named, short⟩ := range
      simp only [Use.span, Span.Inside]
      omega
    · have named := reaches.2.1.1
      have leaves := room reaches
      simp only [Use.span, Span.Inside]
      omega
  apart := by
    intro data member
    obtain ⟨reaches, rfl⟩ := (E.data_mem_parseUses lower upper inFrame).mp member
    have leaves := room reaches
    refine ⟨by simp only; omega, ?_, rfl, by simp only; omega⟩
    exact (E.mem_parseUses lower upper inFrame).mpr
      (.inr (.inr (.inr (.inl ⟨⟨reaches.1, reaches.2.1⟩, rfl⟩))))

/-- Where the name leaves room nothing is thrown. -/
theorem parse_returns_of_room (lower : 10 ≤ len) (upper : len < 2 ^ 31)
    (inside : len ≤ mem.length) (room : E.NameLeavesRoom mem len) :
    ∃ result, E.parse mem len = .ok result := by
  rw [E.parse_eq lower upper inside]
  rcases decoded : E.decode mem len with (errorCode | fault) | message
  · exact ⟨_, rfl⟩
  · obtain ⟨agrees, ⟨tight, inField⟩, message, created, -⟩ :=
      (E.decode_eq_thrown_iff lower inside).mp decoded
    have found : E.FindsType (nameField mem) := by
      rw [FindsType, created]
      rfl
    have leaves := room ⟨agrees, ⟨by omega, inField⟩, found⟩
    omega
  · exact ⟨_, rfl⟩

/-- **The ranges that `Parse` uses lie in the frame, in order and apart**,
exactly when the name length of a frame that gets as far as its data leaves
room for the name-length field and the checksum. `Parse` then returns. -/
theorem ranges_inside_iff (lower : kMinMessageLen ≤ len) (upper : len ≤ kMaxMessageLen)
    (inFrame : len ≤ mem.length) :
    (∃ result, E.parse mem len = .ok result ∧ Tidy mem len (E.parseUses mem len)) ↔
      E.NameLeavesRoom mem len := by
  have long : 10 ≤ len := by
    have bound : (10 : Int) ≤ len := lower
    omega
  have short : len < 2 ^ 31 := by
    have bound : (len : Int) ≤ 64 * 1024 * 1024 := upper
    omega
  constructor
  · rintro ⟨result, -, tidy⟩ reaches
    have positive := (tidy.apart _
      ((E.data_mem_parseUses long short inFrame).mpr ⟨reaches, rfl⟩)).1
    simp only at positive
    omega
  · intro room
    obtain ⟨result, returns⟩ := E.parse_returns_of_room long short inFrame room
    exact ⟨result, returns, E.parseUses_tidy long short inFrame room⟩

end

end CodecEnv

/-- A frame of twelve bytes in which the name `Flag` is followed by the
checksum at once. -/
def nameUpToCheckSum : Bytes :=
  beBytes 4 5 ++ flagName ++ beBytes 4 (adler32 1 (beBytes 4 5 ++ flagName))

/-- `ParseFromArray` is called with the length -1, for data that begins behind
the first byte of the checksum. -/
theorem negative_dataLen :
    nameUpToCheckSum.length = 12 ∧ .data ⟨9, -1⟩ ∈ flagEnv.parseUses nameUpToCheckSum 12 ∧
      ¬ CodecEnv.Tidy nameUpToCheckSum 12 (flagEnv.parseUses nameUpToCheckSum 12) := by
  have used : .data ⟨9, -1⟩ ∈ flagEnv.parseUses nameUpToCheckSum 12 := by decide +kernel
  refine ⟨by decide, used, fun tidy => ?_⟩
  have positive := (tidy.apart ⟨9, -1⟩ used).1
  exact absurd positive (by decide)

theorem ranges_inside_iff_flag :
    ∃ result, flagEnv.parse (flagEnv.body flagName 0 [8, 1] ++ [1, 2]) 15 = .ok result ∧
      CodecEnv.Tidy (flagEnv.body flagName 0 [8, 1] ++ [1, 2]) 15
        (flagEnv.parseUses (flagEnv.body flagName 0 [8, 1] ++ [1, 2]) 15) :=
  (flagEnv.ranges_inside_iff (by decide) (by decide) (by decide)).mpr (by decide)

end AirNet.Net
