import HaikuAgent.Analysis.MgsFields

/-!
# MGS framing: the round trip and the untrusted header length

`serialize` fills a blank buffer field by field, in order and without gaps, so
the frame is the concatenation of its fields (`serialize_eq`) and `deserialize`
reads each of them back (`mgs_round_trip`).

On bytes the agent did not write, the only unchecked quantity is the declared
header length. Its check adds 4 in 32 bits, so the four largest lengths pass it
whatever the size of the frame, and the final `substr` then throws:
`deserialize_safe_iff` says exactly when the function is total.
-/

set_option autoImplicit false

namespace HaikuAgent.Analysis.MgsFraming

open HaikuAgent.Foundation
open HaikuAgent.Model
open HaikuAgent.Model.Mgs
open HaikuAgent.Analysis.MgsFields

/-! ## The layout of a serialized frame -/

/-- The type field: the first 32 bytes of the type, padded with spaces.
SRC: mgs.cpp:107-109 -/
def typeField (m : AgentMessage) : Bytes :=
  (List.range kTypeLength).map fun i =>
    if i < m.messageType.length then m.messageType.getD i 0 else 32

/-- Writing a 32-bit field at the end of the written part of a blank buffer. -/
theorem putU32_fill (pre : Bytes) (k pos : ℕ) (v : UInt32) (hp : pre.length = pos) (hk : 4 ≤ k) :
    putU32 (pre ++ List.replicate k 0) pos v =
      (pre ++ bigEndian 4 v.toNat) ++ List.replicate (k - 4) 0 := by
  rw [putU32_eq_overwrite _ _ _ (by simp; omega), overwrite_fill _ _ _ _ _ hp, length_bigEndian]

/-- Writing a 64-bit field at the end of the written part of a blank buffer. -/
theorem putU64_fill (pre : Bytes) (k pos : ℕ) (v : UInt64) (hp : pre.length = pos) (hk : 8 ≤ k) :
    putU64 (pre ++ List.replicate k 0) pos v =
      (pre ++ bigEndian 8 v.toNat) ++ List.replicate (k - 8) 0 := by
  rw [putU64_eq_overwrite _ _ _ (by simp; omega), overwrite_fill _ _ _ _ _ hp, length_bigEndian]

/-- The type field is 32 bytes wide. -/
@[simp] theorem length_typeField (m : AgentMessage) : (typeField m).length = 32 := by
  simp [typeField, kTypeLength]

/-- **The layout**: a serialized frame is its fields one after the other.
SRC: mgs.cpp:104-123 -/
theorem serialize_eq (sha256Raw : Bytes → Vector UInt8 32) (m : AgentMessage) :
    serialize sha256Raw m =
      bigEndian 4 116 ++ (typeField m ++ (bigEndian 4 m.schemaVersion.toNat ++
        (bigEndian 8 m.createdMs.toNat ++ (bigEndian 8 m.sequence.toUInt64.toNat ++
          (bigEndian 8 m.flags.toNat ++
            (((uuidToWire m.messageId).getD (Vector.replicate 16 0)).toList ++
              ((sha256Raw m.payload).toList ++ (bigEndian 4 m.payloadType.toNat ++
                (bigEndian 4 (UInt32.ofNat m.payload.length).toNat ++ m.payload))))))))) := by
  have htype (b : Bytes) (h : 4 + 32 ≤ b.length) :
      (List.range kTypeLength).foldl
        (fun b i => b.set (kTypeOffset + i)
          (if i < m.messageType.length then m.messageType.getD i 0 else 32)) b =
      overwrite b 4 (typeField m) :=
    foldl_set_eq_overwrite b 4 32
      (fun i => if i < m.messageType.length then m.messageType.getD i 0 else 32) h
  have hblank : List.replicate (kPayloadOffset + m.payload.length) (0 : UInt8) =
      [] ++ List.replicate (120 + m.payload.length) 0 := rfl
  unfold serialize
  simp only [hblank]
  rw [putU32_fill [] _ 0 _ rfl (by omega), htype _ (by simp; omega),
    overwrite_fill _ _ _ _ _ (by simp), putU32_fill _ _ _ _ (by simp [kSchemaOffset]) (by simp; omega),
    putU64_fill _ _ _ _ (by simp [kCreatedOffset]) (by simp; omega),
    putU64_fill _ _ _ _ (by simp [kSequenceOffset]) (by simp; omega),
    putU64_fill _ _ _ _ (by simp [kFlagsOffset]) (by simp; omega),
    overwrite_fill _ _ _ _ _ (by simp [kUuidOffset]),
    overwrite_fill _ _ _ _ _ (by simp [kDigestOffset]),
    putU32_fill _ _ _ _ (by simp [kPayloadTypeOffset]) (by simp; omega),
    putU32_fill _ _ _ _ (by simp [kPayloadLenOffset]) (by simp; omega),
    overwrite_fill _ _ _ _ _ (by simp [kPayloadOffset])]
  have hrest : 120 + m.payload.length - 4 - (typeField m).length - 4 - 8 - 8 - 8 -
      ((uuidToWire m.messageId).getD (Vector.replicate 16 0)).toList.length -
      (sha256Raw m.payload).toList.length - 4 - 4 - m.payload.length = 0 := by
    simp only [length_typeField, Vector.length_toList]
    omega
  rw [hrest]
  simp only [List.nil_append, List.replicate_zero, List.append_nil, List.append_assoc]
  rfl

/-- A type of at most 32 bytes that does not end in a pad byte survives padding
and trimming.
SRC: mgs.cpp:107-109,138-140 -/
theorem rdropWhile_typeField (m : AgentMessage) (hlen : m.messageType.length ≤ 32)
    (hend : ∀ c ∈ m.messageType.getLast?, c ≠ 32 ∧ c ≠ 0) :
    (typeField m).rdropWhile (fun c => c == 32 || c == 0) = m.messageType := by
  have hfield : typeField m = m.messageType ++ List.replicate (32 - m.messageType.length) 32 := by
    apply List.ext_getElem
    · simp; omega
    · intro i h1 h2
      simp only [typeField, List.getElem_map, List.getElem_range, List.getElem_append,
        List.getElem_replicate]
      split
      · rename_i hi
        rw [List.getD_eq_getElem _ _ hi]
      · rfl
  have hpad (k : ℕ) (l : Bytes) :
      (l ++ List.replicate k 32).rdropWhile (fun c => c == 32 || c == 0) =
        l.rdropWhile (fun c => c == 32 || c == 0) := by
    induction k with
    | zero => simp
    | succ k ih =>
      rw [List.replicate_succ', ← List.append_assoc, List.rdropWhile_concat_pos _ _ _ (by rfl), ih]
  rw [hfield, hpad, List.rdropWhile_eq_self_iff]
  intro hne
  have hlast := hend (m.messageType.getLast hne) (by rw [List.getLast?_eq_some_getLast hne]; rfl)
  simpa using hlast

/-- A frame is read back field for field. -/
theorem deserialize_serialize (sha256Raw : Bytes → Vector UInt8 32) (m out : AgentMessage) (err : Bytes)
    (hlen : m.messageType.length ≤ 32) (hend : ∀ c ∈ m.messageType.getLast?, c ≠ 32 ∧ c ≠ 0)
    (hid : CanonicalUuid m.messageId) : deserialize (serialize sha256Raw m) out err = .ok (true, m, err) := by
  obtain ⟨wire, hwire⟩ := canonical_eq_uuidFromWire m.messageId hid
  have huuid : uuidToWire m.messageId = some wire := by
    rw [← hwire, uuidToWire_uuidFromWire]
  have hlay := serialize_eq sha256Raw m
  rw [huuid, Option.getD_some] at hlay
  generalize serialize sha256Raw m = raw at hlay
  have hsize : raw.length = 120 + m.payload.length := by
    rw [hlay]
    simp only [List.length_append, length_bigEndian, length_typeField, Vector.length_toList]
    omega
  -- each field of the frame is the run at its offset
  have hhead : slice raw 0 4 = bigEndian 4 116 := by
    rw [hlay, slice_append_left _ _ _ (by simp)]
  have htype : slice raw 4 32 = typeField m := by
    rw [hlay]
    simp [slice_append_right, slice_append_left]
  have hschema : slice raw 36 4 = bigEndian 4 m.schemaVersion.toNat := by
    rw [hlay]
    simp [slice_append_right, slice_append_left]
  have hcreated : slice raw 40 8 = bigEndian 8 m.createdMs.toNat := by
    rw [hlay]
    simp [slice_append_right, slice_append_left]
  have hseq : slice raw 48 8 = bigEndian 8 m.sequence.toUInt64.toNat := by
    rw [hlay]
    simp [slice_append_right, slice_append_left]
  have hflags : slice raw 56 8 = bigEndian 8 m.flags.toNat := by
    rw [hlay]
    simp [slice_append_right, slice_append_left]
  have hwireAt : slice raw 64 16 = wire.toList := by
    rw [hlay]
    simp [slice_append_right, slice_append_left]
  have hptype : slice raw 112 4 = bigEndian 4 m.payloadType.toNat := by
    rw [hlay]
    simp [slice_append_right, slice_append_left]
  have hpayload : raw.drop 120 = m.payload := by
    rw [hlay]
    simp [List.drop_append, List.drop_of_length_le]
  have hheader : getU32 raw 0 = 116 := getU32_of_slice raw 0 116 (by omega) hhead
  have hsub : substr raw ((116 : UInt32).toNat + 4) = .ok m.payload := by
    change substr raw 120 = _
    rw [substr, if_neg (by omega), hpayload]
  have hguard : ¬((116 : UInt32).toNat ≠ kHeaderLength ∧
      ((116 : UInt32).toNat < kHeaderLength ∨ raw.length < ((116 : UInt32) + 4).toNat)) := by
    rintro ⟨hne, -⟩
    exact hne rfl
  have hshort : ¬raw.length < kPayloadOffset := by
    simp only [kPayloadOffset]
    omega
  unfold deserialize
  simp only [if_neg hshort, hheader, if_neg hguard, hsub, kTypeOffset, kTypeLength, htype,
    rdropWhile_typeField m hlen hend, kSchemaOffset, kCreatedOffset, kSequenceOffset, kFlagsOffset,
    kUuidOffset, kPayloadTypeOffset,
    getU32_of_slice raw 36 m.schemaVersion (by omega) hschema,
    getU64_of_slice raw 40 m.createdMs (by omega) hcreated,
    getU64_of_slice raw 48 m.sequence.toUInt64 (by omega) hseq,
    getU64_of_slice raw 56 m.flags (by omega) hflags,
    getU32_of_slice raw 112 m.payloadType (by omega) hptype,
    ofFn_of_slice raw 64 wire (by omega) hwireAt, hwire, Int64.toInt64_toUInt64]

/-- **MGS framing round-trips**: a message whose type fits its field unpadded and
whose id is canonical text is returned field for field, and the UUID codec is
inverse on every sixteen bytes, whatever function hashes the payload.
SRC: mgs.cpp:71-164 -/
theorem mgs_round_trip (sha256Raw : Bytes → Vector UInt8 32) :
    (∀ (m out : AgentMessage) (err : Bytes), m.messageType.length ≤ 32 →
      (∀ c ∈ m.messageType.getLast?, c ≠ 32 ∧ c ≠ 0) → CanonicalUuid m.messageId →
        deserialize (serialize sha256Raw m) out err = .ok (true, m, err)) ∧
    ∀ wire : Vector UInt8 16, uuidToWire (uuidFromWire wire) = some wire :=
  ⟨fun m out err hlen hend hid => deserialize_serialize sha256Raw m out err hlen hend hid, uuidToWire_uuidFromWire⟩

/-- The round trip at an `acknowledge` with a negative sequence number. -/
theorem mgs_round_trip_acknowledge :
    let m : AgentMessage :=
      { messageType := kMsgAcknowledge
        schemaVersion := 1
        createdMs := 1755740935000
        sequence := -1
        flags := 3
        messageId := lit "0f1e2d3c-4b5a-6978-8796-a5b4c3d2e1f0"
        payloadType := 0
        payload := [0, 255, 10] }
    deserialize (serialize (fun _ => Vector.replicate 32 0) m) m [] = .ok (true, m, []) := by
  intro m
  exact (mgs_round_trip fun _ => Vector.replicate 32 0).1 m m [] (by decide)
    (by decide +kernel) (by decide +kernel)

/-! ## Untrusted frames -/

/-- What `deserialize` owes its callers on `raw`: it either reports an error and
leaves `out` alone, or accepts a frame that really holds its declared header and
returns everything after it. In particular it does not throw.
SRC: mgs.h:61-62, mgs.cpp:130-137 -/
def DeserializesSafely (raw : Bytes) : Prop :=
  ∀ (out : AgentMessage) (err : Bytes),
    (∃ msg, msg ≠ [] ∧ deserialize raw out err = .ok (false, out, msg)) ∨
    (∃ m, deserialize raw out err = .ok (true, m, err) ∧
      (getU32 raw 0).toNat + 4 ≤ raw.length ∧ m.payload = raw.drop ((getU32 raw 0).toNat + 4))

/-- A frame shorter than the fixed header is refused before anything is read. -/
theorem safe_of_short (raw : Bytes) (hshort : raw.length < 120) : DeserializesSafely raw := by
  intro out err
  refine Or.inl ⟨lit "message too short: " ++ toStringNat raw.length ++ lit " bytes", by simp [lit], ?_⟩
  rw [deserialize, if_pos (by simpa [kPayloadOffset] using hshort)]

/-- The declared header is there: the frame is accepted, or its length is below 116. -/
theorem safe_of_fits (raw : Bytes) (hlong : ¬raw.length < 120) (hfits : (getU32 raw 0).toNat + 4 ≤ raw.length) :
    DeserializesSafely raw := by
  intro out err
  unfold deserialize
  rw [if_neg (by simpa [kPayloadOffset] using hlong)]
  simp only
  split
  · refine Or.inl ⟨_, ?_, rfl⟩
    simp [lit]
  · refine Or.inr ?_
    rw [substr, if_neg (by omega)]
    exact ⟨_, rfl, hfits, rfl⟩

/-- The sum that finds the payload is taken in 32 bits. -/
theorem header_sum (raw : Bytes) : (getU32 raw 0 + 4).toNat = ((getU32 raw 0).toNat + 4) % 2 ^ 32 := by
  rw [UInt32.toNat_add]
  rfl

/-- Without a wrap-around a header that runs past the frame is refused. -/
theorem safe_of_overrun (raw : Bytes) (hlong : ¬raw.length < 120)
    (hover : ¬(getU32 raw 0).toNat + 4 ≤ raw.length) (hwrap : (getU32 raw 0).toNat + 4 < 2 ^ 32) :
    DeserializesSafely raw := by
  intro out err
  unfold deserialize
  rw [if_neg (by simpa [kPayloadOffset] using hlong)]
  simp only
  rw [if_pos]
  · refine Or.inl ⟨_, ?_, rfl⟩
    simp [lit]
  · rw [header_sum, Nat.mod_eq_of_lt hwrap, kHeaderLength]
    omega

/-- A sum that wraps is at most 3: the check passes, and `substr` throws. -/
theorem throws_of_wrap (raw : Bytes) (hlong : ¬raw.length < 120)
    (hover : ¬(getU32 raw 0).toNat + 4 ≤ raw.length) (hwrap : ¬(getU32 raw 0).toNat + 4 < 2 ^ 32) :
    deserialize raw ⟨[], 0, 0, 0, 0, [], 0, []⟩ [] = .error .outOfRange := by
  have hlt : (getU32 raw 0).toNat < 2 ^ 32 := (getU32 raw 0).toNat_lt
  unfold deserialize
  rw [if_neg (by simpa [kPayloadOffset] using hlong)]
  simp only
  rw [if_neg, substr, if_pos (by omega)]
  rw [header_sum, kHeaderLength]
  omega

/-- **When untrusted frames are safe**: exactly when the frame is short, its
declared header length leaves room for the 32-bit sum `header_len + 4`, or the
frame is at least that long.
SRC: mgs.cpp:125-164 -/
theorem deserialize_safe_iff (raw : Bytes) :
    DeserializesSafely raw ↔
      raw.length < 120 ∨ (getU32 raw 0).toNat + 4 < 2 ^ 32 ∨
        (getU32 raw 0).toNat + 4 ≤ raw.length := by
  by_cases hshort : raw.length < 120
  · exact iff_of_true (safe_of_short raw hshort) (Or.inl hshort)
  by_cases hfits : (getU32 raw 0).toNat + 4 ≤ raw.length
  · exact iff_of_true (safe_of_fits raw hshort hfits) (Or.inr (Or.inr hfits))
  by_cases hwrap : (getU32 raw 0).toNat + 4 < 2 ^ 32
  · exact iff_of_true (safe_of_overrun raw hshort hfits hwrap) (Or.inr (Or.inl hwrap))
  · refine iff_of_false ?_ (by omega)
    intro hsafe
    have hthrow := throws_of_wrap raw hshort hfits hwrap
    obtain ⟨msg, -, h⟩ | ⟨m, h, -⟩ := hsafe ⟨[], 0, 0, 0, 0, [], 0, []⟩ []
    · rw [hthrow] at h
      cases h
    · rw [hthrow] at h
      cases h

/-- A 120-byte frame that declares a header of `0xFFFFFFFF` bytes makes the call throw. -/
theorem deserialize_unsafe_at_wrapped_length :
    ¬DeserializesSafely (List.replicate 120 0xFF) := by
  intro hsafe
  have hthrow : deserialize (List.replicate 120 0xFF) ⟨[], 0, 0, 0, 0, [], 0, []⟩ [] =
      .error .outOfRange := by decide +kernel
  rcases hsafe ⟨[], 0, 0, 0, 0, [], 0, []⟩ [] with ⟨msg, -, h⟩ | ⟨m, h, -⟩
  · rw [hthrow] at h
    cases h
  · rw [hthrow] at h
    cases h

end HaikuAgent.Analysis.MgsFraming
