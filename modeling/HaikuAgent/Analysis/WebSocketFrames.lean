import HaikuAgent.Analysis.MgsFields
import HaikuAgent.Interface.ServerFrames
import HaikuAgent.Model.WebSocket

/-!
# `parse_frame` reads frames

`parseFrame_front` says what `parse_frame` does with the bytes of a frame as far as
they have arrived: it waits for the last of them and then takes the frame off. So
`parse_frame` delimits the frames a server may send (`parseFrame_delimits`).
-/

set_option autoImplicit false

namespace HaikuAgent.Analysis.WebSocketFrames

open HaikuAgent.Foundation
open HaikuAgent.Model
open HaikuAgent.Model.WebSocket
open HaikuAgent.Interface.ServerFrames
open HaikuAgent.Analysis.MgsFields

/-- What `parse_frame` returns for a frame. -/
def view (f : ServerFrame) : ParsedFrame := ⟨f.fin, f.opcode, f.payload⟩

/-! ## The first two bytes -/

/-- The flags of a frame: no reserved bit, the opcode and whether it is the last. -/
theorem flags_bits (f : ServerFrame) :
    f.flags &&& 0x70 = 0 ∧ f.flags &&& 0x0F = f.opcode ∧ (f.flags &&& 0x80 != 0) = f.fin := by
  have hbits : ∀ n : Fin 16, ∀ fin : Bool,
      let b := (if fin then (0x80 : UInt8) else 0) ||| UInt8.ofNat n
      b &&& 0x70 = 0 ∧ b &&& 0x0F = UInt8.ofNat n ∧ (b &&& 0x80 != 0) = fin := by decide
  have hlt : f.opcode.toNat < 16 := UInt8.lt_iff_toNat_lt.mp f.opcode_lt
  have hop : f.opcode = UInt8.ofNat (⟨f.opcode.toNat, hlt⟩ : Fin 16) := by simp
  rw [ServerFrame.flags, hop]
  exact hbits _ f.fin

/-- A length code fits below the mask bit. -/
theorem lengthCode_lt (n : ℕ) : (lengthCode n).toNat < 128 := by
  unfold lengthCode
  split_ifs with h126
  · rw [UInt8.toNat_ofNat']
    omega
  · decide
  · decide

/-- The length byte: its code and whether there is a mask. -/
theorem lengthByte_bits (f : ServerFrame) :
    f.lengthByte &&& 0x7F = lengthCode f.payload.length ∧
      (f.lengthByte &&& 0x80 != 0) = f.mask.isSome := by
  have hbits : ∀ n : Fin 128, ∀ masked : Bool,
      let b := (if masked then (0x80 : UInt8) else 0) ||| UInt8.ofNat n
      b &&& 0x7F = UInt8.ofNat n ∧ (b &&& 0x80 != 0) = masked := by decide +kernel
  have hlt := lengthCode_lt f.payload.length
  have hcode : lengthCode f.payload.length =
      UInt8.ofNat (⟨(lengthCode f.payload.length).toNat, hlt⟩ : Fin 128) := by simp
  rw [ServerFrame.lengthByte, hcode]
  exact hbits _ f.mask.isSome

/-! ## Bytes of a stream that have arrived -/

/-- More bytes do not change those that are there. -/
theorem getD_of_append (buf more : Bytes) (i : ℕ) (h : i < buf.length) :
    (buf ++ more).getD i 0 = buf.getD i 0 :=
  List.getD_append buf more 0 i h

/-- More bytes do not change a slice that is there. -/
theorem slice_of_append (buf more : Bytes) (pos n : ℕ) (h : pos + n ≤ buf.length) :
    slice (buf ++ more) pos n = slice buf pos n := by
  unfold slice
  rw [List.drop_append_of_le_length (by omega), List.take_append_of_le_length]
  rw [List.length_drop]
  omega

/-- A run of a buffer in front of `pre ++ xs ++ tail`. -/
theorem slice_front (buf more pre xs tail : Bytes) (hstream : buf ++ more = pre ++ (xs ++ tail))
    (h : pre.length + xs.length ≤ buf.length) : slice buf pre.length xs.length = xs := by
  rw [← slice_of_append buf more _ _ h, hstream, slice_append_right pre _ _ _ le_rfl, Nat.sub_self]
  exact slice_append_left xs tail _ rfl

/-! ## The length -/

/-- Where the extended length ends. -/
def lengthEnd (n : ℕ) : ℕ := 2 + (lengthBytes n).length

/-- The two-byte length is the big-endian value of its bytes. -/
theorem length16_toNat (buf : Bytes) (h : 4 ≤ buf.length) :
    (((buf.getD 2 0).toUInt64 <<< 8) ||| (buf.getD 3 0).toUInt64).toNat =
      bigEndianValue (slice buf 2 2) := by
  have h2 : (buf.getD 2 0).toNat < 256 := UInt8.toNat_lt _
  have h3 : (buf.getD 3 0).toNat < 256 := UInt8.toNat_lt _
  have hslice : slice buf 2 2 = [buf.getD 2 0, buf.getD 3 0] := slice_eq_map_getD buf 2 2 h
  rw [shl_or_toNat64, UInt8.toNat_toUInt64, hslice]
  simp only [bigEndianValue, List.foldl_cons, List.foldl_nil]
  omega

/-- The extended length is in place once its bytes have arrived. -/
theorem slice_lengthBytes (f : ServerFrame) (buf more rest : Bytes)
    (hstream : buf ++ more = f.encode ++ rest) (h : lengthEnd f.payload.length ≤ buf.length) :
    slice buf 2 (lengthBytes f.payload.length).length = lengthBytes f.payload.length := by
  refine slice_front buf more [f.flags, f.lengthByte] _ (f.maskBytes ++ f.body ++ rest) ?_ h
  rw [hstream, ServerFrame.encode]
  simp

/-- The length of a frame is read as soon as it is there. -/
theorem parseLength_front (f : ServerFrame) (buf more rest : Bytes)
    (hstream : buf ++ more = f.encode ++ rest) (hbuf : 2 ≤ buf.length) :
    parseLength buf f.lengthByte =
      if buf.length < lengthEnd f.payload.length then none
      else some (UInt64.ofNat f.payload.length, lengthEnd f.payload.length) := by
  have hslice := slice_lengthBytes f buf more rest hstream
  have hsize := f.size
  unfold parseLength
  rw [(lengthByte_bits f).1]
  generalize f.payload.length = n at hslice hsize ⊢
  by_cases h126 : n < 126
  · -- the length itself
    have hcode : (lengthCode n).toUInt64 = UInt64.ofNat n := by
      rw [lengthCode, if_pos h126]
      refine UInt64.toNat_inj.mp ?_
      rw [UInt8.toNat_toUInt64, UInt8.toNat_ofNat', UInt64.toNat_ofNat']
      omega
    have hend : lengthEnd n = 2 := by rw [lengthEnd, lengthBytes, if_pos h126]; rfl
    have hnat : (UInt64.ofNat n).toNat = n := by
      rw [UInt64.toNat_ofNat']
      omega
    have hne (k : UInt64) (hk : 126 ≤ k.toNat) : UInt64.ofNat n ≠ k := by
      intro heq
      rw [← heq, hnat] at hk
      omega
    simp only [hcode, hend]
    rw [if_neg (hne 126 (by decide)), if_neg (hne 127 (by decide)), if_neg (by omega)]
  · by_cases h16 : n < 2 ^ 16
    · -- two bytes
      have hcode : lengthCode n = 126 := by rw [lengthCode, if_neg h126, if_pos h16]
      have hbytes : lengthBytes n = bigEndian 2 n := by
        rw [lengthBytes, if_neg h126, if_pos h16]
      have hend : lengthEnd n = 4 := by rw [lengthEnd, hbytes, length_bigEndian]
      rw [hend] at hslice ⊢
      simp only [hcode]
      rw [if_pos (by decide)]
      by_cases hshort : buf.length < 4
      · rw [if_pos hshort, if_pos hshort]
      · rw [if_neg hshort, if_neg hshort]
        have hvalue : (((buf.getD 2 0).toUInt64 <<< 8) ||| (buf.getD 3 0).toUInt64).toNat = n := by
          have hrun := hslice (by omega)
          rw [hbytes, length_bigEndian] at hrun
          rw [length16_toNat buf (by omega), hrun, bigEndianValue_bigEndian]
          omega
        rw [← hvalue, UInt64.ofNat_toNat]
    · -- eight bytes
      have hcode : lengthCode n = 127 := by rw [lengthCode, if_neg h126, if_neg h16]
      have hbytes : lengthBytes n = bigEndian 8 n := by
        rw [lengthBytes, if_neg h126, if_neg h16]
      have hend : lengthEnd n = 10 := by rw [lengthEnd, hbytes, length_bigEndian]
      rw [hend] at hslice ⊢
      simp only [hcode]
      rw [if_neg (by decide), if_pos (by decide)]
      by_cases hshort : buf.length < 10
      · rw [if_pos hshort, if_pos hshort]
      · rw [if_neg hshort, if_neg hshort]
        have hvalue : ((List.range 8).foldl
            (fun (len : UInt64) i => (len <<< 8) ||| (buf.getD (2 + i) 0).toUInt64) 0).toNat = n := by
          have hrun := hslice (by omega)
          rw [hbytes, length_bigEndian] at hrun
          have hword := getU64_toNat buf 2 (by omega)
          rw [hrun, bigEndianValue_bigEndian, Nat.mod_eq_of_lt] at hword
          · exact hword
          · exact lt_of_le_of_lt hsize (by decide)
        rw [← hvalue, UInt64.ofNat_toNat]

/-! ## The mask and the payload -/

/-- Taking the mask off gives the payload. -/
theorem xorMask_applyMask (key : Vector UInt8 4) (payload : Bytes) :
    xorMask key.toList (applyMask key payload) = payload := by
  unfold xorMask applyMask
  refine List.ext_getElem (by simp) ?_
  intro i h1 h2
  have hkey : key.toList.getD (i % 4) 0 = key[i % 4] := by
    rw [List.getD_eq_getElem _ _ (by simp; omega)]
    simp
  simp only [List.getElem_mapIdx, hkey]
  rw [UInt8.xor_assoc, UInt8.xor_self, UInt8.xor_zero]

/-- The length of a frame on the wire. -/
theorem length_encode (f : ServerFrame) :
    f.encode.length = lengthEnd f.payload.length + f.maskBytes.length + f.payload.length := by
  rw [ServerFrame.encode, lengthEnd]
  simp only [List.length_cons, List.length_append, ServerFrame.length_body]
  omega

/-- The payload of a frame is read as soon as it is there. -/
theorem parsePayload_front (f : ServerFrame) (buf more rest : Bytes)
    (hstream : buf ++ more = f.encode ++ rest) (hend : lengthEnd f.payload.length ≤ buf.length) :
    parsePayload buf f.fin f.opcode f.mask.isSome (UInt64.ofNat f.payload.length)
        (lengthEnd f.payload.length) =
      if buf.length < f.encode.length then .incomplete
      else .complete (view f) (buf.drop f.encode.length) := by
  have hsize : (UInt64.ofNat f.payload.length).toNat = f.payload.length := by
    rw [UInt64.toNat_ofNat']
    exact Nat.mod_eq_of_lt (lt_of_le_of_lt f.size (by decide))
  have hlen := length_encode f
  have hmask := f.length_maskBytes
  -- the two parts after the length, once they have arrived
  let pre := f.flags :: f.lengthByte :: lengthBytes f.payload.length
  have hpre : pre.length = lengthEnd f.payload.length := by
    simp only [pre, lengthEnd, List.length_cons]
    omega
  have hkey (h : lengthEnd f.payload.length + f.maskBytes.length ≤ buf.length) :
      slice buf (lengthEnd f.payload.length) f.maskBytes.length = f.maskBytes := by
    rw [← hpre] at h ⊢
    refine slice_front buf more pre _ (f.body ++ rest) ?_ h
    rw [hstream, ServerFrame.encode]
    simp [pre]
  have hbody (h : f.encode.length ≤ buf.length) :
      slice buf (lengthEnd f.payload.length + f.maskBytes.length) f.payload.length = f.body := by
    have hfront := slice_front buf more (pre ++ f.maskBytes) f.body rest
    rw [List.length_append, hpre, ServerFrame.length_body] at hfront
    refine hfront ?_ (by omega)
    rw [hstream, ServerFrame.encode]
    simp [pre]
  unfold parsePayload
  have hallowed : ¬kMaxFrameSize < f.payload.length := not_lt.mpr f.size
  rw [hsize, if_neg hallowed]
  cases hkeyed : f.mask with
  | none =>
    simp only [hkeyed, Option.isSome_none, Bool.false_eq_true, if_false] at hmask
    simp only [Option.isSome_none, Bool.false_eq_true, false_and, if_false]
    have hwhole : lengthEnd f.payload.length + f.payload.length = f.encode.length := by omega
    rw [hwhole]
    by_cases hshort : buf.length < f.encode.length
    · rw [if_pos hshort, if_pos hshort]
    · rw [if_neg hshort, if_neg hshort]
      have hrun := hbody (by omega)
      rw [hmask, Nat.add_zero, ServerFrame.body, hkeyed] at hrun
      rw [hrun]
      rfl
  | some key =>
    simp only [hkeyed, Option.isSome_some, if_true] at hmask
    simp only [Option.isSome_some, true_and, if_true]
    by_cases hnokey : buf.length < lengthEnd f.payload.length + 4
    · rw [if_pos hnokey, if_pos (by omega)]
    · rw [if_neg hnokey]
      have hwhole : lengthEnd f.payload.length + 4 + f.payload.length = f.encode.length := by omega
      rw [hwhole]
      by_cases hshort : buf.length < f.encode.length
      · rw [if_pos hshort, if_pos hshort]
      · rw [if_neg hshort, if_neg hshort]
        have hkeyrun := hkey (by omega)
        have hrun := hbody (by omega)
        rw [hmask] at hkeyrun hrun
        rw [ServerFrame.maskBytes, hkeyed] at hkeyrun
        rw [ServerFrame.body, hkeyed] at hrun
        rw [hkeyrun, hrun, xorMask_applyMask]
        rfl

/-! ## Frames off a stream -/

/-- What `parse_frame` does with a buffer that holds the front of a frame, or the frame and
what follows it.
SRC: websocket.cpp:48-91 -/
theorem parseFrame_front (f : ServerFrame) (buf more rest : Bytes)
    (hstream : buf ++ more = f.encode ++ rest) :
    parseFrame buf =
      if buf.length < f.encode.length then .incomplete
      else .complete (view f) (buf.drop f.encode.length) := by
  have hlen := length_encode f
  have hend : 2 ≤ lengthEnd f.payload.length := Nat.le_add_right 2 _
  unfold parseFrame
  by_cases hshort : buf.length < 2
  · rw [if_pos hshort, if_pos (by omega)]
  · rw [if_neg hshort]
    have h0 : buf.getD 0 0 = f.flags := by
      rw [← getD_of_append buf more 0 (by omega), hstream]
      rfl
    have h1 : buf.getD 1 0 = f.lengthByte := by
      rw [← getD_of_append buf more 1 (by omega), hstream]
      rfl
    obtain ⟨hreserved, hopcode, hfin⟩ := flags_bits f
    simp only [h0, h1, hreserved, hopcode, hfin, (lengthByte_bits f).2, ne_eq, not_true_eq_false,
      if_false]
    rw [parseLength_front f buf more rest hstream (by omega)]
    by_cases hlength : buf.length < lengthEnd f.payload.length
    · rw [if_pos hlength, if_pos (by omega)]
    · rw [if_neg hlength]
      exact parsePayload_front f buf more rest hstream (by omega)

/-- `parse_frame` takes a frame off as soon as it is complete, and not before. -/
theorem parseFrame_delimits : Delimits parseFrame ServerFrame.encode view := by
  constructor
  · intro f rest
    rw [parseFrame_front f (f.encode ++ rest) [] rest (List.append_nil _), if_neg, List.drop_left]
    rw [List.length_append]
    omega
  · intro f p hprefix hne
    obtain ⟨more, hmore⟩ := hprefix
    rw [parseFrame_front f p more [] (by rw [hmore, List.append_nil]), if_pos]
    have hlen := congrArg List.length hmore
    rw [List.length_append] at hlen
    have hpos : more ≠ [] := by
      rintro rfl
      rw [List.append_nil] at hmore
      exact hne hmore
    have := List.length_pos_of_ne_nil hpos
    omega

end HaikuAgent.Analysis.WebSocketFrames
