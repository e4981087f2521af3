import HaikuAgent.Analysis.WebSocketFrames

/-!
# Frames written and read

`make_frame` writes the frame of RFC 6455 (`makeFrame_eq_encode`), and `parse_frame` with every
access checked does what `parseFrame` says (`parseFrameChecked_spec`). `frame_codec` is the round
trip, what happens to every part of a frame, and that no buffer is read past its end.
-/

set_option autoImplicit false

namespace HaikuAgent.Analysis.FrameCodec

open HaikuAgent.Foundation
open HaikuAgent.Model
open HaikuAgent.Model.WebSocket
open HaikuAgent.Interface.ServerFrames
open HaikuAgent.Analysis.MgsFields
open HaikuAgent.Analysis.WebSocketFrames

/-! ## What is written -/

/-- A frame that `make_frame` is called for. -/
structure Sending where
  opcode : UInt8
  mask : Vector UInt8 4
  payload : Bytes
  opcode_lt : opcode < 16
  size : payload.length ≤ 1024 * 1024

def Sending.text (f : Sending) : Bytes := makeFrame f.opcode f.payload f.mask.toList

/-- The same frame as RFC 6455 has it. -/
def Sending.frame (f : Sending) : ServerFrame := ⟨true, f.opcode, some f.mask, f.payload, f.opcode_lt, f.size⟩

/-- The first byte of a frame is the same in both codecs. -/
theorem flags_eq (f : Sending) : 0x80 ||| (f.opcode &&& 0x0F) = f.frame.flags := by
  have hbits : ∀ n : Fin 16, UInt8.ofNat n &&& 0x0F = UInt8.ofNat n := by decide
  have hlt : f.opcode.toNat < 16 := UInt8.lt_iff_toNat_lt.mp f.opcode_lt
  have hop : f.opcode = UInt8.ofNat (⟨f.opcode.toNat, hlt⟩ : Fin 16) := by simp
  have hmask : f.opcode &&& 0x0F = f.opcode := by
    rw [hop]
    exact hbits _
  rw [hmask]
  rfl

/-- Two bytes, or eight, are written with these shifts. -/
theorem bigEndian_two (n : ℕ) : bigEndian 2 n = [8, 0].map fun k => UInt8.ofNat (n / 2 ^ k % 256) := by
  simp only [bigEndian, List.map_cons, List.map_nil, List.nil_append, List.cons_append]
  norm_num

/-- Eight bytes of a number, the highest first. -/
theorem bigEndian_eight (n : ℕ) :
    bigEndian 8 n = [56, 48, 40, 32, 24, 16, 8, 0].map fun k => UInt8.ofNat (n / 2 ^ k % 256) := by
  simp only [bigEndian, List.map_cons, List.map_nil, List.nil_append, List.cons_append, Nat.div_div_eq_div_mul]
  norm_num

/-- The length of a payload up to 1 MiB is written as a frame has it. -/
theorem frameLength_eq (n : ℕ) (hn : n ≤ 1024 * 1024) :
    frameLength (UInt64.ofNat n) = (0x80 ||| lengthCode n) :: lengthBytes n := by
  have hnat : (UInt64.ofNat n).toNat = n := by
    rw [UInt64.toNat_ofNat']
    omega
  have h126 : UInt64.ofNat n < 126 ↔ n < 126 := by
    rw [UInt64.lt_iff_toNat_lt, hnat]
    rfl
  have h16 : UInt64.ofNat n ≤ 0xFFFF ↔ n < 2 ^ 16 := by
    rw [UInt64.le_iff_toNat_le, hnat]
    exact Nat.lt_succ_iff.symm
  have hbyte (k : ℕ) (hk : k < 64) :
      ((UInt64.ofNat n >>> UInt64.ofNat k) &&& 0xFF).toUInt8 = UInt8.ofNat (n / 2 ^ k % 256) := by
    rw [byteAt64 _ k hk, hnat]
  unfold frameLength lengthCode lengthBytes
  simp only [h126, h16]
  split_ifs with hshort hmiddle
  · have hcode : (UInt64.ofNat n).toUInt8 = UInt8.ofNat n := by
      apply UInt8.toNat_inj.mp
      rw [UInt64.toNat_toUInt8, hnat, UInt8.toNat_ofNat']
    rw [hcode]
  · have hlow := hbyte 0 (by decide)
    have hshift : UInt64.ofNat n >>> UInt64.ofNat 0 = UInt64.ofNat n := UInt64.shiftRight_zero
    rw [hshift] at hlow
    rw [bigEndian_two, List.map_cons, List.map_singleton, ← hbyte 8 (by decide), ← hlow]
    rfl
  · have hshifts : ([56, 48, 40, 32, 24, 16, 8, 0] : List UInt64) =
        [56, 48, 40, 32, 24, 16, 8, 0].map UInt64.ofNat := rfl
    rw [bigEndian_eight, hshifts, List.map_map]
    congr 1
    apply List.map_congr_left
    intro k hk
    have hlt : ∀ k ∈ [56, 48, 40, 32, 24, 16, 8, 0], k < 64 := by decide
    exact hbyte k (hlt k hk)

/-- Masking is the same in both codecs. -/
theorem xorMask_eq (key : Vector UInt8 4) (payload : Bytes) : xorMask key.toList payload = applyMask key payload := by
  unfold xorMask applyMask
  congr 1
  funext i b
  have hkey : key.toList.getD (i % 4) 0 = key[i % 4] := by
    rw [List.getD_eq_getElem _ _ (by simp; omega)]
    simp
  rw [hkey]

/-- **`make_frame` writes the frame of RFC 6455.**
SRC: websocket.cpp:24-46 -/
theorem makeFrame_eq_encode (f : Sending) : f.text = f.frame.encode := by
  have hflags := flags_eq f
  have hlength := frameLength_eq f.payload.length f.size
  unfold Sending.text makeFrame
  rw [hflags, hlength, xorMask_eq, List.append_assoc, List.cons_append]
  rfl

/-! ## The accesses -/

/-- What a call that returned `ret` left, where `parseFrame` has this outcome. -/
def Agrees (v : FrameVars) (ret : ℤ) (after : FrameVars) : Scan ParsedFrame UInt8 Bytes → Prop
  | .incomplete => ret = 0 ∧ after.buf = v.buf ∧ after.payload = v.payload ∧ after.err = v.err
  | .failed err => ret = -1 ∧ after.buf = v.buf ∧ after.payload = v.payload ∧ after.err = err
  | .complete f rest => ret = 1 ∧ after = ⟨rest, f.fin, f.opcode, f.payload, v.err⟩

/-- A read inside the buffer is checked. -/
theorem get_checked {buf : Bytes} {i : ℕ} (h : i < buf.length) : buf[i]? = some (buf.getD i 0) := by
  rw [List.getElem?_eq_getElem h, List.getD_eq_getElem _ _ h]

/-- So is a slice. -/
theorem sliceChecked_eq {s : Bytes} {pos n : ℕ} (h : pos + n ≤ s.length) : sliceChecked s pos n = some (slice s pos n) :=
  if_pos h

/-- The length is read without leaving the buffer. -/
theorem lengthChecked_eq (buf : Bytes) (b1 : UInt8) : lengthChecked buf b1 = some (parseLength buf b1) := by
  unfold lengthChecked parseLength
  dsimp only
  split_ifs with h126 hshort h127 hshort
  · rfl
  · rw [get_checked (by omega), get_checked (by omega)]
    rfl
  · rfl
  · have hfold (l : List ℕ) (hl : ∀ i ∈ l, 2 + i < buf.length) (len : UInt64) :
        l.foldlM (fun (len : UInt64) i => (buf[2 + i]?).map fun b => (len <<< 8) ||| b.toUInt64) len =
          some (l.foldl (fun (len : UInt64) i => (len <<< 8) ||| (buf.getD (2 + i) 0).toUInt64) len) := by
      induction l generalizing len with
      | nil => rfl
      | cons i l ih =>
        rw [List.foldlM_cons, get_checked (hl i List.mem_cons_self), List.foldl_cons]
        exact ih (fun j hj => hl j (List.mem_cons_of_mem i hj)) _
    rw [hfold (List.range 8) fun i hi => by have hlt := List.mem_range.mp hi; omega]
    rfl
  · rfl

/-- The payload is read without leaving the buffer, with the same result. -/
theorem payloadChecked_spec (v : FrameVars) (masked : Bool) (len : UInt64) (pos : ℕ) :
    ∃ ret after, payloadChecked v masked len pos = some (ret, after) ∧
      Agrees v ret after (parsePayload v.buf v.fin v.opcode masked len pos) := by
  unfold payloadChecked parsePayload
  by_cases hlarge : kMaxFrameSize < len.toNat
  · rw [if_pos hlarge, if_pos hlarge]
    exact ⟨_, _, rfl, rfl, rfl, rfl, rfl⟩
  · rw [if_neg hlarge, if_neg hlarge]
    by_cases hmask : masked = true ∧ v.buf.length < pos + 4
    · rw [if_pos hmask, if_pos hmask]
      exact ⟨_, _, rfl, rfl, rfl, rfl, rfl⟩
    · rw [if_neg hmask, if_neg hmask]
      have hread : maskChecked v.buf masked pos = some (if masked = true then slice v.buf pos 4 else [0, 0, 0, 0]) := by
        unfold maskChecked
        cases masked with
        | false => rfl
        | true =>
          have hthere : pos + 4 ≤ v.buf.length := not_lt.mp fun h => hmask ⟨rfl, h⟩
          rw [if_pos rfl, if_pos rfl, sliceChecked_eq hthere]
      rw [hread]
      dsimp only [Option.bind_eq_bind, Option.bind_some]
      generalize (if masked = true then pos + 4 else pos) = start
      by_cases hshort : v.buf.length < start + len.toNat
      · rw [if_pos hshort, if_pos hshort]
        exact ⟨_, _, rfl, rfl, rfl, rfl, rfl⟩
      · rw [if_neg hshort, if_neg hshort, sliceChecked_eq (not_lt.mp hshort)]
        exact ⟨_, _, rfl, rfl, rfl⟩

/-- **Every access is in bounds**, and the call does what `parseFrame` says.
SRC: websocket.cpp:48-91 -/
theorem parseFrameChecked_spec (v : FrameVars) :
    ∃ ret after, parseFrameChecked v = some (ret, after) ∧ Agrees v ret after (parseFrame v.buf) := by
  unfold parseFrameChecked parseFrame
  by_cases hshort : v.buf.length < 2
  · rw [if_pos hshort, if_pos hshort]
    exact ⟨_, _, rfl, rfl, rfl, rfl, rfl⟩
  · rw [if_neg hshort, if_neg hshort, get_checked (by omega), get_checked (by omega)]
    dsimp only [Option.bind_eq_bind, Option.bind_some]
    by_cases hreserved : v.buf.getD 0 0 &&& 0x70 ≠ 0
    · rw [if_pos hreserved, if_pos hreserved]
      exact ⟨_, _, rfl, rfl, rfl, rfl, rfl⟩
    · rw [if_neg hreserved, if_neg hreserved, lengthChecked_eq]
      dsimp only [Option.bind_some]
      cases parseLength v.buf (v.buf.getD 1 0) with
      | none => exact ⟨_, _, rfl, rfl, rfl, rfl, rfl⟩
      | some length => exact payloadChecked_spec _ _ _ _

/-- What is left of the buffer is an end of it. -/
theorem rest_of_payload {buf rest : Bytes} {fin masked : Bool} {opcode : UInt8} {len : UInt64} {pos : ℕ}
    {f : ParsedFrame} (h : parsePayload buf fin opcode masked len pos = .complete f rest) :
    ∃ n ≤ buf.length, rest = buf.drop n := by
  unfold parsePayload at h
  dsimp only at h
  generalize (if masked = true then pos + 4 else pos) = start at h
  split_ifs at h with hlarge hmask hshort
  all_goals
    cases h
    exact ⟨_, not_lt.mp hshort, rfl⟩

/-- What is left of the buffer is the end of it. -/
theorem rest_of_complete {buf rest : Bytes} {f : ParsedFrame} (h : parseFrame buf = .complete f rest) :
    ∃ n ≤ buf.length, rest = buf.drop n := by
  unfold parseFrame at h
  dsimp only at h
  split_ifs at h
  split at h
  · cases h
  · exact rest_of_payload h

/-! ## The codec -/

/-- The call returns 1 with the frame, and leaves what follows it. -/
def Reads (f : Sending) : Prop :=
  ∀ (v : FrameVars) rest,
    parseFrameChecked { v with buf := f.text ++ rest } = some (1, ⟨rest, true, f.opcode, f.payload, v.err⟩)

/-- On a proper prefix it returns 0 and leaves the buffer. -/
def WaitsFor (f : Sending) : Prop :=
  ∀ (v : FrameVars) p, p <+: f.text → p ≠ f.text →
    ∃ after, parseFrameChecked { v with buf := p } = some (0, after) ∧ after.buf = p

/-- A frame that was sent is read as it was. -/
theorem reads (f : Sending) : Reads f := by
  intro v rest
  obtain ⟨ret, after, hcall, hagrees⟩ := parseFrameChecked_spec { v with buf := f.text ++ rest }
  have hparse : parseFrame (f.text ++ rest) = .complete (view f.frame) rest := by
    rw [makeFrame_eq_encode]
    exact parseFrame_delimits.complete f.frame rest
  rw [hparse] at hagrees
  obtain ⟨rfl, rfl⟩ := hagrees
  exact hcall

/-- A part of a frame is waited on. -/
theorem waitsFor (f : Sending) : WaitsFor f := by
  intro v p hprefix hne
  obtain ⟨ret, after, hcall, hagrees⟩ := parseFrameChecked_spec { v with buf := p }
  rw [makeFrame_eq_encode] at hprefix hne
  rw [parseFrame_delimits.incomplete f.frame p hprefix hne] at hagrees
  obtain ⟨rfl, hbuf, -, -⟩ := hagrees
  exact ⟨after, hcall, hbuf⟩

/-- **The frame codec**: a frame is read back with what follows it left alone, no part of it is
taken, and no buffer is read past its end or shortened except by a frame.
SRC: websocket.cpp:24-91 -/
theorem frame_codec :
    (∀ f : Sending, Reads f ∧ WaitsFor f) ∧
    ∀ v : FrameVars, ∃ ret after, parseFrameChecked v = some (ret, after) ∧
      (after.buf = v.buf ∨ ret = 1 ∧ ∃ n ≤ v.buf.length, after.buf = v.buf.drop n) := by
  refine ⟨fun f => ⟨reads f, waitsFor f⟩, ?_⟩
  intro v
  obtain ⟨ret, after, hcall, hagrees⟩ := parseFrameChecked_spec v
  refine ⟨ret, after, hcall, ?_⟩
  cases hparse : parseFrame v.buf with
  | incomplete =>
    rw [hparse] at hagrees
    exact .inl hagrees.2.1
  | failed err =>
    rw [hparse] at hagrees
    exact .inl hagrees.2.1
  | complete f rest =>
    obtain ⟨n, hn, hrest⟩ := rest_of_complete hparse
    rw [hparse] at hagrees
    obtain ⟨hret, rfl⟩ := hagrees
    exact .inr ⟨hret, n, hn, hrest⟩

end HaikuAgent.Analysis.FrameCodec
