import CanopenReference.IsoTpDelivery
import CanopenReference.UdsIsotp

/-!
# Segmentation on the target and on the host

Both encoders are compared with the segments of the payload. The transmitter
is polled and fed with Clear-To-Send frames in any order, and each of these
frames sets a block size of its own.
-/

set_option autoImplicit false

namespace CanopenReference.IsoTpEncoding
open Library Library.Runs IsoTp IsoTpReceiver IsoTpDelivery UdsIsotp
open IsoTpTransmitter (Awaited Due FillsBlock chunk_end chunk_frame flow_computes
  more_iff next_computes start_first start_single)

/-- The bytes of frame `k` of a payload. -/
def segmentBytes (p : List UInt8) : ℕ → List UInt8
  | 0 =>
    if p.length ≤ 7 then UInt8.ofNat p.length::p
    else (0x10 ||| (UInt8.ofNat (p.length/256) &&& 0x0F))::UInt8.ofNat (p.length%256)::p.take 6
  | k+1 => (0x20 ||| UInt8.ofNat ((k+1)%16))::(p.drop (6+7*k)).take 7

def frameData (frame : IsoTpCanFrame) : List UInt8 := frame.data.front frame.dlc

theorem segment_length (p : List UInt8) (k : ℕ) : (segmentBytes p k).length ≤ 8 := by
  cases k with
  | zero =>
    by_cases h7 : p.length ≤ 7
    · rw [segmentBytes,if_pos h7,List.length_cons]
      omega
    · rw [segmentBytes,if_neg h7]
      simp only [List.length_cons,List.length_take]
      omega
  | succ k =>
    simp only [segmentBytes,List.length_cons,List.length_take]
    omega

theorem filled_data (id : UInt32) (bytes : List UInt8) (h : bytes.length ≤ 8) :
    frameData (filledFrame id bytes) = bytes := by
  rw [frameData,Buffer.front,filled_cells id bytes h]
  exact List.take_left' rfl

theorem wire_data (id : UInt32) (p : List UInt8) (k : ℕ) :
    frameData (wire id p k) = segmentBytes p k := by
  have hfilled : wire id p k = filledFrame id (segmentBytes p k) := by
    cases k with
    | zero =>
      by_cases h7 : p.length ≤ 7
      · rw [wire,segmentBytes,if_pos h7,if_pos h7]
        rfl
      · rw [wire,segmentBytes,if_neg h7,if_neg h7]
        rfl
    | succ k => rfl
  rw [hfilled,filled_data id _ (segment_length p k)]

section Host
variable {canId : ℤ}

theorem can_frame_ok (hid : 0 ≤ canId ∧ canId ≤ 0x7FF) {data : List UInt8}
    (h : data.length ≤ 8) : canFrame canId data = .ok ⟨canId,data,hid,h⟩ := by
  rw [canFrame,dif_pos hid,dif_pos h]

theorem consecutive_byte (k : ℕ) :
    UInt8.ofNat (0x20 ||| k%16) = 0x20 ||| UInt8.ofNat (k%16) := by
  have h : ∀ i : Fin 16, UInt8.ofNat (0x20 ||| i.val) = 0x20 ||| UInt8.ofNat i.val := by decide
  exact h ⟨k%16,Nat.mod_lt k (by decide)⟩

theorem first_bytes (n : ℕ) (h : n ≤ 4095) :
    UInt8.ofNat (0x10 ||| ((n >>> 8) &&& 0x0F)) = 0x10 ||| (UInt8.ofNat (n/256) &&& 0x0F) ∧
      UInt8.ofNat (n &&& 0xFF) = UInt8.ofNat (n%256) := by
  have hhigh : ∀ i : Fin 16, UInt8.ofNat (0x10 ||| (i.val &&& 0x0F)) =
      0x10 ||| (UInt8.ofNat i.val &&& 0x0F) := by decide
  constructor
  · rw [Nat.shiftRight_eq_div_pow]
    exact hhigh ⟨n/256,by omega⟩
  · rw [show (0xFF:ℕ) = 2^8-1 by rfl,Nat.and_two_pow_sub_one_eq_mod]

theorem sequence_next (k : ℕ) : (k%16+1) &&& 0x0F = (k+1)%16 := by
  rw [show (0x0F:ℕ) = 2^4-1 by rfl,Nat.and_two_pow_sub_one_eq_mod]
  omega

theorem encode_loop (hid : 0 ≤ canId ∧ canId ≤ 0x7FF) {p : List UInt8} (hp : 7 < p.length)
    (fuel k : ℕ) (hk : k ≤ consecutives p) (hfuel : consecutives p-k ≤ fuel) :
    ∃ frames, encodeLoop canId p fuel ((k+1)%16) (carried p k) = .ok frames ∧
      frames.map CanFrame.data = (List.range' (k+1) (consecutives p-k)).map (segmentBytes p) := by
  induction fuel generalizing k with
  | zero =>
    have hdone : consecutives p-k = 0 := by omega
    exact ⟨[],rfl,by simp [hdone]⟩
  | succ fuel ih =>
    unfold encodeLoop
    by_cases hlt : k < consecutives p
    · have heq := carried_eq hp k hlt
      have hchunk : carried p k+((p.drop (carried p k)).take 7).length = carried p (k+1) := by
        rw [carried_succ,List.length_take,List.length_drop]
      obtain ⟨frames,hrest,hdata⟩ := ih (k+1) hlt (by omega)
      have hsize : (segmentBytes p (k+1)).length ≤ 8 := segment_length p (k+1)
      have hbytes : UInt8.ofNat (0x20 ||| (k+1)%16)::(p.drop (carried p k)).take 7 =
          segmentBytes p (k+1) := by
        rw [consecutive_byte,heq]
        rfl
      rw [if_pos ((carried_lt hp k).mpr hlt)]
      simp only [hchunk,hbytes,sequence_next (k+1),can_frame_ok hid hsize,hrest]
      refine ⟨_,rfl,?_⟩
      rw [show consecutives p-k = consecutives p-(k+1)+1 by omega,List.range'_succ,
        List.map_cons,List.map_cons,hdata]
    · rw [if_neg ((carried_lt hp k).not.mpr hlt)]
      have hdone : consecutives p-k = 0 := by omega
      exact ⟨[],rfl,by simp [hdone]⟩

theorem encode_segments (hid : 0 ≤ canId ∧ canId ≤ 0x7FF) (p : List UInt8)
    (h1 : 1 ≤ p.length) (hm : p.length ≤ 4095) :
    ∃ frames, isotpEncode canId p = .ok frames ∧
      frames.map CanFrame.data = (List.range (consecutives p+1)).map (segmentBytes p) := by
  have hne : p ≠ [] := by
    rintro rfl
    cases h1
  have hsize := segment_length p 0
  unfold isotpEncode
  rw [if_neg hne]
  by_cases h7 : p.length ≤ 7
  · have hbytes : segmentBytes p 0 = UInt8.ofNat p.length::p := if_pos h7
    rw [hbytes] at hsize
    rw [if_pos h7,can_frame_ok hid hsize]
    refine ⟨_,rfl,?_⟩
    rw [consecutives,if_pos h7]
    simp [hbytes]
  · have hp : 7 < p.length := by omega
    obtain ⟨hhigh,hlow⟩ := first_bytes p.length hm
    have hbytes : UInt8.ofNat (0x10 ||| ((p.length >>> 8) &&& 0x0F))::
        UInt8.ofNat (p.length &&& 0xFF)::p.take 6 = segmentBytes p 0 := by
      rw [hhigh,hlow,segmentBytes,if_neg h7]
    have hcount : consecutives p ≤ p.length := by
      rw [consecutives,if_neg h7]
      omega
    obtain ⟨frames,hloop,hdata⟩ := encode_loop hid hp p.length 0 (Nat.zero_le _) (by omega)
    have hstart : carried p 0 = 6 := by
      rw [carried]
      omega
    rw [hstart] at hloop
    rw [if_neg h7,if_neg (by omega),hbytes,can_frame_ok hid hsize]
    simp only [show (0+1)%16 = 1 by rfl] at hloop
    refine ⟨⟨canId,segmentBytes p 0,hid,hsize⟩::frames,?_,?_⟩
    · simp only [hloop]
      rfl
    · rw [List.map_cons,hdata,List.range_eq_range',List.range'_succ]
      rfl

end Host

inductive TxCall where
  | next (nowMs : UInt32)
  | flowControl (frame : IsoTpCanFrame) (nowMs : UInt32)
  deriving DecidableEq

structure TxRecord where
  status : IsoTpStatus
  frame : Option IsoTpCanFrame
  deriving DecidableEq

def txStep (tx : IsoTpTx) : TxCall → IsoTpTx × List TxRecord
  | .next now =>
    let r := isotpTxNext tx now
    (r.1,[⟨r.2.1,r.2.2⟩])
  | .flowControl f now =>
    let r := isotpTxFeedFlowControl tx f now
    (r.1,[⟨r.2,none⟩])

/-- The start of a payload and the calls that follow it. -/
def transmission (tx : IsoTpTx) (p : List UInt8) (start : UInt32) (calls : List TxCall) :
    List TxRecord :=
  let started := isotpTxStart tx p start
  ⟨started.2.1,started.2.2⟩::(run txStep started.1 calls).2

def emitted (records : List TxRecord) : List IsoTpCanFrame := records.filterMap TxRecord.frame

def emittedData (records : List TxRecord) : List (List UInt8) := (emitted records).map frameData

/-- A single frame completes a payload, and so does a poll that reports it. -/
def Completed (p : List UInt8) (records : List TxRecord) : Prop :=
  p.length ≤ 7 ∨ ∃ r ∈ records, r.status = .complete

structure ClearToSend (id : UInt32) (f : IsoTpCanFrame) : Prop where
  addressed : f.canId = id
  dlcLow : 3 ≤ f.dlc
  dlcHigh : f.dlc ≤ isotpMaxFrameData
  status : f.byte 0 = 0x30
  stMin : ValidStMin (f.byte 2)

/-- Polls come before the pending deadline, and all flow control is clear. -/
def Clear (tx : IsoTpTx) : TxCall → Prop
  | .next now => tx.active = true → tx.waitingFlowControl = false →
      deadlineExpired now tx.deadlineMs = false
  | .flowControl f _ => ClearToSend tx.requestId f

/-- The transmitter is active and has emitted the First Frame and `k`
consecutive frames. -/
structure Emitted (p : List UInt8) (tx : IsoTpTx) (k : ℕ) : Prop where
  long : 7 < p.length
  within : k ≤ consecutives p
  active : tx.active = true
  payloadLen : tx.payloadLen = p.length
  offset : tx.offset = carried p k
  nextSequence : tx.nextSequence = UInt8.ofNat ((k+1)%16)
  buffer : tx.buffer.front p.length = p

/-- What stays of a transmitter from one call to the next. -/
structure SameParty (tx tx' : IsoTpTx) : Prop where
  config : tx'.config = tx.config
  requestId : tx'.requestId = tx.requestId
  responseId : tx'.responseId = tx.responseId

section Target
variable {p : List UInt8} {tx : IsoTpTx} {k : ℕ}

theorem emitted_start (tx : IsoTpTx) (start : UInt32) (h8 : 8 ≤ p.length) (hm : p.length ≤ 4095) :
    ∃ tx', isotpTxStart tx p start =
        (tx',.txFrameReady,some (firstFrameOf tx.responseId p)) ∧
      Emitted p tx' 0 ∧ SameParty tx tx' ∧ tx'.waitingFlowControl = true := by
  have hfront := Buffer.front_write_zero tx.buffer p hm
  have hcarried : carried p 0 = 6 := by
    rw [carried]
    omega
  exact ⟨_,start_first tx start h8 hm,
    ⟨h8,Nat.zero_le _,rfl,rfl,hcarried.symm,rfl,hfront⟩,⟨rfl,rfl,rfl⟩,rfl⟩

theorem single_start (tx : IsoTpTx) (start : UInt32) (h1 : 1 ≤ p.length) (h7 : p.length ≤ 7) :
    ∃ tx', isotpTxStart tx p start =
        (tx',.txFrameReady,some (singleFrameOf tx.responseId p)) ∧
      tx'.active = false ∧ SameParty tx tx' :=
  ⟨_,start_single tx start h1 h7,rfl,⟨rfl,rfl,rfl⟩⟩

theorem emitted_sends (now : UInt32) (h : Emitted p tx k) (hw : tx.waitingFlowControl = false)
    (hk : k < consecutives p) (htime : deadlineExpired now tx.deadlineMs = false)
    (hdue : deadlineExpired now tx.nextFrameMs = true) :
    ∃ tx', isotpTxNext tx now = (tx',.txFrameReady,some (nextFrameOf tx.responseId p k)) ∧
      Emitted p tx' (k+1) ∧ SameParty tx tx' ∧ tx'.remoteStMin = tx.remoteStMin ∧
      tx'.deadlineMs = now+tx.config.txTimeoutMs ∧
      tx'.nextFrameMs = now+stMinToMs tx.remoteStMin := by
  have hd : Due tx now := ⟨h.active,hw,htime,hdue⟩
  have hmore := (more_iff h.long h.payloadLen h.offset).mpr hk
  have hend := chunk_end h.payloadLen h.offset
  have hseq : (tx.nextSequence+1) &&& 0x0F = UInt8.ofNat ((k+1+1)%16) :=
    h.nextSequence ▸ next_sequence_nat (k+1)
  rw [← chunk_frame h.long h.payloadLen h.offset h.nextSequence h.buffer hk]
  by_cases hfull : FillsBlock tx
  · exact ⟨_,next_computes (.blockEnd hd hmore hfull),
      ⟨h.long,hk,h.active,h.payloadLen,hend,hseq,h.buffer⟩,⟨rfl,rfl,rfl⟩,rfl,rfl,rfl⟩
  · exact ⟨_,next_computes (.sends hd hmore hfull),
      ⟨h.long,hk,h.active,h.payloadLen,hend,hseq,h.buffer⟩,⟨rfl,rfl,rfl⟩,rfl,rfl,rfl⟩

theorem emitted_ends (now : UInt32) (h : Emitted p tx (consecutives p))
    (hw : tx.waitingFlowControl = false) (htime : deadlineExpired now tx.deadlineMs = false)
    (hdue : deadlineExpired now tx.nextFrameMs = true) :
    isotpTxNext tx now = (isotpTxReset tx,.complete,none) := by
  have hend := (more_iff h.long h.payloadLen h.offset).not.mpr (Nat.lt_irrefl _)
  exact next_computes (.completes ⟨h.active,hw,htime,hdue⟩ (Nat.not_lt.mp hend))

theorem emitted_rests (now : UInt32) (h : Emitted p tx k) (hc : Clear tx (.next now))
    (hdue : ¬(tx.waitingFlowControl = false ∧ deadlineExpired now tx.nextFrameMs = true)) :
    isotpTxNext tx now = (tx,.ok,none) := by
  refine next_computes (.rests fun _ hw => ?_)
  exact ⟨hc h.active hw,Bool.eq_false_iff.mpr fun hd => hdue ⟨hw,hd⟩⟩

theorem clear_type {id : UInt32} {f : IsoTpCanFrame} (hf : ClearToSend id f) :
    pciType f = 3 ∧ f.byte 0 &&& 0x0F = isotpFcCts := by
  rw [pciType,hf.status]
  decide

theorem emitted_released {f : IsoTpCanFrame} (now : UInt32) (h : Emitted p tx k)
    (hf : ClearToSend tx.requestId f) (hw : tx.waitingFlowControl = true) :
    ∃ tx', isotpTxFeedFlowControl tx f now = (tx',.ok) ∧ Emitted p tx' k ∧ SameParty tx tx' ∧
      tx'.waitingFlowControl = false ∧ tx'.remoteStMin = f.byte 2 ∧
      tx'.deadlineMs = now+tx.config.txTimeoutMs ∧ tx'.nextFrameMs = now := by
  obtain ⟨htype,hcts⟩ := clear_type hf
  have hawaited : Awaited tx f := ⟨hf.dlcHigh,hf.addressed,h.active,hw,hf.dlcLow,htype⟩
  exact ⟨_,flow_computes (.clears hawaited hcts hf.stMin),
    ⟨h.long,h.within,h.active,h.payloadLen,h.offset,h.nextSequence,h.buffer⟩,
    ⟨rfl,rfl,rfl⟩,rfl,rfl,rfl,rfl⟩

theorem unasked_ignored {f : IsoTpCanFrame} (now : UInt32) (hf : ClearToSend tx.requestId f)
    (hw : tx.active = false ∨ tx.waitingFlowControl = false) :
    isotpTxFeedFlowControl tx f now = (tx,.errState) := by
  have hno : ¬Awaited tx f := by
    intro ha
    rcases hw with hw | hw
    · exact Bool.false_ne_true (hw.symm.trans ha.active)
    · exact Bool.false_ne_true (hw.symm.trans ha.waiting)
  have hrefusal : IsoTpTransmitter.refusal tx f = .errState := by
    rw [IsoTpTransmitter.refusal,if_neg (Nat.not_lt.mpr hf.dlcHigh),
      if_neg (not_not.mpr hf.addressed)]
  rw [flow_computes (.refused hno),hrefusal]

/-- The frames so far are the first ones of the payload, or all of them once
the transfer has ended. -/
def Sending (p : List UInt8) (id : UInt32) (tx : IsoTpTx) (past : List TxRecord) : Prop :=
  tx.responseId = id ∧
    ((∃ k, Emitted p tx k ∧ emitted past = (List.range (k+1)).map (wire id p) ∧
        ¬Completed p past) ∨
      (tx.active = false ∧ emitted past = (List.range (consecutives p+1)).map (wire id p)))

theorem emitted_quiet (past : List TxRecord) (status : IsoTpStatus) :
    emitted (past++[⟨status,none⟩]) = emitted past := by
  simp [emitted,List.filterMap_append]

theorem emitted_frame (past : List TxRecord) (status : IsoTpStatus) (f : IsoTpCanFrame) :
    emitted (past++[⟨status,some f⟩]) = emitted past++[f] := by
  simp [emitted,List.filterMap_append]

theorem incomplete_append {past : List TxRecord} {r : TxRecord} (h : ¬Completed p past)
    (hr : r.status ≠ .complete) : ¬Completed p (past++[r]) := by
  rintro (h7 | ⟨x,hx,hs⟩)
  · exact h (Or.inl h7)
  · rcases List.mem_append.mp hx with hx | hx
    · exact h (Or.inr ⟨x,hx,hs⟩)
    · exact hr (List.mem_singleton.mp hx ▸ hs)

theorem step_sending (id : UInt32) (tx : IsoTpTx) (past : List TxRecord) (a : TxCall)
    (h : Sending p id tx past) (hc : Clear tx a) :
    Sending p id (txStep tx a).1 (past++(txStep tx a).2) := by
  obtain ⟨hid,⟨k,hk,hpast,hopen⟩ | ⟨hidle,hpast⟩⟩ := h
  · cases a with
    | next now =>
      by_cases hdue : tx.waitingFlowControl = false ∧ deadlineExpired now tx.nextFrameMs = true
      · have htime := hc hk.active hdue.1
        by_cases hlt : k < consecutives p
        · obtain ⟨tx',hnext,hsent,hparty,_⟩ := emitted_sends now hk hdue.1 hlt htime hdue.2
          simp only [txStep,hnext]
          have hgrow : List.range (k+1+1) = List.range (k+1)++[k+1] := List.range_succ
          refine ⟨hparty.responseId.trans hid,Or.inl ⟨k+1,hsent,?_,?_⟩⟩
          · rw [emitted_frame,hpast,hid,hgrow,List.map_append]
            rfl
          · exact incomplete_append hopen (fun hs => by cases hs)
        · have hlast : k = consecutives p := Nat.le_antisymm hk.within (Nat.not_lt.mp hlt)
          rw [hlast] at hk hpast
          simp only [txStep,emitted_ends now hk hdue.1 htime hdue.2]
          exact ⟨hid,Or.inr ⟨rfl,by rw [emitted_quiet,hpast]⟩⟩
      · simp only [txStep,emitted_rests now hk hc hdue]
        exact ⟨hid,Or.inl ⟨k,hk,by rw [emitted_quiet,hpast],incomplete_append hopen (by decide)⟩⟩
    | flowControl f now =>
      by_cases hw : tx.waitingFlowControl = true
      · obtain ⟨tx',hfed,hkept,hparty,_⟩ := emitted_released now hk hc hw
        simp only [txStep,hfed]
        exact ⟨hparty.responseId.trans hid,
          Or.inl ⟨k,hkept,by rw [emitted_quiet,hpast],incomplete_append hopen (by decide)⟩⟩
      · simp only [txStep,unasked_ignored now hc (Or.inr (by simpa using hw))]
        exact ⟨hid,Or.inl ⟨k,hk,by rw [emitted_quiet,hpast],incomplete_append hopen (by decide)⟩⟩
  · cases a with
    | next now =>
      have hrest : isotpTxNext tx now = (tx,.ok,none) :=
        next_computes (.rests fun ha => absurd (hidle.symm.trans ha) Bool.false_ne_true)
      simp only [txStep,hrest]
      exact ⟨hid,Or.inr ⟨hidle,by rw [emitted_quiet,hpast]⟩⟩
    | flowControl f now =>
      simp only [txStep,unasked_ignored now hc (Or.inl hidle)]
      exact ⟨hid,Or.inr ⟨hidle,by rw [emitted_quiet,hpast]⟩⟩

theorem start_sending (tx : IsoTpTx) (start : UInt32) (h1 : 1 ≤ p.length)
    (hm : p.length ≤ 4095) :
    Sending p tx.responseId (isotpTxStart tx p start).1
      [⟨(isotpTxStart tx p start).2.1,(isotpTxStart tx p start).2.2⟩] := by
  by_cases h7 : p.length ≤ 7
  · obtain ⟨tx',hstart,hidle,hparty⟩ := single_start tx start h1 h7
    rw [hstart]
    refine ⟨hparty.responseId,Or.inr ⟨hidle,?_⟩⟩
    rw [consecutives,if_pos h7]
    simp [emitted,wire,h7]
  · obtain ⟨tx',hstart,hsent,hparty,_⟩ := emitted_start tx start (by omega) hm
    rw [hstart]
    refine ⟨hparty.responseId,Or.inl ⟨0,hsent,by simp [emitted,wire,h7],?_⟩⟩
    rintro (h | ⟨r,hr,hs⟩)
    · exact h7 h
    · rw [List.mem_singleton.mp hr] at hs
      cases hs

/-- A poll at the moment the next frame is due is not late. -/
def Paced (tx : IsoTpTx) : Prop :=
  tx.waitingFlowControl = false → stMinToMs tx.remoteStMin < tx.config.txTimeoutMs ∧
    deadlineExpired tx.nextFrameMs tx.deadlineMs = false

theorem due_now (now : UInt32) : deadlineExpired now now = true := by
  simp [deadlineExpired,Clock.reached]

theorem gap_before_deadline {gap timeout : UInt32} (now : UInt32) (h : gap < timeout)
    (hmax : timeout ≤ 0x80000000) : deadlineExpired (now+gap) (now+timeout) = false := by
  have hlt : gap.toNat < timeout.toNat := UInt32.lt_iff_toNat_lt.mp h
  have hle : timeout.toNat ≤ 2^31 := UInt32.le_iff_toNat_le.mp hmax
  have hb : Clock.reached (UInt32.ofNat (now.toNat+gap.toNat))
      (UInt32.ofNat (now.toNat+timeout.toNat)) = false :=
    Clock.not_reached_before (by omega) (by omega)
  rw [UInt32.ofNat_add,UInt32.ofNat_add] at hb
  simpa [deadlineExpired] using hb

/-- The Clear-To-Send frame with a block size and a separation time. -/
def ctsFrame (id : UInt32) (flow : UInt8 × UInt8) : IsoTpCanFrame :=
  filledFrame id [0x30,flow.1,flow.2]

def fedFrames (calls : List TxCall) : List IsoTpCanFrame :=
  calls.filterMap fun
    | .next _ => none
    | .flowControl f _ => some f

theorem cts_clear (id : UInt32) (flow : UInt8 × UInt8) (h : ValidStMin flow.2) :
    ClearToSend id (ctsFrame id flow) ∧ (ctsFrame id flow).byte 2 = flow.2 := by
  have hbyte := filled_byte id [0x30,flow.1,flow.2] 2 (by simp) (by simp)
  refine ⟨⟨rfl,Nat.le_refl 3,Nat.le_of_ble_eq_true rfl,?_,?_⟩,hbyte⟩
  · exact filled_byte id [0x30,flow.1,flow.2] 0 (by simp) (by simp)
  · rw [ctsFrame,hbyte]
    exact h

theorem waiting_rank {tx : IsoTpTx} (h : tx.waitingFlowControl = true) :
    tx.waitingFlowControl.toNat = 1 := by rw [h]; rfl

/-- From any point of a transfer on, Clear-To-Send frames with the given block
sizes and separation times and polls that are due lead to its end. -/
theorem can_complete (flow : ℕ → UInt8 × UInt8) (hst : ∀ i, ValidStMin (flow i).2)
    (rank : ℕ) (i : ℕ) (h : Emitted p tx k) (hp : Paced tx)
    (hmax : tx.config.txTimeoutMs ≤ 0x80000000)
    (hgap : ∀ i, stMinToMs (flow i).2 < tx.config.txTimeoutMs)
    (hrank : 2*(consecutives p-k)+tx.waitingFlowControl.toNat ≤ rank) :
    ∃ calls n, fedFrames calls = (List.range' i n).map (fun j => ctsFrame tx.requestId (flow j)) ∧
      Along txStep Clear tx calls ∧ ∃ r ∈ (run txStep tx calls).2, r.status = .complete := by
  induction rank using Nat.strongRecOn generalizing tx k i with
  | _ rank ih =>
    by_cases hw : tx.waitingFlowControl = true
    · obtain ⟨hclear,hbyte⟩ := cts_clear tx.requestId (flow i) (hst i)
      obtain ⟨tx',hfed,hkept,hparty,hw',hst',hdead,hnext⟩ := emitted_released 0 h hclear hw
      have hpaced : Paced tx' := by
        intro _
        rw [hst',hbyte,hparty.config,hdead,hnext]
        have hzero : (0:UInt32) < tx.config.txTimeoutMs :=
          UInt32.lt_of_le_of_lt UInt32.zero_le (hgap i)
        exact ⟨hgap i,by simpa using gap_before_deadline 0 hzero hmax⟩
      obtain ⟨calls,n,hcalls,halong,r,hr,hdone⟩ := ih (2*(consecutives p-k)) (by
        rw [waiting_rank hw] at hrank
        omega) (i+1) hkept hpaced (hparty.config ▸ hmax) (hparty.config ▸ hgap) (by simp [hw'])
      have hstep : (txStep tx (.flowControl (ctsFrame tx.requestId (flow i)) 0)).1 = tx' := by
        simp only [txStep,hfed]
      refine ⟨.flowControl (ctsFrame tx.requestId (flow i)) 0::calls,n+1,?_,⟨hclear,?_⟩,r,?_,hdone⟩
      · rw [hparty.requestId] at hcalls
        rw [List.range'_succ,List.map_cons,← hcalls]
        rfl
      · rw [hstep]
        exact halong
      · rw [run_cons,hstep]
        exact List.mem_append_right _ hr
    · have hwait : tx.waitingFlowControl = false := by simpa using hw
      obtain ⟨hgap',htime⟩ := hp hwait
      have hclear : Clear tx (.next tx.nextFrameMs) := fun _ _ => htime
      by_cases hlt : k < consecutives p
      · obtain ⟨tx',hnext,hsent,hparty,hst',hdead,hfree⟩ :=
          emitted_sends tx.nextFrameMs h hwait hlt htime (due_now _)
        have hpaced : Paced tx' := by
          intro _
          rw [hst',hparty.config,hdead,hfree]
          exact ⟨hgap',gap_before_deadline _ hgap' hmax⟩
        have hle := Bool.toNat_le tx'.waitingFlowControl
        obtain ⟨calls,n,hcalls,halong,r,hr,hdone⟩ := ih (2*(consecutives p-(k+1))+1) (by omega) i
          hsent hpaced (hparty.config ▸ hmax) (hparty.config ▸ hgap) (by omega)
        have hstep : (txStep tx (.next tx.nextFrameMs)).1 = tx' := by simp only [txStep,hnext]
        refine ⟨.next tx.nextFrameMs::calls,n,?_,⟨hclear,?_⟩,r,?_,hdone⟩
        · rw [hparty.requestId] at hcalls
          exact hcalls
        · rw [hstep]
          exact halong
        · rw [run_cons,hstep]
          exact List.mem_append_right _ hr
      · have hlast : k = consecutives p := Nat.le_antisymm h.within (Nat.not_lt.mp hlt)
        rw [hlast] at h
        have hend := emitted_ends tx.nextFrameMs h hwait htime (due_now _)
        refine ⟨[.next tx.nextFrameMs],0,rfl,⟨hclear,trivial⟩,⟨.complete,none⟩,?_,rfl⟩
        simp [run_cons,txStep,hend]

end Target

/-- The target emits the frames of the host encoder in order, whatever block
sizes and separation times it is given, and all of them by its completion,
which every choice of block sizes allows. -/
theorem segmentations_agree (tx : IsoTpTx) (canId : ℤ) (p : List UInt8) (start : UInt32)
    (hid : 0 ≤ canId ∧ canId ≤ 0x7FF) (h1 : 1 ≤ p.length) (hm : p.length ≤ 4095) :
    ∃ frames, isotpEncode canId p = .ok frames ∧
      (∀ calls, Along txStep Clear (isotpTxStart tx p start).1 calls →
        emittedData (transmission tx p start calls) <+: frames.map CanFrame.data ∧
          (Completed p (transmission tx p start calls) →
            emittedData (transmission tx p start calls) = frames.map CanFrame.data)) ∧
      ∀ flow : ℕ → UInt8 × UInt8, (∀ i, ValidStMin (flow i).2) →
        (∀ i, stMinToMs (flow i).2 < tx.config.txTimeoutMs) →
        tx.config.txTimeoutMs ≤ 0x80000000 →
        ∃ calls n, fedFrames calls =
            (List.range n).map (fun i => ctsFrame tx.requestId (flow i)) ∧
          Along txStep Clear (isotpTxStart tx p start).1 calls ∧
          Completed p (transmission tx p start calls) := by
  obtain ⟨frames,hencode,hdata⟩ := encode_segments hid p h1 hm
  refine ⟨frames,hencode,fun calls hc => ?_,fun flow hst hgap hmax => ?_⟩
  · have hs := along_history txStep Clear (Sending p tx.responseId) (step_sending tx.responseId)
      _ _ calls (start_sending tx start h1 hm) hc
    have hwire : ∀ n, ((List.range n).map (wire tx.responseId p)).map frameData =
        (List.range n).map (segmentBytes p) := by
      intro n
      rw [List.map_map]
      exact List.map_congr_left fun k _ => wire_data _ p k
    rw [hdata]
    obtain ⟨_,⟨k,hk,hpast,hopen⟩ | ⟨_,hpast⟩⟩ := hs
    · have hsent : emittedData (transmission tx p start calls) =
          (List.range (k+1)).map (segmentBytes p) := (congrArg (List.map frameData) hpast).trans (hwire _)
      refine ⟨?_,fun hdone => absurd hdone hopen⟩
      have hfirst : List.range (k+1) = (List.range (consecutives p+1)).take (k+1) := by
        rw [List.take_range,Nat.min_eq_left (Nat.succ_le_succ hk.within)]
      rw [hsent,hfirst,List.map_take]
      exact List.take_prefix _ _
    · have hsent : emittedData (transmission tx p start calls) =
          (List.range (consecutives p+1)).map (segmentBytes p) :=
        (congrArg (List.map frameData) hpast).trans (hwire _)
      exact ⟨hsent ▸ List.prefix_rfl,fun _ => hsent⟩
  · by_cases h7 : p.length ≤ 7
    · exact ⟨[],0,rfl,trivial,Or.inl h7⟩
    · obtain ⟨tx',hstart,hsent,hparty,hw⟩ := emitted_start tx start (by omega) hm
      obtain ⟨calls,n,hcalls,halong,r,hr,hdone⟩ := can_complete flow hst _ 0 hsent
        (fun hwait => by rw [hw] at hwait; cases hwait) (hparty.config ▸ hmax)
        (hparty.config ▸ hgap) (Nat.le_refl _)
      refine ⟨calls,n,?_,?_,Or.inr ⟨r,List.mem_cons_of_mem _ ?_,hdone⟩⟩
      · rw [hparty.requestId] at hcalls
        rw [List.range_eq_range']
        exact hcalls
      · rw [hstart]
        exact halong
      · rw [hstart]
        exact hr

def twentyBytes : List UInt8 := (List.range 20).map UInt8.ofNat

theorem segmentations_agree_twenty :
    ∃ frames, isotpEncode 0x7E8 twentyBytes = .ok frames ∧ frames.length = 3 ∧
      ∃ calls, Completed twentyBytes (transmission serverTx twentyBytes 0 calls) ∧
        emittedData (transmission serverTx twentyBytes 0 calls) = frames.map CanFrame.data := by
  obtain ⟨frames,hencode,hall,hends⟩ :=
    segmentations_agree serverTx 0x7E8 twentyBytes 0 (by decide) (by decide) (by decide)
  obtain ⟨calls,_,_,halong,hdone⟩ := hends (fun _ => (1,0)) (fun _ => Or.inl (by decide))
    (fun _ => by decide) (by decide)
  have hlength : (isotpEncode 0x7E8 twentyBytes).map List.length = .ok 3 := by decide +kernel
  rw [hencode] at hlength
  exact ⟨frames,hencode,Except.ok.inj hlength,calls,hdone,(hall calls halong).2 hdone⟩

end CanopenReference.IsoTpEncoding
