import CanopenReference.IsoTpLink

/-!
# What a call of the transmitter can do

Each call is split once into its outcomes, with the guards that lead to them.
What holds over a whole run is read off from the outcomes.
-/

set_option autoImplicit false

namespace CanopenReference.IsoTpTransmitter
open IsoTp IsoTpDelivery

/-- The state that a First Frame leaves. -/
def begun (tx : IsoTpTx) (p : List UInt8) (now : UInt32) : IsoTpTx :=
  { tx with
    buffer := tx.buffer.write 0 p
    payloadLen := p.length
    offset := 6
    nextSequence := 1
    blockCount := 0
    deadlineMs := now+tx.config.txTimeoutMs
    active := true
    waitingFlowControl := true }

/-- Everything a call of `isotpTxStart` can do. -/
inductive StartOutcome (tx : IsoTpTx) (p : List UInt8) (now : UInt32) :
    IsoTpTx × IsoTpStatus × Option IsoTpCanFrame → Prop where
  | refused (status : IsoTpStatus) (hstatus : status = .errArgument ∨ status = .errOverflow)
      (hlength : p.length = 0 ∨ isotpMaxPayload < p.length) :
      StartOutcome tx p now (tx,status,none)
  | single (h1 : 1 ≤ p.length) (h7 : p.length ≤ 7) :
      StartOutcome tx p now ({ isotpTxReset tx with buffer := tx.buffer.write 0 p },.txFrameReady,
        some (singleFrameOf tx.responseId p))
  | first (h8 : 8 ≤ p.length) (hm : p.length ≤ isotpMaxPayload) :
      StartOutcome tx p now (begun tx p now,.txFrameReady,some (firstFrameOf tx.responseId p))

theorem start_outcome (tx : IsoTpTx) (p : List UInt8) (now : UInt32) :
    StartOutcome tx p now (isotpTxStart tx p now) := by
  unfold isotpTxStart
  by_cases h0 : p.length = 0
  · rw [if_pos h0]
    exact .refused _ (Or.inl rfl) (Or.inl h0)
  by_cases hm : isotpMaxPayload < p.length
  · rw [if_neg h0,if_pos hm]
    exact .refused _ (Or.inr rfl) (Or.inr hm)
  simp only
  rw [if_neg h0,if_neg hm]
  by_cases h7 : p.length ≤ 7
  · rw [if_pos h7]
    exact .single (Nat.pos_of_ne_zero h0) h7
  · rw [if_neg h7]
    exact .first (by omega) (Nat.not_lt.mp hm)

section Start
variable {p : List UInt8}

theorem start_single (tx : IsoTpTx) (now : UInt32) (h1 : 1 ≤ p.length) (h7 : p.length ≤ 7) :
    isotpTxStart tx p now = ({ isotpTxReset tx with buffer := tx.buffer.write 0 p },.txFrameReady,
      some (singleFrameOf tx.responseId p)) := by
  have ho := start_outcome tx p now
  generalize isotpTxStart tx p now = r at ho ⊢
  cases ho with
  | refused _ _ hlength =>
    rw [isotpMaxPayload] at hlength
    omega
  | single _ _ => rfl
  | first h8 _ => omega

theorem start_first (tx : IsoTpTx) (now : UInt32) (h8 : 8 ≤ p.length)
    (hm : p.length ≤ isotpMaxPayload) :
    isotpTxStart tx p now = (begun tx p now,.txFrameReady,some (firstFrameOf tx.responseId p)) := by
  have ho := start_outcome tx p now
  generalize isotpTxStart tx p now = r at ho ⊢
  cases ho with
  | refused _ _ hlength => omega
  | single _ h7 => omega
  | first _ _ => rfl

theorem ready_length {tx : IsoTpTx} {now : UInt32}
    (h : (isotpTxStart tx p now).2.1 = .txFrameReady) :
    1 ≤ p.length ∧ p.length ≤ isotpMaxPayload := by
  have ho := start_outcome tx p now
  generalize isotpTxStart tx p now = r at ho h
  cases ho with
  | refused _ hstatus _ =>
    simp only at h
    rcases hstatus with rfl | rfl <;> cases h
  | single h1 h7 => exact ⟨h1,Nat.le_trans h7 (by decide)⟩
  | first h8 hm => exact ⟨Nat.le_trans (by decide) h8,hm⟩

end Start

def flowStatus (f : IsoTpCanFrame) : UInt8 := f.byte 0 &&& 0x0F

structure Awaited (tx : IsoTpTx) (f : IsoTpCanFrame) : Prop where
  dlcHigh : f.dlc ≤ isotpMaxFrameData
  addressed : f.canId = tx.requestId
  active : tx.active = true
  waiting : tx.waitingFlowControl = true
  dlcLow : 3 ≤ f.dlc
  type : pciType f = 3

def EndsTransfer (tx : IsoTpTx) (f : IsoTpCanFrame) : Prop :=
  flowStatus f = isotpFcOverflow ∨
    (flowStatus f = isotpFcCts ∨ flowStatus f = isotpFcWait) ∧ ¬ValidStMin (f.byte 2) ∨
    flowStatus f = isotpFcWait ∧ tx.config.maxWaitFrames ≤ tx.waitFrames

def held (tx : IsoTpTx) (f : IsoTpCanFrame) (now : UInt32) : IsoTpTx :=
  { tx with
    remoteBlockSize := f.byte 1
    remoteStMin := f.byte 2
    deadlineMs := now+tx.config.txTimeoutMs
    waitFrames := tx.waitFrames+1
    waitingFlowControl := true }

def released (tx : IsoTpTx) (f : IsoTpCanFrame) (now : UInt32) : IsoTpTx :=
  { tx with
    remoteBlockSize := f.byte 1
    remoteStMin := f.byte 2
    deadlineMs := now+tx.config.txTimeoutMs
    waitFrames := 0
    waitingFlowControl := false
    blockCount := 0
    nextFrameMs := now }

/-- The answer to a frame that is not awaited. -/
def refusal (tx : IsoTpTx) (f : IsoTpCanFrame) : IsoTpStatus :=
  if isotpMaxFrameData < f.dlc then .errArgument
  else if f.canId ≠ tx.requestId then .ok
  else .errState

theorem refusal_cases (tx : IsoTpTx) (f : IsoTpCanFrame) : refusal tx f = .errArgument ∨
    refusal tx f = .errState ∨ refusal tx f = .ok ∧ f.canId ≠ tx.requestId := by
  unfold refusal
  by_cases hdlc : isotpMaxFrameData < f.dlc
  · simp [hdlc]
  · by_cases hid : f.canId = tx.requestId
    · simp [hdlc,hid]
    · simp [hdlc,hid]

/-- Everything a call of `isotpTxFeedFlowControl` can do. -/
inductive FlowOutcome (tx : IsoTpTx) (f : IsoTpCanFrame) (now : UInt32) :
    IsoTpTx × IsoTpStatus → Prop where
  | refused (hno : ¬Awaited tx f) : FlowOutcome tx f now (tx,refusal tx f)
  | reserved (hf : Awaited tx f)
      (hs : flowStatus f ≠ isotpFcOverflow ∧ flowStatus f ≠ isotpFcCts ∧
        flowStatus f ≠ isotpFcWait) : FlowOutcome tx f now (tx,.errFlowControl)
  | stopped (hf : Awaited tx f) (hs : EndsTransfer tx f) :
      FlowOutcome tx f now (isotpTxReset tx,.errFlowControl)
  | waits (hf : Awaited tx f) (hs : flowStatus f = isotpFcWait) (hst : ValidStMin (f.byte 2))
      (hleft : tx.waitFrames < tx.config.maxWaitFrames) :
      FlowOutcome tx f now (held tx f now,.ok)
  | clears (hf : Awaited tx f) (hs : flowStatus f = isotpFcCts) (hst : ValidStMin (f.byte 2)) :
      FlowOutcome tx f now (released tx f now,.ok)

theorem awaited_iff {tx : IsoTpTx} {f : IsoTpCanFrame} : Awaited tx f ↔
    f.dlc ≤ isotpMaxFrameData ∧ f.canId = tx.requestId ∧
      (!tx.active || !tx.waitingFlowControl || decide (f.dlc < 3) || pciType f != 3) = false := by
  constructor
  · intro h
    have hlow := h.dlcLow
    exact ⟨h.dlcHigh,h.addressed,by simp [h.active,h.waiting,h.type,hlow]⟩
  · rintro ⟨hdlc,hid,hguard⟩
    simp only [Bool.or_eq_false_iff,Bool.not_eq_false',decide_eq_false_iff_not,bne_eq_false_iff_eq,
      Nat.not_lt] at hguard
    obtain ⟨⟨⟨hactive,hwaiting⟩,hlow⟩,htype⟩ := hguard
    exact ⟨hdlc,hid,hactive,hwaiting,hlow,htype⟩

theorem flow_computes {tx : IsoTpTx} {f : IsoTpCanFrame} {now : UInt32} {r : IsoTpTx × IsoTpStatus}
    (h : FlowOutcome tx f now r) : isotpTxFeedFlowControl tx f now = r := by
  unfold isotpTxFeedFlowControl
  by_cases hf : Awaited tx f
  · obtain ⟨hdlc,hid,hguard⟩ := awaited_iff.mp hf
    have hstatus : f.byte 0 &&& 0x0F = flowStatus f := rfl
    rw [if_neg (Nat.not_lt.mpr hdlc),if_neg (not_not.mpr hid),if_neg (by rw [hguard]; decide)]
    simp only [hstatus]
    cases h with
    | refused hno => exact absurd hf hno
    | reserved _ hs => rw [if_neg hs.1,if_pos hs.2]
    | stopped _ hs =>
      by_cases hover : flowStatus f = isotpFcOverflow
      · rw [if_pos hover]
      rw [if_neg hover]
      rcases hs with hs | ⟨hs,hst⟩ | ⟨hs,hmax⟩
      · exact absurd hs hover
      · rw [if_neg (fun hn => hs.elim hn.1 hn.2),if_pos (by exact hst)]
      · by_cases hst : ValidStMin (f.byte 2)
        · rw [if_neg (fun hn => hn.2 hs),if_neg (by exact not_not.mpr hst),
            if_pos hs,if_pos hmax]
          rfl
        · rw [if_neg (fun hn => hn.2 hs),if_pos (by exact hst)]
    | waits _ hs hst hleft =>
      rw [if_neg (fun hn => absurd (hs.symm.trans hn) (by decide)),if_neg (fun hn => hn.2 hs),
        if_neg (by exact not_not.mpr hst),if_pos hs,if_neg (UInt8.not_le.mpr hleft)]
      rfl
    | clears _ hs hst =>
      rw [if_neg (fun hn => absurd (hs.symm.trans hn) (by decide)),if_neg (fun hn => hn.1 hs),
        if_neg (by exact not_not.mpr hst),
        if_neg (fun hn => absurd (hs.symm.trans hn) (by decide))]
      rfl
  · cases h with
    | refused _ =>
      unfold refusal
      by_cases hdlc : isotpMaxFrameData < f.dlc
      · rw [if_pos hdlc,if_pos hdlc]
      rw [if_neg hdlc,if_neg hdlc]
      by_cases hid : f.canId = tx.requestId
      · rw [if_neg (not_not.mpr hid),if_neg (not_not.mpr hid),if_pos]
        by_contra hguard
        exact hf (awaited_iff.mpr ⟨Nat.not_lt.mp hdlc,hid,by simpa using hguard⟩)
      · rw [if_pos hid,if_pos hid]
    | reserved ha _ => exact absurd ha hf
    | stopped ha _ => exact absurd ha hf
    | waits ha _ _ _ => exact absurd ha hf
    | clears ha _ _ => exact absurd ha hf

theorem flow_outcome (tx : IsoTpTx) (f : IsoTpCanFrame) (now : UInt32) :
    FlowOutcome tx f now (isotpTxFeedFlowControl tx f now) := by
  suffices h : ∃ r, FlowOutcome tx f now r by
    obtain ⟨r,hr⟩ := h
    rw [flow_computes hr]
    exact hr
  by_cases hf : Awaited tx f
  · by_cases hs : flowStatus f ≠ isotpFcOverflow ∧ flowStatus f ≠ isotpFcCts ∧
        flowStatus f ≠ isotpFcWait
    · exact ⟨_,.reserved hf hs⟩
    by_cases hend : EndsTransfer tx f
    · exact ⟨_,.stopped hf hend⟩
    have hknown : flowStatus f = isotpFcCts ∨ flowStatus f = isotpFcWait := by
      by_contra hn
      exact hs ⟨fun h => hend (Or.inl h),fun h => hn (Or.inl h),fun h => hn (Or.inr h)⟩
    have hst : ValidStMin (f.byte 2) := by
      by_contra hn
      exact hend (Or.inr (Or.inl ⟨hknown,hn⟩))
    rcases hknown with hcts | hwait
    · exact ⟨_,.clears hf hcts hst⟩
    · exact ⟨_,.waits hf hwait hst (UInt8.not_le.mp fun hm => hend (Or.inr (Or.inr ⟨hwait,hm⟩)))⟩
  · exact ⟨_,.refused hf⟩

structure Due (tx : IsoTpTx) (now : UInt32) : Prop where
  active : tx.active = true
  waiting : tx.waitingFlowControl = false
  inTime : deadlineExpired now tx.deadlineMs = false
  due : deadlineExpired now tx.nextFrameMs = true

def chunkLen (tx : IsoTpTx) : ℕ := min 7 (tx.payloadLen-tx.offset)

def advanced (tx : IsoTpTx) (now : UInt32) : IsoTpTx :=
  { tx with
    offset := tx.offset+chunkLen tx
    nextSequence := (tx.nextSequence+1) &&& 0x0F
    blockCount := tx.blockCount+1
    deadlineMs := now+tx.config.txTimeoutMs
    nextFrameMs := now+stMinToMs tx.remoteStMin }

def chunkFrame (tx : IsoTpTx) : IsoTpCanFrame :=
  filledFrame tx.responseId ((0x20 ||| tx.nextSequence)::tx.buffer.slice tx.offset (chunkLen tx))

section Segments
variable {p : List UInt8} {tx : IsoTpTx} {k : ℕ}

theorem chunk_end (hlen : tx.payloadLen = p.length) (hoff : tx.offset = carried p k) :
    tx.offset+chunkLen tx = carried p (k+1) := by
  rw [chunkLen,hlen,hoff,carried_succ]

theorem chunk_frame (hp : 7 < p.length) (hlen : tx.payloadLen = p.length)
    (hoff : tx.offset = carried p k) (hseq : tx.nextSequence = UInt8.ofNat ((k+1)%16))
    (hbuf : tx.buffer.front p.length = p) (hk : k < consecutives p) :
    chunkFrame tx = nextFrameOf tx.responseId p k := by
  rw [chunkFrame,nextFrameOf,chunkLen,hseq,hlen,hoff,carried_slice hp hbuf hk]

theorem more_iff (hp : 7 < p.length) (hlen : tx.payloadLen = p.length)
    (hoff : tx.offset = carried p k) : tx.offset < tx.payloadLen ↔ k < consecutives p := by
  rw [hlen,hoff,carried_lt hp]

end Segments

def FillsBlock (tx : IsoTpTx) : Prop :=
  tx.remoteBlockSize ≠ 0 ∧ tx.remoteBlockSize ≤ tx.blockCount+1 ∧
    tx.offset+chunkLen tx < tx.payloadLen

/-- Everything a call of `isotpTxNext` can do. -/
inductive NextOutcome (tx : IsoTpTx) (now : UInt32) :
    IsoTpTx × IsoTpStatus × Option IsoTpCanFrame → Prop where
  | rests (h : tx.active = true → tx.waitingFlowControl = false →
      deadlineExpired now tx.deadlineMs = false ∧ deadlineExpired now tx.nextFrameMs = false) :
      NextOutcome tx now (tx,.ok,none)
  | timedOut (hactive : tx.active = true) (hwaiting : tx.waitingFlowControl = false)
      (hlate : deadlineExpired now tx.deadlineMs = true) :
      NextOutcome tx now (isotpTxReset tx,.errTimeout,none)
  | completes (h : Due tx now) (hend : tx.payloadLen ≤ tx.offset) :
      NextOutcome tx now (isotpTxReset tx,.complete,none)
  | blockEnd (h : Due tx now) (hmore : tx.offset < tx.payloadLen) (hfull : FillsBlock tx) :
      NextOutcome tx now ({ advanced tx now with blockCount := 0, waitingFlowControl := true },
        .txFrameReady,some (chunkFrame tx))
  | sends (h : Due tx now) (hmore : tx.offset < tx.payloadLen) (hopen : ¬FillsBlock tx) :
      NextOutcome tx now (advanced tx now,.txFrameReady,some (chunkFrame tx))

theorem next_computes {tx : IsoTpTx} {now : UInt32} {r : IsoTpTx × IsoTpStatus × Option IsoTpCanFrame}
    (h : NextOutcome tx now r) : isotpTxNext tx now = r := by
  have hcopy : (if 7 < tx.payloadLen-tx.offset then 7 else tx.payloadLen-tx.offset) =
      chunkLen tx := by
    rw [chunkLen]
    split <;> omega
  unfold isotpTxNext
  cases h with
  | rests h =>
    cases ha : tx.active with
    | false => rfl
    | true =>
      cases hw : tx.waitingFlowControl with
      | true => rfl
      | false =>
        obtain ⟨htime,hdue⟩ := h ha hw
        simp [htime,hdue]
  | timedOut hactive hwaiting hlate => simp [hactive,hwaiting,hlate]
  | completes hd hend => simp [hd.active,hd.waiting,hd.inTime,hd.due,hend]
  | blockEnd hd hmore hfull =>
    simp only [hd.active,hd.waiting,hd.inTime,hd.due,Bool.not_true,Bool.false_eq_true,if_false,
      if_neg (Nat.not_le_of_lt hmore),hcopy]
    rw [if_pos (by simpa [FillsBlock] using hfull)]
    simp only [advanced,chunkFrame,hd.active]
  | sends hd hmore hopen =>
    simp only [hd.active,hd.waiting,hd.inTime,hd.due,Bool.not_true,Bool.false_eq_true,if_false,
      if_neg (Nat.not_le_of_lt hmore),hcopy]
    rw [if_neg (by simpa [FillsBlock] using hopen)]
    simp only [advanced,chunkFrame,hd.active,hd.waiting]

theorem next_outcome (tx : IsoTpTx) (now : UInt32) : NextOutcome tx now (isotpTxNext tx now) := by
  suffices h : ∃ r, NextOutcome tx now r by
    obtain ⟨r,hr⟩ := h
    rw [next_computes hr]
    exact hr
  by_cases hready : tx.active = true ∧ tx.waitingFlowControl = false
  · obtain ⟨hactive,hwaiting⟩ := hready
    cases hlate : deadlineExpired now tx.deadlineMs with
    | true => exact ⟨_,.timedOut hactive hwaiting hlate⟩
    | false =>
      cases hdue : deadlineExpired now tx.nextFrameMs with
      | false => exact ⟨_,.rests fun _ _ => ⟨hlate,hdue⟩⟩
      | true =>
        have hd : Due tx now := ⟨hactive,hwaiting,hlate,hdue⟩
        by_cases hend : tx.payloadLen ≤ tx.offset
        · exact ⟨_,.completes hd hend⟩
        by_cases hfull : FillsBlock tx
        · exact ⟨_,.blockEnd hd (Nat.lt_of_not_le hend) hfull⟩
        · exact ⟨_,.sends hd (Nat.lt_of_not_le hend) hfull⟩
  · exact ⟨_,.rests fun ha hw => absurd ⟨ha,hw⟩ hready⟩

end CanopenReference.IsoTpTransmitter
