import CanopenReference.IsoTpDeadlines
import CanopenReference.IsoTpEncoding
import CanopenReference.IsoTpTransmitter

/-!
# What a new transmission takes over from the last one

Two transmitters are alike when no later call can tell them apart. A start
makes them alike but for the Wait frames: those that an interrupted transfer has
already taken are still counted.
-/

set_option autoImplicit false

namespace CanopenReference.FreshTransmission
open Library Library.Runs IsoTp IsoTpDelivery IsoTpDeadlines IsoTpEncoding IsoTpTransmitter

/-- The Wait frames that the transmitter still accepts in a row. -/
def waitsLeft (tx : IsoTpTx) : ℕ := tx.config.maxWaitFrames.toNat-tx.waitFrames.toNat

structure SameTransfer (s t : IsoTpTx) : Prop where
  payloadLen : t.payloadLen = s.payloadLen
  front : t.buffer.front s.payloadLen = s.buffer.front s.payloadLen
  offset : t.offset = s.offset
  nextSequence : t.nextSequence = s.nextSequence
  deadlineMs : t.deadlineMs = s.deadlineMs
  waiting : t.waitingFlowControl = s.waitingFlowControl
  waits : waitsLeft t = waitsLeft s
  pacing : s.waitingFlowControl = false → t.remoteBlockSize = s.remoteBlockSize ∧
    t.remoteStMin = s.remoteStMin ∧ t.blockCount = s.blockCount ∧ t.nextFrameMs = s.nextFrameMs

structure Alike (s t : IsoTpTx) : Prop where
  party : SameParty s t
  active : t.active = s.active
  transfer : s.active = true → SameTransfer s t

section Step
variable {s t : IsoTpTx} {now : UInt32} {f : IsoTpCanFrame}

theorem alike_idle (h : SameParty s t) (hs : s.active = false) (ht : t.active = false) :
    Alike s t := by
  refine ⟨h,ht.trans hs.symm,fun ha => ?_⟩
  rw [hs] at ha
  cases ha

theorem alike_reset (h : Alike s t) : Alike (isotpTxReset s) (isotpTxReset t) :=
  alike_idle ⟨h.party.config,h.party.requestId,h.party.responseId⟩ rfl rfl

theorem alike_due (h : Alike s t) (hd : Due s now) : Due t now := by
  have ht := h.transfer hd.active
  obtain ⟨_,_,_,hnext⟩ := ht.pacing hd.waiting
  exact ⟨h.active.trans hd.active,ht.waiting.trans hd.waiting,ht.deadlineMs ▸ hd.inTime,
    hnext ▸ hd.due⟩

theorem alike_chunk (ht : SameTransfer s t) : chunkLen t = chunkLen s := by
  rw [chunkLen,chunkLen,ht.payloadLen,ht.offset]

theorem alike_frame (h : Alike s t) (hd : Due s now) (hmore : s.offset < s.payloadLen) :
    chunkFrame t = chunkFrame s := by
  have ht := h.transfer hd.active
  have hin : s.offset+chunkLen s ≤ s.payloadLen := by
    rw [chunkLen]
    omega
  rw [chunkFrame,chunkFrame,alike_chunk ht,h.party.responseId,ht.nextSequence,ht.offset,
    Buffer.slice_front t.buffer _ _ _ hin,Buffer.slice_front s.buffer _ _ _ hin,ht.front]

theorem alike_fills (h : Alike s t) (hd : Due s now) : FillsBlock t ↔ FillsBlock s := by
  have ht := h.transfer hd.active
  obtain ⟨hsize,_,hcount,_⟩ := ht.pacing hd.waiting
  rw [FillsBlock,FillsBlock,alike_chunk ht,hsize,hcount,ht.offset,ht.payloadLen]

theorem alike_advanced (h : Alike s t) (hd : Due s now) :
    Alike (advanced s now) (advanced t now) := by
  have ht := h.transfer hd.active
  obtain ⟨hsize,hst,hcount,_⟩ := ht.pacing hd.waiting
  refine ⟨⟨h.party.config,h.party.requestId,h.party.responseId⟩,h.active,fun _ => ?_⟩
  refine ⟨ht.payloadLen,ht.front,?_,?_,?_,ht.waiting,ht.waits,fun _ => ⟨hsize,hst,?_,?_⟩⟩
  · simp only [advanced,alike_chunk ht,ht.offset]
  · simp only [advanced,ht.nextSequence]
  · simp only [advanced,h.party.config]
  · simp only [advanced,hcount]
  · simp only [advanced,hst]

theorem alike_next (now : UInt32) (h : Alike s t) : Alike (isotpTxNext s now).1 (isotpTxNext t now).1 ∧
    (isotpTxNext t now).2 = (isotpTxNext s now).2 := by
  have ho := next_outcome s now
  generalize isotpTxNext s now = r at ho ⊢
  cases ho with
  | rests hrest =>
    have hr : isotpTxNext t now = (t,.ok,none) := by
      apply next_computes
      refine .rests fun ha hw => ?_
      have hs := h.active.symm.trans ha
      have ht := h.transfer hs
      have hw' := ht.waiting.symm.trans hw
      rw [ht.deadlineMs,(ht.pacing hw').2.2.2]
      exact hrest hs hw'
    rw [hr]
    exact ⟨h,rfl⟩
  | timedOut hactive hwaiting hlate =>
    have ht := h.transfer hactive
    rw [next_computes (.timedOut (h.active.trans hactive) (ht.waiting.trans hwaiting)
      (ht.deadlineMs ▸ hlate))]
    exact ⟨alike_reset h,rfl⟩
  | completes hd hend =>
    have ht := h.transfer hd.active
    rw [next_computes (.completes (alike_due h hd) (by rw [ht.payloadLen,ht.offset]; exact hend))]
    exact ⟨alike_reset h,rfl⟩
  | blockEnd hd hmore hfull =>
    have ht := h.transfer hd.active
    have ha := alike_advanced h hd
    rw [next_computes (.blockEnd (alike_due h hd) (by rw [ht.payloadLen,ht.offset]; exact hmore)
      ((alike_fills h hd).mpr hfull)),alike_frame h hd hmore]
    refine ⟨⟨⟨h.party.config,h.party.requestId,h.party.responseId⟩,h.active,fun _ => ?_⟩,rfl⟩
    have hnext := ha.transfer hd.active
    exact ⟨hnext.payloadLen,hnext.front,hnext.offset,hnext.nextSequence,hnext.deadlineMs,rfl,
      hnext.waits,nofun⟩
  | sends hd hmore hopen =>
    have ht := h.transfer hd.active
    rw [next_computes (.sends (alike_due h hd) (by rw [ht.payloadLen,ht.offset]; exact hmore)
      fun hn => hopen ((alike_fills h hd).mp hn)),alike_frame h hd hmore]
    exact ⟨alike_advanced h hd,rfl⟩

theorem alike_awaited (h : Alike s t) : Awaited t f ↔ Awaited s f := by
  have hw : s.active = true → t.waitingFlowControl = s.waitingFlowControl :=
    fun ha => (h.transfer ha).waiting
  constructor
  · intro hf
    have hactive := h.active.symm.trans hf.active
    exact ⟨hf.dlcHigh,hf.addressed.trans h.party.requestId,hactive,
      (hw hactive).symm.trans hf.waiting,hf.dlcLow,hf.type⟩
  · intro hf
    exact ⟨hf.dlcHigh,hf.addressed.trans h.party.requestId.symm,h.active.trans hf.active,
      (hw hf.active).trans hf.waiting,hf.dlcLow,hf.type⟩

theorem no_waits_left (tx : IsoTpTx) : tx.config.maxWaitFrames ≤ tx.waitFrames ↔ waitsLeft tx = 0 := by
  rw [waitsLeft,UInt8.le_iff_toNat_le,Nat.sub_eq_zero_iff_le]

theorem alike_ends (h : Alike s t) (hf : Awaited s f) : EndsTransfer t f ↔ EndsTransfer s f := by
  rw [EndsTransfer,EndsTransfer,no_waits_left,no_waits_left,(h.transfer hf.active).waits]

theorem held_waits {tx : IsoTpTx} (f : IsoTpCanFrame) (now : UInt32)
    (hleft : tx.waitFrames < tx.config.maxWaitFrames) :
    waitsLeft (held tx f now) = waitsLeft tx-1 := by
  have hlt := UInt8.lt_iff_toNat_lt.mp hleft
  have hmax := tx.config.maxWaitFrames.toNat_lt
  have hone : (tx.waitFrames+1).toNat = tx.waitFrames.toNat+1 := by
    rw [UInt8.toNat_add]
    exact Nat.mod_eq_of_lt (by show tx.waitFrames.toNat+1 < 256; omega)
  show tx.config.maxWaitFrames.toNat-(tx.waitFrames+1).toNat = _
  rw [hone,waitsLeft]
  omega

theorem alike_flow (f : IsoTpCanFrame) (now : UInt32) (h : Alike s t) :
    Alike (isotpTxFeedFlowControl s f now).1 (isotpTxFeedFlowControl t f now).1 ∧
      (isotpTxFeedFlowControl t f now).2 = (isotpTxFeedFlowControl s f now).2 := by
  have ho := flow_outcome s f now
  generalize isotpTxFeedFlowControl s f now = r at ho ⊢
  cases ho with
  | refused hno =>
    rw [flow_computes (.refused fun hf => hno ((alike_awaited h).mp hf))]
    refine ⟨h,?_⟩
    show refusal t f = refusal s f
    rw [refusal,refusal,h.party.requestId]
  | reserved hf hs =>
    rw [flow_computes (.reserved ((alike_awaited h).mpr hf) hs)]
    exact ⟨h,rfl⟩
  | stopped hf hs =>
    rw [flow_computes (.stopped ((alike_awaited h).mpr hf) ((alike_ends h hf).mpr hs))]
    exact ⟨alike_reset h,rfl⟩
  | waits hf hs hst hleft =>
    have ht := h.transfer hf.active
    have hleft' : t.waitFrames < t.config.maxWaitFrames := by
      rw [← UInt8.not_le,no_waits_left,ht.waits,← no_waits_left,UInt8.not_le]
      exact hleft
    rw [flow_computes (.waits ((alike_awaited h).mpr hf) hs hst hleft')]
    refine ⟨⟨⟨h.party.config,h.party.requestId,h.party.responseId⟩,h.active,fun _ => ?_⟩,rfl⟩
    refine ⟨ht.payloadLen,ht.front,ht.offset,ht.nextSequence,?_,rfl,?_,fun hw => by cases hw⟩
    · simp only [held,h.party.config]
    · show waitsLeft (held t f now) = waitsLeft (held s f now)
      rw [held_waits f now hleft,held_waits f now hleft',ht.waits]
  | clears hf hs hst =>
    have ht := h.transfer hf.active
    rw [flow_computes (.clears ((alike_awaited h).mpr hf) hs hst)]
    refine ⟨⟨⟨h.party.config,h.party.requestId,h.party.responseId⟩,h.active,fun _ => ?_⟩,rfl⟩
    refine ⟨ht.payloadLen,ht.front,ht.offset,ht.nextSequence,?_,rfl,?_,fun _ => ⟨rfl,rfl,rfl,rfl⟩⟩
    · simp only [released,h.party.config]
    · simp only [waitsLeft,released,h.party.config]

theorem alike_tick (now : UInt32) (h : Alike s t) : Alike (isotpTxTick s now).1 (isotpTxTick t now).1 ∧
    (isotpTxTick t now).2 = (isotpTxTick s now).2 := by
  have hlate : txLate t now = txLate s now := by
    rw [txLate,txLate,h.active]
    cases ha : s.active with
    | false => rw [Bool.false_and,Bool.false_and]
    | true => rw [(h.transfer ha).deadlineMs]
  have hs := tx_tick_eq s now
  have ht := tx_tick_eq t now
  rw [hlate] at ht
  by_cases hl : txLate s now = true
  · rw [if_pos hl] at hs ht
    rw [hs,ht]
    exact ⟨alike_reset h,rfl⟩
  · rw [if_neg hl] at hs ht
    rw [hs,ht]
    exact ⟨h,rfl⟩

end Step

def FollowsUp : TransmitterCall → Prop
  | .start _ _ => False
  | _ => True

theorem alike_step (s t : IsoTpTx) (call : TransmitterCall) (h : Alike s t) (hc : FollowsUp call) :
    Alike (transmitterStep s call).1 (transmitterStep t call).1 ∧
      (transmitterStep s call).2 = (transmitterStep t call).2 := by
  cases call with
  | start p now => exact absurd hc id
  | flowControl f now =>
    obtain ⟨hnext,hsame⟩ := alike_flow f now h
    refine ⟨hnext,?_⟩
    simp only [transmitterStep,hsame]
  | next now =>
    obtain ⟨hnext,hsame⟩ := alike_next now h
    refine ⟨hnext,?_⟩
    simp only [transmitterStep,hsame]
  | tick now =>
    obtain ⟨hnext,hsame⟩ := alike_tick now h
    refine ⟨hnext,?_⟩
    simp only [transmitterStep,hsame]

/-- A start that is taken in both is followed by the same results and frames,
whatever calls come next. -/
def Independent (s t : IsoTpTx) (p : List UInt8) (start : UInt32) : Prop :=
  (isotpTxStart s p start).2.1 = .txFrameReady →
    (isotpTxStart s p start).2 = (isotpTxStart t p start).2 ∧
    ∀ calls, (∀ call ∈ calls, FollowsUp call) →
      (run transmitterStep (isotpTxStart s p start).1 calls).2 =
        (run transmitterStep (isotpTxStart t p start).1 calls).2

section Start
variable {s t : IsoTpTx} {p : List UInt8} {start : UInt32}

/-- A start makes the transmitters alike if it sends everything, or if as many
Wait frames are left. -/
theorem started_alike (h : SameParty s t) (hw : 8 ≤ p.length → waitsLeft s = waitsLeft t)
    (hready : (isotpTxStart s p start).2.1 = .txFrameReady) :
    Alike (isotpTxStart s p start).1 (isotpTxStart t p start).1 ∧
      (isotpTxStart s p start).2 = (isotpTxStart t p start).2 := by
  obtain ⟨h1,hm⟩ := ready_length hready
  by_cases h7 : p.length ≤ 7
  · rw [start_single s start h1 h7,start_single t start h1 h7,h.responseId]
    exact ⟨alike_idle ⟨h.config,h.requestId,h.responseId⟩ rfl rfl,rfl⟩
  · have h8 := Nat.lt_of_not_le h7
    rw [start_first s start h8 hm,start_first t start h8 hm,h.responseId]
    refine ⟨⟨⟨h.config,h.requestId,h.responseId⟩,rfl,fun _ => ?_⟩,rfl⟩
    refine ⟨rfl,?_,rfl,rfl,?_,rfl,(hw h8).symm,fun hc => absurd hc.symm Bool.false_ne_true⟩
    · exact (Buffer.front_write_zero t.buffer p hm).trans
        (Buffer.front_write_zero s.buffer p hm).symm
    · simp only [begun,h.config]

/-- The Wait frame that changes nothing else. -/
def waitFrame (id : UInt32) : IsoTpCanFrame := filledFrame id [0x31,0,0]

theorem wait_awaited {tx : IsoTpTx} (hactive : tx.active = true)
    (hwaiting : tx.waitingFlowControl = true) : Awaited tx (waitFrame tx.requestId) ∧
      flowStatus (waitFrame tx.requestId) = isotpFcWait ∧
      ValidStMin ((waitFrame tx.requestId).byte 2) := by
  have h0 := filled_byte tx.requestId [0x31,0,0] 0 (by decide) (by decide)
  have h2 := filled_byte tx.requestId [0x31,0,0] 2 (by decide) (by decide)
  refine ⟨⟨Nat.le_of_ble_eq_true rfl,rfl,hactive,hwaiting,Nat.le_refl 3,?_⟩,?_,?_⟩
  · rw [pciType,waitFrame,h0]
    decide
  · rw [flowStatus,waitFrame,h0]
    decide
  · rw [waitFrame,h2]
    exact Or.inl (by decide)

theorem waits_accepted (n : ℕ) (tx : IsoTpTx) (hactive : tx.active = true)
    (hwaiting : tx.waitingFlowControl = true) :
    (∀ r ∈ (run transmitterStep tx
      (List.replicate n (.flowControl (waitFrame tx.requestId) 0))).2, r.status = .ok) ↔
    n ≤ waitsLeft tx := by
  induction n generalizing tx with
  | zero => simp
  | succ n ih =>
    obtain ⟨hf,hs,hst⟩ := wait_awaited hactive hwaiting
    rw [List.replicate_succ,run_cons]
    by_cases hleft : tx.waitFrames < tx.config.maxWaitFrames
    · have hfed := flow_computes (.waits hf hs hst hleft : FlowOutcome tx _ 0 _)
      have hpos : waitsLeft tx ≠ 0 := fun h0 =>
        UInt8.not_le.mpr hleft ((no_waits_left tx).mpr h0)
      have hrest := ih (held tx (waitFrame tx.requestId) 0) hactive rfl
      rw [held_waits _ 0 hleft] at hrest
      simp only [transmitterStep,hfed,List.singleton_append,List.forall_mem_cons,true_and]
      refine hrest.trans ?_
      omega
    · have hnone := (no_waits_left tx).mp (UInt8.not_lt.mp hleft)
      have hfed := flow_computes (.stopped hf (Or.inr (Or.inr ⟨hs,UInt8.not_lt.mp hleft⟩)) :
        FlowOutcome tx _ 0 _)
      refine iff_of_false (fun h => ?_) (by omega)
      have hfirst := h ⟨.flowControl (waitFrame tx.requestId) 0,.errFlowControl,none⟩ (by
        simp [transmitterStep,hfed])
      cases hfirst

theorem waits_left_same (h : SameParty s t) (h8 : 8 ≤ p.length) (hm : p.length ≤ isotpMaxPayload)
    (hsame : ∀ calls, (∀ call ∈ calls, FollowsUp call) →
      (run transmitterStep (isotpTxStart s p start).1 calls).2 =
        (run transmitterStep (isotpTxStart t p start).1 calls).2) :
    waitsLeft s = waitsLeft t := by
  have hiff : ∀ n, n ≤ waitsLeft s ↔ n ≤ waitsLeft t := by
    intro n
    have hrun := hsame (List.replicate n (.flowControl (waitFrame s.requestId) 0))
      fun call hcall => by
        rw [List.eq_of_mem_replicate hcall]
        trivial
    rw [start_first s start h8 hm,start_first t start h8 hm] at hrun
    have hs : _ ↔ n ≤ waitsLeft s := waits_accepted n (begun s p start) rfl rfl
    have ht : _ ↔ n ≤ waitsLeft t := waits_accepted n (begun t p start) rfl rfl
    rw [show (begun t p start).requestId = s.requestId from h.requestId] at ht
    rw [← hs,← ht]
    simp only at hrun
    rw [← hrun]
    exact Iff.rfl
  exact Nat.le_antisymm ((hiff _).mp (Nat.le_refl _)) ((hiff _).mpr (Nat.le_refl _))

end Start

/-- A transmission that is started in two transmitters of one configuration goes
on in the same way exactly when it is a single frame or the same number of Wait
frames is left to both. -/
theorem independent_iff (s t : IsoTpTx) (p : List UInt8) (start : UInt32) (h : SameParty s t) :
    Independent s t p start ↔
      (8 ≤ p.length → p.length ≤ isotpMaxPayload → waitsLeft s = waitsLeft t) := by
  constructor
  · intro hsame h8 hm
    have hready : (isotpTxStart s p start).2.1 = .txFrameReady := by rw [start_first s start h8 hm]
    exact waits_left_same h h8 hm (hsame hready).2
  · intro hw hready
    obtain ⟨_,hm⟩ := ready_length hready
    obtain ⟨halike,hfirst⟩ := started_alike h (fun h8 => hw h8 hm) hready
    exact ⟨hfirst,fun calls hc =>
      (run_related transmitterStep transmitterStep Alike FollowsUp alike_step _ _ calls halike hc).2⟩

def eightBytes : List UInt8 := [1,2,3,4,5,6,7,8]

/-- The transmitter amid a transfer, with this flow control so far. -/
def interruptedTx (frames : List IsoTpCanFrame) : IsoTpTx :=
  (run transmitterStep serverTx (.start eightBytes 0::frames.map fun f => .flowControl f 0)).1

theorem independent_iff_clear :
    Independent (interruptedTx [waitFrame 0x7E0,ctsFrame 0x7E0 (0,0)]) serverTx eightBytes 0 :=
  (independent_iff _ serverTx eightBytes 0 ⟨by decide +kernel,by decide +kernel,by decide +kernel⟩).mpr
    fun _ _ => by decide +kernel

/-- After three Wait frames in the transfer before, the first one of the new
transfer ends it. -/
theorem waits_counted_on :
    SameParty (interruptedTx (List.replicate 3 (waitFrame 0x7E0))) serverTx ∧
      ¬Independent (interruptedTx (List.replicate 3 (waitFrame 0x7E0))) serverTx eightBytes 0 := by
  refine ⟨⟨by decide +kernel,by decide +kernel,by decide +kernel⟩,fun h => ?_⟩
  have hready : (isotpTxStart (interruptedTx (List.replicate 3 (waitFrame 0x7E0))) eightBytes 0).2.1 =
      .txFrameReady := by decide +kernel
  have hrun := (h hready).2 [.flowControl (waitFrame 0x7E0) 0] (by simp [FollowsUp])
  revert hrun
  decide +kernel

end CanopenReference.FreshTransmission
