import CanopenReference.IsoTpDeadlines
import CanopenReference.IsoTpEncoding
import CanopenReference.IsoTpTransmitter
import CanopenReference.Library.History

/-!
# Pacing of the transmitter

The four calls of the transmitter come in any order at times that never run
back, and the history keeps the time of each. Every consecutive frame is
measured against the start and the Clear-To-Send frame that it goes back to.
-/

set_option autoImplicit false

namespace CanopenReference.IsoTpPacing
open Library Library.Runs Library.History IsoTp IsoTpDelivery IsoTpDeadlines IsoTpEncoding
open IsoTpTransmitter

inductive TxAction where
  | start (payload : List UInt8)
  | flowControl (frame : IsoTpCanFrame)
  | next
  | tick
  deriving DecidableEq

def TxAction.call (now : UInt32) : TxAction → TransmitterCall
  | .start p => .start p now
  | .flowControl f => .flowControl f now
  | .next => .next now
  | .tick => .tick now

structure TimedRecord where
  time : ℕ
  record : TransmitterRecord
  deriving DecidableEq

/-- A call some time after the last one. -/
def timedStep (s : IsoTpTx × ℕ) (input : ℕ × TxAction) : (IsoTpTx × ℕ) × List TimedRecord :=
  let time := s.2+input.1
  let r := transmitterStep s.1 (input.2.call (UInt32.ofNat time))
  ((r.1,time),r.2.map (TimedRecord.mk time))

def startOf (e : TimedRecord) : Option (List UInt8) :=
  match e.record.call with
  | .start p _ => if e.record.status = .txFrameReady then some p else none
  | _ => none

def flowOf (id : UInt32) (e : TimedRecord) : Option IsoTpCanFrame :=
  match e.record.call with
  | .flowControl f _ =>
    if f.canId = id ∧ e.record.status ≠ .errArgument ∧ e.record.status ≠ .errState then some f
    else none
  | _ => none

def clearOf (id : UInt32) (e : TimedRecord) : Option (UInt8 × UInt8) :=
  match flowOf id e with
  | some f =>
    if flowStatus f = isotpFcCts ∧ e.record.status = .ok then some (f.byte 1,f.byte 2) else none
  | none => none

def Stops (id : UInt32) (e : TimedRecord) : Prop :=
  e.record.status = .errTimeout ∨ ∃ f, flowOf id e = some f ∧
    (flowStatus f = isotpFcOverflow ∨
      (flowStatus f = isotpFcCts ∨ flowStatus f = isotpFcWait) ∧ ¬ValidStMin (f.byte 2) ∨
      flowStatus f = isotpFcWait ∧ e.record.status = .errFlowControl)

def consecutiveOf (e : TimedRecord) : Option (List UInt8) :=
  match e.record.call with
  | .next _ => e.record.frame.map frameData
  | _ => none

def sent (events : List TimedRecord) : List TimedRecord :=
  events.filter fun e => (consecutiveOf e).isSome

/-- What came since the last start. -/
def transfer (history : List TimedRecord) : List TimedRecord :=
  since (fun e => (startOf e).isSome) history

/-- What came since the last Clear-To-Send frame of the transfer. -/
def block (id : UInt32) (history : List TimedRecord) : List TimedRecord :=
  since (fun e => (clearOf id e).isSome) (transfer history)

/-- The consecutive frame behind `k` others carries its number and its slice. -/
def NextSlice (p : List UInt8) (k : ℕ) (data : List UInt8) : Prop :=
  6+7*k < p.length ∧ data = (0x20 ||| UInt8.ofNat ((k+1)%16))::(p.drop (6+7*k)).take 7

/-- A consecutive frame is the next slice of the payload, in a transfer that
nothing has stopped, within its block and late enough after the others there. -/
def Paced (id : UInt32) (before : List TimedRecord) (e : TimedRecord) : Prop :=
  ∀ data, consecutiveOf e = some data → ∃ p blockSize stMin,
    latest startOf before = some p ∧
    (∀ x ∈ transfer before, ¬Stops id x) ∧
    NextSlice p (sent (transfer before)).length data ∧
    latest (clearOf id) (transfer before) = some (blockSize,stMin) ∧
    (blockSize ≠ 0 → (sent (block id before)).length < blockSize.toNat) ∧
    ∀ x ∈ sent (block id before), x.time+(stMinToMs stMin).toNat ≤ e.time

/-- The transmitter may send: where it stands in the block that the last
Clear-To-Send frame has opened. -/
structure InBlock (id : UInt32) (tx : IsoTpTx) (now : ℕ) (past : List TimedRecord) : Prop where
  clear : latest (clearOf id) (transfer past) = some (tx.remoteBlockSize,tx.remoteStMin)
  count : tx.remoteBlockSize ≠ 0 → tx.offset < tx.payloadLen →
    tx.blockCount.toNat = (sent (block id past)).length ∧ tx.blockCount < tx.remoteBlockSize
  due : ∃ due, tx.nextFrameMs = UInt32.ofNat due ∧ due ≤ now+0x7F ∧
    ∀ x ∈ sent (block id past), x.time+(stMinToMs tx.remoteStMin).toNat ≤ due

def Sending (id : UInt32) (tx : IsoTpTx) (now : ℕ) (past : List TimedRecord) : Prop :=
  ∃ p, latest startOf past = some p ∧ Emitted p tx (sent (transfer past)).length ∧
    (∀ x ∈ transfer past, ¬Stops id x) ∧
    (tx.waitingFlowControl = false → InBlock id tx now past)

structure Tracks (id : UInt32) (s : IsoTpTx × ℕ) (past : List TimedRecord) : Prop where
  requestId : s.1.requestId = id
  paced : Always (Paced id) past
  sending : s.1.active = true → Sending id s.1 s.2 past

section Events
variable {id : UInt32} {e : TimedRecord} (past : List TimedRecord)

theorem transfer_concat (h : startOf e = none) : transfer (past++[e]) = transfer past++[e] := by
  rw [transfer,since_concat,h]
  rfl

theorem transfer_start {p : List UInt8} (h : startOf e = some p) : transfer (past++[e]) = [] := by
  rw [transfer,since_concat,h]
  rfl

theorem block_concat (hs : startOf e = none) (hc : clearOf id e = none) :
    block id (past++[e]) = block id past++[e] := by
  rw [block,transfer_concat past hs,since_concat,hc]
  rfl

theorem block_clear {flow : UInt8 × UInt8} (hs : startOf e = none) (hc : clearOf id e = some flow) :
    block id (past++[e]) = [] := by
  rw [block,transfer_concat past hs,since_concat,hc]
  rfl

theorem sent_quiet (h : consecutiveOf e = none) : sent (past++[e]) = sent past := by
  simp [sent,List.filter_append,h]

theorem sent_frame {data : List UInt8} (h : consecutiveOf e = some data) :
    sent (past++[e]) = sent past++[e] := by
  simp [sent,List.filter_append,h]

theorem start_same (h : startOf e = none) : latest startOf (past++[e]) = latest startOf past := by
  rw [latest_concat,h,Option.none_or]

theorem clear_same (hs : startOf e = none) (hc : clearOf id e = none) :
    latest (clearOf id) (transfer (past++[e])) = latest (clearOf id) (transfer past) := by
  rw [transfer_concat past hs,latest_concat,hc,Option.none_or]

theorem paced_quiet (h : consecutiveOf e = none) : Paced id past e := by
  intro data hd
  rw [h] at hd
  cases hd

theorem stops_concat (hs : startOf e = none) (h : ∀ x ∈ transfer past, ¬Stops id x)
    (he : ¬Stops id e) : ∀ x ∈ transfer (past++[e]), ¬Stops id x := by
  intro x hx
  rw [transfer_concat past hs] at hx
  rcases List.mem_append.mp hx with hx | hx
  · exact h x hx
  · rw [List.mem_singleton.mp hx]
    exact he

end Events

structure Quiet (id : UInt32) (e : TimedRecord) : Prop where
  start : startOf e = none
  clear : clearOf id e = none
  consecutive : consecutiveOf e = none
  stop : ¬Stops id e

section Step
variable {id : UInt32} {tx : IsoTpTx} {now : ℕ} {past : List TimedRecord} {e : TimedRecord}

theorem block_later (h : InBlock id tx now past) (hq : Quiet id e) (delay : ℕ) :
    InBlock id tx (now+delay) (past++[e]) := by
  obtain ⟨due,hdue,hle,hsent⟩ := h.due
  have hblock : sent (block id (past++[e])) = sent (block id past) := by
    rw [block_concat past hq.start hq.clear,sent_quiet _ hq.consecutive]
  refine ⟨(clear_same past hq.start hq.clear).trans h.clear,?_,due,hdue,by omega,?_⟩
  · rw [hblock]
    exact h.count
  · rw [hblock]
    exact hsent

theorem sending_quiet (h : Sending id tx now past) (hq : Quiet id e) (delay : ℕ) :
    Sending id tx (now+delay) (past++[e]) := by
  obtain ⟨p,hp,hk,hstop,hopen⟩ := h
  refine ⟨p,(start_same past hq.start).trans hp,?_,stops_concat past hq.start hstop hq.stop,
    fun hw => block_later (hopen hw) hq delay⟩
  rw [transfer_concat past hq.start,sent_quiet _ hq.consecutive]
  exact hk

theorem tracks_quiet (h : Tracks id (tx,now) past) (hq : Quiet id e) (delay : ℕ) :
    Tracks id (tx,now+delay) (past++[e]) :=
  ⟨h.requestId,always_concat h.paced (paced_quiet past hq.consecutive),
    fun ha => sending_quiet (h.sending ha) hq delay⟩

theorem tracks_idle (h : Tracks id (tx,now) past) (tx' : IsoTpTx) (time : ℕ)
    (hid : tx'.requestId = tx.requestId) (hidle : tx'.active = false)
    (hc : consecutiveOf e = none) : Tracks id (tx',time) (past++[e]) := by
  refine ⟨hid.trans h.requestId,always_concat h.paced (paced_quiet past hc),fun ha => ?_⟩
  rw [hidle] at ha
  cases ha

theorem sending_waits (h : Sending id tx now past) (hq : Quiet id e) (tx' : IsoTpTx) (time : ℕ)
    (hk : ∀ p k, Emitted p tx k → Emitted p tx' k) (hw : tx'.waitingFlowControl = true) :
    Sending id tx' time (past++[e]) := by
  obtain ⟨p,hp,hsent,hstop,_⟩ := h
  refine ⟨p,(start_same past hq.start).trans hp,?_,stops_concat past hq.start hstop hq.stop,?_⟩
  · rw [transfer_concat past hq.start,sent_quiet _ hq.consecutive]
    exact hk p _ hsent
  · intro hopen
    rw [hw] at hopen
    cases hopen

theorem quiet_plain {r : TransmitterRecord} (time : ℕ) (hstart : startOf ⟨time,r⟩ = none)
    (hflow : flowOf id ⟨time,r⟩ = none) (hnext : consecutiveOf ⟨time,r⟩ = none)
    (ht : r.status ≠ .errTimeout) : Quiet id ⟨time,r⟩ := by
  refine ⟨hstart,?_,hnext,?_⟩
  · rw [clearOf,hflow]
  · rintro (h | ⟨f,hf,_⟩)
    · exact ht h
    · rw [hflow] at hf
      cases hf

theorem start_step (h : Tracks id (tx,now) past) (delay : ℕ) (p : List UInt8) :
    Tracks id (timedStep (tx,now) (delay,.start p)).1
      (past++(timedStep (tx,now) (delay,.start p)).2) := by
  have ho := start_outcome tx p (UInt32.ofNat (now+delay))
  have hbegun := emitted_start (p := p) tx (UInt32.ofNat (now+delay))
  simp only [timedStep,TxAction.call,transmitterStep]
  generalize isotpTxStart tx p (UInt32.ofNat (now+delay)) = r at ho hbegun
  cases ho with
  | refused status hstatus _ =>
    have hne : status ≠ .txFrameReady ∧ status ≠ .errTimeout := by
      rcases hstatus with rfl | rfl <;> decide
    have hq : Quiet id ⟨now+delay,⟨.start p (UInt32.ofNat (now+delay)),status,none⟩⟩ :=
      quiet_plain _ (if_neg hne.1) rfl rfl hne.2
    exact tracks_quiet h hq delay
  | single _ _ => exact tracks_idle h _ (now+delay) rfl rfl rfl
  | first h8 hm =>
    obtain ⟨tx',hstart,hsent,_⟩ := hbegun h8 hm
    cases hstart
    let e : TimedRecord := ⟨now+delay,⟨.start p (UInt32.ofNat (now+delay)),.txFrameReady,
      some (firstFrameOf tx.responseId p)⟩⟩
    have hs : startOf e = some p := rfl
    refine ⟨h.requestId,always_concat h.paced (paced_quiet past rfl),fun _ => ?_⟩
    have htransfer : transfer (past++[e]) = [] := transfer_start past hs
    refine ⟨p,latest_concat startOf past e,?_,?_,fun hopen => by cases hopen⟩
    · show Emitted p _ (sent (transfer (past++[e]))).length
      rw [htransfer]
      exact hsent
    · show ∀ x ∈ transfer (past++[e]), ¬Stops id x
      rw [htransfer]
      exact fun x hx => by cases hx

theorem tick_step (h : Tracks id (tx,now) past) (delay : ℕ) :
    Tracks id (timedStep (tx,now) (delay,.tick)).1 (past++(timedStep (tx,now) (delay,.tick)).2) := by
  simp only [timedStep,TxAction.call,transmitterStep,tx_tick_eq]
  by_cases hl : txLate tx (UInt32.ofNat (now+delay)) = true
  · rw [if_pos hl]
    exact tracks_idle h (isotpTxReset tx) (now+delay) rfl rfl rfl
  · rw [if_neg hl]
    have hq : Quiet id ⟨now+delay,⟨.tick (UInt32.ofNat (now+delay)),.ok,none⟩⟩ :=
      quiet_plain _ rfl rfl rfl nofun
    exact tracks_quiet h hq delay

theorem flow_quiet {f : IsoTpCanFrame} {stamp : UInt32} {status : IsoTpStatus} (time : ℕ)
    (ht : status ≠ .errTimeout)
    (h : f.canId = id → status ≠ .errArgument → status ≠ .errState →
      flowStatus f = isotpFcWait ∧ ValidStMin (f.byte 2) ∧ status = .ok ∨
        flowStatus f ≠ isotpFcOverflow ∧ flowStatus f ≠ isotpFcCts ∧ flowStatus f ≠ isotpFcWait) :
    Quiet id ⟨time,⟨.flowControl f stamp,status,none⟩⟩ := by
  by_cases hread : f.canId = id ∧ status ≠ .errArgument ∧ status ≠ .errState
  · have hflow : flowOf id ⟨time,⟨.flowControl f stamp,status,none⟩⟩ = some f := if_pos hread
    have hs := h hread.1 hread.2.1 hread.2.2
    refine ⟨rfl,?_,rfl,?_⟩
    · rw [clearOf,hflow]
      refine if_neg fun hc => ?_
      rcases hs with ⟨hw,_⟩ | ⟨_,hn,_⟩
      · exact absurd (hw.symm.trans hc.1) (by decide)
      · exact hn hc.1
    · rintro (hl | ⟨g,hg,hstop⟩)
      · exact ht hl
      · rw [hflow] at hg
        cases hg
        rcases hs with ⟨hw,hst,rfl⟩ | ⟨ho,hc,hw⟩
        · rcases hstop with ho | ⟨_,hn⟩ | ⟨_,hn⟩
          · exact absurd (hw.symm.trans ho) (by decide)
          · exact hn hst
          · cases hn
        · rcases hstop with hn | ⟨hn | hn,_⟩ | ⟨hn,_⟩
          · exact ho hn
          · exact hc hn
          · exact hw hn
          · exact hw hn
  · exact quiet_plain time rfl (if_neg hread) rfl ht

theorem flow_step (h : Tracks id (tx,now) past) (delay : ℕ) (f : IsoTpCanFrame) :
    Tracks id (timedStep (tx,now) (delay,.flowControl f)).1
      (past++(timedStep (tx,now) (delay,.flowControl f)).2) := by
  have ho := flow_outcome tx f (UInt32.ofNat (now+delay))
  simp only [timedStep,TxAction.call,transmitterStep]
  generalize isotpTxFeedFlowControl tx f (UInt32.ofNat (now+delay)) = r at ho
  cases ho with
  | refused _ =>
    have hstatus := refusal_cases tx f
    generalize refusal tx f = status at hstatus
    refine tracks_quiet h (flow_quiet _ ?_ ?_) delay
    · rcases hstatus with rfl | rfl | ⟨rfl,_⟩ <;> nofun
    · intro hid ha hs
      rcases hstatus with hr | hr | ⟨_,hr⟩
      · exact absurd hr ha
      · exact absurd hr hs
      · exact absurd (hid.trans h.requestId.symm) hr
  | reserved _ hs =>
    have hq : Quiet id
        ⟨now+delay,⟨.flowControl f (UInt32.ofNat (now+delay)),.errFlowControl,none⟩⟩ :=
      flow_quiet _ nofun fun _ _ _ => Or.inr hs
    exact tracks_quiet h hq delay
  | stopped _ _ => exact tracks_idle h (isotpTxReset tx) _ rfl rfl rfl
  | waits hf hs hst _ =>
    have hq : Quiet id ⟨now+delay,⟨.flowControl f (UInt32.ofNat (now+delay)),.ok,none⟩⟩ :=
      flow_quiet _ nofun fun _ _ _ => Or.inl ⟨hs,hst,rfl⟩
    refine ⟨h.requestId,always_concat h.paced (paced_quiet past rfl),fun _ => ?_⟩
    refine sending_waits (h.sending hf.active) hq _ _ (fun p k hk => ?_) rfl
    exact ⟨hk.long,hk.within,hk.active,hk.payloadLen,hk.offset,hk.nextSequence,hk.buffer⟩
  | clears hf hs hst =>
    obtain ⟨p,hp,hk,hstop,_⟩ := h.sending hf.active
    let e : TimedRecord := ⟨now+delay,⟨.flowControl f (UInt32.ofNat (now+delay)),.ok,none⟩⟩
    have hflow : flowOf id e = some f :=
      if_pos ⟨hf.addressed.trans h.requestId,nofun,nofun⟩
    have hclear : clearOf id e = some (f.byte 1,f.byte 2) := by
      rw [clearOf,hflow]
      exact if_pos ⟨hs,rfl⟩
    have hgo : ¬Stops id e := by
      rintro (hl | ⟨g,hg,hstop⟩)
      · cases hl
      · rw [hflow] at hg
        cases hg
        rcases hstop with hn | ⟨_,hn⟩ | ⟨hn,_⟩
        · exact absurd (hs.symm.trans hn) (by decide)
        · exact hn hst
        · exact absurd (hs.symm.trans hn) (by decide)
    refine ⟨h.requestId,always_concat h.paced (paced_quiet past rfl),fun _ => ?_⟩
    refine ⟨p,(start_same past rfl).trans hp,?_,stops_concat past rfl hstop hgo,fun _ => ?_⟩
    · show Emitted p _ (sent (transfer (past++[e]))).length
      rw [transfer_concat past rfl,sent_quiet _ rfl]
      exact ⟨hk.long,hk.within,hk.active,hk.payloadLen,hk.offset,hk.nextSequence,hk.buffer⟩
    · have hblock : block id (past++[e]) = [] := block_clear past rfl hclear
      refine ⟨?_,fun hb _ => ?_,now+delay,rfl,Nat.le_add_right _ _,?_⟩
      · show latest (clearOf id) (transfer (past++[e])) = _
        rw [transfer_concat past rfl,latest_concat,hclear,Option.some_or]
        rfl
      · refine ⟨?_,UInt8.pos_iff_ne_zero.mpr hb⟩
        show (0:UInt8).toNat = (sent (block id (past++[e]))).length
        rw [hblock]
        rfl
      · show ∀ x ∈ sent (block id (past++[e])), _
        rw [hblock]
        exact fun x hx => by cases hx

theorem due_sends {p : List UInt8} {k : ℕ} {stamp : UInt32} (hk : Emitted p tx k)
    (hd : Due tx stamp) (hmore : tx.offset < tx.payloadLen) :
    NextSlice p k (frameData (chunkFrame tx)) ∧ Emitted p (advanced tx stamp) (k+1) := by
  rw [hk.payloadLen,hk.offset] at hmore
  have hlt : k < consecutives p := (carried_lt hk.long k).mp hmore
  obtain ⟨tx',hnext,hsent,_⟩ := emitted_sends stamp hk hd.waiting hlt hd.inTime hd.due
  have ho := next_outcome tx stamp
  rw [hnext] at ho
  have hslice : NextSlice p k (frameData (nextFrameOf tx.responseId p k)) := by
    refine ⟨?_,wire_data tx.responseId p (k+1)⟩
    rw [carried_eq hk.long k hlt] at hmore
    exact hmore
  generalize nextFrameOf tx.responseId p k = f at ho hslice
  cases ho with
  | blockEnd _ _ _ =>
    exact ⟨hslice,⟨hsent.long,hsent.within,hk.active,hsent.payloadLen,hsent.offset,
      hsent.nextSequence,hsent.buffer⟩⟩
  | sends _ _ _ => exact ⟨hslice,hsent⟩

theorem st_min_le (st : UInt8) : (stMinToMs st).toNat ≤ 0x7F := by
  have h : ∀ i : Fin 256, (stMinToMs (UInt8.ofNat i.val)).toNat ≤ 0x7F := by decide +kernel
  have hs := h ⟨st.toNat,st.toNat_lt⟩
  simpa using hs

theorem due_in_time {due time : ℕ} (hle : due ≤ time+0x7F)
    (h : deadlineExpired (UInt32.ofNat time) (UInt32.ofNat due) = true) : due ≤ time := by
  by_contra hlate
  have hearly := Clock.not_reached_before (Nat.lt_of_not_le hlate) (by omega)
  rw [deadlineExpired,hearly] at h
  cases h

theorem sent_paced (h : Tracks id (tx,now) past) (delay : ℕ)
    (hd : Due tx (UInt32.ofNat (now+delay))) (hmore : tx.offset < tx.payloadLen)
    (htime : e.time = now+delay) (hc : consecutiveOf e = some (frameData (chunkFrame tx))) :
    Always (Paced id) (past++[e]) := by
  obtain ⟨p,hp,hk,hstop,hopen⟩ := h.sending hd.active
  obtain ⟨hclear,hcount,due,hdue,hle,hsent⟩ := hopen hd.waiting
  have hreached := hd.due
  rw [hdue] at hreached
  have hcome := due_in_time (by omega) hreached
  apply always_concat h.paced
  intro data hdata
  rw [hc] at hdata
  cases hdata
  refine ⟨p,tx.remoteBlockSize,tx.remoteStMin,hp,hstop,(due_sends hk hd hmore).1,hclear,?_,?_⟩
  · intro hb
    obtain ⟨hlen,hroom⟩ := hcount hb hmore
    rw [← hlen]
    exact UInt8.lt_iff_toNat_lt.mp hroom
  · intro x hx
    rw [htime]
    exact Nat.le_trans (hsent x hx) hcome

theorem next_stops {stamp : UInt32} {status : IsoTpStatus} {frame : Option IsoTpCanFrame}
    (time : ℕ) (h : status ≠ .errTimeout) : ¬Stops id ⟨time,⟨.next stamp,status,frame⟩⟩ := by
  rintro (hl | ⟨f,hf,_⟩)
  · exact h hl
  · cases hf

theorem sent_block (h : InBlock id tx now past) (delay : ℕ)
    (hd : Due tx (UInt32.ofNat (now+delay))) (hmore : tx.offset < tx.payloadLen)
    (hopen : ¬FillsBlock tx) (htime : e.time = now+delay) (hs : startOf e = none)
    (hcl : clearOf id e = none) {data : List UInt8} (hc : consecutiveOf e = some data) :
    InBlock id (advanced tx (UInt32.ofNat (now+delay))) (now+delay) (past++[e]) := by
  obtain ⟨due,hdue,hle,hsent⟩ := h.due
  have hreached := hd.due
  rw [hdue] at hreached
  have hcome := due_in_time (by omega) hreached
  have hblock : sent (block id (past++[e])) = sent (block id past)++[e] := by
    rw [block_concat past hs hcl,sent_frame _ hc]
  have hgap := st_min_le tx.remoteStMin
  refine ⟨(clear_same past hs hcl).trans h.clear,fun hb hleft => ?_,
    now+delay+(stMinToMs tx.remoteStMin).toNat,?_,Nat.add_le_add_left hgap _,fun x hx => ?_⟩
  · obtain ⟨hlen,hroom⟩ := h.count hb hmore
    have hmax := tx.remoteBlockSize.toNat_lt
    have hbelow := UInt8.lt_iff_toNat_lt.mp hroom
    have hone : (tx.blockCount+1).toNat = tx.blockCount.toNat+1 := by
      rw [UInt8.toNat_add]
      exact Nat.mod_eq_of_lt (by show tx.blockCount.toNat+1 < 256; omega)
    refine ⟨?_,UInt8.not_le.mp fun hfull => hopen ⟨hb,hfull,hleft⟩⟩
    show (tx.blockCount+1).toNat = _
    rw [hone,hlen,hblock,List.length_append,List.length_singleton]
  · show UInt32.ofNat (now+delay)+stMinToMs tx.remoteStMin = _
    rw [UInt32.ofNat_add (now+delay),UInt32.ofNat_toNat]
  · rw [hblock] at hx
    show x.time+(stMinToMs tx.remoteStMin).toNat ≤ _
    rcases List.mem_append.mp hx with hx | hx
    · have hold : x.time+(stMinToMs tx.remoteStMin).toNat ≤ due := hsent x hx
      omega
    · rw [List.mem_singleton.mp hx]
      exact Nat.le_of_eq (by rw [htime])

theorem next_step (h : Tracks id (tx,now) past) (delay : ℕ) :
    Tracks id (timedStep (tx,now) (delay,.next)).1 (past++(timedStep (tx,now) (delay,.next)).2) := by
  have ho := next_outcome tx (UInt32.ofNat (now+delay))
  simp only [timedStep,TxAction.call,transmitterStep]
  generalize isotpTxNext tx (UInt32.ofNat (now+delay)) = r at ho
  cases ho with
  | rests _ =>
    have hq : Quiet id ⟨now+delay,⟨.next (UInt32.ofNat (now+delay)),.ok,none⟩⟩ :=
      quiet_plain _ rfl rfl rfl nofun
    exact tracks_quiet h hq delay
  | timedOut _ _ _ => exact tracks_idle h (isotpTxReset tx) (now+delay) rfl rfl rfl
  | completes _ _ => exact tracks_idle h (isotpTxReset tx) (now+delay) rfl rfl rfl
  | blockEnd hd hmore _ =>
    let e : TimedRecord := ⟨now+delay,⟨.next (UInt32.ofNat (now+delay)),.txFrameReady,
      some (chunkFrame tx)⟩⟩
    have hc : consecutiveOf e = some (frameData (chunkFrame tx)) := rfl
    obtain ⟨p,hp,hk,hstop,_⟩ := h.sending hd.active
    obtain ⟨_,hnext⟩ := due_sends hk hd hmore
    refine ⟨h.requestId,sent_paced h delay hd hmore rfl hc,fun _ => ⟨p,(start_same past rfl).trans hp,
      ?_,stops_concat past rfl hstop (next_stops _ nofun),fun hw => by cases hw⟩⟩
    show Emitted p _ (sent (transfer (past++[e]))).length
    rw [transfer_concat past rfl,sent_frame _ hc,List.length_append]
    exact ⟨hnext.long,hnext.within,hnext.active,hnext.payloadLen,hnext.offset,hnext.nextSequence,
      hnext.buffer⟩
  | sends hd hmore hfull =>
    let e : TimedRecord := ⟨now+delay,⟨.next (UInt32.ofNat (now+delay)),.txFrameReady,
      some (chunkFrame tx)⟩⟩
    have hc : consecutiveOf e = some (frameData (chunkFrame tx)) := rfl
    obtain ⟨p,hp,hk,hstop,hopen⟩ := h.sending hd.active
    obtain ⟨_,hnext⟩ := due_sends hk hd hmore
    refine ⟨h.requestId,sent_paced h delay hd hmore rfl hc,fun _ => ⟨p,(start_same past rfl).trans hp,
      ?_,stops_concat past rfl hstop (next_stops _ nofun),fun _ =>
        sent_block (hopen hd.waiting) delay hd hmore hfull rfl rfl rfl hc⟩⟩
    show Emitted p _ (sent (transfer (past++[e]))).length
    rw [transfer_concat past rfl,sent_frame _ hc,List.length_append]
    exact hnext

end Step

/-- From the initialisation on, whatever flow control comes, every consecutive
frame is the next slice of the payload that the last start has taken, goes back
to a Clear-To-Send frame whose block has room, keeps the separation time, and
follows no abort of its transfer. -/
theorem transmission_paced (tx : IsoTpTx) (config : Option IsoTpConfig)
    (requestId responseId : UInt32) (start : ℕ) (inputs : List (ℕ × TxAction)) :
    Always (Paced requestId)
      (run timedStep (isotpTxInit tx config requestId responseId,start) inputs).2 := by
  have hinit : Tracks requestId (isotpTxInit tx config requestId responseId,start) [] :=
    ⟨rfl,always_nil,fun ha => by cases ha⟩
  have htracks := along_history timedStep (fun _ _ => True) (Tracks requestId)
    (fun s past input h _ => by
      obtain ⟨tx,now⟩ := s
      obtain ⟨delay,action⟩ := input
      cases action with
      | start p => exact start_step h delay p
      | flowControl f => exact flow_step h delay f
      | next => exact next_step h delay
      | tick => exact tick_step h delay)
    _ [] inputs hinit (along_true timedStep _ inputs)
  exact htracks.paced

end CanopenReference.IsoTpPacing
