import CanopenReference.IsoTp
import CanopenReference.Library.Runs

/-!
# What the ISO-TP receiver delivers

The receiver is run over arbitrary frames and clock ticks. Its history is the
list of calls with their results; a delivered payload is traced back through
that history to the frames it was put together from.
-/

set_option autoImplicit false

namespace CanopenReference.IsoTpReceiver
open Library Library.Runs IsoTp

def Addressed (id : UInt32) (f : IsoTpCanFrame) : Prop :=
  f.canId = id ∧ f.dlc ≤ isotpMaxFrameData

def ValidSingle (id : UInt32) (f : IsoTpCanFrame) : Prop :=
  Addressed id f ∧ pciType f = 0 ∧ 1 ≤ pciLow f ∧ pciLow f ≤ 7 ∧ pciLow f+1 ≤ f.dlc

def FirstFrame (id : UInt32) (f : IsoTpCanFrame) : Prop :=
  Addressed id f ∧ 2 ≤ f.dlc ∧ pciType f = 1

def Consecutive (id : UInt32) (f : IsoTpCanFrame) : Prop :=
  Addressed id f ∧ 1 ≤ f.dlc ∧ pciType f = 2

def singleData (f : IsoTpCanFrame) : List UInt8 := f.data.slice 1 (pciLow f)
def firstData (f : IsoTpCanFrame) : List UInt8 := f.data.slice 2 (f.dlc-2)
def consecutiveData (f : IsoTpCanFrame) : List UInt8 := f.data.slice 1 (f.dlc-1)

theorem slice_length (f : IsoTpCanFrame) (start len : ℕ) (h : start+len ≤ 8) :
    (f.data.slice start len).length = len := by
  have hs : f.data.cells.length = 8 := f.data.size
  simp only [Buffer.slice,List.length_take,List.length_drop]
  omega

theorem slice_take (f : IsoTpCanFrame) (start len k : ℕ) (h : k ≤ len) :
    (f.data.slice start len).take k = f.data.slice start k := by
  simp [Buffer.slice,List.take_take,h]

def extend (rx : IsoTpRx) (f : IsoTpCanFrame) (now : UInt32) (count : UInt8) : IsoTpRx :=
  let copyLen := min (f.dlc-1) (rx.expectedLen-rx.receivedLen)
  { rx with
    buffer := rx.buffer.write rx.receivedLen (f.data.slice 1 copyLen)
    receivedLen := rx.receivedLen+copyLen
    nextSequence := (rx.nextSequence+1) &&& 0x0F
    blockCount := count
    deadlineMs := now+rx.config.rxTimeoutMs }

def begun (rx : IsoTpRx) (f : IsoTpCanFrame) (now : UInt32) : IsoTpRx :=
  { rx with
    expectedLen := firstFrameLength f
    receivedLen := f.dlc-2
    buffer := rx.buffer.write 0 (firstData f)
    nextSequence := 1
    blockCount := 0
    deadlineMs := now+rx.config.rxTimeoutMs
    active := true }

/-- Everything a call of `isotpRxFeed` can do. -/
inductive RxOutcome (rx : IsoTpRx) (f : IsoTpCanFrame) (now : UInt32) :
    IsoTpRx × IsoTpStatus × IsoTpRxEvent → Prop where
  | ignored (status : IsoTpStatus)
      (hstatus : status = .ok ∨ status = .errArgument ∨ status = .errFormat ∨ status = .errState)
      (hsingle : ¬ValidSingle rx.requestId f) (hfirst : ¬FirstFrame rx.requestId f)
      (hnext : Consecutive rx.requestId f → rx.active = false ∧ status = .errState) :
      RxOutcome rx f now (rx,status,noEvent)
  | single (hsingle : ValidSingle rx.requestId f) :
      RxOutcome rx f now ({ isotpRxReset rx with buffer := rx.buffer.write 0 (singleData f) },
        .complete,⟨some (singleData f),none⟩)
  | refused (status : IsoTpStatus) (hstatus : status = .errFormat ∨ status = .errOverflow)
      (hfirst : FirstFrame rx.requestId f)
      (hlength : firstFrameLength f ≤ 7 ∨ isotpMaxPayload < firstFrameLength f) :
      RxOutcome rx f now (isotpRxReset rx,status,noEvent)
  | started (hfirst : FirstFrame rx.requestId f) (hlow : 8 ≤ firstFrameLength f)
      (hhigh : firstFrameLength f ≤ isotpMaxPayload) :
      RxOutcome rx f now (begun rx f now,.needFlowControl,⟨none,some (rxMakeFlowControl rx)⟩)
  | outOfSequence (hnext : Consecutive rx.requestId f) (hactive : rx.active = true)
      (hsequence : f.byte 0 &&& 0x0F ≠ rx.nextSequence) :
      RxOutcome rx f now (isotpRxReset rx,.errSequence,noEvent)
  | extended (hnext : Consecutive rx.requestId f) (hactive : rx.active = true)
      (hsequence : f.byte 0 &&& 0x0F = rx.nextSequence)
      (hmore : rx.receivedLen+min (f.dlc-1) (rx.expectedLen-rx.receivedLen) < rx.expectedLen)
      (hblock : ¬(rx.config.blockSize ≠ 0 ∧ rx.config.blockSize ≤ rx.blockCount+1)) :
      RxOutcome rx f now (extend rx f now (rx.blockCount+1),.ok,noEvent)
  | blockEnd (hnext : Consecutive rx.requestId f) (hactive : rx.active = true)
      (hsequence : f.byte 0 &&& 0x0F = rx.nextSequence)
      (hmore : rx.receivedLen+min (f.dlc-1) (rx.expectedLen-rx.receivedLen) < rx.expectedLen)
      (hblock : rx.config.blockSize ≠ 0 ∧ rx.config.blockSize ≤ rx.blockCount+1) :
      RxOutcome rx f now (extend rx f now 0,.needFlowControl,⟨none,some (rxMakeFlowControl rx)⟩)
  | finished (hnext : Consecutive rx.requestId f) (hactive : rx.active = true)
      (hsequence : f.byte 0 &&& 0x0F = rx.nextSequence)
      (hdone : rx.expectedLen ≤
        rx.receivedLen+min (f.dlc-1) (rx.expectedLen-rx.receivedLen)) :
      RxOutcome rx f now ({ extend rx f now (rx.blockCount+1) with active := false },.complete,
        ⟨some ((extend rx f now (rx.blockCount+1)).buffer.front rx.expectedLen),none⟩)

theorem single_outcome (rx : IsoTpRx) (f : IsoTpCanFrame) (now : UInt32)
    (ha : Addressed rx.requestId f) (hp : pciType f = 0) :
    RxOutcome rx f now (rxSingleFrame rx f) := by
  have hdlc : f.dlc ≤ 8 := ha.2
  by_cases hl : pciLow f = 0 ∨ 7 < pciLow f ∨ f.dlc-1 < pciLow f
  · rw [rxSingleFrame,if_pos hl]
    refine RxOutcome.ignored _ (by simp) ?_ ?_ ?_
    · rintro ⟨_,_,h1,h7,hs⟩
      omega
    · rintro ⟨_,_,h⟩
      simp [hp] at h
    · rintro ⟨_,_,h⟩
      simp [hp] at h
  · rw [rxSingleFrame,if_neg hl]
    have hv : ValidSingle rx.requestId f := ⟨ha,hp,by omega,by omega,by omega⟩
    have hlen := slice_length f 1 (pciLow f) (by omega)
    have hf := Buffer.front_write_zero rx.buffer (singleData f)
      (by rw [singleData,hlen]; exact Nat.le_trans hv.2.2.2.1 (by decide))
    rw [singleData,hlen] at hf
    have ho := @RxOutcome.single rx f now hv
    simpa only [singleData,hf] using ho

theorem first_outcome (rx : IsoTpRx) (f : IsoTpCanFrame) (now : UInt32)
    (ha : Addressed rx.requestId f) (hp : pciType f = 1) :
    RxOutcome rx f now (rxFirstFrame rx f now) := by
  have hdlc : f.dlc ≤ 8 := ha.2
  by_cases hd : f.dlc < 2
  · rw [rxFirstFrame,if_pos hd]
    refine RxOutcome.ignored _ (by simp) ?_ ?_ ?_
    · rintro ⟨_,h,_⟩
      simp [hp] at h
    · rintro ⟨_,h,_⟩
      omega
    · rintro ⟨_,_,h⟩
      simp [hp] at h
  · have hf : FirstFrame rx.requestId f := ⟨ha,by omega,hp⟩
    rw [rxFirstFrame,if_neg hd]
    by_cases hl : firstFrameLength f ≤ 7 ∨ isotpMaxPayload < firstFrameLength f
    · simp only [if_pos hl]
      exact RxOutcome.refused _ (by split <;> simp) hf hl
    · simp only [if_neg hl]
      have hmin : min (f.dlc-2) (firstFrameLength f) = f.dlc-2 := by omega
      rw [hmin]
      exact RxOutcome.started hf (by omega) (by omega)

theorem consecutive_outcome (rx : IsoTpRx) (f : IsoTpCanFrame) (now : UInt32)
    (ha : Addressed rx.requestId f) (hd : f.dlc ≠ 0) (hp : pciType f = 2) :
    RxOutcome rx f now (rxConsecutiveFrame rx f now) := by
  have hc : Consecutive rx.requestId f := ⟨ha,by omega,hp⟩
  have havail : (if 1 < f.dlc then f.dlc-1 else 0) = f.dlc-1 := by split <;> omega
  unfold rxConsecutiveFrame
  by_cases hactive : rx.active = true
  · simp only [hactive,Bool.not_true,Bool.false_eq_true,if_false,havail]
    by_cases hseq : f.byte 0 &&& 0x0F = rx.nextSequence
    · simp only [hseq,ne_eq,not_true_eq_false,if_false]
      by_cases hdone : rx.expectedLen ≤
          rx.receivedLen+min (f.dlc-1) (rx.expectedLen-rx.receivedLen)
      · rw [if_pos hdone]
        exact RxOutcome.finished hc hactive hseq hdone
      · rw [if_neg hdone]
        have hmore := Nat.lt_of_not_le hdone
        by_cases hb : rx.config.blockSize ≠ 0 ∧ rx.config.blockSize ≤ rx.blockCount+1
        · rw [if_pos hb]
          have ho := @RxOutcome.blockEnd rx f now hc hactive hseq hmore hb
          simpa only [extend,hactive] using ho
        · rw [if_neg hb]
          have ho := @RxOutcome.extended rx f now hc hactive hseq hmore hb
          simpa only [extend,hactive] using ho
    · simp only [ne_eq,hseq,not_false_eq_true,if_true]
      exact RxOutcome.outOfSequence hc hactive hseq
  · have hidle : rx.active = false := by simpa using hactive
    simp only [hidle,Bool.not_false,if_true]
    refine RxOutcome.ignored _ (by simp) ?_ ?_ (fun _ => ⟨hidle,rfl⟩)
    · rintro ⟨_,h,_⟩
      simp [hp] at h
    · rintro ⟨_,_,h⟩
      simp [hp] at h

theorem rx_outcome (rx : IsoTpRx) (f : IsoTpCanFrame) (now : UInt32) :
    RxOutcome rx f now (isotpRxFeed rx f now) := by
  unfold isotpRxFeed
  by_cases hdlc : isotpMaxFrameData < f.dlc
  · rw [if_pos hdlc]
    have hn : ¬Addressed rx.requestId f := fun h => Nat.not_le_of_lt hdlc h.2
    exact RxOutcome.ignored _ (by simp) (fun h => hn h.1) (fun h => hn h.1)
      (fun h => absurd h.1 hn)
  by_cases hid : f.canId = rx.requestId
  · have ha : Addressed rx.requestId f := ⟨hid,by omega⟩
    simp only [if_neg hdlc,hid,ne_eq,not_true_eq_false,if_false]
    by_cases hd : f.dlc = 0
    · simp only [hd,if_true]
      refine RxOutcome.ignored _ (by simp) ?_ ?_ ?_
      · rintro ⟨_,_,_,_,h⟩
        omega
      · rintro ⟨_,h,_⟩
        omega
      · rintro ⟨_,h,_⟩
        omega
    simp only [if_neg hd]
    by_cases h0 : pciType f = 0
    · rw [if_pos h0]
      exact single_outcome rx f now ha h0
    by_cases h1 : pciType f = 1
    · rw [if_neg h0,if_pos h1]
      exact first_outcome rx f now ha h1
    by_cases h2 : pciType f = 2
    · rw [if_neg h0,if_neg h1,if_pos h2]
      exact consecutive_outcome rx f now ha hd h2
    · rw [if_neg h0,if_neg h1,if_neg h2]
      exact RxOutcome.ignored _ (by split <;> simp) (fun h => h0 h.2.1) (fun h => h1 h.2.2)
        (fun h => absurd h.2.2 h2)
  · simp only [if_neg hdlc,ne_eq,hid,not_false_eq_true,if_true]
    have hn : ¬Addressed rx.requestId f := fun h => hid h.1
    exact RxOutcome.ignored _ (by simp) (fun h => hn h.1) (fun h => hn h.1)
      (fun h => absurd h.1 hn)

inductive RxCall where
  | feed (frame : IsoTpCanFrame) (nowMs : UInt32)
  | tick (nowMs : UInt32)
  deriving DecidableEq

structure RxRecord where
  call : RxCall
  status : IsoTpStatus
  payload : Option (List UInt8)
  deriving DecidableEq

def rxStep (rx : IsoTpRx) : RxCall → IsoTpRx × List RxRecord
  | .feed f now =>
    let r := isotpRxFeed rx f now
    (r.1,[⟨.feed f now,r.2.1,r.2.2.payload⟩])
  | .tick now =>
    let r := isotpRxTick rx now
    (r.1,[⟨.tick now,r.2,none⟩])

/-- The consecutive frame a record took into the transfer, if it took one. -/
def accepted (id : UInt32) (r : RxRecord) : Option IsoTpCanFrame :=
  match r.call with
  | .feed f _ =>
    if f.canId = id ∧ f.dlc ≤ isotpMaxFrameData ∧ 1 ≤ f.dlc ∧ pciType f = 2 ∧
      (r.status = .ok ∨ r.status = .needFlowControl ∨ r.status = .complete) then some f else none
  | .tick _ => none

def Interrupts (id : UInt32) (r : RxRecord) : Prop :=
  r.status = .errSequence ∨ r.status = .errTimeout ∨
    ∃ f now, r.call = .feed f now ∧ (ValidSingle id f ∨ FirstFrame id f)

def Numbered (frames : List IsoTpCanFrame) : Prop :=
  frames.map pciLow = (List.range frames.length).map (fun k => (k+1)%16)

/-- The history ends in a transfer of `length` bytes that nothing interrupted:
a First Frame was accepted, `frames` are the consecutive frames taken since,
and `data` is what the First Frame and they carry. -/
def Assembly (id : UInt32) (h : List RxRecord) (length : ℕ) (frames : List IsoTpCanFrame)
    (data : List UInt8) : Prop :=
  ∃ before first now between,
    h = before++⟨.feed first now,.needFlowControl,none⟩::between ∧
    FirstFrame id first ∧ firstFrameLength first = length ∧
    8 ≤ length ∧ length ≤ isotpMaxPayload ∧
    (∀ r ∈ between, ¬Interrupts id r) ∧ between.filterMap (accepted id) = frames ∧
    Numbered frames ∧ data = firstData first++frames.flatMap consecutiveData

theorem assembly_quiet {id : UInt32} {h : List RxRecord} {length : ℕ}
    {frames : List IsoTpCanFrame} {data : List UInt8} (ha : Assembly id h length frames data)
    (r : RxRecord) (hi : ¬Interrupts id r) (hn : accepted id r = none) :
    Assembly id (h++[r]) length frames data := by
  obtain ⟨before,first,now,between,rfl,hf,hl,h8,hm,hq,hfr,hnum,hd⟩ := ha
  refine ⟨before,first,now,between++[r],by simp,hf,hl,h8,hm,?_,?_,hnum,hd⟩
  · intro q hqm
    rcases List.mem_append.mp hqm with h | h
    · exact hq q h
    · rw [List.mem_singleton.mp h]
      exact hi
  · simp [List.filterMap_append,hfr,hn]

theorem assembly_accept {id : UInt32} {h : List RxRecord} {length : ℕ}
    {frames : List IsoTpCanFrame} {data : List UInt8} (ha : Assembly id h length frames data)
    (r : RxRecord) (f : IsoTpCanFrame) (hi : ¬Interrupts id r) (hn : accepted id r = some f)
    (hs : pciLow f = (frames.length+1)%16) :
    Assembly id (h++[r]) length (frames++[f]) (data++consecutiveData f) := by
  obtain ⟨before,first,now,between,rfl,hf,hl,h8,hm,hq,hfr,hnum,rfl⟩ := ha
  refine ⟨before,first,now,between++[r],by simp,hf,hl,h8,hm,?_,?_,?_,?_⟩
  · intro q hqm
    rcases List.mem_append.mp hqm with h | h
    · exact hq q h
    · rw [List.mem_singleton.mp h]
      exact hi
  · simp [List.filterMap_append,hfr,hn]
  · unfold Numbered at hnum ⊢
    simp [hnum,hs,List.range_succ]
  · simp [List.append_assoc]

theorem next_sequence_nat (k : ℕ) :
    (UInt8.ofNat (k%16)+1) &&& 0x0F = UInt8.ofNat ((k+1)%16) := by
  have h : ∀ i : Fin 16, (UInt8.ofNat i.val+1) &&& 0x0F = UInt8.ofNat ((i.val+1)%16) := by decide
  have hk := h ⟨k%16,Nat.mod_lt k (by decide)⟩
  simpa using hk

def Tracks (id : UInt32) (h : List RxRecord) (rx : IsoTpRx) : Prop :=
  rx.requestId = id ∧ (rx.active = true → ∃ frames data,
    Assembly id h rx.expectedLen frames data ∧
    rx.nextSequence = UInt8.ofNat ((frames.length+1)%16) ∧
    rx.receivedLen = data.length ∧ data.length < rx.expectedLen ∧
    rx.buffer.front data.length = data)

/-- The payload of a record is accounted for by the record's own single frame
or by the transfer its consecutive frame completed. -/
def Justified (id : UInt32) (before : List RxRecord) (r : RxRecord) : Prop :=
  (∃ f now, r.call = .feed f now ∧ ValidSingle id f ∧ r.payload = some (singleData f)) ∨
  ∃ f now length frames data, r.call = .feed f now ∧ Consecutive id f ∧
    Assembly id (before++[r]) length (frames++[f]) data ∧
    length ≤ data.length ∧ r.payload = some (data.take length)

theorem accepted_some {id : UInt32} {f : IsoTpCanFrame} (now : UInt32) {status : IsoTpStatus}
    (p : Option (List UInt8)) (hf : Consecutive id f)
    (hs : status = .ok ∨ status = .needFlowControl ∨ status = .complete) :
    accepted id ⟨.feed f now,status,p⟩ = some f :=
  if_pos ⟨hf.1.1,hf.1.2,hf.2.1,hf.2.2,hs⟩

theorem accepted_none {id : UInt32} {f : IsoTpCanFrame} (now : UInt32) {status : IsoTpStatus}
    (p : Option (List UInt8))
    (h : Consecutive id f → ¬(status = .ok ∨ status = .needFlowControl ∨ status = .complete)) :
    accepted id ⟨.feed f now,status,p⟩ = none :=
  if_neg fun hc => h ⟨⟨hc.1,hc.2.1⟩,hc.2.2.1,hc.2.2.2.1⟩ hc.2.2.2.2

theorem consecutive_quiet {id : UInt32} {f : IsoTpCanFrame} (now : UInt32)
    {status : IsoTpStatus} (p : Option (List UInt8)) (hf : Consecutive id f)
    (hs : status = .ok ∨ status = .needFlowControl ∨ status = .complete) :
    ¬Interrupts id ⟨.feed f now,status,p⟩ := by
  have hp := hf.2.2
  rintro (h | h | ⟨g,t,hg,h⟩)
  · rcases hs with rfl | rfl | rfl <;> simp at h
  · rcases hs with rfl | rfl | rfl <;> simp at h
  · obtain ⟨rfl,rfl⟩ := RxCall.feed.inj hg
    rcases h with h | h
    · simp [h.2.1] at hp
    · simp [h.2.2] at hp

theorem extend_tracks {id : UInt32} {h : List RxRecord} {rx : IsoTpRx} {f : IsoTpCanFrame}
    (now : UInt32) (status : IsoTpStatus) (p : Option (List UInt8)) (count : UInt8)
    (ht : Tracks id h rx) (hf : Consecutive id f) (hactive : rx.active = true)
    (hseq : f.byte 0 &&& 0x0F = rx.nextSequence)
    (hs : status = .ok ∨ status = .needFlowControl ∨ status = .complete) :
    ∃ frames data, Assembly id (h++[⟨.feed f now,status,p⟩]) rx.expectedLen (frames++[f]) data ∧
      (extend rx f now count).nextSequence = UInt8.ofNat (((frames++[f]).length+1)%16) ∧
      (extend rx f now count).receivedLen = min data.length rx.expectedLen ∧
      (extend rx f now count).buffer.front (min data.length rx.expectedLen) =
        data.take rx.expectedLen := by
  obtain ⟨_,htr⟩ := ht
  obtain ⟨frames,data,ha,hn,hr,hlt,hb⟩ := htr hactive
  have hlow : pciLow f = (frames.length+1)%16 := by
    rw [pciLow,hseq,hn,UInt8.toNat_ofNat']
    omega
  have hmax : rx.expectedLen ≤ 4095 := by
    obtain ⟨_,_,_,_,_,_,_,_,hm,_⟩ := ha
    exact hm
  have hdlc : f.dlc ≤ 8 := hf.1.2
  have hcd : (consecutiveData f).length = f.dlc-1 := slice_length f 1 (f.dlc-1) (by omega)
  have hcopy := slice_length f 1 (min (f.dlc-1) (rx.expectedLen-rx.receivedLen)) (by omega)
  refine ⟨frames,data++consecutiveData f,
    assembly_accept ha _ f (consecutive_quiet now p hf hs) (accepted_some now p hf hs) hlow,
    ?_,?_,?_⟩
  · simp only [extend,hn,next_sequence_nat,List.length_append,List.length_singleton]
  · simp only [extend,hr,List.length_append,hcd]
    omega
  · have hw := Buffer.front_write rx.buffer rx.receivedLen
      (f.data.slice 1 (min (f.dlc-1) (rx.expectedLen-rx.receivedLen)))
      (by rw [hcopy,isotpMaxPayload]; omega)
    have hmin : min (data++consecutiveData f).length rx.expectedLen =
        rx.receivedLen+min (f.dlc-1) (rx.expectedLen-rx.receivedLen) := by
      rw [List.length_append,hcd]
      omega
    rw [hcopy] at hw
    simp only [extend,hmin]
    rw [hw,hr,hb,List.take_append,List.take_of_length_le (by omega : data.length ≤ rx.expectedLen),
      consecutiveData]
    congr 1
    by_cases hle : f.dlc-1 ≤ rx.expectedLen-data.length
    · rw [Nat.min_eq_left hle,List.take_of_length_le]
      rw [← consecutiveData,hcd]
      exact hle
    · rw [Nat.min_eq_right (by omega),slice_take f 1 (f.dlc-1) _ (by omega)]

theorem tracks_idle {id : UInt32} (h : List RxRecord) {rx : IsoTpRx} (hid : rx.requestId = id)
    (ha : rx.active = false) : Tracks id h rx :=
  ⟨hid,fun hc => by simp [ha] at hc⟩

theorem extend_keeps {id : UInt32} {h : List RxRecord} {rx : IsoTpRx} {f : IsoTpCanFrame}
    (now : UInt32) (status : IsoTpStatus) (count : UInt8) (ht : Tracks id h rx)
    (hf : Consecutive id f) (hactive : rx.active = true)
    (hseq : f.byte 0 &&& 0x0F = rx.nextSequence)
    (hmore : rx.receivedLen+min (f.dlc-1) (rx.expectedLen-rx.receivedLen) < rx.expectedLen)
    (hs : status = .ok ∨ status = .needFlowControl ∨ status = .complete) :
    Tracks id (h++[⟨.feed f now,status,none⟩]) (extend rx f now count) := by
  obtain ⟨frames,data,ha,hn,hr,hb⟩ := extend_tracks now status none count ht hf hactive hseq hs
  have hlt : data.length < rx.expectedLen := by
    have hr' : rx.receivedLen+min (f.dlc-1) (rx.expectedLen-rx.receivedLen) =
      min data.length rx.expectedLen := hr
    omega
  rw [Nat.min_eq_left (by omega),List.take_of_length_le (by omega)] at hb
  rw [Nat.min_eq_left (by omega)] at hr
  exact ⟨ht.1,fun _ => ⟨frames++[f],data,ha,hn,hr,hlt,hb⟩⟩

theorem feed_tracks (id : UInt32) (h : List RxRecord) (rx : IsoTpRx) (f : IsoTpCanFrame)
    (now : UInt32) (ht : Tracks id h rx) :
    Tracks id (h++(rxStep rx (.feed f now)).2) (rxStep rx (.feed f now)).1 := by
  have ho := rx_outcome rx f now
  have hid := ht.1
  simp only [rxStep]
  generalize isotpRxFeed rx f now = r at ho
  cases ho with
  | ignored status hstatus hsingle hfirst hnext =>
    refine ⟨hid,fun hactive => ?_⟩
    obtain ⟨frames,data,ha,hrest⟩ := ht.2 hactive
    refine ⟨frames,data,assembly_quiet ha _ ?_ ?_,hrest⟩
    · rintro (hc | hc | ⟨g,t,hg,hc⟩)
      · rcases hstatus with rfl | rfl | rfl | rfl <;> simp at hc
      · rcases hstatus with rfl | rfl | rfl | rfl <;> simp at hc
      · obtain ⟨rfl,rfl⟩ := RxCall.feed.inj hg
        rcases hc with hc | hc
        · exact hsingle (hid ▸ hc)
        · exact hfirst (hid ▸ hc)
    · refine accepted_none now _ fun hc => ?_
      have hidle := (hnext (hid ▸ hc)).1
      exact absurd (hidle.symm.trans hactive) Bool.false_ne_true
  | single hsingle => exact tracks_idle _ hid rfl
  | refused status hstatus hfirst hlength => exact tracks_idle _ hid rfl
  | started hfirst hlow hhigh =>
    refine ⟨hid,fun _ => ⟨[],firstData f,?_,?_⟩⟩
    · exact ⟨h,f,now,[],by simp,hid ▸ hfirst,rfl,hlow,hhigh,by simp,rfl,rfl,by simp⟩
    · have hdlc : f.dlc ≤ 8 := hfirst.1.2
      have hlen : (firstData f).length = f.dlc-2 := slice_length f 2 (f.dlc-2) (by
        have := hfirst.2.1
        omega)
      have hfront := Buffer.front_write_zero rx.buffer (firstData f)
        (by rw [hlen,isotpMaxPayload]; omega)
      refine ⟨rfl,hlen.symm,?_,hfront⟩
      simp only [begun,hlen]
      omega
  | outOfSequence hnext hactive hsequence => exact tracks_idle _ hid rfl
  | extended hnext hactive hsequence hmore hblock =>
    exact extend_keeps now .ok _ ht (hid ▸ hnext) hactive hsequence hmore (by simp)
  | blockEnd hnext hactive hsequence hmore hblock =>
    exact extend_keeps now .needFlowControl _ ht (hid ▸ hnext) hactive hsequence hmore (by simp)
  | finished hnext hactive hsequence hdone => exact tracks_idle _ hid rfl

theorem tick_tracks (id : UInt32) (h : List RxRecord) (rx : IsoTpRx) (now : UInt32)
    (ht : Tracks id h rx) :
    Tracks id (h++(rxStep rx (.tick now)).2) (rxStep rx (.tick now)).1 := by
  simp only [rxStep,isotpRxTick]
  by_cases hactive : rx.active = true
  · simp only [hactive,Bool.not_true,Bool.false_eq_true,if_false]
    split
    · exact tracks_idle _ ht.1 rfl
    · obtain ⟨frames,data,ha,hrest⟩ := ht.2 hactive
      refine ⟨ht.1,fun _ => ⟨frames,data,assembly_quiet ha _ ?_ rfl,hrest⟩⟩
      rintro (hc | hc | ⟨g,t,hg,_⟩)
      · cases hc
      · cases hc
      · cases hg
  · have hidle : rx.active = false := by simpa using hactive
    simp only [hidle,Bool.not_false,if_true]
    exact tracks_idle _ ht.1 hidle

theorem step_tracks (id : UInt32) (h : List RxRecord) (rx : IsoTpRx) (c : RxCall)
    (ht : Tracks id h rx) : Tracks id (h++(rxStep rx c).2) (rxStep rx c).1 := by
  cases c with
  | feed f now => exact feed_tracks id h rx f now ht
  | tick now => exact tick_tracks id h rx now ht

theorem complete_justified (id : UInt32) (h : List RxRecord) (rx : IsoTpRx) (c : RxCall)
    (ht : Tracks id h rx) : ∀ r ∈ (rxStep rx c).2, r.status = .complete → Justified id h r := by
  intro r hr hs
  cases c with
  | tick now =>
    simp only [rxStep,isotpRxTick,List.mem_singleton] at hr
    subst hr
    split at hs
    · cases hs
    · split at hs <;> cases hs
  | feed f now =>
    have ho := rx_outcome rx f now
    have hid := ht.1
    simp only [rxStep,List.mem_singleton] at hr
    subst hr
    generalize isotpRxFeed rx f now = q at ho hs ⊢
    cases ho with
    | ignored status hstatus _ _ _ => rcases hstatus with rfl | rfl | rfl | rfl <;> simp at hs
    | single hsingle => exact Or.inl ⟨f,now,rfl,hid ▸ hsingle,rfl⟩
    | refused status hstatus _ _ => rcases hstatus with rfl | rfl <;> simp at hs
    | started _ _ _ => cases hs
    | outOfSequence _ _ _ => cases hs
    | extended _ _ _ _ _ => cases hs
    | blockEnd _ _ _ _ _ => cases hs
    | finished hnext hactive hsequence hdone =>
      right
      obtain ⟨frames,data,ha,_,hr,hb⟩ := extend_tracks now .complete
        (some ((extend rx f now (rx.blockCount+1)).buffer.front rx.expectedLen))
        (rx.blockCount+1) ht (hid ▸ hnext) hactive hsequence (by simp)
      have hle : rx.expectedLen ≤ data.length := by
        have hr' : rx.receivedLen+min (f.dlc-1) (rx.expectedLen-rx.receivedLen) =
          min data.length rx.expectedLen := hr
        omega
      rw [Nat.min_eq_right hle] at hb
      exact ⟨f,now,rx.expectedLen,frames,data,rfl,hid ▸ hnext,ha,hle,by rw [hb]⟩

/-- Every complete transfer is accounted for by the records before it. -/
def Sound (id : UInt32) : List RxRecord → Prop :=
  Always fun before r => r.status = .complete → Justified id before r

theorem step_sound (id : UInt32) (h : List RxRecord) (rx : IsoTpRx) (c : RxCall)
    (ht : Tracks id h rx) (hs : Sound id h) : Sound id (h++(rxStep rx c).2) := by
  have hj := complete_justified id h rx c ht
  obtain ⟨q,hq⟩ : ∃ q, (rxStep rx c).2 = [q] := by cases c <;> exact ⟨_,rfl⟩
  rw [hq] at hj ⊢
  exact always_concat hs (hj q (List.mem_singleton_self q))

theorem run_sound (id : UInt32) (rx : IsoTpRx) (calls : List RxCall) (ht : Tracks id [] rx) :
    Tracks id (run rxStep rx calls).2 (run rxStep rx calls).1 ∧
      Sound id (run rxStep rx calls).2 := by
  have h := along_history rxStep (fun _ _ => True) (fun rx h => Tracks id h rx ∧ Sound id h)
    (fun rx h c hi _ => ⟨step_tracks id h rx c hi.1,step_sound id h rx c hi.1 hi.2⟩)
    rx [] calls ⟨ht,always_nil⟩ (along_true _ _ _)
  simpa using h

/-- Every delivered payload is the data of the frames the history shows, and
an active receiver never has room for less than it still awaits. -/
theorem receiver_soundness (rx : IsoTpRx) (config : Option IsoTpConfig)
    (requestId responseId : UInt32) (calls : List RxCall) :
    (∀ before r after,
      (run rxStep (isotpRxInit rx config requestId responseId) calls).2 = before++r::after →
      r.status = .complete → Justified requestId before r) ∧
    ((run rxStep (isotpRxInit rx config requestId responseId) calls).1.active = true →
      (run rxStep (isotpRxInit rx config requestId responseId) calls).1.receivedLen <
        (run rxStep (isotpRxInit rx config requestId responseId) calls).1.expectedLen ∧
      (run rxStep (isotpRxInit rx config requestId responseId) calls).1.expectedLen ≤ 4095) := by
  have h0 : Tracks requestId [] (isotpRxInit rx config requestId responseId) :=
    tracks_idle _ rfl rfl
  obtain ⟨ht,hs⟩ := run_sound requestId _ calls h0
  constructor
  · exact hs
  · intro hactive
    obtain ⟨frames,data,ha,_,hr,hlt,_⟩ := ht.2 hactive
    obtain ⟨_,_,_,_,_,_,_,_,hm,_⟩ := ha
    exact ⟨by omega,hm⟩

theorem receiver_soundness_eight_bytes :
    Justified 0x7E0 [⟨.feed (filledFrame 0x7E0 [0x10,8,1,2,3,4,5,6]) 0,.needFlowControl,none⟩]
      ⟨.feed (filledFrame 0x7E0 [0x21,7,8]) 5,.complete,some [1,2,3,4,5,6,7,8]⟩ :=
  (receiver_soundness
    ⟨isotpConfigDefault,0,0,Buffer.blank _ 0,0,0,0,0,0,false⟩ none 0x7E0 0x7E8
    [.feed (filledFrame 0x7E0 [0x10,8,1,2,3,4,5,6]) 0,
      .feed (filledFrame 0x7E0 [0x21,7,8]) 5]).1 _ _ [] (by decide +kernel) rfl

end CanopenReference.IsoTpReceiver
