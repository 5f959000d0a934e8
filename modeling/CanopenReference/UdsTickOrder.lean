import CanopenReference.IsoTpDeadlines
import CanopenReference.UdsFlowControl

/-!
# Ticking before or after the received frames

The processing pass ticks the receiver and the transmitter after it has drained
the received frames. It is compared with the pass that ticks first, up to the
counted timeouts.
-/

set_option autoImplicit false

namespace CanopenReference.UdsTickOrder
open Library Library.Runs IsoTp IsoTpReceiver IsoTpDelivery IsoTpDeadlines Uds UdsStm32
  Diagnostics UdsFlowControl

section Runtime
variable {μ : Type}

def applicationTicked (rt : UdsRuntime μ) (now : UInt32) : UdsRuntime μ :=
  { rt with
    application := (tickApplication rt.application now).1
    can := if (tickApplication rt.application now).2 = .timeout then
      udsStm32CanNoteRxTimeout rt.can else rt.can }

def tickReceiver (rt : UdsRuntime μ) (now : UInt32) : UdsRuntime μ :=
  { rt with
    isotpRx := (isotpRxTick rt.isotpRx now).1
    can := if (isotpRxTick rt.isotpRx now).2 = .errTimeout then
      udsStm32CanNoteRxTimeout rt.can else rt.can }

def tickTransmitter (rt : UdsRuntime μ) (now : UInt32) : UdsRuntime μ :=
  { rt with
    isotpTx := (isotpTxTick rt.isotpTx now).1
    can := if (isotpTxTick rt.isotpTx now).2 = .errTimeout then
      udsStm32CanNoteTxTimeout rt.can else rt.can }

def tickBoth (rt : UdsRuntime μ) (now : UInt32) : UdsRuntime μ :=
  tickTransmitter (tickReceiver rt now) now

def drain (rt : UdsRuntime μ) (now : UInt32) : UdsRuntime μ :=
  processFrames rt now udsStm32RxBudgetPerCall

def polled (rt : UdsRuntime μ) (now : UInt32) : UdsRuntime μ × IsoTpStatus :=
  let next := isotpTxNext rt.isotpTx now
  ({ rt with
      isotpTx := next.1
      can := if next.2.1 = .txFrameReady then queueTxFrames rt.can next.2.2 else rt.can },
    next.2.1)

def sendQueued (rt : UdsRuntime μ) (answers : List TxAnswer) : UdsRuntime μ × List IsoTpCanFrame :=
  let sent := udsStm32CanProcessTx rt.can udsStm32TxBudgetPerCall answers
  ({ rt with can := sent.1 },sent.2)

theorem process_stages (rt : UdsRuntime μ) (answers : List TxAnswer) (now : UInt32) :
    canopenReferenceUdsProcess rt answers now =
      if !rt.initialized then (rt,none,[])
      else
        let next := polled (drain (applicationTicked rt now) now) now
        let sent := sendQueued (tickBoth next.1 now) answers
        (sent.1,some next.2,sent.2) := by
  unfold canopenReferenceUdsProcess drain
  split
  · rfl
  · simp only [applicationTicked]
    generalize processFrames _ now udsStm32RxBudgetPerCall = received
    rfl

/-- The pass with both ticks moved in front of the received frames. -/
def processTicksFirst (rt : UdsRuntime μ) (answers : List TxAnswer) (now : UInt32) :
    UdsRuntime μ × Option IsoTpStatus × List IsoTpCanFrame :=
  if !rt.initialized then (rt,none,[])
  else
    let next := polled (drain (tickBoth (applicationTicked rt now) now) now) now
    let sent := sendQueued next.1 answers
    (sent.1,some next.2,sent.2)

def credit (a b : UInt32) (can : UdsStm32Can) : UdsStm32Can :=
  { can with
    stats := { can.stats with
      rxTimeouts := can.stats.rxTimeouts+a, txTimeouts := can.stats.txTimeouts+b } }

theorem credit_none (can : UdsStm32Can) : credit 0 0 can = can := by
  simp [credit]

theorem credit_rx (can : UdsStm32Can) : udsStm32CanNoteRxTimeout can = credit 1 0 can := by
  simp [credit,udsStm32CanNoteRxTimeout]

theorem credit_tx (can : UdsStm32Can) : udsStm32CanNoteTxTimeout can = credit 0 1 can := by
  simp [credit,udsStm32CanNoteTxTimeout]

theorem credit_comm (a b c d : UInt32) (can : UdsStm32Can) :
    credit a b (credit c d can) = credit c d (credit a b can) := by
  simp only [credit,UInt32.add_assoc,UInt32.add_comm a c,UInt32.add_comm b d]

theorem pop_credit (a b : UInt32) (can : UdsStm32Can) :
    udsStm32CanRxPop (credit a b can) =
      (credit a b (udsStm32CanRxPop can).1,(udsStm32CanRxPop can).2) := by
  by_cases he : can.rxTail = can.rxHead
  · simp [udsStm32CanRxPop,credit,he]
  · simp [udsStm32CanRxPop,credit,he]

theorem queue_credit (a b : UInt32) (can : UdsStm32Can) (frames : Option IsoTpCanFrame) :
    queueTxFrames (credit a b can) frames = credit a b (queueTxFrames can frames) := by
  cases frames with
  | none => rfl
  | some frame =>
    have hq : udsStm32CanTxQueue (credit a b can) frame =
        (credit a b (udsStm32CanTxQueue can frame).1,(udsStm32CanTxQueue can frame).2) := by
      by_cases hv : !validFrame frame.canId frame.dlc ∨ frame.canId ≠ can.responseId
      · rw [udsStm32CanTxQueue,udsStm32CanTxQueue,if_pos hv,if_pos (by exact hv)]
      by_cases hfull : nextIndex can.txHead udsStm32TxQueueCapacity = can.txTail
      · rw [udsStm32CanTxQueue,udsStm32CanTxQueue,if_neg hv,if_pos hfull,if_neg (by exact hv),
          if_pos (by exact hfull)]
        rfl
      · rw [udsStm32CanTxQueue,udsStm32CanTxQueue,if_neg hv,if_neg hfull,if_neg (by exact hv),
          if_neg (by exact hfull)]
        rfl
    simp only [queueTxFrames,queueTxFrame,hq]
    split
    · rw [credit_tx,credit_tx,credit_comm]
    · rfl

def counted (late : Bool) : UInt32 := if late then 1 else 0

theorem counted_inj {a b : Bool} (h : counted a = counted b) : a = b := by
  revert a b
  decide

theorem tick_receiver_eq (rt : UdsRuntime μ) (now : UInt32) :
    tickReceiver rt now =
      { rt with
        isotpRx := if rxLate rt.isotpRx now then isotpRxReset rt.isotpRx else rt.isotpRx
        can := credit (counted (rxLate rt.isotpRx now)) 0 rt.can } := by
  rw [tickReceiver,rx_tick_eq]
  cases rxLate rt.isotpRx now with
  | false => simp [counted,credit_none]
  | true => simp [counted,credit_rx]

theorem tick_transmitter_eq (rt : UdsRuntime μ) (now : UInt32) :
    tickTransmitter rt now =
      { rt with
        isotpTx := if txLate rt.isotpTx now then isotpTxReset rt.isotpTx else rt.isotpTx
        can := credit 0 (counted (txLate rt.isotpTx now)) rt.can } := by
  rw [tickTransmitter,tx_tick_eq]
  cases txLate rt.isotpTx now with
  | false => simp [counted,credit_none]
  | true => simp [counted,credit_tx]

/-- What a request frame does before a response is started. -/
def taken (rt : UdsRuntime μ) (frame : IsoTpCanFrame) (now : UInt32) : UdsRuntime μ :=
  let fed := isotpRxFeed rt.isotpRx frame now
  { rt with
    isotpRx := fed.1
    can := if fed.2.1 = .needFlowControl then queueTxFrames rt.can fed.2.2.flowControl else rt.can
    application := match fed.2.1, fed.2.2.payload with
      | .complete, some payload => (handleRequest rt.application payload now).1
      | _, _ => rt.application }

def responds (rt : UdsRuntime μ) (frame : IsoTpCanFrame) (now : UInt32) : Bool :=
  let fed := isotpRxFeed rt.isotpRx frame now
  match fed.2.1, fed.2.2.payload with
  | .complete, some payload =>
    (handleRequest rt.application payload now).2 = .ok ∧
      (handleRequest rt.application payload now).1.responseLength ≠ 0
  | _, _ => false

def startResponse (rt : UdsRuntime μ) (now : UInt32) : UdsRuntime μ :=
  let started := isotpTxStart rt.isotpTx
    (rt.application.response.front rt.application.responseLength.toNat) now
  { rt with
    isotpTx := started.1
    can := if started.2.1 = .txFrameReady then queueTxFrames rt.can started.2.2 else rt.can }

theorem process_request (rt : UdsRuntime μ) {frame : IsoTpCanFrame} (now : UInt32)
    (h : frame.canId = udsRxCanId) :
    processFrame rt frame now =
      if responds rt frame now then startResponse (taken rt frame now) now
      else taken rt frame now := by
  unfold processFrame taken responds
  rw [if_pos h]
  generalize isotpRxFeed rt.isotpRx frame now = fed
  obtain ⟨rx,status,⟨payload,flow⟩⟩ := fed
  simp only
  cases payload with
  | none =>
    simp only [Bool.false_eq_true,if_false]
    split <;> rfl
  | some payload =>
    cases status
    case complete =>
      generalize hr : handleRequest rt.application payload now = handled
      obtain ⟨application,result⟩ := handled
      simp only [reduceCtorEq,if_false,hr,sendResponse,decide_eq_true_eq]
      split
      · simp only [startResponse]
        split <;> rfl
      · rfl
    all_goals
      simp only [Bool.false_eq_true,if_false]
      split <;> rfl

def Touches (id : UInt32) (f : IsoTpCanFrame) : Prop :=
  ValidSingle id f ∨ FirstFrame id f ∨ Consecutive id f

theorem not_late_yet (now : UInt32) : IsoTp.deadlineExpired now (now+1000) = false :=
  Clock.not_reached_later (by decide) now

theorem fed_late (rx : IsoTpRx) (f : IsoTpCanFrame) (now : UInt32)
    (hconfig : rx.config = runtimeIsotpConfig) :
    rxLate (isotpRxFeed rx f now).1 now = true ↔
      rxLate rx now = true ∧ ¬Touches rx.requestId f := by
  have hdeadline : now+rx.config.rxTimeoutMs = now+1000 := by rw [hconfig]; rfl
  have ho := rx_outcome rx f now
  generalize isotpRxFeed rx f now = r at ho ⊢
  cases ho with
  | ignored _ _ hsingle hfirst hidle =>
    refine ⟨fun hl => ⟨hl,?_⟩,fun h => h.1⟩
    rintro (ht | ht | ht)
    · exact hsingle ht
    · exact hfirst ht
    · exact absurd ((hidle ht).1.symm.trans (Bool.and_eq_true_iff.mp hl).1) Bool.false_ne_true
  | single hsingle => exact ⟨(fun hl => by cases hl),fun h => absurd (Or.inl hsingle) h.2⟩
  | refused _ _ hfirst _ =>
    exact ⟨(fun hl => by cases hl),fun h => absurd (Or.inr (Or.inl hfirst)) h.2⟩
  | started hfirst _ _ =>
    refine ⟨fun hl => ?_,fun h => absurd (Or.inr (Or.inl hfirst)) h.2⟩
    simp [rxLate,begun,hdeadline,not_late_yet] at hl
  | outOfSequence hnext _ _ =>
    exact ⟨(fun hl => by cases hl),fun h => absurd (Or.inr (Or.inr hnext)) h.2⟩
  | extended hnext _ _ _ _ =>
    refine ⟨fun hl => ?_,fun h => absurd (Or.inr (Or.inr hnext)) h.2⟩
    simp [rxLate,extend,hdeadline,not_late_yet] at hl
  | blockEnd hnext _ _ _ _ =>
    refine ⟨fun hl => ?_,fun h => absurd (Or.inr (Or.inr hnext)) h.2⟩
    simp [rxLate,extend,hdeadline,not_late_yet] at hl
  | finished hnext _ _ _ =>
    exact ⟨(fun hl => by cases hl),fun h => absurd (Or.inr (Or.inr hnext)) h.2⟩

theorem fed_config (rx : IsoTpRx) (f : IsoTpCanFrame) (now : UInt32) :
    (isotpRxFeed rx f now).1.config = rx.config ∧
      (isotpRxFeed rx f now).1.requestId = rx.requestId := by
  have ho := rx_outcome rx f now
  generalize isotpRxFeed rx f now = r at ho ⊢
  cases ho <;> exact ⟨rfl,rfl⟩

theorem untouched_feed {rx : IsoTpRx} {f : IsoTpCanFrame} (now : UInt32)
    (h : ¬Touches rx.requestId f) :
    ∃ status, isotpRxFeed rx f now = (rx,status,noEvent) ∧
      status ≠ .complete ∧ status ≠ .needFlowControl := by
  have ho := rx_outcome rx f now
  generalize isotpRxFeed rx f now = r at ho ⊢
  cases ho with
  | ignored status hstatus _ _ _ =>
    refine ⟨status,rfl,?_,?_⟩ <;> rcases hstatus with rfl | rfl | rfl | rfl <;> decide
  | single hsingle => exact absurd (Or.inl hsingle) h
  | refused _ _ hfirst _ => exact absurd (Or.inr (Or.inl hfirst)) h
  | started hfirst _ _ => exact absurd (Or.inr (Or.inl hfirst)) h
  | outOfSequence hnext _ _ => exact absurd (Or.inr (Or.inr hnext)) h
  | extended hnext _ _ _ _ => exact absurd (Or.inr (Or.inr hnext)) h
  | blockEnd hnext _ _ _ _ => exact absurd (Or.inr (Or.inr hnext)) h
  | finished hnext _ _ _ => exact absurd (Or.inr (Or.inr hnext)) h

/-- A started transfer is not late, and its frame depends on nothing the
transmitter did before. -/
theorem start_effect (tx : IsoTpTx) (p : List UInt8) (now : UInt32) (h1 : 1 ≤ p.length)
    (hm : p.length ≤ 4095) (hconfig : tx.config = runtimeIsotpConfig) :
    txLate (isotpTxStart tx p now).1 now = false ∧
      (isotpTxStart tx p now).1.config = tx.config ∧
      (isotpTxStart tx p now).1.responseId = tx.responseId ∧
      ∀ tx' : IsoTpTx, tx'.responseId = tx.responseId →
        (isotpTxStart tx' p now).2 = (isotpTxStart tx p now).2 := by
  have hdeadline : now+tx.config.txTimeoutMs = now+1000 := by rw [hconfig]; rfl
  have hzero : p.length ≠ 0 := by omega
  have hmax : ¬isotpMaxPayload < p.length := Nat.not_lt.mpr hm
  by_cases h7 : p.length ≤ 7
  · simp +contextual [isotpTxStart,hzero,hmax,h7,txLate,isotpTxReset]
  · simp +contextual [isotpTxStart,hzero,hmax,h7,txLate,hdeadline,not_late_yet]

structure Timed (rt : UdsRuntime μ) : Prop where
  tx : TxWaits rt.isotpTx
  rxConfig : rt.isotpRx.config = runtimeIsotpConfig
  txConfig : rt.isotpTx.config = runtimeIsotpConfig
  requestId : rt.isotpRx.requestId = udsRxCanId

theorem receiver_in_time {rt : UdsRuntime μ} {now : UInt32}
    (h : rxLate rt.isotpRx now = false) : tickReceiver rt now = rt := by
  rw [tick_receiver_eq,h]
  simp [counted,credit_none]

theorem transmitter_in_time {rt : UdsRuntime μ} {now : UInt32}
    (h : txLate rt.isotpTx now = false) : tickTransmitter rt now = rt := by
  rw [tick_transmitter_eq,h]
  simp [counted,credit_none]

theorem ticks_commute (rt : UdsRuntime μ) (now : UInt32) :
    tickReceiver (tickTransmitter rt now) now = tickBoth rt now := by
  rw [tickBoth,tick_receiver_eq,tick_transmitter_eq,tick_transmitter_eq,tick_receiver_eq]
  simp only [credit_comm]

theorem timed_tick_receiver {rt : UdsRuntime μ} (now : UInt32) (h : Timed rt) :
    Timed (tickReceiver rt now) := by
  rw [tick_receiver_eq]
  refine ⟨h.tx,?_,h.txConfig,?_⟩
  · simp only
    split
    · exact h.rxConfig
    · exact h.rxConfig
  · simp only
    split
    · exact h.requestId
    · exact h.requestId

theorem timed_tick_transmitter {rt : UdsRuntime μ} (now : UInt32) (h : Timed rt) :
    Timed (tickTransmitter rt now) := by
  refine ⟨tick_waits now h.tx,h.rxConfig,?_,h.requestId⟩
  rw [tick_transmitter_eq]
  simp only
  split
  · exact h.txConfig
  · exact h.txConfig

theorem response_length {rt : UdsRuntime μ} {frame : IsoTpCanFrame} {now : UInt32}
    (h : responds rt frame now = true) :
    let p := (taken rt frame now).application.response.front
      (taken rt frame now).application.responseLength.toNat
    1 ≤ p.length ∧ p.length ≤ 4095 := by
  have hlength : (taken rt frame now).application.responseLength ≠ 0 := by
    simp only [responds,taken] at h ⊢
    generalize isotpRxFeed rt.isotpRx frame now = fed at h ⊢
    obtain ⟨rx,status,⟨payload,flow⟩⟩ := fed
    cases payload with
    | none => simp at h
    | some payload =>
      cases status
      case complete => exact (of_decide_eq_true h).2
      all_goals cases h
  intro p
  have hsize := (taken rt frame now).application.response.size
  have hp : p.length = min (taken rt frame now).application.responseLength.toNat
      udsMaxResponseLength.toNat := by
    rw [← hsize]
    exact List.length_take
  have hmax : udsMaxResponseLength.toNat = 4095 := by decide
  have hpos : (taken rt frame now).application.responseLength.toNat ≠ 0 :=
    fun h0 => hlength (UInt16.toNat_inj.mp h0)
  omega

theorem taken_timed {rt : UdsRuntime μ} (frame : IsoTpCanFrame) (now : UInt32) (h : Timed rt) :
    Timed (taken rt frame now) := by
  obtain ⟨hconfig,hid⟩ := fed_config rt.isotpRx frame now
  exact ⟨h.tx,hconfig.trans h.rxConfig,h.txConfig,hid.trans h.requestId⟩

theorem start_response_timed {rt : UdsRuntime μ} (now : UInt32) (h : Timed rt)
    (h1 : 1 ≤ (rt.application.response.front rt.application.responseLength.toNat).length)
    (hm : (rt.application.response.front rt.application.responseLength.toNat).length ≤ 4095) :
    Timed (startResponse rt now) ∧ txLate (startResponse rt now).isotpTx now = false := by
  obtain ⟨hlate,hconfig,_⟩ := start_effect rt.isotpTx _ now h1 hm h.txConfig
  exact ⟨⟨(start_waits _ now h.tx).1,h.rxConfig,hconfig.trans h.txConfig,h.requestId⟩,hlate⟩

theorem process_other {rt : UdsRuntime μ} (frame : IsoTpCanFrame) (now : UInt32)
    (h : TxWaits rt.isotpTx) (hrx : frame.canId ≠ udsRxCanId) :
    processFrame rt frame now = rt := by
  unfold processFrame
  rw [if_neg hrx]
  split
  · rename_i htx
    rw [response_side_ignored now h htx]
  · rfl

theorem process_frame_timed {rt : UdsRuntime μ} (frame : IsoTpCanFrame) (now : UInt32)
    (h : Timed rt) : Timed (processFrame rt frame now) := by
  by_cases hrx : frame.canId = udsRxCanId
  · rw [process_request rt now hrx]
    split
    · rename_i hr
      obtain ⟨h1,hm⟩ := response_length hr
      exact (start_response_timed now (taken_timed frame now h) h1 hm).1
    · exact taken_timed frame now h
  · rw [process_other frame now h.tx hrx]
    exact h

theorem frame_tick_receiver {rt : UdsRuntime μ} {frame : IsoTpCanFrame} {now : UInt32}
    (h : Timed rt) (hc : rxLate rt.isotpRx now = true → ¬Touches udsRxCanId frame) :
    processFrame (tickReceiver rt now) frame now =
      tickReceiver (processFrame rt frame now) now := by
  have hticked := timed_tick_receiver now h
  by_cases hrx : frame.canId = udsRxCanId
  · cases hl : rxLate rt.isotpRx now with
    | false =>
      have hafter : rxLate (processFrame rt frame now).isotpRx now = false := by
        have hfed := (fed_late rt.isotpRx frame now h.rxConfig).not.mpr (by simp [hl])
        rw [process_request rt now hrx]
        split <;> simpa [taken,startResponse] using hfed
      rw [receiver_in_time hl,receiver_in_time hafter]
    | true =>
      have hquiet : ∀ {q : UdsRuntime μ}, Timed q → processFrame q frame now = q := by
        intro q hq
        obtain ⟨status,hfed,hopen,hflow⟩ :=
          untouched_feed now (hq.requestId.symm ▸ hc hl : ¬Touches q.isotpRx.requestId frame)
        have htaken : taken q frame now = q := by
          simp only [taken,hfed,noEvent,if_neg hflow]
        have hnone : responds q frame now = false := by
          simp only [responds,hfed,noEvent]
        rw [process_request q now hrx,hnone,htaken]
        rfl
      rw [hquiet hticked,hquiet h]
  · rw [process_other frame now hticked.tx hrx,process_other frame now h.tx hrx]

theorem taken_tick_transmitter (rt : UdsRuntime μ) (frame : IsoTpCanFrame) (now : UInt32) :
    taken (tickTransmitter rt now) frame now = tickTransmitter (taken rt frame now) now := by
  rw [tick_transmitter_eq,tick_transmitter_eq]
  simp only [taken,queue_credit]
  split <;> rfl

theorem frame_tick_transmitter {rt : UdsRuntime μ} {frame : IsoTpCanFrame} {now : UInt32}
    (h : Timed rt) (hc : txLate rt.isotpTx now = true → frame.canId = udsRxCanId →
      responds rt frame now = false) :
    processFrame (tickTransmitter rt now) frame now =
      tickTransmitter (processFrame rt frame now) now := by
  have hticked := timed_tick_transmitter now h
  by_cases hrx : frame.canId = udsRxCanId
  · have hsame : responds (tickTransmitter rt now) frame now = responds rt frame now := rfl
    rw [process_request _ now hrx,process_request rt now hrx,hsame,taken_tick_transmitter]
    cases hr : responds rt frame now with
    | false => rfl
    | true =>
      have hl : txLate rt.isotpTx now = false := by
        by_contra hl
        rw [hc (by simpa using hl) hrx] at hr
        cases hr
      obtain ⟨h1,hm⟩ := response_length hr
      have hafter := (start_response_timed now (taken_timed frame now h) h1 hm).2
      have hbefore : txLate (taken rt frame now).isotpTx now = false := hl
      simp only [if_true]
      rw [transmitter_in_time hbefore,transmitter_in_time hafter]
  · rw [process_other frame now hticked.tx hrx,process_other frame now h.tx hrx]

def arrivals (can : UdsStm32Can) : ℕ → List IsoTpCanFrame
  | 0 => []
  | budget+1 =>
    match (udsStm32CanRxPop can).2 with
    | none => []
    | some frame => frame::arrivals (udsStm32CanRxPop can).1 budget

/-- The two adapters have the same receive queue and have counted the same
receive timeouts. -/
structure SameReception (can can' : UdsStm32Can) : Prop where
  rxQueue : can'.rxQueue = can.rxQueue
  rxHead : can'.rxHead = can.rxHead
  rxTail : can'.rxTail = can.rxTail
  rxTimeouts : can'.stats.rxTimeouts = can.stats.rxTimeouts

theorem SameReception.trans {a b c : UdsStm32Can} (h : SameReception a b)
    (h' : SameReception b c) : SameReception a c :=
  ⟨h'.rxQueue.trans h.rxQueue,h'.rxHead.trans h.rxHead,h'.rxTail.trans h.rxTail,
    h'.rxTimeouts.trans h.rxTimeouts⟩

theorem arrivals_same {can can' : UdsStm32Can} (hq : can'.rxQueue = can.rxQueue)
    (hh : can'.rxHead = can.rxHead) (ht : can'.rxTail = can.rxTail) (budget : ℕ) :
    arrivals can' budget = arrivals can budget := by
  induction budget generalizing can can' with
  | zero => rfl
  | succ budget ih =>
    by_cases he : can.rxTail = can.rxHead
    · simp [arrivals,udsStm32CanRxPop,hh,ht,he]
    · simp only [arrivals,udsStm32CanRxPop,hh,ht,hq,if_neg he]
      exact congrArg _ (ih rfl rfl rfl)

theorem queue_same_reception (can : UdsStm32Can) (frames : Option IsoTpCanFrame) :
    SameReception can (queueTxFrames can frames) := by
  cases frames with
  | none => exact ⟨rfl,rfl,rfl,rfl⟩
  | some frame =>
    have hq : SameReception can (udsStm32CanTxQueue can frame).1 := by
      unfold udsStm32CanTxQueue
      split
      · exact ⟨rfl,rfl,rfl,rfl⟩
      split <;> exact ⟨rfl,rfl,rfl,rfl⟩
    unfold queueTxFrames queueTxFrame
    simp only
    split
    · exact ⟨hq.rxQueue,hq.rxHead,hq.rxTail,hq.rxTimeouts⟩
    · exact hq

theorem frame_same_reception {rt : UdsRuntime μ} (frame : IsoTpCanFrame) (now : UInt32)
    (h : TxWaits rt.isotpTx) : SameReception rt.can (processFrame rt frame now).can := by
  by_cases hrx : frame.canId = udsRxCanId
  · have htaken : SameReception rt.can (taken rt frame now).can := by
      simp only [taken]
      split
      · exact queue_same_reception _ _
      · exact ⟨rfl,rfl,rfl,rfl⟩
    rw [process_request rt now hrx]
    split
    · simp only [startResponse]
      split
      · exact htaken.trans (queue_same_reception _ _)
      · exact htaken
    · exact htaken
  · rw [process_other frame now h hrx]
    exact ⟨rfl,rfl,rfl,rfl⟩

def popped (rt : UdsRuntime μ) : UdsRuntime μ := { rt with can := (udsStm32CanRxPop rt.can).1 }

theorem pop_timeouts (can : UdsStm32Can) :
    (udsStm32CanRxPop can).1.stats.rxTimeouts = can.stats.rxTimeouts := by
  unfold udsStm32CanRxPop
  split <;> rfl

theorem process_frames_none {rt : UdsRuntime μ} (now : UInt32) (budget : ℕ)
    (h : (udsStm32CanRxPop rt.can).2 = none) :
    processFrames rt now (budget+1) = popped rt := by
  rw [processFrames]
  simp only [h]
  rfl

theorem process_frames_some {rt : UdsRuntime μ} {frame : IsoTpCanFrame} (now : UInt32)
    (budget : ℕ) (h : (udsStm32CanRxPop rt.can).2 = some frame) :
    processFrames rt now (budget+1) =
      processFrames (processFrame (popped rt) frame now) now budget := by
  rw [processFrames]
  simp only [h]
  rfl

theorem popped_tick_receiver (rt : UdsRuntime μ) (now : UInt32) :
    popped (tickReceiver rt now) = tickReceiver (popped rt) now := by
  rw [tick_receiver_eq,tick_receiver_eq]
  simp only [popped,pop_credit]
  rfl

theorem popped_tick_transmitter (rt : UdsRuntime μ) (now : UInt32) :
    popped (tickTransmitter rt now) = tickTransmitter (popped rt) now := by
  rw [tick_transmitter_eq,tick_transmitter_eq]
  simp only [popped,pop_credit]
  rfl

def RxClear (rt : UdsRuntime μ) (now : UInt32) (budget : ℕ) : Prop :=
  rxLate rt.isotpRx now = true → ∀ frame ∈ arrivals rt.can budget, ¬Touches udsRxCanId frame

theorem touches_addressed {frame : IsoTpCanFrame} (h : Touches udsRxCanId frame) :
    frame.canId = udsRxCanId := by
  rcases h with h | h | h
  · exact h.1.1
  · exact h.1.1
  · exact h.1.1

theorem frame_late {rt : UdsRuntime μ} (frame : IsoTpCanFrame) (now : UInt32) (h : Timed rt) :
    rxLate (processFrame rt frame now).isotpRx now = true ↔
      rxLate rt.isotpRx now = true ∧ ¬Touches udsRxCanId frame := by
  by_cases hrx : frame.canId = udsRxCanId
  · have hfed := fed_late rt.isotpRx frame now h.rxConfig
    rw [h.requestId] at hfed
    rw [← hfed,process_request rt now hrx]
    split <;> rfl
  · rw [process_other frame now h.tx hrx]
    exact ⟨fun hl => ⟨hl,fun ht => hrx (touches_addressed ht)⟩,fun hl => hl.1⟩

theorem drain_reception {rt : UdsRuntime μ} (now : UInt32) (budget : ℕ) (h : Timed rt) :
    Timed (processFrames rt now budget) ∧
      (processFrames rt now budget).can.stats.rxTimeouts = rt.can.stats.rxTimeouts ∧
      (rxLate (processFrames rt now budget).isotpRx now = true ↔
        rxLate rt.isotpRx now = true ∧
          ∀ frame ∈ arrivals rt.can budget, ¬Touches udsRxCanId frame) := by
  induction budget generalizing rt with
  | zero => exact ⟨h,rfl,by simp [processFrames,arrivals]⟩
  | succ budget ih =>
    have hpopped : Timed (popped rt) := ⟨h.tx,h.rxConfig,h.txConfig,h.requestId⟩
    cases hp : (udsStm32CanRxPop rt.can).2 with
    | none =>
      rw [process_frames_none now budget hp]
      exact ⟨hpopped,pop_timeouts rt.can,by simp [popped,arrivals,hp]⟩
    | some frame =>
      have hsame : SameReception (popped rt).can (processFrame (popped rt) frame now).can :=
        frame_same_reception frame now h.tx
      obtain ⟨htimed,hcount,hlate⟩ := ih (process_frame_timed frame now hpopped)
      rw [process_frames_some now budget hp]
      refine ⟨htimed,hcount.trans (hsame.rxTimeouts.trans (pop_timeouts rt.can)),?_⟩
      rw [hlate,frame_late frame now hpopped,
        arrivals_same hsame.rxQueue hsame.rxHead hsame.rxTail]
      simp only [arrivals,hp,List.forall_mem_cons,and_assoc]
      rfl

theorem drain_tick_receiver {rt : UdsRuntime μ} {now : UInt32} (budget : ℕ) (h : Timed rt)
    (hc : RxClear rt now budget) :
    processFrames (tickReceiver rt now) now budget =
      tickReceiver (processFrames rt now budget) now := by
  induction budget generalizing rt with
  | zero => rfl
  | succ budget ih =>
    have hpopped : Timed (popped rt) := ⟨h.tx,h.rxConfig,h.txConfig,h.requestId⟩
    have hticked : (udsStm32CanRxPop (tickReceiver rt now).can).2 =
        (udsStm32CanRxPop rt.can).2 := by
      rw [tick_receiver_eq]
      simp only [pop_credit]
    cases hp : (udsStm32CanRxPop rt.can).2 with
    | none =>
      rw [process_frames_none now budget hp,process_frames_none now budget (hticked.trans hp),
        popped_tick_receiver]
    | some frame =>
      have hsame : SameReception (popped rt).can (processFrame (popped rt) frame now).can :=
        frame_same_reception frame now h.tx
      rw [RxClear,arrivals,hp] at hc
      rw [process_frames_some now budget hp,process_frames_some now budget (hticked.trans hp),
        popped_tick_receiver,frame_tick_receiver hpopped fun hl => hc hl frame (List.mem_cons_self ..)]
      refine ih (process_frame_timed frame now hpopped) fun hl f hf => ?_
      rw [arrivals_same hsame.rxQueue hsame.rxHead hsame.rxTail] at hf
      exact hc ((frame_late frame now hpopped).mp hl).1 f (List.mem_cons_of_mem _ hf)

/-- A drained frame completes a request that gets a response. -/
def answered (rt : UdsRuntime μ) (now : UInt32) : ℕ → Prop
  | 0 => False
  | budget+1 =>
    match (udsStm32CanRxPop rt.can).2 with
    | none => False
    | some frame =>
      frame.canId = udsRxCanId ∧ responds (popped rt) frame now = true ∨
        answered (processFrame (popped rt) frame now) now budget

def TxClear (rt : UdsRuntime μ) (now : UInt32) (budget : ℕ) : Prop :=
  txLate rt.isotpTx now = true → ¬answered rt now budget

theorem frame_tx_late {rt : UdsRuntime μ} (frame : IsoTpCanFrame) (now : UInt32) (h : Timed rt) :
    txLate (processFrame rt frame now).isotpTx now = true ↔
      txLate rt.isotpTx now = true ∧
        ¬(frame.canId = udsRxCanId ∧ responds rt frame now = true) := by
  by_cases hrx : frame.canId = udsRxCanId
  · rw [process_request rt now hrx]
    cases hr : responds rt frame now with
    | false => simp [taken]
    | true =>
      obtain ⟨h1,hm⟩ := response_length hr
      have hafter := (start_response_timed now (taken_timed frame now h) h1 hm).2
      simp [hafter,hrx]
  · rw [process_other frame now h.tx hrx]
    exact ⟨fun hl => ⟨hl,fun ha => hrx ha.1⟩,fun hl => hl.1⟩

theorem drain_tx_late {rt : UdsRuntime μ} (now : UInt32) (budget : ℕ) (h : Timed rt) :
    txLate (processFrames rt now budget).isotpTx now = true ↔
      txLate rt.isotpTx now = true ∧ ¬answered rt now budget := by
  induction budget generalizing rt with
  | zero => simp [processFrames,answered]
  | succ budget ih =>
    have hpopped : Timed (popped rt) := ⟨h.tx,h.rxConfig,h.txConfig,h.requestId⟩
    cases hp : (udsStm32CanRxPop rt.can).2 with
    | none =>
      rw [process_frames_none now budget hp]
      simp [popped,answered,hp]
    | some frame =>
      rw [process_frames_some now budget hp,ih (process_frame_timed frame now hpopped),
        frame_tx_late frame now hpopped]
      simp only [answered,hp,not_or,and_assoc]
      rfl

theorem drain_tick_transmitter {rt : UdsRuntime μ} {now : UInt32} (budget : ℕ) (h : Timed rt)
    (hc : TxClear rt now budget) :
    processFrames (tickTransmitter rt now) now budget =
      tickTransmitter (processFrames rt now budget) now := by
  induction budget generalizing rt with
  | zero => rfl
  | succ budget ih =>
    have hpopped : Timed (popped rt) := ⟨h.tx,h.rxConfig,h.txConfig,h.requestId⟩
    have hticked : (udsStm32CanRxPop (tickTransmitter rt now).can).2 =
        (udsStm32CanRxPop rt.can).2 := by
      rw [tick_transmitter_eq]
      simp only [pop_credit]
    cases hp : (udsStm32CanRxPop rt.can).2 with
    | none =>
      rw [process_frames_none now budget hp,process_frames_none now budget (hticked.trans hp),
        popped_tick_transmitter]
    | some frame =>
      simp only [TxClear,answered,hp,not_or] at hc
      have hframe : processFrame (tickTransmitter (popped rt) now) frame now =
          tickTransmitter (processFrame (popped rt) frame now) now :=
        frame_tick_transmitter hpopped fun hl hrx => by
          by_contra hr
          exact (hc hl).1 ⟨hrx,by simpa using hr⟩
      rw [process_frames_some now budget hp,process_frames_some now budget (hticked.trans hp),
        popped_tick_transmitter,hframe]
      exact ih (process_frame_timed frame now hpopped) fun hl =>
        (hc ((frame_tx_late frame now hpopped).mp hl).1).2

def withTx (rt : UdsRuntime μ) (tx : IsoTpTx) (b : UInt32) : UdsRuntime μ :=
  { rt with isotpTx := tx, can := credit 0 b rt.can }

structure Exchangeable (tx tx' : IsoTpTx) : Prop where
  responseId : tx'.responseId = tx.responseId
  waits : TxWaits tx'
  config : tx'.config = runtimeIsotpConfig

theorem frame_blind {rt : UdsRuntime μ} {tx : IsoTpTx} (b : UInt32) (frame : IsoTpCanFrame)
    (now : UInt32) (h : Timed rt) (ht : Exchangeable rt.isotpTx tx) :
    ∃ tx', processFrame (withTx rt tx b) frame now = withTx (processFrame rt frame now) tx' b ∧
      Exchangeable (processFrame rt frame now).isotpTx tx' := by
  by_cases hrx : frame.canId = udsRxCanId
  · have hresponds : responds (withTx rt tx b) frame now = responds rt frame now := rfl
    have htaken : taken (withTx rt tx b) frame now = withTx (taken rt frame now) tx b := by
      simp only [withTx,taken,queue_credit]
      split <;> rfl
    rw [process_request rt now hrx,process_request _ now hrx,hresponds,htaken]
    cases hr : responds rt frame now with
    | false => exact ⟨tx,rfl,ht⟩
    | true =>
      obtain ⟨h1,hm⟩ := response_length hr
      have htimed := taken_timed frame now h
      obtain ⟨_,_,hid,hframe⟩ := start_effect (taken rt frame now).isotpTx _ now h1 hm htimed.txConfig
      obtain ⟨_,hconfig',hid',_⟩ := start_effect tx _ now h1 hm ht.config
      refine ⟨_,?_,hid'.trans (ht.responseId.trans hid.symm),(start_waits _ now ht.waits).1,
        hconfig'.trans ht.config⟩
      simp only [if_true,startResponse,withTx,hframe tx ht.responseId,queue_credit]
      split <;> rfl
  · have hother : processFrame (withTx rt tx b) frame now = withTx rt tx b :=
      process_other frame now ht.waits hrx
    rw [process_other frame now h.tx hrx,hother]
    exact ⟨tx,rfl,ht⟩

theorem drain_blind {rt : UdsRuntime μ} {tx : IsoTpTx} (b now : UInt32) (budget : ℕ)
    (h : Timed rt) (ht : Exchangeable rt.isotpTx tx) :
    ∃ tx', processFrames (withTx rt tx b) now budget =
      withTx (processFrames rt now budget) tx' b := by
  induction budget generalizing rt tx with
  | zero => exact ⟨tx,rfl⟩
  | succ budget ih =>
    have hpopped : Timed (popped rt) := ⟨h.tx,h.rxConfig,h.txConfig,h.requestId⟩
    have hpop : (udsStm32CanRxPop (withTx rt tx b).can).2 = (udsStm32CanRxPop rt.can).2 := by
      simp only [withTx,pop_credit]
    have hwith : popped (withTx rt tx b) = withTx (popped rt) tx b := by
      simp only [withTx,popped,pop_credit]
    cases hp : (udsStm32CanRxPop rt.can).2 with
    | none =>
      rw [process_frames_none now budget hp,process_frames_none now budget (hpop.trans hp),hwith]
      exact ⟨tx,rfl⟩
    | some frame =>
      obtain ⟨tx',hframe,ht'⟩ := frame_blind b frame now hpopped ht
      rw [process_frames_some now budget hp,process_frames_some now budget (hpop.trans hp),hwith,
        hframe]
      exact ih (process_frame_timed frame now hpopped) ht'

theorem polled_rests {rt : UdsRuntime μ} (now : UInt32) (h : TxWaits rt.isotpTx) :
    polled rt now = (rt,.ok) := by
  simp only [polled,next_rests now h]
  rfl

theorem process_tx_timeouts (budget : ℕ) (can : UdsStm32Can) (answers : List TxAnswer) :
    (udsStm32CanProcessTx can budget answers).1.stats.rxTimeouts = can.stats.rxTimeouts ∧
      (udsStm32CanProcessTx can budget answers).1.stats.txTimeouts = can.stats.txTimeouts := by
  induction budget generalizing can answers with
  | zero => exact ⟨rfl,rfl⟩
  | succ budget ih =>
    rw [process_tx_next]
    split
    · exact ⟨rfl,rfl⟩
    split
    · exact ⟨rfl,rfl⟩
    · exact ⟨rfl,rfl⟩
    · exact ih _ _

theorem counted_back {a : UInt32} {x y : Bool} (h : a+counted x = a+counted y) : x = y :=
  counted_inj (by simpa using h)

theorem tick_both_timed {rt : UdsRuntime μ} (now : UInt32) (h : Timed rt) :
    Timed (tickBoth rt now) := timed_tick_transmitter now (timed_tick_receiver now h)

theorem tick_both_rx_timeouts (rt : UdsRuntime μ) (now : UInt32) :
    (tickBoth rt now).can.stats.rxTimeouts =
      rt.can.stats.rxTimeouts+counted (rxLate rt.isotpRx now) := by
  rw [tickBoth,tick_transmitter_eq,tick_receiver_eq]
  simp [credit]

theorem tick_both_tx_timeouts (rt : UdsRuntime μ) (now : UInt32) :
    (tickBoth rt now).can.stats.txTimeouts =
      rt.can.stats.txTimeouts+counted (txLate rt.isotpTx now) := by
  rw [tickBoth,tick_transmitter_eq,tick_receiver_eq]
  simp [credit]

theorem tick_receiver_tx_timeouts (rt : UdsRuntime μ) (now : UInt32) :
    (tickReceiver rt now).can.stats.txTimeouts = rt.can.stats.txTimeouts := by
  rw [tick_receiver_eq]
  simp [credit]

theorem clear_tick_transmitter {rt : UdsRuntime μ} {now : UInt32} {budget : ℕ}
    (h : RxClear rt now budget) : RxClear (tickTransmitter rt now) now budget := by
  have hsame : arrivals (tickTransmitter rt now).can budget = arrivals rt.can budget := by
    rw [tick_transmitter_eq]
    exact @arrivals_same rt.can (credit 0 _ rt.can) rfl rfl rfl budget
  intro hl
  rw [hsame]
  exact h hl

theorem clear_order {rt : UdsRuntime μ} {now : UInt32} {budget : ℕ} (h : Timed rt)
    (hrx : RxClear rt now budget) (htx : TxClear rt now budget) :
    processFrames (tickBoth rt now) now budget =
      tickBoth (processFrames rt now budget) now := by
  rw [← ticks_commute,drain_tick_receiver budget (timed_tick_transmitter now h)
    (clear_tick_transmitter hrx),drain_tick_transmitter budget h htx,ticks_commute]

theorem order_clear {rt : UdsRuntime μ} {now : UInt32} {budget : ℕ} (h : Timed rt)
    (hcounts : (processFrames (tickBoth rt now) now budget).can.stats.rxTimeouts =
        (tickBoth (processFrames rt now budget) now).can.stats.rxTimeouts ∧
      (processFrames (tickBoth rt now) now budget).can.stats.txTimeouts =
        (tickBoth (processFrames rt now budget) now).can.stats.txTimeouts) :
    RxClear rt now budget ∧ TxClear rt now budget := by
  obtain ⟨_,hdrain,hlate⟩ := drain_reception now budget h
  have hrx : RxClear rt now budget := by
    have hfirst := (drain_reception now budget (tick_both_timed now h)).2.1
    have hcount := hcounts.1
    rw [hfirst,tick_both_rx_timeouts,tick_both_rx_timeouts,hdrain] at hcount
    intro hl
    exact (hlate.mp ((counted_back hcount).symm.trans hl)).2
  refine ⟨hrx,fun hl => ?_⟩
  have hexchange : Exchangeable rt.isotpTx (tickTransmitter rt now).isotpTx := by
    refine ⟨?_,(timed_tick_transmitter now h).tx,(timed_tick_transmitter now h).txConfig⟩
    rw [tick_transmitter_eq]
    simp only
    split <;> rfl
  have hwith : tickTransmitter rt now =
      withTx rt (tickTransmitter rt now).isotpTx (counted (txLate rt.isotpTx now)) := by
    rw [tick_transmitter_eq]
    rfl
  obtain ⟨tx,hblind⟩ := drain_blind (counted (txLate rt.isotpTx now)) now budget h hexchange
  rw [← hwith] at hblind
  have hcount := hcounts.2
  rw [← ticks_commute,drain_tick_receiver budget (timed_tick_transmitter now h)
    (clear_tick_transmitter hrx),tick_receiver_tx_timeouts,hblind,tick_both_tx_timeouts] at hcount
  have hstill := counted_back hcount
  exact ((drain_tx_late now budget h).mp (hstill.symm.trans hl)).2

/-- A pass drains no frame that touches a late reception, and answers no request
while a late transfer is pending. -/
def PassClear (rt : UdsRuntime μ) (now : UInt32) : Prop :=
  rt.initialized = true → RxClear (applicationTicked rt now) now udsStm32RxBudgetPerCall ∧
    TxClear (applicationTicked rt now) now udsStm32RxBudgetPerCall

theorem application_timed {rt : UdsRuntime μ} (now : UInt32) (h : Timed rt) :
    Timed (applicationTicked rt now) := ⟨h.tx,h.rxConfig,h.txConfig,h.requestId⟩

theorem drain_timed {rt : UdsRuntime μ} (now : UInt32) (h : Timed rt) : Timed (drain rt now) :=
  (drain_reception now udsStm32RxBudgetPerCall h).1

/-- The outcome of a pass is the same with the ticks first exactly when the
pass is clear. -/
theorem pass_iff {rt : UdsRuntime μ} (answers : List TxAnswer) (now : UInt32) (h : Timed rt) :
    canopenReferenceUdsProcess rt answers now = processTicksFirst rt answers now ↔
      PassClear rt now := by
  have happ := application_timed now h
  rw [process_stages,processTicksFirst,PassClear]
  cases hinit : rt.initialized with
  | false => simp
  | true =>
    have hlast := drain_timed now happ
    have hfirst := drain_timed now (tick_both_timed now happ)
    simp only [Bool.not_true,Bool.false_eq_true,if_false,forall_const,polled_rests now hlast.tx,
      polled_rests now hfirst.tx]
    generalize applicationTicked rt now = ticked at *
    constructor
    · intro heq
      have hsent := congrArg Prod.fst heq
      have hrx := congrArg (fun q : UdsRuntime μ => q.can.stats.rxTimeouts) hsent
      have htx := congrArg (fun q : UdsRuntime μ => q.can.stats.txTimeouts) hsent
      simp only [sendQueued] at hrx htx
      rw [(process_tx_timeouts _ _ _).1,(process_tx_timeouts _ _ _).1] at hrx
      rw [(process_tx_timeouts _ _ _).2,(process_tx_timeouts _ _ _).2] at htx
      exact order_clear happ ⟨hrx.symm,htx.symm⟩
    · rintro ⟨hrx,htx⟩
      have horder : drain (tickBoth ticked now) now = tickBoth (drain ticked now) now :=
        clear_order happ hrx htx
      rw [horder]

theorem process_timed {rt : UdsRuntime μ} (answers : List TxAnswer) (now : UInt32)
    (h : Timed rt) : Timed (canopenReferenceUdsProcess rt answers now).1 := by
  have hlast := drain_timed now (application_timed now h)
  have hticked := tick_both_timed now hlast
  rw [process_stages]
  split
  · exact h
  · simp only [polled_rests now hlast.tx]
    exact ⟨hticked.tx,hticked.rxConfig,hticked.txConfig,hticked.requestId⟩

theorem step_timed (rt : UdsRuntime μ) (input : RuntimeInput) (h : Timed rt) :
    Timed (runtimeStep rt input).1 := by
  cases input with
  | rxFromIsr frame =>
    simp only [runtimeStep,canopenReferenceUdsRxFromIsr]
    split
    · exact ⟨h.tx,h.rxConfig,h.txConfig,h.requestId⟩
    · exact h
  | process answers now => exact process_timed answers now h
  | clearReset =>
    simp only [runtimeStep,canopenReferenceUdsClearReset]
    split
    · exact ⟨h.tx,h.rxConfig,h.txConfig,h.requestId⟩
    · exact h

theorem init_timed (callbacks : Option (Download.UdsDownloadCallbacks μ)) (memory : μ)
    (registered : Bool) (now : UInt32) :
    Timed (canopenReferenceUdsInit callbacks memory registered now) :=
  ⟨(init_waiting callbacks memory registered now).tx,rfl,rfl,rfl⟩

def OrderFree (rt : UdsRuntime μ) : RuntimeInput → Prop
  | .process answers now =>
    canopenReferenceUdsProcess rt answers now = processTicksFirst rt answers now
  | _ => True

def InputClear (rt : UdsRuntime μ) : RuntimeInput → Prop
  | .process _ now => PassClear rt now
  | _ => True

theorem order_free_iff {rt : UdsRuntime μ} (input : RuntimeInput) (h : Timed rt) :
    OrderFree rt input ↔ InputClear rt input := by
  cases input with
  | rxFromIsr frame => exact Iff.rfl
  | process answers now => exact pass_iff answers now h
  | clearReset => exact Iff.rfl

/-- In every run, late frames continue no transfer exactly when none of those
that a transfer would take in time comes late; and the order of draining and
ticking does not matter to any pass exactly when all passes are clear. -/
theorem timeouts_enforced (callbacks : Option (Download.UdsDownloadCallbacks μ)) (memory : μ)
    (registered : Bool) (start : UInt32) (inputs : List RuntimeInput) (rx : IsoTpRx)
    (rxCalls : List RxCall) (tx : IsoTpTx) (txCalls : List TransmitterCall) :
    let rt := canopenReferenceUdsInit callbacks memory registered start
    (Along rxStep RxEnforced rx rxCalls ↔ Along rxStep RxInTime rx rxCalls) ∧
      (Along transmitterStep TxEnforced tx txCalls ↔ Along transmitterStep TxInTime tx txCalls) ∧
      (Along runtimeStep OrderFree rt inputs ↔ Along runtimeStep InputClear rt inputs) := by
  have hrx := along_congr rxStep (fun _ => True) (fun _ _ _ => trivial)
    (fun s a _ => rx_enforced_iff s a) rx rxCalls trivial
  have htx := along_congr transmitterStep (fun _ => True) (fun _ _ _ => trivial)
    (fun s a _ => tx_enforced_iff s a) tx txCalls trivial
  have hruntime := along_congr runtimeStep Timed step_timed (fun s a hs => order_free_iff a hs)
    _ inputs (init_timed callbacks memory registered start)
  exact ⟨hrx,htx,hruntime⟩

end Runtime

/-- The two frames of a write request of eight bytes. -/
def requestFirst : IsoTpCanFrame := filledFrame udsRxCanId [0x10,0x08,0x2E,0xF1,0x80,1,2,3]
def requestLast : IsoTpCanFrame := filledFrame udsRxCanId [0x21,4,5]

def quietRx : IsoTpRx := quietRuntime.isotpRx
def quietTx : IsoTpTx := quietRuntime.isotpTx

def lateDialogue : List RuntimeInput :=
  [.rxFromIsr requestFirst,.process [] 0,.rxFromIsr requestLast]

/-- The rest of a request and a Clear-To-Send frame, each at the deadline of
its transfer, are taken unless a tick comes first, and the pass at the deadline
delivers a request that it would not have delivered with the ticks first. -/
theorem late_frames_continue :
    (run rxStep quietRx [.feed requestFirst 0,.feed requestLast 1000]).2.map RxRecord.payload =
        [none,some [0x2E,0xF1,0x80,1,2,3,4,5]] ∧
      (run rxStep quietRx [.feed requestFirst 0,.tick 1000,.feed requestLast 1000]).2.map
        RxRecord.payload = [none,none,none] ∧
      ¬Along rxStep RxEnforced quietRx [.feed requestFirst 0,.feed requestLast 1000] ∧
      (run transmitterStep quietTx [.start [1,2,3,4,5,6,7,8] 0,.flowControl clearToSend 1000,
        .next 1000]).2.map TransmitterRecord.status = [.txFrameReady,.ok,.txFrameReady] ∧
      (run transmitterStep quietTx [.start [1,2,3,4,5,6,7,8] 0,.tick 1000,
        .flowControl clearToSend 1000]).2.map TransmitterRecord.status =
          [.txFrameReady,.errTimeout,.errState] ∧
      ((canopenReferenceUdsProcess (run runtimeStep quietRuntime lateDialogue).1 [] 1000).1
        |>.can.txHead) = 2 ∧
      ((processTicksFirst (run runtimeStep quietRuntime lateDialogue).1 [] 1000).1
        |>.can.txHead) = 1 := by
  refine ⟨by decide +kernel,by decide +kernel,fun h => ?_,by decide +kernel,by decide +kernel,
    by decide +kernel,by decide +kernel⟩
  have hlate := h.2.1 (by decide +kernel) ⟨⟨by decide +kernel,by decide +kernel⟩,by decide +kernel,
    by decide +kernel⟩
  exact absurd hlate.2 (by decide +kernel)

end CanopenReference.UdsTickOrder
