import CanopenReference.IsoTpDelivery
import CanopenReference.Diagnostics

/-!
# Flow control in the runtime

The processing pass hands the transmitter the frames of the response side only,
and the transmitter takes flow control from the request side only. No transfer
therefore gets past its First Frame.
-/

set_option autoImplicit false

namespace CanopenReference.UdsFlowControl
open Library Library.Runs Download IsoTp IsoTpReceiver IsoTpDelivery Uds UdsStm32 Diagnostics
open IsoTpTransmitter (Awaited flow_computes next_computes start_outcome)

def Outgoing (frame : IsoTpCanFrame) : Prop :=
  0 < frame.dlc ∧ frame.dlc ≤ isotpMaxFrameData ∧ pciType frame ≠ 2

structure TxWaits (tx : IsoTpTx) : Prop where
  requestId : tx.requestId = udsRxCanId
  waits : tx.active = true → tx.waitingFlowControl = true

def NoConsecutive (can : UdsStm32Can) : Prop := ∀ frame ∈ can.txQueue.cells, pciType frame ≠ 2

theorem empty_frame_pci : pciType emptyFrame ≠ 2 := by decide

theorem fill_pci (slot frame : IsoTpCanFrame) (h : Outgoing frame) :
    pciType (fillSlot slot frame) ≠ 2 := by
  obtain ⟨hlow,hhigh,hpci⟩ := h
  have hlen := Buffer.front_length frame.data frame.dlc hhigh
  have hfront := Buffer.front_write_zero slot.data (frame.data.front frame.dlc)
    (by rw [hlen]; exact hhigh)
  rw [hlen] at hfront
  have hbyte : (fillSlot slot frame).byte 0 = frame.byte 0 := by
    rw [IsoTpCanFrame.byte,fillSlot,Buffer.cell_front _ 0 frame.dlc 0 hlow,hfront,
      IsoTpCanFrame.byte,Buffer.cell_front _ 0 frame.dlc 0 hlow]
  rw [pciType,hbyte]
  exact hpci

theorem queue_no_consecutive {can : UdsStm32Can} {frame : IsoTpCanFrame}
    (h : NoConsecutive can) (hf : Outgoing frame) : NoConsecutive (queueTxFrame can frame) := by
  have hq : NoConsecutive (udsStm32CanTxQueue can frame).1 := by
    unfold udsStm32CanTxQueue
    split
    · exact h
    split
    · exact h
    · intro x hx
      rcases Buffer.mem_write _ _ _ _ hx with hx | hx
      · exact h x hx
      · rw [List.mem_singleton.mp hx]
        exact fill_pci _ _ hf
  unfold queueTxFrame
  simp only
  split <;> exact hq

theorem queue_frames_no_consecutive {can : UdsStm32Can} {frames : Option IsoTpCanFrame}
    (h : NoConsecutive can) (hf : ∀ frame ∈ frames, Outgoing frame) :
    NoConsecutive (queueTxFrames can frames) := by
  cases frames with
  | none => exact h
  | some frame => exact queue_no_consecutive h (hf frame rfl)

theorem feed_flow_control (rx : IsoTpRx) (frame : IsoTpCanFrame) (now : UInt32) :
    ∀ f ∈ (isotpRxFeed rx frame now).2.2.flowControl, Outgoing f := by
  have hflow : ∀ f ∈ some (rxMakeFlowControl rx), Outgoing f := by
    intro f hf
    obtain ⟨_,hdlc,hbyte,_⟩ := flow_frame rx
    rw [← Option.some.inj hf]
    refine ⟨by omega,by rw [hdlc]; decide,?_⟩
    rw [pciType,hbyte]
    decide
  have ho := rx_outcome rx frame now
  generalize isotpRxFeed rx frame now = fed at ho
  cases ho with
  | started _ _ _ => exact hflow
  | blockEnd _ _ _ _ _ => exact hflow
  | _ => intro f hf; cases hf

theorem single_outgoing (id : UInt32) (p : List UInt8) (h1 : 1 ≤ p.length) (h7 : p.length ≤ 7) :
    Outgoing (singleFrameOf id p) := by
  obtain ⟨⟨⟨_,hmax⟩,hpci,_⟩,_⟩ := single_frame id p h1 h7
  refine ⟨Nat.succ_pos _,hmax,?_⟩
  rw [hpci]
  decide

theorem first_outgoing (id : UInt32) (p : List UInt8) (h8 : 8 ≤ p.length)
    (hm : p.length ≤ 4095) : Outgoing (firstFrameOf id p) := by
  obtain ⟨⟨⟨_,hmax⟩,hlow,hpci⟩,_⟩ := first_frame id p h8 hm
  refine ⟨by omega,hmax,?_⟩
  rw [hpci]
  decide

theorem start_waits {tx : IsoTpTx} (p : List UInt8) (now : UInt32) (h : TxWaits tx) :
    TxWaits (isotpTxStart tx p now).1 ∧
      ∀ frame ∈ (isotpTxStart tx p now).2.2, Outgoing frame := by
  have ho := start_outcome tx p now
  generalize isotpTxStart tx p now = r at ho ⊢
  cases ho with
  | refused _ _ _ => exact ⟨h,by simp⟩
  | single h1 h7 =>
    refine ⟨⟨h.requestId,by simp [isotpTxReset]⟩,?_⟩
    rintro frame ⟨⟩
    exact single_outgoing tx.responseId p h1 h7
  | first h8 hm =>
    refine ⟨⟨h.requestId,fun _ => rfl⟩,?_⟩
    rintro frame ⟨⟩
    exact first_outgoing tx.responseId p h8 hm

theorem response_side_ignored {tx : IsoTpTx} {frame : IsoTpCanFrame} (now : UInt32)
    (h : TxWaits tx) (hid : frame.canId = udsTxCanId) :
    (isotpTxFeedFlowControl tx frame now).1 = tx := by
  have hno : ¬Awaited tx frame := by
    intro ha
    have hids := hid.symm.trans (ha.addressed.trans h.requestId)
    revert hids
    decide
  rw [flow_computes (.refused hno)]

theorem next_rests {tx : IsoTpTx} (now : UInt32) (h : TxWaits tx) :
    isotpTxNext tx now = (tx,.ok,none) :=
  next_computes (.rests fun ha hw => absurd ((h.waits ha).symm.trans hw) (by decide))

theorem tick_waits {tx : IsoTpTx} (now : UInt32) (h : TxWaits tx) :
    TxWaits (isotpTxTick tx now).1 := by
  unfold isotpTxTick
  split
  · exact h
  split
  · exact ⟨h.requestId,by simp [isotpTxReset]⟩
  · exact h

theorem process_tx_sends (budget : ℕ) (can : UdsStm32Can) (answers : List TxAnswer)
    (h : NoConsecutive can) :
    NoConsecutive (udsStm32CanProcessTx can budget answers).1 ∧
      ∀ frame ∈ (udsStm32CanProcessTx can budget answers).2, pciType frame ≠ 2 := by
  induction budget generalizing can answers with
  | zero => exact ⟨h,List.forall_mem_nil _⟩
  | succ budget ih =>
    rw [process_tx_next]
    split
    · exact ⟨h,by simp⟩
    split
    · exact ⟨h,by simp⟩
    · exact ⟨h,by simp⟩
    · obtain ⟨hcan,hsent⟩ := ih
        { can with
          txTail := nextIndex can.txTail udsStm32TxQueueCapacity
          stats := { can.stats with txFrames := can.stats.txFrames+1 } } answers.tail h
      refine ⟨hcan,fun frame hf => ?_⟩
      rcases List.mem_cons.mp hf with rfl | hf
      · rcases Buffer.cell_mem can.txQueue can.txTail emptyFrame with hm | hm
        · exact h _ hm
        · rw [hm]
          exact empty_frame_pci
      · exact hsent frame hf

section Run
variable {μ : Type}

inductive RuntimeInput where
  | rxFromIsr (frame : IsoTpCanFrame)
  | process (answers : List TxAnswer) (nowMs : UInt32)
  | clearReset

structure ProcessReport where
  transmitter : Option IsoTpStatus
  sent : List IsoTpCanFrame
  deriving DecidableEq

def runtimeStep (rt : UdsRuntime μ) : RuntimeInput → UdsRuntime μ × List ProcessReport
  | .rxFromIsr frame => (canopenReferenceUdsRxFromIsr rt frame,[])
  | .process answers now =>
    let processed := canopenReferenceUdsProcess rt answers now
    (processed.1,[⟨processed.2.1,processed.2.2⟩])
  | .clearReset => (canopenReferenceUdsClearReset rt,[])

structure Waiting (rt : UdsRuntime μ) : Prop where
  tx : TxWaits rt.isotpTx
  queue : NoConsecutive rt.can

/-- The transmitter made no frame and ended no transfer, and no consecutive
frame left the queue. -/
structure Halted (report : ProcessReport) : Prop where
  noFrame : report.transmitter ≠ some .txFrameReady
  noEnd : report.transmitter ≠ some .complete
  noConsecutive : ∀ frame ∈ report.sent, pciType frame ≠ 2

theorem rx_from_isr_waiting {rt : UdsRuntime μ} (frame : IsoTpCanFrame) (h : Waiting rt) :
    Waiting (canopenReferenceUdsRxFromIsr rt frame) := by
  have hqueue : (udsStm32CanRxFromIsr rt.can frame).txQueue = rt.can.txQueue := by
    unfold udsStm32CanRxFromIsr
    split
    · rfl
    split
    · rfl
    split <;> rfl
  unfold canopenReferenceUdsRxFromIsr
  split
  · exact ⟨h.tx,fun f hf => h.queue f (hqueue ▸ hf)⟩
  · exact h

theorem send_response_waiting {rt : UdsRuntime μ} (result : UdsCallbackResult) (now : UInt32)
    (h : Waiting rt) : Waiting (sendResponse rt result now) := by
  obtain ⟨htx,hframes⟩ := start_waits
    (rt.application.response.front rt.application.responseLength.toNat) now h.tx
  unfold sendResponse
  split
  · simp only
    split
    · exact ⟨htx,queue_frames_no_consecutive h.queue hframes⟩
    · exact ⟨htx,h.queue⟩
  · exact h

theorem process_frame_waiting {rt : UdsRuntime μ} (frame : IsoTpCanFrame) (now : UInt32)
    (h : Waiting rt) : Waiting (processFrame rt frame now) := by
  unfold processFrame
  split
  · have hflow := queue_frames_no_consecutive h.queue (feed_flow_control rt.isotpRx frame now)
    generalize isotpRxFeed rt.isotpRx frame now = fed at hflow
    simp only
    have hanswered : Waiting (if fed.2.1 = .needFlowControl then
        ({ rt with isotpRx := fed.1, can := queueTxFrames rt.can fed.2.2.flowControl } :
          UdsRuntime μ)
        else { rt with isotpRx := fed.1 }) := by
      split
      · exact ⟨h.tx,hflow⟩
      · exact ⟨h.tx,h.queue⟩
    split
    · exact send_response_waiting _ _ ⟨hanswered.tx,hanswered.queue⟩
    · exact hanswered
  split
  · rename_i hid
    exact ⟨by rw [response_side_ignored now h.tx hid]; exact h.tx,h.queue⟩
  · exact h

theorem process_frames_waiting {rt : UdsRuntime μ} (now : UInt32) (budget : ℕ)
    (h : Waiting rt) : Waiting (processFrames rt now budget) := by
  have hpop : ∀ can : UdsStm32Can, (udsStm32CanRxPop can).1.txQueue = can.txQueue := by
    intro can
    unfold udsStm32CanRxPop
    split <;> rfl
  induction budget generalizing rt with
  | zero => exact h
  | succ budget ih =>
    have hpopped : Waiting { rt with can := (udsStm32CanRxPop rt.can).1 } :=
      ⟨h.tx,fun f hf => h.queue f (hpop rt.can ▸ hf)⟩
    unfold processFrames
    simp only
    split
    · exact hpopped
    · exact ih (process_frame_waiting _ now hpopped)

theorem process_waiting {rt : UdsRuntime μ} (answers : List TxAnswer) (now : UInt32)
    (h : Waiting rt) :
    let processed := canopenReferenceUdsProcess rt answers now
    Waiting processed.1 ∧ Halted ⟨processed.2.1,processed.2.2⟩ := by
  unfold canopenReferenceUdsProcess
  split
  · exact ⟨h,by simp,by simp,by simp⟩
  simp only
  have hticked : Waiting
      { rt with
        application := (tickApplication rt.application now).1
        can := if (tickApplication rt.application now).2 = .timeout then
          udsStm32CanNoteRxTimeout rt.can else rt.can } :=
    ⟨h.tx,by split <;> exact h.queue⟩
  have hreceived := process_frames_waiting now udsStm32RxBudgetPerCall hticked
  generalize processFrames _ now udsStm32RxBudgetPerCall = received at hreceived
  rw [next_rests now hreceived.tx]
  have hrx : ∀ status : IsoTpStatus, NoConsecutive (if status = .errTimeout then
      udsStm32CanNoteRxTimeout received.can else received.can) := by
    intro status
    split <;> exact hreceived.queue
  have htx : ∀ (status : IsoTpStatus) {can : UdsStm32Can}, NoConsecutive can →
      NoConsecutive (if status = .errTimeout then udsStm32CanNoteTxTimeout can else can) := by
    intro status can hcan
    split <;> exact hcan
  obtain ⟨hcan,hsent⟩ := process_tx_sends udsStm32TxBudgetPerCall _ answers
    (htx (isotpTxTick received.isotpTx now).2 (hrx (isotpRxTick received.isotpRx now).2))
  exact ⟨⟨tick_waits now hreceived.tx,hcan⟩,by simp,by simp,hsent⟩

theorem step_waiting (rt : UdsRuntime μ) (input : RuntimeInput) (h : Waiting rt) :
    Waiting (runtimeStep rt input).1 ∧ ∀ report ∈ (runtimeStep rt input).2, Halted report := by
  cases input with
  | rxFromIsr frame => exact ⟨rx_from_isr_waiting frame h,by simp [runtimeStep]⟩
  | process answers now =>
    obtain ⟨hw,hh⟩ := process_waiting answers now h
    exact ⟨hw,fun report hr => List.mem_singleton.mp hr ▸ hh⟩
  | clearReset =>
    refine ⟨?_,by simp [runtimeStep]⟩
    simp only [runtimeStep,canopenReferenceUdsClearReset]
    split
    · exact ⟨h.tx,h.queue⟩
    · exact h

theorem init_waiting (callbacks : Option (UdsDownloadCallbacks μ)) (memory : μ)
    (registered : Bool) (now : UInt32) :
    Waiting (canopenReferenceUdsInit callbacks memory registered now) := by
  refine ⟨⟨rfl,fun h => by cases h⟩,fun frame hf => ?_⟩
  rw [List.eq_of_mem_replicate hf]
  exact empty_frame_pci

theorem run_halted (rt : UdsRuntime μ) (inputs : List RuntimeInput) (h : Waiting rt) :
    ∀ report ∈ (run runtimeStep rt inputs).2, Halted report := by
  induction inputs generalizing rt with
  | nil => simp
  | cons input inputs ih =>
    obtain ⟨hw,hh⟩ := step_waiting rt input h
    intro report hr
    rcases List.mem_append.mp hr with hr | hr
    · exact hh report hr
    · exact ih _ hw report hr

/-- A transfer gets beyond its First Frame: the transmitter makes a frame or
completes, or a consecutive frame is sent or left in the queue. -/
def Advances (rt : UdsRuntime μ) (inputs : List RuntimeInput) : Prop :=
  (∃ report ∈ (run runtimeStep rt inputs).2,
      report.transmitter = some .txFrameReady ∨ report.transmitter = some .complete ∨
        ∃ frame ∈ report.sent, pciType frame = 2) ∨
    ∃ frame ∈ (run runtimeStep rt inputs).1.can.txQueue.cells, pciType frame = 2

/-- Whatever the tester sends and whenever the runtime is processed, no
transfer advances from any state the runtime can reach. -/
theorem never_advances (callbacks : Option (UdsDownloadCallbacks μ)) (memory : μ)
    (registered : Bool) (now : UInt32) (before after : List RuntimeInput) :
    ¬Advances (run runtimeStep (canopenReferenceUdsInit callbacks memory registered now) before).1
      after := by
  have hstep : ∀ (rt : UdsRuntime μ) (input : RuntimeInput), Waiting rt →
      Waiting (runtimeStep rt input).1 := fun rt input h => (step_waiting rt input h).1
  have hbefore := run_invariant runtimeStep Waiting hstep _ before
    (init_waiting callbacks memory registered now)
  have hhalted := run_halted _ after hbefore
  rintro (⟨report,hr,hready | hend | ⟨frame,hf,hpci⟩⟩ | ⟨frame,hf,hpci⟩)
  · exact (hhalted report hr).noFrame hready
  · exact (hhalted report hr).noEnd hend
  · exact (hhalted report hr).noConsecutive frame hf hpci
  · exact (run_invariant runtimeStep Waiting hstep _ after hbefore).queue frame hf hpci

end Run

def quietRuntime : UdsRuntime Unit := canopenReferenceUdsInit none () true 0

/-- The request for the software version, whose response has twelve bytes. -/
def versionRequest : IsoTpCanFrame := filledFrame udsRxCanId [0x03,0x22,0xF1,0x80]

/-- The tester lets all remaining frames come without a pause. -/
def clearToSend : IsoTpCanFrame := filledFrame udsRxCanId [0x30,0x00,0x00]

def versionDialogue : List RuntimeInput :=
  [.rxFromIsr versionRequest,.process [.accepted] 1,.rxFromIsr clearToSend,
    .process [.accepted] 2,.process [.accepted] 500,.process [.accepted] 1001]

/-- The First Frame is sent and answered at once, and yet the pass at the
deadline gives the transfer up. -/
theorem clear_to_send_ignored :
    (run runtimeStep quietRuntime [.rxFromIsr versionRequest,.process [.accepted] 1]).1.isotpTx.active
        = true ∧
      (run runtimeStep quietRuntime versionDialogue).2.map
          (fun report => (report.transmitter,report.sent.map pciType)) =
        [(some .ok,[1]),(some .ok,[]),(some .ok,[]),(some .ok,[])] ∧
      (run runtimeStep quietRuntime versionDialogue).1.isotpTx.active = false := by
  decide +kernel

end CanopenReference.UdsFlowControl
