import CanopenReference.ResponseTransmission
import CanopenReference.TxQueue

/-!
# Frames that find the transmit queue full

A stage of a pass hands at most one frame to the transmit queue. Whether the
queue takes it is noted in a counter and in nothing else: the transmitter goes
on as it does after a frame that was queued.
-/

set_option autoImplicit false

namespace CanopenReference.TxBacklog
open Library Library.Runs IsoTp IsoTpTransmitter IsoTpReceiver IsoTpDelivery IsoTpDeadlines Uds UdsStm32
  Diagnostics UdsFlowControl UdsTickOrder ResponseTransmission RxRings TxQueue

/-- What a frame of the node is: flow control, the First or single frame of the
response to a request, or a consecutive frame. -/
inductive Origin where
  | flowControl
  | response (request : List UInt8)
  | consecutive
  deriving DecidableEq

/-- A frame was handed to the transmit queue, with the transmitter before and
after the stage; or the driver accepted frames. -/
inductive QueueEvent where
  | made (origin : Origin) (frame : IsoTpCanFrame) (queued : Bool) (before after : IsoTpTx)
  | sent (frames : List IsoTpCanFrame)
  deriving DecidableEq

section Runtime
variable {μ : Type}

def completed (rt : UdsRuntime μ) (frame : IsoTpCanFrame) (now : UInt32) : List UInt8 :=
  (isotpRxFeed rt.isotpRx frame now).2.2.payload.getD []

def frameOffer (rt : UdsRuntime μ) (frame : IsoTpCanFrame) (now : UInt32) :
    Option (Origin × IsoTpCanFrame) :=
  if frame.canId = udsRxCanId then
    let fed := isotpRxFeed rt.isotpRx frame now
    if fed.2.1 = .needFlowControl then fed.2.2.flowControl.map fun flow => (.flowControl,flow)
    else if responds rt frame now then
      let application := (taken rt frame now).application
      let started := isotpTxStart rt.isotpTx
        (application.response.front application.responseLength.toNat) now
      if started.2.1 = .txFrameReady then
        started.2.2.map fun first => (.response (completed rt frame now),first)
      else none
    else none
  else none

def stageOffer (rt : UdsRuntime μ) : Stage → Option (Origin × IsoTpCanFrame)
  | .frame now => (udsStm32CanRxPop rt.can).2.bind fun frame => frameOffer (popped rt) frame now
  | .poll now =>
    let next := isotpTxNext rt.isotpTx now
    if next.2.1 = .txFrameReady then next.2.2.map fun frame => (.consecutive,frame) else none
  | _ => none

def stageEvents (rt : UdsRuntime μ) (a : Stage) : List QueueEvent :=
  match a with
  | .send answers => [.sent (sendQueued rt answers).2]
  | a =>
    (stageOffer rt a).toList.map fun offer =>
      .made offer.1 offer.2 ((udsStm32CanTxQueue rt.can offer.2).2 = .queued) rt.isotpTx
        (stageRuntime rt a).1.isotpTx

def queueStep (rt : UdsRuntime μ) (a : Stage) : UdsRuntime μ × List QueueEvent :=
  if !rt.initialized then (rt,[]) else ((stageRuntime rt a).1,stageEvents rt a)

structure SameQueue (a b : UdsStm32Can) : Prop where
  queue : a.txQueue = b.txQueue
  head : a.txHead = b.txHead
  tail : a.txTail = b.txTail
  responseId : a.responseId = b.responseId
  overflow : a.stats.txOverflow = b.stats.txOverflow

theorem same_queue_refl (a : UdsStm32Can) : SameQueue a a := ⟨rfl,rfl,rfl,rfl,rfl⟩

theorem SameQueue.trans {a b c : UdsStm32Can} (h : SameQueue a b) (h' : SameQueue b c) :
    SameQueue a c :=
  ⟨h.queue.trans h'.queue,h.head.trans h'.head,h.tail.trans h'.tail,
    h.responseId.trans h'.responseId,h.overflow.trans h'.overflow⟩

theorem pop_same (can : UdsStm32Can) : SameQueue (udsStm32CanRxPop can).1 can := by
  unfold udsStm32CanRxPop
  split <;> exact ⟨rfl,rfl,rfl,rfl,rfl⟩

theorem receive_same (can : UdsStm32Can) (frame : IsoTpCanFrame) :
    SameQueue (udsStm32CanRxFromIsr can frame) can := by
  unfold udsStm32CanRxFromIsr
  split
  · exact ⟨rfl,rfl,rfl,rfl,rfl⟩
  split
  · exact ⟨rfl,rfl,rfl,rfl,rfl⟩
  split <;> exact ⟨rfl,rfl,rfl,rfl,rfl⟩

theorem note_tx_same (can : UdsStm32Can) : SameQueue (udsStm32CanNoteTxTimeout can) can :=
  ⟨rfl,rfl,rfl,rfl,rfl⟩

theorem note_rx_same (can : UdsStm32Can) : SameQueue (udsStm32CanNoteRxTimeout can) can :=
  ⟨rfl,rfl,rfl,rfl,rfl⟩

theorem queue_same {a b : UdsStm32Can} (frame : IsoTpCanFrame) (h : SameQueue a b) :
    SameQueue (udsStm32CanTxQueue a frame).1 (udsStm32CanTxQueue b frame).1 ∧
      (udsStm32CanTxQueue a frame).2 = (udsStm32CanTxQueue b frame).2 := by
  unfold udsStm32CanTxQueue
  rw [h.queue,h.head,h.tail,h.responseId]
  split
  · exact ⟨h,rfl⟩
  split
  · exact ⟨⟨rfl,rfl,rfl,rfl,congrArg (·+1) h.overflow⟩,rfl⟩
  · exact ⟨⟨rfl,rfl,rfl,rfl,h.overflow⟩,rfl⟩

theorem queue_frame_same (can : UdsStm32Can) (frame : IsoTpCanFrame) :
    SameQueue (queueTxFrame can frame) (udsStm32CanTxQueue can frame).1 := by
  unfold queueTxFrame
  simp only
  split
  · exact note_tx_same _
  · exact same_queue_refl _

/-- The adapter after a frame, if any, was handed to the transmit queue. -/
def offered (can : UdsStm32Can) : Option (Origin × IsoTpCanFrame) → UdsStm32Can
  | none => can
  | some offer => (udsStm32CanTxQueue can offer.2).1

theorem offered_same {a b : UdsStm32Can} (offer : Option (Origin × IsoTpCanFrame))
    (h : SameQueue a b) : SameQueue (offered a offer) (offered b offer) := by
  cases offer with
  | none => exact h
  | some offer => exact (queue_same offer.2 h).1

theorem queue_frames_same (can : UdsStm32Can) (frame : Option IsoTpCanFrame) (origin : Origin) :
    SameQueue (queueTxFrames can frame) (offered can (frame.map fun f => (origin,f))) := by
  cases frame with
  | none => exact same_queue_refl can
  | some frame => exact queue_frame_same can frame

theorem flow_responds {rt : UdsRuntime μ} {frame : IsoTpCanFrame} {now : UInt32}
    (h : (isotpRxFeed rt.isotpRx frame now).2.1 = .needFlowControl) :
    responds rt frame now = false := by
  simp only [responds,h]

theorem frame_same (rt : UdsRuntime μ) (frame : IsoTpCanFrame) (now : UInt32) :
    SameQueue (processFrame rt frame now).can (offered rt.can (frameOffer rt frame now)) := by
  by_cases hrx : frame.canId = udsRxCanId
  · rw [process_request rt now hrx,frameOffer,if_pos hrx]
    simp only
    by_cases hflow : (isotpRxFeed rt.isotpRx frame now).2.1 = .needFlowControl
    · rw [flow_responds hflow,if_pos hflow,if_neg Bool.false_ne_true,taken]
      simp only [if_pos hflow]
      exact queue_frames_same _ _ _
    have hcan : (taken rt frame now).can = rt.can := if_neg hflow
    rw [if_neg hflow]
    cases responds rt frame now with
    | false =>
      rw [if_neg Bool.false_ne_true,if_neg Bool.false_ne_true,hcan]
      exact same_queue_refl _
    | true =>
      rw [if_pos rfl,if_pos rfl,startResponse]
      have htx : (taken rt frame now).isotpTx = rt.isotpTx := rfl
      simp only [hcan,htx]
      split
      · exact queue_frames_same _ _ _
      · exact same_queue_refl _
  · rw [processFrame,if_neg hrx,frameOffer,if_neg hrx]
    split <;> exact same_queue_refl _

theorem polled_same (rt : UdsRuntime μ) (now : UInt32) :
    SameQueue (polled rt now).1.can (offered rt.can (stageOffer rt (.poll now))) := by
  simp only [polled,stageOffer]
  split
  · exact queue_frames_same _ _ _
  · exact same_queue_refl _

theorem tick_same (rt : UdsRuntime μ) (now : UInt32) : SameQueue (tickBoth rt now).can rt.can := by
  have hreceiver : SameQueue (tickReceiver rt now).can rt.can := by
    unfold tickReceiver
    simp only
    split
    · exact note_rx_same _
    · exact same_queue_refl _
  have htransmitter : ∀ rt' : UdsRuntime μ, SameQueue (tickTransmitter rt' now).can rt'.can := by
    intro rt'
    unfold tickTransmitter
    simp only
    split
    · exact note_tx_same _
    · exact same_queue_refl _
  exact (htransmitter _).trans hreceiver

theorem stage_same (rt : UdsRuntime μ) {a : Stage} (h : ∀ answers, a ≠ .send answers) :
    SameQueue (stageRuntime rt a).1.can (offered rt.can (stageOffer rt a)) := by
  cases a with
  | send answers => exact absurd rfl (h answers)
  | receive frame =>
    simp only [stageRuntime,stageOffer,canopenReferenceUdsRxFromIsr]
    split
    · exact receive_same _ _
    · exact same_queue_refl _
  | begin now =>
    simp only [stageRuntime,stageOffer,applicationTicked]
    split
    · exact note_rx_same _
    · exact same_queue_refl _
  | clearReset =>
    simp only [stageRuntime,stageOffer,canopenReferenceUdsClearReset]
    split <;> exact same_queue_refl _
  | tick now => exact tick_same rt now
  | poll now => exact polled_same rt now
  | frame now =>
    simp only [stageRuntime,stageOffer]
    cases (udsStm32CanRxPop rt.can).2 with
    | none => exact pop_same rt.can
    | some frame => exact (frame_same _ frame now).trans (offered_same _ (pop_same rt.can))

theorem feed_response_id (rx : IsoTpRx) (f : IsoTpCanFrame) (now : UInt32) :
    (isotpRxFeed rx f now).1.responseId = rx.responseId ∧
      ∀ flow ∈ (isotpRxFeed rx f now).2.2.flowControl, flow = rxMakeFlowControl rx := by
  have ho := rx_outcome rx f now
  generalize isotpRxFeed rx f now = r at ho ⊢
  cases ho with
  | started _ _ _ => exact ⟨rfl,fun flow hflow => (Option.some.inj hflow).symm⟩
  | blockEnd _ _ _ _ _ => exact ⟨rfl,fun flow hflow => (Option.some.inj hflow).symm⟩
  | _ => exact ⟨rfl,fun flow hflow => by cases hflow⟩

def Fitting (id : UInt32) (frame : IsoTpCanFrame) : Prop :=
  frame.canId = id ∧ frame.dlc ≤ isotpMaxFrameData

theorem start_response_id (tx : IsoTpTx) (p : List UInt8) (now : UInt32) :
    (isotpTxStart tx p now).1.responseId = tx.responseId ∧
      ∀ frame ∈ (isotpTxStart tx p now).2.2, Fitting tx.responseId frame := by
  have ho := start_outcome tx p now
  generalize isotpTxStart tx p now = r at ho ⊢
  cases ho with
  | refused _ _ _ => exact ⟨rfl,fun frame hframe => by cases hframe⟩
  | single h1 h7 =>
    refine ⟨rfl,fun frame hframe => ?_⟩
    rw [← Option.some.inj hframe]
    exact (single_frame tx.responseId p h1 h7).1.1
  | first h8 hm =>
    refine ⟨rfl,fun frame hframe => ?_⟩
    rw [← Option.some.inj hframe]
    exact (first_frame tx.responseId p h8 hm).1.1

theorem chunk_fitting (tx : IsoTpTx) : Fitting tx.responseId (chunkFrame tx) := by
  refine ⟨rfl,?_⟩
  have hslice : (tx.buffer.slice tx.offset (chunkLen tx)).length ≤ chunkLen tx := by
    rw [Buffer.slice,List.length_take]
    exact Nat.min_le_left _ _
  have hchunk : chunkLen tx ≤ 7 := Nat.min_le_left _ _
  change (tx.buffer.slice tx.offset (chunkLen tx)).length+1 ≤ 8
  omega

theorem next_response_id (tx : IsoTpTx) (now : UInt32) :
    (isotpTxNext tx now).1.responseId = tx.responseId ∧
      ∀ frame ∈ (isotpTxNext tx now).2.2, Fitting tx.responseId frame := by
  have ho := next_outcome tx now
  generalize isotpTxNext tx now = r at ho ⊢
  have hchunk : ∀ frame ∈ some (chunkFrame tx), Fitting tx.responseId frame := by
    intro frame hframe
    rw [← Option.some.inj hframe]
    exact chunk_fitting tx
  cases ho with
  | sends _ _ _ => exact ⟨rfl,hchunk⟩
  | blockEnd _ _ _ => exact ⟨rfl,hchunk⟩
  | _ => exact ⟨rfl,fun frame hframe => by cases hframe⟩

theorem flow_response_id (tx : IsoTpTx) (f : IsoTpCanFrame) (now : UInt32) :
    (isotpTxFeedFlowControl tx f now).1.responseId = tx.responseId := by
  have ho := flow_outcome tx f now
  generalize isotpTxFeedFlowControl tx f now = r at ho ⊢
  cases ho <;> rfl

/-- The adapter and both sides of ISO-TP use one response identifier. -/
structure Joined (rt : UdsRuntime μ) : Prop where
  indexed : Indexed rt.can
  standard : rt.can.responseId ≤ 0x7FF
  receiver : rt.isotpRx.responseId = rt.can.responseId
  transmitter : rt.isotpTx.responseId = rt.can.responseId

theorem init_joined (callbacks : Option (Download.UdsDownloadCallbacks μ)) (memory : μ)
    (registered : Bool) (now : UInt32) :
    Joined (canopenReferenceUdsInit callbacks memory registered now) :=
  ⟨⟨Nat.zero_lt_succ 7,Nat.zero_lt_succ 7⟩,by change (0x7E8 : UInt32) ≤ 0x7FF; decide,rfl,rfl⟩

theorem frame_offer_fits {rt : UdsRuntime μ} {f : IsoTpCanFrame} {now : UInt32}
    (h : Joined rt) : ∀ offer ∈ frameOffer rt f now, Fitting rt.can.responseId offer.2 := by
  intro offer hoffer
  unfold frameOffer at hoffer
  split at hoffer
  case isFalse => cases hoffer
  simp only at hoffer
  split at hoffer
  · obtain ⟨flow,hflow,rfl⟩ := Option.map_eq_some_iff.mp hoffer
    rw [(feed_response_id rt.isotpRx f now).2 flow hflow]
    exact ⟨h.receiver,by rw [(flow_frame rt.isotpRx).2.1]; decide⟩
  split at hoffer
  case isFalse => cases hoffer
  split at hoffer
  case isFalse => cases hoffer
  obtain ⟨first,hfirst,rfl⟩ := Option.map_eq_some_iff.mp hoffer
  rw [← h.transmitter]
  exact (start_response_id rt.isotpTx _ now).2 first hfirst

theorem offer_fits {rt : UdsRuntime μ} {a : Stage} (h : Joined rt) :
    ∀ offer ∈ stageOffer rt a, Fitting rt.can.responseId offer.2 := by
  intro offer hoffer
  cases a with
  | frame now =>
    obtain ⟨f,_,hframe⟩ := Option.bind_eq_some_iff.mp hoffer
    have hsame := pop_same rt.can
    have hpopped : Joined (popped rt) := by
      refine ⟨⟨?_,?_⟩,?_,?_,?_⟩
      · exact hsame.tail ▸ h.indexed.tail
      · exact hsame.head ▸ h.indexed.head
      · exact hsame.responseId ▸ h.standard
      · exact h.receiver.trans hsame.responseId.symm
      · exact h.transmitter.trans hsame.responseId.symm
    have hfits := frame_offer_fits hpopped offer hframe
    exact ⟨hfits.1.trans hsame.responseId,hfits.2⟩
  | poll now =>
    simp only [stageOffer] at hoffer
    split at hoffer
    case isFalse => cases hoffer
    obtain ⟨frame,hframe,rfl⟩ := Option.map_eq_some_iff.mp hoffer
    rw [← h.transmitter]
    exact (next_response_id rt.isotpTx now).2 frame hframe
  | _ => cases hoffer

theorem frame_ids (rt : UdsRuntime μ) (f : IsoTpCanFrame) (now : UInt32) :
    (processFrame rt f now).isotpRx.responseId = rt.isotpRx.responseId ∧
      (processFrame rt f now).isotpTx.responseId = rt.isotpTx.responseId := by
  by_cases hrx : f.canId = udsRxCanId
  · have htaken : (taken rt f now).isotpRx.responseId = rt.isotpRx.responseId :=
      (feed_response_id rt.isotpRx f now).1
    rw [process_request rt now hrx]
    split
    · exact ⟨htaken,(start_response_id rt.isotpTx _ now).1⟩
    · exact ⟨htaken,rfl⟩
  · rw [processFrame,if_neg hrx]
    split
    · exact ⟨rfl,flow_response_id rt.isotpTx f now⟩
    · exact ⟨rfl,rfl⟩

theorem tick_ids (rt : UdsRuntime μ) (now : UInt32) :
    (tickBoth rt now).isotpRx.responseId = rt.isotpRx.responseId ∧
      (tickBoth rt now).isotpTx.responseId = rt.isotpTx.responseId := by
  simp only [tickBoth,tickTransmitter,tickReceiver]
  rw [rx_tick_eq,tx_tick_eq]
  constructor <;> split <;> rfl

theorem stage_ids (rt : UdsRuntime μ) (a : Stage) :
    (stageRuntime rt a).1.isotpRx.responseId = rt.isotpRx.responseId ∧
      (stageRuntime rt a).1.isotpTx.responseId = rt.isotpTx.responseId := by
  cases a with
  | send answers => exact ⟨rfl,rfl⟩
  | begin now => exact ⟨rfl,rfl⟩
  | receive frame =>
    simp only [stageRuntime,canopenReferenceUdsRxFromIsr]
    split <;> exact ⟨rfl,rfl⟩
  | clearReset =>
    simp only [stageRuntime,canopenReferenceUdsClearReset]
    split <;> exact ⟨rfl,rfl⟩
  | tick now => exact tick_ids rt now
  | poll now => exact ⟨rfl,(next_response_id rt.isotpTx now).1⟩
  | frame now =>
    simp only [stageRuntime]
    split
    · exact ⟨rfl,rfl⟩
    · exact frame_ids (popped rt) _ now

theorem same_waiting {a b : UdsStm32Can} (h : SameQueue a b) :
    waiting a = waiting b ∧ (Indexed b → Indexed a) := by
  refine ⟨?_,fun hb => ⟨?_,?_⟩⟩
  · rw [waiting,waiting,h.queue,h.head,h.tail]
  · rw [h.tail]
    exact hb.tail
  · rw [h.head]
    exact hb.head

theorem process_keeps (can : UdsStm32Can) (budget : ℕ) (answers : List TxAnswer) :
    (udsStm32CanProcessTx can budget answers).1.responseId = can.responseId ∧
      (udsStm32CanProcessTx can budget answers).1.stats.txOverflow = can.stats.txOverflow := by
  induction budget generalizing can answers with
  | zero => exact ⟨rfl,rfl⟩
  | succ budget ih =>
    rw [process_tx_next]
    split
    · exact ⟨rfl,rfl⟩
    cases answers.headD .noMailbox with
    | noMailbox => exact ⟨rfl,rfl⟩
    | failed => exact ⟨rfl,rfl⟩
    | accepted => exact ih _ answers.tail

theorem queue_full {can : UdsStm32Can} (h : Indexed can) :
    nextIndex can.txHead udsStm32TxQueueCapacity = can.txTail ↔ (waiting can).length = 7 := by
  have hfull := Queue.count_full h.tail h.head
  have hlength : (waiting can).length = Queue.count udsStm32TxQueueCapacity can.txTail can.txHead :=
    Queue.unread_length
  rw [hlength]
  exact hfull.trans (by rw [udsStm32TxQueueCapacity]; omega)

theorem queue_fitting {can : UdsStm32Can} {frame : IsoTpCanFrame} (h : Indexed can)
    (hid : can.responseId ≤ 0x7FF) (hf : Fitting can.responseId frame) :
    (Takes can frame ↔ (waiting can).length ≠ 7) ∧
      (udsStm32CanTxQueue can frame).1.responseId = can.responseId ∧
      (udsStm32CanTxQueue can frame).1.stats.txOverflow =
        can.stats.txOverflow+
          if (udsStm32CanTxQueue can frame).2 = .queued then 0 else 1 := by
  have hvalid : validFrame frame.canId frame.dlc = true ∧ frame.canId = can.responseId := by
    refine ⟨?_,hf.1⟩
    rw [validFrame,hf.1]
    exact decide_eq_true ⟨hf.2,hid⟩
  have htakes : Takes can frame ↔ (waiting can).length ≠ 7 :=
    (and_iff_right hvalid).trans (queue_full h).not
  refine ⟨htakes,?_⟩
  by_cases ht : Takes can frame
  · rw [queue_taken ht,if_pos rfl]
    exact ⟨rfl,(UInt32.add_zero _).symm⟩
  · have hfull : nextIndex can.txHead udsStm32TxQueueCapacity = can.txTail := by
      by_contra hroom
      exact ht ⟨hvalid,hroom⟩
    rw [udsStm32CanTxQueue,if_neg (by rw [hvalid.1]; simp [hvalid.2]),if_pos hfull]
    exact ⟨rfl,rfl⟩

/-- The frames that entered the transmit queue, in order. -/
def enteredFrames (events : List QueueEvent) : List IsoTpCanFrame :=
  events.filterMap fun
    | .made _ frame true _ _ => some frame
    | _ => none

/-- The frames that the transmit queue refused. -/
def refusedFrames (events : List QueueEvent) : List IsoTpCanFrame :=
  events.filterMap fun
    | .made _ frame false _ _ => some frame
    | _ => none

/-- The frames that the driver accepted, in order. -/
def leftFrames (events : List QueueEvent) : List IsoTpCanFrame :=
  events.flatMap fun
    | .sent frames => frames
    | _ => []

theorem entered_append (xs ys : List QueueEvent) :
    enteredFrames (xs++ys) = enteredFrames xs++enteredFrames ys := List.filterMap_append

theorem refused_append (xs ys : List QueueEvent) :
    refusedFrames (xs++ys) = refusedFrames xs++refusedFrames ys := List.filterMap_append

theorem left_append (xs ys : List QueueEvent) :
    leftFrames (xs++ys) = leftFrames xs++leftFrames ys := List.flatMap_append

structure Balanced (can can' : UdsStm32Can) (events : List QueueEvent) : Prop where
  indexed : Indexed can'
  responseId : can'.responseId = can.responseId
  order : (waiting can).map frameContent++(enteredFrames events).map frameContent =
    (leftFrames events).map frameContent++(waiting can').map frameContent
  overflow : can'.stats.txOverflow =
    can.stats.txOverflow+UInt32.ofNat (refusedFrames events).length

theorem same_balanced {can can' : UdsStm32Can} (h : Indexed can) (hs : SameQueue can' can) :
    Balanced can can' [] := by
  obtain ⟨hwaiting,hindexed⟩ := same_waiting hs
  refine ⟨hindexed h,hs.responseId,?_,?_⟩
  · rw [hwaiting]
    exact List.append_nil _
  · rw [hs.overflow]
    exact (UInt32.add_zero _).symm

theorem offer_balanced {can can' : UdsStm32Can} {frame : IsoTpCanFrame} (origin : Origin)
    (before after : IsoTpTx) (h : Indexed can) (hid : can.responseId ≤ 0x7FF)
    (hf : Fitting can.responseId frame) (hs : SameQueue can' (udsStm32CanTxQueue can frame).1) :
    Balanced can can'
      [.made origin frame ((udsStm32CanTxQueue can frame).2 = .queued) before after] := by
  obtain ⟨hqueued,horder⟩ := queue_waiting h frame
  obtain ⟨_,hresponse,hoverflow⟩ := queue_fitting h hid hf
  obtain ⟨hwaiting,hindexed⟩ := same_waiting hs
  refine ⟨hindexed hqueued,hs.responseId.trans hresponse,?_,?_⟩
  · rw [hwaiting,horder]
    by_cases ht : (udsStm32CanTxQueue can frame).2 = .queued
    · simp [enteredFrames,leftFrames,ht]
    · simp [enteredFrames,leftFrames,ht]
  · rw [hs.overflow,hoverflow]
    by_cases ht : (udsStm32CanTxQueue can frame).2 = .queued
    · simp [refusedFrames,ht]
    · simp [refusedFrames,ht]

theorem send_balanced {can : UdsStm32Can} (h : Indexed can) (answers : List TxAnswer) :
    Balanced can (udsStm32CanProcessTx can udsStm32TxBudgetPerCall answers).1
      [.sent (udsStm32CanProcessTx can udsStm32TxBudgetPerCall answers).2] := by
  obtain ⟨hindexed,horder,_⟩ := TxQueue.process_waiting h udsStm32TxBudgetPerCall answers
  obtain ⟨hresponse,hoverflow⟩ := process_keeps can udsStm32TxBudgetPerCall answers
  refine ⟨hindexed,hresponse,?_,?_⟩
  · rw [horder]
    simp [enteredFrames,leftFrames]
  · rw [hoverflow]
    exact (UInt32.add_zero _).symm

theorem events_offered (rt : UdsRuntime μ) {a : Stage} (h : ∀ answers, a ≠ .send answers) :
    stageEvents rt a = (stageOffer rt a).toList.map fun offer =>
      .made offer.1 offer.2 ((udsStm32CanTxQueue rt.can offer.2).2 = .queued) rt.isotpTx
        (stageRuntime rt a).1.isotpTx := by
  cases a with
  | send answers => exact absurd rfl (h answers)
  | _ => rfl

theorem stage_balanced {rt : UdsRuntime μ} (a : Stage) (h : Joined rt) :
    Balanced rt.can (stageRuntime rt a).1.can (stageEvents rt a) := by
  by_cases hsend : ∃ answers, a = .send answers
  · obtain ⟨answers,rfl⟩ := hsend
    exact send_balanced h.indexed answers
  have hother : ∀ answers, a ≠ .send answers := fun answers ha => hsend ⟨answers,ha⟩
  have hstage := stage_same rt hother
  have hfits := offer_fits (a := a) h
  rw [events_offered rt hother]
  cases hoffer : stageOffer rt a with
  | none =>
    rw [hoffer] at hstage
    exact same_balanced h.indexed hstage
  | some offer =>
    rw [hoffer] at hstage
    exact offer_balanced offer.1 _ _ h.indexed h.standard (hfits offer hoffer) hstage

theorem stage_joined {rt : UdsRuntime μ} (a : Stage) (h : Joined rt) :
    Joined (stageRuntime rt a).1 := by
  have hb := stage_balanced a h
  obtain ⟨hreceiver,htransmitter⟩ := stage_ids rt a
  refine ⟨hb.indexed,?_,?_,?_⟩
  · rw [hb.responseId]
    exact h.standard
  · rw [hreceiver,hb.responseId]
    exact h.receiver
  · rw [htransmitter,hb.responseId]
    exact h.transmitter

theorem Balanced.trans {a b c : UdsStm32Can} {xs ys : List QueueEvent} (h : Balanced a b xs)
    (h' : Balanced b c ys) : Balanced a c (xs++ys) := by
  refine ⟨h'.indexed,h'.responseId.trans h.responseId,?_,?_⟩
  · rw [entered_append,left_append,List.map_append,List.map_append,← List.append_assoc,h.order,
      List.append_assoc,h'.order,List.append_assoc]
  · rw [h'.overflow,h.overflow,refused_append,List.length_append,UInt32.ofNat_add,UInt32.add_assoc]

theorem balanced_length {a b : UdsStm32Can} {events : List QueueEvent} (h : Balanced a b events) :
    (waiting a).length+(enteredFrames events).length =
      (leftFrames events).length+(waiting b).length := by
  simpa using congrArg List.length h.order

/-- A frame is refused exactly when seven frames wait, `n` at the start. -/
def RefusedWhenFull (n : ℕ) (before : List QueueEvent) : QueueEvent → Prop
  | .made _ _ queued _ _ =>
    queued = false ↔ n+(enteredFrames before).length = (leftFrames before).length+7
  | .sent _ => True

structure Accounted (can : UdsStm32Can) (rt : UdsRuntime μ) (past : List QueueEvent) : Prop where
  joined : Joined rt
  balanced : Balanced can rt.can past
  refusals : Always (RefusedWhenFull (waiting can).length) past

theorem stage_refusals {can : UdsStm32Can} {rt : UdsRuntime μ} {past : List QueueEvent}
    (a : Stage) (h : Accounted can rt past) :
    Always (RefusedWhenFull (waiting can).length) (past++stageEvents rt a) := by
  by_cases hsend : ∃ answers, a = .send answers
  · obtain ⟨answers,rfl⟩ := hsend
    exact always_concat h.refusals trivial
  have hfits := offer_fits (a := a) h.joined
  rw [events_offered rt fun answers ha => hsend ⟨answers,ha⟩]
  cases hoffer : stageOffer rt a with
  | none => simpa using h.refusals
  | some offer =>
    have htakes := (queue_fitting h.joined.indexed h.joined.standard (hfits offer hoffer)).1
    have hqueued := queue_takes_iff rt.can offer.2
    have hlength := balanced_length h.balanced
    refine always_concat h.refusals ?_
    rw [RefusedWhenFull,decide_eq_false_iff_not,hqueued,htakes,hlength,Nat.add_left_cancel_iff]
    exact not_not

theorem accounted_step {can : UdsStm32Can} (rt : UdsRuntime μ) (past : List QueueEvent) (a : Stage)
    (h : Accounted can rt past) :
    Accounted can (queueStep rt a).1 (past++(queueStep rt a).2) := by
  unfold queueStep
  split
  · simpa using h
  · exact ⟨stage_joined a h.joined,h.balanced.trans (stage_balanced a h.joined),
      stage_refusals a h⟩

theorem start_accounted {rt : UdsRuntime μ} (h : Joined rt) : Accounted rt.can rt [] :=
  ⟨h,same_balanced h.indexed (same_queue_refl rt.can),always_nil⟩

theorem queue_stages (rt : UdsRuntime μ) (input : RuntimeInput) :
    (run queueStep rt (stages input)).1 = (runtimeStep rt input).1 := by
  have hsame : ∀ (as : List Stage) (s : Monitored μ),
      (run stageStep s as).1.runtime = (run queueStep s.runtime as).1 := by
    intro as
    induction as with
    | nil => exact fun s => rfl
    | cons a as ih =>
      intro s
      rw [run_cons,run_cons]
      have hstep : (stageStep s a).1.runtime = (queueStep s.runtime a).1 := by
        unfold stageStep queueStep
        split <;> rfl
      exact (ih _).trans (by rw [hstep])
  have hrun := stages_run ⟨rt,false⟩ input
  rw [hsame] at hrun
  exact hrun

end Runtime
end CanopenReference.TxBacklog
