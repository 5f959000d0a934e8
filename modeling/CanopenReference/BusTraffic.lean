import CanopenReference.Dialogue
import CanopenReference.Reception
import CanopenReference.TxBacklog

/-!
# What the node puts on the bus

Behind the receive path there is a queue for seven frames and nothing else: no
transfer gets past its First Frame, and so the transmitter has no part in what
the driver is handed.
-/

set_option autoImplicit false

namespace CanopenReference.BusTraffic
open Library Library.Runs IsoTp IsoTpTransmitter IsoTpReceiver IsoTpDelivery Uds UdsStm32
  Diagnostics UdsFlowControl UdsTickOrder ResponseTransmission RxRings TxQueue TxBacklog Dialogue
open Reception (ReceivePath Receiving completes pathStep view)

abbrev Content := UInt32 × ℕ × List UInt8

structure DiagnosticNode (μ : Type) where
  path : ReceivePath μ
  outgoing : List Content

section Node
variable {μ : Type}

def opening (response : List UInt8) : Option IsoTpCanFrame :=
  if response = [] then none else some (wire udsTxCanId response 0)

/-- The answer to a frame of the request side: flow control, or the opening of
the response to the request that it completes. -/
def answerFrame (receiver : IsoTpRx) (app : UdsApplication μ) (frame : IsoTpCanFrame)
    (now : UInt32) : Option IsoTpCanFrame :=
  if frame.canId = udsRxCanId then
    if (isotpRxFeed receiver frame now).2.1 = .needFlowControl then
      (isotpRxFeed receiver frame now).2.2.flowControl
    else
      (completes receiver frame now).bind fun request =>
        opening (responded (handleRequest app request now))
  else none

def pathOffer (s : ReceivePath μ) : Stage → Option IsoTpCanFrame
  | .frame now => s.waiting.head?.bind fun frame => answerFrame s.receiver s.application frame now
  | _ => none

def acceptedOf (outgoing : List Content) (answers : List TxAnswer) : ℕ :=
  min outgoing.length
    ((answers.take udsStm32TxBudgetPerCall).takeWhile fun a => a = .accepted).length

def enqueue (outgoing : List Content) : Option IsoTpCanFrame → List Content
  | none => outgoing
  | some frame => if outgoing.length < 7 then outgoing++[frameContent frame] else outgoing

/-- One stage, with what leaves the node in it. -/
def nodeStep (s : DiagnosticNode μ) : Stage → DiagnosticNode μ × List Content
  | .send answers =>
    ({ s with outgoing := s.outgoing.drop (acceptedOf s.outgoing answers) },
      s.outgoing.take (acceptedOf s.outgoing answers))
  | a => (⟨(pathStep s.path a).1,enqueue s.outgoing (pathOffer s.path a)⟩,[])

def framesSent (rt : UdsRuntime μ) : Stage → List Content
  | .send answers => (sendQueued rt answers).2.map frameContent
  | _ => []

def trafficStep (rt : UdsRuntime μ) (a : Stage) : UdsRuntime μ × List Content :=
  if !rt.initialized then (rt,[]) else ((stageRuntime rt a).1,framesSent rt a)

def nodeView (rt : UdsRuntime μ) : DiagnosticNode μ :=
  ⟨view rt,(waiting rt.can).map frameContent⟩

/-- What every reachable runtime keeps: its queues are in order, the parties use
one pair of identifiers, and a transfer waits for flow control. -/
structure Settled (rt : UdsRuntime μ) : Prop where
  initialized : rt.initialized = true
  receiving : Receiving rt.can
  joined : Joined rt
  waits : TxWaits rt.isotpTx

theorem Settled.identifier {rt : UdsRuntime μ} (h : Settled rt) :
    rt.isotpTx.responseId = udsTxCanId := h.joined.transmitter.trans h.receiving.responseId

section Sending

theorem send_traffic {rt : UdsRuntime μ} (h : Indexed rt.can) (answers : List TxAnswer) :
    framesSent rt (.send answers) = (nodeStep (nodeView rt) (.send answers)).2 ∧
      (waiting (sendQueued rt answers).1.can).map frameContent =
        (nodeStep (nodeView rt) (.send answers)).1.outgoing := by
  obtain ⟨_,hsplit,_⟩ := process_waiting h udsStm32TxBudgetPerCall answers
  have hcount := process_sends h udsStm32TxBudgetPerCall answers
  have haccepted : acceptedOf (nodeView rt).outgoing answers =
      ((udsStm32CanProcessTx rt.can udsStm32TxBudgetPerCall answers).2.map frameContent).length := by
    rw [acceptedOf,nodeView,List.length_map,List.length_map,hcount,acceptances]
  have hmap := congrArg (List.map frameContent) hsplit
  rw [List.map_append] at hmap
  constructor
  · show _ = ((waiting rt.can).map frameContent).take _
    rw [haccepted,hmap,List.take_left]
    rfl
  · show _ = ((waiting rt.can).map frameContent).drop _
    rw [haccepted,hmap,List.drop_left]
    rfl

end Sending

section Offers

theorem start_opening (tx : IsoTpTx) {response : List UInt8} (now : UInt32)
    (h1 : 1 ≤ response.length) (hm : response.length ≤ 4095) :
    (isotpTxStart tx response now).2 = (.txFrameReady,some (wire tx.responseId response 0)) := by
  by_cases h7 : response.length ≤ 7
  · rw [start_single tx now h1 h7,wire,if_pos h7]
  · rw [start_first tx now (Nat.lt_of_not_le h7) hm,wire,if_neg h7]

theorem completes_fed {rx : IsoTpRx} {frame : IsoTpCanFrame} {now : UInt32} {request : List UInt8}
    (h : completes rx frame now = some request) :
    (isotpRxFeed rx frame now).2.1 = .complete ∧
      (isotpRxFeed rx frame now).2.2.payload = some request := by
  unfold completes at h
  split at h
  · split at h
    · rename_i hstatus
      exact ⟨hstatus,h⟩
    · cases h
  · cases h

theorem request_answered {rt : UdsRuntime μ} {frame : IsoTpCanFrame} {now : UInt32}
    {request : List UInt8} (h : completes rt.isotpRx frame now = some request) :
    (taken rt frame now).application = (handleRequest rt.application request now).1 ∧
      (responds rt frame now = true ↔ responded (handleRequest rt.application request now) ≠ []) ∧
      (responds rt frame now = true → (handleRequest rt.application request now).2 = .ok) := by
  obtain ⟨hstatus,hpayload⟩ := completes_fed h
  unfold taken responds
  dsimp only
  rw [hstatus,hpayload]
  refine ⟨rfl,?_,fun hr => (of_decide_eq_true hr).1⟩
  rw [decide_eq_true_eq,responded]
  by_cases hok : (handleRequest rt.application request now).2 = .ok
  · rw [if_pos hok]
    refine (and_iff_right hok).trans (not_congr ?_)
    have hlength := (handleRequest rt.application request now).1.response.size
    rw [Buffer.front,List.take_eq_nil_iff,← UInt16.toNat_inj]
    refine ⟨Or.inl,fun hnone => hnone.resolve_right fun hcells => ?_⟩
    rw [hcells] at hlength
    cases hlength
  · rw [if_neg hok]
    exact iff_of_false (fun hr => hok hr.1) fun hr => hr rfl

theorem unanswered {rt : UdsRuntime μ} {frame : IsoTpCanFrame} {now : UInt32}
    (hrx : frame.canId = udsRxCanId) (h : completes rt.isotpRx frame now = none) :
    responds rt frame now = false := by
  unfold completes at h
  rw [if_pos hrx] at h
  unfold responds
  dsimp only
  generalize (isotpRxFeed rt.isotpRx frame now).2.1 = status at h
  generalize (isotpRxFeed rt.isotpRx frame now).2.2.payload = payload at h
  cases status with
  | complete =>
    cases payload with
    | none => rfl
    | some request => cases h
  | _ => rfl

theorem frame_answer {rt : UdsRuntime μ} (hid : rt.isotpTx.responseId = udsTxCanId)
    (frame : IsoTpCanFrame) (now : UInt32) :
    (frameOffer rt frame now).map Prod.snd =
      answerFrame rt.isotpRx rt.application frame now := by
  unfold frameOffer answerFrame
  by_cases hrx : frame.canId = udsRxCanId
  swap
  · rw [if_neg hrx,if_neg hrx]
    rfl
  rw [if_pos hrx,if_pos hrx]
  dsimp only
  by_cases hflow : (isotpRxFeed rt.isotpRx frame now).2.1 = .needFlowControl
  · rw [if_pos hflow,if_pos hflow,Option.map_map]
    exact Option.map_id'
  rw [if_neg hflow,if_neg hflow]
  cases hc : completes rt.isotpRx frame now with
  | none =>
    rw [unanswered hrx hc]
    rfl
  | some request =>
    obtain ⟨happ,hiff,hok⟩ := request_answered hc
    rw [Option.bind_some,opening]
    by_cases hr : responds rt frame now = true
    · have hresponse : responded (handleRequest rt.application request now) =
          (taken rt frame now).application.response.front
            (taken rt frame now).application.responseLength.toNat := by
        rw [responded,if_pos (hok hr),happ]
      obtain ⟨h1,hm⟩ := response_length hr
      have hstart := start_opening rt.isotpTx now h1 hm
      rw [if_pos hr,if_neg (hiff.mp hr),hresponse,hstart,if_pos rfl,hid]
      rfl
    · rw [if_neg hr,if_pos (not_not.mp (hiff.not.mp hr))]
      rfl

theorem stage_answer {rt : UdsRuntime μ} (h : Settled rt) (a : Stage) :
    (stageOffer rt a).map Prod.snd = pathOffer (view rt) a := by
  cases a with
  | frame now =>
    obtain ⟨_,hwaiting,hempty⟩ := Reception.pop_waiting h.receiving
    dsimp only [stageOffer,pathOffer,view]
    cases hp : (udsStm32CanRxPop rt.can).2 with
    | none =>
      rw [hempty hp]
      rfl
    | some frame =>
      rw [hp] at hwaiting
      have hanswer := @frame_answer _ (popped rt) h.identifier frame now
      rw [hwaiting,Option.bind_some]
      exact hanswer
  | poll now =>
    dsimp only [stageOffer]
    rw [next_rests now h.waits]
    rfl
  | _ => rfl

theorem offered_waiting {can : UdsStm32Can} (h : Indexed can) (hid : can.responseId ≤ 0x7FF)
    (offer : Option (Origin × IsoTpCanFrame))
    (hfits : ∀ o ∈ offer, Fitting can.responseId o.2) :
    (waiting (offered can offer)).map frameContent =
      enqueue ((waiting can).map frameContent) (offer.map Prod.snd) := by
  cases offer with
  | none => rfl
  | some o =>
    obtain ⟨_,hwaiting⟩ := queue_waiting h o.2
    obtain ⟨htakes,_⟩ := queue_fitting h hid (hfits o rfl)
    have hcount : (waiting can).length < udsStm32TxQueueCapacity := by
      have hlength : (waiting can).length = _ := Queue.unread_length
      rw [hlength]
      exact Queue.count_lt h.tail h.head
    have hroom : (udsStm32CanTxQueue can o.2).2 = .queued ↔ (waiting can).length < 7 := by
      rw [queue_takes_iff,htakes]
      unfold udsStm32TxQueueCapacity at hcount
      omega
    show (waiting (udsStm32CanTxQueue can o.2).1).map frameContent =
      if ((waiting can).map frameContent).length < 7 then _ else _
    rw [hwaiting,List.length_map]
    by_cases hr : (waiting can).length < 7
    · rw [if_pos hr,if_pos (hroom.mpr hr)]
    · rw [if_neg hr,if_neg (hroom.not.mpr hr),List.append_nil]

end Offers

section Stages

theorem frame_waits {rt : UdsRuntime μ} (h : TxWaits rt.isotpTx) (frame : IsoTpCanFrame)
    (now : UInt32) : TxWaits (processFrame rt frame now).isotpTx := by
  by_cases hrx : frame.canId = udsRxCanId
  · rw [process_request rt now hrx]
    split
    · exact (@start_waits rt.isotpTx _ now h).1
    · exact h
  · unfold processFrame
    rw [if_neg hrx]
    split
    · rename_i htx
      show TxWaits (isotpTxFeedFlowControl rt.isotpTx frame now).1
      rw [response_side_ignored now h htx]
      exact h
    · exact h

theorem stage_waits {rt : UdsRuntime μ} (h : TxWaits rt.isotpTx) (a : Stage) :
    TxWaits (stageRuntime rt a).1.isotpTx := by
  cases a with
  | receive frame =>
    dsimp only [stageRuntime]
    rw [rx_from_isr_tx]
    exact h
  | frame now =>
    dsimp only [stageRuntime]
    split
    · exact h
    · exact @frame_waits _ (popped rt) h _ now
  | poll now =>
    show TxWaits (isotpTxNext rt.isotpTx now).1
    rw [next_rests now h]
    exact h
  | tick now => exact tick_waits now h
  | clearReset =>
    dsimp only [stageRuntime]
    rw [clear_reset_tx]
    exact h
  | _ => exact h

theorem stage_settled {rt : UdsRuntime μ} (h : Settled rt) (a : Stage) :
    Settled (stageRuntime rt a).1 := by
  obtain ⟨hreceiving,hinit,_⟩ := Reception.stage_path h.receiving h.initialized a
  exact ⟨hinit,hreceiving,stage_joined a h.joined,stage_waits h.waits a⟩

theorem stage_outgoing {rt : UdsRuntime μ} (h : Settled rt) {a : Stage}
    (hother : ∀ answers, a ≠ .send answers) :
    (waiting (stageRuntime rt a).1.can).map frameContent =
      enqueue ((waiting rt.can).map frameContent) (pathOffer (view rt) a) := by
  have hqueue := offered_waiting h.joined.indexed h.joined.standard (stageOffer rt a)
    (offer_fits h.joined)
  rw [(same_waiting (stage_same rt hother)).1,hqueue,stage_answer h a]

theorem stage_traffic {rt : UdsRuntime μ} (h : Settled rt) (a : Stage) :
    nodeView (stageRuntime rt a).1 = (nodeStep (nodeView rt) a).1 ∧
      framesSent rt a = (nodeStep (nodeView rt) a).2 := by
  obtain ⟨_,_,hview,_⟩ := Reception.stage_path h.receiving h.initialized a
  by_cases hsend : ∃ answers, a = .send answers
  · obtain ⟨answers,rfl⟩ := hsend
    obtain ⟨hsent,houtgoing⟩ := send_traffic h.joined.indexed answers
    refine ⟨?_,hsent⟩
    show (⟨_,_⟩ : DiagnosticNode μ) = _
    rw [hview]
    exact congrArg (DiagnosticNode.mk (view rt)) houtgoing
  · have hother : ∀ answers, a ≠ .send answers := fun answers ha => hsend ⟨answers,ha⟩
    have hstep : nodeStep (nodeView rt) a =
        (⟨(pathStep (view rt) a).1,
          enqueue ((waiting rt.can).map frameContent) (pathOffer (view rt) a)⟩,[]) := by
      cases a with
      | send answers => exact absurd rfl (hother answers)
      | _ => rfl
    rw [hstep,← hview,← stage_outgoing h hother]
    refine ⟨rfl,?_⟩
    cases a with
    | send answers => exact absurd rfl (hother answers)
    | _ => rfl

theorem run_traffic {rt : UdsRuntime μ} (h : Settled rt) (stages : List Stage) :
    nodeView (run trafficStep rt stages).1 = (run nodeStep (nodeView rt) stages).1 ∧
      (run trafficStep rt stages).2 = (run nodeStep (nodeView rt) stages).2 := by
  induction stages generalizing rt with
  | nil => exact ⟨rfl,rfl⟩
  | cons a stages ih =>
    obtain ⟨hview,hsent⟩ := stage_traffic h a
    obtain ⟨hlast,hrest⟩ := ih (stage_settled h a)
    have hstep : trafficStep rt a = ((stageRuntime rt a).1,framesSent rt a) := by
      rw [trafficStep,h.initialized]
      rfl
    rw [run_cons,run_cons,hstep,← hview,← hsent]
    exact ⟨hlast,by rw [hrest]⟩

end Stages

theorem init_settled (callbacks : Option (Download.UdsDownloadCallbacks μ)) (memory : μ)
    (now : UInt32) : Settled (canopenReferenceUdsInit callbacks memory true now) :=
  ⟨rfl,Reception.init_receiving callbacks memory true now,init_joined callbacks memory true now,
    (init_waiting callbacks memory true now).tx⟩

/-- Over every interleaving of received frames, stages and answers of the driver,
what leaves the node is what leaves a receive path with a queue for seven frames
behind it: flow control, and one frame to open the response to each request. The
state of the transmitter has no part in it. -/
theorem traffic_without_transmitter (callbacks : Option (Download.UdsDownloadCallbacks μ))
    (memory : μ) (now : UInt32) (stages : List Stage) :
    let rt := canopenReferenceUdsInit callbacks memory true now
    (run trafficStep rt stages).2 = (run nodeStep ⟨view rt,[]⟩ stages).2 := by
  intro rt
  have hstart : nodeView rt = ⟨view rt,[]⟩ :=
    congrArg (DiagnosticNode.mk (view rt))
      (congrArg (List.map frameContent) (Queue.unread_none (Nat.zero_lt_succ 7)))
  rw [← hstart]
  exact (run_traffic (init_settled callbacks memory now) stages).2

end Node
end CanopenReference.BusTraffic
