import CanopenReference.Library.Queue
import CanopenReference.ResponseTransmission
import CanopenReference.RxRings

/-!
# The receive path on its own

The frames that wait, the ISO-TP receiver and the application make a machine of
their own. The runtime is that machine with a transmit side that it does not
look at.
-/

set_option autoImplicit false

namespace CanopenReference.Reception
open Library Library.Runs IsoTp Uds UdsStm32 Diagnostics UdsTickOrder ResponseTransmission RxRings

def trimmed (frame : IsoTpCanFrame) : IsoTpCanFrame := fillSlot emptyFrame frame

structure ReceivePath (μ : Type) where
  waiting : List IsoTpCanFrame
  receiver : IsoTpRx
  application : UdsApplication μ

def queues (waiting : List IsoTpCanFrame) (frame : IsoTpCanFrame) : Bool :=
  validFrame frame.canId frame.dlc && (frame.canId = udsRxCanId || frame.canId = udsTxCanId) &&
    waiting.length < 7

section Path
variable {μ : Type}

def cleared (app : UdsApplication μ) : UdsApplication μ :=
  { app with server := { app.server with resetPending := false } }

def completes (rx : IsoTpRx) (frame : IsoTpCanFrame) (now : UInt32) : Option (List UInt8) :=
  if frame.canId = udsRxCanId then
    match (isotpRxFeed rx frame now).2.1 with
    | .complete => (isotpRxFeed rx frame now).2.2.payload
    | _ => none
  else none

def fed (rx : IsoTpRx) (frame : IsoTpCanFrame) (now : UInt32) : IsoTpRx :=
  if frame.canId = udsRxCanId then (isotpRxFeed rx frame now).1 else rx

def handled (app : UdsApplication μ) (request : Option (List UInt8)) (now : UInt32) :
    UdsApplication μ :=
  match request with
  | none => app
  | some request => (handleRequest app request now).1

/-- One stage, with the requests that are handed to the server in it. -/
def pathStep (s : ReceivePath μ) : Stage → ReceivePath μ × List (List UInt8)
  | .receive frame =>
    ({ s with
      waiting := if queues s.waiting frame then s.waiting++[trimmed frame] else s.waiting },[])
  | .begin now => ({ s with application := (tickApplication s.application now).1 },[])
  | .frame now =>
    match s.waiting with
    | [] => (s,[])
    | frame::rest =>
      (⟨rest,fed s.receiver frame now,
          handled s.application (completes s.receiver frame now) now⟩,
        (completes s.receiver frame now).toList)
  | .poll _ => (s,[])
  | .tick now => ({ s with receiver := (isotpRxTick s.receiver now).1 },[])
  | .send _ => (s,[])
  | .clearReset => ({ s with application := cleared s.application },[])

def requestsHandled (rt : UdsRuntime μ) : Stage → List (List UInt8)
  | .frame now =>
    match (udsStm32CanRxPop rt.can).2 with
    | none => []
    | some frame => (completes rt.isotpRx frame now).toList
  | _ => []

def receptionStep (rt : UdsRuntime μ) (a : Stage) : UdsRuntime μ × List (List UInt8) :=
  if !rt.initialized then (rt,[]) else ((stageRuntime rt a).1,requestsHandled rt a)

/-- The frames in the receive queue, the oldest first. -/
def waitingFrames (can : UdsStm32Can) : List IsoTpCanFrame :=
  (Queue.unread can.rxQueue emptyFrame can.rxTail can.rxHead).map trimmed

def view (rt : UdsRuntime μ) : ReceivePath μ :=
  ⟨waitingFrames rt.can,rt.isotpRx,rt.application⟩

/-- The receive queue is in order and belongs to the two sides. -/
structure Receiving (can : UdsStm32Can) : Prop where
  head : can.rxHead < udsStm32RxQueueCapacity
  tail : can.rxTail < udsStm32RxQueueCapacity
  requestId : can.requestId = udsRxCanId
  responseId : can.responseId = udsTxCanId

structure SameReception (a b : UdsStm32Can) : Prop where
  queue : a.rxQueue = b.rxQueue
  head : a.rxHead = b.rxHead
  tail : a.rxTail = b.rxTail
  requestId : a.requestId = b.requestId
  responseId : a.responseId = b.responseId

theorem SameReception.trans {a b c : UdsStm32Can} (h : SameReception a b)
    (h' : SameReception b c) : SameReception a c :=
  ⟨h.queue.trans h'.queue,h.head.trans h'.head,h.tail.trans h'.tail,
    h.requestId.trans h'.requestId,h.responseId.trans h'.responseId⟩

theorem same_reception_refl (can : UdsStm32Can) : SameReception can can := ⟨rfl,rfl,rfl,rfl,rfl⟩

theorem same_waiting {a b : UdsStm32Can} (h : SameReception a b) :
    waitingFrames a = waitingFrames b ∧ (Receiving b → Receiving a) := by
  refine ⟨?_,fun hb => ⟨?_,?_,?_,?_⟩⟩
  · rw [waitingFrames,waitingFrames,h.queue,h.head,h.tail]
  · rw [h.head]
    exact hb.head
  · rw [h.tail]
    exact hb.tail
  · rw [h.requestId]
    exact hb.requestId
  · rw [h.responseId]
    exact hb.responseId

section Transmission

theorem queue_frames_reception (can : UdsStm32Can) (frames : Option IsoTpCanFrame) :
    SameReception (queueTxFrames can frames) can := by
  cases frames with
  | none => exact same_reception_refl can
  | some frame =>
    have hq : SameReception (udsStm32CanTxQueue can frame).1 can := by
      unfold udsStm32CanTxQueue
      split
      · exact same_reception_refl can
      split <;> exact ⟨rfl,rfl,rfl,rfl,rfl⟩
    show SameReception (queueTxFrame can frame) can
    unfold queueTxFrame
    simp only
    split
    · exact ⟨hq.queue,hq.head,hq.tail,hq.requestId,hq.responseId⟩
    · exact hq

theorem process_tx_reception (can : UdsStm32Can) (budget : ℕ) (answers : List TxAnswer) :
    SameReception (udsStm32CanProcessTx can budget answers).1 can := by
  induction budget generalizing can answers with
  | zero => exact same_reception_refl can
  | succ budget ih =>
    rw [process_tx_next]
    split
    · exact same_reception_refl can
    split
    · exact ⟨rfl,rfl,rfl,rfl,rfl⟩
    · exact ⟨rfl,rfl,rfl,rfl,rfl⟩
    · exact (ih _ _).trans ⟨rfl,rfl,rfl,rfl,rfl⟩

end Transmission

section Queue
variable {can : UdsStm32Can}

theorem trimmed_slot (slot frame : IsoTpCanFrame) : trimmed (fillSlot slot frame) = trimmed frame := by
  unfold trimmed fillSlot
  rw [copied_front]

theorem receive_waiting (h : Receiving can) (frame : IsoTpCanFrame) :
    Receiving (udsStm32CanRxFromIsr can frame) ∧
      waitingFrames (udsStm32CanRxFromIsr can frame) =
        if queues (waitingFrames can) frame then waitingFrames can++[trimmed frame]
        else waitingFrames can := by
  have hlength : (waitingFrames can).length =
      Queue.count udsStm32RxQueueCapacity can.rxTail can.rxHead := by
    rw [waitingFrames,List.length_map,Queue.unread_length]
  have hcount := Queue.count_lt h.tail h.head
  have hfull := Queue.count_full h.tail h.head
  unfold udsStm32CanRxFromIsr
  split
  · rename_i hinvalid
    rw [if_neg (by simp at hinvalid; simp [queues,hinvalid])]
    exact ⟨⟨h.head,h.tail,h.requestId,h.responseId⟩,rfl⟩
  rename_i hvalid
  split
  · rename_i hother
    rw [h.requestId,h.responseId] at hother
    rw [if_neg (by simp [queues,hother.1,hother.2])]
    exact ⟨h,rfl⟩
  rename_i hown
  rw [h.requestId,h.responseId] at hown
  have hsides : frame.canId = udsRxCanId ∨ frame.canId = udsTxCanId := by
    by_cases hr : frame.canId = udsRxCanId
    · exact Or.inl hr
    · exact Or.inr (not_not.mp fun ht => hown ⟨hr,ht⟩)
  split
  · rename_i hnext
    have hseven := hfull.mp hnext
    rw [if_neg (by unfold udsStm32RxQueueCapacity at *; simp [queues]; omega)]
    exact ⟨⟨h.head,h.tail,h.requestId,h.responseId⟩,rfl⟩
  · rename_i hnext
    have hroom := hfull.not.mp hnext
    have hseven : (waitingFrames can).length < 7 := by
      unfold udsStm32RxQueueCapacity at *
      omega
    have hqueues : queues (waitingFrames can) frame = true := by
      simp only [Bool.not_eq_true',Bool.not_eq_false] at hvalid
      simp [queues,hvalid,hsides,hseven]
    rw [if_pos hqueues]
    refine ⟨⟨Queue.advance_lt h.head,h.tail,h.requestId,h.responseId⟩,?_⟩
    show List.map trimmed (Queue.unread _ emptyFrame can.rxTail (Queue.advance _ can.rxHead)) = _
    rw [Queue.unread_push h.tail h.head hnext,List.map_append,List.map_singleton,trimmed_slot]
    rfl

theorem pop_waiting (h : Receiving can) :
    Receiving (udsStm32CanRxPop can).1 ∧
      waitingFrames can = (udsStm32CanRxPop can).2.toList++
        waitingFrames (udsStm32CanRxPop can).1 ∧
      ((udsStm32CanRxPop can).2 = none → waitingFrames can = []) := by
  unfold udsStm32CanRxPop
  split
  · rename_i hempty
    refine ⟨h,rfl,fun _ => ?_⟩
    rw [waitingFrames,hempty,Queue.unread_none h.head]
    rfl
  · rename_i hsome
    refine ⟨⟨h.head,Queue.advance_lt h.tail,h.requestId,h.responseId⟩,?_,fun hn => nomatch hn⟩
    have hpop := Queue.unread_pop (b := can.rxQueue) (d := emptyFrame) h.tail h.head hsome
    rw [waitingFrames,hpop]
    rfl

end Queue

/-- A frame that is processed meets the receiver and the application, and of the
adapter only the transmit side. -/
theorem frame_path (rt : UdsRuntime μ) (frame : IsoTpCanFrame) (now : UInt32) :
    SameReception (processFrame rt frame now).can rt.can ∧
      (processFrame rt frame now).isotpRx = fed rt.isotpRx frame now ∧
      (processFrame rt frame now).application =
        handled rt.application (completes rt.isotpRx frame now) now := by
  by_cases hrx : frame.canId = udsRxCanId
  · have htaken : SameReception (taken rt frame now).can rt.can ∧
        (taken rt frame now).isotpRx = fed rt.isotpRx frame now ∧
        (taken rt frame now).application =
          handled rt.application (completes rt.isotpRx frame now) now := by
      unfold taken fed completes
      rw [if_pos hrx,if_pos hrx]
      refine ⟨?_,rfl,?_⟩
      · dsimp only
        split
        · exact queue_frames_reception _ _
        · exact same_reception_refl _
      · dsimp only
        cases (isotpRxFeed rt.isotpRx frame now).2.1 <;>
          cases (isotpRxFeed rt.isotpRx frame now).2.2.payload <;> rfl
    rw [process_request rt now hrx]
    split
    · refine ⟨SameReception.trans ?_ htaken.1,htaken.2⟩
      unfold startResponse
      dsimp only
      split
      · exact queue_frames_reception _ _
      · exact same_reception_refl _
    · exact htaken
  · have hnone : completes rt.isotpRx frame now = none := if_neg hrx
    rw [hnone,fed,if_neg hrx]
    unfold processFrame
    rw [if_neg hrx]
    split
    · exact ⟨same_reception_refl _,rfl,rfl⟩
    · exact ⟨same_reception_refl _,rfl,rfl⟩

theorem ticked_path (rt : UdsRuntime μ) (now : UInt32) :
    SameReception (tickBoth rt now).can rt.can ∧
      (tickBoth rt now).isotpRx = (isotpRxTick rt.isotpRx now).1 ∧
      (tickBoth rt now).application = rt.application ∧
      (tickBoth rt now).initialized = rt.initialized := by
  refine ⟨?_,rfl,rfl,rfl⟩
  have hreceiver : SameReception (tickReceiver rt now).can rt.can := by
    unfold tickReceiver
    dsimp only
    split
    · exact ⟨rfl,rfl,rfl,rfl,rfl⟩
    · exact same_reception_refl _
  refine SameReception.trans ?_ hreceiver
  unfold tickBoth tickTransmitter
  dsimp only
  split
  · exact ⟨rfl,rfl,rfl,rfl,rfl⟩
  · exact same_reception_refl _

theorem view_same {rt rt' : UdsRuntime μ} (hcan : SameReception rt'.can rt.can)
    (h : Receiving rt.can) :
    Receiving rt'.can ∧ view rt' = ⟨waitingFrames rt.can,rt'.isotpRx,rt'.application⟩ := by
  obtain ⟨hwaiting,hreceiving⟩ := same_waiting hcan
  exact ⟨hreceiving h,by rw [view,hwaiting]⟩

theorem frame_stage {rt : UdsRuntime μ} (h : Receiving rt.can) (now : UInt32) :
    Receiving (stageRuntime rt (.frame now)).1.can ∧
      view (stageRuntime rt (.frame now)).1 = (pathStep (view rt) (.frame now)).1 ∧
      requestsHandled rt (.frame now) = (pathStep (view rt) (.frame now)).2 := by
  obtain ⟨hpopped,hwaiting,hempty⟩ := pop_waiting h
  have hpath : ∀ {frame rest}, waitingFrames rt.can = frame::rest →
      pathStep (view rt) (.frame now) =
        (⟨rest,fed rt.isotpRx frame now,
            handled rt.application (completes rt.isotpRx frame now) now⟩,
          (completes rt.isotpRx frame now).toList) := by
    intro frame rest hw
    unfold pathStep view
    dsimp only
    rw [hw]
  unfold requestsHandled
  dsimp only [stageRuntime]
  cases hp : (udsStm32CanRxPop rt.can).2 with
  | none =>
    have hnone := hempty hp
    rw [hp,hnone] at hwaiting
    have hstay : pathStep (view rt) (.frame now) = (view rt,[]) := by
      unfold pathStep view
      dsimp only
      rw [hnone]
    refine ⟨hpopped,?_,by rw [hstay]⟩
    rw [hstay]
    show (⟨waitingFrames (udsStm32CanRxPop rt.can).1,_,_⟩ : ReceivePath μ) =
      ⟨waitingFrames rt.can,_,_⟩
    have hrest : waitingFrames (udsStm32CanRxPop rt.can).1 = [] := hwaiting.symm
    rw [hrest,hnone]
    rfl
  | some frame =>
    rw [hp] at hwaiting
    obtain ⟨hsame,hrx,happ⟩ := frame_path (popped rt) frame now
    obtain ⟨hreceiving,hview⟩ := @view_same _ (popped rt) _ hsame hpopped
    refine ⟨hreceiving,?_,by rw [hpath hwaiting]⟩
    rw [hpath hwaiting,hview,hrx,happ]
    rfl

theorem stage_path {rt : UdsRuntime μ} (h : Receiving rt.can) (hinit : rt.initialized = true)
    (a : Stage) :
    Receiving (stageRuntime rt a).1.can ∧ (stageRuntime rt a).1.initialized = true ∧
      view (stageRuntime rt a).1 = (pathStep (view rt) a).1 ∧
      requestsHandled rt a = (pathStep (view rt) a).2 := by
  cases a with
  | receive frame =>
    have hrx : canopenReferenceUdsRxFromIsr rt frame =
        { rt with can := udsStm32CanRxFromIsr rt.can frame } := by
      rw [canopenReferenceUdsRxFromIsr,if_pos hinit]
    obtain ⟨hreceiving,hwaiting⟩ := receive_waiting h frame
    dsimp only [stageRuntime]
    rw [hrx]
    refine ⟨hreceiving,hinit,?_,rfl⟩
    show (⟨waitingFrames (udsStm32CanRxFromIsr rt.can frame),_,_⟩ : ReceivePath μ) = _
    rw [hwaiting]
    rfl
  | begin now =>
    have hsame : SameReception (applicationTicked rt now).can rt.can := by
      unfold applicationTicked
      dsimp only
      split
      · exact ⟨rfl,rfl,rfl,rfl,rfl⟩
      · exact same_reception_refl _
    obtain ⟨hreceiving,hview⟩ := view_same hsame h
    exact ⟨hreceiving,hinit,hview,rfl⟩
  | frame now =>
    obtain ⟨hreceiving,hview,hhandled⟩ := frame_stage h now
    refine ⟨hreceiving,?_,hview,hhandled⟩
    dsimp only [stageRuntime]
    split
    · exact hinit
    · exact (frame_initialized _ _ now).trans hinit
  | poll now =>
    have hsame : SameReception (polled rt now).1.can rt.can := by
      unfold polled
      dsimp only
      split
      · exact queue_frames_reception _ _
      · exact same_reception_refl _
    obtain ⟨hreceiving,hview⟩ := view_same hsame h
    exact ⟨hreceiving,hinit,hview,rfl⟩
  | tick now =>
    obtain ⟨hsame,hrx,happ,htick⟩ := ticked_path rt now
    obtain ⟨hreceiving,hview⟩ := view_same hsame h
    exact ⟨hreceiving,htick.trans hinit,hview,rfl⟩
  | send answers =>
    obtain ⟨hreceiving,hview⟩ := @view_same _ rt (sendQueued rt answers).1
      (process_tx_reception rt.can udsStm32TxBudgetPerCall answers) h
    exact ⟨hreceiving,hinit,hview,rfl⟩
  | clearReset =>
    dsimp only [stageRuntime]
    rw [canopenReferenceUdsClearReset,if_pos hinit]
    exact ⟨h,hinit,rfl,rfl⟩

/-- The stages in which the receive path takes part. -/
def receives : Stage → Bool
  | .poll _ | .send _ => false
  | _ => true

theorem path_without_sending (s : ReceivePath μ) (stages : List Stage) :
    run pathStep s (stages.filter receives) = run pathStep s stages := by
  induction stages generalizing s with
  | nil => rfl
  | cons a stages ih =>
    cases hr : receives a with
    | true => rw [List.filter_cons_of_pos hr,run_cons,run_cons,ih]
    | false =>
      rw [List.filter_cons_of_neg (by rw [hr]; exact Bool.false_ne_true),ih,run_cons]
      have hstay : pathStep s a = (s,[]) := by
        cases a <;> first | rfl | cases hr
      rw [hstay]
      rfl

theorem run_path {rt : UdsRuntime μ} (h : Receiving rt.can) (hinit : rt.initialized = true)
    (stages : List Stage) :
    view (run receptionStep rt stages).1 = (run pathStep (view rt) stages).1 ∧
      (run receptionStep rt stages).2 = (run pathStep (view rt) stages).2 := by
  induction stages generalizing rt with
  | nil => exact ⟨rfl,rfl⟩
  | cons a stages ih =>
    obtain ⟨hreceiving,hnext,hview,hhandled⟩ := stage_path h hinit a
    have hstep : receptionStep rt a = ((stageRuntime rt a).1,requestsHandled rt a) := by
      rw [receptionStep,hinit]
      rfl
    obtain ⟨hlast,hrest⟩ := ih hreceiving hnext
    rw [run_cons,run_cons,hstep,← hview,← hhandled]
    exact ⟨hlast,by rw [hrest]⟩

theorem init_receiving (callbacks : Option (Download.UdsDownloadCallbacks μ)) (memory : μ)
    (registered : Bool) (now : UInt32) :
    Receiving (canopenReferenceUdsInit callbacks memory registered now).can :=
  ⟨Nat.zero_lt_succ 7,Nat.zero_lt_succ 7,rfl,rfl⟩

/-- Over every interleaving of received frames with the stages of the passes, the
requests that reach the server, its state and that of the receiver are those of
the receive path alone: neither what the driver accepts nor the state of the
transmitter or its queue has any part in them. -/
theorem receive_path_alone (callbacks : Option (Download.UdsDownloadCallbacks μ)) (memory : μ)
    (now : UInt32) (stages : List Stage) :
    let rt := canopenReferenceUdsInit callbacks memory true now
    let path := run pathStep (view rt) (stages.filter receives)
    view (run receptionStep rt stages).1 = path.1 ∧ (run receptionStep rt stages).2 = path.2 := by
  intro rt path
  have hpath : path = run pathStep (view rt) stages := path_without_sending _ stages
  rw [hpath]
  exact run_path (init_receiving callbacks memory true now) rfl stages

end Path
end CanopenReference.Reception
