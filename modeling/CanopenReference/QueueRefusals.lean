import CanopenReference.TxBacklog

/-!
# What a refused frame costs

A frame that finds the transmit queue full is dropped and counted. The frames
that the node makes, and the transmitter that makes them, are the same for
every queue and for every answer of the CAN driver.
-/

set_option autoImplicit false

namespace CanopenReference.QueueRefusals
open Library Library.Runs IsoTp IsoTpDelivery Uds UdsStm32 Diagnostics UdsFlowControl UdsTickOrder
  ResponseTransmission RxRings TxQueue TxBacklog

def bare (can : UdsStm32Can) : UdsStm32Can :=
  { can with txQueue := Buffer.blank _ emptyFrame, txHead := 0, txTail := 0, stats := noStats }

theorem bare_bare (can : UdsStm32Can) : bare (bare can) = bare can := rfl

theorem bare_note_rx (can : UdsStm32Can) : bare (udsStm32CanNoteRxTimeout can) = bare can := rfl

theorem bare_note_tx (can : UdsStm32Can) : bare (udsStm32CanNoteTxTimeout can) = bare can := rfl

theorem bare_ite (c : Prop) [Decidable c] (a b : UdsStm32Can) :
    bare (if c then a else b) = if c then bare a else bare b := by
  split <;> rfl

theorem bare_queue (can : UdsStm32Can) (frame : IsoTpCanFrame) :
    bare (udsStm32CanTxQueue can frame).1 = bare can := by
  unfold udsStm32CanTxQueue
  split
  · rfl
  split <;> rfl

theorem bare_queue_frames (can : UdsStm32Can) (frame : Option IsoTpCanFrame) :
    bare (queueTxFrames can frame) = bare can := by
  cases frame with
  | none => rfl
  | some frame =>
    simp only [queueTxFrames,queueTxFrame]
    rw [bare_ite,bare_note_tx,bare_queue,ite_self]

theorem bare_process (can : UdsStm32Can) (budget : ℕ) (answers : List TxAnswer) :
    bare (udsStm32CanProcessTx can budget answers).1 = bare can := by
  induction budget generalizing can answers with
  | zero => rfl
  | succ budget ih =>
    rw [process_tx_next]
    split
    · rfl
    cases answers.headD .noMailbox with
    | noMailbox => rfl
    | failed => rfl
    | accepted => exact ih _ answers.tail

theorem pop_bare (can : UdsStm32Can) :
    udsStm32CanRxPop (bare can) = (bare (udsStm32CanRxPop can).1,(udsStm32CanRxPop can).2) := by
  by_cases he : can.rxTail = can.rxHead
  · simp [udsStm32CanRxPop,bare,he]
  · simp [udsStm32CanRxPop,bare,he]

theorem receive_bare (can : UdsStm32Can) (frame : IsoTpCanFrame) :
    bare (udsStm32CanRxFromIsr (bare can) frame) = bare (udsStm32CanRxFromIsr can frame) := by
  unfold udsStm32CanRxFromIsr
  by_cases hvalid : (!validFrame frame.canId frame.dlc) = true
  · rw [if_pos hvalid,if_pos hvalid]
    rfl
  by_cases hid : frame.canId ≠ can.requestId ∧ frame.canId ≠ can.responseId
  · rw [if_neg hvalid,if_neg hvalid,if_pos (by exact hid),if_pos hid]
    rfl
  by_cases hfull : nextIndex can.rxHead udsStm32RxQueueCapacity = can.rxTail
  · rw [if_neg hvalid,if_neg hvalid,if_neg (by exact hid),if_neg hid,if_pos (by exact hfull),
      if_pos hfull]
    rfl
  · rw [if_neg hvalid,if_neg hvalid,if_neg (by exact hid),if_neg hid,if_neg (by exact hfull),
      if_neg hfull]
    rfl

section Runtime
variable {μ : Type}

def unqueued (rt : UdsRuntime μ) : UdsRuntime μ := { rt with can := bare rt.can }

def unanswered : Stage → Stage
  | .send _ => .send []
  | a => a

theorem taken_unqueued (rt : UdsRuntime μ) (f : IsoTpCanFrame) (now : UInt32) :
    unqueued (taken rt f now) = { taken rt f now with can := bare rt.can } := by
  have hcan : bare (taken rt f now).can = bare rt.can := by
    simp only [taken,bare_ite,bare_queue_frames,ite_self]
  rw [unqueued,hcan]

theorem start_unqueued (rt : UdsRuntime μ) (now : UInt32) :
    unqueued (startResponse rt now) = { startResponse rt now with can := bare rt.can } := by
  have hcan : bare (startResponse rt now).can = bare rt.can := by
    simp only [startResponse,bare_ite,bare_queue_frames,ite_self]
  rw [unqueued,hcan]

theorem frame_unqueued (rt : UdsRuntime μ) (f : IsoTpCanFrame) (now : UInt32) :
    unqueued (processFrame (unqueued rt) f now) = unqueued (processFrame rt f now) := by
  by_cases hrx : f.canId = udsRxCanId
  · have hresponds : responds (unqueued rt) f now = responds rt f now := rfl
    rw [process_request _ now hrx,process_request _ now hrx,hresponds]
    split
    · have hcan : bare (taken (unqueued rt) f now).can = bare (taken rt f now).can :=
        congrArg UdsRuntime.can ((taken_unqueued (unqueued rt) f now).trans
          (taken_unqueued rt f now).symm)
      rw [start_unqueued,start_unqueued,hcan]
      rfl
    · exact (taken_unqueued (unqueued rt) f now).trans (taken_unqueued rt f now).symm
  · rw [processFrame,processFrame,if_neg hrx,if_neg hrx]
    split <;> rfl

theorem popped_unqueued (rt : UdsRuntime μ) : popped (unqueued rt) = unqueued (popped rt) := by
  simp only [popped,unqueued,pop_bare]

theorem begin_unqueued (rt : UdsRuntime μ) (now : UInt32) :
    unqueued (applicationTicked rt now) =
      { rt with application := (tickApplication rt.application now).1, can := bare rt.can } := by
  have hcan : bare (applicationTicked rt now).can = bare rt.can := by
    rw [applicationTicked,bare_ite,bare_note_rx,ite_self]
  rw [unqueued,hcan]
  rfl

theorem polled_unqueued (rt : UdsRuntime μ) (now : UInt32) :
    unqueued (polled rt now).1 =
      { rt with isotpTx := (isotpTxNext rt.isotpTx now).1, can := bare rt.can } := by
  have hcan : bare (polled rt now).1.can = bare rt.can := by
    simp only [polled,bare_ite,bare_queue_frames,ite_self]
  rw [unqueued,hcan]
  rfl

theorem tick_unqueued (rt : UdsRuntime μ) (now : UInt32) :
    unqueued (tickBoth rt now) =
      { rt with
        isotpRx := (isotpRxTick rt.isotpRx now).1
        isotpTx := (isotpTxTick rt.isotpTx now).1
        can := bare rt.can } := by
  have hreceiver : bare (tickReceiver rt now).can = bare rt.can := by
    rw [tickReceiver,bare_ite,bare_note_rx,ite_self]
  have htransmitter : bare (tickBoth rt now).can = bare (tickReceiver rt now).can := by
    rw [tickBoth,tickTransmitter,bare_ite,bare_note_tx,ite_self]
  rw [unqueued,htransmitter,hreceiver]
  rfl

theorem receive_unqueued (rt : UdsRuntime μ) (frame : IsoTpCanFrame) :
    unqueued (canopenReferenceUdsRxFromIsr rt frame) =
      { rt with
        can := if rt.initialized then bare (udsStm32CanRxFromIsr rt.can frame) else bare rt.can } := by
  obtain ⟨can,rx,tx,application,initialized⟩ := rt
  cases initialized <;> rfl

theorem clear_unqueued (rt : UdsRuntime μ) :
    unqueued (canopenReferenceUdsClearReset rt) = canopenReferenceUdsClearReset (unqueued rt) := by
  obtain ⟨can,rx,tx,application,initialized⟩ := rt
  cases initialized <;> rfl

theorem stage_unqueued (rt : UdsRuntime μ) (a : Stage) :
    unqueued (stageRuntime (unqueued rt) (unanswered a)).1 = unqueued (stageRuntime rt a).1 ∧
      stageOffer (unqueued rt) (unanswered a) = stageOffer rt a := by
  cases a with
  | send answers =>
    refine ⟨?_,rfl⟩
    simp only [stageRuntime,unanswered,sendQueued,unqueued,bare_process,bare_bare]
  | begin now => exact ⟨(begin_unqueued _ now).trans (begin_unqueued rt now).symm,rfl⟩
  | poll now => exact ⟨(polled_unqueued _ now).trans (polled_unqueued rt now).symm,rfl⟩
  | tick now => exact ⟨(tick_unqueued _ now).trans (tick_unqueued rt now).symm,rfl⟩
  | clearReset => exact ⟨(clear_unqueued _).trans (clear_unqueued rt).symm,rfl⟩
  | receive frame =>
    refine ⟨?_,rfl⟩
    have hcan : (unqueued rt).can = bare rt.can := rfl
    simp only [stageRuntime,unanswered]
    rw [receive_unqueued,receive_unqueued,hcan,receive_bare]
    rfl
  | frame now =>
    have hpop : (udsStm32CanRxPop (unqueued rt).can).2 = (udsStm32CanRxPop rt.can).2 := by
      rw [unqueued,pop_bare]
    simp only [stageRuntime,stageOffer,unanswered]
    rw [hpop,popped_unqueued]
    cases (udsStm32CanRxPop rt.can).2 with
    | none => exact ⟨rfl,rfl⟩
    | some f => exact ⟨frame_unqueued (popped rt) f now,rfl⟩

theorem stage_alike {rt rt' : UdsRuntime μ} {a b : Stage} (h : unqueued rt = unqueued rt')
    (hab : unanswered a = unanswered b) :
    unqueued (stageRuntime rt a).1 = unqueued (stageRuntime rt' b).1 ∧
      stageOffer rt a = stageOffer rt' b := by
  obtain ⟨hnext,hoffer⟩ := stage_unqueued rt a
  obtain ⟨hnext',hoffer'⟩ := stage_unqueued rt' b
  rw [h,hab] at hnext hoffer
  exact ⟨hnext.symm.trans hnext',hoffer.symm.trans hoffer'⟩

/-- The frames that the node made, with the transmitter before and after. -/
def madeFrames (events : List QueueEvent) : List (Origin × IsoTpCanFrame × IsoTpTx × IsoTpTx) :=
  events.filterMap fun
    | .made origin frame _ before after => some (origin,frame,before,after)
    | .sent _ => none

theorem stage_made (rt : UdsRuntime μ) (a : Stage) :
    madeFrames (stageEvents rt a) = (stageOffer rt a).toList.map fun offer =>
      (offer.1,offer.2,rt.isotpTx,(stageRuntime rt a).1.isotpTx) := by
  by_cases hsend : ∃ answers, a = .send answers
  · obtain ⟨answers,rfl⟩ := hsend
    rfl
  · rw [events_offered rt fun answers ha => hsend ⟨answers,ha⟩]
    cases stageOffer rt a <;> rfl

theorem unqueued_parts {rt rt' : UdsRuntime μ} (h : unqueued rt = unqueued rt') :
    rt.initialized = rt'.initialized ∧ rt.isotpTx = rt'.isotpTx := by
  injection h with _ _ htx _ hinit
  exact ⟨hinit,htx⟩

theorem step_alike {rt rt' : UdsRuntime μ} {a b : Stage} (h : unqueued rt = unqueued rt')
    (hab : unanswered a = unanswered b) :
    unqueued (queueStep rt a).1 = unqueued (queueStep rt' b).1 ∧
      madeFrames (queueStep rt a).2 = madeFrames (queueStep rt' b).2 := by
  obtain ⟨hinit,htx⟩ := unqueued_parts h
  obtain ⟨hnext,hoffer⟩ := stage_alike h hab
  obtain ⟨-,hlast⟩ := unqueued_parts hnext
  unfold queueStep
  rw [hinit]
  split
  · exact ⟨h,rfl⟩
  · refine ⟨hnext,?_⟩
    rw [stage_made,stage_made,hoffer,htx,hlast]

theorem run_alike {rt rt' : UdsRuntime μ} {as bs : List Stage} (h : unqueued rt = unqueued rt')
    (hab : as.map unanswered = bs.map unanswered) :
    madeFrames (run queueStep rt as).2 = madeFrames (run queueStep rt' bs).2 := by
  induction as generalizing rt rt' bs with
  | nil =>
    rw [List.map_nil,eq_comm,List.map_eq_nil_iff] at hab
    rw [hab]
    rfl
  | cons a as ih =>
    cases bs with
    | nil => cases hab
    | cons b bs =>
      obtain ⟨hfirst,hrest⟩ := List.cons.inj hab
      obtain ⟨hnext,hmade⟩ := step_alike h hfirst
      have hlast := ih hnext hrest
      rw [run_cons,run_cons,madeFrames,List.filterMap_append,madeFrames,List.filterMap_append]
      exact congrArg₂ (·++·) hmade hlast

/-- An input without the answers of the driver. -/
def unansweredInput : RuntimeInput → RuntimeInput
  | .process _ now => .process [] now
  | input => input

theorem stages_unanswered (input : RuntimeInput) :
    (stages input).map unanswered = stages (unansweredInput input) := by
  cases input with
  | process answers now => rfl
  | _ => rfl

theorem inputs_unanswered (inputs : List RuntimeInput) :
    (inputs.flatMap stages).map unanswered = (inputs.map unansweredInput).flatMap stages := by
  rw [List.map_flatMap,List.flatMap_map]
  exact congrArg (inputs.flatMap ·) (funext stages_unanswered)

/-- A frame of a response that the queue refuses is kept for another try, or the
transfer that it belongs to is given up. -/
def NoGap : QueueEvent → Prop
  | .made origin frame queued before after =>
    origin ≠ .flowControl → queued = false →
      after = before ∨ after.active = false ∧ pciType frame ≠ 0
  | .sent _ => True

instance noGapDecidable : DecidablePred NoGap
  | .made _ _ _ _ _ => inferInstanceAs (Decidable (_ → _))
  | .sent _ => inferInstanceAs (Decidable True)

/-- In every run the frames that entered the transmit queue, and no others, are
sent in their order or wait. A frame is refused exactly when seven frames wait,
each refusal is counted, and what the node makes is the same for every queue
and for all answers of the driver. -/
theorem full_queue_drops (rt : UdsRuntime μ) (inputs : List RuntimeInput) (h : Joined rt) :
    let done := run queueStep rt (inputs.flatMap stages)
    done.1 = (run runtimeStep rt inputs).1 ∧
      (waiting rt.can++enteredFrames done.2).map frameContent =
        (leftFrames done.2++waiting done.1.can).map frameContent ∧
      Always (RefusedWhenFull (waiting rt.can).length) done.2 ∧
      done.1.can.stats.txOverflow =
        rt.can.stats.txOverflow+UInt32.ofNat (refusedFrames done.2).length ∧
      ∀ (rt' : UdsRuntime μ) (inputs' : List RuntimeInput), unqueued rt' = unqueued rt →
        inputs'.map unansweredInput = inputs.map unansweredInput →
          madeFrames (run queueStep rt' (inputs'.flatMap stages)).2 = madeFrames done.2 := by
  intro done
  have hend := along_history queueStep (fun _ _ => True) (Accounted rt.can)
    (fun s past a hs _ => accounted_step s past a hs) rt [] (inputs.flatMap stages)
    (start_accounted h) (along_true _ _ _)
  have hrun := run_expand queueStep runtimeStep id stages queue_stages rt inputs
  refine ⟨hrun,?_,hend.refusals,hend.balanced.overflow,fun rt' inputs' hrt hinputs => ?_⟩
  · rw [List.map_append,List.map_append]
    exact hend.balanced.order
  · refine run_alike hrt ?_
    rw [inputs_unanswered,inputs_unanswered,hinputs]

end Runtime

def backlog : UdsStm32Can :=
  (List.replicate 7 (filledFrame udsTxCanId [0x02,0x7E,0x00])).foldl
    (fun can frame => (udsStm32CanTxQueue can frame).1) quietRuntime.can

def blockedRuntime : UdsRuntime Unit := { quietRuntime with can := backlog }

def blockedDialogue : List RuntimeInput := [.rxFromIsr versionRequest,.process [] 1]

def fourAccepted : List TxAnswer := List.replicate 4 .accepted

/-- The transmitter of a runtime takes a flow control frame. -/
def cleared (rt : UdsRuntime Unit) (now : UInt32) : UdsRuntime Unit :=
  { rt with isotpTx := (isotpTxFeedFlowControl rt.isotpTx clearToSend now).1 }

theorem blocked_joined : Joined blockedRuntime :=
  ⟨⟨by decide +kernel,by decide +kernel⟩,by decide +kernel,by decide +kernel,by decide +kernel⟩

/-- The First Frame of a response is dropped, and yet the transmitter goes on:
once it is cleared to send, the consecutive frame enters the queue. -/
theorem dropped_first_frame :
    (¬∀ (rt : UdsRuntime Unit) (inputs : List RuntimeInput), Joined rt →
        ∀ e ∈ (run queueStep rt (inputs.flatMap stages)).2, NoGap e) ∧
      let blocked := run queueStep blockedRuntime (blockedDialogue.flatMap stages)
      let drained := (run queueStep blocked.1 (stages (.process fourAccepted 2))).1
      let resumed := run queueStep (cleared drained 2) (stages (.process fourAccepted 3))
      enteredFrames blocked.2 = [] ∧ (refusedFrames blocked.2).map pciType = [1] ∧
        blocked.1.isotpTx.active = true ∧ (enteredFrames resumed.2).map pciType = [2] ∧
        (leftFrames resumed.2).map pciType = [0,0,0,2] := by
  refine ⟨fun h => ?_,by decide +kernel⟩
  have hdropped := h blockedRuntime blockedDialogue blocked_joined
  revert hdropped
  decide +kernel

theorem blocked_drops :
    let done := run queueStep blockedRuntime (blockedDialogue.flatMap stages)
    Joined blockedRuntime ∧ Always (RefusedWhenFull (waiting blockedRuntime.can).length) done.2 ∧
      done.1.can.stats.txOverflow =
        blockedRuntime.can.stats.txOverflow+UInt32.ofNat (refusedFrames done.2).length ∧
      (refusedFrames done.2).length = 1 := by
  intro done
  obtain ⟨_,_,hrefusals,hoverflow,_⟩ :=
    full_queue_drops blockedRuntime blockedDialogue blocked_joined
  exact ⟨blocked_joined,hrefusals,hoverflow,by decide +kernel⟩

end CanopenReference.QueueRefusals
