import CanopenReference.UdsTickOrder

/-!
# One response at a time

A pass is split into its stages, and the frames that start a response are
recorded with the ends of the transfers. A response is started whenever a
request is answered, whether or not the transmitter is at rest.
-/

set_option autoImplicit false

namespace CanopenReference.ResponseTransmission
open Library Library.Runs IsoTp IsoTpReceiver IsoTpDelivery Uds UdsStm32 Diagnostics UdsFlowControl
  UdsTickOrder
open IsoTpTransmitter (Awaited flow_computes next_computes start_first start_single)

/-- The First or single frame of a response was made, and went to the transmit
queue or found no room there; or a transfer completed, was aborted by flow
control or timed out. -/
inductive TxEvent where
  | started (frame : IsoTpCanFrame) (queued : Bool)
  | ended
  deriving DecidableEq

def isStart : TxEvent → Bool
  | .started _ _ => true
  | .ended => false

/-- Whether the transfer of a queued First Frame is still to end. -/
def pendingAfter (pending : Bool) : TxEvent → Bool
  | .started frame queued => pending || (queued && pciType frame == 1)
  | .ended => false

/-- No response is started between a queued First Frame and the end of its
transfer, which may be `pending` from before. -/
def Uninterrupted (pending : Bool) (before : List TxEvent) (e : TxEvent) : Prop :=
  isStart e = true → before.foldl pendingAfter pending = false

instance uninterruptedDecidable (pending : Bool) (before : List TxEvent) (e : TxEvent) :
    Decidable (Uninterrupted pending before e) :=
  inferInstanceAs (Decidable (_ → _))

def endedBetween (before after : IsoTpTx) : List TxEvent :=
  if before.active && !after.active then [.ended] else []

section Runtime
variable {μ : Type}

/-- What `sendResponse` records. -/
def sendEvents (rt : UdsRuntime μ) (result : UdsCallbackResult) (now : UInt32) : List TxEvent :=
  if result = .ok ∧ rt.application.responseLength ≠ 0 then
    let (_,status,made) := isotpTxStart rt.isotpTx
      (rt.application.response.front rt.application.responseLength.toNat) now
    if status = .txFrameReady then
      made.toList.map fun frame => .started frame ((udsStm32CanTxQueue rt.can frame).2 = .queued)
    else []
  else []

def frameEvents (rt : UdsRuntime μ) (frame : IsoTpCanFrame) (now : UInt32) : List TxEvent :=
  if frame.canId = udsRxCanId then
    let (isotpRx,status,event) := isotpRxFeed rt.isotpRx frame now
    let fed : UdsRuntime μ := { rt with isotpRx := isotpRx }
    let answered : UdsRuntime μ :=
      if status = .needFlowControl then
        { fed with can := queueTxFrames fed.can event.flowControl }
      else fed
    match status, event.payload with
    | .complete, some payload =>
      let (application,result) := handleRequest answered.application payload now
      sendEvents { answered with application := application } result now
    | _, _ => []
  else if frame.canId = udsTxCanId then
    endedBetween rt.isotpTx (isotpTxFeedFlowControl rt.isotpTx frame now).1
  else []

/-- The runtime, with a note whether the frame of the last response that was
started went to the transmit queue. -/
structure Monitored (μ : Type) where
  runtime : UdsRuntime μ
  announced : Bool

/-- A transfer is in progress whose First Frame was queued. -/
def Monitored.inTransfer (s : Monitored μ) : Bool := s.runtime.isotpTx.active && s.announced

def announcedAfter (announced : Bool) : TxEvent → Bool
  | .started _ queued => queued
  | .ended => announced

inductive Stage where
  | receive (frame : IsoTpCanFrame)
  | begin (now : UInt32)
  | frame (now : UInt32)
  | poll (now : UInt32)
  | tick (now : UInt32)
  | send (answers : List TxAnswer)
  | clearReset

def stageRuntime (rt : UdsRuntime μ) : Stage → UdsRuntime μ × List TxEvent
  | .receive frame => (canopenReferenceUdsRxFromIsr rt frame,[])
  | .begin now => (applicationTicked rt now,[])
  | .frame now =>
    match (udsStm32CanRxPop rt.can).2 with
    | none => (popped rt,[])
    | some frame => (processFrame (popped rt) frame now,frameEvents (popped rt) frame now)
  | .poll now => ((polled rt now).1,endedBetween rt.isotpTx (polled rt now).1.isotpTx)
  | .tick now => (tickBoth rt now,endedBetween rt.isotpTx (tickBoth rt now).isotpTx)
  | .send answers => ((sendQueued rt answers).1,[])
  | .clearReset => (canopenReferenceUdsClearReset rt,[])

def stageStep (s : Monitored μ) (a : Stage) : Monitored μ × List TxEvent :=
  if !s.runtime.initialized then (s,[])
  else
    let staged := stageRuntime s.runtime a
    (⟨staged.1,staged.2.foldl announcedAfter s.announced⟩,staged.2)

/-- The stages of a call of the runtime. -/
def stages : RuntimeInput → List Stage
  | .rxFromIsr frame => [.receive frame]
  | .process answers now =>
    .begin now::List.replicate udsStm32RxBudgetPerCall (.frame now)++
      [.poll now,.tick now,.send answers]
  | .clearReset => [.clearReset]

theorem start_made {tx : IsoTpTx} {p : List UInt8} (now : UInt32) (h1 : 1 ≤ p.length)
    (hm : p.length ≤ 4095) :
    ∃ frame, (isotpTxStart tx p now).2 = (.txFrameReady,some frame) ∧
      (isotpTxStart tx p now).1.active = (pciType frame == 1) := by
  by_cases h7 : p.length ≤ 7
  · have hpci := (single_frame tx.responseId p h1 h7).1.2.1
    rw [start_single tx now h1 h7]
    exact ⟨_,rfl,by rw [hpci]; rfl⟩
  · have h8 := Nat.lt_of_not_le h7
    have hpci := (first_frame tx.responseId p h8 hm).1.2.2
    rw [start_first tx now h8 hm]
    exact ⟨_,rfl,by rw [hpci]; rfl⟩

theorem request_events (rt : UdsRuntime μ) {frame : IsoTpCanFrame} (now : UInt32)
    (h : frame.canId = udsRxCanId) :
    frameEvents rt frame now =
      if responds rt frame now then sendEvents (taken rt frame now) .ok now else [] := by
  unfold frameEvents taken responds
  rw [if_pos h]
  generalize isotpRxFeed rt.isotpRx frame now = fed
  obtain ⟨rx,status,⟨payload,flow⟩⟩ := fed
  simp only
  cases payload with
  | none => simp only [Bool.false_eq_true,if_false]
  | some payload =>
    cases status
    case complete =>
      generalize handleRequest rt.application payload now = handled
      obtain ⟨application,result⟩ := handled
      simp only [reduceCtorEq,if_false,decide_eq_true_eq]
      split
      · rename_i hr
        rw [hr.1]
      · rename_i hr
        exact if_neg hr
    all_goals rfl

theorem response_started {rt : UdsRuntime μ} {frame : IsoTpCanFrame} {now : UInt32}
    (h : frame.canId = udsRxCanId) (hr : responds rt frame now = true) :
    ∃ first queued, frameEvents rt frame now = [.started first queued] ∧
      (processFrame rt frame now).isotpTx.active = (pciType first == 1) := by
  obtain ⟨h1,hm⟩ := response_length hr
  obtain ⟨first,hmade,hactive⟩ := @start_made (taken rt frame now).isotpTx _ now h1 hm
  refine ⟨first,(udsStm32CanTxQueue (taken rt frame now).can first).2 = .queued,?_,?_⟩
  · have hlength : (taken rt frame now).application.responseLength ≠ 0 := by
      intro h0
      rw [h0] at h1
      exact absurd h1 (by simp [Buffer.front])
    rw [request_events rt now h,if_pos hr,sendEvents,if_pos ⟨rfl,hlength⟩]
    generalize isotpTxStart (taken rt frame now).isotpTx _ now = started at hmade
    obtain ⟨tx,_⟩ := started
    cases hmade
    rfl
  · rw [process_request rt now h,if_pos hr]
    exact hactive

theorem silent_request {rt : UdsRuntime μ} {frame : IsoTpCanFrame} {now : UInt32}
    (h : frame.canId = udsRxCanId) (hr : responds rt frame now = false) :
    frameEvents rt frame now = [] ∧ (processFrame rt frame now).isotpTx = rt.isotpTx := by
  rw [request_events rt now h,process_request rt now h,hr]
  exact ⟨rfl,rfl⟩

theorem feed_keeps_rest {tx : IsoTpTx} (frame : IsoTpCanFrame) (now : UInt32)
    (h : tx.active = false) : (isotpTxFeedFlowControl tx frame now).1 = tx := by
  have hno : ¬Awaited tx frame := fun ha => Bool.false_ne_true (h.symm.trans ha.active)
  rw [flow_computes (.refused hno)]

theorem polled_keeps_rest {rt : UdsRuntime μ} (now : UInt32) (h : rt.isotpTx.active = false) :
    (polled rt now).1.isotpTx = rt.isotpTx := by
  have hrest : isotpTxNext rt.isotpTx now = (rt.isotpTx,.ok,none) :=
    next_computes (.rests fun ha => absurd (h.symm.trans ha) Bool.false_ne_true)
  simp only [polled,hrest]

theorem tick_keeps_rest {rt : UdsRuntime μ} (now : UInt32) (h : rt.isotpTx.active = false) :
    (tickBoth rt now).isotpTx = rt.isotpTx := by
  simp [tickBoth,tickTransmitter,tickReceiver,isotpTxTick,h]

/-- The answer to a popped request cuts in on no transfer. -/
def Clear (s : Monitored μ) : Stage → Prop
  | .frame now => s.runtime.initialized = true →
      ∀ frame, (udsStm32CanRxPop s.runtime.can).2 = some frame → frame.canId = udsRxCanId →
        responds (popped s.runtime) frame now = true → s.inTransfer = false
  | _ => True

/-- A popped request leaves the transmitter alone while it sends. -/
def Kept (s : Monitored μ) : Stage → Prop
  | .frame now =>
      ∀ frame, (udsStm32CanRxPop s.runtime.can).2 = some frame → frame.canId = udsRxCanId →
        s.inTransfer = true →
          (stageStep s (.frame now)).1.runtime.isotpTx = s.runtime.isotpTx
  | _ => True

inductive Outcome (s : Monitored μ) (a : Stage) : Monitored μ × List TxEvent → Prop
  | quiet (s' : Monitored μ) (active : s'.runtime.isotpTx.active = s.runtime.isotpTx.active)
      (announced : s'.announced = s.announced) (clear : Clear s a) : Outcome s a (s',[])
  | ended (s' : Monitored μ) (before : s.runtime.isotpTx.active = true)
      (after : s'.runtime.isotpTx.active = false) (clear : Clear s a) : Outcome s a (s',[.ended])
  | started (s' : Monitored μ) (frame : IsoTpCanFrame) (queued : Bool)
      (active : s'.runtime.isotpTx.active = (pciType frame == 1))
      (announced : s'.announced = queued) (clear : Clear s a ↔ s.inTransfer = false) :
      Outcome s a (s',[.started frame queued])

theorem between_outcome {s : Monitored μ} {a : Stage} (rt' : UdsRuntime μ)
    (hrest : s.runtime.isotpTx.active = false → rt'.isotpTx.active = false) (hc : Clear s a) :
    Outcome s a
      (⟨rt',(endedBetween s.runtime.isotpTx rt'.isotpTx).foldl announcedAfter s.announced⟩,
        endedBetween s.runtime.isotpTx rt'.isotpTx) := by
  unfold endedBetween
  cases hbefore : s.runtime.isotpTx.active with
  | false => exact .quiet _ ((hrest hbefore).trans hbefore.symm) rfl hc
  | true =>
    cases hafter : rt'.isotpTx.active with
    | false => exact .ended _ hbefore hafter hc
    | true => exact .quiet _ (hafter.trans hbefore.symm) rfl hc

theorem stage_step {s : Monitored μ} (a : Stage) (h : s.runtime.initialized = true) :
    stageStep s a =
      (⟨(stageRuntime s.runtime a).1,(stageRuntime s.runtime a).2.foldl announcedAfter s.announced⟩,
        (stageRuntime s.runtime a).2) := by
  simp [stageStep,h]

theorem rx_from_isr_tx (rt : UdsRuntime μ) (frame : IsoTpCanFrame) :
    (canopenReferenceUdsRxFromIsr rt frame).isotpTx = rt.isotpTx := by
  unfold canopenReferenceUdsRxFromIsr
  split <;> rfl

theorem clear_reset_tx (rt : UdsRuntime μ) :
    (canopenReferenceUdsClearReset rt).isotpTx = rt.isotpTx := by
  unfold canopenReferenceUdsClearReset
  split <;> rfl

theorem frame_outcome (s : Monitored μ) (now : UInt32) (hinit : s.runtime.initialized = true) :
    Outcome s (.frame now) (stageStep s (.frame now)) := by
  rw [stage_step _ hinit]
  simp only [stageRuntime]
  cases hp : (udsStm32CanRxPop s.runtime.can).2 with
  | none => exact .quiet _ rfl rfl fun _ frame hf => by rw [hp] at hf; cases hf
  | some frame =>
    simp only
    by_cases hrx : frame.canId = udsRxCanId
    · cases hr : responds (popped s.runtime) frame now with
      | false =>
        obtain ⟨hevents,htx⟩ := silent_request hrx hr
        rw [hevents]
        refine .quiet _ (congrArg IsoTpTx.active htx) rfl fun _ f hf _ hyes => ?_
        rw [hp] at hf
        cases hf
        rw [hr] at hyes
        cases hyes
      | true =>
        obtain ⟨first,queued,hevents,hactive⟩ := response_started hrx hr
        rw [hevents]
        refine .started _ first queued hactive rfl ⟨fun hc => hc hinit frame hp hrx hr,?_⟩
        exact fun hidle _ _ _ _ _ => hidle
    · have hc : Clear s (.frame now) := by
        intro _ f hf hid
        rw [hp] at hf
        cases hf
        exact absurd hid hrx
      by_cases htx : frame.canId = udsTxCanId
      · have hevents : frameEvents (popped s.runtime) frame now =
            endedBetween s.runtime.isotpTx
              (processFrame (popped s.runtime) frame now).isotpTx := by
          rw [frameEvents,if_neg hrx,if_pos htx,processFrame,if_neg hrx,if_pos htx]
          rfl
        rw [hevents]
        refine between_outcome _ (fun hidle => ?_) hc
        rw [processFrame,if_neg hrx,if_pos htx]
        exact (congrArg IsoTpTx.active (feed_keeps_rest frame now hidle)).trans hidle
      · rw [frameEvents,processFrame,if_neg hrx,if_neg htx,if_neg hrx,if_neg htx]
        exact .quiet _ rfl rfl hc

theorem stage_outcome (s : Monitored μ) (a : Stage) : Outcome s a (stageStep s a) := by
  cases hinit : s.runtime.initialized with
  | false =>
    have hrest : stageStep s a = (s,[]) := by simp [stageStep,hinit]
    rw [hrest]
    refine .quiet s rfl rfl ?_
    cases a with
    | frame now => exact fun h => by rw [hinit] at h; cases h
    | _ => trivial
  | true =>
    cases a with
    | frame now => exact frame_outcome s now hinit
    | receive frame =>
      rw [stage_step _ hinit]
      exact .quiet _ (congrArg IsoTpTx.active (rx_from_isr_tx s.runtime frame)) rfl trivial
    | begin now =>
      rw [stage_step _ hinit]
      exact .quiet _ rfl rfl trivial
    | poll now =>
      rw [stage_step _ hinit]
      exact between_outcome _ (fun h => (congrArg _ (polled_keeps_rest now h)).trans h) trivial
    | tick now =>
      rw [stage_step _ hinit]
      exact between_outcome _ (fun h => (congrArg _ (tick_keeps_rest now h)).trans h) trivial
    | send answers =>
      rw [stage_step _ hinit]
      exact .quiet _ rfl rfl trivial
    | clearReset =>
      rw [stage_step _ hinit]
      exact .quiet _ (congrArg IsoTpTx.active (clear_reset_tx s.runtime)) rfl trivial

theorem popped_empty {rt : UdsRuntime μ} (h : (udsStm32CanRxPop rt.can).2 = none) :
    popped rt = rt := by
  unfold udsStm32CanRxPop at h
  split at h
  · rename_i he
    rw [popped,udsStm32CanRxPop,if_pos he]
  · cases h

theorem process_frames_empty {rt : UdsRuntime μ} (now : UInt32) (budget : ℕ)
    (h : (udsStm32CanRxPop rt.can).2 = none) : processFrames rt now budget = rt := by
  cases budget with
  | zero => rfl
  | succ budget => rw [process_frames_none now budget h,popped_empty h]

theorem frame_initialized (rt : UdsRuntime μ) (frame : IsoTpCanFrame) (now : UInt32) :
    (processFrame rt frame now).initialized = rt.initialized := by
  by_cases hrx : frame.canId = udsRxCanId
  · rw [process_request rt now hrx]
    split <;> rfl
  · rw [processFrame,if_neg hrx]
    split <;> rfl

theorem frames_run (s : Monitored μ) (now : UInt32) (budget : ℕ)
    (h : s.runtime.initialized = true) :
    (run stageStep s (List.replicate budget (.frame now))).1.runtime =
        processFrames s.runtime now budget ∧
      (processFrames s.runtime now budget).initialized = true := by
  induction budget generalizing s with
  | zero => exact ⟨rfl,h⟩
  | succ budget ih =>
    rw [List.replicate_succ,run_cons,stage_step _ h]
    simp only [stageRuntime]
    cases hp : (udsStm32CanRxPop s.runtime.can).2 with
    | none =>
      have hlast := ih s h
      rw [process_frames_empty now budget hp] at hlast
      rw [process_frames_empty now (budget+1) hp]
      simp only [popped_empty hp]
      exact hlast
    | some frame =>
      rw [process_frames_some now budget hp]
      exact ih ⟨processFrame (popped s.runtime) frame now,_⟩
        ((frame_initialized _ frame now).trans h)

theorem stage_runtime {s : Monitored μ} (a : Stage) (h : s.runtime.initialized = true) :
    (stageStep s a).1.runtime = (stageRuntime s.runtime a).1 := by
  rw [stage_step a h]

theorem pass_end {s : Monitored μ} (answers : List TxAnswer) (now : UInt32)
    (h : s.runtime.initialized = true) :
    (run stageStep s [.poll now,.tick now,.send answers]).1.runtime =
      (sendQueued (tickBoth (polled s.runtime now).1 now) answers).1 := by
  have hpoll := stage_runtime (.poll now) h
  have htick := stage_runtime (.tick now) ((congrArg UdsRuntime.initialized hpoll).trans h)
  rw [hpoll] at htick
  have hsend := stage_runtime (.send answers) ((congrArg UdsRuntime.initialized htick).trans h)
  rw [htick] at hsend
  exact hsend

/-- The stages of an input end where the source does. -/
theorem stages_run (s : Monitored μ) (input : RuntimeInput) :
    (run stageStep s (stages input)).1.runtime = (runtimeStep s.runtime input).1 := by
  cases hinit : s.runtime.initialized with
  | false =>
    have hrest : ∀ as : List Stage, (run stageStep s as).1 = s := by
      intro as
      induction as with
      | nil => rfl
      | cons a as ih => simp [run_cons,stageStep,hinit,ih]
    rw [hrest]
    cases input with
    | rxFromIsr frame => simp [runtimeStep,canopenReferenceUdsRxFromIsr,hinit]
    | process answers now => simp [runtimeStep,canopenReferenceUdsProcess,hinit]
    | clearReset => simp [runtimeStep,canopenReferenceUdsClearReset,hinit]
  | true =>
    cases input with
    | rxFromIsr frame => exact stage_runtime (.receive frame) hinit
    | clearReset => exact stage_runtime .clearReset hinit
    | process answers now =>
      have hbegin := stage_runtime (.begin now) hinit
      obtain ⟨hdrained,hstill⟩ := frames_run (stageStep s (.begin now)).1 now
        udsStm32RxBudgetPerCall ((congrArg UdsRuntime.initialized hbegin).trans hinit)
      rw [← hdrained] at hstill
      have hend := pass_end answers now hstill
      rw [hdrained,hbegin] at hend
      rw [stages,List.cons_append,run_cons,run_append,runtimeStep,process_stages,hinit]
      exact hend

def Recorded (pending : Bool) (s : Monitored μ) (past : List TxEvent) : Prop :=
  Always (Uninterrupted pending) past → past.foldl pendingAfter pending = s.inTransfer

theorem start_uninterrupted {pending : Bool} {past : List TxEvent} {frame : IsoTpCanFrame}
    {queued : Bool} (h : Always (Uninterrupted pending) (past++[.started frame queued])) :
    past.foldl pendingAfter pending = false := h past _ [] rfl rfl

theorem recorded_step (pending : Bool) (s : Monitored μ) (past : List TxEvent) (a : Stage)
    (h : Recorded pending s past) :
    Recorded pending (stageStep s a).1 (past++(stageStep s a).2) := by
  have ho := stage_outcome s a
  generalize stageStep s a = r at ho ⊢
  cases ho with
  | quiet s' active announced _ =>
    rw [List.append_nil]
    intro hall
    rw [h hall,Monitored.inTransfer,Monitored.inTransfer,active,announced]
  | ended s' _ after _ =>
    intro _
    rw [List.foldl_append,Monitored.inTransfer,after]
    rfl
  | started s' frame queued active announced _ =>
    intro hall
    rw [List.foldl_append,start_uninterrupted hall,Monitored.inTransfer,active,announced,
      Bool.and_comm]
    rfl

theorem stage_fits (pending : Bool) (s : Monitored μ) (past : List TxEvent) (a : Stage)
    (h : Recorded pending s past) (hall : Always (Uninterrupted pending) past) :
    Always (Uninterrupted pending) (past++(stageStep s a).2) ↔ Clear s a := by
  have ho := stage_outcome s a
  generalize stageStep s a = r at ho ⊢
  cases ho with
  | quiet s' _ _ clear => exact iff_of_true (by simpa using hall) clear
  | ended s' _ _ clear =>
    exact iff_of_true (always_concat hall fun hstart => by cases hstart) clear
  | started s' frame queued _ _ clear =>
    rw [clear,← h hall]
    exact ⟨start_uninterrupted,fun hrest => always_concat hall fun _ => hrest⟩

theorem clear_keeps (s : Monitored μ) (a : Stage) (h : Clear s a) : Kept s a := by
  cases a with
  | frame now =>
    intro frame hp hrx hbusy
    cases hinit : s.runtime.initialized with
    | false => simp [stageStep,hinit]
    | true =>
      have hr : responds (popped s.runtime) frame now = false := by
        by_contra hr
        rw [h hinit frame hp hrx (by simpa using hr)] at hbusy
        cases hbusy
      rw [stage_step _ hinit]
      simp only [stageRuntime,hp]
      exact (silent_request hrx hr).2
  | _ => trivial

/-- From every state and under every sequence of calls, no response is started
and no request disturbs the transmitter while the transfer of a queued First
Frame is in progress, exactly when no request that gets a response comes then. -/
theorem transfers_uninterrupted (rt : UdsRuntime μ) (announced : Bool)
    (inputs : List RuntimeInput) :
    let s : Monitored μ := ⟨rt,announced⟩
    let work := inputs.flatMap stages
    (run stageStep s work).1.runtime = (run runtimeStep rt inputs).1 ∧
      (Always (Uninterrupted s.inTransfer) (run stageStep s work).2 ∧ Along stageStep Kept s work ↔
        Along stageStep Clear s work) := by
  intro s work
  refine ⟨run_expand stageStep runtimeStep Monitored.runtime stages stages_run s inputs,?_⟩
  have hrun := along_iff_always stageStep Clear (Recorded s.inTransfer)
    (Uninterrupted s.inTransfer) (recorded_step s.inTransfer) (stage_fits s.inTransfer) s [] work
    (fun _ => rfl) always_nil
  rw [List.nil_append] at hrun
  exact ⟨fun h => hrun.mp h.1,fun h => ⟨hrun.mpr h,along_mono stageStep clear_keeps s work h⟩⟩

end Runtime

def testerPresent : IsoTpCanFrame := filledFrame udsRxCanId [0x02,0x3E,0x00]

/-- A TesterPresent one millisecond after the First Frame of a response. -/
def presentDialogue : List RuntimeInput :=
  [.rxFromIsr versionRequest,.process [.accepted] 1,.rxFromIsr testerPresent,
    .process [.accepted] 2]

/-- The answer to the TesterPresent is sent and the transmitter is reset,
although the transfer has not ended. -/
theorem tester_present_cuts_off :
    let s : Monitored Unit := ⟨quietRuntime,false⟩
    let work := presentDialogue.flatMap stages
    ¬Always (Uninterrupted s.inTransfer) (run stageStep s work).2 ∧
      (run stageStep s work).2.map isStart = [true,true] ∧
      (run stageStep s work).2.foldl pendingAfter s.inTransfer = true ∧
      (run runtimeStep quietRuntime presentDialogue).2.map
          (fun report => report.sent.map fun f => f.data.front f.dlc) =
        [[[0x10,0x0C,0x62,0xF1,0x80,0x75,0x64,0x73]],[[0x02,0x7E,0x00]]] ∧
      (run runtimeStep quietRuntime presentDialogue).1.isotpTx.active = false := by
  decide +kernel

end CanopenReference.ResponseTransmission
