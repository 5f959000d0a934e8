import CanopenReference.BusTraffic
import CanopenReference.RequestDelivery
import CanopenReference.ServerHistory

/-!
# One request after the other

Clients that send their requests one after the other see a server that handles
one request at a time and replies at once, although frames, stages of the passes
and answers of the driver interleave and two queues lie between.
-/

set_option autoImplicit false

namespace CanopenReference.SequentialService
open Library Library.Runs IsoTp IsoTpReceiver IsoTpDelivery IsoTpDeadlines ForeignTraffic Uds
  UdsStm32 Diagnostics UdsTickOrder ResponseTransmission RxRings Dialogue RequestDelivery BusTraffic
open Reception (ReceivePath cleared completes fed handled pathStep queues requestsHandled trimmed
  view waitingFrames)
open ServerHistory (ServerInput)

def flowContent : Content := (udsTxCanId,3,[0x30,8,0])

/-- Flow control for a request: after the First Frame and after every block but
the last. -/
def controls (request : List UInt8) : ℕ := (consecutives request+7)/8

def asked : ServerInput → Option (List UInt8)
  | .handle request _ => some request
  | _ => none

section Service
variable {μ : Type}

def reply (app : UdsApplication μ) (request : List UInt8) (now : UInt32) : List Content :=
  List.replicate (controls request) flowContent++
    ((opening (responded (handleRequest app request now))).map frameContent).toList

/-- The server without frames and queues, and what it puts on the bus. -/
def serviceStep (app : UdsApplication μ) : ServerInput → UdsApplication μ × List Content
  | .handle request now => ((handleRequest app request now).1,reply app request now)
  | .tick now => ((tickApplication app now).1,[])
  | .clearReset => (cleared app,[])

def serverInputs (requests : List (List UInt8)) : Stage → List ServerInput
  | .begin now => [.tick now]
  | .frame now => requests.map fun request => .handle request now
  | .clearReset => [.clearReset]
  | _ => []

def inputStep (rt : UdsRuntime μ) (a : Stage) : UdsRuntime μ × List ServerInput :=
  if !rt.initialized then (rt,[])
  else ((stageRuntime rt a).1,serverInputs (requestsHandled rt a) a)

def pathInputs (s : ReceivePath μ) (a : Stage) : ReceivePath μ × List ServerInput :=
  ((pathStep s a).1,serverInputs (pathStep s a).2 a)

/-- A frame of a request is queued and in time, and its answer finds room. -/
structure Undisturbed (s : DiagnosticNode μ) (a : Stage) : Prop where
  smooth : Smooth s.path a
  room : (pathOffer s.path a).isSome = true → s.outgoing.length < 7

instance undisturbedDecidable (s : DiagnosticNode μ) (a : Stage) : Decidable (Undisturbed s a) :=
  decidable_of_iff (Smooth s.path a ∧ ((pathOffer s.path a).isSome = true → s.outgoing.length < 7))
    ⟨fun h => ⟨h.1,h.2⟩,fun h => ⟨h.1,h.2⟩⟩

end Service

/-- The frames to come when `k` frames of the first request are taken. -/
def framesLeft (requests : List (List UInt8)) (k : ℕ) : List IsoTpCanFrame :=
  match requests with
  | [] => []
  | p::later =>
    (List.range' k (consecutives p+1-k)).map (wire udsRxCanId p)++later.flatMap requestFrames

/-- The receiver has taken `k` frames of the first request. -/
def TakenFrom (rx : IsoTpRx) (requests : List (List UInt8)) (k : ℕ) : Prop :=
  match requests with
  | [] => k = 0
  | p::_ => k ≤ consecutives p ∧ (k = 0 ∨ RxAt p rx k)

structure Tuned (rx : IsoTpRx) : Prop where
  requestId : rx.requestId = udsRxCanId
  responseId : rx.responseId = udsTxCanId
  config : rx.config = runtimeIsotpConfig

structure Serving {μ : Type} (requests : List (List UInt8)) (s : ReceivePath μ)
    (stages : List Stage) (k : ℕ) : Prop where
  lengths : ∀ p ∈ requests, 1 ≤ p.length ∧ p.length ≤ 4095
  tuned : Tuned s.receiver
  taken : TakenFrom s.receiver requests k
  frames : s.waiting.filter own++(stages.filterMap received).filter own = framesLeft requests k

theorem left_start (requests : List (List UInt8)) :
    framesLeft requests 0 = requests.flatMap requestFrames := by
  cases requests with
  | nil => rfl
  | cons p later =>
    show (List.range' 0 (consecutives p+1-0)).map _++_ = requestFrames p++later.flatMap requestFrames
    rw [requestFrames,List.range_eq_range',Nat.sub_zero]

theorem tuned_side {rx rx' : IsoTpRx} (h : SameSide rx rx') (ht : Tuned rx) : Tuned rx' :=
  ⟨h.2.1.trans ht.requestId,h.2.2.trans ht.responseId,h.1.trans ht.config⟩

theorem tuned_boundary {rx : IsoTpRx} (h : Tuned rx) (p : List UInt8) (k : ℕ) :
    Boundary p rx k ↔ 8 ∣ k ∧ k < consecutives p := by
  rw [Boundary,h.config]
  exact Iff.rfl

theorem tuned_flow {rx : IsoTpRx} (h : Tuned rx) :
    frameContent (rxMakeFlowControl rx) = flowContent := by
  rw [rxMakeFlowControl,h.responseId,h.config]
  rfl

theorem controls_next (k : ℕ) : (k+1+7)/8 = (k+7)/8+if 8 ∣ k then 1 else 0 := by
  split <;> omega

section Answers
variable {μ : Type} {p : List UInt8} {rx : IsoTpRx} {frame : IsoTpCanFrame} {now : UInt32} {k : ℕ}

theorem flow_status (rx : IsoTpRx) (frame : IsoTpCanFrame) (now : UInt32) :
    (isotpRxFeed rx frame now).2.1 = .needFlowControl ↔
      (isotpRxFeed rx frame now).2.2.flowControl.isSome = true := by
  have ho := rx_outcome rx frame now
  generalize isotpRxFeed rx frame now = r at ho ⊢
  cases ho with
  | ignored status hstatus _ _ _ => rcases hstatus with rfl | rfl | rfl | rfl <;> simp [noEvent]
  | refused status hstatus _ _ => rcases hstatus with rfl | rfl <;> simp [noEvent]
  | _ => simp [noEvent]

theorem answer_foreign (app : UdsApplication μ) (ht : Tuned rx) (h : own frame = false) :
    answerFrame rx app frame now = none := by
  have hforeign : Foreign rx.requestId frame := by
    rw [ht.requestId]
    simpa [own] using h
  obtain ⟨status,hfeed⟩ := foreign_ignored now hforeign
  have hnone := (foreign_passes now ht.requestId h).2
  unfold answerFrame
  split
  · rw [hnone,hfeed]
    split <;> rfl
  · rfl

/-- A frame that ends a block short of the last is answered by flow control, and
the last one by the opening of the response. -/
theorem answer_taken (app : UdsApplication μ) (ht : Tuned rx) (hid : frame.canId = udsRxCanId)
    (h : Taken p rx k (isotpRxFeed rx frame now)) :
    (answerFrame rx app frame now).map frameContent =
      if 8 ∣ k ∧ k < consecutives p then some flowContent
      else if k = consecutives p then
        (opening (responded (handleRequest app p now))).map frameContent
      else none := by
  have hstatus := flow_status rx frame now
  rw [h.flow] at hstatus
  unfold answerFrame
  rw [if_pos hid,taken_completes hid h]
  by_cases hb : Boundary p rx k
  · rw [if_pos hb] at hstatus
    rw [if_pos (hstatus.mpr rfl),h.flow,if_pos hb,if_pos ((tuned_boundary ht p k).mp hb)]
    exact congrArg some (tuned_flow ht)
  · rw [if_neg hb] at hstatus
    rw [if_neg (fun hc => nomatch hstatus.mp hc),if_neg ((tuned_boundary ht p k).not.mp hb)]
    split <;> rfl

theorem enqueue_room {outgoing : List Content} {offer : Option IsoTpCanFrame}
    (h : offer.isSome = true → outgoing.length < 7) :
    enqueue outgoing offer = outgoing++(offer.map frameContent).toList := by
  cases offer with
  | none => exact (List.append_nil _).symm
  | some frame => exact if_pos (h rfl)

end Answers

section Path
variable {μ : Type} {requests : List (List UInt8)} {s s' : ReceivePath μ} {stages : List Stage}
  {k : ℕ}

theorem serving_same {a : Stage} (h : Serving requests s (a::stages) k) (ha : received a = none)
    (hwaiting : s'.waiting = s.waiting) (hreceiver : s'.receiver = s.receiver) :
    Serving requests s' stages k := by
  have hframes := h.frames
  rw [List.filterMap_cons_none ha] at hframes
  refine ⟨h.lengths,?_,?_,?_⟩
  · rw [hreceiver]
    exact h.tuned
  · rw [hreceiver]
    exact h.taken
  · rw [hwaiting]
    exact hframes

theorem serving_received {frame : IsoTpCanFrame}
    (h : Serving requests s (.receive frame::stages) k) (hsmooth : Smooth s (.receive frame)) :
    Serving requests (pathStep s (.receive frame)).1 stages k := by
  refine ⟨h.lengths,h.tuned,h.taken,?_⟩
  have hframes : s.waiting.filter own++(trimmed frame::stages.filterMap received).filter own =
      framesLeft requests k := h.frames
  dsimp only [pathStep]
  rw [← hframes]
  cases hown : own (trimmed frame) with
  | true =>
    rw [if_pos (hsmooth hown),List.filter_append,List.filter_cons_of_pos hown,
      List.filter_cons_of_pos hown,List.append_assoc]
    rfl
  | false =>
    have hdropped : ¬own (trimmed frame) = true := Bool.eq_false_iff.mp hown
    rw [List.filter_cons_of_neg hdropped]
    split
    · rw [List.filter_append,List.filter_cons_of_neg hdropped,List.filter_nil,List.append_nil]
    · rfl

/-- What the next frame in the queue is for the requests. -/
inductive Served (requests : List (List UInt8)) (s : ReceivePath μ) (stages : List Stage) (k : ℕ)
    (now : UInt32) : Prop
  | idle (serving : Serving requests (pathStep s (.frame now)).1 stages k)
      (application : (pathStep s (.frame now)).1.application = s.application)
      (requests : (pathStep s (.frame now)).2 = []) (offer : pathOffer s (.frame now) = none)
  | taken (serving : Serving requests (pathStep s (.frame now)).1 stages (k+1))
      (application : (pathStep s (.frame now)).1.application = s.application)
      (requests : (pathStep s (.frame now)).2 = [])
      (offer : (pathOffer s (.frame now)).map frameContent =
        if 8 ∣ k then some flowContent else none)
  | finished (p : List UInt8) (later : List (List UInt8)) (split : requests = p::later)
      (last : k = consecutives p) (serving : Serving later (pathStep s (.frame now)).1 stages 0)
      (application : (pathStep s (.frame now)).1.application =
        (handleRequest s.application p now).1)
      (requests : (pathStep s (.frame now)).2 = [p])
      (offer : (pathOffer s (.frame now)).map frameContent =
        (opening (responded (handleRequest s.application p now))).map frameContent)

theorem path_frame {frame : IsoTpCanFrame} {rest : List IsoTpCanFrame} (now : UInt32)
    (h : s.waiting = frame::rest) :
    pathStep s (.frame now) =
        (⟨rest,fed s.receiver frame now,
            handled s.application (completes s.receiver frame now) now⟩,
          (completes s.receiver frame now).toList) ∧
      pathOffer s (.frame now) = answerFrame s.receiver s.application frame now := by
  constructor
  · unfold pathStep
    dsimp only
    rw [h]
  · unfold pathOffer
    dsimp only
    rw [h]
    rfl

theorem own_served {p : List UInt8} {later : List (List UInt8)} {frame : IsoTpCanFrame}
    {rest : List IsoTpCanFrame} (now : UInt32)
    (h : Serving (p::later) s (.frame now::stages) k) (hw : s.waiting = frame::rest)
    (hown : own frame = true) : Served (p::later) s stages k now := by
  obtain ⟨hstep,hoffer⟩ := path_frame now hw
  have hframes : s.waiting.filter own++(stages.filterMap received).filter own =
      (List.range' k (consecutives p+1-k)).map (wire udsRxCanId p)++
        later.flatMap requestFrames := h.frames
  obtain ⟨hk,hat⟩ := h.taken
  obtain ⟨⟨h1,hm⟩,hlater⟩ := List.forall_mem_cons.mp h.lengths
  rw [hw,List.filter_cons_of_pos hown,show consecutives p+1-k = (consecutives p-k)+1 by omega,
    List.range'_succ,List.map_cons,List.cons_append,List.cons_append] at hframes
  obtain ⟨hframe,hleft⟩ := List.cons.inj hframes
  have hid : frame.canId = udsRxCanId := by rw [hframe,wire_addressed]
  have htaken : Taken p s.receiver k (isotpRxFeed s.receiver frame now) := by
    rw [hframe,← h.tuned.requestId]
    exact takes_wire now h1 hm hat hk
  have hfed : fed s.receiver frame now = (isotpRxFeed s.receiver frame now).1 := if_pos hid
  have htuned := tuned_side htaken.side h.tuned
  have hanswer := answer_taken s.application h.tuned hid htaken
  rw [hfed,taken_completes hid htaken] at hstep
  by_cases hlast : k = consecutives p
  · rw [if_pos hlast] at hstep
    rw [if_neg (by omega),if_pos hlast] at hanswer
    rw [hlast,Nat.sub_self] at hleft
    refine .finished p later rfl hlast ?_ (by rw [hstep]; rfl) (by rw [hstep]; rfl)
      (by rw [hoffer]; exact hanswer)
    rw [hstep]
    refine ⟨hlater,htuned,?_,?_⟩
    · cases later with
      | nil => rfl
      | cons q later => exact ⟨Nat.zero_le _,Or.inl rfl⟩
    · rw [left_start]
      exact hleft
  · rw [if_neg hlast] at hstep
    have hlt : k < consecutives p := Nat.lt_of_le_of_ne hk hlast
    rw [if_neg hlast] at hanswer
    refine .taken ?_ (by rw [hstep]; rfl) (by rw [hstep]; rfl) ?_
    · rw [hstep]
      refine ⟨h.lengths,htuned,⟨hlt,Or.inr htaken.rxAt⟩,?_⟩
      show _ = (List.range' (k+1) (consecutives p+1-(k+1))).map _++_
      rw [Nat.add_sub_add_right]
      exact hleft
    · rw [hoffer,hanswer]
      by_cases h8 : 8 ∣ k
      · rw [if_pos h8,if_pos ⟨h8,hlt⟩]
      · rw [if_neg h8,if_neg (fun hc => h8 hc.1)]

theorem frame_served (now : UInt32) (h : Serving requests s (.frame now::stages) k) :
    Served requests s stages k now := by
  cases hw : s.waiting with
  | nil =>
    have hstay : pathStep s (.frame now) = (s,[]) := by
      unfold pathStep
      dsimp only
      rw [hw]
    refine .idle ?_ (by rw [hstay]) (by rw [hstay]) ?_
    · rw [hstay]
      exact serving_same h rfl rfl rfl
    · unfold pathOffer
      dsimp only
      rw [hw]
      rfl
  | cons frame rest =>
    obtain ⟨hstep,hoffer⟩ := path_frame now hw
    cases hown : own frame with
    | false =>
      obtain ⟨hfed,hnone⟩ := foreign_passes now h.tuned.requestId hown
      rw [hfed,hnone] at hstep
      refine .idle ?_ (by rw [hstep]; rfl) (by rw [hstep]; rfl)
        (hoffer.trans (answer_foreign _ h.tuned hown))
      have hframes : s.waiting.filter own++(stages.filterMap received).filter own =
          framesLeft requests k := h.frames
      rw [hw,List.filter_cons_of_neg (Bool.eq_false_iff.mp hown)] at hframes
      rw [hstep]
      exact ⟨h.lengths,h.tuned,h.taken,hframes⟩
    | true =>
      cases requests with
      | cons p later => exact own_served now h hw hown
      | nil =>
        have hframes : s.waiting.filter own++(stages.filterMap received).filter own = [] := h.frames
        rw [hw,List.filter_cons_of_pos hown] at hframes
        cases hframes

end Path

section Node
variable {μ : Type} {requests : List (List UInt8)} {s : DiagnosticNode μ} {stages : List Stage}
  {k : ℕ}

/-- From a point at which `k` frames of the first request are taken, the rest of
the stages serves the requests; the flow control sent before is missing. -/
structure Serves (requests : List (List UInt8)) (s : DiagnosticNode μ) (stages : List Stage)
    (k : ℕ) : Prop where
  asked : (run pathInputs s.path stages).2.filterMap asked = requests
  application : (run serviceStep s.path.application (run pathInputs s.path stages).2).1 =
    (run nodeStep s stages).1.path.application
  traffic : ∃ later, (run nodeStep s stages).2 = s.outgoing++later ∧
    (run serviceStep s.path.application (run pathInputs s.path stages).2).2 =
      List.replicate ((k+7)/8) flowContent++later

/-- What one stage adds to the frames that wait, to the inputs of the server and
to its replies. -/
structure ServesStep (requests requests' : List (List UInt8)) (s : DiagnosticNode μ) (a : Stage)
    (k k' : ℕ) (offered : List Content) : Prop where
  asked : requests = (pathInputs s.path a).2.filterMap asked++requests'
  application : (run serviceStep s.path.application (pathInputs s.path a).2).1 =
    (pathStep s.path a).1.application
  outgoing : (nodeStep s a).2++(nodeStep s a).1.outgoing = s.outgoing++offered
  replies : (run serviceStep s.path.application (pathInputs s.path a).2).2++
      List.replicate ((k'+7)/8) flowContent =
    List.replicate ((k+7)/8) flowContent++offered

theorem node_path (s : DiagnosticNode μ) (a : Stage) : (nodeStep s a).1.path = (pathStep s.path a).1 := by
  cases a <;> rfl

theorem serves_cons {requests' : List (List UInt8)} {a : Stage} {k' : ℕ} {offered : List Content}
    (hstep : ServesStep requests requests' s a k k' offered)
    (hrest : Serves requests' (nodeStep s a).1 stages k') : Serves requests s (a::stages) k := by
  obtain ⟨hasked,happlication,later,htraffic,hreplies⟩ := hrest
  rw [node_path] at hasked happlication hreplies
  have hinputs : (run pathInputs s.path (a::stages)).2 =
      (pathInputs s.path a).2++(run pathInputs (pathStep s.path a).1 stages).2 := rfl
  refine ⟨?_,?_,offered++later,?_,?_⟩
  · rw [hinputs,List.filterMap_append,hasked,hstep.asked]
  · rw [hinputs,run_append,hstep.application]
    exact happlication
  · rw [run_cons,htraffic,← List.append_assoc,hstep.outgoing,List.append_assoc]
  · rw [hinputs,run_append,hstep.application,hreplies,← List.append_assoc,hstep.replies,
      List.append_assoc]

theorem quiet_step {a : Stage} (hasked : (pathInputs s.path a).2.filterMap asked = [])
    (happlication : (run serviceStep s.path.application (pathInputs s.path a).2).1 =
      (pathStep s.path a).1.application)
    (houtgoing : (nodeStep s a).2++(nodeStep s a).1.outgoing = s.outgoing)
    (hreplies : (run serviceStep s.path.application (pathInputs s.path a).2).2 = []) :
    ServesStep requests requests s a k k [] := by
  refine ⟨?_,happlication,?_,?_⟩
  · rw [hasked,List.nil_append]
  · rw [houtgoing,List.append_nil]
  · rw [hreplies,List.nil_append,List.append_nil]

theorem frame_step {now : UInt32} (h : Serving requests s.path (.frame now::stages) k)
    (hroom : (pathOffer s.path (.frame now)).isSome = true → s.outgoing.length < 7) :
    ∃ requests' k' offered, Serving requests' (pathStep s.path (.frame now)).1 stages k' ∧
      ServesStep requests requests' s (.frame now) k k' offered := by
  have hinputs : (pathInputs s.path (.frame now)).2 =
      (pathStep s.path (.frame now)).2.map fun request => .handle request now := rfl
  have houtgoing : (nodeStep s (.frame now)).2++(nodeStep s (.frame now)).1.outgoing =
      s.outgoing++((pathOffer s.path (.frame now)).map frameContent).toList := enqueue_room hroom
  cases frame_served now h with
  | idle serving application requests offer =>
    rw [offer] at houtgoing
    rw [requests] at hinputs
    refine ⟨_,k,_,serving,quiet_step ?_ ?_ (houtgoing.trans (List.append_nil _)) ?_⟩
    · rw [hinputs]
      rfl
    · rw [hinputs]
      exact application.symm
    · rw [hinputs]
      rfl
  | taken serving application requests offer =>
    rw [offer] at houtgoing
    rw [requests] at hinputs
    refine ⟨_,k+1,_,serving,?_,?_,houtgoing,?_⟩
    · rw [hinputs]
      rfl
    · rw [hinputs]
      exact application.symm
    · rw [hinputs,controls_next,List.replicate_add]
      show List.replicate ((k+7)/8) flowContent++_ = _
      split <;> rfl
  | finished p later split last serving application requests offer =>
    rw [offer] at houtgoing
    rw [requests] at hinputs
    subst split
    refine ⟨later,0,_,serving,?_,?_,houtgoing,?_⟩
    · rw [hinputs]
      rfl
    · rw [hinputs]
      exact application.symm
    · rw [hinputs,last]
      show reply s.path.application p now++[]++[] = _
      rw [List.append_nil,List.append_nil]
      rfl

theorem serving_nil {s : ReceivePath μ} (h : Serving requests s [] k) (hwaiting : s.waiting = []) :
    requests = [] ∧ k = 0 := by
  have hframes := h.frames
  rw [hwaiting] at hframes
  cases requests with
  | nil => exact ⟨rfl,h.taken⟩
  | cons p later =>
    obtain ⟨hk,_⟩ := h.taken
    have hlength := congrArg List.length hframes
    simp only [List.filterMap_nil,List.filter_nil,List.append_nil,List.length_nil,framesLeft,
      List.length_append,List.length_map,List.length_range'] at hlength
    omega

theorem node_serves (h : Serving requests s.path stages k)
    (hundisturbed : Along nodeStep Undisturbed s stages)
    (hwaiting : (run nodeStep s stages).1.path.waiting = [])
    (houtgoing : (run nodeStep s stages).1.outgoing = []) : Serves requests s stages k := by
  induction stages generalizing s requests k with
  | nil =>
    obtain ⟨rfl,rfl⟩ := serving_nil h hwaiting
    have hnone : s.outgoing = [] := houtgoing
    exact ⟨rfl,rfl,[],by rw [hnone]; rfl,rfl⟩
  | cons a stages ih =>
    obtain ⟨⟨hsmooth,hroom⟩,hlater⟩ := hundisturbed
    have hnext := fun {requests' k' offered}
        (hserving : Serving requests' (pathStep s.path a).1 stages k')
        (hstep : ServesStep requests requests' s a k k' offered) =>
      serves_cons hstep (ih (by rw [node_path]; exact hserving) hlater hwaiting houtgoing)
    cases a with
    | receive frame =>
      exact hnext (serving_received h hsmooth) (quiet_step rfl rfl rfl rfl)
    | frame now =>
      obtain ⟨requests',k',offered,hserving,hstep⟩ := frame_step h hroom
      exact hnext hserving hstep
    | tick now =>
      have hsame : (isotpRxTick s.path.receiver now).1 = s.path.receiver := by
        have hintime : rxLate s.path.receiver now = false := hsmooth
        rw [rx_tick_eq,hintime]
        rfl
      exact hnext (serving_same h rfl rfl hsame) (quiet_step rfl rfl rfl rfl)
    | begin now => exact hnext (serving_same h rfl rfl rfl) (quiet_step rfl rfl rfl rfl)
    | poll now => exact hnext (serving_same h rfl rfl rfl) (quiet_step rfl rfl rfl rfl)
    | send answers =>
      exact hnext (serving_same h rfl rfl rfl) (quiet_step rfl rfl (List.take_append_drop _ _) rfl)
    | clearReset => exact hnext (serving_same h rfl rfl rfl) (quiet_step rfl rfl rfl rfl)

end Node

section Runtime
variable {μ : Type} {rt : UdsRuntime μ}

theorem fed_tuned {rx : IsoTpRx} (h : Tuned rx) (frame : IsoTpCanFrame) (now : UInt32) :
    Tuned (fed rx frame now) := by
  unfold fed
  split
  · exact tuned_side feed_side h
  · exact h

theorem path_tuned {s : ReceivePath μ} (h : Tuned s.receiver) (a : Stage) :
    Tuned (pathStep s a).1.receiver := by
  cases a with
  | frame now =>
    dsimp only [pathStep]
    split
    · exact h
    · exact fed_tuned h _ _
  | tick now => exact tuned_side tick_side h
  | _ => exact h

theorem traffic_step (h : Settled rt) (a : Stage) :
    trafficStep rt a = ((stageRuntime rt a).1,framesSent rt a) := by
  rw [trafficStep,h.initialized]
  rfl

theorem run_tuned (h : Settled rt) (ht : Tuned rt.isotpRx) (stages : List Stage) :
    Settled (run trafficStep rt stages).1 ∧ Tuned (run trafficStep rt stages).1.isotpRx := by
  induction stages generalizing rt with
  | nil => exact ⟨h,ht⟩
  | cons a stages ih =>
    obtain ⟨_,_,hview,_⟩ := Reception.stage_path h.receiving h.initialized a
    rw [run_cons,traffic_step h a]
    refine ih (stage_settled h a) ?_
    have hreceiver := congrArg ReceivePath.receiver hview
    show Tuned (view (stageRuntime rt a).1).receiver
    rw [hreceiver]
    exact path_tuned ht a

theorem along_node (h : Settled rt) (stages : List Stage)
    (hall : Along trafficStep (fun rt a => Undisturbed (nodeView rt) a) rt stages) :
    Along nodeStep Undisturbed (nodeView rt) stages := by
  induction stages generalizing rt with
  | nil => trivial
  | cons a stages ih =>
    obtain ⟨hfirst,hlater⟩ := hall
    rw [traffic_step h a] at hlater
    refine ⟨hfirst,?_⟩
    rw [← (stage_traffic h a).1]
    exact ih (stage_settled h a) hlater

theorem run_inputs (h : Settled rt) (stages : List Stage) :
    (run inputStep rt stages).2 = (run pathInputs (view rt) stages).2 := by
  induction stages generalizing rt with
  | nil => rfl
  | cons a stages ih =>
    obtain ⟨_,_,hview,hrequests⟩ := Reception.stage_path h.receiving h.initialized a
    have hstep : inputStep rt a = ((stageRuntime rt a).1,serverInputs (requestsHandled rt a) a) := by
      rw [inputStep,h.initialized]
      rfl
    rw [run_cons,run_cons,hstep,ih (stage_settled h a),hview,hrequests]
    rfl

/-- After any traffic that has left the queues empty, requests whose frames
arrive one request after the other are what the server handles, in this order;
the bus carries what a server that handles one request at a time replies at
once, and that is the state it ends in. -/
theorem served_one_by_one (callbacks : Option (Download.UdsDownloadCallbacks μ)) (memory : μ)
    (now : UInt32) (before stages : List Stage) (requests : List (List UInt8))
    (hlengths : ∀ p ∈ requests, 1 ≤ p.length ∧ p.length ≤ 4095)
    (hframes : (stages.filterMap received).filter own = requests.flatMap requestFrames)
    (hidle : let rt := (run trafficStep (canopenReferenceUdsInit callbacks memory true now) before).1
      waitingFrames rt.can = [] ∧ TxQueue.waiting rt.can = [])
    (hundisturbed :
      let rt := (run trafficStep (canopenReferenceUdsInit callbacks memory true now) before).1
      Along trafficStep (fun rt a => Undisturbed (nodeView rt) a) rt stages)
    (hend : let rt := (run trafficStep (canopenReferenceUdsInit callbacks memory true now) before).1
      let final := (run trafficStep rt stages).1
      waitingFrames final.can = [] ∧ TxQueue.waiting final.can = []) :
    let rt := (run trafficStep (canopenReferenceUdsInit callbacks memory true now) before).1
    let traffic := run trafficStep rt stages
    let inputs := (run inputStep rt stages).2
    let service := run serviceStep rt.application inputs
    inputs.filterMap asked = requests ∧ traffic.2 = service.2 ∧
      traffic.1.application = service.1 := by
  intro rt traffic inputs service
  obtain ⟨hsettled,htuned⟩ := run_tuned (init_settled callbacks memory now) ⟨rfl,rfl,rfl⟩ before
  obtain ⟨hview,hsent⟩ := run_traffic hsettled stages
  have hnone : (nodeView rt).outgoing = [] := by
    show (TxQueue.waiting rt.can).map frameContent = []
    rw [hidle.2]
    rfl
  have hserving : Serving requests (nodeView rt).path stages 0 := by
    refine ⟨hlengths,htuned,?_,?_⟩
    · cases requests with
      | nil => rfl
      | cons p later => exact ⟨Nat.zero_le _,Or.inl rfl⟩
    · show (waitingFrames rt.can).filter own++_ = _
      rw [hidle.1,hframes,left_start]
      rfl
  have hserves := node_serves hserving (along_node hsettled stages hundisturbed)
    ((congrArg (fun s => s.path.waiting) hview).symm.trans hend.1)
    ((congrArg DiagnosticNode.outgoing hview).symm.trans
      ((congrArg (List.map frameContent) hend.2)))
  have hinputs : inputs = (run pathInputs (nodeView rt).path stages).2 := run_inputs hsettled stages
  obtain ⟨later,htraffic,hreplies⟩ := hserves.traffic
  refine ⟨hinputs ▸ hserves.asked,?_,?_⟩
  · show traffic.2 = (run serviceStep rt.application inputs).2
    rw [hinputs]
    refine hsent.trans ?_
    rw [htraffic,hnone]
    exact hreplies.symm
  · show traffic.1.application = (run serviceStep rt.application inputs).1
    rw [hinputs]
    exact (congrArg (fun s => s.path.application) hview).trans hserves.application.symm

end Runtime

def presentAndIdentity : List (List UInt8) :=
  [[0x3E,0x00],[0x22,0xF1,0x80,0xF1,0x81,0xF1,0x82,0xF1]]

def serialStages : List Stage :=
  [.begin 1,.receive (wire udsRxCanId [0x3E,0x00] 0),.frame 1,.poll 1,.tick 1,.begin 2,
    .receive (wire udsRxCanId [0x22,0xF1,0x80,0xF1,0x81,0xF1,0x82,0xF1] 0),
    .receive (filledFrame udsRxCanId [0x30,0,0]),.frame 2,.frame 2,.tick 2,
    .send [.accepted,.noMailbox],.begin 3,
    .receive (wire udsRxCanId [0x22,0xF1,0x80,0xF1,0x81,0xF1,0x82,0xF1] 1),.frame 3,.tick 3,
    .send [.accepted,.accepted]]

theorem served_one_by_one_serial :
    let rt := (run trafficStep (canopenReferenceUdsInit none () true 0) [.begin 0,.frame 0]).1
    let inputs := (run inputStep rt serialStages).2
    let service := run serviceStep rt.application inputs
    inputs.filterMap asked = presentAndIdentity ∧ (run trafficStep rt serialStages).2 = service.2 ∧
      (run trafficStep rt serialStages).1.application = service.1 :=
  served_one_by_one none () 0 [.begin 0,.frame 0] serialStages presentAndIdentity (by decide)
    (by decide +kernel) (by decide +kernel) (by decide +kernel) (by decide +kernel)

end CanopenReference.SequentialService
