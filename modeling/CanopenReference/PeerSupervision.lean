import CanopenReference.PeerSnapshot

/-!
# The adapter as a supervisor of one peer

The adapter runs a master with a table of nodes, but only its peer is ever
configured. What reaches the event handler and the stack, and every field of the
snapshot, is what a supervisor of that one peer calls for.
-/

set_option autoImplicit false

namespace CanopenReference.PeerSupervision
open Library.Runs Library.History NmtMaster Cia302 PeerSnapshot

section Stack

def stackCommand (frame : Cia302Frame) : Option (CoNmtCommand × UInt8) :=
  let command := frame.data.getD 0 0
  let nodeId := frame.data.getD 1 0
  if frame.canId ≠ cia302NmtCanId ∨ frame.dlc ≠ 2 ∨ cia302MaxNodes < nodeId.toNat then none
  else if command = cia302NmtStart then some (.enterOperational,nodeId)
  else if command = cia302NmtStop then some (.enterStopped,nodeId)
  else if command = cia302NmtPreop then some (.enterPreOperational,nodeId)
  else if command = cia302NmtResetNode then some (.resetNode,nodeId)
  else if command = cia302NmtResetCommunication then some (.resetCommunication,nodeId)
  else none

theorem send_gives (nmt : CoNmt) (frame : Cia302Frame) :
    cia302ReferenceSend nmt frame =
      match nmt, stackCommand frame with
      | some sendCommand, some (command,nodeId) => sendCommand command nodeId
      | _, _ => false := by
  cases nmt with
  | none => rfl
  | some sendCommand =>
    unfold cia302ReferenceSend stackCommand
    dsimp only
    split
    · rfl
    split
    · rfl
    split
    · rfl
    split
    · rfl
    split
    · rfl
    split <;> rfl

end Stack

inductive Report where
  | event (event : Cia302Event)
  | command (command : CoNmtCommand) (nodeId : UInt8)
  deriving DecidableEq

def reportsOf (stack : Bool) : Output → List Report
  | .event event => [.event event]
  | .send frame _ =>
    match stack, stackCommand frame with
    | true, some (command,nodeId) => [.command command nodeId]
    | _, _ => []

section Lifecycle
variable (config : Cia302Config)

inductive Lifecycle where
  | init (masterNodeId : UInt8) (nowMs : UInt32)
  | deinit
  | call (call : AdapterCall)

def zeroMaster : Cia302NmtMaster :=
  { cia302NmtMasterInit 0 false false with bootTimeMs := 0 }

def cia302Deinit : Cia302Adapter := ⟨zeroSnapshot,zeroMaster⟩

def outputs (a : Cia302Adapter) : AdapterCall → List Output
  | .preProcess (some ⟨state,true⟩) nowMs =>
    if a.snapshot.enabled then
      (cia302NmtMasterReceive a.master (cia302HeartbeatBase+config.peerNodeId.toUInt16)
        (some state) 1 nowMs).2
    else []
  | .preProcess _ _ => []
  | .process nmt nowMs =>
    if a.snapshot.enabled then
      (cia302NmtMasterProcess a.master
        (fun node => cia302ReferenceSend nmt (startFrame node)) nowMs).2
    else []

def stackThere : AdapterCall → Bool
  | .preProcess _ _ => false
  | .process nmt _ => nmt.isSome

def lifecycleStep (a : Cia302Adapter) : Lifecycle → Cia302Adapter × List Report
  | .init masterNodeId nowMs => (cia302Init config masterNodeId nowMs,[])
  | .deinit => (cia302Deinit,[])
  | .call call =>
    ((adapterStep config a call).1,(outputs config a call).flatMap (reportsOf (stackThere call)))

end Lifecycle

inductive Condition where
  | awaited
  | present
  | lost
  deriving DecidableEq

/-- The supervision of one peer: when it was last heard, what it is held to be,
and what has been told of it. -/
structure Watch where
  startedAt : UInt32
  lastHeard : UInt32
  condition : Condition
  announced : Bool
  complained : Bool
  log : List Cia302Event

section Watching
variable (config : Cia302Config)

def watchFrom (nowMs : UInt32) : Watch := ⟨nowMs,nowMs,.awaited,false,false,[]⟩

def note (w : Watch) (type : Cia302EventType) (nodeId state : UInt8) (nowMs : UInt32) : Watch :=
  { w with log := w.log++[⟨type,nodeId,state,nowMs⟩] }

def hear (w : Watch) (state : UInt8) (nowMs : UInt32) : Watch :=
  note
    { w with
      lastHeard := nowMs
      condition := if (heartbeatState state).isSome then .present else w.condition }
    (heardEvent state) config.peerNodeId state nowMs

def overdueAt (w : Watch) (nowMs : UInt32) : Bool :=
  config.heartbeatTimeoutMs ≠ 0 ∧ config.heartbeatTimeoutMs.toUInt32 < nowMs-w.lastHeard ∧
    w.condition ≠ .lost

def expire (w : Watch) (nowMs : UInt32) : Watch :=
  if overdueAt config w nowMs then
    note { w with condition := .lost } .heartbeatTimeout config.peerNodeId 0 nowMs
  else w

/-- A peer that is not there at the end of the boot time is told once, the first
time it is there as well. -/
def conclude (w : Watch) (nowMs : UInt32) : Watch :=
  if w.condition ≠ .present ∧ config.bootTimeoutMs ≠ 0 ∧ !w.complained ∧
      config.bootTimeoutMs < nowMs-w.startedAt then
    note { w with complained := true } .bootTimeout config.peerNodeId 0 nowMs
  else if !w.announced ∧ w.condition = .present then
    note { w with announced := true } .networkReady 0 0 nowMs
  else w

def look (w : Watch) (nowMs : UInt32) : Watch := conclude config (expire config w nowMs) nowMs

/-- The command that goes with the readiness. -/
def starts (w : Watch) (stack : Bool) (nowMs : UInt32) : List Report :=
  if (look config w nowMs).announced ∧ !w.announced ∧ config.autoStart ∧ stack then
    [.command .enterOperational config.peerNodeId]
  else []

def watched (w : Watch) : AdapterCall → Watch × List Report
  | .preProcess (some ⟨state,true⟩) nowMs => (hear config w state nowMs,[])
  | .preProcess _ _ => (w,[])
  | .process nmt nowMs => (look config w nowMs,starts config w nmt.isSome nowMs)

def news (w w' : Watch) : List Cia302Event := w'.log.drop w.log.length

inductive Supervisor where
  | off
  | idle
  | watching (watch : Watch)

def supervise (s : Supervisor) : Lifecycle → Supervisor × List Report
  | .init masterNodeId nowMs =>
    (if masterNodeId = config.peerNodeId then .idle else .watching (watchFrom nowMs),[])
  | .deinit => (.off,[])
  | .call call =>
    match s with
    | .off => (.off,[])
    | .idle => (.idle,[])
    | .watching w =>
      (.watching (watched config w call).1,
        (news w (watched config w call).1).map .event++(watched config w call).2)

end Watching

section View
variable (config : Cia302Config)

def countOf (type : Cia302EventType) (log : List Cia302Event) : UInt32 :=
  UInt32.ofNat (log.countP fun e => e.type = type)

def saidOf (e : Cia302Event) : Option UInt8 :=
  if e.nodeId = config.peerNodeId then some e.state else none

def snapshotFrom (announced : Bool) (log : List Cia302Event) : Cia302Snapshot where
  enabled := true
  running := true
  networkReady := announced
  monitoredNodeId := config.peerNodeId
  monitoredNodeState := (latest (saidOf config) log).getD 0
  eventCountBootup := countOf .bootup log
  eventCountHeartbeat := countOf .heartbeat log
  eventCountHeartbeatTimeout := countOf .heartbeatTimeout log
  eventCountBootTimeout := countOf .bootTimeout log
  eventCountNetworkReady := countOf .networkReady log
  eventCountInvalidFrame := countOf .invalidFrame log
  lastEventTimestampMs := (latest (fun e => some e.timestampMs) log).getD 0
  lastEventType := (latest (fun e => some (eventTypeCode e.type)) log).getD 0
  lastEventNodeId := (latest (fun e => some e.nodeId) log).getD 0
  lastEventState := (latest (fun e => some e.state) log).getD 0

def snapshotOf : Supervisor → Cia302Snapshot
  | .off => zeroSnapshot
  | .idle => snapshotFrom config false []
  | .watching w => snapshotFrom config w.announced w.log

theorem count_concat (type : Cia302EventType) (log : List Cia302Event) (e : Cia302Event) :
    countOf type (log++[e]) = if e.type = type then countOf type log+1 else countOf type log := by
  unfold countOf
  rw [List.countP_append,List.countP_singleton]
  by_cases h : e.type = type
  · rw [if_pos h,if_pos (decide_eq_true h),UInt32.ofNat_add]
    rfl
  · rw [if_neg h,if_neg (by simpa using h),Nat.add_zero]

theorem event_counted (announced : Bool) (log : List Cia302Event) (e : Cia302Event) :
    cia302ReferenceEvent config (snapshotFrom config announced log) e =
      snapshotFrom config (announced || e.type = .networkReady) (log++[e]) := by
  obtain ⟨type,nodeId,state,timestampMs⟩ := e
  have hsaid : ((saidOf config ⟨type,nodeId,state,timestampMs⟩).or
      (latest (saidOf config) log)).getD 0 =
        if nodeId = config.peerNodeId then state else (latest (saidOf config) log).getD 0 := by
    unfold saidOf
    split <;> rfl
  unfold cia302ReferenceEvent snapshotFrom
  simp only [count_concat,latest_concat,hsaid]
  cases type <;> simp

theorem events_counted (announced : Bool) (log events : List Cia302Event) :
    delivered config (snapshotFrom config announced log) (events.map .event) =
      snapshotFrom config (announced || events.any fun e => e.type = .networkReady)
        (log++events) := by
  induction events generalizing announced log with
  | nil => simp [delivered]
  | cons e events ih =>
    have hfirst : delivered config (snapshotFrom config announced log) ((e::events).map .event) =
        delivered config (cia302ReferenceEvent config (snapshotFrom config announced log) e)
          (events.map .event) := rfl
    rw [hfirst,event_counted,ih,List.any_cons,Bool.or_assoc,List.append_assoc,List.singleton_append]

theorem commands_ignored (snapshot : Cia302Snapshot) (outputs sends : List Output)
    (h : ∀ o ∈ sends, ∃ frame accepted, o = .send frame accepted) :
    delivered config snapshot (outputs++sends) = delivered config snapshot outputs := by
  induction sends using List.reverseRecOn with
  | nil => rw [List.append_nil]
  | append_singleton sends o ih =>
    obtain ⟨frame,accepted,rfl⟩ := h o (by simp)
    rw [← List.append_assoc,delivered,List.foldl_append]
    exact ih fun x hx => h x (by simp [hx])

end View

section Table
variable {master : Cia302NmtMaster} {node : NodeId}

theorem filter_only {p : NodeId → Bool} (hnode : node ∈ nodeIds)
    (h : ∀ n, n ≠ node → p n = false) : nodeIds.filter p = if p node then [node] else [] := by
  have hp : nodeIds.filter p = (nodeIds.filter (· = node)).filter p := by
    rw [List.filter_filter]
    refine List.filter_congr fun n _ => ?_
    by_cases hn : n = node
    · simp [hn]
    · simp [hn,h n hn]
  rw [hp,List.filter_eq,List.count_eq_one_of_mem nodeIds_nodup hnode]
  simp [List.filter_cons]

def Only (master : Cia302NmtMaster) (node : NodeId) : Prop :=
  node ∈ nodeIds ∧ ∀ n, n ≠ node → (master.nodes n).assigned = false

variable (h : Only master node)
include h

theorem only_missing (n : NodeId) (hn : n ≠ node) : missing (master.nodes n) = false := by
  simp [missing,h.2 n hn]

theorem only_overdue (nowMs : UInt32) (n : NodeId) (hn : n ≠ node) :
    overdue nowMs (master.nodes n) = false := by
  simp [overdue,h.2 n hn]

theorem only_ready : mandatoryNodesReady master = !missing (master.nodes node) := by
  rw [mandatoryNodesReady,Bool.eq_iff_iff,List.all_eq_true]
  refine ⟨fun hall => hall node h.1,fun hnode n _ => ?_⟩
  by_cases hn : n = node
  · rw [hn]
    exact hnode
  · rw [only_missing h n hn]
    rfl

theorem only_assigned : anyAssigned master = (master.nodes node).assigned := by
  rw [anyAssigned,Bool.eq_iff_iff,List.any_eq_true]
  refine ⟨fun hany => ?_,fun hnode => ⟨node,h.1,hnode⟩⟩
  obtain ⟨n,-,hassigned⟩ := hany
  by_cases hn : n = node
  · rw [← hn]
    exact hassigned
  · rw [h.2 n hn] at hassigned
    cases hassigned

theorem only_first : nodeIds.find? (fun n => missing (master.nodes n)) =
    if missing (master.nodes node) then some node else none := by
  rw [← List.head?_filter,filter_only h.1 fun n hn => only_missing h n hn]
  split <;> rfl

theorem only_timeouts (nowMs : UInt32) : timeouts master nowMs =
    if overdue nowMs (master.nodes node) then
      emitEvent (atNow master nowMs) .heartbeatTimeout (idOf node) 0 else [] := by
  rw [timeouts,filter_only h.1 fun n hn => only_overdue h nowMs n hn]
  split
  · rw [List.flatMap_singleton]
  · rfl

theorem only_starts (accepts : NodeId → Bool) (hassigned : (master.nodes node).assigned = true) :
    autoStarts master accepts = if (master.nodes node).autoStart then
      (cia302NmtMasterRequest master cia302NmtStart (idOf node) (accepts node)).2 else [] := by
  rw [autoStarts,filter_only h.1 fun n hn => by simp [h.2 n hn]]
  cases hauto : (master.nodes node).autoStart with
  | true => simp [hassigned]
  | false => simp

theorem only_supervised (nowMs : UInt32) : supervisedMaster master nowMs =
    setNode (atNow master nowMs) node (supervised nowMs (master.nodes node)) := by
  have hnodes : ∀ n, (if n ∈ nodeIds then supervised nowMs (master.nodes n) else master.nodes n) =
      if n = node then supervised nowMs (master.nodes node) else master.nodes n := by
    intro n
    by_cases hn : n = node
    · rw [if_pos hn,hn,if_pos h.1]
    · rw [if_neg hn,supervised,only_overdue h nowMs n hn,if_neg Bool.false_ne_true,ite_self]
  unfold supervisedMaster setNode
  simp only [hnodes]
  rfl

end Table

section Refinement
variable (config : Cia302Config)

def conditionOf : Cia302NodeState → Condition
  | .waitingBootup => .awaited
  | .timedOut => .lost
  | _ => .present

theorem condition_lost (state : Cia302NodeState) :
    conditionOf state = .lost ↔ state = .timedOut := by
  cases state <;> simp [conditionOf]

theorem condition_present (state : Cia302NodeState) :
    conditionOf state = .present ↔ ¬(state = .waitingBootup ∨ state = .timedOut) := by
  cases state <;> simp [conditionOf]

def peerEntry (lastHeard : UInt32) (state : Cia302NodeState) : Cia302Node :=
  ⟨true,true,config.autoStart,config.heartbeatTimeoutMs,lastHeard,state⟩

structure Holds (w : Watch) (master : Cia302NmtMaster) : Prop where
  running : master.running = true
  send : master.send = true
  event : master.event = true
  startup : master.nmtStartup = 1
  bootTime : master.bootTimeMs = config.bootTimeoutMs
  startedAt : master.startedAtMs = w.startedAt
  announced : master.networkReady = w.announced
  complained : master.bootTimeoutReported = w.complained
  only : Only master (peerNode config)
  entry : ∃ state, conditionOf state = w.condition ∧
    master.nodes (peerNode config) = peerEntry config w.lastHeard state

structure Idle (master : Cia302NmtMaster) : Prop where
  running : master.running = true
  announced : master.networkReady = false
  empty : ∀ n, (master.nodes n).assigned = false

def Represents : Supervisor → Cia302NmtMaster → Prop
  | .off, _ => True
  | .idle, master => Idle master
  | .watching w, master => Holds config w master

structure Refines (s : Supervisor) (a : Cia302Adapter) : Prop where
  snapshot : a.snapshot = snapshotOf config s
  master : Represents config s a.master

def settledOutputs (w w' : Watch) (accepts : NodeId → Bool) : List Output :=
  (news w w').map .event++
    if w'.announced ∧ !w.announced ∧ config.autoStart then
      [.send (startFrame (peerNode config)) (accepts (peerNode config))] else []

variable {config} {w : Watch} {master : Cia302NmtMaster} {nowMs : UInt32}

theorem receive_peer (state : UInt8) (hrun : master.running = true) :
    cia302NmtMasterReceive master (cia302HeartbeatBase+config.peerNodeId.toUInt16) (some state) 1
        nowMs =
      if (master.nodes (peerNode config)).assigned then
        (setNode (atNow master nowMs) (peerNode config)
          (refreshed nowMs (master.nodes (peerNode config)) state),
          emitEvent (atNow master nowMs) (heardEvent state) config.peerNodeId state)
      else (atNow master nowMs,[]) := by
  obtain ⟨hcan,hid⟩ := peer_frame config
  have hnode := (peerNode config).isLt
  have hlow : ¬cia302HeartbeatBase+config.peerNodeId.toUInt16 < cia302HeartbeatBase := by
    rw [UInt16.not_lt,UInt16.le_iff_toNat_le,hcan]
    exact Nat.le_add_right _ _
  have hframe : ¬((1 : UInt8) ≠ 1 ∨
      cia302HeartbeatBase+config.peerNodeId.toUInt16 < cia302HeartbeatBase ∨
      cia302HeartbeatBase.toNat+cia302MaxNodes <
        (cia302HeartbeatBase+config.peerNodeId.toUInt16).toNat) := by
    rintro (h | h | h)
    · exact h rfl
    · exact hlow h
    · rw [hcan] at h
      omega
  have hbranches := heard_branches (atNow master nowMs) (peerNode config) nowMs
    config.peerNodeId state
  have hpeer : nodeOf config.peerNodeId = peerNode config := rfl
  have hrunning : ¬(!master.running) = true := by simp [hrun]
  unfold atNow at hbranches
  unfold cia302NmtMasterReceive atNow
  simp only [if_neg hrunning,if_neg hframe,hid,hpeer]
  by_cases hassigned : (master.nodes (peerNode config)).assigned = true
  · rw [if_neg (by simp [hassigned]),if_pos hassigned]
    exact hbranches
  · rw [if_pos (by simp [hassigned]),if_neg hassigned]

theorem hear_holds (h : Holds config w master) (state : UInt8) :
    let received := cia302NmtMasterReceive master
      (cia302HeartbeatBase+config.peerNodeId.toUInt16) (some state) 1 nowMs
    Holds config (hear config w state nowMs) received.1 ∧
      received.2 = [.event ⟨heardEvent state,config.peerNodeId,state,nowMs⟩] := by
  obtain ⟨old,hold,hentry⟩ := h.entry
  have hassigned : (master.nodes (peerNode config)).assigned = true := by
    rw [hentry]
    rfl
  intro received
  have hreceived : received = _ := receive_peer state h.running
  rw [if_pos hassigned] at hreceived
  rw [hreceived]
  refine ⟨⟨h.running,h.send,h.event,h.startup,h.bootTime,h.startedAt,h.announced,h.complained,
    ⟨h.only.1,fun n hn => ?_⟩,(heartbeatState state).getD old,?_,?_⟩,if_pos h.event⟩
  · show ((setNode _ _ _).nodes n).assigned = false
    rw [setNode_other _ _ _ hn]
    exact h.only.2 n hn
  · show _ = if (heartbeatState state).isSome then Condition.present else w.condition
    cases hs : heartbeatState state with
    | none => exact hold
    | some next =>
      obtain ⟨hwaiting,hlost⟩ := byte_state hs
      exact (condition_present next).mpr (not_or.mpr ⟨hwaiting,hlost⟩)
  · rw [setNode_self,hentry]
    rfl

theorem expire_holds (h : Holds config w master) :
    Holds config (expire config w nowMs) (supervisedMaster master nowMs) ∧
      timeouts master nowMs = (news w (expire config w nowMs)).map .event := by
  obtain ⟨old,hold,hentry⟩ := h.entry
  have hlate : overdue nowMs (master.nodes (peerNode config)) = overdueAt config w nowMs := by
    rw [hentry,overdue,overdueAt,← hold]
    simp [peerEntry,condition_lost]
  rw [only_supervised h.only,only_timeouts h.only,peer_id,hlate,supervised,hlate,expire]
  cases overdueAt config w nowMs with
  | false =>
    simp only [if_neg Bool.false_ne_true,news,List.drop_length,List.map_nil,and_true]
    refine ⟨h.running,h.send,h.event,h.startup,h.bootTime,h.startedAt,h.announced,h.complained,
      ⟨h.only.1,fun n hn => ?_⟩,old,hold,(setNode_self _ _ _).trans hentry⟩
    rw [setNode_other _ _ _ hn]
    exact h.only.2 n hn
  | true =>
    simp only [if_true]
    refine ⟨⟨h.running,h.send,h.event,h.startup,h.bootTime,h.startedAt,h.announced,h.complained,
      ⟨h.only.1,fun n hn => ?_⟩,.timedOut,rfl,?_⟩,?_⟩
    · rw [setNode_other _ _ _ hn]
      exact h.only.2 n hn
    · rw [setNode_self,hentry]
      rfl
    · rw [news,note,List.drop_left,emitEvent,
        if_pos (show (atNow master nowMs).event = true from h.event)]
      rfl

theorem entry_missing (lastHeard : UInt32) (state : Cia302NodeState) :
    missing (peerEntry config lastHeard state) = true ↔ conditionOf state ≠ .present := by
  rw [ne_eq,condition_present,not_not]
  simp [missing,peerEntry]

theorem peer_starts (h : Holds config w master) (accepts : NodeId → Bool) :
    (if master.nmtStartup &&& ((1 : UInt32) <<< 3) = 0 then autoStarts master accepts else []) =
      if config.autoStart then [.send (startFrame (peerNode config)) (accepts (peerNode config))]
      else [] := by
  obtain ⟨old,hold,hentry⟩ := h.entry
  have hassigned : (master.nodes (peerNode config)).assigned = true := by
    rw [hentry]
    rfl
  have hid : ¬cia302MaxNodes < (idOf (peerNode config)).toNat := by
    rw [peer_id,← peer_val]
    exact Nat.not_lt.mpr (Nat.le_of_lt_succ (peerNode config).isLt)
  have hrequest : ¬((!master.send) = true ∨ (!commandValid cia302NmtStart) = true ∨
      cia302MaxNodes < (idOf (peerNode config)).toNat) := by
    rw [h.send]
    exact not_or.mpr ⟨by decide,not_or.mpr ⟨by decide,hid⟩⟩
  rw [h.startup,if_pos (by decide),only_starts h.only accepts hassigned,hentry,
    cia302NmtMasterRequest,if_neg hrequest]
  rfl

theorem settle_holds (h : Holds config w master) (hnow : master.nowMs = nowMs)
    (accepts : NodeId → Bool) :
    Holds config (conclude config w nowMs) (settle master accepts nowMs).1 ∧
      (settle master accepts nowMs).2 =
        settledOutputs config w (conclude config w nowMs) accepts := by
  obtain ⟨old,hold,hentry⟩ := h.entry
  have hmissing : missing (master.nodes (peerNode config)) = true ↔ w.condition ≠ .present := by
    rw [hentry,← hold]
    exact entry_missing w.lastHeard old
  have hassigned : (master.nodes (peerNode config)).assigned = true := by
    rw [hentry]
    rfl
  have hemit : ∀ type nodeId state, emitEvent master type nodeId state =
      [.event ⟨type,nodeId,state,nowMs⟩] := by
    intro type nodeId state
    rw [emitEvent,if_pos h.event,hnow]
  have hquiet : Holds config w master ∧ ([] : List Output) =
      settledOutputs config w w accepts := by
    refine ⟨h,?_⟩
    rw [settledOutputs,news,List.drop_length,if_neg]
    · rfl
    · rintro ⟨hnew,hold,-⟩
      rw [hnew] at hold
      cases hold
  have hready : mandatoryNodesReady master = true ↔ w.condition = .present := by
    rw [only_ready h.only,Bool.not_eq_true',← Bool.not_eq_true,hmissing,not_not]
  have hcomplains : ((!mandatoryNodesReady master) = true ∧ master.bootTimeMs ≠ 0 ∧
        (!master.bootTimeoutReported) = true ∧ master.bootTimeMs < nowMs-master.startedAtMs) ↔
      (w.condition ≠ .present ∧ config.bootTimeoutMs ≠ 0 ∧ (!w.complained) = true ∧
        config.bootTimeoutMs < nowMs-w.startedAt) := by
    rw [h.bootTime,h.complained,h.startedAt,Bool.not_eq_true',← Bool.not_eq_true,hready]
  have hannounces : ((!master.networkReady) = true ∧ anyAssigned master = true ∧
        mandatoryNodesReady master = true) ↔
      ((!w.announced) = true ∧ w.condition = .present) := by
    rw [h.announced,only_assigned h.only,hready]
    exact and_congr_right fun _ => and_iff_right hassigned
  unfold settle conclude
  dsimp only
  by_cases hlate : w.condition ≠ .present ∧ config.bootTimeoutMs ≠ 0 ∧ (!w.complained) = true ∧
      config.bootTimeoutMs < nowMs-w.startedAt
  · rw [if_pos (hcomplains.mpr hlate),if_pos hlate,only_first h.only,if_pos (hmissing.mpr hlate.1)]
    refine ⟨⟨h.running,h.send,h.event,h.startup,h.bootTime,h.startedAt,h.announced,rfl,h.only,
      old,hold,hentry⟩,?_⟩
    rw [settledOutputs,news,note,List.drop_left,if_neg]
    · show emitEvent master .bootTimeout (idOf (peerNode config)) 0 = _
      rw [hemit,peer_id]
      rfl
    · rintro ⟨hnew,hfirst,-⟩
      change w.announced = true at hnew
      rw [hnew] at hfirst
      cases hfirst
  rw [if_neg (fun hc => hlate (hcomplains.mp hc)),if_neg hlate]
  by_cases hnew : (!w.announced) = true ∧ w.condition = .present
  · rw [if_pos (hannounces.mpr hnew),if_pos hnew]
    refine ⟨⟨h.running,h.send,h.event,h.startup,h.bootTime,h.startedAt,rfl,h.complained,h.only,
      old,hold,hentry⟩,?_⟩
    have hauto : ((note { w with announced := true } .networkReady 0 0 nowMs).announced = true ∧
        (!w.announced) = true ∧ config.autoStart = true) ↔ config.autoStart = true :=
      ⟨fun hc => hc.2.2,fun hc => ⟨rfl,hnew.1,hc⟩⟩
    rw [settledOutputs,if_congr hauto rfl rfl,news,note,List.drop_left,hemit,peer_starts h accepts]
    rfl
  · rw [if_neg (fun hc => hnew (hannounces.mp hc)),if_neg hnew]
    exact hquiet

theorem expire_log (w : Watch) (nowMs : UInt32) :
    (expire config w nowMs).log = w.log++news w (expire config w nowMs) ∧
      (expire config w nowMs).announced = w.announced := by
  rw [expire]
  split
  · exact ⟨(congrArg _ List.drop_left).symm,rfl⟩
  · rw [news,List.drop_length,List.append_nil]
    exact ⟨rfl,rfl⟩

theorem conclude_log (w : Watch) (nowMs : UInt32) :
    (conclude config w nowMs).log = w.log++news w (conclude config w nowMs) := by
  rw [conclude]
  split
  · exact (congrArg _ List.drop_left).symm
  split
  · exact (congrArg _ List.drop_left).symm
  · rw [news,List.drop_length,List.append_nil]

theorem look_log (w : Watch) (nowMs : UInt32) :
    (look config w nowMs).log = w.log++news w (look config w nowMs) ∧
      news w (look config w nowMs) = news w (expire config w nowMs)++
        news (expire config w nowMs) (look config w nowMs) := by
  have hlog : (look config w nowMs).log = w.log++(news w (expire config w nowMs)++
      news (expire config w nowMs) (look config w nowMs)) := by
    rw [look,conclude_log,← List.append_assoc,← (expire_log w nowMs).1]
  have hnews : news w (look config w nowMs) = news w (expire config w nowMs)++
      news (expire config w nowMs) (look config w nowMs) := by
    rw [news,hlog,List.drop_left]
  exact ⟨hlog.trans (congrArg _ hnews.symm),hnews⟩

theorem process_holds (h : Holds config w master) (accepts : NodeId → Bool) :
    Holds config (look config w nowMs) (cia302NmtMasterProcess master accepts nowMs).1 ∧
      (cia302NmtMasterProcess master accepts nowMs).2 =
        settledOutputs config w (look config w nowMs) accepts := by
  obtain ⟨hexpired,htimeouts⟩ := @expire_holds config w master nowMs h
  have hnow : (supervisedMaster master nowMs).nowMs = nowMs := rfl
  obtain ⟨hsettled,houtputs⟩ := settle_holds hexpired hnow accepts
  rw [process_running master accepts nowMs h.running]
  refine ⟨hsettled,?_⟩
  show timeouts master nowMs++(settle (supervisedMaster master nowMs) accepts nowMs).2 = _
  rw [houtputs,htimeouts,settledOutputs,settledOutputs,← List.append_assoc,← List.map_append,
    (expire_log w nowMs).2]
  show (news w (expire config w nowMs)++
    news (expire config w nowMs) (look config w nowMs)).map Output.event++_ = _
  rw [← (look_log w nowMs).2]
  rfl

theorem start_command (stack : Bool) (accepted : Bool) :
    reportsOf stack (.send (startFrame (peerNode config)) accepted) =
      if stack then [.command .enterOperational config.peerNodeId] else [] := by
  cases stack with
  | false => rfl
  | true =>
    have hcommand : stackCommand (startFrame (peerNode config)) =
        some (.enterOperational,idOf (peerNode config)) := by
      have hid : ¬cia302MaxNodes < (idOf (peerNode config)).toNat := by
        rw [peer_id,← peer_val]
        exact Nat.not_lt.mpr (Nat.le_of_lt_succ (peerNode config).isLt)
      exact if_neg (not_or.mpr ⟨not_not.mpr rfl,not_or.mpr ⟨not_not.mpr rfl,hid⟩⟩)
    simp only [reportsOf,hcommand,peer_id,if_true]

theorem event_reports (stack : Bool) (events : List Cia302Event) :
    (events.map Output.event).flatMap (reportsOf stack) = events.map .event := by
  rw [List.flatMap_map]
  exact List.flatMap_pure_eq_map _ _

theorem process_reports (w : Watch) (nmt : CoNmt) (accepts : NodeId → Bool) (nowMs : UInt32) :
    (settledOutputs config w (look config w nowMs) accepts).flatMap (reportsOf nmt.isSome) =
      (news w (look config w nowMs)).map .event++starts config w nmt.isSome nowMs := by
  rw [settledOutputs,List.flatMap_append,event_reports,starts]
  congr 1
  by_cases hnew : (look config w nowMs).announced = true ∧ (!w.announced) = true ∧
      config.autoStart = true
  · rw [if_pos hnew,List.flatMap_singleton,start_command]
    exact if_congr ⟨fun hs => ⟨hnew.1,hnew.2.1,hnew.2.2,hs⟩,fun hall => hall.2.2.2⟩ rfl rfl
  · rw [if_neg hnew,if_neg fun hall => hnew ⟨hall.1,hall.2.1,hall.2.2.1⟩]
    rfl

variable {a : Cia302Adapter}

theorem watching_enabled (h : Refines config (.watching w) a) : a.snapshot.enabled = true := by
  rw [h.snapshot]
  rfl

theorem process_refines (h : Refines config (.watching w) a) (nmt : CoNmt) (nowMs : UInt32) :
    Refines config (.watching (look config w nowMs)) (cia302Process config a nmt nowMs) := by
  have henabled : ¬(!a.snapshot.enabled) = true := by
    rw [watching_enabled h]
    exact Bool.false_ne_true
  have hsends : ∀ node, ∀ o ∈ (if (look config w nowMs).announced = true ∧ (!w.announced) = true ∧
      config.autoStart = true then [Output.send (startFrame node)
        (cia302ReferenceSend nmt (startFrame node))] else []),
      ∃ frame accepted, o = .send frame accepted := by
    intro node o ho
    split at ho
    · exact ⟨_,_,List.mem_singleton.mp ho⟩
    · cases ho
  obtain ⟨hholds,houtputs⟩ := @process_holds config w a.master nowMs h.master
    fun node => cia302ReferenceSend nmt (startFrame node)
  rw [cia302Process,if_neg henabled]
  refine ⟨?_,hholds⟩
  dsimp only
  rw [houtputs,settledOutputs,commands_ignored config _ _ _ (hsends (peerNode config)),h.snapshot]
  dsimp only [snapshotOf]
  rw [events_counted,← (look_log w nowMs).1,hholds.announced,hholds.running]
  rfl

theorem hear_refines (h : Refines config (.watching w) a) (state : UInt8) (nowMs : UInt32) :
    Refines config (.watching (hear config w state nowMs))
      (cia302PreProcess config a (some ⟨state,true⟩) nowMs) := by
  obtain ⟨hholds,houtputs⟩ := @hear_holds config w a.master nowMs h.master state
  have hkind : (heardEvent state = .networkReady) = False := by
    rcases heard_event_kind state with hk | hk | hk <;> simp [hk]
  rw [cia302PreProcess,if_pos ⟨watching_enabled h,rfl⟩]
  refine ⟨?_,hholds⟩
  dsimp only
  rw [houtputs,h.snapshot]
  have hcounted := events_counted config w.announced w.log
    [⟨heardEvent state,config.peerNodeId,state,nowMs⟩]
  simp only [List.any_cons,List.any_nil,hkind,decide_false,Bool.or_false] at hcounted
  exact hcounted

/-- A call of the adapter is a call of the watch. -/
theorem call_refines (h : Refines config (.watching w) a) (call : AdapterCall) :
    Refines config (.watching (watched config w call).1) (adapterStep config a call).1 ∧
      (outputs config a call).flatMap (reportsOf (stackThere call)) =
        (news w (watched config w call).1).map .event++(watched config w call).2 := by
  have henabled := watching_enabled h
  have hquiet : ([] : List Report) = (news w w).map .event++[] := by
    rw [news,List.drop_length]
    rfl
  cases call with
  | preProcess monitored nowMs =>
    rcases monitored with _ | ⟨state,canRxNew⟩
    · exact ⟨h,hquiet⟩
    cases canRxNew with
    | false =>
      refine ⟨?_,hquiet⟩
      show Refines config (.watching w) (cia302PreProcess config a (some ⟨state,false⟩) nowMs)
      rw [pre_idle rfl]
      exact h
    | true =>
      refine ⟨hear_refines h state nowMs,?_⟩
      have houtputs := (@hear_holds config w a.master nowMs h.master state).2
      dsimp only [outputs]
      rw [if_pos henabled,houtputs]
      show [Report.event _] = (List.drop w.log.length (w.log++_)).map Report.event++[]
      rw [List.drop_left]
      rfl
  | process nmt nowMs =>
    refine ⟨process_refines h nmt nowMs,?_⟩
    have houtputs := (@process_holds config w a.master nowMs h.master
      fun node => cia302ReferenceSend nmt (startFrame node)).2
    dsimp only [outputs]
    rw [if_pos henabled,houtputs]
    exact process_reports w nmt _ nowMs

theorem idle_process (h : Idle master) (accepts : NodeId → Bool) :
    Idle (cia302NmtMasterProcess master accepts nowMs).1 ∧
      (cia302NmtMasterProcess master accepts nowMs).2 = [] := by
  have hnode : ∀ n, supervised nowMs (master.nodes n) = master.nodes n := fun n =>
    if_neg (by simp [overdue,h.empty n])
  have hloop : Idle (supervisedMaster master nowMs) := by
    refine ⟨h.running,h.announced,fun n => ?_⟩
    dsimp only [supervisedMaster]
    rw [hnode,ite_self]
    exact h.empty n
  have htimeouts : timeouts master nowMs = [] := by
    have hnobody : nodeIds.filter (fun n => overdue nowMs (master.nodes n)) = [] :=
      List.filter_eq_nil_iff.mpr fun n _ => by simp [overdue,h.empty n]
    rw [timeouts,hnobody]
    rfl
  rw [process_running master accepts nowMs h.running,htimeouts]
  have heffect := settle_effect (supervisedMaster master nowMs) accepts nowMs
  generalize settle (supervisedMaster master nowMs) accepts nowMs = settled at heffect
  cases heffect with
  | quiet => exact ⟨hloop,rfl⟩
  | late node hmissing => simp [missing,hloop.empty node] at hmissing
  | ready _ _ hany =>
    obtain ⟨n,-,hassigned⟩ := List.any_eq_true.mp hany
    rw [hloop.empty n] at hassigned
    cases hassigned

theorem idle_refines (h : Refines config .idle a) (call : AdapterCall) :
    Refines config .idle (adapterStep config a call).1 ∧
      (outputs config a call).flatMap (reportsOf (stackThere call)) = [] := by
  obtain ⟨hsnapshot,hmaster⟩ := h
  have henabled : a.snapshot.enabled = true := by
    rw [hsnapshot]
    rfl
  cases call with
  | preProcess monitored nowMs =>
    rcases monitored with _ | ⟨state,canRxNew⟩
    · exact ⟨⟨hsnapshot,hmaster⟩,rfl⟩
    cases canRxNew with
    | false =>
      refine ⟨?_,rfl⟩
      show Refines config .idle (cia302PreProcess config a (some ⟨state,false⟩) nowMs)
      rw [pre_idle rfl]
      exact ⟨hsnapshot,hmaster⟩
    | true =>
      have hreceived := @receive_peer config a.master nowMs state hmaster.running
      rw [if_neg (by rw [hmaster.empty]; exact Bool.false_ne_true)] at hreceived
      dsimp only [adapterStep,outputs]
      rw [cia302PreProcess,if_pos ⟨henabled,rfl⟩,if_pos henabled,hreceived]
      exact ⟨⟨hsnapshot,hmaster.running,hmaster.announced,hmaster.empty⟩,rfl⟩
  | process nmt nowMs =>
    obtain ⟨hidle,hnothing⟩ := @idle_process a.master nowMs hmaster
      fun node => cia302ReferenceSend nmt (startFrame node)
    dsimp only [adapterStep,outputs]
    rw [cia302Process,if_neg (by rw [henabled]; exact Bool.false_ne_true),if_pos henabled,hnothing]
    refine ⟨⟨?_,hidle⟩,rfl⟩
    dsimp only
    rw [hnothing,hidle.running,hidle.announced,hsnapshot]
    rfl

theorem off_refines (h : Refines config .off a) (call : AdapterCall) :
    Refines config .off (adapterStep config a call).1 ∧
      (outputs config a call).flatMap (reportsOf (stackThere call)) = [] := by
  have hoff : a.snapshot.enabled = false := by
    rw [h.snapshot]
    rfl
  cases call with
  | preProcess monitored nowMs =>
    rcases monitored with _ | ⟨state,canRxNew⟩
    · exact ⟨h,rfl⟩
    dsimp only [adapterStep]
    rw [cia302PreProcess,if_neg fun hc => Bool.false_ne_true (hoff.symm.trans hc.1)]
    refine ⟨h,?_⟩
    cases canRxNew with
    | false => rfl
    | true =>
      dsimp only [outputs]
      rw [if_neg fun hc => Bool.false_ne_true (hoff.symm.trans hc)]
      rfl
  | process nmt nowMs =>
    dsimp only [adapterStep,outputs]
    rw [cia302Process,if_pos (by rw [hoff]; rfl),
      if_neg fun hc => Bool.false_ne_true (hoff.symm.trans hc)]
    exact ⟨h,rfl⟩

theorem init_refines (masterNodeId : UInt8) (nowMs : UInt32) :
    Refines config (if masterNodeId = config.peerNodeId then .idle
      else .watching (watchFrom nowMs)) (cia302Init config masterNodeId nowMs) := by
  let fresh : Cia302NmtMaster :=
    { cia302NmtMasterInit masterNodeId true true with
      bootTimeMs := config.bootTimeoutMs, nmtStartup := 0x01 }
  have hstart : ∀ m : Cia302NmtMaster, m.send = true → m.nmtStartup = 0x01 →
      ¬((!m.send) = true ∨ m.nmtStartup &&& 0x01 = 0) := by
    intro m hsend hstartup
    rw [hsend,hstartup]
    decide
  have hvalid : (!nodeIdValid config.peerNodeId) = false := by rw [config.valid]; rfl
  by_cases hself : masterNodeId = config.peerNodeId
  · have hconfigured : cia302NmtMasterConfigure fresh config.peerNodeId true config.autoStart
        config.heartbeatTimeoutMs = (fresh,false) := if_pos (Or.inr hself.symm)
    have hnodes : (cia302NmtMasterStart fresh nowMs).1.nodes = fun _ => zeroNode := by
      rw [cia302NmtMasterStart,if_neg (hstart fresh rfl rfl)]
      funext n
      exact if_neg fun hc => Bool.false_ne_true hc.2
    have hstarted : (cia302NmtMasterStart fresh nowMs).1.running = true ∧
        (cia302NmtMasterStart fresh nowMs).1.networkReady = false := by
      rw [cia302NmtMasterStart,if_neg (hstart fresh rfl rfl)]
      exact ⟨rfl,rfl⟩
    rw [if_pos hself,cia302Init]
    dsimp only
    rw [hconfigured]
    refine ⟨?_,hstarted.1,hstarted.2,fun n => ?_⟩
    · rw [hstarted.1]
      rfl
    · rw [hnodes]
      rfl
  · let configured := setNode fresh (peerNode config)
      { fresh.nodes (peerNode config) with
        assigned := true
        mandatory := true
        autoStart := config.autoStart
        heartbeatTimeoutMs := config.heartbeatTimeoutMs
        state := .waitingBootup }
    have hconfigured : cia302NmtMasterConfigure fresh config.peerNodeId true config.autoStart
        config.heartbeatTimeoutMs = (configured,true) := by
      refine if_neg (not_or.mpr ⟨?_,fun he => hself he.symm⟩)
      rw [hvalid]
      exact Bool.false_ne_true
    have hothers : ∀ n, n ≠ peerNode config → (configured.nodes n).assigned = false := by
      intro n hn
      dsimp only [configured]
      rw [setNode_other _ _ _ hn]
      rfl
    rw [if_neg hself,cia302Init]
    dsimp only
    rw [hconfigured,cia302NmtMasterStart,if_neg (hstart configured rfl rfl)]
    refine ⟨rfl,⟨rfl,rfl,rfl,rfl,rfl,rfl,rfl,rfl,⟨peer_listed config,fun n hn => ?_⟩,
      .waitingBootup,rfl,?_⟩⟩
    · show (if n ∈ nodeIds ∧ (configured.nodes n).assigned = true then _
        else configured.nodes n).assigned = false
      rw [if_neg fun hc => Bool.false_ne_true ((hothers n hn).symm.trans hc.2)]
      exact hothers n hn
    · have hassigned : (configured.nodes (peerNode config)).assigned = true := by
        dsimp only [configured]
        rw [setNode_self]
      show (if peerNode config ∈ nodeIds ∧ (configured.nodes (peerNode config)).assigned = true
        then _ else configured.nodes (peerNode config)) = _
      rw [if_pos ⟨peer_listed config,hassigned⟩]
      dsimp only [configured]
      rw [setNode_self]
      rfl

theorem lifecycle_refines {s : Supervisor} (h : Refines config s a) (l : Lifecycle) :
    Refines config (supervise config s l).1 (lifecycleStep config a l).1 ∧
      (supervise config s l).2 = (lifecycleStep config a l).2 := by
  cases l with
  | init masterNodeId nowMs => exact ⟨init_refines masterNodeId nowMs,rfl⟩
  | deinit => exact ⟨⟨rfl,trivial⟩,rfl⟩
  | call call =>
    cases s with
    | off =>
      obtain ⟨hnext,hnothing⟩ := off_refines h call
      exact ⟨hnext,hnothing.symm⟩
    | idle =>
      obtain ⟨hnext,hnothing⟩ := idle_refines h call
      exact ⟨hnext,hnothing.symm⟩
    | watching w =>
      obtain ⟨hnext,hreports⟩ := call_refines h call
      exact ⟨hnext,hreports.symm⟩

/-- From power-on, and over any initializations and shutdowns, the adapter with
its master of many nodes tells and commands what the supervisor of one peer
does, and its snapshot is the view of that supervisor's log. -/
theorem adapter_supervises (config : Cia302Config) (calls : List Lifecycle) :
    let adapter := run (lifecycleStep config) cia302Deinit calls
    let supervisor := run (supervise config) .off calls
    adapter.2 = supervisor.2 ∧ adapter.1.snapshot = snapshotOf config supervisor.1 := by
  have h := run_related (supervise config) (lifecycleStep config) (fun s a => Refines config s a)
    (fun _ => True) (fun s a l hr _ => lifecycle_refines hr l) .off cia302Deinit calls
    ⟨rfl,trivial⟩ (fun _ _ => trivial)
  exact ⟨h.2.symm,h.1.snapshot⟩

end Refinement

section Accounts
variable (config : Cia302Config)

def tally (type : Cia302EventType) (log : List Cia302Event) : ℕ :=
  log.countP fun e => e.type = type

def commandOf : Report → Option (CoNmtCommand × UInt8)
  | .event _ => none
  | .command command nodeId => some (command,nodeId)

def bootupByte (state : UInt8) : Bool := state = cia302HeartbeatBootup

def validState (state : UInt8) : Bool := (heartbeatState state).isSome

structure Sums (heard : List UInt8) (w : Watch) (reports : List Report) : Prop where
  bootups : tally .bootup w.log = heard.countP bootupByte
  heartbeats : tally .heartbeat w.log = heard.countP fun b => validState b && !bootupByte b
  invalid : tally .invalidFrame w.log = heard.countP fun b => !validState b
  ready : tally .networkReady w.log = if w.announced then 1 else 0
  bootTimeouts : tally .bootTimeout w.log = if w.complained then 1 else 0
  timeouts : tally .heartbeatTimeout w.log+(if w.condition = .lost then 0 else 1) ≤
    heard.countP validState+1
  commands : reports.filterMap commandOf = [] ∨ w.announced = true ∧ config.autoStart = true ∧
    reports.filterMap commandOf = [(.enterOperational,config.peerNodeId)]

variable {config} {heard : List UInt8} {w : Watch} {reports : List Report}

theorem tally_note (type noted : Cia302EventType) (w : Watch) (nodeId state : UInt8)
    (nowMs : UInt32) :
    tally type (note w noted nodeId state nowMs).log =
      tally type w.log+if noted = type then 1 else 0 := by
  rw [note,tally,List.countP_append,List.countP_singleton]
  simp only [decide_eq_true_eq]
  rfl

theorem byte_kinds (state : UInt8) :
    (heardEvent state = .bootup ↔ bootupByte state = true) ∧
      (heardEvent state = .heartbeat ↔ (validState state && !bootupByte state) = true) ∧
        (heardEvent state = .invalidFrame ↔ (!validState state) = true) := by
  unfold heardEvent bootupByte validState
  by_cases hboot : state = cia302HeartbeatBootup
  · rw [hboot]
    decide
  rw [decide_eq_false hboot,if_neg hboot]
  cases hvalid : (heartbeatState state).isSome with
  | true => decide
  | false => decide

theorem heard_not {state : UInt8} {type : Cia302EventType} (hboot : type ≠ .bootup)
    (hbeat : type ≠ .heartbeat) (hinvalid : type ≠ .invalidFrame) : ¬heardEvent state = type := by
  rintro rfl
  rcases heard_event_kind state with hk | hk | hk
  · exact hboot hk
  · exact hbeat hk
  · exact hinvalid hk

theorem hear_sums (h : Sums config heard w reports) (state : UInt8) (nowMs : UInt32) :
    Sums config (heard++[state]) (hear config w state nowMs) reports := by
  obtain ⟨hboot,hbeat,hinvalid⟩ := byte_kinds state
  have htally : ∀ type, tally type (hear config w state nowMs).log =
      tally type w.log+if heardEvent state = type then 1 else 0 :=
    fun type => tally_note type _ _ _ _ nowMs
  have hcount : ∀ p : UInt8 → Bool, (heard++[state]).countP p =
      heard.countP p+if p state then 1 else 0 := by
    intro p
    rw [List.countP_append,List.countP_singleton]
  refine ⟨?_,?_,?_,?_,?_,?_,h.commands⟩
  · rw [htally,hcount,h.bootups,if_congr hboot rfl rfl]
  · rw [htally,hcount,h.heartbeats,if_congr hbeat rfl rfl]
  · rw [htally,hcount,h.invalid,if_congr hinvalid rfl rfl]
  · rw [htally,if_neg (heard_not (by decide) (by decide) (by decide))]
    exact h.ready
  · rw [htally,if_neg (heard_not (by decide) (by decide) (by decide))]
    exact h.bootTimeouts
  · have htimeouts := h.timeouts
    rw [htally,hcount,if_neg (heard_not (by decide) (by decide) (by decide))]
    show _+0+(if (if validState state then Condition.present else w.condition) = .lost then 0
      else 1) ≤ _
    cases validState state with
    | true =>
      rw [if_pos rfl,if_neg (by decide),if_pos rfl]
      omega
    | false => exact htimeouts

theorem tally_other {type noted : Cia302EventType} (h : noted ≠ type) (w : Watch)
    (nodeId state : UInt8) (nowMs : UInt32) :
    tally type (note w noted nodeId state nowMs).log = tally type w.log := by
  rw [tally_note,if_neg h,Nat.add_zero]

theorem expire_sums (h : Sums config heard w reports) (nowMs : UInt32) :
    Sums config heard (expire config w nowMs) reports := by
  rw [expire]
  split
  · rename_i hlate
    have hcondition : ¬w.condition = .lost := (of_decide_eq_true hlate).2.2
    have htimeouts := h.timeouts
    rw [if_neg hcondition] at htimeouts
    refine ⟨(tally_other (by decide) _ _ _ _).trans h.bootups,
      (tally_other (by decide) _ _ _ _).trans h.heartbeats,
      (tally_other (by decide) _ _ _ _).trans h.invalid,
      (tally_other (by decide) _ _ _ _).trans h.ready,
      (tally_other (by decide) _ _ _ _).trans h.bootTimeouts,?_,h.commands⟩
    rw [tally_note,if_pos rfl]
    exact htimeouts
  · exact h

theorem conclude_sums (h : Sums config heard w reports) (nowMs : UInt32) :
    Sums config heard (conclude config w nowMs) reports := by
  have htimeouts := h.timeouts
  rw [conclude]
  split
  · rename_i hlate
    have hfirst : w.complained = false := by simpa using hlate.2.2.1
    refine ⟨(tally_other (by decide) _ _ _ _).trans h.bootups,
      (tally_other (by decide) _ _ _ _).trans h.heartbeats,
      (tally_other (by decide) _ _ _ _).trans h.invalid,
      (tally_other (by decide) _ _ _ _).trans h.ready,?_,?_,h.commands⟩
    · rw [tally_note,h.bootTimeouts,hfirst]
      rfl
    · rw [tally_other (by decide)]
      exact htimeouts
  split
  · rename_i hnew
    have hfirst : w.announced = false := by simpa using hnew.1
    refine ⟨(tally_other (by decide) _ _ _ _).trans h.bootups,
      (tally_other (by decide) _ _ _ _).trans h.heartbeats,
      (tally_other (by decide) _ _ _ _).trans h.invalid,?_,
      (tally_other (by decide) _ _ _ _).trans h.bootTimeouts,?_,h.commands.imp id fun hc => ?_⟩
    · rw [tally_note,h.ready,hfirst]
      rfl
    · rw [tally_other (by decide)]
      exact htimeouts
    · exact absurd (hfirst.symm.trans hc.1) Bool.false_ne_true
  · exact h

theorem event_sums (h : Sums config heard w reports) (events : List Cia302Event) :
    Sums config heard w (reports++events.map .event) := by
  refine ⟨h.bootups,h.heartbeats,h.invalid,h.ready,h.bootTimeouts,h.timeouts,?_⟩
  rw [List.filterMap_append,List.filterMap_map]
  have hnone : List.filterMap (commandOf ∘ Report.event) events = [] :=
    List.filterMap_eq_nil_iff.mpr fun _ _ => rfl
  rw [hnone,List.append_nil]
  exact h.commands

theorem look_sums (h : Sums config heard w reports) (events : List Cia302Event) (stack : Bool)
    (nowMs : UInt32) :
    Sums config heard (look config w nowMs)
      (reports++events.map .event++starts config w stack nowMs) := by
  have hlook := event_sums (conclude_sums (expire_sums h nowMs) nowMs) events
  have hbefore := (event_sums h events).commands
  refine ⟨hlook.bootups,hlook.heartbeats,hlook.invalid,hlook.ready,hlook.bootTimeouts,
    hlook.timeouts,?_⟩
  rw [List.filterMap_append,starts]
  split
  · rename_i hnew
    have hfirst : w.announced = false := by simpa using hnew.2.1
    rcases hbefore with hnone | hc
    · rw [hnone]
      exact Or.inr ⟨hnew.1,hnew.2.2.1,rfl⟩
    · exact absurd (hfirst.symm.trans hc.1) Bool.false_ne_true
  · rw [List.filterMap_nil,List.append_nil]
    exact hlook.commands

theorem call_sums (h : Sums config heard w reports) (call : AdapterCall) :
    Sums config (heard++takenOver call) (watched config w call).1
      (reports++(news w (watched config w call).1).map .event++(watched config w call).2) := by
  have hkept : Sums config (heard++[]) w (reports++(news w w).map .event++[]) := by
    rw [news,List.drop_length,List.append_nil]
    simpa using h
  cases call with
  | preProcess monitored nowMs =>
    rcases monitored with _ | ⟨state,canRxNew⟩
    · exact hkept
    cases canRxNew with
    | false => exact hkept
    | true =>
      show Sums config _ (hear config w state nowMs) (_++[])
      rw [List.append_nil]
      exact event_sums (hear_sums h state nowMs) _
  | process nmt nowMs =>
    rw [show takenOver (.process nmt nowMs) = [] from rfl,List.append_nil]
    exact look_sums h _ nmt.isSome nowMs

theorem run_sums (h : Sums config heard w reports) (calls : List AdapterCall) :
    ∃ w', (run (supervise config) (.watching w) (calls.map .call)).1 = .watching w' ∧
      Sums config (heard++calls.flatMap takenOver) w'
        (reports++(run (supervise config) (.watching w) (calls.map .call)).2) := by
  induction calls generalizing heard w reports with
  | nil =>
    refine ⟨w,rfl,?_⟩
    simpa [run] using h
  | cons call calls ih =>
    obtain ⟨w',hw',hsums⟩ := ih (call_sums h call)
    rw [List.map_cons,run_cons]
    refine ⟨w',hw',?_⟩
    simpa [supervise,List.append_assoc] using hsums

theorem idle_run (calls : List AdapterCall) :
    run (supervise config) .idle (calls.map .call) = (.idle,[]) := by
  induction calls with
  | nil => rfl
  | cons call calls ih =>
    rw [List.map_cons,run_cons]
    show ((run (supervise config) .idle (calls.map .call)).1,
      []++(run (supervise config) .idle (calls.map .call)).2) = _
    rw [ih]
    rfl

variable (config)

def heardBy (masterNodeId : UInt8) (calls : List AdapterCall) : List UInt8 :=
  if masterNodeId = config.peerNodeId then [] else calls.flatMap takenOver

structure Account (heard : List UInt8) (snapshot : Cia302Snapshot) (reports : List Report) :
    Prop where
  bootups : snapshot.eventCountBootup = UInt32.ofNat (heard.countP bootupByte)
  heartbeats : snapshot.eventCountHeartbeat =
    UInt32.ofNat (heard.countP fun b => validState b && !bootupByte b)
  invalid : snapshot.eventCountInvalidFrame = UInt32.ofNat (heard.countP fun b => !validState b)
  ready : snapshot.eventCountNetworkReady = if snapshot.networkReady then 1 else 0
  bootTimeouts : snapshot.eventCountBootTimeout = 0 ∨ snapshot.eventCountBootTimeout = 1
  timeouts : ∃ losses, snapshot.eventCountHeartbeatTimeout = UInt32.ofNat losses ∧
    losses ≤ heard.countP validState+1
  commands : reports.filterMap commandOf = [] ∨ snapshot.networkReady = true ∧
    config.autoStart = true ∧
      reports.filterMap commandOf = [(.enterOperational,config.peerNodeId)]

variable {config}

theorem sums_account (h : Sums config heard w reports) :
    Account config heard (snapshotOf config (.watching w)) reports where
  bootups := congrArg UInt32.ofNat h.bootups
  heartbeats := congrArg UInt32.ofNat h.heartbeats
  invalid := congrArg UInt32.ofNat h.invalid
  ready := by
    refine (congrArg UInt32.ofNat h.ready).trans ?_
    show _ = if w.announced then 1 else 0
    cases w.announced <;> rfl
  bootTimeouts := by
    have hcount : (snapshotOf config (.watching w)).eventCountBootTimeout =
        UInt32.ofNat (if w.complained then 1 else 0) := congrArg UInt32.ofNat h.bootTimeouts
    rw [hcount]
    cases w.complained
    · exact Or.inl rfl
    · exact Or.inr rfl
  timeouts := by
    have htimeouts := h.timeouts
    exact ⟨tally .heartbeatTimeout w.log,rfl,by omega⟩
  commands := h.commands

theorem fresh_sums (nowMs : UInt32) : Sums config [] (watchFrom nowMs) [] where
  bootups := rfl
  heartbeats := rfl
  invalid := rfl
  ready := rfl
  bootTimeouts := rfl
  timeouts := Nat.le_refl 1
  commands := Or.inl rfl

/-- After any calls behind an initialization, each counter of the snapshot is the
number of the bytes of its kind that came from the peer; readiness and the boot
timeout are told at most once, a loss at most once more than valid bytes came;
and no command but one start of the peer was given to the stack. -/
theorem counters_account (config : Cia302Config) (masterNodeId : UInt8) (start : UInt32)
    (calls : List AdapterCall) :
    let done := run (lifecycleStep config) (cia302Init config masterNodeId start) (calls.map .call)
    Account config (heardBy config masterNodeId calls) done.1.snapshot done.2 := by
  intro done
  obtain ⟨hrefines,hreports⟩ := run_related (supervise config) (lifecycleStep config)
    (fun s a => Refines config s a) (fun _ => True) (fun s a l hr _ => lifecycle_refines hr l)
    _ _ (calls.map .call) (@init_refines config masterNodeId start) (fun _ _ => trivial)
  change Refines config _ done.1 at hrefines
  change _ = done.2 at hreports
  rw [hrefines.snapshot,← hreports,heardBy]
  by_cases hself : masterNodeId = config.peerNodeId
  · rw [if_pos hself,if_pos hself,idle_run]
    exact ⟨rfl,rfl,rfl,rfl,Or.inl rfl,⟨0,rfl,Nat.zero_le 1⟩,Or.inl rfl⟩
  · rw [if_neg hself,if_neg hself]
    obtain ⟨w,hw,hsums⟩ := run_sums (fresh_sums start) calls
    rw [hw]
    exact sums_account hsums

end Accounts

end CanopenReference.PeerSupervision
