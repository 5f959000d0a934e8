import Mathlib.Data.List.FinRange
import CanopenReference.Library.Runs

/-!
# The CiA 302 NMT master

The transport-neutral master of `cia302_nmt_master.c`. Its callbacks are there
or missing; what they are given is reported, and the answers of the send
callback come from outside. The callbacks do not call back into the master.
-/

set_option autoImplicit false

namespace CanopenReference.NmtMaster
open Library.Runs

def cia302MaxNodes : ℕ := 127
def cia302NmtCanId : UInt16 := 0x000
def cia302HeartbeatBase : UInt16 := 0x700

def cia302NmtStart : UInt8 := 0x01
def cia302NmtStop : UInt8 := 0x02
def cia302NmtPreop : UInt8 := 0x80
def cia302NmtResetNode : UInt8 := 0x81
def cia302NmtResetCommunication : UInt8 := 0x82

def cia302HeartbeatBootup : UInt8 := 0x00
def cia302HeartbeatStopped : UInt8 := 0x04
def cia302HeartbeatOperational : UInt8 := 0x05
def cia302HeartbeatPreop : UInt8 := 0x7F

inductive Cia302NodeState where
  | unassigned
  | waitingBootup
  | preop
  | operational
  | stopped
  | timedOut
  deriving DecidableEq, Repr

inductive Cia302EventType where
  | bootup
  | heartbeat
  | heartbeatTimeout
  | bootTimeout
  | networkReady
  | invalidFrame
  deriving DecidableEq, Repr

structure Cia302Frame where
  canId : UInt16
  dlc : UInt8
  data : List UInt8
  deriving DecidableEq

structure Cia302Event where
  type : Cia302EventType
  nodeId : UInt8
  state : UInt8
  timestampMs : UInt32
  deriving DecidableEq

structure Cia302Node where
  assigned : Bool
  mandatory : Bool
  autoStart : Bool
  heartbeatTimeoutMs : UInt16
  lastHeartbeatMs : UInt32
  state : Cia302NodeState
  deriving DecidableEq

/-- An index of the node table, whose entry 0 is never assigned. -/
abbrev NodeId := Fin (cia302MaxNodes+1)

structure Cia302NmtMaster where
  nmtStartup : UInt32
  bootTimeMs : UInt32
  masterNodeId : UInt8
  nowMs : UInt32
  startedAtMs : UInt32
  running : Bool
  networkReady : Bool
  bootTimeoutReported : Bool
  nodes : NodeId → Cia302Node
  send : Bool
  event : Bool

/-- What the callbacks are given, with the answer of the send callback. -/
inductive Output where
  | event (event : Cia302Event)
  | send (frame : Cia302Frame) (accepted : Bool)
  deriving DecidableEq

def nodeOf (nodeId : UInt8) : NodeId := Fin.ofNat (cia302MaxNodes+1) nodeId.toNat

def idOf (node : NodeId) : UInt8 := UInt8.ofNat node.val

def nodeIds : List NodeId := (List.finRange (cia302MaxNodes+1)).tail

def nodeIdValid (nodeId : UInt8) : Bool := 1 ≤ nodeId ∧ nodeId.toNat ≤ cia302MaxNodes

def commandValid (command : UInt8) : Bool :=
  command = cia302NmtStart ∨ command = cia302NmtStop ∨ command = cia302NmtPreop ∨
    command = cia302NmtResetNode ∨ command = cia302NmtResetCommunication

section Master
variable (master : Cia302NmtMaster)

def setNode (node : NodeId) (value : Cia302Node) : Cia302NmtMaster :=
  { master with nodes := fun other => if other = node then value else master.nodes other }

def emitEvent (type : Cia302EventType) (nodeId state : UInt8) : List Output :=
  if master.event then [.event ⟨type,nodeId,state,master.nowMs⟩] else []

def zeroNode : Cia302Node := ⟨false,false,false,0,0,.unassigned⟩

def cia302NmtMasterInit (masterNodeId : UInt8) (send event : Bool) : Cia302NmtMaster where
  nmtStartup := 0
  bootTimeMs := 10000
  masterNodeId := masterNodeId
  nowMs := 0
  startedAtMs := 0
  running := false
  networkReady := false
  bootTimeoutReported := false
  nodes := fun _ => zeroNode
  send := send
  event := event

def cia302NmtMasterConfigure (nodeId : UInt8) (mandatory autoStart : Bool)
    (heartbeatTimeoutMs : UInt16) : Cia302NmtMaster × Bool :=
  if !nodeIdValid nodeId ∨ nodeId = master.masterNodeId then (master,false)
  else
    (setNode master (nodeOf nodeId)
      { master.nodes (nodeOf nodeId) with
        assigned := true
        mandatory := mandatory
        autoStart := autoStart
        heartbeatTimeoutMs := heartbeatTimeoutMs
        state := .waitingBootup },true)

/-- A command frame, with the answer that the send callback gives to it. -/
def cia302NmtMasterRequest (command nodeId : UInt8) (accepts : Bool) : Bool × List Output :=
  if !master.send ∨ !commandValid command ∨ cia302MaxNodes < nodeId.toNat then (false,[])
  else
    (accepts,[.send ⟨cia302NmtCanId,2,[command,nodeId,0,0,0,0,0,0]⟩ accepts])

def cia302NmtMasterStart (nowMs : UInt32) : Cia302NmtMaster × Bool :=
  if !master.send ∨ master.nmtStartup &&& 0x01 = 0 then (master,false)
  else
    ({ master with
        nowMs := nowMs
        startedAtMs := nowMs
        running := true
        networkReady := false
        bootTimeoutReported := false
        nodes := fun node =>
          if node ∈ nodeIds ∧ (master.nodes node).assigned then
            { master.nodes node with state := .waitingBootup, lastHeartbeatMs := nowMs }
          else master.nodes node },true)

/-- The payload is its first byte, or a null pointer. -/
def cia302NmtMasterReceive (canId : UInt16) (data : Option UInt8) (dlc : UInt8)
    (nowMs : UInt32) : Cia302NmtMaster × List Output :=
  match data with
  | none => (master,[])
  | some state =>
    if !master.running then (master,[])
    else
      let master := { master with nowMs := nowMs }
      if dlc ≠ 1 ∨ canId < cia302HeartbeatBase ∨
          cia302HeartbeatBase.toNat+cia302MaxNodes < canId.toNat then
        (master,emitEvent master .invalidFrame 0 0)
      else
        let nodeId := (canId-cia302HeartbeatBase).toUInt8
        let node := master.nodes (nodeOf nodeId)
        if !node.assigned then (master,[])
        else
          let heard := { node with lastHeartbeatMs := nowMs }
          if state = cia302HeartbeatBootup then
            (setNode master (nodeOf nodeId) { heard with state := .preop },
              emitEvent master .bootup nodeId state)
          else if state = cia302HeartbeatPreop then
            (setNode master (nodeOf nodeId) { heard with state := .preop },
              emitEvent master .heartbeat nodeId state)
          else if state = cia302HeartbeatOperational then
            (setNode master (nodeOf nodeId) { heard with state := .operational },
              emitEvent master .heartbeat nodeId state)
          else if state = cia302HeartbeatStopped then
            (setNode master (nodeOf nodeId) { heard with state := .stopped },
              emitEvent master .heartbeat nodeId state)
          else
            (setNode master (nodeOf nodeId) heard,emitEvent master .invalidFrame nodeId state)

def missing (node : Cia302Node) : Bool :=
  node.assigned ∧ node.mandatory ∧ (node.state = .waitingBootup ∨ node.state = .timedOut)

def mandatoryNodesReady : Bool := nodeIds.all fun node => !missing (master.nodes node)

def anyAssigned : Bool := nodeIds.any fun node => (master.nodes node).assigned

def overdue (nowMs : UInt32) (node : Cia302Node) : Bool :=
  node.assigned ∧ node.heartbeatTimeoutMs ≠ 0 ∧
    node.heartbeatTimeoutMs.toUInt32 < nowMs-node.lastHeartbeatMs ∧ node.state ≠ .timedOut

/-- The body of the supervision loop. -/
def superviseNode (nowMs : UInt32) (node : NodeId) : Cia302NmtMaster × List Output :=
  if overdue nowMs (master.nodes node) then
    (setNode master node { master.nodes node with state := .timedOut },
      emitEvent master .heartbeatTimeout (idOf node) 0)
  else (master,[])

/-- The start commands at readiness; their result is dropped. -/
def autoStarts (accepts : NodeId → Bool) : List Output :=
  (nodeIds.filter fun node => (master.nodes node).assigned ∧ (master.nodes node).autoStart).flatMap
    fun node => (cia302NmtMasterRequest master cia302NmtStart (idOf node) (accepts node)).2

/-- The part of the process call behind the supervision loop. -/
def settle (accepts : NodeId → Bool) (nowMs : UInt32) : Cia302NmtMaster × List Output :=
  let ready := mandatoryNodesReady master
  if !ready ∧ master.bootTimeMs ≠ 0 ∧ !master.bootTimeoutReported ∧
      master.bootTimeMs < nowMs-master.startedAtMs then
    match nodeIds.find? fun node => missing (master.nodes node) with
    | none => (master,[])
    | some node =>
      ({ master with bootTimeoutReported := true },emitEvent master .bootTimeout (idOf node) 0)
  else if !master.networkReady ∧ anyAssigned master ∧ ready then
    ({ master with networkReady := true },
      emitEvent master .networkReady 0 0++
        (if master.nmtStartup &&& ((1 : UInt32) <<< 3) = 0 then autoStarts master accepts else []))
  else (master,[])

def cia302NmtMasterProcess (accepts : NodeId → Bool) (nowMs : UInt32) :
    Cia302NmtMaster × List Output :=
  if !master.running then (master,[])
  else
    let supervised :=
      run (fun m node => superviseNode m nowMs node) { master with nowMs := nowMs } nodeIds
    let settled := settle supervised.1 accepts nowMs
    (settled.1,supervised.2++settled.2)

end Master

/-- The calls of the application, which may also write the policy fields. -/
inductive Call where
  | policy (nmtStartup bootTimeMs : UInt32)
  | configure (nodeId : UInt8) (mandatory autoStart : Bool) (heartbeatTimeoutMs : UInt16)
  | request (command nodeId : UInt8) (accepts : Bool)
  | start
  | receive (canId : UInt16) (data : Option UInt8) (dlc : UInt8)
  | process (accepts : NodeId → Bool)

def isProcess : Call → Bool
  | .process _ => true
  | _ => false

def perform (master : Cia302NmtMaster) (nowMs : UInt32) :
    Call → Cia302NmtMaster × Bool × List Output
  | .policy nmtStartup bootTimeMs =>
    ({ master with nmtStartup := nmtStartup, bootTimeMs := bootTimeMs },true,[])
  | .configure nodeId mandatory autoStart heartbeatTimeoutMs =>
    let done := cia302NmtMasterConfigure master nodeId mandatory autoStart heartbeatTimeoutMs
    (done.1,done.2,[])
  | .request command nodeId accepts =>
    (master,cia302NmtMasterRequest master command nodeId accepts)
  | .start =>
    let done := cia302NmtMasterStart master nowMs
    (done.1,done.2,[])
  | .receive canId data dlc =>
    let done := cia302NmtMasterReceive master canId data dlc nowMs
    (done.1,true,done.2)
  | .process accepts =>
    let done := cia302NmtMasterProcess master accepts nowMs
    (done.1,true,done.2)

/-- A call with the millisecond it was made in and what it returned, and what
the callbacks were given, by a process call or by another. -/
inductive Entry where
  | call (time : ℕ) (call : Call) (result : Bool)
  | output (automatic : Bool) (output : Output)

structure Supervisor where
  master : Cia302NmtMaster
  time : ℕ

/-- A call some time after the one before it. The master sees 32 bits of the time. -/
def nmtStep (s : Supervisor) (input : ℕ × Call) : Supervisor × List Entry :=
  let time := s.time+input.1
  let done := perform s.master (UInt32.ofNat time) input.2
  (⟨done.1,time⟩,.call time input.2 done.2.1::done.2.2.map (.output (isProcess input.2)))

/-- A master that has just been initialized. -/
def freshSupervisor (masterNodeId : UInt8) (send event : Bool) (time : ℕ) : Supervisor :=
  ⟨cia302NmtMasterInit masterNodeId send event,time⟩

section Nodes
variable (master : Cia302NmtMaster) (node : NodeId)

theorem nodeIds_map : nodeIds = (List.finRange cia302MaxNodes).map Fin.succ := by
  unfold nodeIds
  rw [List.finRange_succ]
  rfl

theorem mem_nodeIds : node ∈ nodeIds ↔ node ≠ 0 := by
  rw [nodeIds_map,List.mem_map,← Fin.exists_succ_eq]
  simp

theorem nodeIds_nodup : nodeIds.Nodup :=
  (List.nodup_finRange _).sublist (List.tail_sublist _)

theorem id_injective {a b : NodeId} (h : idOf a = idOf b) : a = b := by
  have hval : a.val%2^8 = b.val%2^8 := congrArg UInt8.toNat h
  have ha := a.isLt
  have hb := b.isLt
  unfold cia302MaxNodes at ha hb
  apply Fin.ext
  omega

theorem setNode_self (value : Cia302Node) : (setNode master node value).nodes node = value :=
  if_pos rfl

theorem setNode_other (value : Cia302Node) {other : NodeId} (h : other ≠ node) :
    (setNode master node value).nodes other = master.nodes other := if_neg h

theorem emit_mem {type : Cia302EventType} {nodeId state : UInt8} {o : Output}
    (h : o ∈ emitEvent master type nodeId state) : o = .event ⟨type,nodeId,state,master.nowMs⟩ := by
  unfold emitEvent at h
  split at h
  · exact List.mem_singleton.mp h
  · cases h

def supervised (nowMs : UInt32) (value : Cia302Node) : Cia302Node :=
  if overdue nowMs value then { value with state := .timedOut } else value

theorem supervise_node (nowMs : UInt32) :
    superviseNode master nowMs node =
      (setNode master node (supervised nowMs (master.nodes node)),
        if overdue nowMs (master.nodes node) then
          emitEvent master .heartbeatTimeout (idOf node) 0 else []) := by
  have hsame : setNode master node (master.nodes node) = master := by
    unfold setNode
    congr 1
    funext other
    split
    · rename_i h
      rw [h]
    · rfl
  unfold superviseNode supervised
  split
  · rfl
  · rw [hsame]

theorem supervise_all (nowMs : UInt32) (ids : List NodeId) (hids : ids.Nodup) :
    run (fun m node => superviseNode m nowMs node) master ids =
      ({ master with nodes := fun n =>
          if n ∈ ids then supervised nowMs (master.nodes n) else master.nodes n },
        (ids.filter fun n => overdue nowMs (master.nodes n)).flatMap
          fun n => emitEvent master .heartbeatTimeout (idOf n) 0) := by
  induction ids generalizing master with
  | nil => rfl
  | cons id ids ih =>
    obtain ⟨hid,hids⟩ := List.nodup_cons.mp hids
    have hkept : ∀ n ∈ ids, (setNode master id (supervised nowMs (master.nodes id))).nodes n =
        master.nodes n := fun n hn => setNode_other master id _ (fun h => hid (h ▸ hn))
    rw [run_cons,supervise_node,ih _ hids]
    apply Prod.ext
    · show ({ master with nodes := _ } : Cia302NmtMaster) = { master with nodes := _ }
      congr 1
      funext n
      by_cases hn : n ∈ ids
      · rw [if_pos hn,if_pos (List.mem_cons_of_mem id hn),hkept n hn]
      rw [if_neg hn]
      by_cases hne : n = id
      · subst hne
        rw [if_pos List.mem_cons_self,setNode_self]
      · rw [if_neg (fun h => (List.mem_cons.mp h).elim hne hn),setNode_other master id _ hne]
    · have hfilter : ids.filter (fun n => overdue nowMs
          ((setNode master id (supervised nowMs (master.nodes id))).nodes n)) =
            ids.filter fun n => overdue nowMs (master.nodes n) :=
        List.filter_congr fun n hn => by rw [hkept n hn]
      show _++(ids.filter _).flatMap (fun n => emitEvent master .heartbeatTimeout (idOf n) 0) = _
      rw [hfilter]
      by_cases hover : overdue nowMs (master.nodes id) = true
      · simp only [List.filter_cons,if_pos hover,List.flatMap_cons]
      · simp only [List.filter_cons,if_neg hover,List.nil_append]

end Nodes

def heartbeatState (state : UInt8) : Option Cia302NodeState :=
  if state = cia302HeartbeatBootup ∨ state = cia302HeartbeatPreop then some .preop
  else if state = cia302HeartbeatOperational then some .operational
  else if state = cia302HeartbeatStopped then some .stopped
  else none

def heartbeatFrom (node : NodeId) (canId : UInt16) (data : Option UInt8) (dlc : UInt8) :
    Option UInt8 :=
  if dlc = 1 ∧ canId.toNat = cia302HeartbeatBase.toNat+node.val then data else none

def refreshed (nowMs : UInt32) (value : Cia302Node) (state : UInt8) : Cia302Node :=
  { value with lastHeartbeatMs := nowMs, state := (heartbeatState state).getD value.state }

def heardEvent (state : UInt8) : Cia302EventType :=
  if state = cia302HeartbeatBootup then .bootup
  else if (heartbeatState state).isSome then .heartbeat else .invalidFrame

theorem heard_event_kind (state : UInt8) :
    heardEvent state = .bootup ∨ heardEvent state = .heartbeat ∨
      heardEvent state = .invalidFrame := by
  unfold heardEvent
  split
  · exact Or.inl rfl
  split
  · exact Or.inr (Or.inl rfl)
  · exact Or.inr (Or.inr rfl)

theorem frame_node (node : NodeId) {canId : UInt16} (hlow : ¬canId < cia302HeartbeatBase)
    (hhigh : ¬cia302HeartbeatBase.toNat+cia302MaxNodes < canId.toNat) :
    nodeOf (canId-cia302HeartbeatBase).toUInt8 = node ↔
      canId.toNat = cia302HeartbeatBase.toNat+node.val := by
  have hsub := UInt16.toNat_sub_of_le _ _ (UInt16.not_lt.mp hlow)
  have hle := UInt16.le_iff_toNat_le.mp (UInt16.not_lt.mp hlow)
  have hbyte : (canId-cia302HeartbeatBase).toUInt8.toNat =
      (canId.toNat-cia302HeartbeatBase.toNat)%256 := by
    rw [UInt16.toNat_toUInt8,hsub]
  have hnode := node.isLt
  rw [← Fin.val_inj]
  show (canId-cia302HeartbeatBase).toUInt8.toNat%(cia302MaxNodes+1) = node.val ↔ _
  rw [hbyte]
  unfold cia302MaxNodes at hhigh hnode ⊢
  omega

section Calls
variable (master : Cia302NmtMaster)

def atNow (nowMs : UInt32) : Cia302NmtMaster := { master with nowMs := nowMs }

inductive Received (canId : UInt16) (data : Option UInt8) (dlc : UInt8) (nowMs : UInt32) :
    Cia302NmtMaster × List Output → Prop where
  | ignored (h : data = none ∨ master.running = false) : Received canId data dlc nowMs (master,[])
  | noted (outputs : List Output)
      (hevents : ∀ o ∈ outputs, o = .event ⟨.invalidFrame,0,0,nowMs⟩)
      (h : ∀ node, (master.nodes node).assigned = true →
        heartbeatFrom node canId data dlc = none) :
      Received canId data dlc nowMs (atNow master nowMs,outputs)
  | heard (node : NodeId) (state : UInt8) (hrun : master.running = true)
      (hassigned : (master.nodes node).assigned = true)
      (hfrom : heartbeatFrom node canId data dlc = some state)
      (hothers : ∀ other, other ≠ node → heartbeatFrom other canId data dlc = none) :
      Received canId data dlc nowMs
        (setNode (atNow master nowMs) node (refreshed nowMs (master.nodes node) state),
          emitEvent (atNow master nowMs) (heardEvent state) (canId-cia302HeartbeatBase).toUInt8
            state)

theorem heard_branches (node : NodeId) (nowMs : UInt32) (nodeId state : UInt8) :
    (let heard := { master.nodes node with lastHeartbeatMs := nowMs }
      if state = cia302HeartbeatBootup then
        (setNode master node { heard with state := .preop },emitEvent master .bootup nodeId state)
      else if state = cia302HeartbeatPreop then
        (setNode master node { heard with state := .preop },
          emitEvent master .heartbeat nodeId state)
      else if state = cia302HeartbeatOperational then
        (setNode master node { heard with state := .operational },
          emitEvent master .heartbeat nodeId state)
      else if state = cia302HeartbeatStopped then
        (setNode master node { heard with state := .stopped },
          emitEvent master .heartbeat nodeId state)
      else (setNode master node heard,emitEvent master .invalidFrame nodeId state)) =
      (setNode master node (refreshed nowMs (master.nodes node) state),
        emitEvent master (heardEvent state) nodeId state) := by
  by_cases hboot : state = cia302HeartbeatBootup
  · simp [heardEvent,refreshed,heartbeatState,hboot]
  by_cases hpreop : state = cia302HeartbeatPreop
  · rw [hpreop] at hboot ⊢
    simp [heardEvent,refreshed,heartbeatState,hboot]
  by_cases hoperational : state = cia302HeartbeatOperational
  · rw [hoperational] at hboot hpreop ⊢
    simp [heardEvent,refreshed,heartbeatState,hboot,hpreop]
  by_cases hstopped : state = cia302HeartbeatStopped
  · rw [hstopped] at hboot hpreop hoperational ⊢
    simp [heardEvent,refreshed,heartbeatState,hboot,hpreop,hoperational]
  · simp [heardEvent,refreshed,heartbeatState,hboot,hpreop,hoperational,hstopped]

theorem receive_effect (canId : UInt16) (data : Option UInt8) (dlc : UInt8) (nowMs : UInt32) :
    Received master canId data dlc nowMs (cia302NmtMasterReceive master canId data dlc nowMs) := by
  cases data with
  | none => exact .ignored (Or.inl rfl)
  | some state =>
    unfold cia302NmtMasterReceive
    by_cases hrun : master.running = true
    swap
    · rw [Bool.not_eq_true] at hrun
      simp only [hrun]
      exact .ignored (Or.inr hrun)
    have hrunning : ¬(!master.running) = true := by simp [hrun]
    simp only [if_neg hrunning]
    split
    · rename_i hframe
      refine .noted _ (fun o ho => emit_mem _ ho) (fun node _ => ?_)
      have hnode := node.isLt
      unfold cia302MaxNodes at hframe hnode
      rw [heartbeatFrom,if_neg]
      rintro ⟨hdlc,hid⟩
      rcases hframe with h | h | h
      · exact h hdlc
      · have := UInt16.lt_iff_toNat_lt.mp h
        omega
      · omega
    rename_i hframe
    rw [not_or,not_or,not_not] at hframe
    obtain ⟨hdlc,hlow,hhigh⟩ := hframe
    have hnode := fun node => frame_node node hlow hhigh
    generalize nodeOf (canId-cia302HeartbeatBase).toUInt8 = sender at hnode ⊢
    have hothers : ∀ other, other ≠ sender → heartbeatFrom other canId (some state) dlc = none := by
      intro other hne
      rw [heartbeatFrom,if_neg]
      exact fun h => hne ((hnode other).mpr h.2).symm
    split
    · rename_i hassigned
      rw [Bool.not_eq_true'] at hassigned
      refine .noted _ (fun o ho => by cases ho) (fun node hn => hothers node ?_)
      rintro rfl
      rw [hn] at hassigned
      cases hassigned
    rename_i hassigned
    rw [Bool.not_eq_true',Bool.not_eq_false] at hassigned
    have hfrom : heartbeatFrom sender canId (some state) dlc = some state :=
      if_pos ⟨hdlc,(hnode sender).mp rfl⟩
    have hbranches := heard_branches (atNow master nowMs) sender nowMs
      (canId-cia302HeartbeatBase).toUInt8 state
    have heffect : Received master canId (some state) dlc nowMs _ :=
      .heard sender state hrun hassigned hfrom hothers
    rw [show refreshed nowMs (master.nodes sender) state =
      refreshed nowMs ((atNow master nowMs).nodes sender) state from rfl,← hbranches] at heffect
    exact heffect

structure Started (nowMs : UInt32) (next : Cia302NmtMaster) : Prop where
  running : next.running = true
  networkReady : next.networkReady = false
  nmtStartup : next.nmtStartup = master.nmtStartup
  nodes : ∀ n, next.nodes n =
    if n ∈ nodeIds ∧ (master.nodes n).assigned then
      { master.nodes n with state := .waitingBootup, lastHeartbeatMs := nowMs }
    else master.nodes n

theorem start_effect (nowMs : UInt32) :
    cia302NmtMasterStart master nowMs = (master,false) ∨
      (cia302NmtMasterStart master nowMs).2 = true ∧
        Started master nowMs (cia302NmtMasterStart master nowMs).1 := by
  unfold cia302NmtMasterStart
  split
  · exact Or.inl rfl
  · exact Or.inr ⟨rfl,rfl,rfl,rfl,fun _ => rfl⟩

def assignedNode (value : Cia302Node) (mandatory autoStart : Bool) (timeout : UInt16) :
    Cia302Node :=
  { value with
    assigned := true, mandatory := mandatory, autoStart := autoStart
    heartbeatTimeoutMs := timeout, state := .waitingBootup }

theorem configure_effect (nodeId : UInt8) (mandatory autoStart : Bool) (timeout : UInt16) :
    cia302NmtMasterConfigure master nodeId mandatory autoStart timeout = (master,false) ∨
      nodeOf nodeId ≠ 0 ∧
        cia302NmtMasterConfigure master nodeId mandatory autoStart timeout =
          (setNode master (nodeOf nodeId)
            (assignedNode (master.nodes (nodeOf nodeId)) mandatory autoStart timeout),true) := by
  unfold cia302NmtMasterConfigure
  split
  · exact Or.inl rfl
  rename_i h
  simp only [not_or,Bool.not_eq_true',Bool.not_eq_false] at h
  refine Or.inr ⟨fun hc => ?_,rfl⟩
  have hvalid := h.1
  simp only [nodeIdValid,decide_eq_true_eq] at hvalid
  have hlow : 1 ≤ nodeId.toNat := UInt8.le_iff_toNat_le.mp hvalid.1
  have hval : nodeId.toNat%(cia302MaxNodes+1) = 0 := congrArg Fin.val hc
  have hhigh := hvalid.2
  unfold cia302MaxNodes at hval hhigh
  omega

def supervisedMaster (nowMs : UInt32) : Cia302NmtMaster :=
  { atNow master nowMs with nodes := fun n =>
      if n ∈ nodeIds then supervised nowMs (master.nodes n) else master.nodes n }

def timeouts (nowMs : UInt32) : List Output :=
  (nodeIds.filter fun n => overdue nowMs (master.nodes n)).flatMap
    fun n => emitEvent (atNow master nowMs) .heartbeatTimeout (idOf n) 0

theorem process_running (accepts : NodeId → Bool) (nowMs : UInt32)
    (h : master.running = true) :
    cia302NmtMasterProcess master accepts nowMs =
      ((settle (supervisedMaster master nowMs) accepts nowMs).1,
        timeouts master nowMs++(settle (supervisedMaster master nowMs) accepts nowMs).2) := by
  unfold cia302NmtMasterProcess
  rw [if_neg (by simp [h])]
  have hloop := supervise_all (atNow master nowMs) nowMs nodeIds nodeIds_nodup
  unfold atNow at hloop
  rw [hloop]
  rfl

theorem process_stopped (accepts : NodeId → Bool) (nowMs : UInt32)
    (h : master.running = false) : cia302NmtMasterProcess master accepts nowMs = (master,[]) := by
  unfold cia302NmtMasterProcess
  rw [if_pos (by simp [h])]

inductive Settled (accepts : NodeId → Bool) : Cia302NmtMaster × List Output → Prop where
  | quiet : Settled accepts (master,[])
  | late (node : NodeId) (hmissing : missing (master.nodes node) = true) :
      Settled accepts ({ master with bootTimeoutReported := true },
        emitEvent master .bootTimeout (idOf node) 0)
  | ready (hready : mandatoryNodesReady master = true) (hfirst : master.networkReady = false)
      (hany : anyAssigned master = true) :
      Settled accepts ({ master with networkReady := true },
        emitEvent master .networkReady 0 0++
          (if master.nmtStartup &&& ((1 : UInt32) <<< 3) = 0 then autoStarts master accepts
            else []))

theorem settle_effect (accepts : NodeId → Bool) (nowMs : UInt32) :
    Settled master accepts (settle master accepts nowMs) := by
  unfold settle
  simp only
  split
  · split
    · exact .quiet
    · rename_i node hfind
      exact .late node (List.find?_some (p := fun n => missing (master.nodes n)) hfind)
  split
  · rename_i h
    simp only [Bool.not_eq_true'] at h
    exact .ready h.2.2 h.1 h.2.1
  · exact .quiet

theorem settle_nodes (accepts : NodeId → Bool) (nowMs : UInt32) :
    (settle master accepts nowMs).1.nodes = master.nodes := by
  have h := settle_effect master accepts nowMs
  generalize settle master accepts nowMs = settled at h
  cases h <;> rfl

theorem process_nodes (accepts : NodeId → Bool) (nowMs : UInt32) (n : NodeId) :
    (cia302NmtMasterProcess master accepts nowMs).1.nodes n =
      if master.running = true ∧ n ∈ nodeIds then supervised nowMs (master.nodes n)
      else master.nodes n := by
  cases hrun : master.running with
  | false =>
    rw [process_stopped master accepts nowMs hrun,if_neg (fun h => Bool.false_ne_true h.1)]
  | true =>
    rw [process_running master accepts nowMs hrun]
    show (settle (supervisedMaster master nowMs) accepts nowMs).1.nodes n = _
    rw [settle_nodes]
    simp only [supervisedMaster,true_and]

end Calls

end CanopenReference.NmtMaster
