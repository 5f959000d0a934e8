import CanopenReference.Library.History
import CanopenReference.NmtMaster

/-!
# The CiA 302 adapter

The adapter of `canopen_reference_cia302.c` over the master: it supervises one
configured peer and keeps a diagnostic snapshot. The heartbeat consumer and the
command path of the stack are outside; what they hold and answer is given with
each call.
-/

set_option autoImplicit false

namespace CanopenReference.Cia302
open Library.Runs Library.History NmtMaster

/-- The build configuration, whose peer identifier the build checks. -/
structure Cia302Config where
  peerNodeId : UInt8
  heartbeatTimeoutMs : UInt16
  bootTimeoutMs : UInt32
  autoStart : Bool
  valid : nodeIdValid peerNodeId = true

def referenceConfig : Cia302Config := ⟨11,1500,10000,false,by decide⟩

structure Cia302Snapshot where
  enabled : Bool
  running : Bool
  networkReady : Bool
  monitoredNodeId : UInt8
  monitoredNodeState : UInt8
  eventCountBootup : UInt32
  eventCountHeartbeat : UInt32
  eventCountHeartbeatTimeout : UInt32
  eventCountBootTimeout : UInt32
  eventCountNetworkReady : UInt32
  eventCountInvalidFrame : UInt32
  lastEventTimestampMs : UInt32
  lastEventType : UInt8
  lastEventNodeId : UInt8
  lastEventState : UInt8
  deriving DecidableEq

def zeroSnapshot : Cia302Snapshot := ⟨false,false,false,0,0,0,0,0,0,0,0,0,0,0,0⟩

structure Cia302Adapter where
  snapshot : Cia302Snapshot
  master : Cia302NmtMaster

/-- The entry that the heartbeat consumer finds for the peer's identifier. -/
structure HbConsNode where
  nmtState : UInt8
  canRxNew : Bool
  deriving DecidableEq

inductive CoNmtCommand where
  | enterOperational
  | enterStopped
  | enterPreOperational
  | resetNode
  | resetCommunication
  deriving DecidableEq

/-- The command path of the stack, if its object is there. -/
abbrev CoNmt := Option (CoNmtCommand → UInt8 → Bool)

def cia302ReferenceSend (nmt : CoNmt) (frame : Cia302Frame) : Bool :=
  match nmt with
  | none => false
  | some sendCommand =>
    let command := frame.data.getD 0 0
    let nodeId := frame.data.getD 1 0
    if frame.canId ≠ cia302NmtCanId ∨ frame.dlc ≠ 2 ∨ cia302MaxNodes < nodeId.toNat then false
    else if command = cia302NmtStart then sendCommand .enterOperational nodeId
    else if command = cia302NmtStop then sendCommand .enterStopped nodeId
    else if command = cia302NmtPreop then sendCommand .enterPreOperational nodeId
    else if command = cia302NmtResetNode then sendCommand .resetNode nodeId
    else if command = cia302NmtResetCommunication then sendCommand .resetCommunication nodeId
    else false

def eventTypeCode : Cia302EventType → UInt8
  | .bootup => 1
  | .heartbeat => 2
  | .heartbeatTimeout => 3
  | .bootTimeout => 4
  | .networkReady => 5
  | .invalidFrame => 6

section Adapter
variable (config : Cia302Config)

def cia302ReferenceEvent (snapshot : Cia302Snapshot) (event : Cia302Event) : Cia302Snapshot :=
  let noted :=
    { snapshot with
      lastEventType := eventTypeCode event.type
      lastEventNodeId := event.nodeId
      lastEventState := event.state
      lastEventTimestampMs := event.timestampMs
      monitoredNodeState :=
        if event.nodeId = config.peerNodeId then event.state else snapshot.monitoredNodeState }
  match event.type with
  | .bootup => { noted with eventCountBootup := noted.eventCountBootup+1 }
  | .heartbeat => { noted with eventCountHeartbeat := noted.eventCountHeartbeat+1 }
  | .heartbeatTimeout =>
    { noted with eventCountHeartbeatTimeout := noted.eventCountHeartbeatTimeout+1 }
  | .bootTimeout => { noted with eventCountBootTimeout := noted.eventCountBootTimeout+1 }
  | .networkReady =>
    { noted with eventCountNetworkReady := noted.eventCountNetworkReady+1, networkReady := true }
  | .invalidFrame => { noted with eventCountInvalidFrame := noted.eventCountInvalidFrame+1 }

def delivered (snapshot : Cia302Snapshot) (outputs : List Output) : Cia302Snapshot :=
  outputs.foldl (fun snapshot output =>
    match output with
    | .event event => cia302ReferenceEvent config snapshot event
    | .send _ _ => snapshot) snapshot

def cia302Init (masterNodeId : UInt8) (nowMs : UInt32) : Cia302Adapter :=
  let master :=
    { cia302NmtMasterInit masterNodeId true true with
      bootTimeMs := config.bootTimeoutMs, nmtStartup := 0x01 }
  let configured :=
    (cia302NmtMasterConfigure master config.peerNodeId true config.autoStart
      config.heartbeatTimeoutMs).1
  let started := (cia302NmtMasterStart configured nowMs).1
  ⟨{ zeroSnapshot with
      enabled := true, monitoredNodeId := config.peerNodeId, running := started.running },started⟩

def cia302PreProcess (a : Cia302Adapter) (monitored : Option HbConsNode) (nowMs : UInt32) :
    Cia302Adapter :=
  match monitored with
  | none => a
  | some node =>
    if a.snapshot.enabled ∧ node.canRxNew then
      let received := cia302NmtMasterReceive a.master
        (cia302HeartbeatBase+config.peerNodeId.toUInt16) (some node.nmtState) 1 nowMs
      ⟨delivered config a.snapshot received.2,received.1⟩
    else a

def startFrame (node : NodeId) : Cia302Frame :=
  ⟨cia302NmtCanId,2,[cia302NmtStart,idOf node,0,0,0,0,0,0]⟩

def cia302Process (a : Cia302Adapter) (nmt : CoNmt) (nowMs : UInt32) : Cia302Adapter :=
  if !a.snapshot.enabled then a
  else
    let processed := cia302NmtMasterProcess a.master
      (fun node => cia302ReferenceSend nmt (startFrame node)) nowMs
    ⟨{ delivered config a.snapshot processed.2 with
        running := processed.1.running, networkReady := processed.1.networkReady },processed.1⟩

/-- The calls of the main loop. -/
inductive AdapterCall where
  | preProcess (monitored : Option HbConsNode) (nowMs : UInt32)
  | process (nmt : CoNmt) (nowMs : UInt32)

def takenOver : AdapterCall → List UInt8
  | .preProcess (some ⟨state,true⟩) _ => [state]
  | _ => []

/-- A call, with the state byte received from the peer in it. -/
def adapterStep (a : Cia302Adapter) (call : AdapterCall) : Cia302Adapter × List UInt8 :=
  match call with
  | .preProcess monitored nowMs => (cia302PreProcess config a monitored nowMs,takenOver call)
  | .process nmt nowMs => (cia302Process config a nmt nowMs,takenOver call)

def peerState : Output → Option UInt8
  | .event event => if event.nodeId = config.peerNodeId then some event.state else none
  | .send _ _ => none

theorem event_monitored (snapshot : Cia302Snapshot) (event : Cia302Event) :
    (cia302ReferenceEvent config snapshot event).monitoredNodeState =
      (peerState config (.event event)).getD snapshot.monitoredNodeState := by
  have hnoted : (cia302ReferenceEvent config snapshot event).monitoredNodeState =
      if event.nodeId = config.peerNodeId then event.state else snapshot.monitoredNodeState := by
    unfold cia302ReferenceEvent
    cases event.type <;> rfl
  rw [hnoted,peerState]
  split <;> rfl

theorem delivered_monitored (snapshot : Cia302Snapshot) (outputs : List Output) :
    (delivered config snapshot outputs).monitoredNodeState =
      (latest (peerState config) outputs).getD snapshot.monitoredNodeState := by
  induction outputs using List.reverseRecOn with
  | nil => rfl
  | append_singleton outputs output ih =>
    rw [latest_concat,delivered,List.foldl_append]
    cases output with
    | send _ _ => exact ih
    | event event =>
      have hevent := event_monitored config (delivered config snapshot outputs) event
      rw [ih] at hevent
      show (cia302ReferenceEvent config (delivered config snapshot outputs)
        event).monitoredNodeState = _
      rw [hevent]
      cases peerState config (.event event) <;> rfl

theorem delivered_enabled (snapshot : Cia302Snapshot) (outputs : List Output) :
    (delivered config snapshot outputs).enabled = snapshot.enabled := by
  induction outputs using List.reverseRecOn with
  | nil => rfl
  | append_singleton outputs output ih =>
    rw [delivered,List.foldl_append]
    cases output with
    | send _ _ => exact ih
    | event event =>
      obtain ⟨type,nodeId,state,timestampMs⟩ := event
      rw [← ih]
      cases type <;> rfl

def peerNode : NodeId := nodeOf config.peerNodeId

theorem peer_val : (peerNode config).val = config.peerNodeId.toNat := by
  have hvalid := config.valid
  simp only [nodeIdValid,decide_eq_true_eq] at hvalid
  exact Nat.mod_eq_of_lt (Nat.lt_succ_of_le hvalid.2)

theorem peer_id : idOf (peerNode config) = config.peerNodeId := by
  rw [idOf,peer_val,UInt8.ofNat_toNat]

theorem peer_listed : peerNode config ∈ nodeIds := by
  have hvalid := config.valid
  simp only [nodeIdValid,decide_eq_true_eq] at hvalid
  have hlow : 1 ≤ config.peerNodeId.toNat := UInt8.le_iff_toNat_le.mp hvalid.1
  rw [mem_nodeIds]
  intro h
  have hval := peer_val config
  rw [h] at hval
  change 0 = _ at hval
  omega

theorem peer_ne_zero : config.peerNodeId ≠ 0 := by
  intro h
  have hvalid := config.valid
  rw [h] at hvalid
  cases hvalid

theorem peer_frame :
    (cia302HeartbeatBase+config.peerNodeId.toUInt16).toNat =
        cia302HeartbeatBase.toNat+(peerNode config).val ∧
      (cia302HeartbeatBase+config.peerNodeId.toUInt16-cia302HeartbeatBase).toUInt8 =
        config.peerNodeId := by
  have hlt := config.peerNodeId.toNat_lt
  constructor
  · rw [peer_val,UInt16.toNat_add,UInt8.toNat_toUInt16]
    show (0x700+_)%2^16 = 0x700+_
    omega
  · rw [UInt16.add_comm,UInt16.add_sub_cancel]
    exact UInt8.toUInt8_toUInt16 _

theorem peer_output {type : Cia302EventType} {nodeId state : UInt8} {nowMs : UInt32}
    {value : UInt8} (h : peerState config (.event ⟨type,nodeId,state,nowMs⟩) = some value) :
    nodeId = config.peerNodeId ∧ value = state := by
  simp only [peerState] at h
  split at h
  · rename_i hid
    exact ⟨hid,(Option.some.inj h).symm⟩
  · cases h

end Adapter

end CanopenReference.Cia302
