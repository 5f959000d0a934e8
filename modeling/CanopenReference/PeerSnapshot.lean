import CanopenReference.Cia302

/-!
# What the snapshot says about the peer

The monitored state follows every event that names the peer. Valid state bytes
and timeouts keep it right; an invalid byte is written into it as well.
-/

set_option autoImplicit false

namespace CanopenReference.PeerSnapshot
open Library.Runs Library.History NmtMaster Cia302

def validByte (state : UInt8) : Option UInt8 :=
  if (heartbeatState state).isSome then some state else none

section Peer
variable (config : Cia302Config)

def expectedState (a : Cia302Adapter) (heard : List UInt8) : UInt8 :=
  if (a.master.nodes (peerNode config)).state = .timedOut then 0
  else (latest validByte heard).getD 0

def TracksPeer (a : Cia302Adapter) (heard : List UInt8) : Prop :=
  a.snapshot.monitoredNodeState = expectedState config a heard

instance tracksDecidable (a : Cia302Adapter) (heard : List UInt8) :
    Decidable (TracksPeer config a heard) := inferInstanceAs (Decidable (_ = _))

/-- A state byte that is taken over is valid. A node that has the peer's
identifier itself supervises nobody, and a byte must not name a state. -/
def Harmless (masterNodeId : UInt8) (call : AdapterCall) : Prop :=
  ∀ state ∈ takenOver call,
    if masterNodeId = config.peerNodeId then validByte state = none ∨ state = cia302HeartbeatBootup
    else validByte state = some state

structure Supervises (masterNodeId : UInt8) (a : Cia302Adapter) (heard : List UInt8) : Prop where
  enabled : a.snapshot.enabled = true
  running : a.master.running = true
  event : a.master.event = true
  assigned : (a.master.nodes (peerNode config)).assigned = true ↔ masterNodeId ≠ config.peerNodeId
  idle : masterNodeId = config.peerNodeId →
    a.snapshot.monitoredNodeState = 0 ∧ (a.master.nodes (peerNode config)).state ≠ .timedOut
  waiting : masterNodeId ≠ config.peerNodeId →
    (a.master.nodes (peerNode config)).state = .waitingBootup → latest validByte heard = none

variable {config} {masterNodeId : UInt8} {a : Cia302Adapter} {heard : List UInt8}

theorem latest_one (state : UInt8) :
    latest validByte (heard++[state]) = (validByte state).or (latest validByte heard) :=
  latest_concat validByte heard state

theorem pre_idle {monitored : Option HbConsNode} {nowMs : UInt32}
    (h : takenOver (.preProcess monitored nowMs) = []) :
    cia302PreProcess config a monitored nowMs = a := by
  cases monitored with
  | none => rfl
  | some node =>
    obtain ⟨state,canRxNew⟩ := node
    cases canRxNew with
    | true => cases h
    | false => exact if_neg fun hn => Bool.false_ne_true hn.2

theorem taken_byte {monitored : Option HbConsNode} {nowMs : UInt32}
    (h : takenOver (.preProcess monitored nowMs) ≠ []) :
    ∃ state, monitored = some ⟨state,true⟩ := by
  cases monitored with
  | none => exact absurd rfl h
  | some node =>
    obtain ⟨state,canRxNew⟩ := node
    cases canRxNew with
    | true => exact ⟨state,rfl⟩
    | false => exact absurd rfl h

theorem pre_takes (h : Supervises config masterNodeId a heard) (state : UInt8) (nowMs : UInt32) :
    let received := cia302NmtMasterReceive a.master
      (cia302HeartbeatBase+config.peerNodeId.toUInt16) (some state) 1 nowMs
    cia302PreProcess config a (some ⟨state,true⟩) nowMs =
      ⟨delivered config a.snapshot received.2,received.1⟩ :=
  if_pos ⟨h.enabled,rfl⟩

theorem peer_heard (h : Supervises config masterNodeId a heard) (state : UInt8)
    (nowMs : UInt32) :
    let received := cia302NmtMasterReceive a.master
      (cia302HeartbeatBase+config.peerNodeId.toUInt16) (some state) 1 nowMs
    (masterNodeId = config.peerNodeId ∧ received.1 = atNow a.master nowMs ∧
      latest (peerState config) received.2 = none) ∨
    (masterNodeId ≠ config.peerNodeId ∧
      received.1 = setNode (atNow a.master nowMs) (peerNode config)
        (refreshed nowMs (a.master.nodes (peerNode config)) state) ∧
      latest (peerState config) received.2 = some state) := by
  intro received
  obtain ⟨hcan,hid⟩ := peer_frame config
  have hfrom : heartbeatFrom (peerNode config) (cia302HeartbeatBase+config.peerNodeId.toUInt16)
      (some state) 1 = some state := if_pos ⟨rfl,hcan⟩
  have heffect := receive_effect a.master (cia302HeartbeatBase+config.peerNodeId.toUInt16)
    (some state) 1 nowMs
  change Received a.master _ _ _ _ received at heffect
  generalize received = done at heffect ⊢
  cases heffect with
  | ignored hno =>
    rcases hno with hno | hno
    · cases hno
    · rw [h.running] at hno
      cases hno
  | noted outputs hevents hnobody =>
    left
    refine ⟨?_,rfl,?_⟩
    · by_contra hne
      have := hnobody (peerNode config) (h.assigned.mpr hne)
      rw [hfrom] at this
      cases this
    · rw [← List.nil_append outputs]
      refine latest_quiet (peerState config) [] outputs fun o ho => ?_
      rw [hevents o ho,peerState]
      exact if_neg fun hc => peer_ne_zero config hc.symm
  | heard node s hrun hassigned hnode hothers =>
    have hpeer : node = peerNode config := by
      by_contra hne
      have := hothers (peerNode config) (fun he => hne he.symm)
      rw [hfrom] at this
      cases this
    subst hpeer
    rw [hfrom] at hnode
    cases hnode
    right
    refine ⟨h.assigned.mp hassigned,rfl,?_⟩
    have hevent : (atNow a.master nowMs).event = true := h.event
    rw [hid,emitEvent,if_pos hevent]
    simp [latest,peerState]

theorem starts_silent (master : Cia302NmtMaster) (accepts : NodeId → Bool) :
    ∀ o ∈ autoStarts master accepts, peerState config o = none := by
  intro o ho
  obtain ⟨node,-,ho⟩ := List.mem_flatMap.mp ho
  unfold cia302NmtMasterRequest at ho
  split at ho
  · cases ho
  · rw [List.mem_singleton.mp ho]
    rfl

theorem emit_peer {master : Cia302NmtMaster} {type : Cia302EventType} {node : NodeId}
    {o : Output} {value : UInt8} (ho : o ∈ emitEvent master type (idOf node) 0)
    (hvalue : peerState config o = some value) : node = peerNode config ∧ value = 0 := by
  rw [emit_mem master ho] at hvalue
  obtain ⟨hid,hzero⟩ := peer_output config hvalue
  exact ⟨id_injective (hid.trans (peer_id config).symm),hzero⟩

structure Processed (config : Cia302Config) (old : Cia302Node) (nowMs : UInt32)
    (done : Cia302NmtMaster × List Output) : Prop where
  node : done.1.nodes (peerNode config) = supervised nowMs old
  running : done.1.running = true
  event : done.1.event = true
  silent : ∀ o ∈ done.2, ∀ value, peerState config o = some value →
    value = 0 ∧ (overdue nowMs old = true ∨ missing (supervised nowMs old) = true)
  late : overdue nowMs old = true → ∃ o ∈ done.2, peerState config o = some 0

theorem timeouts_peer (master : Cia302NmtMaster) (nowMs : UInt32) {o : Output} {value : UInt8}
    (ho : o ∈ timeouts master nowMs) (hvalue : peerState config o = some value) :
    value = 0 ∧ overdue nowMs (master.nodes (peerNode config)) = true := by
  obtain ⟨node,hnode,ho⟩ := List.mem_flatMap.mp ho
  obtain ⟨hpeer,hzero⟩ := emit_peer ho hvalue
  have hover := (List.mem_filter.mp hnode).2
  rw [hpeer] at hover
  exact ⟨hzero,hover⟩

theorem timeouts_late (master : Cia302NmtMaster) (nowMs : UInt32) (hevent : master.event = true)
    (h : overdue nowMs (master.nodes (peerNode config)) = true) :
    ∃ o ∈ timeouts master nowMs, peerState config o = some 0 := by
  refine ⟨.event ⟨.heartbeatTimeout,idOf (peerNode config),0,nowMs⟩,List.mem_flatMap.mpr
    ⟨peerNode config,List.mem_filter.mpr ⟨peer_listed config,h⟩,?_⟩,if_pos (peer_id config)⟩
  rw [emitEvent,if_pos (show (atNow master nowMs).event = true from hevent)]
  exact List.mem_singleton.mpr rfl

theorem process_peer (h : Supervises config masterNodeId a heard) (accepts : NodeId → Bool)
    (nowMs : UInt32) :
    Processed config (a.master.nodes (peerNode config)) nowMs
      (cia302NmtMasterProcess a.master accepts nowMs) := by
  let old := a.master.nodes (peerNode config)
  let loop := supervisedMaster a.master nowMs
  have hnode : loop.nodes (peerNode config) = supervised nowMs old := if_pos (peer_listed config)
  have hdone : ∀ next outputs, next.nodes = loop.nodes → next.running = true →
      next.event = true →
      (∀ o ∈ outputs, ∀ value, peerState config o = some value →
        value = 0 ∧ missing (supervised nowMs old) = true) →
      Processed config old nowMs (next,timeouts a.master nowMs++outputs) := by
    intro next outputs hnodes hrun hevent houtputs
    refine ⟨?_,hrun,hevent,fun o ho value hvalue => ?_,fun hlate => ?_⟩
    · rw [hnodes]
      exact hnode
    · rcases List.mem_append.mp ho with ho | ho
      · obtain ⟨hzero,hover⟩ := timeouts_peer a.master nowMs ho hvalue
        exact ⟨hzero,Or.inl hover⟩
      · exact (houtputs o ho value hvalue).imp id Or.inr
    · obtain ⟨o,ho,hvalue⟩ := timeouts_late a.master nowMs h.event hlate
      exact ⟨o,List.mem_append_left _ ho,hvalue⟩
  rw [process_running a.master accepts nowMs h.running]
  have heffect := settle_effect loop accepts nowMs
  change Processed config old nowMs ((settle loop accepts nowMs).1,_++(settle loop accepts nowMs).2)
  generalize settle loop accepts nowMs = settled at heffect
  cases heffect with
  | quiet => exact hdone _ _ rfl h.running h.event fun o ho => by cases ho
  | late node hmissing =>
    refine hdone _ _ rfl h.running h.event fun o ho value hvalue => ?_
    obtain ⟨rfl,hzero⟩ := emit_peer ho hvalue
    rw [hnode] at hmissing
    exact ⟨hzero,hmissing⟩
  | ready _ _ _ =>
    refine hdone _ _ rfl h.running h.event fun o ho value hvalue => ?_
    rcases List.mem_append.mp ho with ho | ho
    · rw [emit_mem loop ho] at hvalue
      exact absurd (peer_output config hvalue).1.symm (peer_ne_zero config)
    · split at ho
      · rw [starts_silent loop accepts o ho] at hvalue
        cases hvalue
      · cases ho

theorem byte_state {state : UInt8} {next : Cia302NodeState} (h : heartbeatState state = some next) :
    next ≠ .waitingBootup ∧ next ≠ .timedOut := by
  unfold heartbeatState at h
  split at h
  · cases h
    decide
  split at h
  · cases h
    decide
  split at h
  · cases h
    decide
  · cases h

theorem valid_byte (state : UInt8) :
    (validByte state = some state ∧ ∃ next, heartbeatState state = some next) ∨
      (validByte state = none ∧ heartbeatState state = none) := by
  unfold validByte
  cases h : heartbeatState state with
  | none => exact Or.inr ⟨rfl,rfl⟩
  | some next => exact Or.inl ⟨rfl,next,rfl⟩

theorem pre_effect (h : Supervises config masterNodeId a heard) (state : UInt8) (nowMs : UInt32) :
    let next := cia302PreProcess config a (some ⟨state,true⟩) nowMs
    next.snapshot.enabled = true ∧
      ((masterNodeId = config.peerNodeId ∧ next.master = atNow a.master nowMs ∧
          next.snapshot.monitoredNodeState = a.snapshot.monitoredNodeState) ∨
        (masterNodeId ≠ config.peerNodeId ∧
          next.master = setNode (atNow a.master nowMs) (peerNode config)
            (refreshed nowMs (a.master.nodes (peerNode config)) state) ∧
          next.snapshot.monitoredNodeState = state)) := by
  intro next
  have hnext := pre_takes h state nowMs
  change next = _ at hnext
  rw [hnext]
  refine ⟨(delivered_enabled config a.snapshot _).trans h.enabled,?_⟩
  have hmonitored := delivered_monitored config a.snapshot
    (cia302NmtMasterReceive a.master (cia302HeartbeatBase+config.peerNodeId.toUInt16)
      (some state) 1 nowMs).2
  refine (peer_heard h state nowMs).imp ?_ ?_
  · rintro ⟨hself,hmaster,hsaid⟩
    rw [hsaid] at hmonitored
    exact ⟨hself,hmaster,hmonitored⟩
  · rintro ⟨hself,hmaster,hsaid⟩
    rw [hsaid] at hmonitored
    exact ⟨hself,hmaster,hmonitored⟩

theorem pre_supervises (h : Supervises config masterNodeId a heard) (state : UInt8)
    (nowMs : UInt32) :
    Supervises config masterNodeId (cia302PreProcess config a (some ⟨state,true⟩) nowMs)
      (heard++[state]) := by
  obtain ⟨henabled,heffect⟩ := pre_effect h state nowMs
  rcases heffect with ⟨hself,hmaster,hmonitored⟩ | ⟨hself,hmaster,-⟩
  · refine ⟨henabled,?_,?_,?_,fun _ => ?_,fun hne => absurd hself hne⟩
    · rw [hmaster]
      exact h.running
    · rw [hmaster]
      exact h.event
    · rw [hmaster]
      exact h.assigned
    · rw [hmaster,hmonitored]
      exact h.idle hself
  · refine ⟨henabled,?_,?_,?_,fun heq => absurd heq hself,fun _ hwaiting => ?_⟩
    · rw [hmaster]
      exact h.running
    · rw [hmaster]
      exact h.event
    · rw [hmaster,setNode_self]
      exact h.assigned
    · rw [hmaster,setNode_self] at hwaiting
      rw [latest_one]
      rcases valid_byte state with ⟨-,next,hstate⟩ | ⟨hinvalid,hstate⟩
      · rw [refreshed,hstate] at hwaiting
        exact absurd hwaiting (byte_state hstate).1
      · rw [refreshed,hstate] at hwaiting
        rw [hinvalid,Option.none_or]
        exact h.waiting hself hwaiting

theorem expected_valid (heard : List UInt8) :
    validByte ((latest validByte heard).getD 0) = some ((latest validByte heard).getD 0) := by
  cases hl : latest validByte heard with
  | none => rfl
  | some value =>
    obtain ⟨state,-,hvalue⟩ := latest_mem validByte hl
    rcases valid_byte state with ⟨hvalid,-⟩ | ⟨hinvalid,-⟩
    · rw [hvalid] at hvalue
      cases hvalue
      exact hvalid
    · rw [hinvalid] at hvalue
      cases hvalue

theorem pre_tracks (h : Supervises config masterNodeId a heard)
    (htracks : TracksPeer config a heard) (state : UInt8) (nowMs : UInt32) :
    TracksPeer config (cia302PreProcess config a (some ⟨state,true⟩) nowMs) (heard++[state]) ↔
      if masterNodeId = config.peerNodeId then
        validByte state = none ∨ state = cia302HeartbeatBootup
      else validByte state = some state := by
  obtain ⟨-,heffect⟩ := pre_effect h state nowMs
  unfold TracksPeer expectedState at htracks ⊢
  rw [latest_one]
  rcases heffect with ⟨hself,hmaster,hmonitored⟩ | ⟨hself,hmaster,hmonitored⟩
  · obtain ⟨hzero,hstate⟩ := h.idle hself
    rw [if_pos hself,hmonitored,hmaster]
    change _ = (if (a.master.nodes (peerNode config)).state = _ then _ else _) ↔ _
    rw [if_neg hstate] at htracks ⊢
    rcases valid_byte state with ⟨hvalid,next,hnext⟩ | ⟨hinvalid,-⟩
    · rw [hvalid,hzero]
      constructor
      · intro hs
        exact Or.inr hs.symm
      · rintro (hs | hs)
        · cases hs
        · exact hs.symm
    · rw [hinvalid]
      exact ⟨fun _ => Or.inl rfl,fun _ => htracks⟩
  · rw [if_neg hself,hmonitored,hmaster,setNode_self]
    rcases valid_byte state with ⟨hvalid,next,hnext⟩ | ⟨hinvalid,hnone⟩
    · rw [hvalid,refreshed,hnext]
      exact iff_of_true (if_neg (byte_state hnext).2).symm rfl
    · rw [hinvalid,refreshed,hnone,Option.none_or]
      refine iff_of_false (fun hs => ?_) (by simp)
      have hvalid := expected_valid heard
      split at hs
      · rw [hs] at hinvalid
        cases hinvalid
      · rw [← hs,hinvalid] at hvalid
        cases hvalid

theorem supervised_state (nowMs : UInt32) (value : Cia302Node) :
    (overdue nowMs value = true ∧ (supervised nowMs value).state = .timedOut) ∨
      (overdue nowMs value = false ∧ supervised nowMs value = value) := by
  unfold supervised
  cases h : overdue nowMs value with
  | true => exact Or.inl ⟨rfl,rfl⟩
  | false => exact Or.inr ⟨rfl,rfl⟩

theorem supervised_assigned (nowMs : UInt32) (value : Cia302Node) :
    (supervised nowMs value).assigned = value.assigned := by
  unfold supervised
  split <;> rfl

theorem process_monitored {old : Cia302Node} {nowMs : UInt32}
    {done : Cia302NmtMaster × List Output} (h : Processed config old nowMs done)
    (snapshot : Cia302Snapshot) :
    ((delivered config snapshot done.2).monitoredNodeState = 0 ∧
        (overdue nowMs old = true ∨ missing (supervised nowMs old) = true)) ∨
      ((delivered config snapshot done.2).monitoredNodeState = snapshot.monitoredNodeState ∧
        overdue nowMs old = false) := by
  rw [delivered_monitored]
  cases hl : latest (peerState config) done.2 with
  | some value =>
    obtain ⟨o,ho,hvalue⟩ := latest_mem (peerState config) hl
    exact Or.inl (h.silent o ho value hvalue)
  | none =>
    refine Or.inr ⟨rfl,Bool.eq_false_iff.mpr fun hlate => ?_⟩
    obtain ⟨o,ho,hvalue⟩ := h.late hlate
    obtain ⟨value,hsome⟩ := latest_exists (peerState config) ho hvalue
    rw [hl] at hsome
    cases hsome

structure Proceeds (config : Cia302Config) (a next : Cia302Adapter) (old : Cia302Node)
    (nowMs : UInt32) : Prop where
  enabled : next.snapshot.enabled = true
  running : next.master.running = true
  event : next.master.event = true
  node : next.master.nodes (peerNode config) = supervised nowMs old
  monitored : (next.snapshot.monitoredNodeState = 0 ∧
      (overdue nowMs old = true ∨ missing (supervised nowMs old) = true)) ∨
    (next.snapshot.monitoredNodeState = a.snapshot.monitoredNodeState ∧ overdue nowMs old = false)

theorem process_effect (h : Supervises config masterNodeId a heard) (nmt : CoNmt)
    (nowMs : UInt32) :
    Proceeds config a (cia302Process config a nmt nowMs) (a.master.nodes (peerNode config))
      nowMs := by
  have hnext : cia302Process config a nmt nowMs = _ := if_neg (by simp [h.enabled])
  rw [hnext]
  have hdone := process_peer h (fun node => cia302ReferenceSend nmt (startFrame node)) nowMs
  exact ⟨(delivered_enabled config a.snapshot _).trans h.enabled,hdone.running,hdone.event,
    hdone.node,process_monitored hdone a.snapshot⟩

theorem idle_unnoticed (h : Supervises config masterNodeId a heard)
    (hself : masterNodeId = config.peerNodeId) (nowMs : UInt32) :
    overdue nowMs (a.master.nodes (peerNode config)) = false ∧
      missing (supervised nowMs (a.master.nodes (peerNode config))) = false := by
  have hassigned : (a.master.nodes (peerNode config)).assigned = false :=
    Bool.eq_false_iff.mpr fun hc => h.assigned.mp hc hself
  simp [overdue,missing,supervised_assigned,hassigned]

theorem process_supervises (h : Supervises config masterNodeId a heard) (nmt : CoNmt)
    (nowMs : UInt32) :
    Supervises config masterNodeId (cia302Process config a nmt nowMs) heard := by
  have hnext := process_effect h nmt nowMs
  have hstate := supervised_state nowMs (a.master.nodes (peerNode config))
  refine ⟨hnext.enabled,hnext.running,hnext.event,?_,fun hself => ?_,fun hself hwaiting => ?_⟩
  · rw [hnext.node,supervised_assigned]
    exact h.assigned
  · obtain ⟨hover,hmissing⟩ := idle_unnoticed h hself nowMs
    obtain ⟨hzero,hnot⟩ := h.idle hself
    rcases hnext.monitored with ⟨-,hlate | hlost⟩ | ⟨hsame,-⟩
    · rw [hover] at hlate
      cases hlate
    · rw [hmissing] at hlost
      cases hlost
    · refine ⟨hsame.trans hzero,?_⟩
      rcases hstate with ⟨hlate,-⟩ | ⟨-,hkept⟩
      · rw [hover] at hlate
        cases hlate
      · rw [hnext.node,hkept]
        exact hnot
  · rw [hnext.node] at hwaiting
    rcases hstate with ⟨-,hlost⟩ | ⟨-,hkept⟩
    · rw [hlost] at hwaiting
      cases hwaiting
    · rw [hkept] at hwaiting
      exact h.waiting hself hwaiting

theorem missing_expected (h : Supervises config masterNodeId a heard)
    (hmissing : missing (a.master.nodes (peerNode config)) = true) :
    expectedState config a heard = 0 := by
  simp only [missing,decide_eq_true_eq] at hmissing
  obtain ⟨hassigned,-,hwaiting | hlost⟩ := hmissing
  · rw [expectedState,h.waiting (h.assigned.mp hassigned) hwaiting]
    split <;> rfl
  · exact if_pos hlost

theorem process_tracks (h : Supervises config masterNodeId a heard)
    (htracks : TracksPeer config a heard) (nmt : CoNmt) (nowMs : UInt32) :
    TracksPeer config (cia302Process config a nmt nowMs) heard := by
  have hnext := process_effect h nmt nowMs
  have hnode := hnext.node
  rcases supervised_state nowMs (a.master.nodes (peerNode config)) with
    ⟨hlate,hlost⟩ | ⟨hover,hkept⟩
  · have hexpected : expectedState config (cia302Process config a nmt nowMs) heard = 0 := by
      rw [expectedState,hnode,if_pos hlost]
    rcases hnext.monitored with ⟨hzero,-⟩ | ⟨-,hover⟩
    · exact hzero.trans hexpected.symm
    · rw [hlate] at hover
      cases hover
  · rw [hkept] at hnode
    have hexpected : expectedState config (cia302Process config a nmt nowMs) heard =
        expectedState config a heard := by
      rw [expectedState,hnode,expectedState]
    rcases hnext.monitored with ⟨hzero,htold⟩ | ⟨hsame,-⟩
    · rw [hkept,hover] at htold
      have hmissing := htold.resolve_left Bool.false_ne_true
      exact hzero.trans (hexpected.trans (missing_expected h hmissing)).symm
    · exact hsame.trans (htracks.trans hexpected.symm)

theorem supervises_step (a : Cia302Adapter) (heard : List UInt8) (call : AdapterCall)
    (h : Supervises config masterNodeId a heard) :
    Supervises config masterNodeId (adapterStep config a call).1
      (heard++(adapterStep config a call).2) := by
  cases call with
  | process nmt nowMs =>
    show Supervises config masterNodeId _ (heard++[])
    rw [List.append_nil]
    exact process_supervises h nmt nowMs
  | preProcess monitored nowMs =>
    by_cases htaken : takenOver (.preProcess monitored nowMs) = []
    · show Supervises config masterNodeId (cia302PreProcess config a monitored nowMs)
        (heard++takenOver (.preProcess monitored nowMs))
      rw [htaken,List.append_nil,pre_idle htaken]
      exact h
    · obtain ⟨state,rfl⟩ := taken_byte htaken
      exact pre_supervises h state nowMs

theorem tracks_step (a : Cia302Adapter) (heard : List UInt8) (call : AdapterCall)
    (h : Supervises config masterNodeId a heard) (htracks : TracksPeer config a heard) :
    TracksPeer config (adapterStep config a call).1 (heard++(adapterStep config a call).2) ↔
      Harmless config masterNodeId call := by
  have hquiet : takenOver call = [] → Harmless config masterNodeId call := by
    intro hnone state hs
    rw [hnone] at hs
    cases hs
  cases call with
  | process nmt nowMs =>
    show TracksPeer config _ (heard++[]) ↔ _
    rw [List.append_nil]
    exact iff_of_true (process_tracks h htracks nmt nowMs) (hquiet rfl)
  | preProcess monitored nowMs =>
    by_cases htaken : takenOver (.preProcess monitored nowMs) = []
    · show TracksPeer config (cia302PreProcess config a monitored nowMs)
        (heard++takenOver (.preProcess monitored nowMs)) ↔ _
      rw [htaken,List.append_nil,pre_idle htaken]
      exact iff_of_true htracks (hquiet htaken)
    · obtain ⟨state,rfl⟩ := taken_byte htaken
      refine (pre_tracks h htracks state nowMs).trans ?_
      simp [Harmless,takenOver]

end Peer

theorem start_runs {master : Cia302NmtMaster} (nowMs : UInt32) (hsend : master.send = true)
    (hstartup : master.nmtStartup = 0x01) :
    let started := (cia302NmtMasterStart master nowMs).1
    started.running = true ∧ started.event = master.event ∧ ∀ n, started.nodes n =
      if n ∈ nodeIds ∧ (master.nodes n).assigned then
        { master.nodes n with state := .waitingBootup, lastHeartbeatMs := nowMs }
      else master.nodes n := by
  unfold cia302NmtMasterStart
  rw [if_neg (by rw [hsend,hstartup]; decide)]
  exact ⟨rfl,rfl,fun _ => rfl⟩

theorem configure_peer (config : Cia302Config) (master : Cia302NmtMaster) :
    let configured := (cia302NmtMasterConfigure master config.peerNodeId true config.autoStart
      config.heartbeatTimeoutMs).1
    configured.send = master.send ∧ configured.nmtStartup = master.nmtStartup ∧
      configured.event = master.event ∧
      ((master.masterNodeId = config.peerNodeId ∧
          configured.nodes (peerNode config) = master.nodes (peerNode config)) ∨
        (master.masterNodeId ≠ config.peerNodeId ∧
          (configured.nodes (peerNode config)).assigned = true)) := by
  unfold cia302NmtMasterConfigure
  by_cases hself : master.masterNodeId = config.peerNodeId
  · rw [if_pos (Or.inr hself.symm)]
    exact ⟨rfl,rfl,rfl,Or.inl ⟨hself,rfl⟩⟩
  · have hfine : ¬((!nodeIdValid config.peerNodeId) = true ∨
        config.peerNodeId = master.masterNodeId) := by
      rw [config.valid]
      rintro (h | h)
      · cases h
      · exact hself h.symm
    rw [if_neg hfine]
    refine ⟨rfl,rfl,rfl,Or.inr ⟨hself,?_⟩⟩
    show ((setNode master (peerNode config) _).nodes (peerNode config)).assigned = true
    rw [setNode_self]

theorem init_master (config : Cia302Config) (masterNodeId : UInt8) (nowMs : UInt32) :
    let master := (cia302Init config masterNodeId nowMs).master
    master.running = true ∧ master.event = true ∧
      ((masterNodeId = config.peerNodeId ∧ master.nodes (peerNode config) = zeroNode) ∨
        (masterNodeId ≠ config.peerNodeId ∧
          (master.nodes (peerNode config)).assigned = true ∧
          (master.nodes (peerNode config)).state = .waitingBootup)) := by
  intro master
  obtain ⟨hsend,hstartup,hevent,hpeer⟩ := configure_peer config
    { cia302NmtMasterInit masterNodeId true true with
      bootTimeMs := config.bootTimeoutMs, nmtStartup := 0x01 }
  obtain ⟨hrun,hkept,hnodes⟩ := start_runs nowMs hsend hstartup
  have hpeerNode := hnodes (peerNode config)
  refine ⟨hrun,hkept.trans hevent,hpeer.imp ?_ ?_⟩
  · rintro ⟨hself,hzero⟩
    rw [hzero,if_neg fun hc => Bool.false_ne_true hc.2] at hpeerNode
    exact ⟨hself,hpeerNode⟩
  · rintro ⟨hother,hassigned⟩
    rw [if_pos ⟨peer_listed config,hassigned⟩] at hpeerNode
    refine ⟨hother,?_,?_⟩
    · exact (congrArg Cia302Node.assigned hpeerNode).trans hassigned
    · exact congrArg Cia302Node.state hpeerNode

theorem init_supervises (config : Cia302Config) (masterNodeId : UInt8) (nowMs : UInt32) :
    Supervises config masterNodeId (cia302Init config masterNodeId nowMs) [] ∧
      TracksPeer config (cia302Init config masterNodeId nowMs) [] := by
  obtain ⟨hrun,hevent,hnode⟩ := init_master config masterNodeId nowMs
  have hstate : ((cia302Init config masterNodeId nowMs).master.nodes (peerNode config)).state ≠
      .timedOut := by
    rcases hnode with ⟨-,hzero⟩ | ⟨-,-,hwaiting⟩
    · rw [hzero]
      decide
    · rw [hwaiting]
      decide
  refine ⟨⟨rfl,hrun,hevent,?_,fun _ => ⟨rfl,hstate⟩,fun _ _ => rfl⟩,(if_neg hstate).symm⟩
  rcases hnode with ⟨hself,hzero⟩ | ⟨hother,hassigned,-⟩
  · rw [hzero]
    exact iff_of_false Bool.false_ne_true fun hne => hne hself
  · exact iff_of_true hassigned hother

/-- Over every run of the adapter after its initialisation, the monitored state
is the last valid one of the peer, or 0 before one and while it is timed out,
exactly when every call is harmless. -/
theorem snapshot_tracks_iff (config : Cia302Config) (masterNodeId : UInt8) (nowMs : UInt32)
    (calls : List AdapterCall) :
    let start := cia302Init config masterNodeId nowMs
    (∀ n, TracksPeer config (run (adapterStep config) start (calls.take n)).1
        (run (adapterStep config) start (calls.take n)).2) ↔
      ∀ call ∈ calls, Harmless config masterNodeId call := by
  intro start
  obtain ⟨hstart,htracks⟩ := init_supervises config masterNodeId nowMs
  have hrun := along_iff_states (adapterStep config) (fun _ call => Harmless config masterNodeId call)
    (Supervises config masterNodeId) (TracksPeer config) supervises_step tracks_step start [] calls
    hstart htracks
  simp only [List.nil_append] at hrun
  rw [hrun]
  exact along_inputs _ _ _

/-- An invalid state byte of the peer is shown as its state. -/
theorem invalid_byte_shown :
    ¬∀ config masterNodeId nowMs calls,
      let done := run (adapterStep config) (cia302Init config masterNodeId nowMs) calls
      TracksPeer config done.1 done.2 := by
  intro h
  have hend := h referenceConfig 10 0 [.preProcess (some ⟨0x33,true⟩) 1]
  obtain ⟨hstart,htracks⟩ := init_supervises referenceConfig 10 0
  have hvalid := (pre_tracks hstart htracks 0x33 1).mp hend
  rw [if_neg (by decide)] at hvalid
  exact absurd hvalid (by decide)

end CanopenReference.PeerSnapshot
