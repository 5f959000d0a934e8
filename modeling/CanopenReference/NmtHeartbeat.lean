import CanopenReference.Library.Clock
import CanopenReference.NmtReadiness

/-!
# Heartbeat supervision

The stored heartbeat time of a node is the last of its frames, the last start
or, when a configuration finds it current, the configuration. A node is then
declared lost only after its whole timeout has gone by since all of these.
-/

set_option autoImplicit false

namespace CanopenReference.NmtHeartbeat
open Library.Runs Library.History Library.Clock NmtMaster NmtReadiness

def startedAt : Entry → Option ℕ
  | .call time .start true => some time
  | _ => none

def configuredAt (node : NodeId) : Entry → Option (ℕ × UInt16)
  | .call time (.configure nodeId _ _ timeout) true =>
    if nodeOf nodeId = node then some (time,timeout) else none
  | _ => none

def heardAt (node : NodeId) : Entry → Option ℕ
  | .call time (.receive canId data dlc) _ =>
    if ((heartbeatFrom node canId data dlc).bind heartbeatState).isSome then some time else none
  | _ => none

def declaresLost (node : NodeId) : Entry → Bool
  | .output _ (.event e) => e.type = .heartbeatTimeout && e.nodeId = idOf node
  | _ => false

/-- For longer than the timeout the node was configured with, the master has
been started, the node configured, and nothing valid was heard from it. -/
def LostSince (node : NodeId) (history : List Entry) (now : ℕ) : Prop :=
  ∃ start config timeout, latest startedAt history = some start ∧
    latest (configuredAt node) history = some (config,timeout) ∧ timeout ≠ 0 ∧
    start+timeout.toNat < now ∧ config+timeout.toNat < now ∧
    ∀ heard, latest (heardAt node) history = some heard → heard+timeout.toNat < now

/-- A running master gives a timeout to a node whose heartbeat time is not the
current one. -/
def stale (s : Supervisor) (input : ℕ × Call) : Bool :=
  match input.2 with
  | .configure nodeId mandatory autoStart timeout =>
    s.master.running && (cia302NmtMasterConfigure s.master nodeId mandatory autoStart timeout).2 &&
      timeout ≠ 0 &&
      (s.master.nodes (nodeOf nodeId)).lastHeartbeatMs ≠ UInt32.ofNat (s.time+input.1)
  | _ => false

/-- Start, configuration and frames of the node lie at or before `f`. -/
structure Before (node : NodeId) (history : List Entry) (f : ℕ) : Prop where
  start : ∀ t, latest startedAt history = some t → t ≤ f
  config : ∀ c, latest (configuredAt node) history = some c → c.1 ≤ f
  heard : ∀ t, latest (heardAt node) history = some t → t ≤ f

structure Stamped (node : NodeId) (value : Cia302Node) (running : Bool) (history : List Entry)
    (now : ℕ) : Prop where
  known : value.assigned = true →
    node ≠ 0 ∧ ∃ c, latest (configuredAt node) history = some (c,value.heartbeatTimeoutMs)
  stamp : running = true → value.assigned = true → value.heartbeatTimeoutMs ≠ 0 →
    ∃ f, f ≤ now ∧ value.lastHeartbeatMs = UInt32.ofNat f ∧ Before node history f

structure Clocked (s : Supervisor) (history : List Entry) : Prop where
  timed : ∀ time call result, .call time call result ∈ history → time ≤ s.time
  begun : s.master.running = true → ∃ t, latest startedAt history = some t
  nodes : ∀ n, Stamped n (s.master.nodes n) s.master.running history s.time

section Answers
variable {α : Type*} {answer : Entry → Option α} {history : List Entry} {e : Entry}
  {outputs : List Output} {automatic : Bool} {node : NodeId}

theorem latest_step (h : ∀ automatic o, answer (.output automatic o) = none) :
    latest answer (history++e::outputs.map (Entry.output automatic)) =
      (answer e).or (latest answer history) := by
  rw [List.append_cons,latest_quiet,latest_concat]
  intro x hx
  obtain ⟨o,-,rfl⟩ := List.mem_map.mp hx
  exact h automatic o

theorem started_step :
    latest startedAt (history++e::outputs.map (Entry.output automatic)) =
      (startedAt e).or (latest startedAt history) := latest_step fun _ _ => rfl

theorem configured_step :
    latest (configuredAt node) (history++e::outputs.map (Entry.output automatic)) =
      (configuredAt node e).or (latest (configuredAt node) history) := latest_step fun _ _ => rfl

theorem heard_step :
    latest (heardAt node) (history++e::outputs.map (Entry.output automatic)) =
      (heardAt node e).or (latest (heardAt node) history) := latest_step fun _ _ => rfl

theorem before_now {now : ℕ} (h : ∀ time call result, .call time call result ∈ history → time ≤ now) :
    Before node history now := by
  constructor
  · intro t ht
    obtain ⟨e,he,hanswer⟩ := latest_mem _ ht
    unfold startedAt at hanswer
    split at hanswer
    · cases hanswer
      exact h _ _ _ he
    · cases hanswer
  · intro c hc
    obtain ⟨e,he,hanswer⟩ := latest_mem _ hc
    unfold configuredAt at hanswer
    split at hanswer
    · split at hanswer
      · cases hanswer
        exact h _ _ _ he
      · cases hanswer
    · cases hanswer
  · intro t ht
    obtain ⟨e,he,hanswer⟩ := latest_mem _ ht
    unfold heardAt at hanswer
    split at hanswer
    · split at hanswer
      · cases hanswer
        exact h _ _ _ he
      · cases hanswer
    · cases hanswer

theorem timed_step {now later : ℕ} {call : Call} {result : Bool}
    (h : ∀ time call result, .call time call result ∈ history → time ≤ now) (hle : now ≤ later) :
    ∀ time call' result', Entry.call time call' result' ∈
      history++.call later call result::outputs.map (Entry.output automatic) → time ≤ later := by
  intro time call' result' hmem
  rcases List.mem_append.mp hmem with hmem | hmem
  · exact (h _ _ _ hmem).trans hle
  rcases List.mem_cons.mp hmem with hmem | hmem
  · cases hmem
    exact Nat.le_refl _
  · obtain ⟨o,-,ho⟩ := List.mem_map.mp hmem
    cases ho

end Answers

section Nodes
variable {node : NodeId} {value value' : Cia302Node} {running running' : Bool}
  {history : List Entry} {now later : ℕ} {e : Entry} {outputs : List Output} {automatic : Bool}

theorem stamped_kept (h : Stamped node value running history now) (hle : now ≤ later)
    (hstart : startedAt e = none) (hconfig : configuredAt node e = none)
    (hheard : value.assigned = true → running = true → heardAt node e = none)
    (hassigned : value'.assigned = value.assigned)
    (htimeout : value'.heartbeatTimeoutMs = value.heartbeatTimeoutMs)
    (hlast : value'.lastHeartbeatMs = value.lastHeartbeatMs) (hrun : running' = running) :
    Stamped node value' running' (history++e::outputs.map (Entry.output automatic)) later := by
  constructor
  · rw [hassigned,htimeout,configured_step,hconfig,Option.none_or]
    exact h.known
  · rw [hassigned,htimeout,hlast,hrun]
    intro hrunning hassign hzero
    obtain ⟨f,hf,hstamp,hbefore⟩ := h.stamp hrunning hassign hzero
    refine ⟨f,hf.trans hle,hstamp,?_⟩
    constructor
    · rw [started_step,hstart,Option.none_or]
      exact hbefore.start
    · rw [configured_step,hconfig,Option.none_or]
      exact hbefore.config
    · rw [heard_step,hheard hassign hrunning,Option.none_or]
      exact hbefore.heard

theorem stamped_now
    (htimed : ∀ time call result, .call time call result ∈ history → time ≤ now)
    (hknown : value.assigned = true →
      node ≠ 0 ∧ ∃ c, latest (configuredAt node) history = some (c,value.heartbeatTimeoutMs))
    (hstamp : running = true → value.assigned = true → value.heartbeatTimeoutMs ≠ 0 →
      value.lastHeartbeatMs = UInt32.ofNat now) :
    Stamped node value running history now :=
  ⟨hknown,fun hr ha hz => ⟨now,Nat.le_refl now,hstamp hr ha hz,before_now htimed⟩⟩

end Nodes

theorem process_keeps (master : Cia302NmtMaster) (accepts : NodeId → Bool) (nowMs : UInt32) :
    (cia302NmtMasterProcess master accepts nowMs).1.running = master.running := by
  cases hrun : master.running with
  | false => rw [process_stopped _ _ _ hrun,hrun]
  | true =>
    rw [process_running _ _ _ hrun]
    have hsettled := settle_effect (supervisedMaster master nowMs) accepts nowMs
    generalize settle (supervisedMaster master nowMs) accepts nowMs = settled at hsettled ⊢
    cases hsettled <;> exact hrun

theorem process_stamp (master : Cia302NmtMaster) (accepts : NodeId → Bool) (nowMs : UInt32)
    (n : NodeId) :
    let value := (cia302NmtMasterProcess master accepts nowMs).1.nodes n
    value.assigned = (master.nodes n).assigned ∧
      value.heartbeatTimeoutMs = (master.nodes n).heartbeatTimeoutMs ∧
      value.lastHeartbeatMs = (master.nodes n).lastHeartbeatMs := by
  intro value
  have hvalue : value = _ := process_nodes master accepts nowMs n
  rw [hvalue]
  unfold supervised
  split
  · split <;> exact ⟨rfl,rfl,rfl⟩
  · exact ⟨rfl,rfl,rfl⟩

section Calls
variable {s : Supervisor} {history : List Entry}

theorem clocked_kept (h : Clocked s history) {wait : ℕ} {master : Cia302NmtMaster}
    {call : Call} {result : Bool} (outputs : List Output) {automatic : Bool}
    (hstart : startedAt (.call (s.time+wait) call result) = none)
    (hrun : master.running = s.master.running)
    (hnodes : ∀ n, Stamped n (master.nodes n) master.running
      (history++.call (s.time+wait) call result::outputs.map (.output automatic)) (s.time+wait)) :
    Clocked ⟨master,s.time+wait⟩
      (history++.call (s.time+wait) call result::outputs.map (.output automatic)) := by
  refine ⟨timed_step h.timed (Nat.le_add_right _ _),?_,hnodes⟩
  show master.running = true → _
  rw [started_step,hstart,Option.none_or,hrun]
  exact h.begun

theorem configure_clocked (wait : ℕ) (nodeId : UInt8) (mandatory autoStart : Bool)
    (timeout : UInt16) (h : Clocked s history)
    (hc : stale s (wait,.configure nodeId mandatory autoStart timeout) = false) :
    Clocked (nmtStep s (wait,.configure nodeId mandatory autoStart timeout)).1
      (history++(nmtStep s (wait,.configure nodeId mandatory autoStart timeout)).2) := by
  have hle : s.time ≤ s.time+wait := Nat.le_add_right _ _
  simp only [nmtStep,perform]
  simp only [stale] at hc
  rcases configure_effect s.master nodeId mandatory autoStart timeout with he | ⟨hne,he⟩
  · rw [he]
    exact clocked_kept h [] rfl rfl fun n =>
      stamped_kept (h.nodes n) hle rfl rfl (fun _ _ => rfl) rfl rfl rfl rfl
  rw [he] at hc ⊢
  refine clocked_kept h [] rfl rfl fun n => ?_
  by_cases hn : n = nodeOf nodeId
  · subst hn
    rw [setNode_self]
    refine stamped_now (timed_step h.timed hle) (fun _ => ⟨hne,s.time+wait,?_⟩)
      fun hrun _ hzero => ?_
    · rw [configured_step]
      simp [configuredAt,assignedNode]
    · have hrunning : s.master.running = true := hrun
      have htimeout : timeout ≠ 0 := hzero
      show (s.master.nodes (nodeOf nodeId)).lastHeartbeatMs = _
      simpa [hrunning,htimeout] using hc
  · rw [setNode_other _ _ _ hn]
    exact stamped_kept (h.nodes n) hle rfl (if_neg fun hid => hn hid.symm) (fun _ _ => rfl)
      rfl rfl rfl rfl

theorem start_clocked (wait : ℕ) (h : Clocked s history) :
    Clocked (nmtStep s (wait,.start)).1
      (history++(nmtStep s (wait,.start)).2) := by
  have hle : s.time ≤ s.time+wait := Nat.le_add_right _ _
  simp only [nmtStep,perform]
  rcases start_effect s.master (UInt32.ofNat (s.time+wait)) with he | ⟨hdone,he⟩
  · rw [he]
    exact clocked_kept h [] rfl rfl fun n =>
      stamped_kept (h.nodes n) hle rfl rfl (fun _ _ => rfl) rfl rfl rfl rfl
  · rw [hdone]
    refine ⟨timed_step h.timed hle,fun _ => ⟨s.time+wait,?_⟩,fun n => ?_⟩
    · rw [started_step]
      rfl
    · have hknown := (h.nodes n).known
      rw [he.nodes n]
      split
      · rename_i hold
        refine stamped_now (timed_step h.timed hle) (fun _ => ?_) fun _ _ _ => rfl
        rw [configured_step]
        exact hknown hold.2
      · rename_i hold
        have hfree : (s.master.nodes n).assigned = false := by
          by_contra hassigned
          rw [Bool.not_eq_false] at hassigned
          exact hold ⟨(mem_nodeIds n).mpr (hknown hassigned).1,hassigned⟩
        exact ⟨fun ha => absurd (ha.symm.trans hfree) (by decide),
          fun _ ha => absurd (ha.symm.trans hfree) (by decide)⟩

theorem receive_clocked (wait : ℕ) (canId : UInt16) (data : Option UInt8) (dlc : UInt8)
    (h : Clocked s history) :
    Clocked (nmtStep s (wait,.receive canId data dlc)).1
      (history++(nmtStep s (wait,.receive canId data dlc)).2) := by
  have hle : s.time ≤ s.time+wait := Nat.le_add_right _ _
  have heffect := receive_effect s.master canId data dlc (UInt32.ofNat (s.time+wait))
  simp only [nmtStep,perform]
  generalize cia302NmtMasterReceive s.master canId data dlc (UInt32.ofNat (s.time+wait)) =
    received at heffect ⊢
  have hsilent : ∀ {n}, heartbeatFrom n canId data dlc = none →
      heardAt n (.call (s.time+wait) (.receive canId data dlc) true) = none := by
    intro n hnone
    simp [heardAt,hnone]
  cases heffect with
  | ignored hignored =>
    refine clocked_kept h [] rfl rfl fun n =>
      stamped_kept (h.nodes n) hle rfl rfl (fun _ hrun => ?_) rfl rfl rfl rfl
    rcases hignored with rfl | hstopped
    · apply hsilent
      simp [heartbeatFrom]
    · exact absurd (hrun.symm.trans hstopped) (by decide)
  | noted outputs _ hnone =>
    exact clocked_kept h _ rfl rfl fun n =>
      stamped_kept (h.nodes n) hle rfl rfl (fun ha _ => hsilent (hnone n ha)) rfl rfl rfl rfl
  | heard node state _ hassigned hfrom hothers =>
    refine clocked_kept h _ rfl rfl fun n => ?_
    by_cases hn : n = node
    · subst hn
      rw [setNode_self]
      refine stamped_now (timed_step h.timed hle) (fun _ => ?_) fun _ _ _ => rfl
      rw [configured_step]
      exact (h.nodes n).known hassigned
    · rw [setNode_other _ _ _ hn]
      exact stamped_kept (h.nodes n) hle rfl rfl (fun _ _ => hsilent (hothers n hn))
        rfl rfl rfl rfl

end Calls

theorem clocked_step (s : Supervisor) (history : List Entry) (input : ℕ × Call)
    (h : Clocked s history) (hc : stale s input = false) :
    Clocked (nmtStep s input).1 (history++(nmtStep s input).2) := by
  obtain ⟨wait,call⟩ := input
  have hle : s.time ≤ s.time+wait := Nat.le_add_right _ _
  cases call with
  | policy nmtStartup bootTimeMs =>
    exact clocked_kept h [] rfl rfl fun n =>
      stamped_kept (h.nodes n) hle rfl rfl (fun _ _ => rfl) rfl rfl rfl rfl
  | request command nodeId accepts =>
    exact clocked_kept h _ rfl rfl fun n =>
      stamped_kept (h.nodes n) hle rfl rfl (fun _ _ => rfl) rfl rfl rfl rfl
  | configure nodeId mandatory autoStart timeout =>
    exact configure_clocked wait nodeId mandatory autoStart timeout h hc
  | start => exact start_clocked wait h
  | receive canId data dlc => exact receive_clocked wait canId data dlc h
  | process accepts =>
    refine clocked_kept h _ rfl (process_keeps _ _ _) fun n => ?_
    obtain ⟨hassigned,htimeout,hlast⟩ :=
      process_stamp s.master accepts (UInt32.ofNat (s.time+wait)) n
    exact stamped_kept (h.nodes n) hle rfl rfl (fun _ _ => rfl) hassigned htimeout hlast
      (process_keeps _ _ _)

theorem clocked_run (masterNodeId : UInt8) (send event : Bool) (time : ℕ)
    (inputs : List (ℕ × Call))
    (hc : Along nmtStep (fun s input => stale s input = false)
      (freshSupervisor masterNodeId send event time) inputs) :
    Clocked (run nmtStep (freshSupervisor masterNodeId send event time) inputs).1
      (run nmtStep (freshSupervisor masterNodeId send event time) inputs).2 := by
  have h := along_history nmtStep (fun s input => stale s input = false) Clocked clocked_step
    (freshSupervisor masterNodeId send event time) [] inputs ?_ hc
  · simpa using h
  · constructor
    · intro _ _ _ hmem
      cases hmem
    · intro hrun
      cases hrun
    · intro n
      exact ⟨(fun ha => by cases ha),fun hr => by cases hr⟩

theorem not_lost {master : Cia302NmtMaster} {type : Cia302EventType} {nodeId state : UInt8}
    {automatic : Bool} {node : NodeId} {o : Output} (h : type ≠ .heartbeatTimeout)
    (ho : o ∈ emitEvent master type nodeId state) :
    declaresLost node (.output automatic o) = false := by
  rw [emit_mem master ho]
  simp [declaresLost,h]

theorem request_not_lost {master : Cia302NmtMaster} {command nodeId : UInt8} {accepts : Bool}
    {automatic : Bool} {node : NodeId} {o : Output}
    (ho : o ∈ (cia302NmtMasterRequest master command nodeId accepts).2) :
    declaresLost node (.output automatic o) = false := by
  unfold cia302NmtMasterRequest at ho
  split at ho
  · cases ho
  · rw [List.mem_singleton.mp ho]
    rfl

theorem settled_not_lost {master : Cia302NmtMaster} {accepts : NodeId → Bool}
    {settled : Cia302NmtMaster × List Output} (h : Settled master accepts settled)
    {automatic : Bool} {node : NodeId} {o : Output} (ho : o ∈ settled.2) :
    declaresLost node (.output automatic o) = false := by
  cases h with
  | quiet => cases ho
  | late n _ => exact not_lost (fun hc => by cases hc) ho
  | ready _ _ _ =>
    rcases List.mem_append.mp ho with ho | ho
    · exact not_lost (fun hc => by cases hc) ho
    split at ho
    · obtain ⟨n,-,ho⟩ := List.mem_flatMap.mp ho
      exact request_not_lost ho
    · cases ho

theorem lost_supervised (s : Supervisor) (input : ℕ × Call) (node : NodeId) (e : Entry)
    (he : e ∈ (nmtStep s input).2) (hlost : declaresLost node e = true) :
    (∃ accepts, input.2 = .process accepts) ∧ s.master.running = true ∧
      overdue (UInt32.ofNat (s.time+input.1)) (s.master.nodes node) = true := by
  obtain ⟨wait,call⟩ := input
  have hnone : ∀ {outputs : List Output} {automatic : Bool},
      (∀ o ∈ outputs, declaresLost node (.output automatic o) = false) →
        e ∉ outputs.map (Entry.output automatic) := by
    intro outputs automatic hquiet hmem
    obtain ⟨o,ho,rfl⟩ := List.mem_map.mp hmem
    rw [hquiet o ho] at hlost
    cases hlost
  rcases List.mem_cons.mp he with rfl | he
  · cases hlost
  cases call with
  | policy _ _ => cases he
  | configure _ _ _ _ => cases he
  | start => cases he
  | request command nodeId accepts => exact absurd he (hnone fun o ho => request_not_lost ho)
  | receive canId data dlc =>
    have heffect := receive_effect s.master canId data dlc (UInt32.ofNat (s.time+wait))
    simp only [perform] at he
    generalize cia302NmtMasterReceive s.master canId data dlc (UInt32.ofNat (s.time+wait)) =
      received at heffect he
    refine absurd he (hnone fun o ho => ?_)
    cases heffect with
    | ignored _ => cases ho
    | noted outputs hevents _ =>
      rw [hevents o ho]
      rfl
    | heard n state _ _ _ _ =>
      refine not_lost ?_ ho
      rcases heard_event_kind state with h | h | h <;> rw [h] <;> decide
  | process accepts =>
    simp only [perform] at he
    cases hrun : s.master.running with
    | false =>
      rw [process_stopped _ _ _ hrun] at he
      cases he
    | true =>
      rw [process_running _ _ _ hrun] at he
      obtain ⟨o,ho,rfl⟩ := List.mem_map.mp he
      rcases List.mem_append.mp ho with ho | ho
      · obtain ⟨n,hn,ho⟩ := List.mem_flatMap.mp ho
        rw [emit_mem _ ho] at hlost
        simp only [declaresLost,decide_true,Bool.true_and,decide_eq_true_eq] at hlost
        rw [← id_injective hlost]
        exact ⟨⟨accepts,rfl⟩,rfl,(List.mem_filter.mp hn).2⟩
      · rw [settled_not_lost (settle_effect _ _ _) ho] at hlost
        cases hlost

theorem lost_overdue (s : Supervisor) (input : ℕ × Call) (node : NodeId) (e : Entry)
    (he : e ∈ (nmtStep s input).2) (hlost : declaresLost node e = true) :
    s.master.running = true ∧
      overdue (UInt32.ofNat (s.time+input.1)) (s.master.nodes node) = true :=
  (lost_supervised s input node e he hlost).2

theorem overdue_since {node : NodeId} {s : Supervisor} {history : List Entry} {wait : ℕ}
    (h : Clocked s history) (hrun : s.master.running = true)
    (hover : overdue (UInt32.ofNat (s.time+wait)) (s.master.nodes node) = true) :
    LostSince node history (s.time+wait) := by
  simp only [overdue,decide_eq_true_eq] at hover
  obtain ⟨hassigned,hzero,hlate,-⟩ := hover
  obtain ⟨-,config,hconfig⟩ := (h.nodes node).known hassigned
  obtain ⟨f,hf,hstamp,hbefore⟩ := (h.nodes node).stamp hrun hassigned hzero
  obtain ⟨start,hstart⟩ := h.begun hrun
  have helapsed : f+(s.master.nodes node).heartbeatTimeoutMs.toNat < s.time+wait := by
    have hle := elapsed_le (hf.trans (Nat.le_add_right s.time wait))
    rw [hstamp,UInt32.lt_iff_toNat_lt,UInt16.toNat_toUInt32] at hlate
    omega
  refine ⟨start,config,_,hstart,hconfig,hzero,?_,?_,?_⟩
  · have := hbefore.start _ hstart
    omega
  · have := hbefore.config _ hconfig
    omega
  · intro heard hheard
    have := hbefore.heard _ hheard
    omega

/-- Where no configuration gives a running master a timeout for a node whose
heartbeat time is not the current one, a node is declared lost only after its
whole timeout without a start, a configuration or a valid frame of it. -/
theorem supervision_sound (masterNodeId : UInt8) (send event : Bool) (time : ℕ)
    (inputs : List (ℕ × Call)) (input : ℕ × Call) (node : NodeId)
    (hc : Along nmtStep (fun s input => stale s input = false)
      (freshSupervisor masterNodeId send event time) inputs) :
    let before := run nmtStep (freshSupervisor masterNodeId send event time) inputs
    let next := nmtStep before.1 input
    ∀ e ∈ next.2, declaresLost node e = true → LostSince node before.2 next.1.time := by
  intro before next e he hlost
  obtain ⟨hrun,hover⟩ := lost_overdue before.1 input node e he hlost
  exact overdue_since (clocked_run masterNodeId send event time inputs hc) hrun hover

theorem supervision_sound_peer :
    let before := run nmtStep (freshSupervisor 1 true true 0)
      [(0,.policy 1 10000),(0,.configure 2 true false 100),(1000,.start)]
    let next := nmtStep before.1 (101,.process fun _ => true)
    (∃ e ∈ next.2, declaresLost 2 e = true) ∧ LostSince 2 before.2 next.1.time := by
  intro before next
  have hlost : ∃ e ∈ next.2, declaresLost 2 e = true := by decide +kernel
  obtain ⟨e,he,h⟩ := hlost
  exact ⟨⟨e,he,h⟩,supervision_sound 1 true true 0
    [(0,.policy 1 10000),(0,.configure 2 true false 100),(1000,.start)]
    (101,.process fun _ => true) 2 (by decide +kernel) e he h⟩

/-- A node that is configured while the master runs is lost in the next call. -/
theorem configured_lost_at_once :
    let before := run nmtStep (freshSupervisor 1 true true 0)
      [(0,.policy 1 10000),(1000,.start),(0,.configure 2 true false 100)]
    let next := nmtStep before.1 (1,.process fun _ => true)
    (∃ e ∈ next.2, declaresLost 2 e = true) ∧ ¬LostSince 2 before.2 next.1.time := by
  intro before next
  constructor
  · decide +kernel
  · rintro ⟨start,config,timeout,-,hconfig,-,-,hlate,-⟩
    have hlatest : latest (configuredAt 2) before.2 = some (1000,100) := by decide +kernel
    have htime : next.1.time = 1001 := by decide +kernel
    rw [hlatest] at hconfig
    cases hconfig
    rw [htime] at hlate
    exact absurd hlate (by decide)

end CanopenReference.NmtHeartbeat
