import CanopenReference.Library.History
import CanopenReference.NmtMaster

/-!
# Readiness and automatic starts

The network is announced ready, and nodes are started, only when every
mandatory node has been heard since it was last put on hold; and after each
start of the master only once.
-/

set_option autoImplicit false

namespace CanopenReference.NmtReadiness
open Library.Runs Library.History NmtMaster

def started : Entry → Bool
  | .call _ .start result => result
  | _ => false

def configured (node : NodeId) : Entry → Bool
  | .call _ (.configure nodeId _ _ _) result => result && nodeOf nodeId = node
  | _ => false

def heardFrom (node : NodeId) : Entry → Bool
  | .call _ (.receive canId data dlc) _ =>
    ((heartbeatFrom node canId data dlc).bind heartbeatState).isSome
  | _ => false

def presence (node : NodeId) (e : Entry) : Option Bool :=
  if heardFrom node e then some true
  else if started e || configured node e then some false
  else none

/-- The node was heard since the last start and since it was last configured. -/
def HeardSince (node : NodeId) (history : List Entry) : Prop :=
  latest (presence node) history = some true

def announcesReady : Entry → Bool
  | .output _ (.event e) => e.type = .networkReady
  | _ => false

/-- A start command that no request of the application asked for. -/
def autoStarted : Entry → Bool
  | .output automatic (.send frame _) => automatic && frame.data.head? = some cia302NmtStart
  | _ => false

/-- The node is not timed out, nor overdue. -/
def InTime (s : Supervisor) (node : NodeId) : Prop :=
  let value := s.master.nodes node
  value.state ≠ .timedOut ∧ (value.heartbeatTimeoutMs = 0 ∨
    UInt32.ofNat s.time-value.lastHeartbeatMs ≤ value.heartbeatTimeoutMs.toUInt32)

def Present (state : Cia302NodeState) : Prop :=
  state ≠ .unassigned ∧ state ≠ .waitingBootup ∧ state ≠ .timedOut

structure NodeTracked (node : NodeId) (value : Cia302Node) (history : List Entry) : Prop where
  assigned : value.assigned = true → node ≠ 0 ∧ value.state ≠ .unassigned
  free : value.assigned = false → value.state = .unassigned
  heard : Present value.state → HeardSince node history

section Entries
variable (node : NodeId) (history : List Entry) (outputs : List Output) (automatic : Bool)

theorem outputs_quiet (e : Entry) (h : e ∈ outputs.map (Entry.output automatic)) :
    presence node e = none ∧ started e = false := by
  obtain ⟨o,-,rfl⟩ := List.mem_map.mp h
  exact ⟨rfl,rfl⟩

theorem presence_step (e : Entry) :
    latest (presence node) (history++e::outputs.map (Entry.output automatic)) =
      (presence node e).or (latest (presence node) history) := by
  rw [List.append_cons,latest_quiet,latest_concat]
  intro x hx
  exact (outputs_quiet node outputs automatic x hx).1

end Entries

section Nodes
variable {node : NodeId} {value : Cia302Node} {history : List Entry} {outputs : List Output}
  {automatic : Bool} {e : Entry}

theorem heard_kept (hheard : HeardSince node history) (h : presence node e ≠ some false) :
    HeardSince node (history++e::outputs.map (Entry.output automatic)) := by
  unfold HeardSince
  rw [presence_step]
  cases hp : presence node e with
  | none => exact hheard
  | some b =>
    cases b with
    | false => exact absurd hp h
    | true => rfl

theorem node_kept (hnode : NodeTracked node value history) (h : presence node e ≠ some false) :
    NodeTracked node value (history++e::outputs.map (Entry.output automatic)) where
  assigned := hnode.assigned
  free := hnode.free
  heard := fun hp => heard_kept (hnode.heard hp) h

theorem absent (hassigned : value.assigned = true → node ≠ 0 ∧ value.state = .waitingBootup)
    (hfree : value.assigned = false → value.state = .unassigned) :
    NodeTracked node value history where
  assigned := fun h => ⟨(hassigned h).1,by rw [(hassigned h).2]; decide⟩
  free := hfree
  heard := by
    rintro ⟨hu,hw,-⟩
    cases h : value.assigned with
    | true => exact absurd (hassigned h).2 hw
    | false => exact absurd (hfree h) hu

theorem supervised_kept (nowMs : UInt32) (hnode : NodeTracked node value history)
    (h : presence node e ≠ some false) :
    NodeTracked node (supervised nowMs value)
      (history++e::outputs.map (Entry.output automatic)) := by
  unfold supervised
  split
  · rename_i hover
    have hassigned : value.assigned = true := by
      simp only [overdue,decide_eq_true_eq] at hover
      exact hover.1
    constructor
    · exact fun _ => ⟨(hnode.assigned hassigned).1,fun hc => by cases hc⟩
    · exact fun hf => absurd (hassigned.symm.trans hf) (by decide)
    · exact fun hp => absurd rfl hp.2.2
  · exact node_kept hnode h

theorem refreshed_kept {canId : UInt16} {data : Option UInt8} {dlc : UInt8} {time : ℕ}
    {result : Bool} (nowMs : UInt32) (state : UInt8) (hnode : NodeTracked node value history)
    (hassigned : value.assigned = true)
    (hfrom : heartbeatFrom node canId data dlc = some state) :
    NodeTracked node (refreshed nowMs value state)
      (history++.call time (.receive canId data dlc) result::
        outputs.map (Entry.output automatic)) := by
  have hheard : heardFrom node (.call time (.receive canId data dlc) result) =
      (heartbeatState state).isSome := by
    show ((heartbeatFrom node canId data dlc).bind heartbeatState).isSome = _
    rw [hfrom]
    rfl
  cases hs : heartbeatState state with
  | none =>
    have hpresence : presence node (.call time (.receive canId data dlc) result) = none := by
      unfold presence
      rw [hheard,hs]
      rfl
    have hstate : (refreshed nowMs value state).state = value.state := by
      unfold refreshed
      rw [hs]
      rfl
    exact ⟨fun h => by rw [hstate]; exact hnode.assigned h,
      fun h => by rw [hstate]; exact hnode.free h,
      fun h => heard_kept (hnode.heard (hstate ▸ h)) (by rw [hpresence]; simp)⟩
  | some reported =>
    have hpresence : presence node (.call time (.receive canId data dlc) result) = some true := by
      unfold presence
      rw [hheard,hs]
      rfl
    have hvalid : reported ≠ .unassigned := by
      rintro rfl
      unfold heartbeatState at hs
      split at hs
      · cases hs
      split at hs
      · cases hs
      split at hs <;> cases hs
    refine ⟨fun _ => ⟨(hnode.assigned hassigned).1,?_⟩,fun h => ?_,fun _ => ?_⟩
    · show (heartbeatState state).getD value.state ≠ .unassigned
      rw [hs]
      exact hvalid
    · exact absurd (hassigned.symm.trans h) (by decide)
    · unfold HeardSince
      rw [presence_step,hpresence]
      rfl

end Nodes

theorem nodes_step (s : Supervisor) (input : ℕ × Call) (history : List Entry)
    (h : ∀ n, NodeTracked n (s.master.nodes n) history) (n : NodeId) :
    NodeTracked n ((nmtStep s input).1.master.nodes n) (history++(nmtStep s input).2) := by
  obtain ⟨wait,call⟩ := input
  have hquiet : ∀ {e : Entry}, heardFrom n e = false → started e = false →
      configured n e = false → presence n e ≠ some false := by
    intro e hh hs hc
    simp [presence,hh,hs,hc]
  cases call with
  | policy nmtStartup bootTimeMs => exact node_kept (h n) (hquiet rfl rfl rfl)
  | request command nodeId accepts => exact node_kept (h n) (hquiet rfl rfl rfl)
  | configure nodeId mandatory autoStart timeout =>
    simp only [nmtStep,perform]
    rcases configure_effect s.master nodeId mandatory autoStart timeout with he | ⟨hne,he⟩
    · rw [he]
      exact node_kept (h n) (hquiet rfl rfl rfl)
    rw [he]
    by_cases hn : n = nodeOf nodeId
    · subst hn
      rw [setNode_self]
      exact absent (fun _ => ⟨hne,rfl⟩) (fun hf => by cases hf)
    · rw [setNode_other _ _ _ hn]
      refine node_kept (h n) (hquiet rfl rfl ?_)
      simp only [configured,Bool.true_and,decide_eq_false_iff_not]
      exact fun hc => hn hc.symm
  | start =>
    simp only [nmtStep,perform]
    rcases start_effect s.master (UInt32.ofNat (s.time+wait)) with he | ⟨-,he⟩
    · rw [he]
      exact node_kept (h n) (hquiet rfl rfl rfl)
    rw [he.nodes n]
    split
    · rename_i hold
      exact absent (fun _ => ⟨(mem_nodeIds n).mp hold.1,rfl⟩)
        (fun hf => absurd (hold.2.symm.trans hf) (by decide))
    · rename_i hold
      exact absent
        (fun hassigned =>
          absurd ⟨(mem_nodeIds n).mpr ((h n).assigned hassigned).1,hassigned⟩ hold)
        (h n).free
  | receive canId data dlc =>
    have hpresence : presence n (.call (s.time+wait) (.receive canId data dlc) true) ≠
        some false := by
      unfold presence
      split
      · simp
      · simp [started,configured]
    have heffect := receive_effect s.master canId data dlc (UInt32.ofNat (s.time+wait))
    simp only [nmtStep,perform]
    generalize cia302NmtMasterReceive s.master canId data dlc (UInt32.ofNat (s.time+wait)) =
      received at heffect ⊢
    cases heffect with
    | ignored _ => exact node_kept (h n) hpresence
    | noted outputs _ _ => exact node_kept (h n) hpresence
    | heard node state _ hassigned hfrom _ =>
      by_cases hn : n = node
      · subst hn
        rw [setNode_self]
        exact refreshed_kept _ state (h n) hassigned hfrom
      · rw [setNode_other _ _ _ hn]
        exact node_kept (h n) hpresence
  | process accepts =>
    simp only [nmtStep,perform,process_nodes]
    split
    · exact supervised_kept _ (h n) (hquiet rfl rfl rfl)
    · exact node_kept (h n) (hquiet rfl rfl rfl)

def uneventful (e : Entry) : Bool := !started e && !announcesReady e && !autoStarted e

def uneventfulOutput : Output → Bool
  | .event e => e.type ≠ .networkReady
  | .send _ _ => false

section Outputs
variable (master : Cia302NmtMaster)

theorem uneventful_output {automatic : Bool} {o : Output} (h : uneventfulOutput o = true) :
    uneventful (.output automatic o) = true := by
  cases o with
  | send _ _ => cases h
  | event e =>
    simp only [uneventfulOutput,decide_eq_true_eq] at h
    simp [uneventful,started,announcesReady,autoStarted,h]

theorem emit_uneventful {type : Cia302EventType} (h : type ≠ .networkReady)
    (nodeId state : UInt8) : ∀ o ∈ emitEvent master type nodeId state, uneventfulOutput o = true := by
  intro o ho
  rw [emit_mem master ho]
  exact decide_eq_true h

theorem timeouts_uneventful (nowMs : UInt32) :
    ∀ o ∈ timeouts master nowMs, uneventfulOutput o = true := by
  intro o ho
  obtain ⟨n,-,ho⟩ := List.mem_flatMap.mp ho
  exact emit_uneventful _ (fun hc => by cases hc) _ _ o ho

theorem received_uneventful {canId : UInt16} {data : Option UInt8} {dlc : UInt8} {nowMs : UInt32}
    {received : Cia302NmtMaster × List Output}
    (h : Received master canId data dlc nowMs received) :
    received.1.networkReady = master.networkReady ∧
      ∀ o ∈ received.2, uneventfulOutput o = true := by
  cases h with
  | ignored _ => exact ⟨rfl,fun o ho => by cases ho⟩
  | noted outputs hevents _ =>
    refine ⟨rfl,fun o ho => ?_⟩
    rw [hevents o ho]
    rfl
  | heard node state _ _ _ _ =>
    refine ⟨rfl,emit_uneventful _ ?_ _ _⟩
    rcases heard_event_kind state with h | h | h <;> rw [h] <;> decide

theorem request_uneventful (command nodeId : UInt8) (accepts : Bool) :
    ∀ o ∈ (cia302NmtMasterRequest master command nodeId accepts).2,
      uneventful (.output false o) = true := by
  unfold cia302NmtMasterRequest
  split
  · intro o ho
    cases ho
  · intro o ho
    rw [List.mem_singleton.mp ho]
    rfl

end Outputs

def readyOutputs (master : Cia302NmtMaster) (accepts : NodeId → Bool) : List Output :=
  emitEvent master .networkReady 0 0++
    (if master.nmtStartup &&& ((1 : UInt32) <<< 3) = 0 then autoStarts master accepts else [])

inductive Advance (s : Supervisor) (input : ℕ × Call) : Supervisor × List Entry → Prop where
  | kept (next : Supervisor) (entries : List Entry)
      (hsame : next.master.networkReady = s.master.networkReady)
      (hquiet : ∀ e ∈ entries, uneventful e = true) : Advance s input (next,entries)
  | restarted (next : Supervisor) (time : ℕ) (hready : next.master.networkReady = false) :
      Advance s input (next,[.call time .start true])
  | becameReady (next : Supervisor) (accepts : NodeId → Bool) (hinput : input.2 = .process accepts)
      (hrun : s.master.running = true) (hfirst : s.master.networkReady = false)
      (hready : mandatoryNodesReady
        (supervisedMaster s.master (UInt32.ofNat (s.time+input.1))) = true)
      (hnext : next.master.networkReady = true) :
      Advance s input (next,.call (s.time+input.1) (.process accepts) true::
        (timeouts s.master (UInt32.ofNat (s.time+input.1))++
          readyOutputs (supervisedMaster s.master (UInt32.ofNat (s.time+input.1))) accepts).map
            (.output true))

theorem step_advance (s : Supervisor) (input : ℕ × Call) : Advance s input (nmtStep s input) := by
  obtain ⟨wait,call⟩ := input
  have hkept : ∀ {next : Supervisor} {time : ℕ} {call : Call} {result : Bool}
      (outputs : List Output) {automatic : Bool},
      next.master.networkReady = s.master.networkReady →
      started (.call time call result) = false →
      (∀ o ∈ outputs, uneventful (.output automatic o) = true) →
        Advance s (wait,call) (next,.call time call result::outputs.map (.output automatic)) := by
    intro next time call result outputs automatic hsame hstart hquiet
    refine .kept _ _ hsame fun e he => ?_
    rcases List.mem_cons.mp he with rfl | he
    · simp [uneventful,hstart,announcesReady,autoStarted]
    · obtain ⟨o,ho,rfl⟩ := List.mem_map.mp he
      exact hquiet o ho
  cases call with
  | policy nmtStartup bootTimeMs => exact hkept [] rfl rfl (fun o ho => by cases ho)
  | request command nodeId accepts => exact hkept _ rfl rfl (request_uneventful _ _ _ _)
  | configure nodeId mandatory autoStart timeout =>
    refine hkept [] ?_ rfl (fun o ho => by cases ho)
    rcases configure_effect s.master nodeId mandatory autoStart timeout with he | ⟨-,he⟩
    · show (cia302NmtMasterConfigure _ _ _ _ _).1.networkReady = _
      rw [he]
    · show (cia302NmtMasterConfigure _ _ _ _ _).1.networkReady = _
      rw [he]
      rfl
  | start =>
    simp only [nmtStep,perform]
    rcases start_effect s.master (UInt32.ofNat (s.time+wait)) with he | ⟨hdone,he⟩
    · rw [he]
      exact hkept [] rfl rfl (fun o ho => by cases ho)
    · rw [hdone]
      exact .restarted _ _ he.networkReady
  | receive canId data dlc =>
    obtain ⟨hsame,hquiet⟩ := received_uneventful s.master
      (receive_effect s.master canId data dlc (UInt32.ofNat (s.time+wait)))
    exact hkept _ hsame rfl (fun o ho => uneventful_output (hquiet o ho))
  | process accepts =>
    simp only [nmtStep,perform]
    cases hrun : s.master.running with
    | false =>
      rw [process_stopped _ _ _ hrun]
      exact hkept [] rfl rfl (fun o ho => by cases ho)
    | true =>
      rw [process_running _ _ _ hrun]
      have hsettled := settle_effect (supervisedMaster s.master (UInt32.ofNat (s.time+wait)))
        accepts (UInt32.ofNat (s.time+wait))
      generalize settle (supervisedMaster s.master (UInt32.ofNat (s.time+wait))) accepts
        (UInt32.ofNat (s.time+wait)) = settled at hsettled ⊢
      have htimeouts := timeouts_uneventful s.master (UInt32.ofNat (s.time+wait))
      cases hsettled with
      | quiet =>
        refine hkept _ rfl rfl fun o ho => uneventful_output (htimeouts o ?_)
        simpa using ho
      | late node _ =>
        refine hkept _ rfl rfl fun o ho => uneventful_output ?_
        rcases List.mem_append.mp ho with ho | ho
        · exact htimeouts o ho
        · exact emit_uneventful _ (fun hc => by cases hc) _ _ o ho
      | ready hready hfirst _ => exact .becameReady _ accepts rfl hrun hfirst hready rfl

/-- How often readiness was announced since the last start. -/
def readyCount (history : List Entry) : ℕ := (since started history).countP announcesReady

structure ReadyCounted (s : Supervisor) (history : List Entry) : Prop where
  once : readyCount history ≤ 1
  fresh : s.master.networkReady = false → readyCount history = 0

theorem uneventful_iff (e : Entry) :
    uneventful e = true ↔ started e = false ∧ announcesReady e = false ∧ autoStarted e = false := by
  simp [uneventful,and_assoc]

theorem count_since {P : Entry → Bool} (history entries : List Entry)
    (h : ∀ e ∈ entries, started e = false) :
    (since started (history++entries)).countP P =
      (since started history).countP P+entries.countP P := by
  rw [since_quiet started history entries h,List.countP_append]

theorem count_none {P : Entry → Bool} {entries : List Entry} (h : ∀ e ∈ entries, P e = false) :
    entries.countP P = 0 := by
  apply List.countP_eq_zero.mpr
  intro e he
  rw [h e he]
  exact Bool.false_ne_true

theorem ready_outputs_count (master : Cia302NmtMaster) (nowMs : UInt32) (accepts : NodeId → Bool)
    (supervisedNow : Cia302NmtMaster) :
    ((timeouts master nowMs++readyOutputs supervisedNow accepts).map
      (Entry.output true)).countP announcesReady ≤ 1 := by
  have htimeouts : ((timeouts master nowMs).map (Entry.output true)).countP announcesReady = 0 := by
    apply count_none
    intro e he
    obtain ⟨o,ho,rfl⟩ := List.mem_map.mp he
    exact ((uneventful_iff _).mp (uneventful_output (timeouts_uneventful _ _ o ho))).2.1
  have hemit : ((emitEvent supervisedNow .networkReady 0 0).map
      (Entry.output true)).countP announcesReady ≤ 1 := by
    unfold emitEvent
    split
    · exact List.countP_le_length
    · exact Nat.zero_le _
  have hstarts : ((if supervisedNow.nmtStartup &&& ((1 : UInt32) <<< 3) = 0 then
      autoStarts supervisedNow accepts else []).map (Entry.output true)).countP
        announcesReady = 0 := by
    apply count_none
    intro e he
    obtain ⟨o,ho,rfl⟩ := List.mem_map.mp he
    split at ho
    · obtain ⟨n,-,ho⟩ := List.mem_flatMap.mp ho
      have hquiet := ((uneventful_iff _).mp (request_uneventful _ _ _ _ o ho)).2.1
      cases o with
      | event _ => exact hquiet
      | send _ _ => rfl
    · cases ho
  unfold readyOutputs
  rw [List.map_append,List.map_append,List.countP_append,List.countP_append,htimeouts,hstarts]
  omega

theorem ready_step (s : Supervisor) (input : ℕ × Call) (history : List Entry)
    (h : ReadyCounted s history) :
    ReadyCounted (nmtStep s input).1 (history++(nmtStep s input).2) := by
  have hadvance := step_advance s input
  generalize nmtStep s input = done at hadvance ⊢
  cases hadvance with
  | kept next entries hsame hquiet =>
    have hcount : readyCount (history++entries) = readyCount history := by
      unfold readyCount
      rw [count_since _ _ fun e he => ((uneventful_iff e).mp (hquiet e he)).1,
        count_none fun e he => ((uneventful_iff e).mp (hquiet e he)).2.1,Nat.add_zero]
    exact ⟨hcount.trans_le h.once,fun hf => hcount.trans (h.fresh (hsame.symm.trans hf))⟩
  | restarted next time hready =>
    have hcount : readyCount (history++[.call time .start true]) = 0 := by
      unfold readyCount
      rw [since_marked started history [] _ rfl (fun x hx => by cases hx)]
      rfl
    exact ⟨hcount.trans_le (Nat.zero_le 1),fun _ => hcount⟩
  | becameReady next accepts _ _ hfirst _ hnext =>
    refine ⟨?_,fun hf => absurd (hnext.symm.trans hf) (by decide)⟩
    have hfresh := h.fresh hfirst
    unfold readyCount at hfresh ⊢
    rw [count_since,hfresh,Nat.zero_add,List.countP_cons_of_neg Bool.false_ne_true]
    · exact ready_outputs_count _ _ _ _
    · intro e he
      rcases List.mem_cons.mp he with rfl | he
      · rfl
      · exact (outputs_quiet 0 _ true e he).2

structure Readiness (s : Supervisor) (history : List Entry) : Prop where
  nodes : ∀ n, NodeTracked n (s.master.nodes n) history
  counted : ReadyCounted s history

theorem readiness_run (masterNodeId : UInt8) (send event : Bool) (time : ℕ)
    (inputs : List (ℕ × Call)) :
    Readiness (run nmtStep (freshSupervisor masterNodeId send event time) inputs).1
      (run nmtStep (freshSupervisor masterNodeId send event time) inputs).2 := by
  have h := along_history nmtStep (fun _ _ => True) Readiness
    (fun s past input hs _ => ⟨nodes_step s input past hs.nodes,ready_step s input past hs.counted⟩)
    (freshSupervisor masterNodeId send event time) [] inputs ?_ (along_true _ _ _)
  · simpa using h
  · constructor
    · intro n
      exact absent (fun ha => by cases ha) (fun _ => rfl)
    · exact ⟨Nat.zero_le 1,fun _ => rfl⟩

theorem supervised_present {nowMs : UInt32} {value : Cia302Node}
    (hassigned : (supervised nowMs value).assigned = true)
    (hmandatory : (supervised nowMs value).mandatory = true)
    (hready : missing (supervised nowMs value) = false) :
    supervised nowMs value = value ∧ value.state ≠ .waitingBootup ∧ value.state ≠ .timedOut ∧
      (value.heartbeatTimeoutMs = 0 ∨
        nowMs-value.lastHeartbeatMs ≤ value.heartbeatTimeoutMs.toUInt32) := by
  by_cases hover : overdue nowMs value = true
  · rw [supervised,if_pos hover] at hready hmandatory hassigned
    simp only [missing] at hready hmandatory hassigned
    simp [hassigned,hmandatory] at hready
  · have hsame : supervised nowMs value = value := if_neg hover
    rw [hsame] at hassigned hmandatory hready
    have hstate : value.state ≠ .waitingBootup ∧ value.state ≠ .timedOut := by
      simpa [missing,hassigned,hmandatory] using hready
    refine ⟨hsame,hstate.1,hstate.2,?_⟩
    by_cases hzero : value.heartbeatTimeoutMs = 0
    · exact Or.inl hzero
    · right
      apply UInt32.not_lt.mp
      intro hlate
      exact hover (by simp [overdue,hassigned,hzero,hlate,hstate.2])

theorem ready_present {s : Supervisor} {history : List Entry} {accepts : NodeId → Bool} {wait : ℕ}
    (h : ∀ n, NodeTracked n (s.master.nodes n) history) (hrun : s.master.running = true)
    (hready : mandatoryNodesReady (supervisedMaster s.master (UInt32.ofNat (s.time+wait))) = true)
    (n : NodeId) :
    let next := (nmtStep s (wait,.process accepts)).1
    (next.master.nodes n).assigned = true → (next.master.nodes n).mandatory = true →
      HeardSince n history ∧ InTime next n := by
  intro next
  have hnode : next.master.nodes n = if n ∈ nodeIds then
      supervised (UInt32.ofNat (s.time+wait)) (s.master.nodes n) else s.master.nodes n := by
    show (cia302NmtMasterProcess s.master accepts (UInt32.ofNat (s.time+wait))).1.nodes n = _
    rw [process_nodes]
    simp only [hrun,true_and]
  by_cases hn : n ∈ nodeIds
  · rw [if_pos hn] at hnode
    rw [hnode]
    intro hassigned hmandatory
    have hall := List.all_eq_true.mp hready n hn
    simp only [supervisedMaster,if_pos hn,Bool.not_eq_true'] at hall
    obtain ⟨hsame,hwaiting,htimed,hbound⟩ := supervised_present hassigned hmandatory hall
    rw [hsame] at hassigned hnode
    constructor
    · exact (h n).heard ⟨((h n).assigned hassigned).2,hwaiting,htimed⟩
    · unfold InTime
      rw [hnode]
      exact ⟨htimed,hbound⟩
  · rw [if_neg hn] at hnode
    rw [hnode]
    intro hassigned
    exact absurd ((mem_nodeIds n).mpr ((h n).assigned hassigned).1) hn

theorem loud_process (s : Supervisor) (input : ℕ × Call) (e : Entry)
    (he : e ∈ (nmtStep s input).2) (hloud : announcesReady e = true ∨ autoStarted e = true) :
    ∃ accepts, input.2 = .process accepts ∧ s.master.running = true ∧
      mandatoryNodesReady (supervisedMaster s.master (UInt32.ofNat (s.time+input.1))) = true ∧
      (autoStarted e = true → s.master.nmtStartup &&& ((1 : UInt32) <<< 3) = 0) := by
  have hnot : uneventful e = false := by
    rcases hloud with h | h <;> simp [uneventful,h]
  have hadvance := step_advance s input
  generalize nmtStep s input = done at hadvance he
  cases hadvance with
  | kept next entries _ hquiet =>
    have hquiet := hquiet e he
    rw [hnot] at hquiet
    cases hquiet
  | restarted next time _ =>
    rw [List.mem_singleton.mp he] at hloud
    rcases hloud with h | h <;> cases h
  | becameReady next accepts hinput hrun _ hready _ =>
    refine ⟨accepts,hinput,hrun,hready,fun hauto => ?_⟩
    rcases List.mem_cons.mp he with rfl | he
    · cases hauto
    obtain ⟨o,ho,rfl⟩ := List.mem_map.mp he
    rcases List.mem_append.mp ho with ho | ho
    · rw [uneventful_output (timeouts_uneventful _ _ o ho)] at hnot
      cases hnot
    rcases List.mem_append.mp ho with ho | ho
    · rw [emit_mem _ ho] at hauto
      cases hauto
    · split at ho
      · assumption
      · cases ho

/-- Readiness is announced at most once for each start. It and the automatic
starts come only from a process call in which every assigned mandatory node has
been heard since the start and since it was configured, and is in time; bit 3 of
the startup word keeps the automatic starts away. -/
theorem ready_starts_safe (masterNodeId : UInt8) (send event : Bool) (time : ℕ)
    (inputs : List (ℕ × Call)) (input : ℕ × Call) :
    let before := run nmtStep (freshSupervisor masterNodeId send event time) inputs
    let next := nmtStep before.1 input
    readyCount (before.2++next.2) ≤ 1 ∧
      (∀ e ∈ next.2, announcesReady e = true ∨ autoStarted e = true →
        isProcess input.2 = true ∧ before.1.master.running = true ∧
          ∀ node, (next.1.master.nodes node).assigned = true →
            (next.1.master.nodes node).mandatory = true →
              HeardSince node before.2 ∧ InTime next.1 node) ∧
      (before.1.master.nmtStartup &&& ((1 : UInt32) <<< 3) ≠ 0 →
        ∀ e ∈ next.2, autoStarted e = false) := by
  intro before next
  have h : Readiness before.1 before.2 := readiness_run masterNodeId send event time inputs
  refine ⟨(ready_step before.1 input before.2 h.counted).once,?_,?_⟩
  · intro e he hloud
    obtain ⟨accepts,hinput,hrun,hready,-⟩ := loud_process before.1 input e he hloud
    obtain ⟨wait,call⟩ := input
    cases hinput
    exact ⟨rfl,hrun,ready_present h.nodes hrun hready⟩
  · intro hbit e he
    by_contra hauto
    rw [Bool.not_eq_false] at hauto
    obtain ⟨-,-,-,-,hclear⟩ := loud_process before.1 input e he (Or.inr hauto)
    exact hbit (hclear hauto)

example :
    ((run nmtStep (freshSupervisor 1 true true 0) [(0,.policy 1 10000),
      (0,.configure 2 true true 1500),(0,.start),(5,.receive 0x702 (some 0) 1),
      (5,.process fun _ => true)]).2.map fun e => (announcesReady e,autoStarted e)).drop 5 =
        [(false,false),(true,false),(false,true)] := by
  decide +kernel

end CanopenReference.NmtReadiness
