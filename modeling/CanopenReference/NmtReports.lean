import CanopenReference.NmtSupervision

/-!
# One report for each loss

The loss of a node is reported once. Only a valid frame of the node, a start or
its configuration make it possible to report another.
-/

set_option autoImplicit false

namespace CanopenReference.NmtReports
open Library.Runs Library.History NmtMaster NmtReadiness NmtHeartbeat NmtSupervision

def relieves (node : NodeId) (e : Entry) : Bool :=
  heardFrom node e || started e || configured node e

/-- How often the node was declared lost since it was last heard, started or configured. -/
def reports (node : NodeId) (history : List Entry) : ℕ :=
  (since (relieves node) history).countP (declaresLost node)

def FirstReport (node : NodeId) (before : List Entry) (e : Entry) : Prop :=
  declaresLost node e = true → reports node before = 0

structure Reported (node : NodeId) (s : Supervisor) (history : List Entry) : Prop where
  placed : (s.master.nodes node).assigned = true → node ≠ 0
  held : (s.master.nodes node).state = .timedOut → s.master.running = true ∧
    (s.master.nodes node).assigned = true ∧ (s.master.nodes node).heartbeatTimeoutMs ≠ 0
  count : reports node history =
    if (s.master.nodes node).state = .timedOut ∧ s.master.event = true then 1 else 0
  first : Always (FirstReport node) history

section Outputs
variable (master : Cia302NmtMaster) (node : NodeId)

theorem lost_emit (n : NodeId) (automatic : Bool) (nowMs : UInt32) :
    ((emitEvent (atNow master nowMs) .heartbeatTimeout (idOf n) 0).map
        (Entry.output automatic)).countP (declaresLost node) =
      if n = node ∧ master.event = true then 1 else 0 := by
  unfold emitEvent
  show (List.map _ (if master.event then _ else [])).countP _ = _
  cases master.event with
  | false => simp
  | true =>
    by_cases hn : n = node
    · simp [declaresLost,hn]
    · have hid : idOf n ≠ idOf node := fun h => hn (id_injective h)
      simp [declaresLost,hn,hid]

theorem timeouts_count (nowMs : UInt32) (hplaced : node ∈ nodeIds) :
    ((timeouts master nowMs).map (Entry.output true)).countP (declaresLost node) =
      if overdue nowMs (master.nodes node) = true ∧ master.event = true then 1 else 0 := by
  have hall : ∀ ids : List NodeId, ids.Nodup →
      ((ids.flatMap fun n => emitEvent (atNow master nowMs) .heartbeatTimeout (idOf n) 0).map
          (Entry.output true)).countP (declaresLost node) =
        if node ∈ ids ∧ master.event = true then 1 else 0 := by
    intro ids hids
    induction ids with
    | nil => simp
    | cons n ids ih =>
      obtain ⟨hfresh,hids⟩ := List.nodup_cons.mp hids
      rw [List.flatMap_cons,List.map_append,List.countP_append,lost_emit,ih hids]
      by_cases hn : n = node
      · subst hn
        simp [hfresh]
      · have hne : ¬node = n := fun h => hn h.symm
        simp [hn,hne]
  unfold timeouts
  rw [hall _ (nodeIds_nodup.filter _)]
  simp [List.mem_filter,hplaced]

end Outputs

section Entries
variable {node : NodeId} {history : List Entry} {e : Entry} {outs : List Entry}

theorem reports_step (hcall : declaresLost node e = false)
    (houts : ∀ x ∈ outs, relieves node x = false) :
    reports node (history++e::outs) =
      (if relieves node e then 0 else reports node history)+outs.countP (declaresLost node) := by
  unfold reports
  by_cases he : relieves node e = true
  · rw [since_marked _ _ _ _ he houts,if_pos he,Nat.zero_add]
  · have hquiet : ∀ x ∈ e::outs, relieves node x = false :=
      List.forall_mem_cons.mpr ⟨Bool.not_eq_true _ ▸ he,houts⟩
    rw [since_quiet _ _ _ hquiet,List.countP_append,if_neg he,List.countP_cons_of_neg]
    simp [hcall]

theorem first_step (h : Always (FirstReport node) history) (hcall : declaresLost node e = false)
    (houts : ∀ x ∈ outs, relieves node x = false)
    (hcount : outs.countP (declaresLost node) = 0 ∨
      outs.countP (declaresLost node) = 1 ∧ reports node history = 0) :
    Always (FirstReport node) (history++e::outs) := by
  apply always_extend h
  intro before x after hsplit hlost
  cases before with
  | nil =>
    obtain ⟨rfl,-⟩ := List.cons.inj hsplit
    rw [hcall] at hlost
    cases hlost
  | cons y before =>
    obtain ⟨rfl,hout⟩ := List.cons.inj hsplit
    have hout : outs = before++x::after := hout
    have hbefore : ∀ z ∈ before, relieves node z = false :=
      fun z hz => houts z (hout ▸ List.mem_append_left _ hz)
    rw [reports_step hcall hbefore]
    rw [hout,List.countP_append,List.countP_cons_of_pos hlost] at hcount
    split
    · omega
    · omega

variable {s next : Supervisor}

theorem reported_kept (h : Reported node s history)
    (hrun : s.master.running = true → next.master.running = true)
    (hevent : next.master.event = s.master.event)
    (hassigned : (next.master.nodes node).assigned = (s.master.nodes node).assigned)
    (htimeout : (next.master.nodes node).heartbeatTimeoutMs =
      (s.master.nodes node).heartbeatTimeoutMs)
    (hstate : (next.master.nodes node).state = (s.master.nodes node).state)
    (hcall : declaresLost node e = false)
    (houts : ∀ x ∈ outs, relieves node x = false ∧ declaresLost node x = false)
    (hrelief : relieves node e = true → (s.master.nodes node).state ≠ .timedOut) :
    Reported node next (history++e::outs) := by
  have hquiet : ∀ x ∈ outs, relieves node x = false := fun x hx => (houts x hx).1
  have hnone : outs.countP (declaresLost node) = 0 := count_none fun x hx => (houts x hx).2
  refine ⟨?_,?_,?_,first_step h.first hcall hquiet (Or.inl hnone)⟩
  · rw [hassigned]
    exact h.placed
  · rw [hassigned,htimeout,hstate]
    intro hlost
    obtain ⟨hrunning,hheld⟩ := h.held hlost
    exact ⟨hrun hrunning,hheld⟩
  · rw [reports_step hcall hquiet,hnone,hstate,hevent,h.count]
    by_cases he : relieves node e = true
    · simp [he,hrelief he]
    · simp [he]

theorem reported_relieved (h : Reported node s history)
    (hplaced : (next.master.nodes node).assigned = true → node ≠ 0)
    (hstate : (next.master.nodes node).state ≠ .timedOut)
    (hcall : declaresLost node e = false)
    (houts : ∀ x ∈ outs, relieves node x = false ∧ declaresLost node x = false)
    (hrelief : relieves node e = true) :
    Reported node next (history++e::outs) := by
  have hquiet : ∀ x ∈ outs, relieves node x = false := fun x hx => (houts x hx).1
  have hnone : outs.countP (declaresLost node) = 0 := count_none fun x hx => (houts x hx).2
  refine ⟨hplaced,fun hlost => absurd hlost hstate,?_,
    first_step h.first hcall hquiet (Or.inl hnone)⟩
  rw [reports_step hcall hquiet,hnone,if_pos hrelief,if_neg (fun hc => hstate hc.1)]

end Entries

theorem process_event (master : Cia302NmtMaster) (accepts : NodeId → Bool) (nowMs : UInt32) :
    (cia302NmtMasterProcess master accepts nowMs).1.event = master.event := by
  cases hrun : master.running with
  | false => rw [process_stopped _ _ _ hrun]
  | true =>
    rw [process_running _ _ _ hrun]
    have hsettled := settle_effect (supervisedMaster master nowMs) accepts nowMs
    generalize settle (supervisedMaster master nowMs) accepts nowMs = settled at hsettled ⊢
    cases hsettled <;> rfl

theorem outputs_kept (node : NodeId) {s : Supervisor} {input : ℕ × Call} {e : Entry}
    {outputs : List Output} {automatic : Bool}
    (hevents : (nmtStep s input).2 = e::outputs.map (Entry.output automatic))
    (h : (∀ accepts, input.2 ≠ .process accepts) ∨ s.master.running = false ∨
      overdue (UInt32.ofNat (s.time+input.1)) (s.master.nodes node) = false) :
    ∀ x ∈ outputs.map (Entry.output automatic),
      relieves node x = false ∧ declaresLost node x = false := by
  intro x hx
  refine ⟨?_,?_⟩
  · obtain ⟨o,-,rfl⟩ := List.mem_map.mp hx
    rfl
  · by_contra hlost
    rw [Bool.not_eq_false] at hlost
    obtain ⟨⟨accepts,hprocess⟩,hrun,hover⟩ := lost_supervised s input node x
      (hevents ▸ List.mem_cons_of_mem e hx) hlost
    rcases h with hc | hc | hc
    · exact hc accepts hprocess
    · rw [hrun] at hc
      cases hc
    · rw [hover] at hc
      cases hc

theorem heard_from {node : NodeId} {time : ℕ} {canId : UInt16} {data : Option UInt8} {dlc : UInt8}
    {result : Bool} (h : heardFrom node (.call time (.receive canId data dlc) result) = true) :
    ∃ state reported, heartbeatFrom node canId data dlc = some state ∧
      heartbeatState state = some reported := by
  have hsome : ((heartbeatFrom node canId data dlc).bind heartbeatState).isSome = true := h
  obtain ⟨reported,hreported⟩ := Option.isSome_iff_exists.mp hsome
  obtain ⟨state,hfrom,hstate⟩ := Option.bind_eq_some_iff.mp hreported
  exact ⟨state,reported,hfrom,hstate⟩

theorem reported_state {state : UInt8} {reported : Cia302NodeState}
    (h : heartbeatState state = some reported) : reported ≠ .timedOut := by
  rintro rfl
  unfold heartbeatState at h
  split at h
  · cases h
  split at h
  · cases h
  split at h <;> cases h

theorem process_count (master : Cia302NmtMaster) (accepts : NodeId → Bool) (nowMs : UInt32)
    (node : NodeId) (hrun : master.running = true) (hplaced : node ∈ nodeIds)
    (hover : overdue nowMs (master.nodes node) = true) :
    (((cia302NmtMasterProcess master accepts nowMs).2).map (Entry.output true)).countP
      (declaresLost node) = if master.event = true then 1 else 0 := by
  have hsettled : ((settle (supervisedMaster master nowMs) accepts nowMs).2.map
      (Entry.output true)).countP (declaresLost node) = 0 := by
    apply count_none
    intro e he
    obtain ⟨o,ho,rfl⟩ := List.mem_map.mp he
    exact settled_not_lost (settle_effect _ _ _) ho
  rw [process_running _ _ _ hrun,List.map_append,List.countP_append,hsettled,
    timeouts_count _ _ _ hplaced,Nat.add_zero]
  simp [hover]

section Calls
variable {node : NodeId} {s : Supervisor} {history : List Entry}

theorem configure_reported (wait : ℕ) (nodeId : UInt8) (mandatory autoStart : Bool)
    (timeout : UInt16) (h : Reported node s history) :
    Reported node (nmtStep s (wait,.configure nodeId mandatory autoStart timeout)).1
      (history++(nmtStep s (wait,.configure nodeId mandatory autoStart timeout)).2) := by
  simp only [nmtStep,perform]
  rcases configure_effect s.master nodeId mandatory autoStart timeout with he | ⟨hne,he⟩
  · rw [he]
    exact reported_kept h id rfl rfl rfl rfl rfl (fun x hx => by cases hx)
      (fun hc => by cases hc)
  rw [he]
  by_cases hn : node = nodeOf nodeId
  · subst hn
    refine reported_relieved h (fun _ => hne) ?_ rfl (fun x hx => by cases hx) ?_
    · rw [setNode_self]
      exact fun hc => by cases hc
    · simp [relieves,configured]
  · have hother := setNode_other s.master (nodeOf nodeId)
      (assignedNode (s.master.nodes (nodeOf nodeId)) mandatory autoStart timeout) hn
    refine reported_kept h id rfl ?_ ?_ ?_ rfl (fun x hx => by cases hx) (fun hc => ?_)
    · rw [hother]
    · rw [hother]
    · rw [hother]
    · have hid : ¬nodeOf nodeId = node := fun hid => hn hid.symm
      simp [relieves,heardFrom,started,configured,hid] at hc

theorem start_reported (wait : ℕ) (h : Reported node s history) :
    Reported node (nmtStep s (wait,.start)).1 (history++(nmtStep s (wait,.start)).2) := by
  simp only [nmtStep,perform]
  rcases start_effect s.master (UInt32.ofNat (s.time+wait)) with he | ⟨hdone,he⟩
  · rw [he]
    exact reported_kept h id rfl rfl rfl rfl rfl (fun x hx => by cases hx)
      (fun hc => by cases hc)
  rw [hdone]
  have hnode := he.nodes node
  by_cases hassigned : (s.master.nodes node).assigned = true
  · rw [if_pos ⟨(mem_nodeIds node).mpr (h.placed hassigned),hassigned⟩] at hnode
    refine reported_relieved h (fun _ => h.placed hassigned) ?_ rfl (fun x hx => by cases hx) rfl
    show ((cia302NmtMasterStart s.master _).1.nodes node).state ≠ _
    rw [hnode]
    exact fun hc => by cases hc
  · rw [if_neg (fun hc => hassigned hc.2)] at hnode
    have hstate : (s.master.nodes node).state ≠ .timedOut :=
      fun hlost => hassigned (h.held hlost).2.1
    refine reported_relieved h ?_ ?_ rfl (fun x hx => by cases hx) rfl
    · show ((cia302NmtMasterStart s.master _).1.nodes node).assigned = true → _
      rw [hnode]
      exact h.placed
    · show ((cia302NmtMasterStart s.master _).1.nodes node).state ≠ _
      rw [hnode]
      exact hstate

theorem receive_reported (wait : ℕ) (canId : UInt16) (data : Option UInt8) (dlc : UInt8)
    (h : Reported node s history) :
    Reported node (nmtStep s (wait,.receive canId data dlc)).1
      (history++(nmtStep s (wait,.receive canId data dlc)).2) := by
  have hout := outputs_kept node (rfl : (nmtStep s (wait,.receive canId data dlc)).2 = _)
    (Or.inl (fun _ hc => by cases hc))
  have heffect := receive_effect s.master canId data dlc (UInt32.ofNat (s.time+wait))
  simp only [nmtStep,perform] at hout ⊢
  generalize cia302NmtMasterReceive s.master canId data dlc (UInt32.ofNat (s.time+wait)) =
    received at heffect hout ⊢
  cases heffect with
  | ignored hignored =>
    refine reported_kept h id rfl rfl rfl rfl rfl hout fun hc hlost => ?_
    obtain ⟨state,_,hfrom,_⟩ := heard_from (by simpa [relieves,started,configured] using hc)
    rcases hignored with hdata | hstopped
    · rw [hdata] at hfrom
      simp [heartbeatFrom] at hfrom
    · exact absurd ((h.held hlost).1.symm.trans hstopped) (by decide)
  | noted outputs _ hnone =>
    refine reported_kept h id rfl rfl rfl rfl rfl hout fun hc hlost => ?_
    obtain ⟨state,_,hfrom,_⟩ := heard_from (by simpa [relieves,started,configured] using hc)
    rw [hnone node (h.held hlost).2.1] at hfrom
    cases hfrom
  | heard n state hrun hassigned hfrom hothers =>
    by_cases hn : node = n
    · subst hn
      cases hs : heartbeatState state with
      | none =>
        refine reported_kept h id rfl ?_ ?_ ?_ rfl hout fun hc => ?_
        · rw [setNode_self]
          rfl
        · rw [setNode_self]
          rfl
        · rw [setNode_self]
          show (heartbeatState state).getD _ = _
          rw [hs]
          rfl
        · simp [relieves,started,configured,heardFrom,hfrom,hs] at hc
      | some reported =>
        refine reported_relieved h (fun _ => h.placed hassigned) ?_ rfl hout ?_
        · rw [setNode_self]
          show (heartbeatState state).getD _ ≠ _
          rw [hs]
          exact reported_state hs
        · simp [relieves,heardFrom,hfrom,hs]
    · have hother := setNode_other (atNow s.master (UInt32.ofNat (s.time+wait))) n
        (refreshed (UInt32.ofNat (s.time+wait)) (s.master.nodes n) state) hn
      refine reported_kept h id rfl ?_ ?_ ?_ rfl hout fun hc => ?_
      · rw [hother]
        rfl
      · rw [hother]
        rfl
      · rw [hother]
        rfl
      · simp [relieves,started,configured,heardFrom,hothers node hn] at hc

theorem process_reported (wait : ℕ) (accepts : NodeId → Bool) (h : Reported node s history) :
    Reported node (nmtStep s (wait,.process accepts)).1
      (history++(nmtStep s (wait,.process accepts)).2) := by
  have hout := fun hc => outputs_kept node (rfl : (nmtStep s (wait,.process accepts)).2 = _) hc
  have hnodes := process_nodes s.master accepts (UInt32.ofNat (s.time+wait)) node
  by_cases hover : s.master.running = true ∧ node ∈ nodeIds ∧
      overdue (UInt32.ofNat (s.time+wait)) (s.master.nodes node) = true
  · obtain ⟨hrun,hplaced,hover⟩ := hover
    have hcount := process_count s.master accepts _ node hrun hplaced hover
    rw [if_pos ⟨hrun,hplaced⟩,supervised,if_pos hover] at hnodes
    simp only [overdue,decide_eq_true_eq] at hover
    obtain ⟨hassigned,hzero,-,hstate⟩ := hover
    have hnone : reports node history = 0 := by
      rw [h.count,if_neg (fun hc => hstate hc.1)]
    have hquiet : ∀ x ∈ (cia302NmtMasterProcess s.master accepts
        (UInt32.ofNat (s.time+wait))).2.map (Entry.output true), relieves node x = false := by
      intro x hx
      obtain ⟨o,-,rfl⟩ := List.mem_map.mp hx
      rfl
    simp only [nmtStep,perform,isProcess]
    constructor
    · exact fun _ => h.placed hassigned
    · rw [hnodes,process_keeps]
      exact fun _ => ⟨hrun,hassigned,hzero⟩
    · rw [hnodes,process_event,reports_step rfl hquiet,hcount,hnone]
      simp
    · refine first_step h.first rfl hquiet ?_
      rw [hcount]
      split
      · exact Or.inr ⟨rfl,hnone⟩
      · exact Or.inl rfl
  · have hquiet : s.master.running = false ∨
        overdue (UInt32.ofNat (s.time+wait)) (s.master.nodes node) = false := by
      rw [← Bool.not_eq_true,← Bool.not_eq_true,← not_and_or]
      rintro ⟨hrun,hlate⟩
      have hassigned := hlate
      simp only [overdue,decide_eq_true_eq] at hassigned
      exact hover ⟨hrun,(mem_nodeIds node).mpr (h.placed hassigned.1),hlate⟩
    have hsame : (cia302NmtMasterProcess s.master accepts
        (UInt32.ofNat (s.time+wait))).1.nodes node = s.master.nodes node := by
      rw [hnodes]
      split
      · rename_i hc
        rw [supervised,if_neg (fun hlate => hover ⟨hc.1,hc.2,hlate⟩)]
      · rfl
    have hout := hout (Or.inr hquiet)
    simp only [nmtStep,perform] at hout ⊢
    refine reported_kept h ?_ (process_event _ _ _) ?_ ?_ ?_ rfl hout (fun hc => by cases hc)
    · rw [process_keeps]
      exact id
    · rw [hsame]
    · rw [hsame]
    · rw [hsame]

end Calls

theorem reported_step (node : NodeId) (s : Supervisor) (history : List Entry) (input : ℕ × Call)
    (h : Reported node s history) :
    Reported node (nmtStep s input).1 (history++(nmtStep s input).2) := by
  have hout := fun hc => outputs_kept node (rfl : (nmtStep s input).2 = _) hc
  obtain ⟨wait,call⟩ := input
  cases call with
  | policy nmtStartup bootTimeMs =>
    exact reported_kept h id rfl rfl rfl rfl rfl (hout (Or.inl (fun _ hc => by cases hc)))
      (fun hc => by cases hc)
  | request command nodeId accepts =>
    exact reported_kept h id rfl rfl rfl rfl rfl (hout (Or.inl (fun _ hc => by cases hc)))
      (fun hc => by cases hc)
  | configure nodeId mandatory autoStart timeout =>
    exact configure_reported wait nodeId mandatory autoStart timeout h
  | start => exact start_reported wait h
  | receive canId data dlc => exact receive_reported wait canId data dlc h
  | process accepts => exact process_reported wait accepts h

theorem reported_run (masterNodeId : UInt8) (send event : Bool) (time : ℕ)
    (inputs : List (ℕ × Call)) (node : NodeId) :
    Reported node (run nmtStep (freshSupervisor masterNodeId send event time) inputs).1
      (run nmtStep (freshSupervisor masterNodeId send event time) inputs).2 := by
  have h := along_history nmtStep (fun _ _ => True) (Reported node)
    (fun s past input h _ => reported_step node s past input h)
    (freshSupervisor masterNodeId send event time) [] inputs ?_ (along_true _ _ _)
  · simpa using h
  · exact ⟨(fun ha => by cases ha),(fun hlost => by cases hlost),rfl,always_nil⟩

/-- Between two reports of the node, with no start and no configuration of it
in between, a valid frame of it was received. -/
def LossesApart (node : NodeId) (history : List Entry) : Prop :=
  ∀ before x middle y after, history = before++x::middle++y::after →
    declaresLost node x = true → declaresLost node y = true →
    (∀ e ∈ middle, started e = false ∧ configured node e = false) →
      ∃ e ∈ middle, heardFrom node e = true

theorem lost_relieves_nobody {node : NodeId} {e : Entry} (h : declaresLost node e = true) :
    relieves node e = false := by
  cases e with
  | call _ _ _ => cases h
  | output _ _ => rfl

theorem first_apart {node : NodeId} {history : List Entry}
    (h : Always (FirstReport node) history) : LossesApart node history := by
  intro before x middle y after hsplit hx hy hmiddle
  by_contra hheard
  rw [not_exists] at hheard
  have hquiet : ∀ e ∈ x::middle, relieves node e = false := by
    refine List.forall_mem_cons.mpr ⟨lost_relieves_nobody hx,fun e he => ?_⟩
    have hnone : heardFrom node e = false := by
      rw [← Bool.not_eq_true]
      exact fun hc => hheard e ⟨he,hc⟩
    simp [relieves,hnone,hmiddle e he]
  have hnone : reports node (before++x::middle) = 0 := h _ y after hsplit hy
  unfold reports at hnone
  rw [since_quiet _ _ _ hquiet,List.countP_append,List.countP_cons_of_pos hx] at hnone
  omega

theorem heard_taken {master : Cia302NmtMaster} {node : NodeId} {canId : UInt16}
    {data : Option UInt8} {dlc state : UInt8} (nowMs : UInt32) (hrun : master.running = true)
    (hassigned : (master.nodes node).assigned = true)
    (hfrom : heartbeatFrom node canId data dlc = some state) :
    (cia302NmtMasterReceive master canId data dlc nowMs).1 =
      setNode (atNow master nowMs) node (refreshed nowMs (master.nodes node) state) := by
  have heffect := receive_effect master canId data dlc nowMs
  generalize cia302NmtMasterReceive master canId data dlc nowMs = received at heffect ⊢
  cases heffect with
  | ignored hignored =>
    rcases hignored with rfl | hstopped
    · simp [heartbeatFrom] at hfrom
    · exact absurd (hrun.symm.trans hstopped) (by decide)
  | noted outputs _ hnone =>
    rw [hnone node hassigned] at hfrom
    cases hfrom
  | heard n byte _ _ hsender hothers =>
    by_cases hn : node = n
    · subst hn
      rw [hsender] at hfrom
      cases hfrom
      rfl
    · rw [hothers node hn] at hfrom
      cases hfrom

/-- Every valid frame of the node clears its timeout. -/
def Cleared (node : NodeId) (s : Supervisor) : Prop :=
  ∀ wait canId data dlc, heardFrom node (.call wait (.receive canId data dlc) true) = true →
    ((nmtStep s (wait,.receive canId data dlc)).1.master.nodes node).state ≠ .timedOut

theorem timed_out_cleared {node : NodeId} {s : Supervisor} {history : List Entry}
    (h : Reported node s history) (hlost : (s.master.nodes node).state = .timedOut) :
    Cleared node s := by
  intro wait canId data dlc hheard
  obtain ⟨hrun,hassigned,-⟩ := h.held hlost
  obtain ⟨state,reported,hfrom,hstate⟩ := heard_from hheard
  simp only [nmtStep,perform]
  rw [heard_taken _ hrun hassigned hfrom,setNode_self]
  show (heartbeatState state).getD _ ≠ _
  rw [hstate]
  exact reported_state hstate

structure Followed (node : NodeId) (timeout : UInt16) (s : Supervisor) (history : List Entry) :
    Prop where
  running : s.master.running = true
  event : s.master.event = true
  assigned : (s.master.nodes node).assigned = true
  timeout : (s.master.nodes node).heartbeatTimeoutMs = timeout
  stamp : ∃ q, q ≤ s.time ∧ latest (touchedAt node) history = some q ∧
    (s.master.nodes node).lastHeartbeatMs = UInt32.ofNat q

/-- Neither a start nor a configuration of the node. -/
def Undisturbed (node : NodeId) (s : Supervisor) (input : ℕ × Call) : Prop :=
  ∀ e ∈ (nmtStep s input).2, started e = false ∧ configured node e = false

section Follow
variable {node : NodeId} {timeout : UInt16} {s next : Supervisor} {history : List Entry}
  {call : Call} {result : Bool} {outputs : List Output} {automatic : Bool}

theorem followed_kept (h : Followed node timeout s history) (hle : s.time ≤ next.time)
    (hrun : next.master.running = s.master.running) (hevent : next.master.event = s.master.event)
    (hassigned : (next.master.nodes node).assigned = (s.master.nodes node).assigned)
    (htimeout : (next.master.nodes node).heartbeatTimeoutMs =
      (s.master.nodes node).heartbeatTimeoutMs)
    (hlast : (next.master.nodes node).lastHeartbeatMs = (s.master.nodes node).lastHeartbeatMs)
    (htouched : touchedAt node (.call next.time call result) = none) :
    Followed node timeout next
      (history++.call next.time call result::outputs.map (.output automatic)) := by
  obtain ⟨q,hq,hmem,hstamp⟩ := h.stamp
  refine ⟨hrun.trans h.running,hevent.trans h.event,hassigned.trans h.assigned,
    htimeout.trans h.timeout,q,hq.trans hle,?_,hlast.trans hstamp⟩
  rw [touched_step,htouched,Option.none_or]
  exact hmem

theorem followed_step (input : ℕ × Call) (h : Followed node timeout s history)
    (hc : Undisturbed node s input) :
    Followed node timeout (nmtStep s input).1 (history++(nmtStep s input).2) := by
  obtain ⟨wait,call⟩ := input
  have hle : s.time ≤ s.time+wait := Nat.le_add_right _ _
  have hfirst := hc _ List.mem_cons_self
  cases call with
  | policy nmtStartup bootTimeMs => exact followed_kept h hle rfl rfl rfl rfl rfl rfl
  | request command nodeId accepts => exact followed_kept h hle rfl rfl rfl rfl rfl rfl
  | configure nodeId mandatory autoStart timeout =>
    simp only [nmtStep,perform] at hfirst ⊢
    rcases configure_effect s.master nodeId mandatory autoStart timeout with he | ⟨hne,he⟩
    · rw [he]
      exact followed_kept h hle rfl rfl rfl rfl rfl rfl
    rw [he] at hfirst ⊢
    have hn : node ≠ nodeOf nodeId := by
      rintro rfl
      simp [configured] at hfirst
    refine followed_kept h hle rfl rfl ?_ ?_ ?_ rfl <;> rw [setNode_other _ _ _ hn]
  | start =>
    simp only [nmtStep,perform] at hfirst ⊢
    rcases start_effect s.master (UInt32.ofNat (s.time+wait)) with he | ⟨hdone,he⟩
    · rw [he]
      exact followed_kept h hle rfl rfl rfl rfl rfl rfl
    · rw [hdone] at hfirst
      cases hfirst.1
  | receive canId data dlc =>
    have heffect := receive_effect s.master canId data dlc (UInt32.ofNat (s.time+wait))
    have hsilent : heartbeatFrom node canId data dlc = none →
        touchedAt node (.call (s.time+wait) (.receive canId data dlc) true) = none := by
      intro hnone
      simp [touchedAt,hnone]
    simp only [nmtStep,perform]
    generalize cia302NmtMasterReceive s.master canId data dlc (UInt32.ofNat (s.time+wait)) =
      received at heffect ⊢
    cases heffect with
    | ignored hignored =>
      refine followed_kept h hle rfl rfl rfl rfl rfl (hsilent ?_)
      rcases hignored with rfl | hstopped
      · simp [heartbeatFrom]
      · exact absurd (h.running.symm.trans hstopped) (by decide)
    | noted outputs _ hnone =>
      exact followed_kept h hle rfl rfl rfl rfl rfl (hsilent (hnone node h.assigned))
    | heard n byte hrun hassigned hfrom hothers =>
      by_cases hn : node = n
      · subst hn
        refine ⟨hrun,h.event,?_,?_,s.time+wait,Nat.le_refl _,?_,?_⟩
        · rw [setNode_self]
          exact hassigned
        · rw [setNode_self]
          exact h.timeout
        · rw [touched_step]
          simp [touchedAt,hfrom]
        · rw [setNode_self]
          rfl
      · refine followed_kept h hle rfl rfl ?_ ?_ ?_ (hsilent (hothers node hn)) <;>
          rw [setNode_other _ _ _ hn] <;> rfl
  | process accepts =>
    obtain ⟨hassigned,htimeout,hlast⟩ :=
      process_stamp s.master accepts (UInt32.ofNat (s.time+wait)) node
    exact followed_kept h hle (process_keeps _ _ _) (process_event _ _ _) hassigned htimeout hlast
      rfl

end Follow

/-- A loss behind a valid frame is reported again: once the last frame of the
node lies longer ago than its timeout, a process call leaves it reported once
since it was last heard. -/
def ReportedAgain (node : NodeId) (s : Supervisor) (history : List Entry) : Prop :=
  ∀ wait canId data dlc more late accepts,
    heardFrom node (.call wait (.receive canId data dlc) true) = true →
    let following := run nmtStep s ((wait,.receive canId data dlc)::more)
    (∀ e ∈ following.2, started e = false ∧ configured node e = false) →
    (∀ touched ∈ latest (touchedAt node) (history++following.2),
      touched+(s.master.nodes node).heartbeatTimeoutMs.toNat < following.1.time+late ∧
        following.1.time+late < touched+2^32) →
    reports node (history++following.2++
      (nmtStep following.1 (late,.process accepts)).2) = 1

theorem heard_followed {node : NodeId} {s : Supervisor} {history : List Entry}
    (h : Reported node s history) (hlost : (s.master.nodes node).state = .timedOut)
    (hevent : s.master.event = true) {wait : ℕ} {canId : UInt16} {data : Option UInt8}
    {dlc : UInt8} (hheard : heardFrom node (.call wait (.receive canId data dlc) true) = true) :
    Followed node (s.master.nodes node).heartbeatTimeoutMs
      (nmtStep s (wait,.receive canId data dlc)).1
      (history++(nmtStep s (wait,.receive canId data dlc)).2) := by
  obtain ⟨hrun,hassigned,-⟩ := h.held hlost
  obtain ⟨state,reported,hfrom,-⟩ := heard_from hheard
  simp only [nmtStep,perform]
  rw [heard_taken _ hrun hassigned hfrom]
  refine ⟨hrun,hevent,?_,?_,s.time+wait,Nat.le_refl _,?_,?_⟩
  · rw [setNode_self]
    exact hassigned
  · rw [setNode_self]
    rfl
  · rw [touched_step]
    simp [touchedAt,hfrom]
  · rw [setNode_self]
    rfl

theorem loss_reported_again {node : NodeId} {s : Supervisor} {history : List Entry}
    (h : Reported node s history) (hlost : (s.master.nodes node).state = .timedOut)
    (hevent : s.master.event = true) : ReportedAgain node s history := by
  intro wait canId data dlc more late accepts hheard following hundisturbed hlate
  have hzero := (h.held hlost).2.2
  generalize htimeout : (s.master.nodes node).heartbeatTimeoutMs = timeout at hzero hlate
  have hfollowed : Followed node timeout following.1 (history++following.2) := by
    have hfirst := heard_followed h hlost hevent hheard
    rw [htimeout] at hfirst
    have hquiet : Along nmtStep (Undisturbed node) (nmtStep s (wait,.receive canId data dlc)).1
        more := by
      refine (along_iff_events nmtStep (Undisturbed node) (fun _ => True) _ (fun _ _ _ _ => trivial)
        (fun _ _ _ => Iff.rfl) _ _ trivial).mp fun e he => ?_
      exact hundisturbed e (List.mem_append_right _ he)
    have hrest := along_history nmtStep (Undisturbed node) (Followed node timeout)
      (fun s past input h hc => followed_step input h hc) _ _ more hfirst hquiet
    rw [List.append_assoc] at hrest
    exact hrest
  have hreported : Reported node following.1 (history++following.2) :=
    along_history nmtStep (fun _ _ => True) (Reported node)
      (fun s past input h _ => reported_step node s past input h) s history _ h (along_true _ _ _)
  have hlast := reported_step node following.1 _ (late,.process accepts) hreported
  obtain ⟨q,hq,hmem,hstamp⟩ := hfollowed.stamp
  obtain ⟨hbefore,hspan⟩ := hlate q hmem
  have hstate : ((nmtStep following.1 (late,.process accepts)).1.master.nodes node).state =
      .timedOut := by
    have hplaced := (mem_nodeIds node).mpr (hreported.placed hfollowed.assigned)
    simp only [nmtStep,perform]
    rw [process_nodes,if_pos ⟨hfollowed.running,hplaced⟩]
    by_cases hdone : (following.1.master.nodes node).state = .timedOut
    · unfold supervised
      split
      · rfl
      · exact hdone
    have hwatched : watched (following.1.master.nodes node) = true := by
      simp [watched,hfollowed.assigned,hfollowed.timeout,hzero,hdone]
    have hover := (overdue_iff (hq.trans (Nat.le_add_right _ late)) hspan hstamp hwatched).mpr
      (by rw [hfollowed.timeout]; exact hbefore)
    rw [supervised,if_pos hover]
  have hcallback : (nmtStep following.1 (late,.process accepts)).1.master.event = true := by
    simp only [nmtStep,perform]
    rw [process_event]
    exact hfollowed.event
  rw [hlast.count,if_pos ⟨hstate,hcallback⟩]

/-- The two sides of one report for each loss, in every run: reports of a node
lie apart, and a valid frame of a lost node clears it for another report. -/
theorem losses_reported_once (masterNodeId : UInt8) (send event : Bool) (time : ℕ)
    (inputs : List (ℕ × Call)) (node : NodeId) :
    let now := run nmtStep (freshSupervisor masterNodeId send event time) inputs
    LossesApart node now.2 ∧
      ((now.1.master.nodes node).state = .timedOut → Cleared node now.1 ∧
        (now.1.master.event = true → ReportedAgain node now.1 now.2)) := by
  intro now
  have h : Reported node now.1 now.2 := reported_run masterNodeId send event time inputs node
  refine ⟨first_apart h.first,fun hlost => ⟨timed_out_cleared h hlost,fun hevent => ?_⟩⟩
  exact loss_reported_again h hlost hevent

theorem losses_reported_once_peer :
    let now := run nmtStep (freshSupervisor 1 true true 0)
      [(0,.policy 1 10000),(0,.configure 2 true false 100),(0,.start),
        (101,.process fun _ => true),(50,.process fun _ => true),(0,.receive 0x702 (some 0) 1),
        (101,.process fun _ => true)]
    now.2.countP (declaresLost 2) = 2 ∧ LossesApart 2 now.2 := by
  intro now
  exact ⟨by decide +kernel,(losses_reported_once 1 true true 0
    [(0,.policy 1 10000),(0,.configure 2 true false 100),(0,.start),
      (101,.process fun _ => true),(50,.process fun _ => true),(0,.receive 0x702 (some 0) 1),
      (101,.process fun _ => true)] 2).1⟩

end CanopenReference.NmtReports
