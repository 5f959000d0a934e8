import CanopenReference.NmtReports

/-!
# Boot timeouts behind readiness

The boot timeout looks at the same mandatory nodes as readiness does, and
does not ask whether the network was ready already.
-/

set_option autoImplicit false

namespace CanopenReference.NmtBootTimeout
open Library.Runs Library.History NmtMaster NmtReadiness NmtReports

def announcesBootTimeout : Entry → Bool
  | .output _ (.event e) => e.type = .bootTimeout
  | _ => false

/-- A boot timeout comes before the network was announced ready, in each start. -/
def BootPhase (before : List Entry) (e : Entry) : Prop :=
  announcesBootTimeout e = true → readyCount before = 0

instance (before : List Entry) (e : Entry) : Decidable (BootPhase before e) :=
  inferInstanceAs (Decidable (_ = true → readyCount before = 0))

def relapsed (nowMs : UInt32) (value : Cia302Node) : Bool :=
  value.assigned && value.mandatory &&
    (value.state = .waitingBootup || value.state = .timedOut || overdue nowMs value)

def bootOverdue (master : Cia302NmtMaster) (nowMs : UInt32) : Bool :=
  master.bootTimeMs ≠ 0 && !master.bootTimeoutReported &&
    master.bootTimeMs < nowMs-master.startedAtMs &&
      nodeIds.any fun node => relapsed nowMs (master.nodes node)

/-- A process call of a ready network that finds the boot time overdue. -/
def Relapse (s : Supervisor) (input : ℕ × Call) : Prop :=
  match input.2 with
  | .process _ => s.master.running = true ∧ s.master.event = true ∧
      s.master.networkReady = true ∧ bootOverdue s.master (UInt32.ofNat (s.time+input.1)) = true
  | _ => False

instance (s : Supervisor) (input : ℕ × Call) : Decidable (Relapse s input) :=
  match input with
  | (_,.process _) => inferInstanceAs (Decidable (_ = true ∧ _ = true ∧ _ = true ∧ _ = true))
  | (_,.policy _ _) => inferInstanceAs (Decidable False)
  | (_,.configure _ _ _ _) => inferInstanceAs (Decidable False)
  | (_,.request _ _ _) => inferInstanceAs (Decidable False)
  | (_,.start) => inferInstanceAs (Decidable False)
  | (_,.receive _ _ _) => inferInstanceAs (Decidable False)

section Settle
variable (master : Cia302NmtMaster) (nowMs : UInt32)

theorem missing_supervised (value : Cia302Node) :
    missing (supervised nowMs value) = relapsed nowMs value := by
  by_cases hover : overdue nowMs value = true
  · simp [supervised,missing,relapsed,hover]
  · simp [supervised,missing,relapsed,hover,Bool.and_assoc]

theorem missing_at {node : NodeId} (h : node ∈ nodeIds) :
    missing ((supervisedMaster master nowMs).nodes node) = relapsed nowMs (master.nodes node) := by
  rw [← missing_supervised]
  show missing (if node ∈ nodeIds then _ else _) = _
  rw [if_pos h]

theorem ready_supervised :
    mandatoryNodesReady (supervisedMaster master nowMs) =
      !nodeIds.any fun node => relapsed nowMs (master.nodes node) := by
  unfold mandatoryNodesReady
  rw [Bool.eq_iff_iff,List.all_eq_true,Bool.not_eq_true',List.any_eq_false]
  constructor
  · intro h node hnode
    have hready := h node hnode
    rw [missing_at master nowMs hnode,Bool.not_eq_true'] at hready
    rw [hready]
    exact Bool.false_ne_true
  · intro h node hnode
    rw [missing_at master nowMs hnode,Bool.not_eq_true',← Bool.not_eq_true]
    exact h node hnode

theorem settle_late (accepts : NodeId → Bool) :
    bootOverdue master nowMs = true ∧ (∃ node,
        (settle (supervisedMaster master nowMs) accepts nowMs).2 =
          emitEvent (supervisedMaster master nowMs) .bootTimeout (idOf node) 0) ∨
      bootOverdue master nowMs = false ∧
        ∀ o ∈ (settle (supervisedMaster master nowMs) accepts nowMs).2,
          announcesBootTimeout (.output true o) = false := by
  have hready := ready_supervised master nowMs
  unfold settle
  simp only
  split
  · rename_i h
    left
    obtain ⟨hmissing,hzero,hreported,hlate⟩ := h
    rw [hready,Bool.not_not] at hmissing
    have hzero : master.bootTimeMs ≠ 0 := hzero
    have hreported : (!master.bootTimeoutReported) = true := hreported
    have hlate : master.bootTimeMs < nowMs-master.startedAtMs := hlate
    refine ⟨by simp [bootOverdue,hzero,hreported,hlate,hmissing],?_⟩
    split
    · rename_i hnone
      obtain ⟨node,hnode,hrelapsed⟩ := List.any_eq_true.mp hmissing
      have hfound := List.find?_eq_none.mp hnone node hnode
      rw [missing_at master nowMs hnode] at hfound
      exact absurd hrelapsed hfound
    · rename_i node _
      exact ⟨node,rfl⟩
  · rename_i h
    right
    constructor
    · rw [← Bool.not_eq_true]
      intro hc
      simp only [bootOverdue,Bool.and_eq_true,decide_eq_true_eq] at hc
      refine h ⟨?_,hc.1.1.1,hc.1.1.2,hc.1.2⟩
      rw [hready,hc.2]
      rfl
    · intro o ho
      split at ho
      · rcases List.mem_append.mp ho with ho | ho
        · rw [emit_mem _ ho]
          rfl
        split at ho
        · obtain ⟨n,-,ho⟩ := List.mem_flatMap.mp ho
          unfold cia302NmtMasterRequest at ho
          split at ho
          · cases ho
          · rw [List.mem_singleton.mp ho]
            rfl
        · cases ho
      · cases ho

end Settle

theorem emit_event {master : Cia302NmtMaster} {type : Cia302EventType} {nodeId state : UInt8}
    (h : master.event = true) :
    .event ⟨type,nodeId,state,master.nowMs⟩ ∈ emitEvent master type nodeId state := by
  unfold emitEvent
  rw [if_pos h]
  exact List.mem_cons_self

theorem not_boot_timeout {master : Cia302NmtMaster} {type : Cia302EventType}
    {nodeId state : UInt8} {automatic : Bool} {o : Output} (h : type ≠ .bootTimeout)
    (ho : o ∈ emitEvent master type nodeId state) :
    announcesBootTimeout (.output automatic o) = false := by
  rw [emit_mem master ho]
  simp [announcesBootTimeout,h]

theorem boot_timeout_overdue (s : Supervisor) (input : ℕ × Call) (e : Entry)
    (he : e ∈ (nmtStep s input).2) (hlate : announcesBootTimeout e = true) :
    (∃ accepts, input.2 = .process accepts) ∧ s.master.running = true ∧
      s.master.event = true ∧ bootOverdue s.master (UInt32.ofNat (s.time+input.1)) = true := by
  obtain ⟨wait,call⟩ := input
  have hnone : ∀ {outputs : List Output} {automatic : Bool},
      (∀ o ∈ outputs, announcesBootTimeout (.output automatic o) = false) →
        e ∉ outputs.map (Entry.output automatic) := by
    intro outputs automatic hquiet hmem
    obtain ⟨o,ho,rfl⟩ := List.mem_map.mp hmem
    rw [hquiet o ho] at hlate
    cases hlate
  rcases List.mem_cons.mp he with rfl | he
  · cases hlate
  cases call with
  | policy _ _ => cases he
  | configure _ _ _ _ => cases he
  | start => cases he
  | request command nodeId accepts =>
    refine absurd he (hnone fun o ho => ?_)
    simp only [perform] at ho
    unfold cia302NmtMasterRequest at ho
    split at ho
    · cases ho
    · rw [List.mem_singleton.mp ho]
      rfl
  | receive canId data dlc =>
    have heffect := receive_effect s.master canId data dlc (UInt32.ofNat (s.time+wait))
    simp only [perform] at he
    generalize cia302NmtMasterReceive s.master canId data dlc (UInt32.ofNat (s.time+wait)) =
      received at heffect he
    refine absurd he (hnone fun o ho => ?_)
    cases heffect with
    | ignored _ => cases ho
    | noted outputs hevents _ =>
      rw [hevents o ho]
      rfl
    | heard n state _ _ _ _ =>
      refine not_boot_timeout ?_ ho
      rcases heard_event_kind state with h | h | h <;> rw [h] <;> decide
  | process accepts =>
    simp only [perform] at he
    refine ⟨⟨accepts,rfl⟩,?_⟩
    cases hrun : s.master.running with
    | false =>
      rw [process_stopped _ _ _ hrun] at he
      cases he
    | true =>
      rw [process_running _ _ _ hrun] at he
      obtain ⟨o,ho,rfl⟩ := List.mem_map.mp he
      rcases List.mem_append.mp ho with ho | ho
      · obtain ⟨n,-,ho⟩ := List.mem_flatMap.mp ho
        rw [not_boot_timeout (fun hc => by cases hc) ho] at hlate
        cases hlate
      · rcases settle_late s.master (UInt32.ofNat (s.time+wait)) accepts with
          ⟨hover,node,hemit⟩ | ⟨-,hquiet⟩
        · refine ⟨rfl,?_,hover⟩
          rw [hemit] at ho
          unfold emitEvent at ho
          split at ho
          · rename_i hevent
            exact hevent
          · cases ho
        · rw [isProcess,hquiet o ho] at hlate
          cases hlate

theorem overdue_boot_timeout (s : Supervisor) (wait : ℕ) (accepts : NodeId → Bool)
    (hrun : s.master.running = true) (hevent : s.master.event = true)
    (hover : bootOverdue s.master (UInt32.ofNat (s.time+wait)) = true) :
    ∃ e ∈ (nmtStep s (wait,.process accepts)).2, announcesBootTimeout e = true := by
  rcases settle_late s.master (UInt32.ofNat (s.time+wait)) accepts with
    ⟨-,node,hemit⟩ | ⟨hnone,-⟩
  · refine ⟨.output true (.event ⟨.bootTimeout,idOf node,0,UInt32.ofNat (s.time+wait)⟩),?_,rfl⟩
    simp only [nmtStep,perform]
    rw [process_running _ _ _ hrun,hemit]
    apply List.mem_cons_of_mem
    apply List.mem_map_of_mem
    exact List.mem_append_right _ (emit_event hevent)
  · rw [hover] at hnone
    cases hnone

theorem event_step (s : Supervisor) (input : ℕ × Call) :
    (nmtStep s input).1.master.event = s.master.event := by
  obtain ⟨wait,call⟩ := input
  cases call with
  | policy _ _ => rfl
  | request _ _ _ => rfl
  | configure nodeId mandatory autoStart timeout =>
    show (cia302NmtMasterConfigure _ _ _ _ _).1.event = _
    rcases configure_effect s.master nodeId mandatory autoStart timeout with he | ⟨-,he⟩
    · rw [he]
    · rw [he]
      rfl
  | start =>
    show (cia302NmtMasterStart _ _).1.event = _
    unfold cia302NmtMasterStart
    split <;> rfl
  | receive canId data dlc =>
    have heffect := receive_effect s.master canId data dlc (UInt32.ofNat (s.time+wait))
    show (cia302NmtMasterReceive _ _ _ _ _).1.event = _
    generalize cia302NmtMasterReceive s.master canId data dlc (UInt32.ofNat (s.time+wait)) =
      received at heffect ⊢
    cases heffect <;> rfl
  | process accepts => exact process_event _ _ _

structure Announced (s : Supervisor) (history : List Entry) : Prop where
  ready : s.master.event = true → s.master.networkReady = true → readyCount history ≠ 0
  fresh : s.master.networkReady = false → readyCount history = 0

theorem count_kept {history entries : List Entry} (h : ∀ e ∈ entries, uneventful e = true) :
    readyCount (history++entries) = readyCount history := by
  unfold readyCount
  rw [count_since _ _ fun e he => ((uneventful_iff e).mp (h e he)).1,
    count_none fun e he => ((uneventful_iff e).mp (h e he)).2.1,Nat.add_zero]

theorem announced_step (s : Supervisor) (history : List Entry) (input : ℕ × Call)
    (h : Announced s history) :
    Announced (nmtStep s input).1 (history++(nmtStep s input).2) := by
  have hevent := event_step s input
  have hadvance := step_advance s input
  generalize nmtStep s input = done at hadvance hevent ⊢
  cases hadvance with
  | kept next entries hsame hquiet =>
    constructor
    · rw [hevent,hsame,count_kept hquiet]
      exact h.ready
    · rw [hsame,count_kept hquiet]
      exact h.fresh
  | restarted next time hready =>
    constructor
    · intro _ hc
      exact absurd (hc.symm.trans hready) (by decide)
    · intro _
      unfold readyCount
      rw [since_marked started history [] _ rfl (fun x hx => by cases hx)]
      rfl
  | becameReady next accepts _ _ hfirst _ hnext =>
    constructor
    · intro hlistens _ hcount
      unfold readyCount at hcount
      rw [count_since _ _ ?_] at hcount
      · have hnone := List.countP_eq_zero.mp (Nat.eq_zero_of_add_eq_zero_left hcount)
        refine hnone (.output true (.event ⟨.networkReady,0,0,
          UInt32.ofNat (s.time+input.1)⟩)) ?_ rfl
        apply List.mem_cons_of_mem
        apply List.mem_map_of_mem
        apply List.mem_append_right
        apply List.mem_append_left
        exact emit_event (hevent.symm.trans hlistens)
      · intro e he
        rcases List.mem_cons.mp he with rfl | he
        · rfl
        · exact (outputs_quiet 0 _ true e he).2
    · exact fun hf => absurd (hnext.symm.trans hf) (by decide)

theorem timeout_front {s : Supervisor} {history before after : List Entry} {input : ℕ × Call}
    {e : Entry} (hsplit : (nmtStep s input).2 = before++e::after)
    (hlate : announcesBootTimeout e = true)
    (hover : bootOverdue s.master (UInt32.ofNat (s.time+input.1)) = true) :
    readyCount (history++before) = readyCount history := by
  have hadvance := step_advance s input
  generalize nmtStep s input = done at hadvance hsplit
  cases hadvance with
  | kept next entries _ hquiet =>
    have hsplit : entries = before++e::after := hsplit
    exact count_kept fun x hx => hquiet x (hsplit ▸ List.mem_append_left _ hx)
  | restarted next time _ =>
    have hmem : e ∈ [Entry.call time .start true] := by
      have hsplit : [Entry.call time .start true] = before++e::after := hsplit
      rw [hsplit]
      simp
    rw [List.mem_singleton.mp hmem] at hlate
    cases hlate
  | becameReady next accepts _ _ _ hready _ =>
    rw [ready_supervised] at hready
    simp only [bootOverdue,Bool.and_eq_true] at hover
    rw [hover.2] at hready
    cases hready

theorem boot_phase_step (s : Supervisor) (history : List Entry) (input : ℕ × Call)
    (h : Announced s history) (hp : Always BootPhase history) :
    Always BootPhase (history++(nmtStep s input).2) ↔ ¬Relapse s input := by
  constructor
  · intro hall hrelapse
    obtain ⟨wait,call⟩ := input
    cases call with
    | process accepts =>
      obtain ⟨hrun,hevent,hready,hover⟩ := hrelapse
      obtain ⟨e,he,hlate⟩ := overdue_boot_timeout s wait accepts hrun hevent hover
      obtain ⟨before,after,hsplit⟩ := List.append_of_mem he
      have hnone : readyCount (history++before) = 0 := by
        refine hall _ e after ?_ hlate
        rw [hsplit,List.append_assoc]
      rw [timeout_front hsplit hlate hover] at hnone
      exact h.ready hevent hready hnone
    | policy _ _ => exact hrelapse
    | configure _ _ _ _ => exact hrelapse
    | request _ _ _ => exact hrelapse
    | start => exact hrelapse
    | receive _ _ _ => exact hrelapse
  · intro hrelapse
    apply always_extend hp
    intro before e after hsplit hlate
    have he : e ∈ (nmtStep s input).2 := hsplit ▸ List.mem_append_right _ List.mem_cons_self
    obtain ⟨⟨accepts,hinput⟩,hrun,hevent,hover⟩ := boot_timeout_overdue s input e he hlate
    have hfirst : s.master.networkReady = false := by
      rw [← Bool.not_eq_true]
      intro hready
      apply hrelapse
      unfold Relapse
      rw [hinput]
      exact ⟨hrun,hevent,hready,hover⟩
    rw [timeout_front hsplit hlate hover]
    exact h.fresh hfirst

/-- In a run no boot timeout follows readiness within a start exactly when no
process call of the ready network finds the boot time overdue. -/
theorem boot_phase_kept (masterNodeId : UInt8) (send event : Bool) (time : ℕ)
    (inputs : List (ℕ × Call)) :
    Always BootPhase (run nmtStep (freshSupervisor masterNodeId send event time) inputs).2 ↔
      Along nmtStep (fun s input => ¬Relapse s input)
        (freshSupervisor masterNodeId send event time) inputs := by
  have h := along_iff_always nmtStep (fun s input => ¬Relapse s input) Announced BootPhase
    announced_step boot_phase_step (freshSupervisor masterNodeId send event time) [] inputs
    ⟨(fun _ hc => by cases hc),fun _ => rfl⟩ always_nil
  rwa [List.nil_append] at h

/-- A node that boots in time is lost long after the boot time. -/
theorem boot_timeout_after_ready :
    ¬Always BootPhase (run nmtStep (freshSupervisor 1 true true 0)
      [(0,.policy 1 1000),(0,.configure 2 true false 100),(0,.start),
        (10,.receive 0x702 (some 0) 1),(10,.process fun _ => true),
        (5000,.process fun _ => true)]).2 := by
  decide +kernel

end CanopenReference.NmtBootTimeout
