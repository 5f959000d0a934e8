import CanopenReference.NmtReadiness

/-!
# Automatic starts

Becoming ready starts the nodes that are assigned for it at that moment, each
once and whatever the send callback answers. Nothing is started automatically
before, or later, until the master is started again.
-/

set_option autoImplicit false

namespace CanopenReference.NmtAutoStart
open Library.Runs Library.History NmtMaster NmtReadiness

/-- An automatic start command to the node. -/
def startFor (node : NodeId) : Entry → Bool
  | .output automatic (.send frame _) => automatic && frame.data.take 2 = [cia302NmtStart,idOf node]
  | _ => false

def autoStartCount (node : NodeId) (history : List Entry) : ℕ :=
  (since started history).countP (startFor node)

/-- Becoming ready starts nodes. -/
def startsNodes (master : Cia302NmtMaster) : Prop := master.nmtStartup &&& ((1 : UInt32) <<< 3) = 0

instance (master : Cia302NmtMaster) : Decidable (startsNodes master) :=
  inferInstanceAs (Decidable (_ = _))

def startAccepted (node : NodeId) : Entry → Bool
  | .output _ (.send frame accepted) =>
    accepted && (frame.data.take 2 = [cia302NmtStart,idOf node] ||
      frame.data.take 2 = [cia302NmtStart,0])
  | _ => false

def awaitsStart (node : NodeId) (e : Entry) : Bool :=
  started e || match e with
    | .call _ (.receive canId data dlc) _ =>
      heartbeatFrom node canId data dlc = some cia302HeartbeatBootup
    | _ => false

def StartedUp (node : NodeId) (history : List Entry) : Prop :=
  ∃ e ∈ since (awaitsStart node) history, startAccepted node e = true

instance (node : NodeId) (history : List Entry) : Decidable (StartedUp node history) :=
  inferInstanceAs (Decidable (∃ e ∈ _, _))

/-- A ready network leaves no automatic node in pre-operational unstarted. -/
def Complete (s : Supervisor) (history : List Entry) : Prop :=
  s.master.networkReady = true → startsNodes s.master → ∀ node,
    (s.master.nodes node).assigned = true → (s.master.nodes node).autoStart = true →
      (s.master.nodes node).state = .preop → StartedUp node history

section Counts
variable (node : NodeId)

theorem start_for_automatic {e : Entry} (h : autoStarted e = false) : startFor node e = false := by
  cases e with
  | call _ _ _ => rfl
  | output automatic o =>
    cases o with
    | event _ => rfl
    | send frame accepted =>
      cases automatic with
      | false => rfl
      | true =>
        have hhead : frame.data.head? ≠ some cia302NmtStart := by simpa [autoStarted] using h
        simp only [startFor,Bool.true_and,decide_eq_false_iff_not]
        intro htake
        apply hhead
        cases hdata : frame.data with
        | nil =>
          rw [hdata] at htake
          cases htake
        | cons x xs =>
          rw [hdata,List.take_succ_cons] at htake
          rw [(List.cons.inj htake).1]
          rfl

theorem request_start (master : Cia302NmtMaster) (hsend : master.send = true) (n : NodeId)
    (accepts : Bool) :
    (cia302NmtMasterRequest master cia302NmtStart (idOf n) accepts).2 =
      [.send ⟨cia302NmtCanId,2,[cia302NmtStart,idOf n,0,0,0,0,0,0]⟩ accepts] := by
  have hid : (idOf n).toNat = n.val%2^8 := rfl
  have hn := n.isLt
  unfold cia302NmtMasterRequest
  rw [if_neg]
  rintro (h | h | h)
  · rw [hsend] at h
    cases h
  · cases h
  · unfold cia302MaxNodes at hn h
    omega

theorem auto_starts_count (master : Cia302NmtMaster) (hsend : master.send = true)
    (accepts : NodeId → Bool) :
    ((autoStarts master accepts).map (Entry.output true)).countP (startFor node) =
      if node ≠ 0 ∧ (master.nodes node).assigned = true ∧ (master.nodes node).autoStart = true
        then 1 else 0 := by
  unfold autoStarts
  simp only [request_start master hsend,← List.map_eq_flatMap,List.map_map,List.countP_map]
  have hmatch : (startFor node ∘ Entry.output true ∘ fun n =>
      Output.send ⟨cia302NmtCanId,2,[cia302NmtStart,idOf n,0,0,0,0,0,0]⟩ (accepts n)) =
        fun n => n == node := by
    funext n
    by_cases h : n = node
    · simp [startFor,h]
    · have hid : idOf n ≠ idOf node := fun hc => h (id_injective hc)
      simp [startFor,h,hid]
  rw [hmatch]
  show List.count node _ = _
  rw [(nodeIds_nodup.filter _).count]
  simp only [List.mem_filter,mem_nodeIds,decide_eq_true_eq]

theorem timeouts_count (master : Cia302NmtMaster) (nowMs : UInt32) :
    ((timeouts master nowMs).map (Entry.output true)).countP (startFor node) = 0 := by
  apply count_none
  intro e he
  obtain ⟨o,ho,rfl⟩ := List.mem_map.mp he
  have hquiet : uneventful (.output true o) = true :=
    uneventful_output (timeouts_uneventful _ _ o ho)
  exact start_for_automatic node ((uneventful_iff _).mp hquiet).2.2

theorem ready_count (master : Cia302NmtMaster) (hsend : master.send = true)
    (accepts : NodeId → Bool) :
    ((readyOutputs master accepts).map (Entry.output true)).countP (startFor node) =
      if node ≠ 0 ∧ (master.nodes node).assigned = true ∧ (master.nodes node).autoStart = true ∧
        startsNodes master then 1 else 0 := by
  have hemit : ((emitEvent master .networkReady 0 0).map (Entry.output true)).countP
      (startFor node) = 0 := by
    apply count_none
    intro e he
    obtain ⟨o,ho,rfl⟩ := List.mem_map.mp he
    rw [emit_mem master ho]
    rfl
  unfold readyOutputs
  rw [List.map_append,List.countP_append,hemit,Nat.zero_add]
  by_cases hbit : master.nmtStartup &&& ((1 : UInt32) <<< 3) = 0
  · rw [if_pos hbit,auto_starts_count node master hsend]
    simp only [show startsNodes master from hbit,and_true]
  · rw [if_neg hbit,if_neg (fun h => hbit h.2.2.2)]
    rfl

end Counts

theorem send_step (s : Supervisor) (input : ℕ × Call)
    (h : s.master.running = true → s.master.send = true) :
    (nmtStep s input).1.master.running = true → (nmtStep s input).1.master.send = true := by
  obtain ⟨wait,call⟩ := input
  cases call with
  | policy _ _ => exact h
  | request _ _ _ => exact h
  | configure nodeId mandatory autoStart timeout =>
    show (cia302NmtMasterConfigure _ _ _ _ _).1.running = true →
      (cia302NmtMasterConfigure _ _ _ _ _).1.send = true
    rcases configure_effect s.master nodeId mandatory autoStart timeout with he | ⟨-,he⟩
    · rw [he]
      exact h
    · rw [he]
      exact h
  | start =>
    show (cia302NmtMasterStart _ _).1.running = true → (cia302NmtMasterStart _ _).1.send = true
    unfold cia302NmtMasterStart
    split
    · exact h
    · rename_i hsend
      rw [not_or,Bool.not_eq_true',Bool.not_eq_false] at hsend
      exact fun _ => hsend.1
  | receive canId data dlc =>
    have heffect := receive_effect s.master canId data dlc (UInt32.ofNat (s.time+wait))
    show (cia302NmtMasterReceive _ _ _ _ _).1.running = true →
      (cia302NmtMasterReceive _ _ _ _ _).1.send = true
    generalize cia302NmtMasterReceive s.master canId data dlc (UInt32.ofNat (s.time+wait)) =
      received at heffect ⊢
    cases heffect <;> exact h
  | process accepts =>
    show (cia302NmtMasterProcess _ _ _).1.running = true →
      (cia302NmtMasterProcess _ _ _).1.send = true
    cases hrun : s.master.running with
    | false =>
      rw [process_stopped _ _ _ hrun]
      exact h
    | true =>
      rw [process_running _ _ _ hrun]
      have heffect := settle_effect (supervisedMaster s.master (UInt32.ofNat (s.time+wait)))
        accepts (UInt32.ofNat (s.time+wait))
      generalize settle (supervisedMaster s.master (UInt32.ofNat (s.time+wait))) accepts
        (UInt32.ofNat (s.time+wait)) = settled at heffect ⊢
      cases heffect <;> exact h

structure Waiting (s : Supervisor) (history : List Entry) : Prop where
  send : s.master.running = true → s.master.send = true
  fresh : s.master.networkReady = false → ∀ e ∈ since started history, autoStarted e = false

theorem waiting_step (s : Supervisor) (history : List Entry) (input : ℕ × Call)
    (h : Waiting s history) :
    Waiting (nmtStep s input).1 (history++(nmtStep s input).2) := by
  refine ⟨send_step s input h.send,?_⟩
  have hadvance := step_advance s input
  generalize nmtStep s input = done at hadvance ⊢
  cases hadvance with
  | kept next entries hsame hquiet =>
    intro hf e he
    rw [since_quiet started history entries
      fun x hx => ((uneventful_iff x).mp (hquiet x hx)).1] at he
    rcases List.mem_append.mp he with he | he
    · exact h.fresh (hsame.symm.trans hf) e he
    · exact ((uneventful_iff e).mp (hquiet e he)).2.2
  | restarted next time _ =>
    intro _ e he
    rw [since_marked started history [] _ rfl (fun x hx => by cases hx)] at he
    cases he
  | becameReady next accepts _ _ _ _ hnext =>
    exact fun hf => absurd (hnext.symm.trans hf) (by decide)

theorem waiting_run (masterNodeId : UInt8) (send event : Bool) (time : ℕ)
    (inputs : List (ℕ × Call)) :
    Waiting (run nmtStep (freshSupervisor masterNodeId send event time) inputs).1
      (run nmtStep (freshSupervisor masterNodeId send event time) inputs).2 := by
  have h := along_history nmtStep (fun _ _ => True) Waiting
    (fun s past input hs _ => waiting_step s past input hs)
    (freshSupervisor masterNodeId send event time) [] inputs
    ⟨(fun hc => by cases hc),fun _ e he => by cases he⟩ (along_true _ _ _)
  simpa using h

theorem ready_rests (s : Supervisor) (inputs : List (ℕ × Call))
    (hready : s.master.networkReady = true)
    (h : ∀ e ∈ (run nmtStep s inputs).2, started e = false) :
    ∀ e ∈ (run nmtStep s inputs).2, autoStarted e = false := by
  induction inputs generalizing s with
  | nil =>
    intro e he
    cases he
  | cons input inputs ih =>
    rw [run_cons] at h ⊢
    have hadvance := step_advance s input
    generalize nmtStep s input = done at hadvance h ⊢
    have hstep : ∀ e ∈ done.2, started e = false := fun e he => h e (List.mem_append_left _ he)
    cases hadvance with
    | kept next entries hsame hquiet =>
      intro e he
      rcases List.mem_append.mp he with he | he
      · exact ((uneventful_iff e).mp (hquiet e he)).2.2
      · exact ih next (hsame.trans hready) (fun x hx => h x (List.mem_append_right _ hx)) e he
    | restarted next time _ => exact absurd (hstep _ List.mem_cons_self) (by simp [started])
    | becameReady next accepts _ _ hfirst _ _ =>
      exact absurd (hready.symm.trans hfirst) (by decide)

theorem supervised_config (nowMs : UInt32) (value : Cia302Node) :
    (supervised nowMs value).assigned = value.assigned ∧
      (supervised nowMs value).autoStart = value.autoStart := by
  unfold supervised
  split <;> exact ⟨rfl,rfl⟩

theorem becoming_ready_starts {s : Supervisor} {wait : ℕ} {accepts : NodeId → Bool}
    (hsend : s.master.running = true → s.master.send = true)
    (hfirst : s.master.networkReady = false)
    (hready : (nmtStep s (wait,.process accepts)).1.master.networkReady = true) (node : NodeId) :
    (∀ e ∈ (nmtStep s (wait,.process accepts)).2, started e = false) ∧
      (nmtStep s (wait,.process accepts)).2.countP (startFor node) =
        if node ≠ 0 ∧ (s.master.nodes node).assigned = true ∧
          (s.master.nodes node).autoStart = true ∧ startsNodes s.master then 1 else 0 := by
  have hadvance := step_advance s (wait,.process accepts)
  generalize nmtStep s (wait,.process accepts) = done at hadvance hready ⊢
  cases hadvance with
  | kept next entries hsame _ => exact absurd (hready.symm.trans (hsame.trans hfirst)) (by decide)
  | restarted next time hf => exact absurd (hready.symm.trans hf) (by decide)
  | becameReady next accepts' hinput hrun _ _ _ =>
    constructor
    · intro e he
      rcases List.mem_cons.mp he with rfl | he
      · rfl
      · exact (outputs_quiet node _ true e he).2
    · have hcount := ready_count node
        (supervisedMaster s.master (UInt32.ofNat (s.time+wait))) (hsend hrun) accepts'
      rw [List.countP_cons_of_neg Bool.false_ne_true,List.map_append,List.countP_append,
        timeouts_count,Nat.zero_add,hcount]
      by_cases hnode : node ∈ nodeIds
      · obtain ⟨hassigned,hauto⟩ :=
          supervised_config (UInt32.ofNat (s.time+wait)) (s.master.nodes node)
        simp only [supervisedMaster,if_pos hnode,hassigned,hauto]
        rfl
      · rw [mem_nodeIds,not_not] at hnode
        rw [if_neg (fun h => h.1 hnode),if_neg (fun h => h.1 hnode)]

/-- From a start on, nothing is started automatically until the network becomes
ready. That starts each node that is then assigned for it by one command, if bit
3 of the startup word is clear, whatever the send callback answers, and no other
node. After that nothing is started until the next start. -/
theorem auto_start_once (masterNodeId : UInt8) (send event : Bool) (time : ℕ)
    (pre post : List (ℕ × Call)) (wait : ℕ) (accepts : NodeId → Bool) (node : NodeId) :
    let before := run nmtStep (freshSupervisor masterNodeId send event time) pre
    let ready := nmtStep before.1 (wait,.process accepts)
    let after := run nmtStep ready.1 post
    before.1.master.networkReady = false → ready.1.master.networkReady = true →
      (∀ e ∈ after.2, started e = false) →
        let starts := if (before.1.master.nodes node).assigned = true ∧
          (before.1.master.nodes node).autoStart = true ∧ startsNodes before.1.master then 1 else 0
        (∀ e ∈ since started before.2, autoStarted e = false) ∧
          ready.2.countP (startFor node) = starts ∧
          (∀ e ∈ after.2, autoStarted e = false) ∧
          autoStartCount node (before.2++ready.2++after.2) = starts := by
  intro before ready after hfirst hready hafter
  have hwaiting : Waiting before.1 before.2 := waiting_run masterNodeId send event time pre
  have hnodes : Readiness before.1 before.2 := readiness_run masterNodeId send event time pre
  obtain ⟨hstep,hcount⟩ := becoming_ready_starts hwaiting.send hfirst hready node
  have hrest : ∀ e ∈ after.2, autoStarted e = false := ready_rests ready.1 post hready hafter
  have hfresh := hwaiting.fresh hfirst
  have hzero : node ≠ 0 ∧ (before.1.master.nodes node).assigned = true ∧
      (before.1.master.nodes node).autoStart = true ∧ startsNodes before.1.master ↔
        (before.1.master.nodes node).assigned = true ∧
          (before.1.master.nodes node).autoStart = true ∧ startsNodes before.1.master :=
    ⟨And.right,fun h => ⟨((hnodes.nodes node).assigned h.1).1,h⟩⟩
  simp only [hzero] at hcount
  refine ⟨hfresh,hcount,hrest,?_⟩
  unfold autoStartCount
  rw [count_since _ _ hafter,count_since _ _ hstep,
    count_none fun e he => start_for_automatic node (hfresh e he),
    count_none fun e he => start_for_automatic node (hrest e he),Nat.zero_add,Nat.add_zero]
  exact hcount

def configuredPeers : List (ℕ × Call) :=
  [(0,.policy 1 10000),(0,.configure 2 true true 1500),(0,.configure 3 false true 0),(0,.start)]

def bootUp (node : UInt16) : Call := .receive (cia302HeartbeatBase+node) (some 0) 1

theorem auto_start_once_peer :
    let before := run nmtStep (freshSupervisor 1 true true 0) (configuredPeers++[(5,bootUp 2)])
    let ready := nmtStep before.1 (5,.process fun _ => false)
    let after := run nmtStep ready.1 [(5,bootUp 3),(5,.process fun _ => true)]
    autoStartCount 3 (before.2++ready.2++after.2) = 1 ∧
      ∀ e ∈ after.2, autoStarted e = false := by
  obtain ⟨-,-,hrest,hcount⟩ := auto_start_once 1 true true 0 (configuredPeers++[(5,bootUp 2)])
    [(5,bootUp 3),(5,.process fun _ => true)] 5 (fun _ => false) 3 (by decide +kernel)
    (by decide +kernel) (by decide +kernel)
  exact ⟨hcount.trans (by decide +kernel),hrest⟩

theorem unstarted {s : Supervisor} {history : List Entry} (node : NodeId)
    (h : s.master.networkReady = true ∧ startsNodes s.master ∧
      (s.master.nodes node).assigned = true ∧ (s.master.nodes node).autoStart = true ∧
        (s.master.nodes node).state = .preop ∧ ¬StartedUp node history) :
    ¬Complete s history := by
  obtain ⟨hready,hbit,hassigned,hauto,hpreop,hnot⟩ := h
  exact fun hc => hnot (hc hready hbit node hassigned hauto hpreop)

/-- The command is refused. -/
def refusedRun : List (ℕ × Call) := configuredPeers++[(5,bootUp 2),(5,.process fun _ => false)]

/-- A node boots after readiness. -/
def lateRun : List (ℕ × Call) :=
  configuredPeers++[(5,bootUp 2),(5,.process fun _ => true),(5,bootUp 3),(5,.process fun _ => true)]

/-- A started node reboots. -/
def rebootedRun : List (ℕ × Call) :=
  configuredPeers++[(5,bootUp 2),(5,.process fun _ => true),
    (5,.receive 0x702 (some cia302HeartbeatOperational) 1),(5,bootUp 2),(5,.process fun _ => true)]

theorem auto_start_incomplete :
    ¬Complete (run nmtStep (freshSupervisor 1 true true 0) refusedRun).1
        (run nmtStep (freshSupervisor 1 true true 0) refusedRun).2 ∧
      ¬Complete (run nmtStep (freshSupervisor 1 true true 0) lateRun).1
        (run nmtStep (freshSupervisor 1 true true 0) lateRun).2 ∧
      ¬Complete (run nmtStep (freshSupervisor 1 true true 0) rebootedRun).1
        (run nmtStep (freshSupervisor 1 true true 0) rebootedRun).2 := by
  refine ⟨?_,?_,?_⟩
  · exact unstarted 2 (by decide +kernel)
  · exact unstarted 3 (by decide +kernel)
  · exact unstarted 2 (by decide +kernel)

end CanopenReference.NmtAutoStart
