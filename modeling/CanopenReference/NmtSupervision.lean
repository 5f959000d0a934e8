import CanopenReference.NmtHeartbeat

/-!
# Heartbeat supervision misses no silent node

A node that stays silent for longer than its timeout is timed out behind the
next process call, as long as no frame with an invalid state byte renews its
heartbeat time meanwhile.
-/

set_option autoImplicit false

namespace CanopenReference.NmtSupervision
open Library.Runs Library.History Library.Clock NmtMaster NmtReadiness NmtHeartbeat

def touchedAt (node : NodeId) : Entry → Option ℕ
  | .call time .start true => some time
  | .call time (.receive canId data dlc) _ =>
    if (heartbeatFrom node canId data dlc).isSome then some time else none
  | _ => none

def checkedAt : Entry → Option ℕ
  | .call time .start true => some time
  | .call time (.process _) _ => some time
  | _ => none

/-- The master was started and nothing valid was heard from the node, both for
longer than the timeout. -/
def Silent (node : NodeId) (timeout : UInt16) (history : List Entry) (now : ℕ) : Prop :=
  (∃ start ∈ latest startedAt history, start+timeout.toNat < now) ∧
    ∀ heard ∈ latest (heardAt node) history, heard+timeout.toNat < now

instance (node : NodeId) (timeout : UInt16) (history : List Entry) (now : ℕ) :
    Decidable (Silent node timeout history now) :=
  inferInstanceAs (Decidable ((∃ start ∈ latest startedAt history, _) ∧ ∀ heard ∈ _, _))

def watched (value : Cia302Node) : Bool :=
  value.assigned && value.heartbeatTimeoutMs ≠ 0 && value.state ≠ .timedOut

/-- A process call comes less than half a turn of the counter behind the one
before, and no silent node has sent an invalid frame within its timeout. -/
def ProcessAttended (s : Supervisor) (history : List Entry) (now : ℕ) : Prop :=
  (∀ checked ∈ latest checkedAt history, now < checked+2^31) ∧
    ∀ node, watched (s.master.nodes node) = true →
      Silent node (s.master.nodes node).heartbeatTimeoutMs history now →
      ∀ touched ∈ latest (touchedAt node) history,
        touched+(s.master.nodes node).heartbeatTimeoutMs.toNat < now

/-- The heartbeat time of the node lies less than half a turn back, and is
either overdue already or not later than its last start or frame. -/
def ConfigureAttended (s : Supervisor) (history : List Entry) (now : ℕ) (node : NodeId)
    (timeout : UInt16) : Prop :=
  let back := (UInt32.ofNat now-(s.master.nodes node).lastHeartbeatMs).toNat
  back < 2^31 ∧ (timeout.toNat < back ∨
    ∀ touched ∈ latest (touchedAt node) history, now-touched ≤ back)

/-- The condition on the process calls of a running master, and on the
configurations that give it a timeout. -/
def Attended (s : Supervisor) (history : List Entry) (input : ℕ × Call) : Prop :=
  match input.2 with
  | .process _ => s.master.running = true → ProcessAttended s history (s.time+input.1)
  | .configure nodeId mandatory autoStart timeout =>
    s.master.running = true ∧ timeout ≠ 0 ∧
        (cia302NmtMasterConfigure s.master nodeId mandatory autoStart timeout).2 = true →
      ConfigureAttended s history (s.time+input.1) (nodeOf nodeId) timeout
  | _ => True

instance (s : Supervisor) (history : List Entry) (now : ℕ) :
    Decidable (ProcessAttended s history now) :=
  inferInstanceAs (Decidable (_ ∧ ∀ node : NodeId, _ = true → Silent node _ history now → _))

instance (s : Supervisor) (history : List Entry) (now : ℕ) (node : NodeId) (timeout : UInt16) :
    Decidable (ConfigureAttended s history now node timeout) :=
  inferInstanceAs (Decidable (_ < 2^31 ∧ (timeout.toNat < _ ∨ _)))

instance (s : Supervisor) (history : List Entry) (input : ℕ × Call) :
    Decidable (Attended s history input) :=
  match input with
  | (wait,.process _) =>
    inferInstanceAs (Decidable (_ = true → ProcessAttended s history (s.time+wait)))
  | (wait,.configure nodeId _ _ timeout) =>
    inferInstanceAs (Decidable (_ = true ∧ timeout ≠ 0 ∧ _ = true →
      ConfigureAttended s history (s.time+wait) (nodeOf nodeId) timeout))
  | (_,.policy _ _) => inferInstanceAs (Decidable True)
  | (_,.request _ _ _) => inferInstanceAs (Decidable True)
  | (_,.start) => inferInstanceAs (Decidable True)
  | (_,.receive _ _ _) => inferInstanceAs (Decidable True)

/-- Behind the process call every silent node that is supervised is timed out. -/
def Complete (s : Supervisor) (history : List Entry) : Prop :=
  ∀ node, (s.master.nodes node).assigned = true → (s.master.nodes node).heartbeatTimeoutMs ≠ 0 →
    Silent node (s.master.nodes node).heartbeatTimeoutMs history s.time →
      (s.master.nodes node).state = .timedOut

/-- The heartbeat time of a watched node is that of a moment `f` within half a
turn of the last check; either the node was touched since, or it is overdue. -/
structure WatchedNode (node : NodeId) (value : Cia302Node) (running : Bool)
    (history : List Entry) (now : ℕ) : Prop where
  placed : value.assigned = true → node ≠ 0
  stamp : ∃ f, f ≤ now ∧ value.lastHeartbeatMs = UInt32.ofNat f
  recent : running = true → watched value = true →
    ∃ f, f ≤ now ∧ value.lastHeartbeatMs = UInt32.ofNat f ∧
      (∀ checked ∈ latest checkedAt history, checked < f+2^31) ∧
      ((∃ touched ∈ latest (touchedAt node) history, f ≤ touched) ∨
        f+value.heartbeatTimeoutMs.toNat < now)

structure Supervision (s : Supervisor) (history : List Entry) : Prop where
  timed : ∀ time call result, .call time call result ∈ history → time ≤ s.time
  begun : s.master.running = true ↔ ∃ t, latest startedAt history = some t
  nodes : ∀ n, WatchedNode n (s.master.nodes n) s.master.running history s.time

section Entries
variable {node : NodeId} {history : List Entry} {time now : ℕ} {call : Call} {result : Bool}
  {outputs : List Output} {automatic : Bool}

theorem touched_call :
    touchedAt node (.call time call result) = none ∨
      touchedAt node (.call time call result) = some time := by
  unfold touchedAt
  split
  · rename_i h
    cases h
    exact Or.inr rfl
  · rename_i h
    cases h
    split
    · exact Or.inr rfl
    · exact Or.inl rfl
  · exact Or.inl rfl

theorem checked_call {t : ℕ} (h : checkedAt (.call time call result) = some t) : t = time := by
  unfold checkedAt at h
  split at h
  · rename_i he
    cases he
    exact (Option.some.inj h).symm
  · rename_i he
    cases he
    exact (Option.some.inj h).symm
  · cases h

theorem touched_step (e : Entry) :
    latest (touchedAt node) (history++e::outputs.map (Entry.output automatic)) =
      (touchedAt node e).or (latest (touchedAt node) history) := latest_step fun _ _ => rfl

theorem checked_step (e : Entry) :
    latest checkedAt (history++e::outputs.map (Entry.output automatic)) =
      (checkedAt e).or (latest checkedAt history) := latest_step fun _ _ => rfl

theorem checked_now
    (h : ∀ time call result, .call time call result ∈ history → time ≤ now) :
    ∀ checked ∈ latest checkedAt history, checked ≤ now := by
  intro checked hc
  obtain ⟨e,he,hanswer⟩ := latest_mem _ hc
  cases e with
  | output _ _ => cases hanswer
  | call time call result =>
    rw [checked_call hanswer]
    exact h _ _ _ he

theorem touched_later {f : ℕ} (h : ∃ touched ∈ latest (touchedAt node) history, f ≤ touched)
    (hf : f ≤ time) :
    ∃ touched ∈ latest (touchedAt node)
      (history++.call time call result::outputs.map (.output automatic)), f ≤ touched := by
  rw [touched_step]
  rcases touched_call with ht | ht
  · rw [ht,Option.none_or]
    exact h
  · rw [ht,Option.some_or]
    exact ⟨time,rfl,hf⟩

theorem answered_started (answer : Entry → Option ℕ)
    (hstart : ∀ time, answer (.call time .start true) = some time)
    (h : ∃ t, latest startedAt history = some t) : ∃ t, latest answer history = some t := by
  obtain ⟨t,ht⟩ := h
  obtain ⟨e,he,hanswer⟩ := latest_mem _ ht
  unfold startedAt at hanswer
  split at hanswer
  · exact latest_exists answer he (hstart _)
  · cases hanswer

end Entries

section Nodes
variable {node : NodeId} {value : Cia302Node} {running : Bool} {history : List Entry}
  {now later : ℕ} {call : Call} {result : Bool} {outputs : List Output} {automatic : Bool}

theorem watched_kept (h : WatchedNode node value running history now) (hle : now ≤ later)
    (hchecked : checkedAt (.call later call result) = none) :
    WatchedNode node value running
      (history++.call later call result::outputs.map (.output automatic)) later := by
  obtain ⟨f,hf,hlast⟩ := h.stamp
  refine ⟨h.placed,⟨f,hf.trans hle,hlast⟩,fun hrun hwatched => ?_⟩
  obtain ⟨f,hf,hlast,hspan,hlive⟩ := h.recent hrun hwatched
  refine ⟨f,hf.trans hle,hlast,?_,?_⟩
  · rw [checked_step,hchecked,Option.none_or]
    exact hspan
  · rcases hlive with htouched | hover
    · exact Or.inl (touched_later htouched (hf.trans hle))
    · exact Or.inr (hover.trans_le hle)

theorem watched_now
    (htimed : ∀ time call result, .call time call result ∈ history → time ≤ now)
    (hplaced : value.assigned = true → node ≠ 0)
    (hlast : value.lastHeartbeatMs = UInt32.ofNat now)
    (htouched : latest (touchedAt node) history = some now) :
    WatchedNode node value running history now := by
  refine ⟨hplaced,⟨now,Nat.le_refl now,hlast⟩,fun _ _ => ?_⟩
  refine ⟨now,Nat.le_refl now,hlast,fun checked hc => ?_,Or.inl ⟨now,htouched,Nat.le_refl now⟩⟩
  have := checked_now htimed checked hc
  omega

theorem watched_configured {s : Supervisor} {timeout : UInt16} {mandatory autoStart : Bool}
    (h : WatchedNode node (s.master.nodes node) s.master.running history s.time)
    (htimed : ∀ time call result, .call time call result ∈ history → time ≤ s.time)
    (hbegun : s.master.running = true → ∃ t, latest startedAt history = some t)
    (hle : s.time ≤ later) (hne : node ≠ 0)
    (hchecked : checkedAt (.call later call result) = none)
    (htouched : touchedAt node (.call later call result) = none)
    (hc : s.master.running = true → timeout ≠ 0 →
      ConfigureAttended s history later node timeout) :
    WatchedNode node (assignedNode (s.master.nodes node) mandatory autoStart timeout)
      s.master.running (history++.call later call result::outputs.map (.output automatic))
      later := by
  obtain ⟨f,hf,hlast⟩ := h.stamp
  refine ⟨fun _ => hne,⟨f,hf.trans hle,hlast⟩,fun hrun hwatched => ?_⟩
  have hzero : timeout ≠ 0 := by
    simp only [watched,assignedNode,Bool.and_eq_true] at hwatched
    exact of_decide_eq_true hwatched.1.2
  obtain ⟨hspan,hlive⟩ := hc hrun hzero
  rw [hlast] at hspan hlive
  obtain ⟨hback,hsame⟩ := stamp_back (hf.trans hle)
  generalize (UInt32.ofNat later-UInt32.ofNat f).toNat = back at hspan hlive hback hsame
  refine ⟨later-back,Nat.sub_le _ _,hlast.trans hsame,?_,?_⟩
  · rw [checked_step,hchecked,Option.none_or]
    intro checked hmem
    have := checked_now htimed checked hmem
    omega
  · rw [touched_step,htouched,Option.none_or]
    rcases hlive with hover | hlive
    · right
      show later-back+timeout.toNat < later
      omega
    · left
      obtain ⟨touched,hmem⟩ := answered_started (touchedAt node) (fun _ => rfl) (hbegun hrun)
      have hsince := hlive touched hmem
      exact ⟨touched,hmem,by omega⟩

theorem overdue_iff {f : ℕ} (hf : f ≤ now) (hspan : now < f+2^32)
    (hlast : value.lastHeartbeatMs = UInt32.ofNat f) (hwatched : watched value = true) :
    overdue (UInt32.ofNat now) value = true ↔ f+value.heartbeatTimeoutMs.toNat < now := by
  have helapsed := elapsed_eq hf hspan
  simp only [watched,Bool.and_eq_true,decide_eq_true_eq] at hwatched
  simp only [overdue,decide_eq_true_eq,hlast,UInt32.lt_iff_toNat_lt,UInt16.toNat_toUInt32,helapsed]
  constructor
  · intro h
    omega
  · intro h
    exact ⟨hwatched.1.1,hwatched.1.2,by omega,hwatched.2⟩

theorem watched_supervised
    (h : WatchedNode node value true history now) (hle : now ≤ later)
    (hspan : ∀ checked ∈ latest checkedAt history, later < checked+2^31)
    (hchecked : ∃ checked, latest checkedAt history = some checked)
    (hcall : checkedAt (.call later call result) = some later) :
    WatchedNode node (supervised (UInt32.ofNat later) value) true
      (history++.call later call result::outputs.map (.output automatic)) later := by
  obtain ⟨f,hf,hlast⟩ := h.stamp
  by_cases hover : overdue (UInt32.ofNat later) value = true
  · rw [supervised,if_pos hover]
    exact ⟨h.placed,⟨f,hf.trans hle,hlast⟩,fun _ hwatched => by simp [watched] at hwatched⟩
  · rw [supervised,if_neg hover]
    refine ⟨h.placed,⟨f,hf.trans hle,hlast⟩,fun _ hwatched => ?_⟩
    obtain ⟨f,hf,hlast,hrecent,hlive⟩ := h.recent rfl hwatched
    obtain ⟨checked,hmem⟩ := hchecked
    have hsoon := hspan checked hmem
    have hafter := hrecent checked hmem
    have hwithin := (overdue_iff (hf.trans hle) (by omega) hlast hwatched).not.mp hover
    refine ⟨f,hf.trans hle,hlast,?_,?_⟩
    · rw [checked_step,hcall,Option.some_or]
      intro c hc
      cases hc
      have := value.heartbeatTimeoutMs.toNat_lt
      omega
    · rcases hlive with htouched | hlost
      · exact Or.inl (touched_later htouched (hf.trans hle))
      · omega

end Nodes

section Calls
variable {s : Supervisor} {history : List Entry}

theorem supervision_kept (h : Supervision s history) {wait : ℕ} {master : Cia302NmtMaster}
    {call : Call} {result : Bool} (outputs : List Output) {automatic : Bool}
    (hstart : startedAt (.call (s.time+wait) call result) = none)
    (hrun : master.running = s.master.running)
    (hnodes : ∀ n, WatchedNode n (master.nodes n) s.master.running
      (history++.call (s.time+wait) call result::outputs.map (.output automatic)) (s.time+wait)) :
    Supervision ⟨master,s.time+wait⟩
      (history++.call (s.time+wait) call result::outputs.map (.output automatic)) := by
  refine ⟨timed_step h.timed (Nat.le_add_right _ _),?_,?_⟩
  · show master.running = true ↔ _
    rw [started_step,hstart,Option.none_or,hrun]
    exact h.begun
  · show ∀ n, WatchedNode n (master.nodes n) master.running _ _
    rw [hrun]
    exact hnodes

theorem configure_supervision (wait : ℕ) (nodeId : UInt8) (mandatory autoStart : Bool)
    (timeout : UInt16) (h : Supervision s history)
    (hc : Attended s history (wait,.configure nodeId mandatory autoStart timeout)) :
    Supervision (nmtStep s (wait,.configure nodeId mandatory autoStart timeout)).1
      (history++(nmtStep s (wait,.configure nodeId mandatory autoStart timeout)).2) := by
  have hle : s.time ≤ s.time+wait := Nat.le_add_right _ _
  simp only [nmtStep,perform]
  simp only [Attended] at hc
  rcases configure_effect s.master nodeId mandatory autoStart timeout with he | ⟨hne,he⟩
  · rw [he]
    exact supervision_kept h [] rfl rfl fun n => watched_kept (h.nodes n) hle rfl
  rw [he] at hc ⊢
  refine supervision_kept h [] rfl rfl fun n => ?_
  by_cases hn : n = nodeOf nodeId
  · subst hn
    rw [setNode_self]
    exact watched_configured (h.nodes _) h.timed h.begun.mp hle hne rfl rfl
      fun hrun hzero => hc ⟨hrun,hzero,rfl⟩
  · rw [setNode_other _ _ _ hn]
    exact watched_kept (h.nodes n) hle rfl

theorem start_supervision (wait : ℕ) (h : Supervision s history) :
    Supervision (nmtStep s (wait,.start)).1
      (history++(nmtStep s (wait,.start)).2) := by
  have hle : s.time ≤ s.time+wait := Nat.le_add_right _ _
  simp only [nmtStep,perform]
  rcases start_effect s.master (UInt32.ofNat (s.time+wait)) with he | ⟨hdone,he⟩
  · rw [he]
    exact supervision_kept h [] rfl rfl fun n => watched_kept (h.nodes n) hle rfl
  rw [hdone]
  refine ⟨timed_step h.timed hle,?_,fun n => ?_⟩
  · rw [started_step,he.running]
    exact ⟨fun _ => ⟨s.time+wait,rfl⟩,fun _ => rfl⟩
  · have hplaced := (h.nodes n).placed
    rw [he.nodes n]
    split
    · rename_i hold
      refine watched_now (timed_step h.timed hle) hplaced rfl ?_
      rw [touched_step]
      rfl
    · rename_i hold
      have hfree : (s.master.nodes n).assigned = false := by
        by_contra hassigned
        rw [Bool.not_eq_false] at hassigned
        exact hold ⟨(mem_nodeIds n).mpr (hplaced hassigned),hassigned⟩
      obtain ⟨f,hf,hlast⟩ := (h.nodes n).stamp
      exact ⟨hplaced,⟨f,hf.trans hle,hlast⟩,
        fun _ hwatched => by simp [watched,hfree] at hwatched⟩

theorem receive_supervision (wait : ℕ) (canId : UInt16) (data : Option UInt8) (dlc : UInt8)
    (h : Supervision s history) :
    Supervision (nmtStep s (wait,.receive canId data dlc)).1
      (history++(nmtStep s (wait,.receive canId data dlc)).2) := by
  have hle : s.time ≤ s.time+wait := Nat.le_add_right _ _
  have heffect := receive_effect s.master canId data dlc (UInt32.ofNat (s.time+wait))
  simp only [nmtStep,perform]
  generalize cia302NmtMasterReceive s.master canId data dlc (UInt32.ofNat (s.time+wait)) =
    received at heffect ⊢
  cases heffect with
  | ignored _ => exact supervision_kept h _ rfl rfl fun n => watched_kept (h.nodes n) hle rfl
  | noted outputs _ _ => exact supervision_kept h _ rfl rfl fun n => watched_kept (h.nodes n) hle rfl
  | heard node state _ hassigned hfrom _ =>
    refine supervision_kept h _ rfl rfl fun n => ?_
    by_cases hn : n = node
    · subst hn
      rw [setNode_self]
      refine watched_now (timed_step h.timed hle) (h.nodes n).placed rfl ?_
      rw [touched_step]
      simp [touchedAt,hfrom]
    · rw [setNode_other _ _ _ hn]
      exact watched_kept (h.nodes n) hle rfl

theorem process_supervision (wait : ℕ) (accepts : NodeId → Bool) (h : Supervision s history)
    (hc : Attended s history (wait,.process accepts)) :
    Supervision (nmtStep s (wait,.process accepts)).1
      (history++(nmtStep s (wait,.process accepts)).2) := by
  have hle : s.time ≤ s.time+wait := Nat.le_add_right _ _
  simp only [nmtStep,perform]
  refine supervision_kept h _ rfl (process_keeps _ _ _) fun n => ?_
  rw [process_nodes]
  cases hrun : s.master.running with
  | false =>
    rw [if_neg (fun hc => Bool.false_ne_true hc.1)]
    obtain ⟨f,hf,hlast⟩ := (h.nodes n).stamp
    exact ⟨(h.nodes n).placed,⟨f,hf.trans hle,hlast⟩,fun hc => by cases hc⟩
  | true =>
    have hnode := h.nodes n
    rw [hrun] at hnode
    by_cases hn : n ∈ nodeIds
    · rw [if_pos ⟨rfl,hn⟩]
      exact watched_supervised hnode hle (hc hrun).1
        (answered_started checkedAt (fun _ => rfl) (h.begun.mp hrun)) rfl
    · rw [if_neg (fun hc => hn hc.2)]
      obtain ⟨f,hf,hlast⟩ := hnode.stamp
      refine ⟨hnode.placed,⟨f,hf.trans hle,hlast⟩,fun _ hwatched => ?_⟩
      simp only [watched,Bool.and_eq_true] at hwatched
      exact absurd ((mem_nodeIds n).mpr (hnode.placed hwatched.1.1)) hn

end Calls

theorem supervision_step (s : Supervisor) (history : List Entry) (input : ℕ × Call)
    (h : Supervision s history) (hc : Attended s history input) :
    Supervision (nmtStep s input).1 (history++(nmtStep s input).2) := by
  obtain ⟨wait,call⟩ := input
  have hle : s.time ≤ s.time+wait := Nat.le_add_right _ _
  cases call with
  | policy nmtStartup bootTimeMs =>
    exact supervision_kept h [] rfl rfl fun n => watched_kept (h.nodes n) hle rfl
  | request command nodeId accepts =>
    exact supervision_kept h _ rfl rfl fun n => watched_kept (h.nodes n) hle rfl
  | configure nodeId mandatory autoStart timeout =>
    exact configure_supervision wait nodeId mandatory autoStart timeout h hc
  | start => exact start_supervision wait h
  | receive canId data dlc => exact receive_supervision wait canId data dlc h
  | process accepts => exact process_supervision wait accepts h hc

theorem supervision_run (masterNodeId : UInt8) (send event : Bool) (time : ℕ)
    (inputs : List (ℕ × Call))
    (hc : AlongPast nmtStep Attended (freshSupervisor masterNodeId send event time) [] inputs) :
    Supervision (run nmtStep (freshSupervisor masterNodeId send event time) inputs).1
      (run nmtStep (freshSupervisor masterNodeId send event time) inputs).2 := by
  have h := along_past_history nmtStep Attended Supervision supervision_step
    (freshSupervisor masterNodeId send event time) [] inputs ?_ hc
  · simpa using h
  · constructor
    · intro _ _ _ hmem
      cases hmem
    · exact ⟨(fun hrun => by cases hrun),(fun ⟨_,ht⟩ => by cases ht)⟩
    · intro n
      exact ⟨(fun ha => by cases ha),⟨0,Nat.zero_le _,rfl⟩,fun hr => by cases hr⟩

theorem process_complete (s : Supervisor) (history : List Entry) (wait : ℕ)
    (accepts : NodeId → Bool) (h : Supervision s history)
    (hc : Attended s history (wait,.process accepts)) :
    Complete (nmtStep s (wait,.process accepts)).1
      (history++(nmtStep s (wait,.process accepts)).2) := by
  intro node
  simp only [nmtStep,perform]
  obtain ⟨hassigned,htimeout,-⟩ :=
    process_stamp s.master accepts (UInt32.ofNat (s.time+wait)) node
  rw [hassigned,htimeout]
  rintro hassign hzero ⟨hstarted,hheard⟩
  rw [started_step,show startedAt (.call (s.time+wait) (.process accepts) true) = none from rfl,
    Option.none_or] at hstarted
  rw [heard_step,show heardAt node (.call (s.time+wait) (.process accepts) true) = none from rfl,
    Option.none_or] at hheard
  have hrun : s.master.running = true := by
    obtain ⟨start,hstart,-⟩ := hstarted
    exact h.begun.mpr ⟨start,hstart⟩
  have hplaced : node ∈ nodeIds := (mem_nodeIds node).mpr ((h.nodes node).placed hassign)
  rw [process_nodes,if_pos ⟨hrun,hplaced⟩]
  by_cases hlost : (s.master.nodes node).state = .timedOut
  · unfold supervised
    split
    · rfl
    · exact hlost
  have hwatched : watched (s.master.nodes node) = true := by
    simp [watched,hassign,hzero,hlost]
  obtain ⟨hspan,hsilent⟩ := hc hrun
  obtain ⟨f,hf,hlast,hrecent,hlive⟩ := (h.nodes node).recent hrun hwatched
  obtain ⟨checked,hmem⟩ := answered_started checkedAt (fun _ => rfl) (h.begun.mp hrun)
  have hsoon := hspan checked hmem
  have hafter := hrecent checked hmem
  have hlate : f+(s.master.nodes node).heartbeatTimeoutMs.toNat < s.time+wait := by
    rcases hlive with ⟨touched,htouched,hbefore⟩ | hover
    · have := hsilent node hwatched ⟨hstarted,hheard⟩ touched htouched
      omega
    · omega
  have hover : overdue (UInt32.ofNat (s.time+wait)) (s.master.nodes node) = true :=
    (overdue_iff (by omega) (by omega) hlast hwatched).mpr hlate
  rw [supervised,if_pos hover]

/-- In every run whose calls are attended, every process call leaves each node
timed out that has been silent for longer than its timeout. -/
theorem supervision_complete (masterNodeId : UInt8) (send event : Bool) (time : ℕ)
    (inputs : List (ℕ × Call)) (wait : ℕ) (accepts : NodeId → Bool)
    (hc : AlongPast nmtStep Attended (freshSupervisor masterNodeId send event time) []
      (inputs++[(wait,.process accepts)])) :
    let after := run nmtStep (freshSupervisor masterNodeId send event time)
      (inputs++[(wait,.process accepts)])
    Complete after.1 after.2 := by
  rw [run_concat]
  obtain ⟨hbefore,hlast⟩ := (along_past_append _ _ _ _ _ _).mp hc
  rw [List.nil_append] at hlast
  exact process_complete _ _ wait accepts (supervision_run masterNodeId send event time inputs hbefore)
    hlast.1

def silentPeer : List (ℕ × Call) :=
  [(0,.policy 1 10000),(0,.configure 2 true false 100),(0,.start),(10,.receive 0x702 (some 0) 1),
    (50,.process fun _ => true)]

theorem supervision_complete_peer :
    let after := run nmtStep (freshSupervisor 1 true true 0)
      (silentPeer++[(61,.process fun _ => true)])
    (after.1.master.nodes 2).state = .timedOut ∧ Complete after.1 after.2 := by
  intro after
  exact ⟨by decide +kernel,supervision_complete 1 true true 0 silentPeer 61 (fun _ => true)
    (by decide +kernel)⟩

theorem unsupervised {s : Supervisor} {history : List Entry} (node : NodeId)
    (h : (s.master.nodes node).assigned = true ∧ (s.master.nodes node).heartbeatTimeoutMs ≠ 0 ∧
      Silent node (s.master.nodes node).heartbeatTimeoutMs history s.time ∧
        (s.master.nodes node).state = .preop) : ¬Complete s history := by
  obtain ⟨hassigned,hzero,hsilent,hpreop⟩ := h
  intro hcomplete
  rw [hcomplete node hassigned hzero hsilent] at hpreop
  cases hpreop

/-- An invalid frame 90 ms into the silence keeps the node from timing out. -/
theorem invalid_frame_renews :
    let after := run nmtStep (freshSupervisor 1 true true 0)
      [(0,.policy 1 10000),(0,.configure 2 true false 100),(0,.start),
        (10,.receive 0x702 (some 0) 1),(90,.receive 0x702 (some 0x55) 1),
        (50,.process fun _ => true)]
    ¬Complete after.1 after.2 := by
  intro after
  exact unsupervised 2 (by decide +kernel)

end CanopenReference.NmtSupervision
