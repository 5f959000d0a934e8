import CanopenReference.Library.History
import CanopenReference.Library.Queue
import CanopenReference.PortLifecycle

/-!
# The receive queue of the CAN facade

A queue of seven frames is read from the history alone; the ring of the port
holds what that queue does.
-/

set_option autoImplicit false

namespace CanopenReference.PortQueue
open Library Library.Runs Library.History RxRings PortLifecycle

/-- The frame that an interrupt brings. -/
def offered (r : PortRecord) : Option Content :=
  match r.input with
  | .interrupt id (some data) len =>
    if canPortMaxDlc < len.toNat ∨ 0x7FF < id then none
    else some (id,len.toNat,data.front len.toNat)
  | _ => none

/-- The frames that a poll takes. -/
def taken (r : PortRecord) : List Content := r.actions.filterMap PortAction.content

/-- The port is started afresh, or shut down. -/
def resets (r : PortRecord) : Bool :=
  match r.input with
  | .call .deinit => true
  | _ => r.actions.any PortAction.starts

/-- What a queue of seven frames does: the frames that it has accepted, those
that were taken from it, and how many it has lost. -/
structure Fifo where
  accepted : List Content
  taken : List Content
  lost : ℕ

def Fifo.pending (f : Fifo) : List Content := f.accepted.drop f.taken.length

def fifoStep (f : Fifo) (r : PortRecord) : Fifo :=
  if resets r then ⟨[],[],0⟩
  else
    match offered r with
    | none => { f with taken := f.taken++taken r }
    | some c =>
      if f.pending.length < 7 then { f with accepted := f.accepted++[c] }
      else { f with lost := f.lost+1 }

/-- The queue since the port was last reset. -/
def fifo (past : List PortRecord) : Fifo := past.foldl fifoStep ⟨[],[],0⟩

def registration (r : PortRecord) : Option (Option ℕ) :=
  match r.input with
  | .call (.registerRx callback) => some callback
  | .call .deinit => some none
  | _ => none

/-- The callback that was registered last. -/
def registered (past : List PortRecord) : Option ℕ := (latest registration past).join

def ownership (r : PortRecord) : Option (Option ℕ) :=
  match r.input, r.actions with
  | .call (.bind hcan), [.returned (.ok _)] => some hcan
  | .call .deinit, _ => some none
  | _, _ => none

def held (past : List PortRecord) : Option ℕ := (latest ownership past).join

def pendingFrames (p : CanPort) : List Content :=
  (Queue.unread p.rxQueue emptySlot p.rxTail p.rxHead).map portContent

/-- What a poll answers from the queue: the oldest frame for the callback, or
that there is none. No other step takes a frame. -/
def Served (before : List PortRecord) (r : PortRecord) : Prop :=
  if r.input.polls then
    match (fifo before).pending with
    | c::_ => r.actions = [.rx (registered before) c,.returned (.ok 1)]
    | [] => r.actions = [] ∨ r.actions = [.returned (.ok 0)]
  else taken r = []

structure Reflects (p : CanPort) (past : List PortRecord) : Prop where
  head : p.rxHead < canPortRxQueueCapacity
  tail : p.rxTail < canPortRxQueueCapacity
  order : (fifo past).accepted = (fifo past).taken++pendingFrames p
  dropped : p.rxDropped = UInt32.ofNat (fifo past).lost
  callback : p.rxCallback = registered past
  handle : p.hcan = held past

theorem next_index {index : ℕ} (h : index < canPortRxQueueCapacity) :
    canPortNextIndex index canPortRxQueueCapacity =
      Queue.advance canPortRxQueueCapacity index := by
  unfold canPortNextIndex Queue.advance canPortRxQueueCapacity at *
  split <;> omega

theorem fifo_concat (past : List PortRecord) (r : PortRecord) :
    fifo (past++[r]) = fifoStep (fifo past) r := by
  simp [fifo,List.foldl_append]

section Records
variable {p : CanPort} {past : List PortRecord}

theorem pending_frames (h : Reflects p past) : (fifo past).pending = pendingFrames p := by
  rw [Fifo.pending,h.order,List.drop_left]

theorem pending_length (h : Reflects p past) : (pendingFrames p).length ≤ 7 := by
  have hcount := Queue.count_lt h.tail h.head
  rw [pendingFrames,List.length_map,Queue.unread_length]
  exact Nat.le_of_lt_succ hcount

theorem fifo_offered (past : List PortRecord) {r : PortRecord} {c : Content}
    (hreset : resets r = false) (hoffered : offered r = some c) :
    fifo (past++[r]) =
      if (fifo past).pending.length < 7 then
        ⟨(fifo past).accepted++[c],(fifo past).taken,(fifo past).lost⟩
      else ⟨(fifo past).accepted,(fifo past).taken,(fifo past).lost+1⟩ := by
  rw [fifo_concat,fifoStep,if_neg (by rw [hreset]; exact Bool.false_ne_true),hoffered]

theorem fifo_taken (past : List PortRecord) {r : PortRecord} (hreset : resets r = false)
    (hoffered : offered r = none) :
    fifo (past++[r]) =
      ⟨(fifo past).accepted,(fifo past).taken++taken r,(fifo past).lost⟩ := by
  rw [fifo_concat,fifoStep,if_neg (by rw [hreset]; exact Bool.false_ne_true),hoffered]

theorem fifo_reset (past : List PortRecord) {r : PortRecord} (hreset : resets r = true) :
    fifo (past++[r]) = ⟨[],[],0⟩ := by
  rw [fifo_concat,fifoStep,if_pos hreset]

theorem fifo_quiet {r : PortRecord} (hreset : resets r = false) (hoffered : offered r = none)
    (htaken : taken r = []) : fifo (past++[r]) = fifo past := by
  rw [fifo_taken _ hreset hoffered,htaken,List.append_nil]

theorem registered_quiet {r : PortRecord} (h : registration r = none) :
    registered (past++[r]) = registered past := by
  rw [registered,latest_concat,h]
  rfl

theorem held_quiet {r : PortRecord} (h : ownership r = none) : held (past++[r]) = held past := by
  rw [held,latest_concat,h]
  rfl

theorem reset_reflects (h : Reflects p past) {r : PortRecord} (hreset : resets r = true)
    (hregistration : registration r = none) (hownership : ownership r = none) :
    Reflects (resetRxQueue p) (past++[r]) := by
  have hfifo := fifo_reset past hreset
  have hempty : pendingFrames (resetRxQueue p) = [] :=
    congrArg (List.map portContent) (Queue.unread_none (Nat.zero_lt_succ 7))
  refine ⟨Nat.zero_lt_succ 7,Nat.zero_lt_succ 7,?_,?_,?_,?_⟩
  · rw [hfifo,hempty]
    rfl
  · rw [hfifo]
    rfl
  · rw [registered_quiet hregistration]
    exact h.callback
  · rw [held_quiet hownership]
    exact h.handle

theorem quiet_reflects (h : Reflects p past) {r : PortRecord} (hreset : resets r = false)
    (hoffered : offered r = none) (htaken : taken r = []) (hregistration : registration r = none)
    (hownership : ownership r = none) : Reflects p (past++[r]) := by
  refine ⟨h.head,h.tail,?_,?_,?_,?_⟩
  · rw [fifo_quiet hreset hoffered htaken]
    exact h.order
  · rw [fifo_quiet hreset hoffered htaken]
    exact h.dropped
  · rw [registered_quiet hregistration]
    exact h.callback
  · rw [held_quiet hownership]
    exact h.handle

theorem interrupt_reflects (h : Reflects p past) (id : UInt32)
    (data : Option (Buffer UInt8 canPortMaxDlc)) (len : UInt8) :
    Reflects (dispatchRxFromIsr p id data len) (past++[⟨.interrupt id data len,[]⟩]) := by
  cases data with
  | none => exact quiet_reflects h rfl rfl rfl rfl rfl
  | some data =>
    unfold dispatchRxFromIsr
    dsimp only
    split
    · rename_i hinvalid
      exact quiet_reflects h rfl (if_pos hinvalid) rfl rfl rfl
    rename_i hvalid
    have hoffered : offered ⟨.interrupt id (some data) len,[]⟩ =
        some (id,len.toNat,data.front len.toNat) := if_neg hvalid
    have hregistered : registered (past++[⟨.interrupt id (some data) len,[]⟩]) = registered past :=
      registered_quiet rfl
    have hheld : held (past++[⟨.interrupt id (some data) len,[]⟩]) = held past := held_quiet rfl
    have hcount := Queue.count_lt h.tail h.head
    have hlength : (fifo past).pending.length =
        Queue.count canPortRxQueueCapacity p.rxTail p.rxHead := by
      rw [pending_frames h,pendingFrames,List.length_map,Queue.unread_length]
    split
    · rename_i hfull
      rw [next_index h.head,Queue.count_full h.tail h.head] at hfull
      have hlost := fifo_offered past rfl hoffered
      rw [if_neg (by unfold canPortRxQueueCapacity at hfull hlength; omega)] at hlost
      refine ⟨h.head,h.tail,?_,?_,?_,?_⟩
      · rw [hlost]
        exact h.order
      · rw [hlost]
        show p.rxDropped+1 = UInt32.ofNat ((fifo past).lost+1)
        rw [h.dropped,UInt32.ofNat_add]
        rfl
      · rw [hregistered]
        exact h.callback
      · rw [hheld]
        exact h.handle
    · rename_i hroom
      rw [next_index h.head] at hroom ⊢
      have hnot := (Queue.count_full h.tail h.head).not.mp hroom
      have haccepted := fifo_offered past rfl hoffered
      rw [if_pos (by unfold canPortRxQueueCapacity at hnot hcount hlength; omega)] at haccepted
      refine ⟨Queue.advance_lt h.head,h.tail,?_,?_,?_,?_⟩
      · rw [haccepted]
        show (fifo past).accepted++_ = (fifo past).taken++
          List.map portContent (Queue.unread _ emptySlot p.rxTail (Queue.advance _ p.rxHead))
        rw [Queue.unread_push h.tail h.head hroom,List.map_append,← List.append_assoc,h.order]
        show _ = (fifo past).taken++pendingFrames p++[portContent _]
        unfold portContent
        rw [copied_front]
      · rw [haccepted]
        exact h.dropped
      · rw [hregistered]
        exact h.callback
      · rw [hheld]
        exact h.handle

theorem polls_quiet {r : PortRecord} (h : r.input.polls = true) :
    offered r = none ∧ registration r = none ∧ ownership r = none := by
  obtain ⟨input,actions⟩ := r
  cases input with
  | call c => cases c <;> first | exact ⟨rfl,rfl,rfl⟩ | cases h
  | pass tick => exact ⟨rfl,rfl,rfl⟩
  | interrupt id data len => cases h

theorem polls_resets {r : PortRecord} (h : r.input.polls = true) :
    resets r = r.actions.any PortAction.starts := by
  obtain ⟨input,actions⟩ := r
  cases input with
  | call c => cases c <;> first | rfl | cases h
  | pass tick => rfl
  | interrupt id data len => cases h

theorem waiting_reflects (h : Reflects p past) (waiting : Option (UInt32 × UInt32)) :
    Reflects { p with waiting := waiting } past :=
  ⟨h.head,h.tail,h.order,h.dropped,h.callback,h.handle⟩

theorem found_reflects (h : Reflects p past) (hsome : p.rxTail ≠ p.rxHead) {r : PortRecord}
    (hpolls : r.input.polls = true) (hactions : r.actions = (canPortPollOne p).2) :
    Reflects (canPortPollOne p).1 (past++[r]) ∧ Served past r := by
  obtain ⟨hoffered,hregistration,hownership⟩ := polls_quiet hpolls
  have hreset := polls_resets hpolls
  have hpop := Queue.unread_pop (b := p.rxQueue) (d := emptySlot) h.tail h.head hsome
  have hpending : pendingFrames p = portContent (p.rxQueue.cell p.rxTail emptySlot)::
      List.map portContent (Queue.unread p.rxQueue emptySlot
        (Queue.advance canPortRxQueueCapacity p.rxTail) p.rxHead) :=
    congrArg (List.map portContent) hpop
  rw [canPortPollOne,if_neg hsome] at hactions ⊢
  have htaken : taken r = [portContent (p.rxQueue.cell p.rxTail emptySlot)] := by
    rw [taken,hactions]
    rfl
  rw [hactions] at hreset
  have hfifo := fifo_taken past hreset hoffered
  rw [htaken] at hfifo
  refine ⟨?_,?_⟩
  · rw [next_index h.tail]
    refine ⟨h.head,Queue.advance_lt h.tail,?_,?_,?_,?_⟩
    · rw [hfifo]
      show (fifo past).accepted = _++_++List.map portContent _
      rw [h.order,hpending,List.append_assoc]
      rfl
    · rw [hfifo]
      exact h.dropped
    · rw [registered_quiet hregistration]
      exact h.callback
    · rw [held_quiet hownership]
      exact h.handle
  · rw [Served,if_pos hpolls,pending_frames h,hpending,hactions,h.callback]

theorem empty_reflects (h : Reflects p past) (hnone : p.rxTail = p.rxHead) {r : PortRecord}
    (hpolls : r.input.polls = true)
    (hactions : r.actions = [] ∨ r.actions = [.returned (.ok 0)]) :
    Reflects p (past++[r]) ∧ Served past r := by
  obtain ⟨hoffered,hregistration,hownership⟩ := polls_quiet hpolls
  have hreset : resets r = false := by
    rw [polls_resets hpolls]
    rcases hactions with hactions | hactions <;> rw [hactions] <;> rfl
  have htaken : taken r = [] := by
    rw [taken]
    rcases hactions with hactions | hactions <;> rw [hactions] <;> rfl
  have hpending : (fifo past).pending = [] := by
    rw [pending_frames h,pendingFrames,hnone,Queue.unread_none h.head]
    rfl
  refine ⟨quiet_reflects h hreset hoffered htaken hregistration hownership,?_⟩
  rw [Served,if_pos hpolls,hpending]
  exact hactions

theorem poll_reflects (h : Reflects p past) (timeoutMs tick : UInt32) :
    Reflects (canPortPoll p timeoutMs tick).1
        (past++[⟨.call (.poll timeoutMs tick),(canPortPoll p timeoutMs tick).2⟩]) ∧
      Served past ⟨.call (.poll timeoutMs tick),(canPortPoll p timeoutMs tick).2⟩ := by
  unfold canPortPoll
  split
  · rename_i hnone
    split
    · exact empty_reflects h hnone rfl (Or.inr rfl)
    · obtain ⟨hkept,hserved⟩ := empty_reflects (r := ⟨.call (.poll timeoutMs tick),[]⟩) h hnone rfl
        (Or.inl rfl)
      exact ⟨waiting_reflects hkept _,hserved⟩
  · rename_i hsome
    exact found_reflects h hsome rfl rfl

theorem pass_reflects (h : Reflects p past) (timeoutMs startTick tick : UInt32) :
    Reflects (pollPass p timeoutMs startTick tick).1
        (past++[⟨.pass tick,(pollPass p timeoutMs startTick tick).2⟩]) ∧
      Served past ⟨.pass tick,(pollPass p timeoutMs startTick tick).2⟩ := by
  unfold pollPass
  split
  · rename_i hnone
    split
    · obtain ⟨hkept,hserved⟩ := empty_reflects (r := ⟨.pass tick,[.returned (.ok 0)]⟩) h hnone rfl
        (Or.inr rfl)
      exact ⟨waiting_reflects hkept _,hserved⟩
    · exact empty_reflects h hnone rfl (Or.inl rfl)
  · rename_i hsome
    obtain ⟨hkept,hserved⟩ := found_reflects (r := ⟨.pass tick,(canPortPollOne p).2⟩) h hsome rfl rfl
    exact ⟨waiting_reflects hkept _,hserved⟩

theorem plain_reflects (h : Reflects p past) {c : PortCall} {actions : List PortAction}
    (hpolls : (PortInput.call c).polls = false)
    (hregistration : registration ⟨.call c,actions⟩ = none)
    (hownership : ownership ⟨.call c,actions⟩ = none) (hresets : resets ⟨.call c,actions⟩ = false)
    (htaken : taken ⟨.call c,actions⟩ = []) :
    Reflects p (past++[⟨.call c,actions⟩]) ∧ Served past ⟨.call c,actions⟩ := by
  refine ⟨quiet_reflects h hresets rfl htaken hregistration hownership,?_⟩
  · rw [Served,if_neg (by rw [hpolls]; exact Bool.false_ne_true)]
    exact htaken

theorem bind_reflects (h : Reflects p past) (hcan : Option ℕ) :
    Reflects (stm32Bind p hcan).1 (past++[⟨.call (.bind hcan),(stm32Bind p hcan).2⟩]) ∧
      Served past ⟨.call (.bind hcan),(stm32Bind p hcan).2⟩ := by
  unfold stm32Bind
  cases hcan with
  | none => exact plain_reflects h rfl rfl rfl rfl rfl
  | some handle =>
    dsimp only
    split
    · exact plain_reflects h rfl rfl rfl rfl rfl
    refine ⟨⟨h.head,h.tail,?_,?_,?_,?_⟩,rfl⟩
    · rw [fifo_quiet rfl rfl rfl]
      exact h.order
    · rw [fifo_quiet rfl rfl rfl]
      exact h.dropped
    · rw [registered_quiet rfl]
      exact h.callback
    · rw [held,latest_concat]
      rfl

theorem init_reflects (h : Reflects p past) (bitrate : UInt32) (hal : InitAnswers) :
    Reflects (canPortInit p bitrate hal).1
        (past++[⟨.call (.init bitrate hal),(canPortInit p bitrate hal).2⟩]) ∧
      Served past ⟨.call (.init bitrate hal),(canPortInit p bitrate hal).2⟩ := by
  unfold canPortInit
  split
  · exact plain_reflects h rfl rfl rfl rfl rfl
  split
  · exact plain_reflects h rfl rfl rfl rfl rfl
  split
  · exact plain_reflects h rfl rfl rfl rfl rfl
  split
  · exact ⟨reset_reflects h rfl rfl rfl,rfl⟩
  split
  · exact ⟨reset_reflects h rfl rfl rfl,rfl⟩
  · exact ⟨reset_reflects h rfl rfl rfl,rfl⟩

theorem send_reflects (h : Reflects p past) (id : UInt32)
    (data : Option (Buffer UInt8 canPortMaxDlc)) (len : UInt8) (freeLevel : ℕ) (added : Bool) :
    Reflects p (past++[⟨.call (.send id data len freeLevel added),
        canPortSend p id data len freeLevel added⟩]) ∧
      Served past ⟨.call (.send id data len freeLevel added),
        canPortSend p id data len freeLevel added⟩ := by
  unfold canPortSend
  split
  · split
    · exact plain_reflects h rfl rfl rfl rfl rfl
    split
    · exact plain_reflects h rfl rfl rfl rfl rfl
    · exact plain_reflects h rfl rfl rfl rfl rfl
  · exact plain_reflects h rfl rfl rfl rfl rfl

theorem register_reflects (h : Reflects p past) (callback : Option ℕ) :
    Reflects { p with rxCallback := callback }
        (past++[⟨.call (.registerRx callback),[]⟩]) ∧
      Served past ⟨.call (.registerRx callback),[]⟩ := by
  refine ⟨⟨h.head,h.tail,?_,?_,?_,?_⟩,rfl⟩
  · rw [fifo_quiet rfl rfl rfl]
    exact h.order
  · rw [fifo_quiet rfl rfl rfl]
    exact h.dropped
  · rw [registered,latest_concat]
    rfl
  · rw [held_quiet rfl]
    exact h.handle

theorem deinit_reflects :
    Reflects (canPortDeinit p).1 (past++[⟨.call .deinit,(canPortDeinit p).2⟩]) ∧
      Served past ⟨.call .deinit,(canPortDeinit p).2⟩ := by
  have hfifo : fifo (past++[⟨.call .deinit,(canPortDeinit p).2⟩]) = ⟨[],[],0⟩ :=
    fifo_reset past rfl
  have hempty : pendingFrames (canPortDeinit p).1 = [] :=
    congrArg (List.map portContent) (Queue.unread_none (Nat.zero_lt_succ 7))
  refine ⟨⟨Nat.zero_lt_succ 7,Nat.zero_lt_succ 7,?_,?_,?_,?_⟩,?_⟩
  · rw [hfifo,hempty]
    rfl
  · rw [hfifo]
    rfl
  · rw [registered,latest_concat]
    rfl
  · rw [held,latest_concat]
    rfl
  · show taken _ = []
    unfold canPortDeinit taken
    cases p.hcan <;> rfl

theorem call_reflects (h : Reflects p past) (c : PortCall) :
    Reflects (answer p c).1 (past++[⟨.call c,(answer p c).2⟩]) ∧
      Served past ⟨.call c,(answer p c).2⟩ := by
  cases c with
  | bind hcan => exact bind_reflects h hcan
  | init bitrate hal => exact init_reflects h bitrate hal
  | send id data len freeLevel added => exact send_reflects h id data len freeLevel added
  | registerRx callback => exact register_reflects h callback
  | poll timeoutMs tick => exact poll_reflects h timeoutMs tick
  | deinit => exact deinit_reflects
  | rxDropped => exact plain_reflects h rfl rfl rfl rfl rfl

theorem step_reflects (h : Reflects p past) (i : PortInput) :
    Reflects (portStep p i).1 (past++(portStep p i).2) ∧
      (Always Served past → Always Served (past++(portStep p i).2)) := by
  cases i with
  | interrupt id data len =>
    exact ⟨interrupt_reflects h id data len,fun hall => always_concat hall rfl⟩
  | call c =>
    unfold portStep
    cases p.waiting with
    | some wait =>
      rw [List.append_nil]
      exact ⟨h,id⟩
    | none => exact ⟨(call_reflects h c).1,fun hall => always_concat hall (call_reflects h c).2⟩
  | pass tick =>
    unfold portStep
    cases p.waiting with
    | none =>
      rw [List.append_nil]
      exact ⟨h,id⟩
    | some wait =>
      have hpass := pass_reflects h wait.1 wait.2 tick
      exact ⟨hpass.1,fun hall => always_concat hall hpass.2⟩

theorem starts_reflects : Reflects canPort [] :=
  ⟨Nat.zero_lt_succ 7,Nat.zero_lt_succ 7,rfl,rfl,rfl,rfl⟩

theorem run_reflects (inputs : List PortInput) :
    Reflects (run portStep canPort inputs).1 (run portStep canPort inputs).2 ∧
      Always Served (run portStep canPort inputs).2 :=
  along_history portStep (fun _ _ => True)
    (fun p past => Reflects p past ∧ Always Served past)
    (fun _ _ i h _ => ⟨(step_reflects h.1 i).1,(step_reflects h.1 i).2 h.2⟩) canPort [] inputs
    ⟨starts_reflects,always_nil⟩ (along_true _ _ _)

theorem fifo_offers (past : List PortRecord) :
    (fifo past).accepted.Sublist ((since resets past).filterMap offered) ∧
      (fifo past).accepted.length+(fifo past).lost =
        ((since resets past).filterMap offered).length := by
  induction past using List.reverseRecOn with
  | nil => exact ⟨List.Sublist.refl _,rfl⟩
  | append_singleton past r ih =>
    rw [since_concat]
    cases hreset : resets r with
    | true =>
      rw [fifo_reset _ hreset,if_pos rfl]
      exact ⟨List.Sublist.refl _,rfl⟩
    | false =>
      rw [if_neg Bool.false_ne_true,List.filterMap_append]
      cases hoffered : offered r with
      | none =>
        rw [fifo_taken _ hreset hoffered,List.filterMap_cons_none hoffered,List.filterMap_nil,
          List.append_nil]
        exact ih
      | some c =>
        rw [fifo_offered _ hreset hoffered,List.filterMap_cons_some hoffered,List.filterMap_nil]
        split
        · refine ⟨ih.1.append (List.Sublist.refl [c]),?_⟩
          simp only [List.length_append,List.length_singleton,← ih.2]
          omega
        · refine ⟨ih.1.trans (List.sublist_append_left _ _),?_⟩
          simp only [List.length_append,List.length_singleton,← ih.2]
          omega

end Records

/-- Since the port was last started or shut down, whatever calls are made and
whatever frames interrupt them, the polls hand out the frames that the queue
accepted, each once and in order and to the callback registered last; those not
yet handed out are at most seven, and the others of the frames offered are
counted as dropped. -/
theorem polls_serve_queue (inputs : List PortInput) :
    let done := run portStep canPort inputs
    (fifo done.2).accepted = (fifo done.2).taken++pendingFrames done.1 ∧
      (pendingFrames done.1).length ≤ 7 ∧
      (fifo done.2).accepted.Sublist ((since resets done.2).filterMap offered) ∧
      done.1.rxDropped = UInt32.ofNat
        (((since resets done.2).filterMap offered).length-(fifo done.2).accepted.length) ∧
      Always Served done.2 := by
  intro done
  obtain ⟨hreflects,hserved⟩ := run_reflects inputs
  obtain ⟨hsub,hlost⟩ := fifo_offers done.2
  refine ⟨hreflects.order,pending_length hreflects,hsub,?_,hserved⟩
  rw [hreflects.dropped,← hlost,Nat.add_sub_cancel_left]

end CanopenReference.PortQueue
