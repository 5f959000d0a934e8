import CanopenReference.Handling
import CanopenReference.TxBacklog

/-!
# The answer before the reset

A pass of the main loop transmits what the driver takes and then resets the
processor when a reset is pending. It does not look at the transmit queue, so
the answer that announces the reset may still wait there.
-/

set_option autoImplicit false

namespace CanopenReference.ResetAnswer
open Library Library.Runs IsoTp IsoTpDelivery Uds UdsStm32 Diagnostics UdsFlowControl UdsTickOrder
  ResponseTransmission RxRings TxQueue TxBacklog

def isResetAnswer : QueueEvent → Bool
  | .made (.response request) frame _ _ _ => byteAt request 0 == 0x11 && frame.byte 1 == 0x51
  | _ => false

def wasQueued : QueueEvent → Bool
  | .made _ _ queued _ _ => queued
  | .sent _ => false

inductive PassEvent where
  | queue (e : QueueEvent)
  | systemReset

/-- The diagnostic side of the main loop, with a note how many of the waiting
frames go up to the last answer that announced a reset; none when such an
answer found no room. -/
structure Node (μ : Type) where
  runtime : UdsRuntime μ
  running : Bool
  owed : Option ℕ

def owedAfter (can : UdsStm32Can) (owed : Option ℕ) (e : QueueEvent) : Option ℕ :=
  match e with
  | .sent frames => owed.map (·-frames.length)
  | e =>
    if isResetAnswer e then
      if wasQueued e then owed.map fun _ => (waiting can).length+1 else none
    else owed

/-- A stage of the pass, the last of which transmits and then looks for a
pending reset. -/
inductive PassStage where
  | stage (a : Stage)
  | finish (answers : List TxAnswer)

section Runtime
variable {μ : Type}

def noted (s : Node μ) (a : Stage) : Node μ :=
  { s with
    runtime := (queueStep s.runtime a).1
    owed := (queueStep s.runtime a).2.foldl (owedAfter s.runtime.can) s.owed }

def passStep (s : Node μ) (a : PassStage) : Node μ × List PassEvent :=
  if !s.running then (s,[])
  else
    match a with
    | .stage a => (noted s a,(queueStep s.runtime a).2.map .queue)
    | .finish answers =>
      let sent := noted s (.send answers)
      let events := (queueStep s.runtime (.send answers)).2.map PassEvent.queue
      if canopenReferenceUdsResetPending sent.runtime then
        ({ sent with runtime := canopenReferenceUdsClearReset sent.runtime, running := false },
          events++[.systemReset])
      else (sent,events)

/-- The calls of the diagnostic runtime in the main loop, up to the reset. -/
def appStep (s : UdsRuntime μ × Bool) (input : RuntimeInput) : (UdsRuntime μ × Bool) × List Unit :=
  if !s.2 then (s,[])
  else
    match input with
    | .process answers now =>
      let rt := (canopenReferenceUdsProcess s.1 answers now).1
      if canopenReferenceUdsResetPending rt then ((canopenReferenceUdsClearReset rt,false),[])
      else ((rt,true),[])
    | input => (((runtimeStep s.1 input).1,true),[])

def handlingStages (now : UInt32) : List Stage :=
  .begin now::List.replicate udsStm32RxBudgetPerCall (.frame now)++[.poll now,.tick now]

/-- The stages of a call, as the main loop makes it. -/
def passStages : RuntimeInput → List PassStage
  | .process answers now => (handlingStages now).map .stage++[.finish answers]
  | input => (stages input).map .stage

def queueEvents (events : List PassEvent) : List QueueEvent :=
  events.filterMap fun
    | .queue e => some e
    | .systemReset => none

/-- An answer that announces a reset entered the queue, and it and all frames
queued before it are among those sent. -/
def Sent (start sent : List (UInt32 × ℕ × List UInt8)) (earlier : List QueueEvent)
    (e : QueueEvent) : Prop :=
  isResetAnswer e = true →
    wasQueued e = true ∧ start++(enteredFrames (earlier++[e])).map frameContent <+: sent

/-- At a reset every answer that announced it has been sent. -/
def Answered (start : List (UInt32 × ℕ × List UInt8)) (before : List PassEvent) :
    PassEvent → Prop
  | .systemReset =>
    Always (Sent start ((leftFrames (queueEvents before)).map frameContent)) (queueEvents before)
  | .queue _ => True

instance sentDecidable (start sent : List (UInt32 × ℕ × List UInt8)) (earlier : List QueueEvent)
    (e : QueueEvent) : Decidable (Sent start sent earlier e) :=
  inferInstanceAs (Decidable (_ → _))

instance answeredDecidable (start : List (UInt32 × ℕ × List UInt8)) (before : List PassEvent) :
    ∀ e, Decidable (Answered start before e)
  | .systemReset => inferInstanceAs (Decidable (Always _ _))
  | .queue _ => inferInstanceAs (Decidable True)

/-- When a reset is pending, the answers that announced it found room, and the
driver takes all frames up to the last of them within the budget. -/
def Prompt (s : Node μ) : PassStage → Prop
  | .finish answers =>
    s.running = true → canopenReferenceUdsResetPending s.runtime = true →
      ∃ k, s.owed = some k ∧ k ≤ udsStm32TxBudgetPerCall ∧ answers.take k = List.replicate k .accepted
  | .stage _ => True

theorem pending_sid (app : UdsApplication μ) (request : List UInt8) (now : UInt32)
    (hbefore : app.server.resetPending = false)
    (hafter : (handleRequest app request now).1.server.resetPending = true) :
    byteAt request 0 = 0x11 := by
  rcases Handling.handle_effect app request now with ⟨_,hserver,_⟩ | ⟨_,heffect⟩
  · rw [hserver,hbefore] at hafter
    cases hafter
  generalize (handleRequest app request now).1.server = server at hafter heffect
  generalize (handleRequest app request now).1.context = context at heffect
  have hkept : ∀ next : UdsServer, next.resetPending = app.server.resetPending →
      next.resetPending = true → byteAt request 0 = 0x11 :=
    fun next hnext hyes => absurd ((hnext.trans hbefore).symm.trans hyes) Bool.false_ne_true
  cases heffect with
  | reset h _ => exact h
  | kept _ | session _ | seed _ _ | dtcSetting _ _ => exact hkept _ rfl hafter
  | key _ _ hnext | transfer _ _ _ hnext =>
    rcases hnext with ⟨rfl,_⟩ | ⟨_,rfl⟩
    · exact hkept _ rfl hafter
    · exact hkept _ rfl hafter
  | download _ _ _ hnext | exit _ _ _ _ hnext =>
    rcases hnext with rfl | ⟨_,rfl⟩
    · exact hkept _ rfl hafter
    · exact hkept _ rfl hafter

theorem accepted_reset (app : UdsApplication μ) (request : List UInt8) (now : UInt32)
    (hbefore : app.server.resetPending = false)
    (hafter : (handleRequest app request now).1.server.resetPending = true) :
    byteAt request 0 = 0x11 ∧
      (suppressed request = true ∧ (handleRequest app request now).2 = .noResponse ∨
        (handleRequest app request now).2 = .ok ∧
          (handleRequest app request now).1.responseLength = 2 ∧
          (handleRequest app request now).1.response.front 2 = [0x51,subfunctionOf request]) := by
  have hsid := pending_sid app request now hbefore hafter
  refine ⟨hsid,?_⟩
  unfold handleRequest udsServerHandle at hafter ⊢
  split at hafter
  · exact absurd (hbefore.symm.trans hafter) Bool.false_ne_true
  rename_i hgiven
  rw [if_neg hgiven]
  simp only [dispatch,hsid,UInt8.reduceToNat] at hafter ⊢
  simp only [serviceEcuReset,referenceCallbacks] at hafter ⊢
  split at hafter
  · exact absurd (hbefore.symm.trans hafter) Bool.false_ne_true
  rename_i hlength
  rw [if_neg hlength]
  split at hafter
  · exact absurd (hbefore.symm.trans hafter) Bool.false_ne_true
  rename_i hsub
  rw [if_neg hsub]
  split at hafter
  · exact absurd (hbefore.symm.trans hafter) Bool.false_ne_true
  rename_i hok
  rw [if_neg hok,answer]
  cases hs : suppressed request with
  | true => exact Or.inl ⟨rfl,rfl⟩
  | false =>
    have hroom : 2 ≤ udsMaxResponseLength.toNat := by decide
    exact Or.inr ⟨rfl,rfl,Buffer.front_write_zero _ [0x51,subfunctionOf request] hroom⟩

theorem accepted_reset_announced (rt : UdsRuntime μ) {f : IsoTpCanFrame} (now : UInt32)
    (hpop : (udsStm32CanRxPop rt.can).2 = some f)
    (hbefore : rt.application.server.resetPending = false)
    (hafter : (stageRuntime rt (.frame now)).1.application.server.resetPending = true) :
    ∃ request, byteAt request 0 = 0x11 ∧
      (suppressed request = true ∧ stageEvents rt (.frame now) = [] ∨
        ∃ e, stageEvents rt (.frame now) = [e] ∧ isResetAnswer e = true) := by
  simp only [stageRuntime,hpop] at hafter
  by_cases hrx : f.canId = udsRxCanId
  case neg =>
    have hsame : (processFrame (popped rt) f now).application = rt.application := by
      rw [processFrame,if_neg hrx]
      split <;> rfl
    rw [hsame] at hafter
    exact absurd (hbefore.symm.trans hafter) Bool.false_ne_true
  have htaken : (processFrame (popped rt) f now).application =
      (taken (popped rt) f now).application := by
    rw [process_request _ now hrx]
    split <;> rfl
  rw [htaken] at hafter
  have hevents := events_offered rt (a := .frame now) fun answers ha => by cases ha
  have hoffer : stageOffer rt (.frame now) = frameOffer (popped rt) f now := by
    simp only [stageOffer,hpop,Option.bind_some]
  rw [hevents,hoffer,frameOffer,if_pos hrx]
  have hid : (popped rt).isotpRx = rt.isotpRx ∧ (popped rt).application = rt.application := ⟨rfl,rfl⟩
  simp only [taken,responds,completed,hid.1,hid.2] at hafter ⊢
  cases hstatus : (isotpRxFeed rt.isotpRx f now).2.1 with
  | complete =>
    cases hpayload : (isotpRxFeed rt.isotpRx f now).2.2.payload with
    | none =>
      simp only [hstatus,hpayload] at hafter
      exact absurd (hbefore.symm.trans hafter) Bool.false_ne_true
    | some request =>
      simp only [hstatus,hpayload] at hafter ⊢
      obtain ⟨hsid,hanswer⟩ := accepted_reset rt.application request now hbefore hafter
      refine ⟨request,hsid,?_⟩
      rcases hanswer with ⟨hs,hresult⟩ | ⟨hresult,hlength,hfront⟩
      · exact Or.inl ⟨hs,by simp [hresult]⟩
      · refine Or.inr ?_
        have htwo : (2 : UInt16).toNat = 2 := rfl
        have hstart := IsoTpTransmitter.start_single (p := [0x51,subfunctionOf request])
          (popped rt).isotpTx now (Nat.succ_pos 1) (Nat.le_of_ble_eq_true rfl)
        have hbyte : (singleFrameOf (popped rt).isotpTx.responseId
            [0x51,subfunctionOf request]).byte 1 = 0x51 :=
          filled_byte _ (UInt8.ofNat 2::[0x51,subfunctionOf request]) 1 (by simp) (by simp)
        simp only [hresult,hlength,htwo,hfront]
        rw [hstart]
        exact ⟨_,rfl,by simp [isResetAnswer,hsid,hbyte]⟩
  | _ =>
    simp only [hstatus] at hafter
    exact absurd (hbefore.symm.trans hafter) Bool.false_ne_true

end Runtime

/-- An answer that announces a reset is among the first `m` frames, `n` of
which waited at the start. -/
def Ends (n m : ℕ) (earlier : List QueueEvent) (e : QueueEvent) : Prop :=
  isResetAnswer e = true → wasQueued e = true ∧ n+(enteredFrames earlier).length+1 ≤ m

theorem ends_mono {n m m' : ℕ} {events : List QueueEvent} (hm : m ≤ m')
    (h : Always (Ends n m) events) : Always (Ends n m') events := by
  intro earlier e later hsplit hanswer
  obtain ⟨hqueued,hle⟩ := h earlier e later hsplit hanswer
  exact ⟨hqueued,Nat.le_trans hle hm⟩

def AnswerAt (events earlier : List QueueEvent) (e : QueueEvent) : Prop :=
  (∃ later, events = earlier++e::later) ∧ isResetAnswer e = true

theorem answer_at_concat {events earlier : List QueueEvent} {e : QueueEvent} (x : QueueEvent)
    (h : AnswerAt events earlier e) : AnswerAt (events++[x]) earlier e := by
  obtain ⟨⟨later,rfl⟩,hanswer⟩ := h
  exact ⟨⟨later++[x],by simp⟩,hanswer⟩

/-- The note is exact: none after a refused answer, and else the number of
frames still to be sent up to the last answer. -/
def Ledger (n : ℕ) (events : List QueueEvent) : Option ℕ → Prop
  | none => ∃ earlier e, AnswerAt events earlier e ∧ wasQueued e = false
  | some k =>
    Always (Ends n ((leftFrames events).length+k)) events ∧
      (k = 0 ∨ ∃ earlier e, AnswerAt events earlier e ∧
        n+(enteredFrames earlier).length+1 = (leftFrames events).length+k)

theorem entered_queued {e : QueueEvent} (h : wasQueued e = true) :
    (enteredFrames [e]).length = 1 := by
  cases e with
  | made origin frame queued before after =>
    rw [wasQueued] at h
    rw [h]
    rfl
  | sent frames => cases h

theorem ledger_settled {n : ℕ} {events : List QueueEvent} {owed : Option ℕ}
    (h : Ledger n events owed) :
    Always (Ends n (leftFrames events).length) events ↔ owed = some 0 := by
  cases owed with
  | none =>
    obtain ⟨earlier,e,⟨⟨later,hsplit⟩,hanswer⟩,hrefused⟩ := h
    refine iff_of_false (fun hall => ?_) (fun h0 => by cases h0)
    have hqueued := (hall earlier e later hsplit hanswer).1
    exact Bool.false_ne_true (hrefused.symm.trans hqueued)
  | some k =>
    obtain ⟨hall,hlast⟩ := h
    constructor
    · intro hsent
      rcases hlast with rfl | ⟨earlier,e,⟨⟨later,hsplit⟩,hanswer⟩,hplace⟩
      · rfl
      · have hle := (hsent earlier e later hsplit hanswer).2
        rw [show k = 0 by omega]
    · intro h0
      rw [Option.some.inj h0] at hall
      exact hall

theorem ledger_sent {n : ℕ} {events : List QueueEvent} {owed : Option ℕ}
    (frames : List IsoTpCanFrame) (h : Ledger n events owed) :
    Ledger n (events++[.sent frames]) (owed.map (·-frames.length)) := by
  cases owed with
  | none =>
    obtain ⟨earlier,e,hat,hrefused⟩ := h
    exact ⟨earlier,e,answer_at_concat _ hat,hrefused⟩
  | some k =>
    obtain ⟨hall,hlast⟩ := h
    have hleft : (leftFrames (events++[.sent frames])).length =
        (leftFrames events).length+frames.length := by
      simp [leftFrames]
    simp only [Option.map_some,Ledger,hleft]
    constructor
    · exact always_concat (ends_mono (by omega) hall) fun hanswer => by cases hanswer
    · rcases hlast with rfl | ⟨earlier,e,hat,hplace⟩
      · exact Or.inl (Nat.zero_sub _)
      · by_cases hk : k ≤ frames.length
        · exact Or.inl (Nat.sub_eq_zero_of_le hk)
        · exact Or.inr ⟨earlier,e,answer_at_concat _ hat,by omega⟩

theorem ledger_made {n : ℕ} {can can' : UdsStm32Can} {events : List QueueEvent} {owed : Option ℕ}
    {e : QueueEvent} (hn : (waiting can).length = n) (hb : Balanced can can' events)
    (he : leftFrames [e] = []) (h : Ledger n events owed) :
    Ledger n (events++[e])
      (if isResetAnswer e then
        if wasQueued e then owed.map fun _ => (waiting can').length+1 else none
      else owed) := by
  have hleft : leftFrames (events++[e]) = leftFrames events := by
    rw [left_append,he,List.append_nil]
  have hlength := balanced_length hb
  cases hanswer : isResetAnswer e with
  | false =>
    rw [if_neg Bool.false_ne_true]
    cases owed with
    | none =>
      obtain ⟨earlier,x,hat,hrefused⟩ := h
      exact ⟨earlier,x,answer_at_concat _ hat,hrefused⟩
    | some k =>
      obtain ⟨hall,hlast⟩ := h
      rw [Ledger,hleft]
      refine ⟨always_concat hall fun hyes => absurd (hanswer.symm.trans hyes) Bool.false_ne_true,?_⟩
      exact hlast.imp_right fun ⟨earlier,x,hat,hplace⟩ => ⟨earlier,x,answer_at_concat _ hat,hplace⟩
  | true =>
    rw [if_pos rfl]
    cases hqueued : wasQueued e with
    | false =>
      rw [if_neg Bool.false_ne_true]
      exact ⟨events,e,⟨⟨[],rfl⟩,hanswer⟩,hqueued⟩
    | true =>
      rw [if_pos rfl]
      cases owed with
      | none =>
        obtain ⟨earlier,x,hat,hrefused⟩ := h
        exact ⟨earlier,x,answer_at_concat _ hat,hrefused⟩
      | some k =>
        have hplace : n+(enteredFrames events).length+1 =
            (leftFrames events).length+((waiting can').length+1) := by omega
        rw [Option.map_some,Ledger,hleft]
        refine ⟨always_concat ?_ fun _ => ⟨hqueued,Nat.le_of_eq hplace⟩,
          Or.inr ⟨events,e,⟨⟨[],rfl⟩,hanswer⟩,hplace⟩⟩
        intro earlier x later hsplit hyes
        obtain ⟨hx,_⟩ := h.1 earlier x later hsplit hyes
        have hentered : (enteredFrames events).length =
            (enteredFrames earlier).length+1+(enteredFrames later).length := by
          rw [hsplit,List.append_cons,entered_append,entered_append,List.length_append,
            List.length_append,entered_queued hx]
        exact ⟨hx,by omega⟩

theorem sent_places {can can' : UdsStm32Can} {events : List QueueEvent}
    (hb : Balanced can can' events) :
    Always (Sent ((waiting can).map frameContent) ((leftFrames events).map frameContent)) events ↔
      Always (Ends (waiting can).length (leftFrames events).length) events := by
  refine forall_congr' fun earlier => forall_congr' fun e => forall_congr' fun later =>
    forall_congr' fun hsplit => forall_congr' fun _ => and_congr_right fun hqueued => ?_
  have hlength : ((waiting can).map frameContent++
      (enteredFrames (earlier++[e])).map frameContent).length =
        (waiting can).length+(enteredFrames earlier).length+1 := by
    rw [entered_append,List.length_append,List.length_map,List.length_map,List.length_append,
      entered_queued hqueued,Nat.add_assoc]
  constructor
  · intro hprefix
    have hle := hprefix.length_le
    rw [hlength,List.length_map] at hle
    exact hle
  · intro hle
    have hentered : (waiting can).map frameContent++
        (enteredFrames (earlier++[e])).map frameContent <+:
          (waiting can).map frameContent++(enteredFrames events).map frameContent := by
      have hparts : enteredFrames events = enteredFrames (earlier++[e])++enteredFrames later := by
        rw [hsplit,List.append_cons,entered_append]
      rw [hparts,List.map_append,← List.append_assoc]
      exact List.prefix_append _ _
    have hleft : (leftFrames events).map frameContent <+:
        (waiting can).map frameContent++(enteredFrames events).map frameContent := by
      rw [hb.order]
      exact List.prefix_append _ _
    refine List.prefix_of_prefix_length_le hentered hleft ?_
    rw [hlength,List.length_map]
    exact hle

theorem owed_waits {can can' : UdsStm32Can} {events : List QueueEvent} {k : ℕ}
    (hb : Balanced can can' events) (h : Ledger (waiting can).length events (some k)) :
    k ≤ (waiting can').length := by
  have hlength := balanced_length hb
  rcases h.2 with rfl | ⟨earlier,e,⟨⟨later,hsplit⟩,hanswer⟩,hplace⟩
  · exact Nat.zero_le _
  · have hqueued := (h.1 earlier e later hsplit hanswer).1
    have hentered : (enteredFrames events).length =
        (enteredFrames earlier).length+1+(enteredFrames later).length := by
      rw [hsplit,List.append_cons,entered_append,entered_append,List.length_append,
        List.length_append,entered_queued hqueued]
    omega

theorem sent_count {can : UdsStm32Can} (h : Indexed can) (budget : ℕ) (answers : List TxAnswer)
    {k : ℕ} (hk : k ≤ (waiting can).length) :
    k ≤ (udsStm32CanProcessTx can budget answers).2.length ↔
      k ≤ budget ∧ answers.take k = List.replicate k .accepted := by
  induction budget generalizing can answers k with
  | zero =>
    show k ≤ 0 ↔ _
    rw [Nat.le_zero]
    exact ⟨fun h0 => by rw [h0]; exact ⟨rfl,rfl⟩,fun h0 => h0.1⟩
  | succ left ih =>
    cases k with
    | zero => exact iff_of_true (Nat.zero_le _) ⟨Nat.zero_le _,rfl⟩
    | succ k =>
      have hsome : can.txTail ≠ can.txHead := by
        intro hempty
        have hnone : waiting can = [] := by
          rw [waiting,hempty]
          exact Queue.unread_none h.head
        rw [hnone] at hk
        exact Nat.not_succ_le_zero k hk
      have hpop : waiting can = can.txQueue.cell can.txTail emptyFrame::
          Queue.unread can.txQueue emptyFrame (nextIndex can.txTail udsStm32TxQueueCapacity)
            can.txHead := Queue.unread_pop h.tail h.head hsome
      rw [process_tx_next,if_neg hsome]
      cases answers with
      | nil =>
        refine iff_of_false (Nat.not_succ_le_zero k) fun hc => ?_
        rw [List.take_nil,List.replicate_succ] at hc
        cases hc.2
      | cons answer rest =>
        rw [List.headD_cons,List.take_succ_cons,List.replicate_succ,List.cons.injEq]
        cases answer with
        | noMailbox => exact iff_of_false (Nat.not_succ_le_zero k) fun hc => by cases hc.2.1
        | failed => exact iff_of_false (Nat.not_succ_le_zero k) fun hc => by cases hc.2.1
        | accepted =>
          rw [hpop,List.length_cons] at hk
          let sent : UdsStm32Can :=
            { can with
              txTail := nextIndex can.txTail udsStm32TxQueueCapacity
              stats := { can.stats with txFrames := can.stats.txFrames+1 } }
          have hsent : Indexed sent := ⟨Queue.advance_lt h.tail,h.head⟩
          have hrest := ih hsent rest (Nat.le_of_succ_le_succ hk)
          rw [List.tail_cons,List.length_cons,Nat.succ_le_succ_iff,hrest,Nat.succ_le_succ_iff,
            eq_self,true_and]

section Runtime
variable {μ : Type}

structure Known (can : UdsStm32Can) (s : Node μ) (events : List QueueEvent) : Prop where
  joined : Joined s.runtime
  balanced : Balanced can s.runtime.can events
  ledger : Ledger (waiting can).length events s.owed

theorem noted_ledger {can : UdsStm32Can} {s : Node μ} {events : List QueueEvent} (a : Stage)
    (h : Known can s events) :
    Ledger (waiting can).length (events++stageEvents s.runtime a)
      ((stageEvents s.runtime a).foldl (owedAfter s.runtime.can) s.owed) := by
  by_cases hsend : ∃ answers, a = .send answers
  · obtain ⟨answers,rfl⟩ := hsend
    exact ledger_sent _ h.ledger
  · rw [events_offered s.runtime fun answers ha => hsend ⟨answers,ha⟩]
    cases stageOffer s.runtime a with
    | none => simpa using h.ledger
    | some offer => exact ledger_made rfl h.balanced rfl h.ledger

theorem noted_known {can : UdsStm32Can} {s : Node μ} {events : List QueueEvent} (a : Stage)
    (h : Known can s events) :
    Known can (noted s a) (events++(queueStep s.runtime a).2) := by
  cases hinit : s.runtime.initialized with
  | false =>
    have hrest : queueStep s.runtime a = (s.runtime,[]) := by simp [queueStep,hinit]
    rw [noted,hrest,List.append_nil]
    exact h
  | true =>
    have hstep : queueStep s.runtime a = ((stageRuntime s.runtime a).1,stageEvents s.runtime a) := by
      simp [queueStep,hinit]
    rw [noted,hstep]
    exact ⟨stage_joined a h.joined,h.balanced.trans (stage_balanced a h.joined),noted_ledger a h⟩

theorem queue_events_append (past : List PassEvent) (events : List QueueEvent) :
    queueEvents (past++events.map .queue) = queueEvents past++events := by
  rw [queueEvents,List.filterMap_append,List.filterMap_map]
  exact congrArg (_++·) (List.filterMap_some)

theorem send_pending (s : Node μ) (answers : List TxAnswer) :
    canopenReferenceUdsResetPending (noted s (.send answers)).runtime =
      canopenReferenceUdsResetPending s.runtime := by
  rw [noted,queueStep]
  split <;> rfl

theorem finish_step {s : Node μ} (answers : List TxAnswer) (h : s.running = true) :
    passStep s (.finish answers) =
      if canopenReferenceUdsResetPending s.runtime then
        ({ noted s (.send answers) with
            runtime := canopenReferenceUdsClearReset (noted s (.send answers)).runtime
            running := false },
          (queueStep s.runtime (.send answers)).2.map .queue++[.systemReset])
      else (noted s (.send answers),(queueStep s.runtime (.send answers)).2.map .queue) := by
  rw [passStep,if_neg (by rw [h]; decide)]
  simp only [send_pending]

theorem stage_step {s : Node μ} (a : Stage) (h : s.running = true) :
    passStep s (.stage a) = (noted s a,(queueStep s.runtime a).2.map .queue) := by
  rw [passStep,if_neg (by rw [h]; decide)]

theorem stopped_step {s : Node μ} (a : PassStage) (h : s.running = false) :
    passStep s a = (s,[]) := by
  unfold passStep
  exact if_pos (by rw [h]; rfl)

theorem known_step {can : UdsStm32Can} (s : Node μ) (past : List PassEvent) (a : PassStage)
    (h : s.running = true → Known can s (queueEvents past)) :
    (passStep s a).1.running = true →
      Known can (passStep s a).1 (queueEvents (past++(passStep s a).2)) := by
  cases hrun : s.running with
  | false =>
    rw [stopped_step a hrun,List.append_nil]
    exact h
  | true =>
    cases a with
    | stage a =>
      rw [stage_step a hrun,queue_events_append]
      exact fun _ => noted_known a (h hrun)
    | finish answers =>
      rw [finish_step answers hrun]
      split
      · exact fun hstop => by cases hstop
      · rw [queue_events_append]
        exact fun _ => noted_known (.send answers) (h hrun)

theorem send_settles {can : UdsStm32Can} {s : Node μ} {events : List QueueEvent}
    (answers : List TxAnswer) (h : Known can s events) (hinit : s.runtime.initialized = true) :
    (noted s (.send answers)).owed = some 0 ↔
      ∃ k, s.owed = some k ∧ k ≤ udsStm32TxBudgetPerCall ∧
        answers.take k = List.replicate k .accepted := by
  have howed : (noted s (.send answers)).owed = s.owed.map
      (·-(udsStm32CanProcessTx s.runtime.can udsStm32TxBudgetPerCall answers).2.length) := by
    have hstep : (queueStep s.runtime (.send answers)).2 =
        [.sent (udsStm32CanProcessTx s.runtime.can udsStm32TxBudgetPerCall answers).2] := by
      simp [queueStep,hinit,stageEvents,sendQueued]
    rw [noted,hstep]
    rfl
  rw [howed]
  cases hk : s.owed with
  | none =>
    refine iff_of_false (fun h0 => by cases h0) ?_
    rintro ⟨k,h0,-⟩
    cases h0
  | some k =>
    have hledger := h.ledger
    rw [hk] at hledger
    have hcount := sent_count h.joined.indexed udsStm32TxBudgetPerCall answers
      (owed_waits h.balanced hledger)
    rw [Option.map_some,Option.some.injEq,Nat.sub_eq_zero_iff_le,hcount]
    constructor
    · exact fun hsent => ⟨k,rfl,hsent⟩
    · rintro ⟨k',hk',hsent⟩
      rw [Option.some.inj hk']
      exact hsent

theorem reset_fits {can : UdsStm32Can} (s : Node μ) (past : List PassEvent) (a : PassStage)
    (h : s.running = true → Known can s (queueEvents past))
    (hp : Always (Answered ((waiting can).map frameContent)) past) :
    Always (Answered ((waiting can).map frameContent)) (past++(passStep s a).2) ↔ Prompt s a := by
  have hqueue : ∀ events : List QueueEvent,
      Always (Answered ((waiting can).map frameContent)) (past++events.map .queue) := by
    intro events
    refine always_append hp fun e he before => ?_
    obtain ⟨x,_,rfl⟩ := List.mem_map.mp he
    trivial
  cases hrun : s.running with
  | false =>
    rw [stopped_step a hrun,List.append_nil]
    refine iff_of_true hp ?_
    cases a with
    | stage a => trivial
    | finish answers => exact fun hyes => absurd (hrun.symm.trans hyes) Bool.false_ne_true
  | true =>
    cases a with
    | stage a =>
      rw [stage_step a hrun]
      exact iff_of_true (hqueue _) trivial
    | finish answers =>
      rw [finish_step answers hrun]
      cases hpending : canopenReferenceUdsResetPending s.runtime with
      | false =>
        rw [if_neg Bool.false_ne_true]
        exact iff_of_true (hqueue _) fun _ hyes =>
          absurd (hpending.symm.trans hyes) Bool.false_ne_true
      | true =>
        have hinit : s.runtime.initialized = true := (Bool.and_eq_true_iff.mp hpending).1
        have hnext := noted_known (.send answers) (h hrun)
        have hlast : Answered ((waiting can).map frameContent)
            (past++(queueStep s.runtime (.send answers)).2.map .queue) .systemReset ↔
              (noted s (.send answers)).owed = some 0 := by
          rw [Answered,queue_events_append,sent_places hnext.balanced]
          exact ledger_settled hnext.ledger
        have hprompt : Prompt s (.finish answers) ↔ (noted s (.send answers)).owed = some 0 := by
          rw [send_settles answers (h hrun) hinit]
          exact ⟨fun hc => hc hrun hpending,fun hc _ _ => hc⟩
        rw [if_pos rfl,hprompt,← hlast,← List.append_assoc]
        constructor
        · exact fun hall => hall _ _ [] rfl
        · exact fun hreset => always_concat (hqueue _) hreset

theorem running_stages {s : Node μ} (as : List Stage) (h : s.running = true) :
    (run passStep s (as.map .stage)).1.running = true ∧
      (run passStep s (as.map .stage)).1.runtime = (run queueStep s.runtime as).1 := by
  induction as generalizing s with
  | nil => exact ⟨h,rfl⟩
  | cons a as ih =>
    rw [List.map_cons,run_cons,stage_step a h]
    exact ih (s := noted s a) h

theorem stopped_run {s : Node μ} (as : List PassStage) (h : s.running = false) :
    (run passStep s as).1 = s := by
  induction as with
  | nil => rfl
  | cons a as ih =>
    rw [run_cons,stopped_step a h]
    exact ih

theorem process_pass {s : Node μ} (answers : List TxAnswer) (now : UInt32) (h : s.running = true) :
    let r := (run passStep s (passStages (.process answers now))).1
    (r.runtime,r.running) = (appStep (s.runtime,s.running) (.process answers now)).1 := by
  obtain ⟨hhandled,hbefore⟩ := running_stages (handlingStages now) h
  have hsplit : stages (.process answers now) = handlingStages now++[.send answers] := by
    simp [stages,handlingStages]
  have hend := queue_stages s.runtime (.process answers now)
  rw [hsplit,run_concat] at hend
  simp only [passStages,run_concat]
  generalize run passStep s ((handlingStages now).map .stage) = handled at hhandled hbefore
  have hprocess : (noted handled.1 (.send answers)).runtime =
      (canopenReferenceUdsProcess s.runtime answers now).1 := by
    rw [noted,hbefore]
    exact hend
  rw [finish_step answers hhandled,← send_pending handled.1 answers,hprocess]
  simp only [appStep,h]
  split
  · rfl
  · exact congrArg₂ Prod.mk hprocess hhandled

theorem pass_stages (s : Node μ) (input : RuntimeInput) :
    let r := (run passStep s (passStages input)).1
    (r.runtime,r.running) = (appStep (s.runtime,s.running) input).1 := by
  cases hrun : s.running with
  | false =>
    rw [stopped_run _ hrun]
    simp [appStep,hrun]
  | true =>
    obtain ⟨hrunning,hruntime⟩ := running_stages (stages input) hrun
    have hend := hruntime.trans (queue_stages s.runtime input)
    cases input with
    | rxFromIsr frame => exact congrArg₂ Prod.mk hend hrunning
    | clearReset => exact congrArg₂ Prod.mk hend hrunning
    | process answers now =>
      rw [← hrun]
      exact process_pass answers now hrun

/-- From every state of the queue and under every answer of the driver, each
answer that announces a reset has been sent by the time of the reset exactly
when, at each pass with a pending reset, all of them found room and the driver
takes the frames up to the last within the budget of the pass. -/
theorem resets_answered (rt : UdsRuntime μ) (work : List PassStage) (h : Joined rt) :
    let s : Node μ := ⟨rt,true,some 0⟩
    (∀ inputs : List RuntimeInput,
      let r := (run passStep s (inputs.flatMap passStages)).1
      (r.runtime,r.running) = (run appStep (rt,true) inputs).1) ∧
      (Always (Answered ((waiting rt.can).map frameContent)) (run passStep s work).2 ↔
        Along passStep Prompt s work) := by
  intro s
  constructor
  · intro inputs r
    exact run_expand passStep appStep (fun s => (s.runtime,s.running)) passStages pass_stages s inputs
  · have hstart : Known rt.can s [] := ⟨h,same_balanced h.indexed (same_queue_refl rt.can),
      ⟨always_nil,Or.inl rfl⟩⟩
    have hrun := along_iff_always passStep Prompt
      (fun s past => s.running = true → Known rt.can s (queueEvents past))
      (Answered ((waiting rt.can).map frameContent)) known_step reset_fits s [] work
      (fun _ => hstart) always_nil
    rwa [List.nil_append] at hrun

end Runtime

def unlockedRuntime : UdsRuntime Unit :=
  { quietRuntime with
    application :=
      { quietRuntime.application with
        server := { quietRuntime.application.server with securityLevel := 1 } } }

def resetRequest : IsoTpCanFrame := filledFrame udsRxCanId [0x02,0x11,0x01]

theorem unlocked_joined : Joined unlockedRuntime :=
  ⟨⟨Nat.zero_lt_succ 7,Nat.zero_lt_succ 7⟩,by change (0x7E8 : UInt32) ≤ 0x7FF; decide,rfl,rfl⟩

def unlockedNode : Node Unit := ⟨unlockedRuntime,true,some 0⟩

/-- Without a free mailbox the reset is taken in the pass that queued its answer. -/
theorem unanswered_reset :
    (¬∀ (rt : UdsRuntime Unit) (inputs : List RuntimeInput), Joined rt →
        Always (Answered ((waiting rt.can).map frameContent))
          (run passStep ⟨rt,true,some 0⟩ (inputs.flatMap passStages)).2) ∧
      let done := run passStep unlockedNode
        ([.rxFromIsr resetRequest,.process [.noMailbox] 1].flatMap passStages)
      done.1.running = false ∧ (leftFrames (queueEvents done.2)) = [] ∧
        (waiting done.1.runtime.can).map (fun f => f.data.front f.dlc) = [[0x02,0x51,0x01]] := by
  refine ⟨fun h => ?_,by decide +kernel⟩
  have hlost := h unlockedRuntime [.rxFromIsr resetRequest,.process [.noMailbox] 1] unlocked_joined
  revert hlost
  decide +kernel

theorem answered_reset :
    let work := [.rxFromIsr resetRequest,.process [.accepted] 1].flatMap passStages
    Joined unlockedRuntime ∧ Along passStep Prompt unlockedNode work ∧
      (run passStep unlockedNode work).1.running = false := by
  intro work
  have hanswered : Always (Answered ((waiting unlockedRuntime.can).map frameContent))
      (run passStep unlockedNode work).2 := by decide +kernel
  exact ⟨unlocked_joined,(resets_answered unlockedRuntime work unlocked_joined).2.mp hanswered,
    by decide +kernel⟩

end CanopenReference.ResetAnswer
