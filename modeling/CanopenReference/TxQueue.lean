import CanopenReference.Library.Queue
import CanopenReference.RxRings

/-!
# The transmit queue of the diagnostic adapter

Frames enter the queue in `uds_stm32_can_tx_queue` and leave it in
`uds_stm32_can_process_tx`, whatever the CAN driver answers. A slot is given up
only after the driver has accepted its frame.
-/

set_option autoImplicit false

namespace CanopenReference.TxQueue
open Library Library.Runs IsoTp UdsStm32 RxRings

/-- The calls of the main loop, with the answers of the driver. -/
inductive TxQueueCall where
  | queue (frame : IsoTpCanFrame)
  | process (budget : UInt32) (answers : List TxAnswer)

inductive TxQueueRecord where
  | queued (frame : IsoTpCanFrame) (result : TxQueueResult)
  | processed (budget : UInt32) (answers : List TxAnswer) (count : ℕ) (sent : List IsoTpCanFrame)

def txQueueStep (a : UdsStm32Can) : TxQueueCall → UdsStm32Can × List TxQueueRecord
  | .queue frame =>
    ((udsStm32CanTxQueue a frame).1,[.queued frame (udsStm32CanTxQueue a frame).2])
  | .process budget answers =>
    let done := processTxLoop 0 a budget.toNat answers
    (done.1,[.processed budget answers done.2.1 done.2.2])

/-- The frames that the queue accepted, in order. -/
def acceptedFrames (records : List TxQueueRecord) : List IsoTpCanFrame :=
  records.filterMap fun
    | .queued frame .queued => some frame
    | _ => none

/-- The frames that the driver accepted, in order. -/
def sentFrames (records : List TxQueueRecord) : List IsoTpCanFrame :=
  records.flatMap fun
    | .processed _ _ _ sent => sent
    | _ => []

/-- The frames in the queue, the oldest first. -/
def waiting (a : UdsStm32Can) : List IsoTpCanFrame :=
  Queue.unread a.txQueue emptyFrame a.txTail a.txHead

structure Indexed (a : UdsStm32Can) : Prop where
  tail : a.txTail < udsStm32TxQueueCapacity
  head : a.txHead < udsStm32TxQueueCapacity

def Takes (a : UdsStm32Can) (frame : IsoTpCanFrame) : Prop :=
  (validFrame frame.canId frame.dlc = true ∧ frame.canId = a.responseId) ∧
    nextIndex a.txHead udsStm32TxQueueCapacity ≠ a.txTail

theorem queue_takes_iff (a : UdsStm32Can) (frame : IsoTpCanFrame) :
    (udsStm32CanTxQueue a frame).2 = .queued ↔ Takes a frame := by
  unfold udsStm32CanTxQueue Takes
  split
  · rename_i hinvalid
    refine iff_of_false (fun h => by cases h) fun h => ?_
    rcases hinvalid with hc | hc
    · rw [h.1.1] at hc
      cases hc
    · exact hc h.1.2
  rename_i hvalid
  simp only [not_or,Bool.not_eq_true',Bool.not_eq_false,not_not] at hvalid
  split
  · rename_i hfull
    exact iff_of_false (fun h => by cases h) fun h => h.2 hfull
  · rename_i hroom
    exact iff_of_true rfl ⟨hvalid,hroom⟩

def stored (a : UdsStm32Can) (frame : IsoTpCanFrame) : UdsStm32Can :=
  { a with
    txQueue := a.txQueue.write a.txHead [fillSlot (a.txQueue.cell a.txHead emptyFrame) frame]
    txHead := nextIndex a.txHead udsStm32TxQueueCapacity }

theorem queue_taken {a : UdsStm32Can} {frame : IsoTpCanFrame} (h : Takes a frame) :
    udsStm32CanTxQueue a frame = (stored a frame,.queued) := by
  obtain ⟨⟨hvalid,hid⟩,hroom⟩ := h
  rw [udsStm32CanTxQueue,if_neg (by rw [hvalid]; simp [hid]),if_neg hroom]
  rfl

theorem queue_refused {a : UdsStm32Can} {frame : IsoTpCanFrame} (h : ¬Takes a frame) :
    (udsStm32CanTxQueue a frame).1.txQueue = a.txQueue ∧
      (udsStm32CanTxQueue a frame).1.txTail = a.txTail ∧
      (udsStm32CanTxQueue a frame).1.txHead = a.txHead := by
  have hresult := (queue_takes_iff a frame).not.mpr h
  unfold udsStm32CanTxQueue at hresult ⊢
  split
  · exact ⟨rfl,rfl,rfl⟩
  rename_i hvalid
  rw [if_neg hvalid] at hresult
  split
  · exact ⟨rfl,rfl,rfl⟩
  · rename_i hroom
    rw [if_neg hroom] at hresult
    exact absurd rfl hresult

theorem queue_waiting {a : UdsStm32Can} (h : Indexed a) (frame : IsoTpCanFrame) :
    Indexed (udsStm32CanTxQueue a frame).1 ∧
      (waiting (udsStm32CanTxQueue a frame).1).map frameContent =
        (waiting a).map frameContent++
          if (udsStm32CanTxQueue a frame).2 = .queued then [frameContent frame] else [] := by
  by_cases ht : Takes a frame
  · rw [queue_taken ht,if_pos rfl]
    refine ⟨⟨h.tail,Queue.advance_lt h.head⟩,?_⟩
    have hpush := Queue.unread_push (b := a.txQueue) (d := emptyFrame) h.tail h.head ht.2
      (fillSlot (a.txQueue.cell a.txHead emptyFrame) frame)
    have hlast : (waiting (stored a frame)) =
        waiting a++[fillSlot (a.txQueue.cell a.txHead emptyFrame) frame] := hpush
    rw [hlast,List.map_append,List.map_singleton,fill_content]
  · obtain ⟨hqueue,htail,hhead⟩ := queue_refused ht
    rw [if_neg ((queue_takes_iff a frame).not.mpr ht),List.append_nil]
    refine ⟨⟨?_,?_⟩,?_⟩
    · rw [htail]
      exact h.tail
    · rw [hhead]
      exact h.head
    · rw [waiting,waiting,hqueue,htail,hhead]

theorem process_waiting {a : UdsStm32Can} (h : Indexed a) (budget : ℕ) (answers : List TxAnswer) :
    Indexed (udsStm32CanProcessTx a budget answers).1 ∧
      waiting a = (udsStm32CanProcessTx a budget answers).2++
        waiting (udsStm32CanProcessTx a budget answers).1 ∧
      (udsStm32CanProcessTx a budget answers).2.length ≤ budget := by
  induction budget generalizing a answers with
  | zero => exact ⟨h,rfl,Nat.le_refl 0⟩
  | succ left ih =>
    rw [process_tx_next]
    split
    · exact ⟨h,rfl,Nat.zero_le _⟩
    rename_i hsome
    split
    · exact ⟨⟨h.tail,h.head⟩,rfl,Nat.zero_le _⟩
    · exact ⟨⟨h.tail,h.head⟩,rfl,Nat.zero_le _⟩
    · have hpop := Queue.unread_pop (b := a.txQueue) (d := emptyFrame) h.tail h.head hsome
      obtain ⟨hnext,hrest,hcount⟩ := ih
        (a := { a with
          txTail := nextIndex a.txTail udsStm32TxQueueCapacity
          stats := { a.stats with txFrames := a.stats.txFrames+1 } })
        ⟨Queue.advance_lt h.tail,h.head⟩ answers.tail
      refine ⟨hnext,?_,Nat.succ_le_succ hcount⟩
      rw [List.cons_append,← hrest]
      exact hpop

def acceptances (budget : ℕ) (answers : List TxAnswer) : ℕ :=
  ((answers.take budget).takeWhile fun a => a = .accepted).length

/-- The driver is handed the frames that have waited longest, up to the first
that it does not accept. -/
theorem process_sends {can : UdsStm32Can} (h : Indexed can) (budget : ℕ)
    (answers : List TxAnswer) :
    (udsStm32CanProcessTx can budget answers).2.length =
      min (waiting can).length (acceptances budget answers) := by
  induction budget generalizing can answers with
  | zero => exact (Nat.min_zero _).symm
  | succ left ih =>
    rw [process_tx_next]
    split
    · rename_i hempty
      have hnone : waiting can = [] := by
        rw [waiting,hempty,Queue.unread_none h.head]
      rw [hnone]
      exact (Nat.zero_min _).symm
    rename_i hsome
    cases answers with
    | nil => exact (Nat.min_zero _).symm
    | cons answer answers =>
      cases answer with
      | noMailbox => exact (Nat.min_zero _).symm
      | failed => exact (Nat.min_zero _).symm
      | accepted =>
        have hpop : waiting can = can.txQueue.cell can.txTail emptyFrame::waiting
            { can with
              txTail := nextIndex can.txTail udsStm32TxQueueCapacity
              stats := { can.stats with txFrames := can.stats.txFrames+1 } } :=
          Queue.unread_pop h.tail h.head hsome
        have hrest := @ih
          { can with
            txTail := nextIndex can.txTail udsStm32TxQueueCapacity
            stats := { can.stats with txFrames := can.stats.txFrames+1 } }
          ⟨Queue.advance_lt h.tail,h.head⟩ answers
        have hcount : acceptances (left+1) (.accepted::answers) = acceptances left answers+1 := rfl
        rw [hpop,hcount,List.length_cons,Nat.add_min_add_right]
        exact congrArg (·+1) hrest

theorem process_step (a : UdsStm32Can) (budget : UInt32) (answers : List TxAnswer) :
    txQueueStep a (.process budget answers) =
      ((udsStm32CanProcessTx a budget.toNat answers).1,
        [.processed budget answers (udsStm32CanProcessTx a budget.toNat answers).2.length
          (udsStm32CanProcessTx a budget.toNat answers).2]) := by
  rw [txQueueStep,loop_counts,Nat.zero_add]

structure Ordered (a : UdsStm32Can) (past : List TxQueueRecord) : Prop where
  indexed : Indexed a
  order : (acceptedFrames past).map frameContent =
    (sentFrames past).map frameContent++(waiting a).map frameContent

theorem ordered_step (a : UdsStm32Can) (past : List TxQueueRecord) (call : TxQueueCall)
    (h : Ordered a past) :
    Ordered (txQueueStep a call).1 (past++(txQueueStep a call).2) := by
  cases call with
  | queue frame =>
    obtain ⟨hindexed,hwaiting⟩ := queue_waiting h.indexed frame
    refine ⟨hindexed,?_⟩
    have hsent : sentFrames (past++(txQueueStep a (.queue frame)).2) = sentFrames past := by
      simp [sentFrames,txQueueStep]
    have haccepted : acceptedFrames (past++(txQueueStep a (.queue frame)).2) =
        acceptedFrames past++if (udsStm32CanTxQueue a frame).2 = .queued then [frame] else [] := by
      rw [acceptedFrames,List.filterMap_append]
      cases hr : (udsStm32CanTxQueue a frame).2 <;> simp [txQueueStep,acceptedFrames,hr]
    have hstep : (txQueueStep a (.queue frame)).1 = (udsStm32CanTxQueue a frame).1 := rfl
    rw [hsent,haccepted,hstep,hwaiting,List.map_append,h.order,List.append_assoc]
    split <;> rfl
  | process budget answers =>
    obtain ⟨hindexed,hwaiting,_⟩ := process_waiting h.indexed budget.toNat answers
    rw [process_step]
    refine ⟨hindexed,?_⟩
    have haccepted : ∀ count sent, acceptedFrames (past++[.processed budget answers count sent]) =
        acceptedFrames past := by
      intro count sent
      simp [acceptedFrames,List.filterMap_append]
    have hsent : ∀ count sent, sentFrames (past++[.processed budget answers count sent]) =
        sentFrames past++sent := by
      intro count sent
      simp [sentFrames]
    rw [haccepted,hsent,h.order,hwaiting,List.map_append,List.map_append,List.append_assoc]

/-- A call of the transmit loop keeps to its budget and returns what it sent: a frame
for each acceptance of the driver, as long as frames wait. -/
def CountsSent (past : List TxQueueRecord) : TxQueueRecord → Prop
  | .processed budget answers count sent =>
    sent.length ≤ budget.toNat ∧ count = sent.length ∧
      count = min ((acceptedFrames past).length-(sentFrames past).length)
        (acceptances budget.toNat answers)
  | .queued _ _ => True

theorem ordered_waiting {a : UdsStm32Can} {past : List TxQueueRecord} (h : Ordered a past) :
    (waiting a).length = (acceptedFrames past).length-(sentFrames past).length := by
  have hlength := congrArg List.length h.order
  rw [List.length_append,List.length_map,List.length_map,List.length_map] at hlength
  rw [hlength,Nat.add_sub_cancel_left]

theorem step_counts (a : UdsStm32Can) (past : List TxQueueRecord) (call : TxQueueCall)
    (h : Ordered a past) : ∃ r, (txQueueStep a call).2 = [r] ∧ CountsSent past r := by
  cases call with
  | queue frame => exact ⟨_,rfl,trivial⟩
  | process budget answers =>
    obtain ⟨_,_,hcount⟩ := process_waiting h.indexed budget.toNat answers
    have hsent := process_sends h.indexed budget.toNat answers
    rw [ordered_waiting h] at hsent
    rw [process_step]
    exact ⟨_,rfl,hcount,rfl,hsent⟩

/-- Under any calls and answers of the driver, the frames that it accepted are
the first ones of those that the queue accepted, and the others still wait. -/
theorem frames_sent_in_order (requestId responseId : UInt32) (calls : List TxQueueCall) :
    let done := run txQueueStep (udsStm32CanBind requestId responseId) calls
    (sentFrames done.2).map frameContent <+: (acceptedFrames done.2).map frameContent ∧
      (acceptedFrames done.2).map frameContent =
        (sentFrames done.2).map frameContent++(waiting done.1).map frameContent ∧
      Always CountsSent done.2 := by
  intro done
  have hstart : Ordered (udsStm32CanBind requestId responseId) [] :=
    ⟨⟨Nat.zero_lt_succ 7,Nat.zero_lt_succ 7⟩,rfl⟩
  have hdone := along_history txQueueStep (fun _ _ => True)
    (fun a past => Ordered a past ∧ Always CountsSent past) (fun a past call h _ => ?_)
    (udsStm32CanBind requestId responseId) [] calls ⟨hstart,always_nil⟩ (along_true _ _ _)
  · exact ⟨⟨_,hdone.1.order.symm⟩,hdone.1.order,hdone.2⟩
  · obtain ⟨r,hr,hcounts⟩ := step_counts a past call h.1
    refine ⟨ordered_step a past call h.1,?_⟩
    rw [hr]
    exact always_concat h.2 hcounts

end CanopenReference.TxQueue
