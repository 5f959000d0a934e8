import CanopenReference.IsoTp

/-!
# The CAN adapter of the diagnostic node

The two bounded rings of `uds_stm32.c` with their counters, for an adapter that
is bound. The answers of the CAN driver are inputs of the transmit loop.
-/

set_option autoImplicit false

namespace CanopenReference.UdsStm32
open Library IsoTp

def udsStm32RxQueueCapacity : ℕ := 8
def udsStm32TxQueueCapacity : ℕ := 8
def udsStm32RxBudgetPerCall : ℕ := 4
def udsStm32TxBudgetPerCall : ℕ := 4
def udsRxCanId : UInt32 := 0x7E0
def udsTxCanId : UInt32 := 0x7E8

structure UdsStm32CanStats where
  rxFrames : UInt32
  txFrames : UInt32
  rxOverflow : UInt32
  txOverflow : UInt32
  txMailboxExhausted : UInt32
  rxInvalid : UInt32
  rxTimeouts : UInt32
  txTimeouts : UInt32
  busErrors : UInt32
  busOffEvents : UInt32
  deriving DecidableEq

structure UdsStm32Can where
  rxQueue : Buffer IsoTpCanFrame udsStm32RxQueueCapacity
  txQueue : Buffer IsoTpCanFrame udsStm32TxQueueCapacity
  rxHead : ℕ
  rxTail : ℕ
  txHead : ℕ
  txTail : ℕ
  stats : UdsStm32CanStats
  requestId : UInt32
  responseId : UInt32
  deriving DecidableEq

/-- How the driver answers one attempt to send a frame. -/
inductive TxAnswer where
  | noMailbox
  | failed
  | accepted
  deriving DecidableEq

inductive TxQueueResult where
  | queued
  | invalid
  | again
  deriving DecidableEq

def nextIndex (index capacity : ℕ) : ℕ := if index+1 = capacity then 0 else index+1

def validFrame (id : UInt32) (dlc : ℕ) : Bool := dlc ≤ isotpMaxFrameData ∧ id ≤ 0x7FF

def noStats : UdsStm32CanStats := ⟨0,0,0,0,0,0,0,0,0,0⟩

def emptyFrame : IsoTpCanFrame := clearFrame 0

def udsStm32CanBind (requestId responseId : UInt32) : UdsStm32Can where
  rxQueue := Buffer.blank _ emptyFrame
  txQueue := Buffer.blank _ emptyFrame
  rxHead := 0
  rxTail := 0
  txHead := 0
  txTail := 0
  stats := noStats
  requestId := requestId
  responseId := responseId

/-- The copy of the first `dlc` data bytes into a slot. -/
def fillSlot (slot frame : IsoTpCanFrame) : IsoTpCanFrame :=
  { frame with data := slot.data.write 0 (frame.data.front frame.dlc) }

def udsStm32CanRxFromIsr (a : UdsStm32Can) (frame : IsoTpCanFrame) : UdsStm32Can :=
  if !validFrame frame.canId frame.dlc then
    { a with stats := { a.stats with rxInvalid := a.stats.rxInvalid+1 } }
  else if frame.canId ≠ a.requestId ∧ frame.canId ≠ a.responseId then a
  else if nextIndex a.rxHead udsStm32RxQueueCapacity = a.rxTail then
    { a with stats := { a.stats with rxOverflow := a.stats.rxOverflow+1 } }
  else
    { a with
      rxQueue := a.rxQueue.write a.rxHead [fillSlot (a.rxQueue.cell a.rxHead emptyFrame) frame]
      rxHead := nextIndex a.rxHead udsStm32RxQueueCapacity
      stats := { a.stats with rxFrames := a.stats.rxFrames+1 } }

def udsStm32CanRxPop (a : UdsStm32Can) : UdsStm32Can × Option IsoTpCanFrame :=
  if a.rxTail = a.rxHead then (a,none)
  else
    ({ a with rxTail := nextIndex a.rxTail udsStm32RxQueueCapacity },
      some (fillSlot emptyFrame (a.rxQueue.cell a.rxTail emptyFrame)))

def udsStm32CanTxQueue (a : UdsStm32Can) (frame : IsoTpCanFrame) : UdsStm32Can × TxQueueResult :=
  if !validFrame frame.canId frame.dlc ∨ frame.canId ≠ a.responseId then (a,.invalid)
  else if nextIndex a.txHead udsStm32TxQueueCapacity = a.txTail then
    ({ a with stats := { a.stats with txOverflow := a.stats.txOverflow+1 } },.again)
  else
    ({ a with
        txQueue := a.txQueue.write a.txHead [fillSlot (a.txQueue.cell a.txHead emptyFrame) frame]
        txHead := nextIndex a.txHead udsStm32TxQueueCapacity },
      .queued)

/-- The transmit loop with its count and the frames that the driver accepted, for at
most `left` further frames. Without a further answer there is no free mailbox. -/
def processTxLoop (processed : ℕ) :
    UdsStm32Can → ℕ → List TxAnswer → UdsStm32Can × ℕ × List IsoTpCanFrame
  | a, 0, _ => (a,processed,[])
  | a, left+1, answers =>
    if a.txTail = a.txHead then (a,processed,[])
    else
      match answers.headD .noMailbox with
      | .noMailbox =>
        ({ a with stats := { a.stats with txMailboxExhausted := a.stats.txMailboxExhausted+1 } },
          processed,[])
      | .failed =>
        ({ a with stats := { a.stats with busErrors := a.stats.busErrors+1 } },processed,[])
      | .accepted =>
        let slot := a.txQueue.cell a.txTail emptyFrame
        let rest := processTxLoop (processed+1)
          { a with
            txTail := nextIndex a.txTail udsStm32TxQueueCapacity
            stats := { a.stats with txFrames := a.stats.txFrames+1 } } left answers.tail
        (rest.1,rest.2.1,slot::rest.2.2)

def udsStm32CanProcessTx (a : UdsStm32Can) (budget : ℕ) (answers : List TxAnswer) :
    UdsStm32Can × List IsoTpCanFrame :=
  let done := processTxLoop 0 a budget answers
  (done.1,done.2.2)

theorem loop_counts (processed : ℕ) (a : UdsStm32Can) (budget : ℕ) (answers : List TxAnswer) :
    processTxLoop processed a budget answers =
      ((udsStm32CanProcessTx a budget answers).1,
        processed+(udsStm32CanProcessTx a budget answers).2.length,
        (udsStm32CanProcessTx a budget answers).2) := by
  unfold udsStm32CanProcessTx
  induction budget generalizing processed a answers with
  | zero => rfl
  | succ left ih =>
    rw [processTxLoop,processTxLoop]
    split
    · rfl
    cases answers.headD .noMailbox with
    | noMailbox => rfl
    | failed => rfl
    | accepted =>
      dsimp only
      rw [ih (processed+1),ih (0+1)]
      simp only [List.length_cons,Nat.add_assoc,Nat.add_comm 1]

theorem process_tx_next (a : UdsStm32Can) (budget : ℕ) (answers : List TxAnswer) :
    udsStm32CanProcessTx a (budget+1) answers =
      if a.txTail = a.txHead then (a,[])
      else
        match answers.headD .noMailbox with
        | .noMailbox =>
          ({ a with stats := { a.stats with txMailboxExhausted := a.stats.txMailboxExhausted+1 } },
            [])
        | .failed => ({ a with stats := { a.stats with busErrors := a.stats.busErrors+1 } },[])
        | .accepted =>
          let rest := udsStm32CanProcessTx
            { a with
              txTail := nextIndex a.txTail udsStm32TxQueueCapacity
              stats := { a.stats with txFrames := a.stats.txFrames+1 } } budget answers.tail
          (rest.1,a.txQueue.cell a.txTail emptyFrame::rest.2) := by
  show ((processTxLoop 0 a (budget+1) answers).1,(processTxLoop 0 a (budget+1) answers).2.2) = _
  rw [processTxLoop]
  split
  · rfl
  cases answers.headD .noMailbox with
  | noMailbox => rfl
  | failed => rfl
  | accepted =>
    dsimp only
    rw [loop_counts]

def udsStm32CanNoteRxTimeout (a : UdsStm32Can) : UdsStm32Can :=
  { a with stats := { a.stats with rxTimeouts := a.stats.rxTimeouts+1 } }

def udsStm32CanNoteTxTimeout (a : UdsStm32Can) : UdsStm32Can :=
  { a with stats := { a.stats with txTimeouts := a.stats.txTimeouts+1 } }

end CanopenReference.UdsStm32
