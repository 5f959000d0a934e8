import CanopenReference.IsoTpTransmitter

/-!
# Frames at or after the deadline

Neither the receiver nor the flow-control input of the transmitter looks at
its deadline. A frame that comes too late and would have been taken in time is
therefore taken all the same, and the transfer goes on.
-/

set_option autoImplicit false

namespace CanopenReference.IsoTpDeadlines
open Library Library.Runs IsoTp IsoTpReceiver IsoTpDelivery IsoTpTransmitter

def rxLate (rx : IsoTpRx) (now : UInt32) : Bool := rx.active && deadlineExpired now rx.deadlineMs

def txLate (tx : IsoTpTx) (now : UInt32) : Bool := tx.active && deadlineExpired now tx.deadlineMs

theorem rx_tick_eq (rx : IsoTpRx) (now : UInt32) :
    isotpRxTick rx now = if rxLate rx now then (isotpRxReset rx,.errTimeout) else (rx,.ok) := by
  unfold isotpRxTick rxLate
  cases rx.active with
  | false => rfl
  | true => cases deadlineExpired now rx.deadlineMs <;> rfl

theorem tx_tick_eq (tx : IsoTpTx) (now : UInt32) :
    isotpTxTick tx now = if txLate tx now then (isotpTxReset tx,.errTimeout) else (tx,.ok) := by
  unfold isotpTxTick txLate
  cases tx.active with
  | false => rfl
  | true => cases deadlineExpired now tx.deadlineMs <;> rfl

/-- A late consecutive frame leaves the reception alone or ends it, and
nothing comes of it. -/
def RxEnforced (rx : IsoTpRx) : RxCall → Prop
  | .feed f now => rxLate rx now = true → Consecutive rx.requestId f →
      ((isotpRxFeed rx f now).1 = rx ∨ (isotpRxFeed rx f now).1 = isotpRxReset rx) ∧
        (isotpRxFeed rx f now).2.2 = noEvent
  | .tick _ => True

/-- No consecutive frame with the expected sequence number comes late. -/
def RxInTime (rx : IsoTpRx) : RxCall → Prop
  | .feed f now => ¬(rxLate rx now = true ∧ Consecutive rx.requestId f ∧
      f.byte 0 &&& 0x0F = rx.nextSequence)
  | .tick _ => True

theorem sequence_moves (x : UInt8) : (x+1) &&& 0x0F ≠ x := by
  have h : ∀ i : Fin 256, (UInt8.ofNat i.val+1) &&& 0x0F ≠ UInt8.ofNat i.val := by decide +kernel
  have hx := h ⟨x.toNat,x.toNat_lt⟩
  simpa using hx

theorem rx_enforced_iff (rx : IsoTpRx) (call : RxCall) :
    RxEnforced rx call ↔ RxInTime rx call := by
  cases call with
  | tick now => exact Iff.rfl
  | feed f now =>
    have ho := rx_outcome rx f now
    simp only [RxEnforced,RxInTime]
    generalize isotpRxFeed rx f now = r at ho ⊢
    constructor
    · rintro henforced ⟨hlate,hnext,hsequence⟩
      obtain ⟨hstate,hevent⟩ := henforced hlate hnext
      have hactive : rx.active = true := (Bool.and_eq_true_iff.mp hlate).1
      cases ho with
      | ignored _ _ _ _ hidle => exact absurd ((hidle hnext).1.symm.trans hactive) Bool.false_ne_true
      | single hsingle => exact absurd (hsingle.2.1.symm.trans hnext.2.2) (by decide)
      | refused _ _ hfirst _ => exact absurd (hfirst.2.2.symm.trans hnext.2.2) (by decide)
      | started hfirst _ _ => exact absurd (hfirst.2.2.symm.trans hnext.2.2) (by decide)
      | outOfSequence _ _ hwrong => exact hwrong hsequence
      | extended _ _ _ _ _ =>
        rcases hstate with hstate | hstate
        · exact sequence_moves _ (congrArg IsoTpRx.nextSequence hstate)
        · exact absurd ((congrArg IsoTpRx.active hstate).symm.trans hactive) Bool.false_ne_true
      | blockEnd _ _ _ _ _ => cases hevent
      | finished _ _ _ _ => cases hevent
    · intro hin hlate hnext
      have hactive : rx.active = true := (Bool.and_eq_true_iff.mp hlate).1
      have hwrong : f.byte 0 &&& 0x0F ≠ rx.nextSequence := fun hs => hin ⟨hlate,hnext,hs⟩
      cases ho with
      | ignored _ _ _ _ hidle => exact absurd ((hidle hnext).1.symm.trans hactive) Bool.false_ne_true
      | single hsingle => exact absurd (hsingle.2.1.symm.trans hnext.2.2) (by decide)
      | refused _ _ hfirst _ => exact absurd (hfirst.2.2.symm.trans hnext.2.2) (by decide)
      | started hfirst _ _ => exact absurd (hfirst.2.2.symm.trans hnext.2.2) (by decide)
      | outOfSequence _ _ _ => exact ⟨Or.inr rfl,rfl⟩
      | extended _ _ hs _ _ => exact absurd hs hwrong
      | blockEnd _ _ hs _ _ => exact absurd hs hwrong
      | finished _ _ hs _ => exact absurd hs hwrong

/-- Everything that can be asked of a transmitter. -/
inductive TransmitterCall where
  | start (payload : List UInt8) (nowMs : UInt32)
  | flowControl (frame : IsoTpCanFrame) (nowMs : UInt32)
  | next (nowMs : UInt32)
  | tick (nowMs : UInt32)
  deriving DecidableEq

structure TransmitterRecord where
  call : TransmitterCall
  status : IsoTpStatus
  frame : Option IsoTpCanFrame
  deriving DecidableEq

def transmitterStep (tx : IsoTpTx) (call : TransmitterCall) : IsoTpTx × List TransmitterRecord :=
  match call with
  | .start p now =>
    let r := isotpTxStart tx p now
    (r.1,[⟨call,r.2.1,r.2.2⟩])
  | .flowControl f now =>
    let r := isotpTxFeedFlowControl tx f now
    (r.1,[⟨call,r.2,none⟩])
  | .next now =>
    let r := isotpTxNext tx now
    (r.1,[⟨call,r.2.1,r.2.2⟩])
  | .tick now =>
    let r := isotpTxTick tx now
    (r.1,[⟨call,r.2,none⟩])

def FlowControl (id : UInt32) (f : IsoTpCanFrame) : Prop := Addressed id f ∧ pciType f = 3

/-- A late flow-control frame leaves the transfer alone or ends it. -/
def TxEnforced (tx : IsoTpTx) : TransmitterCall → Prop
  | .flowControl f now => txLate tx now = true → FlowControl tx.requestId f →
      (isotpTxFeedFlowControl tx f now).1 = tx ∨
        (isotpTxFeedFlowControl tx f now).1 = isotpTxReset tx
  | _ => True

/-- The transmitter waits for the frame and takes it as Clear-To-Send, or as
one more Wait than so far. -/
def Takes (tx : IsoTpTx) (f : IsoTpCanFrame) : Prop :=
  tx.waitingFlowControl = true ∧ 3 ≤ f.dlc ∧ ValidStMin (f.byte 2) ∧
    (f.byte 0 &&& 0x0F = isotpFcCts ∨
      f.byte 0 &&& 0x0F = isotpFcWait ∧ tx.waitFrames < tx.config.maxWaitFrames)

/-- No flow-control frame that the transmitter takes comes late. -/
def TxInTime (tx : IsoTpTx) : TransmitterCall → Prop
  | .flowControl f now => ¬(txLate tx now = true ∧ FlowControl tx.requestId f ∧ Takes tx f)
  | _ => True

theorem flow_control_effect {tx : IsoTpTx} {f : IsoTpCanFrame} (now : UInt32)
    (hactive : tx.active = true) (hf : FlowControl tx.requestId f) :
    (¬Takes tx f ∧ ((isotpTxFeedFlowControl tx f now).1 = tx ∨
        (isotpTxFeedFlowControl tx f now).1 = isotpTxReset tx)) ∨
      (Takes tx f ∧ (isotpTxFeedFlowControl tx f now).1.active = true ∧
        ((isotpTxFeedFlowControl tx f now).1.waitingFlowControl = false ∨
          (isotpTxFeedFlowControl tx f now).1.waitFrames = tx.waitFrames+1)) := by
  obtain ⟨⟨hid,hdlc⟩,hpci⟩ := hf
  have ho := flow_outcome tx f now
  generalize isotpTxFeedFlowControl tx f now = r at ho ⊢
  cases ho with
  | refused hno =>
    refine Or.inl ⟨fun ht => ?_,Or.inl rfl⟩
    exact hno ⟨hdlc,hid,hactive,ht.1,ht.2.1,hpci⟩
  | reserved _ hs =>
    refine Or.inl ⟨fun ht => ?_,Or.inl rfl⟩
    rcases ht.2.2.2 with hcts | ⟨hwait,_⟩
    · exact hs.2.1 hcts
    · exact hs.2.2 hwait
  | stopped _ hs =>
    refine Or.inl ⟨fun ht => ?_,Or.inr rfl⟩
    rcases hs with hover | ⟨_,hst⟩ | ⟨hwait,hmax⟩
    · rcases ht.2.2.2 with hs | ⟨hs,_⟩ <;> exact absurd (hover.symm.trans hs) (by decide)
    · exact hst ht.2.2.1
    · rcases ht.2.2.2 with hs | ⟨_,hlt⟩
      · exact absurd (hwait.symm.trans hs) (by decide)
      · exact absurd hlt (UInt8.not_lt.mpr hmax)
  | waits hf hs hst hleft =>
    exact Or.inr ⟨⟨hf.waiting,hf.dlcLow,hst,Or.inr ⟨hs,hleft⟩⟩,hactive,Or.inr rfl⟩
  | clears hf hs hst =>
    exact Or.inr ⟨⟨hf.waiting,hf.dlcLow,hst,Or.inl hs⟩,hactive,Or.inl rfl⟩

theorem tx_enforced_iff (tx : IsoTpTx) (call : TransmitterCall) :
    TxEnforced tx call ↔ TxInTime tx call := by
  cases call with
  | flowControl f now =>
    simp only [TxEnforced,TxInTime]
    by_cases hlate : txLate tx now = true ∧ FlowControl tx.requestId f
    · obtain ⟨hlate,hf⟩ := hlate
      have hactive : tx.active = true := (Bool.and_eq_true_iff.mp hlate).1
      rcases flow_control_effect now hactive hf with ⟨hnot,hstate⟩ | ⟨htakes,hstill,hmoved⟩
      · exact iff_of_true (fun _ _ => hstate) fun h => hnot h.2.2
      · refine iff_of_false (fun h => ?_) fun h => h ⟨hlate,hf,htakes⟩
        rcases h hlate hf with hstate | hstate
        · rw [hstate] at hmoved
          rcases hmoved with hmoved | hmoved
          · exact absurd (hmoved.symm.trans htakes.1) Bool.false_ne_true
          · have hne : tx.waitFrames+1 ≠ tx.waitFrames := by simp
            exact hne hmoved.symm
        · rw [hstate] at hstill
          cases hstill
    · refine iff_of_true (fun hl hf => absurd ⟨hl,hf⟩ hlate) fun h => hlate ⟨h.1,h.2.1⟩
  | start p now => exact Iff.rfl
  | next now => exact Iff.rfl
  | tick now => exact Iff.rfl

end CanopenReference.IsoTpDeadlines
