import CanopenReference.Library.Buffer
import CanopenReference.Library.Clock

/-!
# ISO-TP segmentation and reassembly

The receiver and the transmitter of `isotp.c`, branch by branch. Null
pointers are excluded by the types. A receive event shows the bytes behind
its payload pointer; a transmit call shows the frame only when it made one.
-/

set_option autoImplicit false

namespace CanopenReference.IsoTp
open Library

def isotpMaxPayload : ℕ := 4095
def isotpMaxFrameData : ℕ := 8

structure IsoTpCanFrame where
  canId : UInt32
  dlc : ℕ
  data : Buffer UInt8 isotpMaxFrameData
  deriving DecidableEq

inductive IsoTpStatus where
  | ok
  | complete
  | needFlowControl
  | txFrameReady
  | errArgument
  | errFormat
  | errSequence
  | errOverflow
  | errTimeout
  | errState
  | errFlowControl
  deriving DecidableEq, Repr

/-- The flow statuses `ISOTP_FC_CTS`, `ISOTP_FC_WAIT` and `ISOTP_FC_OVERFLOW`. -/
def isotpFcCts : UInt8 := 0x00
def isotpFcWait : UInt8 := 0x01
def isotpFcOverflow : UInt8 := 0x02

structure IsoTpConfig where
  blockSize : UInt8
  stMin : UInt8
  rxTimeoutMs : UInt32
  txTimeoutMs : UInt32
  maxWaitFrames : UInt8
  deriving DecidableEq

def isotpConfigDefault : IsoTpConfig where
  blockSize := 8
  stMin := 0
  rxTimeoutMs := 1000
  txTimeoutMs := 1000
  maxWaitFrames := 3

structure IsoTpRx where
  config : IsoTpConfig
  requestId : UInt32
  responseId : UInt32
  buffer : Buffer UInt8 isotpMaxPayload
  expectedLen : ℕ
  receivedLen : ℕ
  nextSequence : UInt8
  blockCount : UInt8
  deadlineMs : UInt32
  active : Bool
  deriving DecidableEq

structure IsoTpTx where
  config : IsoTpConfig
  requestId : UInt32
  responseId : UInt32
  buffer : Buffer UInt8 isotpMaxPayload
  payloadLen : ℕ
  offset : ℕ
  nextSequence : UInt8
  blockCount : UInt8
  remoteBlockSize : UInt8
  remoteStMin : UInt8
  deadlineMs : UInt32
  nextFrameMs : UInt32
  active : Bool
  waitingFlowControl : Bool
  waitFrames : UInt8
  deriving DecidableEq

structure IsoTpRxEvent where
  payload : Option (List UInt8)
  flowControl : Option IsoTpCanFrame
  deriving DecidableEq

def noEvent : IsoTpRxEvent := ⟨none,none⟩

def deadlineExpired (nowMs deadlineMs : UInt32) : Bool := Clock.reached nowMs deadlineMs

def clearFrame (canId : UInt32) : IsoTpCanFrame := ⟨canId,0,Buffer.blank _ 0⟩

def filledFrame (canId : UInt32) (bytes : List UInt8) : IsoTpCanFrame :=
  { clearFrame canId with dlc := bytes.length, data := (clearFrame canId).data.write 0 bytes }

def IsoTpCanFrame.byte (frame : IsoTpCanFrame) (i : ℕ) : UInt8 := frame.data.cell i 0

def stMinToMs (stMin : UInt8) : UInt32 := if stMin ≤ 0x7F then stMin.toUInt32 else 1

def isotpRxReset (rx : IsoTpRx) : IsoTpRx :=
  { rx with
    expectedLen := 0, receivedLen := 0, nextSequence := 1, blockCount := 0,
    deadlineMs := 0, active := false }

def isotpRxInit (rx : IsoTpRx) (config : Option IsoTpConfig) (requestId responseId : UInt32) :
    IsoTpRx :=
  isotpRxReset
    { rx with
      config := config.getD isotpConfigDefault, requestId := requestId, responseId := responseId }

def rxMakeFlowControl (rx : IsoTpRx) : IsoTpCanFrame :=
  filledFrame rx.responseId [0x30,rx.config.blockSize,rx.config.stMin]

def pciType (frame : IsoTpCanFrame) : UInt8 := frame.byte 0 >>> 4
def pciLow (frame : IsoTpCanFrame) : ℕ := (frame.byte 0 &&& 0x0F).toNat

def rxSingleFrame (rx : IsoTpRx) (frame : IsoTpCanFrame) :
    IsoTpRx × IsoTpStatus × IsoTpRxEvent :=
  let length := pciLow frame
  if length = 0 ∨ 7 < length ∨ frame.dlc-1 < length then (rx,.errFormat,noEvent)
  else
    let buffer := rx.buffer.write 0 (frame.data.slice 1 length)
    ({ isotpRxReset rx with buffer := buffer },.complete,⟨some (buffer.front length),none⟩)

def firstFrameLength (frame : IsoTpCanFrame) : ℕ := pciLow frame*256+(frame.byte 1).toNat

def rxFirstFrame (rx : IsoTpRx) (frame : IsoTpCanFrame) (nowMs : UInt32) :
    IsoTpRx × IsoTpStatus × IsoTpRxEvent :=
  if frame.dlc < 2 then (rx,.errFormat,noEvent)
  else
    let length := firstFrameLength frame
    if length ≤ 7 ∨ isotpMaxPayload < length then
      (isotpRxReset rx,if isotpMaxPayload < length then .errOverflow else .errFormat,noEvent)
    else
      let receivedLen := min (frame.dlc-2) length
      ({ rx with
          expectedLen := length
          receivedLen := receivedLen
          buffer := rx.buffer.write 0 (frame.data.slice 2 receivedLen)
          nextSequence := 1
          blockCount := 0
          deadlineMs := nowMs+rx.config.rxTimeoutMs
          active := true },
        .needFlowControl,⟨none,some (rxMakeFlowControl rx)⟩)

def rxConsecutiveFrame (rx : IsoTpRx) (frame : IsoTpCanFrame) (nowMs : UInt32) :
    IsoTpRx × IsoTpStatus × IsoTpRxEvent :=
  if !rx.active then (rx,.errState,noEvent)
  else if frame.byte 0 &&& 0x0F ≠ rx.nextSequence then (isotpRxReset rx,.errSequence,noEvent)
  else
    let available := if 1 < frame.dlc then frame.dlc-1 else 0
    let copyLen := min available (rx.expectedLen-rx.receivedLen)
    let next : IsoTpRx :=
      { rx with
        buffer := rx.buffer.write rx.receivedLen (frame.data.slice 1 copyLen)
        receivedLen := rx.receivedLen+copyLen
        nextSequence := (rx.nextSequence+1) &&& 0x0F
        blockCount := rx.blockCount+1
        deadlineMs := nowMs+rx.config.rxTimeoutMs }
    if next.expectedLen ≤ next.receivedLen then
      ({ next with active := false },.complete,⟨some (next.buffer.front next.expectedLen),none⟩)
    else if rx.config.blockSize ≠ 0 ∧ rx.config.blockSize ≤ next.blockCount then
      ({ next with blockCount := 0 },.needFlowControl,⟨none,some (rxMakeFlowControl rx)⟩)
    else (next,.ok,noEvent)

def isotpRxFeed (rx : IsoTpRx) (frame : IsoTpCanFrame) (nowMs : UInt32) :
    IsoTpRx × IsoTpStatus × IsoTpRxEvent :=
  if isotpMaxFrameData < frame.dlc then (rx,.errArgument,noEvent)
  else if frame.canId ≠ rx.requestId then (rx,.ok,noEvent)
  else if frame.dlc = 0 then (rx,.errFormat,noEvent)
  else if pciType frame = 0 then rxSingleFrame rx frame
  else if pciType frame = 1 then rxFirstFrame rx frame nowMs
  else if pciType frame = 2 then rxConsecutiveFrame rx frame nowMs
  else (rx,if pciType frame = 3 then .errState else .errFormat,noEvent)

def isotpRxTick (rx : IsoTpRx) (nowMs : UInt32) : IsoTpRx × IsoTpStatus :=
  if !rx.active then (rx,.ok)
  else if deadlineExpired nowMs rx.deadlineMs then (isotpRxReset rx,.errTimeout)
  else (rx,.ok)

def isotpTxReset (tx : IsoTpTx) : IsoTpTx :=
  { tx with
    payloadLen := 0, offset := 0, nextSequence := 1, blockCount := 0, remoteBlockSize := 0,
    remoteStMin := 0, deadlineMs := 0, nextFrameMs := 0, active := false,
    waitingFlowControl := false, waitFrames := 0 }

def isotpTxInit (tx : IsoTpTx) (config : Option IsoTpConfig) (requestId responseId : UInt32) :
    IsoTpTx :=
  isotpTxReset
    { tx with
      config := config.getD isotpConfigDefault, requestId := requestId, responseId := responseId }

def isotpTxStart (tx : IsoTpTx) (payload : List UInt8) (nowMs : UInt32) :
    IsoTpTx × IsoTpStatus × Option IsoTpCanFrame :=
  let length := payload.length
  if length = 0 then (tx,.errArgument,none)
  else if isotpMaxPayload < length then (tx,.errOverflow,none)
  else
    let started : IsoTpTx :=
      { tx with
        buffer := tx.buffer.write 0 payload
        payloadLen := length
        offset := 0
        nextSequence := 1
        blockCount := 0
        deadlineMs := nowMs+tx.config.txTimeoutMs }
    if length ≤ 7 then
      (isotpTxReset started,.txFrameReady,
        some (filledFrame tx.responseId (UInt8.ofNat length::payload)))
    else
      ({ started with offset := 6, active := true, waitingFlowControl := true },.txFrameReady,
        some (filledFrame tx.responseId
          ((0x10 ||| (UInt8.ofNat (length/256) &&& 0x0F))::UInt8.ofNat (length%256)::
            payload.take 6)))

def isotpTxFeedFlowControl (tx : IsoTpTx) (frame : IsoTpCanFrame) (nowMs : UInt32) :
    IsoTpTx × IsoTpStatus :=
  if isotpMaxFrameData < frame.dlc then (tx,.errArgument)
  else if frame.canId ≠ tx.requestId then (tx,.ok)
  else if !tx.active || !tx.waitingFlowControl || decide (frame.dlc < 3) ||
      pciType frame != 3 then (tx,.errState)
  else
    let flowStatus := frame.byte 0 &&& 0x0F
    if flowStatus = isotpFcOverflow then (isotpTxReset tx,.errFlowControl)
    else if flowStatus ≠ isotpFcCts ∧ flowStatus ≠ isotpFcWait then (tx,.errFlowControl)
    else
      let stMin := frame.byte 2
      if ¬(stMin ≤ 0x7F ∨ 0xF1 ≤ stMin ∧ stMin ≤ 0xF9) then (isotpTxReset tx,.errFlowControl)
      else
        let updated : IsoTpTx :=
          { tx with
            remoteBlockSize := frame.byte 1
            remoteStMin := stMin
            deadlineMs := nowMs+tx.config.txTimeoutMs }
        if flowStatus = isotpFcWait then
          if tx.config.maxWaitFrames ≤ tx.waitFrames then (isotpTxReset updated,.errFlowControl)
          else
            ({ updated with waitFrames := tx.waitFrames+1, waitingFlowControl := true },.ok)
        else
          ({ updated with
              waitFrames := 0, waitingFlowControl := false, blockCount := 0,
              nextFrameMs := nowMs },.ok)

def isotpTxNext (tx : IsoTpTx) (nowMs : UInt32) : IsoTpTx × IsoTpStatus × Option IsoTpCanFrame :=
  if !tx.active then (tx,.ok,none)
  else if tx.waitingFlowControl then (tx,.ok,none)
  else if deadlineExpired nowMs tx.deadlineMs then (isotpTxReset tx,.errTimeout,none)
  else if !deadlineExpired nowMs tx.nextFrameMs then (tx,.ok,none)
  else if tx.payloadLen ≤ tx.offset then (isotpTxReset tx,.complete,none)
  else
    let remaining := tx.payloadLen-tx.offset
    let copyLen := if 7 < remaining then 7 else remaining
    let sent : IsoTpTx :=
      { tx with
        offset := tx.offset+copyLen
        nextSequence := (tx.nextSequence+1) &&& 0x0F
        blockCount := tx.blockCount+1
        deadlineMs := nowMs+tx.config.txTimeoutMs
        nextFrameMs := nowMs+stMinToMs tx.remoteStMin }
    let blocked : Bool := tx.remoteBlockSize ≠ 0 ∧ tx.remoteBlockSize ≤ sent.blockCount ∧
      sent.offset < sent.payloadLen
    (if blocked then { sent with blockCount := 0, waitingFlowControl := true } else sent,
      .txFrameReady,
      some (filledFrame tx.responseId
        ((0x20 ||| tx.nextSequence)::tx.buffer.slice tx.offset copyLen)))

def isotpTxTick (tx : IsoTpTx) (nowMs : UInt32) : IsoTpTx × IsoTpStatus :=
  if !tx.active then (tx,.ok)
  else if deadlineExpired nowMs tx.deadlineMs then (isotpTxReset tx,.errTimeout)
  else (tx,.ok)

end CanopenReference.IsoTp
