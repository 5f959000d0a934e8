import CanopenReference.RxRings

/-!
# The standalone CAN facade

The lifecycle of `can_port.c`: binding, start-up, sending, polling and shutdown,
with the receive interrupt between any two steps. A poll that waits is worked off
pass by pass.
-/

set_option autoImplicit false

namespace CanopenReference.PortLifecycle
open Library RxRings

inductive Errno where
  | einval
  | ebusy
  | enodev
  | eio
  | eagain
  deriving DecidableEq

structure CanPortTiming where
  bitrate : UInt32
  prescaler : ℕ
  timeSeg1Tq : ℕ
  timeSeg2Tq : ℕ

def sTimingTable : List CanPortTiming :=
  [⟨10000,216,16,8⟩,⟨20000,108,16,8⟩,⟨50000,60,14,3⟩,⟨125000,27,12,3⟩,⟨250000,12,14,3⟩,
    ⟨500000,6,14,3⟩,⟨800000,4,13,3⟩,⟨1000000,3,14,3⟩]

def canPortFindTiming (bitrate : UInt32) : Option CanPortTiming :=
  sTimingTable.find? fun timing => timing.bitrate = bitrate

inductive TimeSeg1 where
  | canBs1Tq12
  | canBs1Tq13
  | canBs1Tq14
  | canBs1Tq16
  deriving DecidableEq

inductive TimeSeg2 where
  | canBs2Tq3
  | canBs2Tq8
  deriving DecidableEq

/-- The fields of the handle that `can_port_init` sets. -/
structure CanInit where
  prescaler : ℕ
  timeSeg1 : TimeSeg1
  timeSeg2 : TimeSeg2
  deriving DecidableEq

def TimeSeg1.tq : TimeSeg1 → ℕ
  | .canBs1Tq12 => 12
  | .canBs1Tq13 => 13
  | .canBs1Tq14 => 14
  | .canBs1Tq16 => 16

def TimeSeg2.tq : TimeSeg2 → ℕ
  | .canBs2Tq3 => 3
  | .canBs2Tq8 => 8

def CanInit.cycles (fields : CanInit) : ℕ :=
  fields.prescaler*(1+fields.timeSeg1.tq+fields.timeSeg2.tq)

def initFields (timing : CanPortTiming) : CanInit where
  prescaler := timing.prescaler
  timeSeg1 :=
    if timing.timeSeg1Tq = 12 then .canBs1Tq12
    else if timing.timeSeg1Tq = 13 then .canBs1Tq13
    else if timing.timeSeg1Tq = 14 then .canBs1Tq14
    else .canBs1Tq16
  timeSeg2 := if timing.timeSeg2Tq = 3 then .canBs2Tq3 else .canBs2Tq8

abbrev Content := UInt32 × ℕ × List UInt8

/-- What a step does outside of the port: a call of the HAL with its handle, a
frame that is handed to the callback (or to none), and the value returned. -/
inductive PortAction where
  | init (handle : ℕ) (fields : CanInit)
  | start (handle : ℕ)
  | activateNotification (handle : ℕ)
  | deactivateNotification (handle : ℕ)
  | stop (handle : ℕ)
  | getTxMailboxesFreeLevel (handle : ℕ)
  | addTxMessage (handle : ℕ) (stdId : UInt32) (dlc : UInt8) (data : Buffer UInt8 canPortMaxDlc)
  | rx (callback : Option ℕ) (content : Content)
  | returned (value : Except Errno ℕ)

def PortAction.content : PortAction → Option Content
  | .rx _ content => some content
  | _ => none

def PortAction.starts : PortAction → Bool
  | .start _ => true
  | _ => false

def PortAction.handle : PortAction → Option ℕ
  | .init handle _ | .start handle | .activateNotification handle
  | .deactivateNotification handle | .stop handle | .getTxMailboxesFreeLevel handle
  | .addTxMessage handle _ _ _ => some handle
  | .rx _ _ | .returned _ => none

def PortAction.Uses (hcan : Option ℕ) (a : PortAction) : Prop :=
  ∀ handle, a.handle = some handle → hcan = some handle

def emptySlot : CanPortRxFrame := ⟨0,Buffer.blank _ 0,0⟩

structure CanPort where
  hcan : Option ℕ
  rxCallback : Option ℕ
  rxQueue : Buffer CanPortRxFrame canPortRxQueueCapacity
  rxHead : ℕ
  rxTail : ℕ
  rxDropped : UInt32
  /-- The timeout and the start tick of a poll that waits. -/
  waiting : Option (UInt32 × UInt32)

def canPort : CanPort := ⟨none,none,Buffer.blank _ emptySlot,0,0,0,none⟩

def resetRxQueue (p : CanPort) : CanPort := { p with rxHead := 0, rxTail := 0, rxDropped := 0 }

def stm32Bind (p : CanPort) (hcan : Option ℕ) : CanPort × List PortAction :=
  match hcan with
  | none => (p,[.returned (.error .einval)])
  | some handle =>
    if p.hcan.isSome then (p,[.returned (.error .ebusy)])
    else ({ p with hcan := some handle },[.returned (.ok 0)])

structure InitAnswers where
  init : Bool
  start : Bool
  activateNotification : Bool

def canPortInit (p : CanPort) (bitrate : UInt32) (hal : InitAnswers) : CanPort × List PortAction :=
  match p.hcan with
  | none => (p,[.returned (.error .enodev)])
  | some handle =>
    match canPortFindTiming bitrate with
    | none => (p,[.returned (.error .einval)])
    | some timing =>
      if hal.init = false then
        (p,[.init handle (initFields timing),.returned (.error .eio)])
      else if hal.start = false then
        (resetRxQueue p,
          [.init handle (initFields timing),.start handle,.returned (.error .eio)])
      else if hal.activateNotification = false then
        (resetRxQueue p,[.init handle (initFields timing),.start handle,
          .activateNotification handle,.stop handle,.returned (.error .eio)])
      else
        (resetRxQueue p,[.init handle (initFields timing),.start handle,
          .activateNotification handle,.returned (.ok 0)])

def canPortSend (p : CanPort) (id : UInt32) (data : Option (Buffer UInt8 canPortMaxDlc))
    (len : UInt8) (freeLevel : ℕ) (added : Bool) : List PortAction :=
  match p.hcan, data with
  | some handle, some data =>
    if canPortMaxDlc < len.toNat ∨ 0x7FF < id then [.returned (.error .einval)]
    else if freeLevel = 0 then [.getTxMailboxesFreeLevel handle,.returned (.error .eagain)]
    else
      [.getTxMailboxesFreeLevel handle,.addTxMessage handle id len data,
        .returned (if added then .ok 0 else .error .eio)]
  | _, _ => [.returned (.error .einval)]

def canPortPollOne (p : CanPort) : CanPort × List PortAction :=
  if p.rxTail = p.rxHead then (p,[])
  else
    ({ p with rxTail := canPortNextIndex p.rxTail canPortRxQueueCapacity },
      [.rx p.rxCallback (portContent (p.rxQueue.cell p.rxTail emptySlot)),.returned (.ok 1)])

def canPortPoll (p : CanPort) (timeoutMs tick : UInt32) : CanPort × List PortAction :=
  if p.rxTail = p.rxHead then
    if timeoutMs = 0 then (p,[.returned (.ok 0)])
    else ({ p with waiting := some (timeoutMs,tick) },[])
  else canPortPollOne p

/-- One pass of the loop in `can_port_poll`, up to `HAL_Delay`. -/
def pollPass (p : CanPort) (timeoutMs startTick tick : UInt32) : CanPort × List PortAction :=
  if p.rxTail = p.rxHead then
    if timeoutMs ≤ tick-startTick then ({ p with waiting := none },[.returned (.ok 0)])
    else (p,[])
  else
    let polled := canPortPollOne p
    ({ polled.1 with waiting := none },polled.2)

def canPortDeinit (p : CanPort) : CanPort × List PortAction :=
  ({ resetRxQueue p with rxCallback := none, hcan := none },
    match p.hcan with
    | none => []
    | some handle => [.deactivateNotification handle,.stop handle])

def dispatchRxFromIsr (p : CanPort) (id : UInt32) (data : Option (Buffer UInt8 canPortMaxDlc))
    (len : UInt8) : CanPort :=
  match data with
  | none => p
  | some data =>
    if canPortMaxDlc < len.toNat ∨ 0x7FF < id then p
    else if canPortNextIndex p.rxHead canPortRxQueueCapacity = p.rxTail then
      { p with rxDropped := p.rxDropped+1 }
    else
      let slot := p.rxQueue.cell p.rxHead emptySlot
      { p with
        rxQueue := p.rxQueue.write p.rxHead
          [⟨id,slot.data.write 0 (data.front len.toNat),len.toNat⟩]
        rxHead := canPortNextIndex p.rxHead canPortRxQueueCapacity }

inductive PortCall where
  | bind (hcan : Option ℕ)
  | init (bitrate : UInt32) (hal : InitAnswers)
  | send (id : UInt32) (data : Option (Buffer UInt8 canPortMaxDlc)) (len : UInt8) (freeLevel : ℕ)
    (added : Bool)
  | registerRx (callback : Option ℕ)
  | poll (timeoutMs tick : UInt32)
  | deinit
  | rxDropped

def answer (p : CanPort) : PortCall → CanPort × List PortAction
  | .bind hcan => stm32Bind p hcan
  | .init bitrate hal => canPortInit p bitrate hal
  | .send id data len freeLevel added => (p,canPortSend p id data len freeLevel added)
  | .registerRx callback => ({ p with rxCallback := callback },[])
  | .poll timeoutMs tick => canPortPoll p timeoutMs tick
  | .deinit => canPortDeinit p
  | .rxDropped => (p,[.returned (.ok p.rxDropped.toNat)])

inductive PortInput where
  | call (c : PortCall)
  | pass (tick : UInt32)
  | interrupt (id : UInt32) (data : Option (Buffer UInt8 canPortMaxDlc)) (len : UInt8)

def PortInput.polls : PortInput → Bool
  | .call (.poll _ _) | .pass _ => true
  | _ => false

/-- What can happen while a poll waits. -/
def PortInput.during : PortInput → Bool
  | .pass _ | .interrupt _ _ _ => true
  | .call _ => false

structure PortRecord where
  input : PortInput
  actions : List PortAction

def PortRecord.Plain (r : PortRecord) : Prop := ∀ a ∈ r.actions, a.handle = none

/-- While a poll waits, the main loop makes no other call. -/
def portStep (p : CanPort) (i : PortInput) : CanPort × List PortRecord :=
  match i, p.waiting with
  | .interrupt id data len, _ => (dispatchRxFromIsr p id data len,[⟨i,[]⟩])
  | .call c, none => ((answer p c).1,[⟨i,(answer p c).2⟩])
  | .pass tick, some (timeoutMs,startTick) =>
    ((pollPass p timeoutMs startTick tick).1,[⟨i,(pollPass p timeoutMs startTick tick).2⟩])
  | _, _ => (p,[])

end CanopenReference.PortLifecycle
