import CanopenReference.Library.Statements
import CanopenReference.BusOff
import CanopenReference.Diagnostics

/-!
# The runtime of the reference node

The main loop of `CO_app_STM32_reference.c` statement by statement, with the
CAN interrupts that may run between its statements. The CANopen stack, the
storage and the drivers answer with arbitrary results, and the calls that
matter to the life cycle are reported.
-/

set_option autoImplicit false

namespace CanopenReference.MainLoop
open Library.Statements BusOff Diagnostics UdsStm32

def canRecoveryWaitMs : UInt32 := 100
def canRecoveryMaxAttempts : UInt32 := 3

inductive RuntimeState where
  | init
  | running
  | resetRequested
  | reinitializing
  | safeFault
  deriving DecidableEq, Repr

inductive CoNmtResetCmd where
  | resetNot
  | resetComm
  | resetApp
  | resetQuit
  deriving DecidableEq, Repr

/-- What the runtime uses of the CANopen stack object. -/
structure CoStack where
  canNormal : Bool
  deriving DecidableEq

/-- The variables of the file. -/
structure App where
  nodePresent : Bool
  co : Option CoStack
  lastTick : UInt32
  canRecoveryPending : Bool
  safeFault : Bool
  recoveryAttemptActive : Bool
  canRecovery : CanRecovery
  runtimeState : RuntimeState
  uds : UdsRuntime Unit

/-- The answer to one statement: the tick counter, whether the call succeeds,
the reset command of the stack, and the answers of the CAN driver. -/
structure Answer where
  tick : UInt32
  ok : Bool
  command : CoNmtResetCmd
  driver : List TxAnswer

inductive AppEvent where
  | appInit
  | mcuReset
  | busOff
  | runtimeState (state : RuntimeState)
  | resetCommunication
  | reportRuntimeFault (code : UInt32)
  | reportCanRecovery (success : Bool)
  | forceSafeApplication
  | canModuleDisable
  | canNormalMode
  | timerStart
  | timerStop
  | coProcess (timeDifferenceUs : UInt32)
  | udsProcess (nowMs : UInt32)
  deriving DecidableEq

abbrev AppProgram (α : Type) := Program App Answer AppEvent α

/-- The variables before `main` runs. -/
def powerOn : App where
  nodePresent := false
  co := none
  lastTick := 0
  canRecoveryPending := false
  safeFault := false
  recoveryAttemptActive := false
  canRecovery := canRecoveryInit 0 0
  runtimeState := .init
  uds := canopenReferenceUdsInit none () false 0

def setRuntimeState (state : RuntimeState) : AppProgram Unit :=
  perform (fun a _ => { a with runtimeState := state }) fun _ _ => [.runtimeState state]

/-- How a successful communication reset ends. -/
def enterRunning : AppProgram Int32 := do
  perform (fun a i => { a with lastTick := i.tick }) fun _ _ => []
  assign fun a => { a with safeFault := false }
  assign fun a => { a with canRecovery := canRecoveryComplete a.canRecovery true a.lastTick }
  setRuntimeState .running
  return 0

/-- What `main` calls; the instance has all its handles, or lacks some. -/
inductive Entry where
  | init (complete : Bool)
  | process
  deriving DecidableEq

/-- The statements in which the runtime reaches what lies outside its variables. -/
structure Platform (σ ι ε : Type) where
  onApp : {α : Type} → AppProgram α → Program σ ι ε α
  /-- The safe outputs, as part of a take-down or not. -/
  forceSafeApplication : Bool → Program σ ι ε Unit
  initProfiles : Program σ ι ε Unit
  timerStart : Program σ ι ε Unit
  timerStop : Program σ ι ε Unit
  /-- `CANnormal` is taken away. -/
  clearCanNormal : Program σ ι ε Unit
  canSetNormalMode : Program σ ι ε Unit
  nvicSystemReset : Program σ ι ε Unit
  requestRecovery : UInt32 → Program σ ι ε Unit
  coProcess : UInt32 → Program σ ι ε Unit

namespace Platform
variable {σ ι ε : Type} (on : Platform σ ι ε)

def stopRuntime : Program σ ι ε Unit := do
  on.forceSafeApplication true
  let nodePresent ← on.onApp (fetch App.nodePresent)
  when nodePresent on.timerStop
  let stack ← on.onApp (fetch fun a => a.co.isSome)
  when stack do
    on.clearCanNormal
    on.onApp (report .canModuleDisable)

def failRuntime (faultCode : UInt32) : Program σ ι ε Int32 := do
  on.onApp (assign fun a => { a with safeFault := !a.recoveryAttemptActive })
  let safeFault ← on.onApp (fetch App.safeFault)
  on.onApp (setRuntimeState (if safeFault then .safeFault else .reinitializing))
  on.onApp (report (.reportRuntimeFault faultCode))
  on.stopRuntime
  return -faultCode.toInt32

def canopenAppResetCommunication : Program σ ι ε Int32 := do
  on.onApp (report .resetCommunication)
  let missing ← on.onApp (fetch fun a => a.co.isNone || !a.nodePresent)
  if missing then
    on.onApp (setRuntimeState .safeFault)
    return -1
  on.onApp (setRuntimeState .reinitializing)
  on.forceSafeApplication true
  on.clearCanNormal
  on.onApp (report .canModuleDisable)
  let canInit ← on.onApp (ask Answer.ok)
  if !canInit then return ← on.failRuntime 0xCA000010
  let activated ← on.onApp (ask Answer.ok)
  if !activated then return ← on.failRuntime 0xCA000011
  let storage ← on.onApp (ask Answer.ok)
  if !storage then return ← on.failRuntime 0xCA000012
  let lss ← on.onApp (ask Answer.ok)
  if !lss then return ← on.failRuntime 0xCA000013
  let filter ← on.onApp (ask Answer.ok)
  if !filter then return ← on.failRuntime 0xCA000014
  let canopenInit ← on.onApp (ask Answer.ok)
  if !canopenInit then return ← on.failRuntime 0xCA000015
  let pdoInit ← on.onApp (ask Answer.ok)
  if !pdoInit then return ← on.failRuntime 0xCA000016
  let udsTick ← on.onApp (ask Answer.tick)
  let registered ← on.onApp (ask Answer.ok)
  on.onApp (assign fun a => { a with uds := canopenReferenceUdsInit none () registered udsTick })
  if !registered then return ← on.failRuntime 0xCA000019
  on.initProfiles
  let timer ← on.onApp (ask Answer.ok)
  if !timer then
    on.forceSafeApplication false
    return ← on.failRuntime 0xCA000017
  on.timerStart
  on.canSetNormalMode
  on.onApp enterRunning

def processCanRecovery (now : UInt32) : Program σ ι ε Unit := do
  let pending ← on.onApp (fetch App.canRecoveryPending)
  when pending do
    on.onApp (assign fun a => { a with canRecoveryPending := false })
    on.requestRecovery now
  let ready ← on.onApp (fetch fun a => canRecoveryReady a.canRecovery now)
  if !ready then return
  on.onApp (assign fun a => { a with recoveryAttemptActive := true })
  let result ← on.canopenAppResetCommunication
  on.onApp (assign fun a => { a with recoveryAttemptActive := false })
  on.onApp (report (.reportCanRecovery (result = 0)))
  on.onApp (assign fun a =>
    { a with canRecovery := canRecoveryComplete a.canRecovery (result = 0) now })
  if result = 0 then return
  let state ← on.onApp (fetch fun a => a.canRecovery.state)
  when (state = .fault) do
    let _ ← on.failRuntime 0xCA000001

def canopenAppInit (complete : Bool) : Program σ ι ε Int32 := do
  if !complete then return -1
  on.onApp (assign fun a => { a with nodePresent := true })
  on.onApp (setRuntimeState .init)
  on.onApp (assign fun a => { a with safeFault := false })
  on.onApp (assign fun a => { a with canRecoveryPending := false })
  on.onApp (assign fun a => { a with recoveryAttemptActive := false })
  on.onApp (assign fun a =>
    { a with canRecovery := canRecoveryInit canRecoveryWaitMs canRecoveryMaxAttempts })
  on.forceSafeApplication false
  let created ← on.onApp (ask Answer.ok)
  on.onApp (assign fun a => { a with co := if created then some ⟨false⟩ else none })
  if !created then
    on.forceSafeApplication false
    return -2
  let result ← on.canopenAppResetCommunication
  if result ≠ 0 then
    let _ ← on.failRuntime 0xCA000002
    on.forceSafeApplication false
    on.onApp (assign fun a => { a with co := none })
    return -3
  return 0

def canopenAppPass (now : UInt32) : Program σ ι ε Unit := do
  let command ← on.onApp (ask Answer.command)
  on.onApp (perform
    (fun a i => { a with uds := (canopenReferenceUdsProcess a.uds i.driver now).1 })
    fun _ _ => [.udsProcess now])
  let resetPending ← on.onApp (fetch fun a => canopenReferenceUdsResetPending a.uds)
  if resetPending then
    on.onApp (assign fun a => { a with uds := canopenReferenceUdsClearReset a.uds })
    on.forceSafeApplication false
    on.nvicSystemReset
  else if command = .resetComm then
    on.onApp (setRuntimeState .resetRequested)
    on.timerStop
    on.onApp (assign fun a => { a with co := none })
    let result ← on.canopenAppInit true
    when (result ≠ 0) do
      let _ ← on.failRuntime 0xCA000018
  else if command = .resetApp then
    on.forceSafeApplication false
    on.nvicSystemReset

def canopenAppProcess : Program σ ι ε Unit := do
  let stopped ← on.onApp (fetch fun a => a.co.isNone || !a.nodePresent || a.safeFault)
  if stopped then return
  let now ← on.onApp (ask Answer.tick)
  on.processCanRecovery now
  let lastTick ← on.onApp (fetch App.lastTick)
  if now = lastTick then return
  on.onApp (assign fun a => { a with lastTick := now })
  on.coProcess ((now-lastTick)*1000)
  on.canopenAppPass now

def appEntry : Entry → Program σ ι ε Unit
  | .init complete => do
    on.onApp (report .appInit)
    let _ ← on.canopenAppInit complete
  | .process => on.canopenAppProcess

end Platform

def nvicSystemReset : AppProgram Unit := perform (fun _ _ => powerOn) fun _ _ => [.mcuReset]

/-- The runtime on its own variables; the outputs are only reported. -/
def bare : Platform App Answer AppEvent where
  onApp p := p
  forceSafeApplication _ := report .forceSafeApplication
  initProfiles := pure ()
  timerStart := report .timerStart
  timerStop := report .timerStop
  clearCanNormal := assign fun a => { a with co := some ⟨false⟩ }
  canSetNormalMode := perform (fun a i => { a with co := some ⟨i.ok⟩ }) fun _ _ => [.canNormalMode]
  nvicSystemReset := nvicSystemReset
  requestRecovery now := assign fun a =>
    { a with canRecovery := canRecoveryRequest a.canRecovery now }
  coProcess timeDifferenceUs := report (.coProcess timeDifferenceUs)

def stopRuntime : AppProgram Unit := bare.stopRuntime

def failRuntime : UInt32 → AppProgram Int32 := bare.failRuntime

def canopenAppResetCommunication : AppProgram Int32 := bare.canopenAppResetCommunication

def processCanRecovery : UInt32 → AppProgram Unit := bare.processCanRecovery

def canopenAppInit : Bool → AppProgram Int32 := bare.canopenAppInit

def canopenAppPass : UInt32 → AppProgram Unit := bare.canopenAppPass

def canopenAppProcess : AppProgram Unit := bare.canopenAppProcess

def appEntry : Entry → AppProgram Unit := bare.appEntry

/-- The CAN interrupts: an error, which may be a bus-off, and a diagnostic frame. -/
inductive Interrupt where
  | error (busOff : Bool)
  | rxFifo1 (frame : IsoTp.IsoTpCanFrame)

def halCanErrorCallback (a : App) (busOff : Bool) : App :=
  if a.nodePresent ∧ a.co.isSome ∧ busOff then { a with canRecoveryPending := true } else a

def appHandler (a : App) : Interrupt → App × List AppEvent
  | .error busOff => (halCanErrorCallback a busOff,if busOff then [.busOff] else [])
  | .rxFifo1 frame => ({ a with uds := canopenReferenceUdsRxFromIsr a.uds frame },[])

def appTurn : Machine App Answer AppEvent → Turn Entry Answer Interrupt →
    Machine App Answer AppEvent × List AppEvent := turn appEntry appHandler

end CanopenReference.MainLoop
