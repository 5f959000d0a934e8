import CanopenReference.Cia402
import CanopenReference.MainLoop

/-!
# The runtime with its outputs

The program of the main loop with the outputs it drives: the CiA 401 outputs, the
CiA 402 drive enable, and the timer interrupt that rewrites them from the object
dictionary. Both profiles are built in. What the network writes to the object
dictionary is arbitrary.
-/

set_option autoImplicit false

namespace CanopenReference.OutputLoop
open Library.Statements BusOff Diagnostics UdsStm32 MainLoop

/-- The input and output objects of the object dictionary. -/
structure IoObjects where
  readDigitalInputs : UInt8
  readAnalogInput1 : Int16
  readAnalogInput2 : Int16
  writeDigitalOutputs : UInt8
  writeAnalogOutput1 : Int16
  deriving DecidableEq

/-- What the hardware adapter was told last. -/
structure Outputs where
  digital : UInt8
  analog : Int16
  enable : Bool
  deriving DecidableEq

def safeOutputs : Outputs := ⟨0,0,false⟩

inductive Output where
  | digital
  | analog
  | enable
  deriving DecidableEq

structure Commands where
  digital : UInt8
  analog : Int16
  written : Cia402.Written
  deriving DecidableEq

/-- What a timer interrupt finds: the commands behind SYNC and RPDO processing,
the inputs, and the feedback of the drive. -/
structure TimerInput where
  nodeIdUnconfigured : Bool
  commands : Commands
  digitalInputs : UInt8
  analogInput1 : Int16
  analogInput2 : Int16
  feedback : Cia402.Feedback
  deriving DecidableEq

structure Plant where
  app : App
  io : IoObjects
  drive : Cia402.OdApp
  outputs : Outputs
  timerRunning : Bool

/-- The answer to one statement, and what an SDO has written meanwhile. -/
structure PlantAnswer where
  app : Answer
  commands : Commands

inductive PlantEvent where
  | app (e : AppEvent)
  /-- A take-down has written the safe value to the output. -/
  | forced (output : Output)
  | canNormal (value : Bool)
  /-- Recovery is waited for from here on, with these outputs. -/
  | waitRecovery (outputs : Outputs)
  /-- A timer interrupt has passed its gate. -/
  | served (statusword : UInt16) (input : TimerInput)
  deriving DecidableEq

abbrev PlantProgram (α : Type) := Program Plant PlantAnswer PlantEvent α

def powerOnPlant : Plant where
  app := powerOn
  io := ⟨0,0,0,0,0⟩
  drive := ⟨0,0,0,0,0,0,0,0,0,0,0⟩
  outputs := safeOutputs
  timerRunning := false

def onApp {α : Type} : AppProgram α → PlantProgram α
  | .done value => .done value
  | .step effect next =>
    .step (fun s i => ({ s with app := (effect s.app i.app).1 },
        (effect s.app i.app).2.map .app))
      fun s i => onApp (next s.app i.app)

/-- A write to the hardware adapter, which a take-down shows. -/
def force (takedown : Bool) (output : Output) (f : Plant → Plant) : PlantProgram Unit :=
  perform (fun s _ => f s) fun _ _ => if takedown then [.forced output] else []

def writeDigitalOutputs (takedown : Bool) : PlantProgram Unit :=
  force takedown .digital fun s => { s with outputs := { s.outputs with digital := 0 } }

def writeAnalogOutput (takedown : Bool) : PlantProgram Unit :=
  force takedown .analog fun s => { s with outputs := { s.outputs with analog := 0 } }

def driveDisable (takedown : Bool) : PlantProgram Unit :=
  force takedown .enable fun s => { s with outputs := { s.outputs with enable := false } }

def cia401ForceSafeOutputs (takedown : Bool) : PlantProgram Unit := do
  assign fun s => { s with io := { s.io with writeDigitalOutputs := 0 } }
  assign fun s => { s with io := { s.io with writeAnalogOutput1 := 0 } }
  writeDigitalOutputs takedown
  writeAnalogOutput takedown

def cia401Init : PlantProgram Unit := cia401ForceSafeOutputs false

def cia402ForceDisable (takedown : Bool) : PlantProgram Unit := do
  driveDisable takedown
  assign fun s => { s with drive := { s.drive with statusword := Cia402.statusSwitchOnDisabled } }
  assign fun s => { s with drive := { s.drive with modesOfOperationDisplay := 0 } }

def cia402Init : PlantProgram Unit := do
  assign fun s => { s with drive := { s.drive with errorCode := 0 } }
  assign fun s => { s with drive := { s.drive with controlword := 0 } }
  assign fun s => { s with drive := { s.drive with modesOfOperation := 0 } }
  cia402ForceDisable false

def forceSafeApplication (takedown : Bool) : PlantProgram Unit := do
  onApp (report .forceSafeApplication)
  cia401ForceSafeOutputs takedown
  cia402ForceDisable takedown

def timerStart : PlantProgram Unit :=
  perform (fun s _ => { s with timerRunning := true }) fun _ _ => [.app .timerStart]

def timerStop : PlantProgram Unit :=
  perform (fun s _ => { s with timerRunning := false }) fun _ _ => [.app .timerStop]

/-- `CANnormal` is taken away. -/
def clearCanNormal : PlantProgram Unit :=
  perform (fun s _ => { s with app := { s.app with co := some ⟨false⟩ } })
    fun _ _ => [.canNormal false]

def canSetNormalMode : PlantProgram Unit :=
  perform (fun s i => { s with app := { s.app with co := some ⟨i.app.ok⟩ } })
    fun _ i => .app .canNormalMode::if i.app.ok then [.canNormal true] else []

def nvicSystemReset : PlantProgram Unit :=
  perform (fun _ _ => powerOnPlant) fun _ _ => [.app .mcuReset]

def requestRecovery (now : UInt32) : PlantProgram Unit :=
  perform
    (fun s _ =>
      { s with app := { s.app with canRecovery := canRecoveryRequest s.app.canRecovery now } })
    fun s _ =>
      if (canRecoveryRequest s.app.canRecovery now).state = .waitRecovery then
        [.waitRecovery s.outputs]
      else []

/-- The stack is processed; an SDO may write the commands. -/
def coProcess (timeDifferenceUs : UInt32) : PlantProgram Unit :=
  perform
    (fun s i =>
      { s with
        io :=
          { s.io with
            writeDigitalOutputs := i.commands.digital
            writeAnalogOutput1 := i.commands.analog }
        drive := Cia402.write s.drive i.commands.written })
    fun _ _ => [.app (.coProcess timeDifferenceUs)]

/-- The runtime that drives the outputs. -/
def plant : Platform Plant PlantAnswer PlantEvent where
  onApp := onApp
  forceSafeApplication := forceSafeApplication
  initProfiles := do
    cia401Init
    cia402Init
  timerStart := timerStart
  timerStop := timerStop
  clearCanNormal := clearCanNormal
  canSetNormalMode := canSetNormalMode
  nvicSystemReset := nvicSystemReset
  requestRecovery := requestRecovery
  coProcess := coProcess

def stopRuntime : PlantProgram Unit := plant.stopRuntime

def failRuntime : UInt32 → PlantProgram Int32 := plant.failRuntime

def canopenAppResetCommunication : PlantProgram Int32 := plant.canopenAppResetCommunication

def processCanRecovery : UInt32 → PlantProgram Unit := plant.processCanRecovery

def canopenAppInit : Bool → PlantProgram Int32 := plant.canopenAppInit

def canopenAppPass : UInt32 → PlantProgram Unit := plant.canopenAppPass

def canopenAppProcess : PlantProgram Unit := plant.canopenAppProcess

def plantEntry : Entry → PlantProgram Unit := plant.appEntry

/-- The timer interrupt goes on behind its checks. -/
def gateOpen (s : Plant) (input : TimerInput) : Bool :=
  s.timerRunning && s.app.nodePresent && !input.nodeIdUnconfigured &&
    s.app.co.any fun stack => stack.canNormal

def cia401Process1ms (io : IoObjects) (input : TimerInput) : IoObjects where
  readDigitalInputs := input.digitalInputs
  readAnalogInput1 := input.analogInput1
  readAnalogInput2 := input.analogInput2
  writeDigitalOutputs := io.writeDigitalOutputs
  writeAnalogOutput1 := io.writeAnalogOutput1

def serve (s : Plant) (input : TimerInput) : Plant :=
  let io :=
    { s.io with
      writeDigitalOutputs := input.commands.digital
      writeAnalogOutput1 := input.commands.analog }
  let drive := Cia402.driveStep s.drive (.process1ms input.commands.written input.feedback)
  { s with
    io := cia401Process1ms io input
    drive := drive.1
    outputs :=
      { digital := io.writeDigitalOutputs
        analog := io.writeAnalogOutput1
        enable := (Cia402.lastEnable drive.2).getD s.outputs.enable } }

def canopenAppInterrupt (s : Plant) (input : TimerInput) : Plant × List PlantEvent :=
  if gateOpen s input then (serve s input,[.served s.drive.statusword input]) else (s,[])

inductive PlantInterrupt where
  | can (cause : MainLoop.Interrupt)
  | timer (input : TimerInput)

def plantHandler (s : Plant) : PlantInterrupt → Plant × List PlantEvent
  | .can cause => ({ s with app := (appHandler s.app cause).1 },
      (appHandler s.app cause).2.map .app)
  | .timer input => canopenAppInterrupt s input

def plantTurn : Machine Plant PlantAnswer PlantEvent → Turn Entry PlantAnswer PlantInterrupt →
    Machine Plant PlantAnswer PlantEvent × List PlantEvent := turn plantEntry plantHandler

end CanopenReference.OutputLoop
