import Mathlib.Data.Nat.Notation
import Mathlib.Tactic.Common

/-!
# The data-identifier registry

The table of `uds_did.c`. Every entry is read through `read_value`, so an entry
holds its value, which may be missing; no project entry can be written.
-/

set_option autoImplicit false

namespace CanopenReference.UdsDid

def sessionDefaultMask : UInt8 := 1
def sessionProgrammingMask : UInt8 := 2
def sessionExtendedMask : UInt8 := 4
def sessionAllMask : UInt8 := sessionDefaultMask ||| sessionProgrammingMask ||| sessionExtendedMask

def didSoftwareVersion : UInt16 := 0xF180
def didBootloaderVersion : UInt16 := 0xF181
def didDeviceIdentity : UInt16 := 0xF18A
def didSerialNumber : UInt16 := 0xF18C
def didHardwareVersion : UInt16 := 0xF191
def didCanopenNodeId : UInt16 := 0xF1A0
def didCanBitrate : UInt16 := 0xF1A1
def didDiagnosticStatus : UInt16 := 0xF1B0
def didFirmwareStatus : UInt16 := 0xF1B1
def didResetCause : UInt16 := 0xF1B2
def didWatchdogStatus : UInt16 := 0xF1B3
def didCanErrorCounters : UInt16 := 0xF1B4
def didCanopenErrorState : UInt16 := 0xF1B5

inductive UdsDidResult where
  | ok
  | notFound
  | notReadable
  | notWritable
  | sessionDenied
  | securityDenied
  | responseTooLong
  | invalidWrite
  | argumentError
  deriving DecidableEq, Repr

/-- The bytes of a value, or a length without bytes to read. -/
inductive UdsDidValue where
  | data (bytes : List UInt8)
  | noData (length : UInt16)
  deriving DecidableEq

structure UdsDidEntry where
  did : UInt16
  readAllowed : Bool
  writeAllowed : Bool
  maximumLength : UInt16
  sessionMask : UInt8
  minimumSecurityLevel : UInt8
  value : Option UdsDidValue
  deriving DecidableEq

structure UdsProjectDidSource where
  softwareVersion : UdsDidValue
  hardwareVersion : UdsDidValue
  bootloaderVersion : UdsDidValue
  serialNumber : UdsDidValue
  deviceIdentity : UdsDidValue
  canopenNodeId : UdsDidValue
  canBitrate : UdsDidValue
  diagnosticStatus : UdsDidValue
  firmwareStatus : UdsDidValue
  resetCause : UdsDidValue
  watchdogStatus : UdsDidValue
  canErrorCounters : UdsDidValue
  canopenErrorState : UdsDidValue
  deriving DecidableEq

/-- The result with the bytes written and the length reported. -/
structure DidRead where
  result : UdsDidResult
  bytes : List UInt8
  length : UInt16
  deriving DecidableEq

def noRead (result : UdsDidResult) : DidRead := ⟨result,[],0⟩

def readValue (value : Option UdsDidValue) (capacity : UInt16) : DidRead :=
  match value with
  | none => noRead .argumentError
  | some (.data bytes) =>
    if capacity.toNat < bytes.length then noRead .responseTooLong
    else ⟨.ok,bytes,UInt16.ofNat bytes.length⟩
  | some (.noData length) =>
    if capacity < length then noRead .responseTooLong
    else if length ≠ 0 then noRead .argumentError
    else noRead .ok

def setEntry (did : UInt16) (value : UdsDidValue) (maximumLength : UInt16) (sessionMask : UInt8)
    (minimumSecurityLevel : UInt8) : UdsDidEntry :=
  ⟨did,true,false,maximumLength,sessionMask,minimumSecurityLevel,some value⟩

def udsDidRegistryInit (source : UdsProjectDidSource) : List UdsDidEntry :=
  [setEntry didSoftwareVersion source.softwareVersion 64 sessionAllMask 0,
    setEntry didHardwareVersion source.hardwareVersion 64 sessionAllMask 0,
    setEntry didBootloaderVersion source.bootloaderVersion 64 sessionAllMask 0,
    setEntry didSerialNumber source.serialNumber 32 sessionAllMask 1,
    setEntry didDeviceIdentity source.deviceIdentity 64 sessionAllMask 0,
    setEntry didCanopenNodeId source.canopenNodeId 1 sessionAllMask 0,
    setEntry didCanBitrate source.canBitrate 4 sessionAllMask 0,
    setEntry didDiagnosticStatus source.diagnosticStatus 64 sessionAllMask 0,
    setEntry didFirmwareStatus source.firmwareStatus 64 sessionAllMask 0,
    setEntry didResetCause source.resetCause 4 sessionAllMask 0,
    setEntry didWatchdogStatus source.watchdogStatus 64 sessionAllMask 1,
    setEntry didCanErrorCounters source.canErrorCounters 32 sessionAllMask 0,
    setEntry didCanopenErrorState source.canopenErrorState 4 sessionAllMask 0]

def udsDidRegistryFind (registry : List UdsDidEntry) (did : UInt16) : Option UdsDidEntry :=
  registry.find? fun entry => entry.did = did

def sessionAllowed (entry : UdsDidEntry) (session : UInt8) : Bool :=
  let mask : UInt8 :=
    if session = 0x01 then sessionDefaultMask
    else if session = 0x02 then sessionProgrammingMask
    else if session = 0x03 then sessionExtendedMask
    else 0
  mask ≠ 0 ∧ entry.sessionMask &&& mask ≠ 0

def udsDidRegistryRead (registry : List UdsDidEntry) (did : UInt16)
    (session securityLevel : UInt8) (capacity : UInt16) : DidRead :=
  match udsDidRegistryFind registry did with
  | none => noRead .notFound
  | some entry =>
    if !entry.readAllowed then noRead .notReadable
    else if !sessionAllowed entry session then noRead .sessionDenied
    else if securityLevel < entry.minimumSecurityLevel then noRead .securityDenied
    else
      let read := readValue entry.value capacity
      if read.result = .ok ∧ entry.maximumLength < read.length then
        { read with result := .responseTooLong }
      else read

end CanopenReference.UdsDid
