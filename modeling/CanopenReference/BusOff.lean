import CanopenReference.Library.Clock

/-!
# Recovery from bus-off

The recovery object of `canopen_reference_can_recovery.c`. It is never null.
-/

set_option autoImplicit false

namespace CanopenReference.BusOff
open Library

inductive CanRecoveryState where
  | running
  | waitRecovery
  | reinitializing
  | fault
  deriving DecidableEq, Repr

structure CanRecovery where
  state : CanRecoveryState
  recoveryDueTick : UInt32
  attempts : UInt32
  maxAttempts : UInt32
  waitMs : UInt32
  deriving DecidableEq

def canRecoveryInit (waitMs maxAttempts : UInt32) : CanRecovery where
  state := .running
  recoveryDueTick := 0
  attempts := 0
  maxAttempts := maxAttempts
  waitMs := waitMs

def canRecoveryRequest (context : CanRecovery) (nowTick : UInt32) : CanRecovery :=
  if context.state = .fault then context
  else { context with state := .waitRecovery, recoveryDueTick := nowTick+context.waitMs }

def canRecoveryReady (context : CanRecovery) (nowTick : UInt32) : Bool :=
  if context.state ≠ .waitRecovery then false
  else Clock.reached nowTick context.recoveryDueTick

def canRecoveryComplete (context : CanRecovery) (success : Bool) (nowTick : UInt32) :
    CanRecovery :=
  if success then { context with state := .running, recoveryDueTick := 0 }
  else
    let attempts := context.attempts+1
    if context.maxAttempts ≠ 0 ∧ context.maxAttempts ≤ attempts then
      { context with attempts := attempts, state := .fault }
    else
      { context with
        attempts := attempts, state := .waitRecovery
        recoveryDueTick := nowTick+context.waitMs }

end CanopenReference.BusOff
