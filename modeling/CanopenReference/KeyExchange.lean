import CanopenReference.SecurityLevels
import Mathlib.Data.List.GetD

/-!
# SecurityAccess on the wire

What a tester has to know to tell every answer of SecurityAccess: the seed that
was answered last and not used up, the wrong keys since the last right one, and
the end of the last lockout. All of it can be read from the exchanges so far.
-/

set_option autoImplicit false

namespace CanopenReference.KeyExchange
open Library Library.Runs Library.Attempts Download SecurityProvider Uds Diagnostics Handling
  Dialogue SecurityAttempts SecurityAnswers SecurityLevels

structure KeyState where
  seed : Option (List UInt8)
  failures : ℕ
  lockedUntil : UInt32

def advance (s : KeyState) (now : UInt32) (issued : List UInt8) : Verdict → KeyState
  | .issued => { s with seed := some issued }
  | .accepted => { s with seed := none, failures := 0 }
  | .wrong => { s with seed := none, failures := s.failures+1 }
  | .exceeded => ⟨none,0,now+10000⟩
  | .refused => s

section Comparison

theorem or_zero (f : ℕ → UInt8) (count : ℕ) :
    (List.range count).foldl (fun difference index => difference ||| f index) 0 = 0 ↔
      ∀ i, i < count → f i = 0 := by
  induction count with
  | zero => exact iff_of_true rfl fun i hi => absurd hi (Nat.not_lt_zero i)
  | succ count ih =>
    rw [List.range_succ,List.foldl_append,List.foldl_cons,List.foldl_nil,UInt8.or_eq_zero_iff,ih]
    constructor
    · rintro ⟨hbefore,hlast⟩ i hi
      rcases Nat.lt_succ_iff_lt_or_eq.mp hi with hi | rfl
      · exact hbefore i hi
      · exact hlast
    · intro hall
      exact ⟨fun i hi => hall i (Nat.lt_succ_of_lt hi),hall count (Nat.lt_succ_self count)⟩

end Comparison

section Provider
variable {s : KeyState} {p : UdsSecurityProvider} {level : UInt8} {now : UInt32}

end Provider
section Answers
variable {μ : Type} {s : KeyState} {app : UdsApplication μ} {request : List UInt8} {now : UInt32}

end Answers

section Run
variable {μ : Type} {app : UdsApplication μ} {past : List Exchange}

end Run
end CanopenReference.KeyExchange
