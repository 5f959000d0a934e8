import Mathlib.Data.List.Basic
import CanopenReference.BusOff

/-!
# The wait before a recovery

A recovery that was requested becomes due after the wait. Every further request
starts the wait again.
-/

set_option autoImplicit false

namespace CanopenReference.BusOffWait
open Library BusOff

/-- The object after a request at time `t` and further ones. -/
def requested (s : CanRecovery) (t : ℕ) (later : List ℕ) : CanRecovery :=
  (t::later).foldl (fun s u => canRecoveryRequest s (UInt32.ofNat u)) s

/-- After each of the further requests the object is ready from the end of the
first wait on, until half a turn after the first request. -/
def NeverPostponed (s : CanRecovery) (t : ℕ) (later : List ℕ) : Prop :=
  ∀ n now, (later.take n).getLastD t ≤ now → t+s.waitMs.toNat ≤ now → now < t+2^31 →
    canRecoveryReady (requested s t (later.take n)) (UInt32.ofNat now) = true

theorem requested_due {s : CanRecovery} (h : s.state ≠ .fault) (t : ℕ) (later : List ℕ) :
    requested s t later =
      { s with
        state := .waitRecovery
        recoveryDueTick := UInt32.ofNat (later.getLastD t+s.waitMs.toNat) } := by
  have hrequest : ∀ (s : CanRecovery) (u : ℕ), s.state ≠ .fault →
      canRecoveryRequest s (UInt32.ofNat u) =
        { s with
          state := .waitRecovery
          recoveryDueTick := UInt32.ofNat (u+s.waitMs.toNat) } := by
    intro s u hs
    rw [canRecoveryRequest,if_neg hs,UInt32.ofNat_add,UInt32.ofNat_toNat]
  induction later generalizing s t with
  | nil => exact hrequest s t h
  | cons u later ih =>
    have hfirst := hrequest s t h
    have hlater := ih (s := canRecoveryRequest s (UInt32.ofNat t)) (t := u)
      (by rw [hfirst]; exact fun hf => by cases hf)
    have hsplit : requested s t (u::later) =
        requested (canRecoveryRequest s (UInt32.ofNat t)) u later := rfl
    rw [hsplit,hlater,hfirst,List.getLastD_cons]

theorem requested_ready {s : CanRecovery} (h : s.state ≠ .fault) (t : ℕ) (later : List ℕ)
    (now : UInt32) :
    canRecoveryReady (requested s t later) now =
      Clock.reached now (UInt32.ofNat (later.getLastD t+s.waitMs.toNat)) := by
  rw [requested_due h,canRecoveryReady]
  exact if_neg (by simp)

theorem last_mem (t : ℕ) (later : List ℕ) : later.getLastD t = t ∨ later.getLastD t ∈ later := by
  cases later with
  | nil => exact Or.inl rfl
  | cons u later =>
    right
    rw [List.getLastD_cons]
    exact List.getLastD_mem_cons

/-- For an object that is running and requests in the order of time, a recovery
is never postponed exactly when there is no wait, the wait is half a turn at
least, or every further request comes at once or half a turn later. -/
theorem never_postponed_iff (s : CanRecovery) (t : ℕ) (later : List ℕ) (h : s.state = .running)
    (hsorted : (t::later).Pairwise (·≤·)) :
    NeverPostponed s t later ↔
      s.waitMs = 0 ∨ 2^31 ≤ s.waitMs.toNat ∨ ∀ u ∈ later, u = t ∨ t+2^31 ≤ u := by
  have hs : s.state ≠ .fault := by
    rw [h]
    decide
  obtain ⟨hfirst,_⟩ := List.pairwise_cons.mp hsorted
  unfold NeverPostponed
  simp only [requested_ready hs]
  constructor
  · intro hready
    by_contra hc
    simp only [not_or,not_forall,Nat.not_le] at hc
    obtain ⟨hzero,hwait,u,hu,hut,hhalf⟩ := hc
    have hpos : 0 < s.waitMs.toNat := by
      refine Nat.pos_of_ne_zero fun h0 => hzero (UInt32.toNat_inj.mp ?_)
      rw [h0]
      rfl
    have hlow := hfirst u hu
    obtain ⟨before,after,hsplit⟩ := List.append_of_mem hu
    have hlast : (later.take (before.length+1)).getLastD t = u := by
      rw [hsplit,List.append_cons,List.take_left' (by simp),List.getLastD_concat]
    -- Ready is asked for when the first wait has ended and the last one has not.
    have hnow := hready (before.length+1) (max u (t+s.waitMs.toNat))
      (by rw [hlast]; exact Nat.le_max_left _ _) (Nat.le_max_right _ _)
      (Nat.max_lt.mpr ⟨hhalf,by omega⟩)
    rw [hlast,Clock.not_reached_before (by omega) (by omega)] at hnow
    cases hnow
  · intro hcond n now hlast hend hhalf
    have htake := last_mem t (later.take n)
    have hsame : s.waitMs = 0 ∨ (later.take n).getLastD t = t := by
      rcases hcond with h0 | hlong | hall
      · exact Or.inl h0
      · omega
      · rcases htake with htake | htake
        · exact Or.inr htake
        · rcases hall _ (List.mem_of_mem_take htake) with hu | hu
          · exact Or.inr hu
          · omega
    have hlow : t ≤ (later.take n).getLastD t := by
      rcases htake with htake | htake
      · exact Nat.le_of_eq htake.symm
      · exact hfirst _ (List.mem_of_mem_take htake)
    rcases hsame with h0 | hsame
    · have hzero : s.waitMs.toNat = 0 := by
        rw [h0]
        rfl
      rw [hzero,Nat.add_zero,Clock.reached_iff hlast]
      omega
    · rw [hsame,Clock.reached_iff hend]
      omega

def waitingRecovery : CanRecovery := canRecoveryInit 100 3

/-- A second bus-off notice after 50 ms puts the recovery off. -/
theorem notice_postpones :
    (¬∀ (s : CanRecovery) (t : ℕ) (later : List ℕ), s.state = .running →
        (t::later).Pairwise (·≤·) → NeverPostponed s t later) ∧
      canRecoveryReady (requested waitingRecovery 0 []) 100 = true ∧
      canRecoveryReady (requested waitingRecovery 0 [50]) 100 = false := by
  refine ⟨fun h => ?_,by decide,by decide⟩
  have hready := h waitingRecovery 0 [50] rfl (by decide) 1 100 (by decide) (by decide) (by decide)
  revert hready
  decide

theorem never_postponed_repeated :
    waitingRecovery.state = .running ∧ [0,0,0,2^31].Pairwise (·≤·) ∧
      NeverPostponed waitingRecovery 0 [0,0,2^31] := by
  have hsorted : [0,0,0,2^31].Pairwise (·≤·) := by decide
  refine ⟨rfl,hsorted,(never_postponed_iff waitingRecovery 0 [0,0,2^31] rfl hsorted).mpr ?_⟩
  exact Or.inr (Or.inr (by decide))

end CanopenReference.BusOffWait
