import Mathlib.Data.List.Infix
import CanopenReference.Library.History
import CanopenReference.Library.Runs
import CanopenReference.BusOff

/-!
# Counting the recovery attempts

The recovery object counts its failed attempts. A success takes it back to
running and leaves the counter, and a further failure may wrap it.
-/

set_option autoImplicit false

namespace CanopenReference.BusOffRetries
open Library Library.Runs Library.History BusOff

inductive RecoveryCall where
  | init (waitMs maxAttempts : UInt32)
  | request (nowTick : UInt32)
  | ready (nowTick : UInt32)
  | complete (success : Bool) (nowTick : UInt32)
  deriving DecidableEq

def recoveryStep (s : CanRecovery) (call : RecoveryCall) : CanRecovery × List RecoveryCall :=
  match call with
  | .init waitMs maxAttempts => (canRecoveryInit waitMs maxAttempts,[call])
  | .request now => (canRecoveryRequest s now,[call])
  | .ready _ => (s,[call])
  | .complete success now => (canRecoveryComplete s success now,[call])

def isInit : RecoveryCall → Bool
  | .init _ _ => true
  | _ => false

def limitSet : RecoveryCall → Option UInt32
  | .init _ maxAttempts => some maxAttempts
  | _ => none

def streakAfter (k : ℕ) : RecoveryCall → ℕ
  | .complete true _ => 0
  | .complete false _ => k+1
  | _ => k

def streak (calls : List RecoveryCall) : ℕ := calls.foldl streakAfter 0

/-- The limit of the last initialisation, `first` for that of the start. -/
def limit (first : UInt32) (past : List RecoveryCall) : UInt32 := (latest limitSet past).getD first

/-- At some time since the last initialisation, as many attempts in a row had
failed as the limit allows. -/
def Exhausted (first : UInt32) (past : List RecoveryCall) : Prop :=
  limit first past ≠ 0 ∧
    ∃ front ∈ (since isInit past).inits, streak front = (limit first past).toNat

instance exhaustedDecidable (first : UInt32) (past : List RecoveryCall) :
    Decidable (Exhausted first past) := inferInstanceAs (Decidable (_ ∧ _))

def JustSucceeded (past : List RecoveryCall) : Prop :=
  ∃ before now, past = before++[.complete true now]

/-- The object is in fault exactly when its attempts are exhausted, and counts
from zero after a success. -/
structure Contract (first : UInt32) (s : CanRecovery) (past : List RecoveryCall) : Prop where
  latched : s.state = .fault ↔ Exhausted first past
  afresh : JustSucceeded past → s.attempts = 0

/-- No success comes after a failure or in fault, and no failure in fault wraps
the counter. -/
def Counted (s : CanRecovery) : RecoveryCall → Prop
  | .complete true _ => s.state ≠ .fault ∧ s.attempts = 0
  | .complete false _ => s.state = .fault → s.attempts+1 ≠ 0
  | _ => True

theorem streak_concat (calls : List RecoveryCall) (call : RecoveryCall) :
    streak (calls++[call]) = streakAfter (streak calls) call := by
  rw [streak,List.foldl_append]
  rfl

section Histories
variable {first : UInt32} {past : List RecoveryCall} {call : RecoveryCall}

theorem limit_kept (h : isInit call = false) : limit first (past++[call]) = limit first past := by
  have hquiet : limitSet call = none := by
    cases call with
    | init _ _ => cases h
    | _ => rfl
  rw [limit,latest_concat,hquiet,Option.none_or,limit]

theorem exhausted_concat (h : isInit call = false) :
    Exhausted first (past++[call]) ↔ Exhausted first past ∨
      limit first past ≠ 0 ∧
        streakAfter (streak (since isInit past)) call = (limit first past).toNat := by
  have hsince : since isInit (past++[call]) = since isInit past++[call] := by
    rw [since_concat,h]
    rfl
  unfold Exhausted
  rw [limit_kept h,hsince,← streak_concat]
  simp only [List.mem_inits,List.prefix_concat_iff]
  constructor
  · rintro ⟨hlimit,front,rfl | hfront,hstreak⟩
    · exact Or.inr ⟨hlimit,hstreak⟩
    · exact Or.inl ⟨hlimit,front,hfront,hstreak⟩
  · rintro (⟨hlimit,front,hfront,hstreak⟩ | ⟨hlimit,hstreak⟩)
    · exact ⟨hlimit,front,Or.inr hfront,hstreak⟩
    · exact ⟨hlimit,_,Or.inl rfl,hstreak⟩

theorem fresh_not_exhausted (waitMs maxAttempts : UInt32) :
    ¬Exhausted first (past++[.init waitMs maxAttempts]) := by
  have hsince : since isInit (past++[.init waitMs maxAttempts]) = [] := by
    rw [since_concat]
    rfl
  have hlimit : limit first (past++[.init waitMs maxAttempts]) = maxAttempts := by
    rw [limit,latest_concat]
    rfl
  rintro ⟨hzero,front,hfront,hstreak⟩
  rw [hsince,List.mem_inits,List.prefix_nil] at hfront
  rw [hlimit] at hzero hstreak
  rw [hfront] at hstreak
  exact hzero (UInt32.toNat_inj.mp hstreak.symm)

theorem succeeded_concat : JustSucceeded (past++[call]) ↔ ∃ now, call = .complete true now := by
  constructor
  · rintro ⟨before,now,h⟩
    exact ⟨now,(List.append_inj' h rfl).2 |> List.cons.inj |>.1⟩
  · rintro ⟨now,rfl⟩
    exact ⟨past,now,rfl⟩

end Histories

structure Tracks (first : UInt32) (s : CanRecovery) (past : List RecoveryCall) : Prop where
  limit : s.maxAttempts = limit first past
  fault : s.state = .fault → Exhausted first past ∧ s.maxAttempts ≤ s.attempts
  counting : s.state ≠ .fault → ¬Exhausted first past ∧
    (s.maxAttempts ≠ 0 → s.attempts.toNat = streak (since isInit past) ∧ s.attempts < s.maxAttempts)
  afresh : JustSucceeded past → s.attempts = 0

theorem tracks_contract {first : UInt32} {s : CanRecovery} {past : List RecoveryCall}
    (h : Tracks first s past) : Contract first s past := by
  refine ⟨⟨fun hf => (h.fault hf).1,fun he => ?_⟩,h.afresh⟩
  by_contra hf
  exact (h.counting hf).1 he

section Steps
variable {first : UInt32} {s : CanRecovery} {past : List RecoveryCall}

theorem init_tracks (waitMs maxAttempts : UInt32) :
    Tracks first (canRecoveryInit waitMs maxAttempts) (past++[.init waitMs maxAttempts]) := by
  refine ⟨?_,(fun h => by cases h),fun _ => ⟨fresh_not_exhausted waitMs maxAttempts,fun h0 => ?_⟩,
    fun _ => rfl⟩
  · rw [BusOffRetries.limit,latest_concat]
    rfl
  · rw [since_concat]
    exact ⟨rfl,UInt32.pos_iff_ne_zero.mpr h0⟩

theorem below_limit (h : Tracks first s past) (hs : s.state ≠ .fault) :
    limit first past ≠ 0 → streak (since isInit past) ≠ (limit first past).toNat := by
  intro h0 hstreak
  rw [← h.limit] at h0 hstreak
  obtain ⟨hattempts,hlow⟩ := (h.counting hs).2 h0
  have hlt := UInt32.lt_iff_toNat_lt.mp hlow
  omega

theorem quiet_tracks {call : RecoveryCall} {s' : CanRecovery} (h : Tracks first s past)
    (hinit : isInit call = false) (hquiet : ∀ k, streakAfter k call = k)
    (hcomplete : ∀ now, call ≠ .complete true now) (hattempts : s'.attempts = s.attempts)
    (hlimit : s'.maxAttempts = s.maxAttempts) (hstate : s'.state = .fault ↔ s.state = .fault) :
    Tracks first s' (past++[call]) := by
  have hsince : streak (since isInit (past++[call])) = streak (since isInit past) := by
    rw [since_concat,hinit,if_neg Bool.false_ne_true,streak_concat,hquiet]
  refine ⟨?_,fun hf => ?_,fun hs => ?_,fun hj => ?_⟩
  · rw [hlimit,limit_kept hinit]
    exact h.limit
  · obtain ⟨he,hle⟩ := h.fault (hstate.mp hf)
    rw [hattempts,hlimit]
    exact ⟨(exhausted_concat hinit).mpr (Or.inl he),hle⟩
  · have hs' : s.state ≠ .fault := fun hf => hs (hstate.mpr hf)
    obtain ⟨hnot,hcount⟩ := h.counting hs'
    rw [hattempts,hlimit,hsince]
    refine ⟨fun he => ?_,hcount⟩
    rcases (exhausted_concat hinit).mp he with he | ⟨h0,hstreak⟩
    · exact hnot he
    · rw [hquiet] at hstreak
      exact below_limit h hs' h0 hstreak
  · obtain ⟨now,rfl⟩ := succeeded_concat.mp hj
    exact absurd rfl (hcomplete now)

theorem success_tracks (now : UInt32) (h : Tracks first s past) (hs : s.state ≠ .fault)
    (h0 : s.attempts = 0) :
    Tracks first (canRecoveryComplete s true now) (past++[.complete true now]) := by
  have hinit : isInit (.complete true now) = false := rfl
  have hsince : streak (since isInit (past++[.complete true now])) = 0 := by
    rw [since_concat,hinit,if_neg Bool.false_ne_true,streak_concat]
    rfl
  refine ⟨?_,(fun hf => by cases hf),fun _ => ⟨fun he => ?_,fun hl => ?_⟩,fun _ => h0⟩
  · rw [limit_kept hinit]
    exact h.limit
  · rcases (exhausted_concat hinit).mp he with he | ⟨hl,hstreak⟩
    · exact (h.counting hs).1 he
    · exact hl (UInt32.toNat_inj.mp hstreak.symm)
  · have hattempts : (canRecoveryComplete s true now).attempts = 0 := h0
    rw [hsince,hattempts]
    exact ⟨rfl,UInt32.pos_iff_ne_zero.mpr hl⟩

theorem failure_next (s : CanRecovery) (now : UInt32) :
    (canRecoveryComplete s false now).attempts = s.attempts+1 ∧
      (canRecoveryComplete s false now).maxAttempts = s.maxAttempts ∧
      ((canRecoveryComplete s false now).state = .fault ↔
        s.maxAttempts ≠ 0 ∧ s.maxAttempts ≤ s.attempts+1) := by
  rw [canRecoveryComplete,if_neg Bool.false_ne_true]
  simp only
  split
  · rename_i hreach
    exact ⟨rfl,rfl,iff_of_true rfl hreach⟩
  · rename_i hreach
    exact ⟨rfl,rfl,iff_of_false (fun hf => by cases hf) hreach⟩

theorem next_attempt {attempts : UInt32} (h : attempts+1 ≠ 0) :
    (attempts+1).toNat = attempts.toNat+1 := by
  have hadd : (attempts+1).toNat = (attempts.toNat+1)%2^32 := UInt32.toNat_add _ _
  have hsmall := attempts.toNat_lt
  by_contra hwrap
  refine h (UInt32.toNat_inj.mp ?_)
  rw [hadd,show attempts.toNat+1 = 2^32 by omega]
  rfl

theorem low_attempt {attempts limit : UInt32} (h : attempts < limit) : attempts+1 ≠ 0 := by
  intro hwrap
  have hadd : (attempts+1).toNat = (attempts.toNat+1)%2^32 := UInt32.toNat_add _ _
  have hlimit := limit.toNat_lt
  rw [UInt32.lt_iff_toNat_lt] at h
  rw [hwrap] at hadd
  change 0 = _ at hadd
  omega

theorem failure_tracks (now : UInt32) (h : Tracks first s past)
    (hc : s.state = .fault → s.attempts+1 ≠ 0) :
    Tracks first (canRecoveryComplete s false now) (past++[.complete false now]) := by
  have hinit : isInit (.complete false now) = false := rfl
  have hstreak : streakAfter (streak (since isInit past)) (.complete false now) =
      streak (since isInit past)+1 := rfl
  have hsince : streak (since isInit (past++[.complete false now])) =
      streak (since isInit past)+1 := by
    rw [since_concat,hinit,if_neg Bool.false_ne_true,streak_concat,hstreak]
  obtain ⟨hattempts,hmax,hstate⟩ := failure_next s now
  refine ⟨?_,fun hf => ?_,fun hs => ?_,fun hj => ?_⟩
  · rw [hmax,limit_kept hinit]
    exact h.limit
  · obtain ⟨hzero,hreach⟩ := hstate.mp hf
    rw [hattempts,hmax]
    refine ⟨(exhausted_concat hinit).mpr ?_,hreach⟩
    by_cases hfault : s.state = .fault
    · exact Or.inl (h.fault hfault).1
    · obtain ⟨hcount,hlow⟩ := (h.counting hfault).2 hzero
      rw [UInt32.le_iff_toNat_le,next_attempt (low_attempt hlow)] at hreach
      rw [UInt32.lt_iff_toNat_lt] at hlow
      refine Or.inr ⟨h.limit ▸ hzero,?_⟩
      rw [hstreak,← h.limit,← hcount]
      omega
  · rw [hattempts,hmax,hsince]
    have hfault : s.state ≠ .fault := by
      intro hfault
      obtain ⟨he,hle⟩ := h.fault hfault
      refine hs (hstate.mpr ⟨h.limit ▸ he.1,?_⟩)
      rw [UInt32.le_iff_toNat_le] at hle ⊢
      rw [next_attempt (hc hfault)]
      omega
    obtain ⟨hnot,hcount⟩ := h.counting hfault
    refine ⟨fun he => ?_,fun hzero => ?_⟩
    · rcases (exhausted_concat hinit).mp he with he | ⟨hlimit,hreached⟩
      · exact hnot he
      · rw [← h.limit] at hlimit hreached
        obtain ⟨hattempt,hlow⟩ := hcount hlimit
        refine hs (hstate.mpr ⟨hlimit,?_⟩)
        rw [UInt32.le_iff_toNat_le,next_attempt (low_attempt hlow)]
        omega
    · obtain ⟨hattempt,hlow⟩ := hcount hzero
      refine ⟨by rw [next_attempt (low_attempt hlow),hattempt],UInt32.not_le.mp fun hreach => ?_⟩
      exact hs (hstate.mpr ⟨hzero,hreach⟩)
  · obtain ⟨t,ht⟩ := succeeded_concat.mp hj
    cases ht

theorem tracks_step (s : CanRecovery) (past : List RecoveryCall) (call : RecoveryCall)
    (h : Tracks first s past) (hc : Counted s call) :
    Tracks first (recoveryStep s call).1 (past++(recoveryStep s call).2) := by
  cases call with
  | init waitMs maxAttempts => exact init_tracks waitMs maxAttempts
  | ready now => exact quiet_tracks h rfl (fun _ => rfl) (fun _ => by simp) rfl rfl Iff.rfl
  | request now =>
    simp only [recoveryStep,canRecoveryRequest]
    split
    · exact quiet_tracks h rfl (fun _ => rfl) (fun _ => by simp) rfl rfl Iff.rfl
    · rename_i hs
      exact quiet_tracks h rfl (fun _ => rfl) (fun _ => by simp) rfl rfl
        (iff_of_false (fun hf => by cases hf) hs)
  | complete success now =>
    cases success with
    | true => exact success_tracks now h hc.1 hc.2
    | false => exact failure_tracks now h hc

theorem contract_counted (s : CanRecovery) (past : List RecoveryCall) (call : RecoveryCall)
    (h : Tracks first s past)
    (hnext : Contract first (recoveryStep s call).1 (past++(recoveryStep s call).2)) :
    Counted s call := by
  have hfault : s.state = .fault → isInit call = false →
      (recoveryStep s call).1.state = .fault := by
    intro hf hinit
    refine hnext.latched.mpr ?_
    have hpast : (recoveryStep s call).2 = [call] := by cases call <;> rfl
    rw [hpast]
    exact (exhausted_concat hinit).mpr (Or.inl (h.fault hf).1)
  cases call with
  | init _ _ | request _ | ready _ => trivial
  | complete success now =>
    cases success with
    | true =>
      refine ⟨fun hf => ?_,hnext.afresh ⟨past,now,rfl⟩⟩
      cases hfault hf rfl
    | false =>
      intro hf hwrap
      have hstill := hfault hf rfl
      simp only [recoveryStep,canRecoveryComplete,hwrap] at hstill
      rw [if_neg Bool.false_ne_true,if_neg] at hstill
      · cases hstill
      · exact fun hm => hm.1 (UInt32.le_zero_iff.mp hm.2)

end Steps

/-- From every initialisation and under any calls, the object is in fault
exactly when its attempts are exhausted and counts afresh after each success,
in every state of the run, exactly when all calls are counted. -/
theorem retry_contract_iff (waitMs maxAttempts : UInt32) (calls : List RecoveryCall) :
    let start := canRecoveryInit waitMs maxAttempts
    (∀ n, Contract maxAttempts (run recoveryStep start (calls.take n)).1
        (run recoveryStep start (calls.take n)).2) ↔
      Along recoveryStep Counted start calls := by
  intro start
  have hstart : Tracks maxAttempts start [] := by
    refine ⟨rfl,(fun h => by cases h),fun _ => ⟨?_,fun h0 => ?_⟩,?_⟩
    · rintro ⟨h0,front,hfront,hstreak⟩
      rw [List.mem_inits] at hfront
      rw [List.prefix_nil.mp hfront] at hstreak
      exact h0 (UInt32.toNat_inj.mp hstreak.symm)
    · exact ⟨rfl,UInt32.pos_iff_ne_zero.mpr h0⟩
    · rintro ⟨before,now,h⟩
      cases before <;> cases h
  have hrun := along_iff_shown recoveryStep Counted (Tracks maxAttempts) (Contract maxAttempts)
    (fun _ _ h => tracks_contract h) tracks_step contract_counted start [] calls hstart
  simpa only [List.nil_append] using hrun

def interruptedFailures : List RecoveryCall :=
  [.request 0,.complete false 10,.complete true 20,.request 30,.complete false 40]

/-- Two failures with a success between them use up two attempts in a row, and a
success takes the object out of fault. -/
theorem success_not_afresh :
    (¬∀ (waitMs maxAttempts : UInt32) (calls : List RecoveryCall) (n : ℕ),
        let done := run recoveryStep (canRecoveryInit waitMs maxAttempts) (calls.take n)
        Contract maxAttempts done.1 done.2) ∧
      (run recoveryStep (canRecoveryInit 10 2) interruptedFailures).1.state = .fault ∧
      ¬Exhausted 2 (run recoveryStep (canRecoveryInit 10 2) interruptedFailures).2 ∧
      (run recoveryStep (canRecoveryInit 10 1) [.complete false 10,.complete true 20]).1.state =
        .running := by
  have hfault : (run recoveryStep (canRecoveryInit 10 2) interruptedFailures).1.state = .fault := by
    decide
  have hnot : ¬Exhausted 2 (run recoveryStep (canRecoveryInit 10 2) interruptedFailures).2 := by
    decide
  exact ⟨fun h => hnot ((h 10 2 interruptedFailures 5).latched.mp hfault),hfault,hnot,by decide⟩

end CanopenReference.BusOffRetries
