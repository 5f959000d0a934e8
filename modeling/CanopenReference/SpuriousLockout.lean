import CanopenReference.Library.History
import CanopenReference.SecurityAttempts

/-!
# Lockouts that nobody has earned

The lockout is a deadline alone, zero at first, and is compared with the tick by
the sign of the wrapped difference. The end of the last lockout, or the origin
of the tick, therefore lies ahead again half a turn later.
-/

set_option autoImplicit false

namespace CanopenReference.SpuriousLockout
open Library Library.Runs Library.History SecurityProvider SecurityAttempts

inductive LockoutCall where
  | attempt (call : ProviderCall)
  | sessionReset
  deriving DecidableEq

/-- A call some time after the last one. -/
def lockoutStep (c : Clocked) (input : ℕ × LockoutCall) : Clocked × List ProviderRecord :=
  match input.2 with
  | .attempt call => clockedStep c (input.1,call)
  | .sessionReset => (⟨udsSecurityProviderSessionReset c.provider,c.now+input.1⟩,[])

def lockoutEnd (lockout : ℕ) (r : ProviderRecord) : Option ℕ :=
  if r.result = .attemptsExceeded then some (r.time+lockout) else none

/-- The end of the last lockout, or the origin of the tick. -/
def lastEnd (lockout : ℕ) (records : List ProviderRecord) : ℕ :=
  (latest (lockoutEnd lockout) records).getD 0

/-- The provider is locked only while a wrong key that reached the limit is no
older than the lockout. -/
def LockEarned (c : Clocked) (records : List ProviderRecord) (now : ℕ) : Prop :=
  udsSecurityProviderIsLocked c.provider (UInt32.ofNat now) = true →
    ∃ r ∈ records, r.result = .attemptsExceeded ∧ r.time ≤ now ∧
      now < r.time+c.provider.lockoutMs.toNat

structure Dated (lockout : ℕ) (c : Clocked) (records : List ProviderRecord) : Prop where
  span : c.provider.lockoutMs.toNat = lockout
  deadline : c.provider.lockoutUntilMs = UInt32.ofNat (lastEnd lockout records)
  past : ∀ r ∈ records, r.time ≤ c.now
  last : ∀ r ∈ records, r.result = .attemptsExceeded → r.time+lockout ≤ lastEnd lockout records
  exceeded : lastEnd lockout records = 0 ∨
    ∃ r ∈ records, r.result = .attemptsExceeded ∧ r.time+lockout = lastEnd lockout records

section Step
variable {lockout : ℕ} {c : Clocked} {records : List ProviderRecord}

theorem dated_quiet (h : Dated lockout c records) (p : UdsSecurityProvider) (delay : ℕ)
    (events : List ProviderRecord) (hspan : p.lockoutMs = c.provider.lockoutMs)
    (huntil : p.lockoutUntilMs = c.provider.lockoutUntilMs)
    (he : ∀ r ∈ events, r.time = c.now+delay ∧ r.result ≠ .attemptsExceeded) :
    Dated lockout ⟨p,c.now+delay⟩ (records++events) := by
  have hsame : lastEnd lockout (records++events) = lastEnd lockout records := by
    rw [lastEnd,latest_quiet (lockoutEnd lockout) records events fun r hr => if_neg (he r hr).2,lastEnd]
  refine ⟨hspan ▸ h.span,?_,?_,?_,?_⟩
  · rw [hsame]
    exact huntil.trans h.deadline
  · intro r hr
    rcases List.mem_append.mp hr with hr | hr
    · exact Nat.le_trans (h.past r hr) (Nat.le_add_right _ _)
    · exact Nat.le_of_eq (he r hr).1
  · intro r hr hx
    rw [hsame]
    rcases List.mem_append.mp hr with hr | hr
    · exact h.last r hr hx
    · exact absurd hx (he r hr).2
  · rw [hsame]
    rcases h.exceeded with h0 | ⟨r,hr,hx⟩
    · exact Or.inl h0
    · exact Or.inr ⟨r,List.mem_append_left _ hr,hx⟩

theorem dated_exceeded (h : Dated lockout c records) (p : UdsSecurityProvider) (delay : ℕ)
    (e : ProviderRecord) (hspan : p.lockoutMs = c.provider.lockoutMs)
    (huntil : p.lockoutUntilMs = UInt32.ofNat (c.now+delay)+c.provider.lockoutMs)
    (htime : e.time = c.now+delay) (hx : e.result = .attemptsExceeded) :
    Dated lockout ⟨p,c.now+delay⟩ (records++[e]) := by
  have hend : lastEnd lockout (records++[e]) = c.now+delay+lockout := by
    rw [lastEnd,latest_concat,lockoutEnd,if_pos hx,htime]
    rfl
  refine ⟨hspan ▸ h.span,?_,?_,?_,?_⟩
  · rw [hend,UInt32.ofNat_add (c.now+delay),← h.span,UInt32.ofNat_toNat]
    exact huntil
  · intro r hr
    rcases List.mem_append.mp hr with hr | hr
    · exact Nat.le_trans (h.past r hr) (Nat.le_add_right _ _)
    · rw [List.mem_singleton.mp hr]
      exact Nat.le_of_eq htime
  · intro r hr _
    rw [hend]
    rcases List.mem_append.mp hr with hr | hr
    · have hle := h.past r hr
      omega
    · rw [List.mem_singleton.mp hr]
      exact Nat.le_of_eq (by rw [htime])
  · rw [hend]
    exact Or.inr ⟨e,by simp,hx,by rw [htime]⟩

theorem generate_keeps (p : UdsSecurityProvider) (level : UInt8) (capacity : ℕ) (t : UInt32) :
    (udsSecurityProviderGenerateSeed p level capacity t).1.lockoutMs = p.lockoutMs ∧
      (udsSecurityProviderGenerateSeed p level capacity t).1.lockoutUntilMs = p.lockoutUntilMs ∧
      (udsSecurityProviderGenerateSeed p level capacity t).2.1 ≠ .attemptsExceeded := by
  unfold udsSecurityProviderGenerateSeed
  by_cases hlevel : level = 0
  · simp [hlevel]
  by_cases hlocked : udsSecurityProviderIsLocked p t = true
  · simp [hlevel,hlocked]
  by_cases hroom : capacity < udsSecurityProviderSeedLength
  · simp [hlevel,hlocked,hroom]
  · simp [hlevel,hlocked,hroom]

theorem step_dated (c : Clocked) (records : List ProviderRecord) (input : ℕ × LockoutCall)
    (h : Dated lockout c records) :
    Dated lockout (lockoutStep c input).1 (records++(lockoutStep c input).2) := by
  obtain ⟨delay,call⟩ := input
  cases call with
  | sessionReset => exact dated_quiet h _ delay [] rfl rfl fun r hr => by cases hr
  | attempt call =>
    cases call with
    | generateSeed level capacity =>
      obtain ⟨hspan,huntil,hresult⟩ :=
        generate_keeps c.provider level capacity (UInt32.ofNat (c.now+delay))
      exact dated_quiet h _ delay _ hspan huntil fun r hr => by
        rw [List.mem_singleton.mp hr]
        exact ⟨rfl,hresult⟩
    | verifyKey level key =>
      have ho := verify_outcome c.provider level key (UInt32.ofNat (c.now+delay))
      simp only [lockoutStep,clockedStep]
      generalize udsSecurityProviderVerifyKey c.provider level key (UInt32.ofNat (c.now+delay)) = v
        at ho
      cases ho with
      | refused result hresult _ =>
        refine dated_quiet h _ delay _ rfl rfl fun r hr => ?_
        rw [List.mem_singleton.mp hr]
        rcases hresult with rfl | rfl | rfl <;> exact ⟨rfl,nofun⟩
      | exceeded _ _ _ => exact dated_exceeded h _ delay _ rfl rfl rfl rfl
      | wrong _ _ _ =>
        refine dated_quiet h _ delay _ rfl rfl fun r hr => ?_
        rw [List.mem_singleton.mp hr]
        exact ⟨rfl,nofun⟩
      | accepted _ _ =>
        refine dated_quiet h _ delay _ rfl rfl fun r hr => ?_
        rw [List.mem_singleton.mp hr]
        exact ⟨rfl,nofun⟩

theorem dated_earned (h : Dated lockout c records) {now : ℕ} (hnow : c.now ≤ now) :
    LockEarned c records now ↔
      now < lastEnd lockout records ∨ (now-lastEnd lockout records)%2^32 < 2^31 := by
  by_cases hrun : now < lastEnd lockout records
  · refine iff_of_true (fun _ => ?_) (Or.inl hrun)
    rcases h.exceeded with h0 | ⟨r,hr,hx,hend⟩
    · omega
    · exact ⟨r,hr,hx,Nat.le_trans (h.past r hr) hnow,by rw [h.span]; omega⟩
  · have hreached := Clock.reached_iff (Nat.le_of_not_lt hrun)
    rw [← h.deadline] at hreached
    have hunearned : ¬∃ r ∈ records, r.result = .attemptsExceeded ∧ r.time ≤ now ∧
        now < r.time+c.provider.lockoutMs.toNat := by
      rintro ⟨r,hr,hx,_,hlt⟩
      have hle := h.last r hr hx
      rw [h.span] at hlt
      omega
    rw [LockEarned,udsSecurityProviderIsLocked,deadlineActive,or_iff_right hrun,← hreached,
      Bool.not_eq_true']
    constructor
    · intro hlocked
      by_contra hn
      exact hunearned (hlocked (by simpa using hn))
    · intro hopen hlocked
      rw [hopen] at hlocked
      cases hlocked

end Step

/-- At any time after any calls, the provider is locked by nothing but a recent
lockout exactly when that time lies before the end of the last lockout or in the
first half of a turn of the tick counted from there, and from zero where there
was none. -/
theorem lock_earned_iff (seed : UInt32) (attempts : UInt8) (lockout : UInt32) (start : ℕ)
    (calls : List (ℕ × LockoutCall)) (later : ℕ) :
    let p := udsSecurityProviderInit seed attempts lockout
    let r := run lockoutStep ⟨p,start⟩ calls
    let last := lastEnd p.lockoutMs.toNat r.2
    let now := r.1.now+later
    LockEarned r.1 r.2 now ↔ now < last ∨ (now-last)%2^32 < 2^31 := by
  intro p r last now
  have hinit : Dated p.lockoutMs.toNat ⟨p,start⟩ [] :=
    ⟨rfl,rfl,(fun x hx => by cases hx),(fun x hx => by cases hx),Or.inl rfl⟩
  have hdated := along_history lockoutStep (fun _ _ => True) (Dated p.lockoutMs.toNat)
    (fun c records input h _ => step_dated c records input h) _ [] calls hinit
    (along_true lockoutStep _ calls)
  exact dated_earned hdated (Nat.le_add_right _ _)

/-- Half a turn after the start of the tick, a provider that was never asked
anything is locked. -/
theorem untouched_locked :
    let c : Clocked := ⟨udsSecurityProviderInit 0x12345678 3 100,0⟩
    ¬LockEarned (run lockoutStep c []).1 (run lockoutStep c []).2 (2^31) := by
  intro c h
  obtain ⟨r,hr,_⟩ := h (by decide +kernel)
  cases hr

end CanopenReference.SpuriousLockout
