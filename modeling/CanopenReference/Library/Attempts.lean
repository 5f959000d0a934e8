import Mathlib.Data.List.Induction
import CanopenReference.Library.Runs

/-!
# Challenges, answers and lockouts

A log of attempts at a challenge: a challenge is issued, an answer is compared
with it and found right or wrong, and the last wrong answer that is allowed
locks the lock for some time. The limiter says which attempts are allowed after
which log; a lawful log keeps the limits.
-/

set_option autoImplicit false

namespace Library.Attempts
open Library.Runs

inductive Verdict where
  | refused
  | issued
  | accepted
  | wrong
  | exceeded
  deriving DecidableEq, Repr

structure Attempt where
  time : ℕ
  verdict : Verdict
  deriving DecidableEq, Repr

/-- An answer was compared with the challenge. -/
def Compared (a : Attempt) : Prop :=
  a.verdict = .accepted ∨ a.verdict = .wrong ∨ a.verdict = .exceeded

def Ends (a : Attempt) : Prop := a.verdict = .accepted ∨ a.verdict = .exceeded

def wrongAnswer (a : Attempt) : Bool := a.verdict = .wrong ∨ a.verdict = .exceeded

def ChallengePending (log : List Attempt) : Prop :=
  ∃ before a after, log = before++a::after ∧ a.verdict = .issued ∧ ∀ x ∈ after, ¬Compared x

/-- Every challenge is compared with at most one answer. -/
def OneAnswer : List Attempt → Prop :=
  Always fun before a => Compared a → ChallengePending before

/-- At most `maximum` wrong answers from one success or lockout to the next. -/
def WrongBounded (maximum : ℕ) : List Attempt → Prop :=
  Always fun before a => ∀ front middle, before = front++middle → (∀ x ∈ middle, ¬Ends x) →
    (middle++[a]).countP wrongAnswer ≤ maximum

/-- Nothing but a refusal for `lockout` after the last wrong answer. -/
def LockoutKept (lockout : ℕ) : List Attempt → Prop :=
  Always fun before a => ∀ r ∈ before, r.verdict = .exceeded → a.time < r.time+lockout →
    a.verdict = .refused

structure Limiter where
  pending : Bool
  failed : ℕ
  lockedUntil : ℕ
  deriving DecidableEq, Repr

/-- The limiter after one more attempt. -/
def Limiter.next (lockout : ℕ) (s : Limiter) (a : Attempt) : Limiter :=
  match a.verdict with
  | .refused => s
  | .issued => { s with pending := true }
  | .accepted => { s with pending := false, failed := 0 }
  | .wrong => { s with pending := false, failed := s.failed+1 }
  | .exceeded => ⟨false,0,a.time+lockout⟩

def Limiter.after (lockout : ℕ) (log : List Attempt) : Limiter :=
  log.foldl (Limiter.next lockout) ⟨false,0,0⟩

/-- The attempts that the limiter allows: a refusal always, the rest outside a
lockout, and an answer to a pending challenge only. -/
def Limiter.Allows (maximum : ℕ) (s : Limiter) (a : Attempt) : Prop :=
  match a.verdict with
  | .refused => True
  | .issued => s.lockedUntil ≤ a.time
  | .accepted => s.lockedUntil ≤ a.time ∧ s.pending = true
  | .wrong => s.lockedUntil ≤ a.time ∧ s.pending = true ∧ s.failed+1 < maximum
  | .exceeded => s.lockedUntil ≤ a.time ∧ s.pending = true ∧ s.failed+1 ≤ maximum

def Lawful (maximum lockout : ℕ) : List Attempt → Prop :=
  Always fun before a => (Limiter.after lockout before).Allows maximum a

section Lawful
variable {maximum lockout : ℕ}

@[simp] theorem after_concat (log : List Attempt) (a : Attempt) :
    Limiter.after lockout (log++[a]) = (Limiter.after lockout log).next lockout a := by
  simp [Limiter.after]

theorem allows_open {s : Limiter} {a : Attempt} (h : s.Allows maximum a)
    (ha : a.verdict ≠ .refused) : s.lockedUntil ≤ a.time := by
  unfold Limiter.Allows at h
  split at h
  · exact absurd ‹_› ha
  · exact h
  all_goals exact h.1

theorem allows_pending {s : Limiter} {a : Attempt} (h : s.Allows maximum a) (ha : Compared a) :
    s.pending = true := by
  unfold Limiter.Allows at h
  rcases ha with ha | ha | ha
  · rw [ha] at h
    exact h.2
  · rw [ha] at h
    exact h.2.1
  · rw [ha] at h
    exact h.2.1

theorem allows_wrong {s : Limiter} {a : Attempt} (h : s.Allows maximum a)
    (ha : wrongAnswer a = true) : s.failed+1 ≤ maximum := by
  unfold Limiter.Allows at h
  rcases of_decide_eq_true ha with ha | ha
  · rw [ha] at h
    exact Nat.le_of_lt h.2.2
  · rw [ha] at h
    exact h.2.2

theorem pending_concat {log : List Attempt} {a : Attempt}
    (h : (Limiter.after lockout log).pending = true → ChallengePending log)
    (hp : (Limiter.after lockout (log++[a])).pending = true) : ChallengePending (log++[a]) := by
  rw [after_concat] at hp
  unfold Limiter.next at hp
  split at hp
  · rename_i ha
    obtain ⟨before,x,after,rfl,hx,hafter⟩ := h hp
    refine ⟨before,x,after++[a],by simp,hx,fun y hy => ?_⟩
    rcases List.mem_append.mp hy with hy | hy
    · exact hafter y hy
    · rw [List.mem_singleton.mp hy,Compared,ha]
      simp
  · rename_i ha
    exact ⟨log,a,[],rfl,ha,by simp⟩
  all_goals cases hp

theorem pending_sound (log : List Attempt)
    (hp : (Limiter.after lockout log).pending = true) : ChallengePending log := by
  induction log using List.reverseRecOn with
  | nil => cases hp
  | append_singleton log a ih => exact pending_concat ih hp

theorem failed_counts (front middle : List Attempt) (h : ∀ x ∈ middle, ¬Ends x) :
    middle.countP wrongAnswer ≤ (Limiter.after lockout (front++middle)).failed := by
  induction middle using List.reverseRecOn with
  | nil => exact Nat.zero_le _
  | append_singleton middle a ih =>
    obtain ⟨hmiddle,ha⟩ := List.forall_mem_append.mp h
    have hn : ¬Ends a := ha a (List.mem_singleton_self a)
    have hcount := ih hmiddle
    rw [← List.append_assoc,after_concat,List.countP_append,List.countP_singleton]
    obtain ⟨time,verdict⟩ := a
    cases verdict with
    | refused => exact hcount
    | issued => exact hcount
    | accepted => exact absurd (Or.inl rfl) hn
    | wrong => exact Nat.succ_le_succ hcount
    | exceeded => exact absurd (Or.inr rfl) hn

theorem failed_bounded {log : List Attempt} (h : Lawful maximum lockout log) :
    (Limiter.after lockout log).failed ≤ maximum := by
  induction log using List.reverseRecOn with
  | nil => exact Nat.zero_le _
  | append_singleton log a ih =>
    have hallowed := h log a [] rfl
    have hle := ih (always_front h)
    rw [after_concat]
    unfold Limiter.next
    split
    · exact hle
    · exact hle
    · exact Nat.zero_le _
    · rename_i ha
      exact allows_wrong hallowed (by simp [wrongAnswer,ha])
    · exact Nat.zero_le _

theorem lockout_sound {log : List Attempt} (h : Lawful maximum lockout log) {r : Attempt}
    (hr : r ∈ log) (hv : r.verdict = .exceeded) :
    r.time+lockout ≤ (Limiter.after lockout log).lockedUntil := by
  induction log using List.reverseRecOn with
  | nil => cases hr
  | append_singleton log a ih =>
    have hallowed := h log a [] rfl
    rw [after_concat]
    rcases List.mem_append.mp hr with hr | hr
    · have hle := ih (always_front h) hr
      unfold Limiter.next
      split
      all_goals first | exact hle | skip
      rename_i ha
      have hopen := allows_open hallowed (by rw [ha]; decide)
      show r.time+lockout ≤ a.time+lockout
      omega
    · obtain ⟨time,verdict⟩ := a
      obtain rfl := List.mem_singleton.mp hr
      cases hv
      exact Nat.le_refl _

theorem lawful_one_answer {log : List Attempt} (h : Lawful maximum lockout log) :
    OneAnswer log := fun before a after hsplit ha =>
  pending_sound before (allows_pending (h before a after hsplit) ha)

theorem lawful_bounded {log : List Attempt} (h : Lawful maximum lockout log) :
    WrongBounded maximum log := by
  intro before a after hsplit front middle hbefore hmiddle
  have hcount := @failed_counts lockout front middle hmiddle
  rw [← hbefore] at hcount
  rw [List.countP_append,List.countP_singleton]
  split
  · rename_i ha
    have hleft := allows_wrong (h before a after hsplit) ha
    omega
  · have hbefore' : Lawful maximum lockout before := by
      rw [hsplit] at h
      exact always_front h
    have hbound := failed_bounded hbefore'
    omega

theorem lawful_lockout {log : List Attempt} (h : Lawful maximum lockout log) :
    LockoutKept lockout log := by
  intro before a after hsplit r hr hv htime
  have hbefore : Lawful maximum lockout before := by
    rw [hsplit] at h
    exact always_front h
  by_contra ha
  have hopen := allows_open (h before a after hsplit) ha
  have hlocked := lockout_sound hbefore hr hv
  omega

end Lawful
end Library.Attempts
