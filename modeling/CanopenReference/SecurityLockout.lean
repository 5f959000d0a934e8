import CanopenReference.Lifetime
import CanopenReference.SecurityAnswers

/-!
# The lockout and the communication reset

The exchanges of a run are a log of attempts at the provider. A communication
reset initialises the provider again, with the rest of the diagnostic runtime.
-/

set_option autoImplicit false

namespace CanopenReference.SecurityLockout
open Library Library.Runs Library.Attempts Download SecurityProvider Uds Diagnostics Handling
open Dialogue Lifetime SecurityAttempts SecurityAnswers

theorem answered_moves {s : Limiter} {p next : UdsSecurityProvider} {now : ℕ} {verdict : Verdict}
    (h : Refines s p now) (hlockout : p.lockoutMs.toNat < 2^31)
    (ha : Answered p (UInt32.ofNat now) next verdict) : Moves s p next ⟨now,verdict⟩ := by
  cases ha with
  | refused => exact refused_moves h
  | seed level capacity => exact generate_moves h hlockout level capacity
  | key level key => exact verify_moves h hlockout level key

def securityAttempts (time : ℕ) (exchanges : List Exchange) : List Attempt :=
  (exchanges.filter fun x => byteAt x.request 0 = 0x27).map fun x => ⟨time,securityVerdict x⟩

theorem attempts_one (time : ℕ) (x : Exchange) : securityAttempts time [x] =
    if byteAt x.request 0 = 0x27 then [⟨time,securityVerdict x⟩] else [] := by
  by_cases h : byteAt x.request 0 = 0x27
  · simp [securityAttempts,h]
  · simp [securityAttempts,h]

/-- The application with the real time of its last move and the log of the
attempts answered since the last reset of the MCU. -/
structure Logged (μ : Type) where
  app : UdsApplication μ
  now : ℕ
  log : List Attempt

section Run
variable {μ : Type} (callbacks : Option (UdsDownloadCallbacks μ))

def booted (memory : μ) (start : ℕ) : Logged μ :=
  ⟨applicationInit callbacks memory (UInt32.ofNat start),start,[]⟩

/-- A move some time after the last one. -/
def loggedStep (l : Logged μ) (input : ℕ × LifeInput) : Logged μ × List Exchange :=
  let now := l.now+input.1
  let moved := lifeStep callbacks l.app (UInt32.ofNat now,input.2)
  (⟨moved.1,now,l.log++securityAttempts now moved.2⟩,moved.2)

/-- The provider still has the count of failed attempts and the lockout that the
log has led to. -/
structure CountKept (l : Logged μ) : Prop where
  failed : l.app.context.security.failedAttempts.toNat = (Limiter.after 10000 l.log).failed
  locked : l.now < (Limiter.after 10000 l.log).lockedUntil →
    l.app.context.security.lockoutUntilMs = UInt32.ofNat (Limiter.after 10000 l.log).lockedUntil

/-- At a communication reset no failed attempt is counted and no lockout runs,
unless it ends at the wrap of the tick. -/
def SettledReset (l : Logged μ) (input : ℕ × LifeInput) : Prop :=
  match input.2 with
  | .communicationReset _ =>
    let limiter := Limiter.after 10000 l.log
    limiter.failed = 0 ∧
      (l.now+input.1 < limiter.lockedUntil → UInt32.ofNat limiter.lockedUntil = 0)
  | _ => True

structure Tracked (l : Logged μ) : Prop where
  maximum : l.app.context.security.maximumAttempts = 3
  lockout : l.app.context.security.lockoutMs = 10000
  refines : Refines (Limiter.after 10000 l.log) l.app.context.security l.now
  lawful : Lawful 3 10000 l.log

theorem tracked_kept {l : Logged μ} (h : Tracked l) : LockoutKept 10000 l.log ∧ CountKept l :=
  ⟨lawful_lockout h.lawful,h.refines.failed,h.refines.locked⟩

theorem booted_tracked (memory : μ) (start : ℕ) : Tracked (booted callbacks memory start) :=
  ⟨rfl,rfl,init_refines 0x13579BDF 3 10000 start,always_nil⟩

theorem tracked_quiet {l : Logged μ} (h : Tracked l) (app : UdsApplication μ) (delay : ℕ)
    (hsame : app.context.security = l.app.context.security) :
    Tracked ⟨app,l.now+delay,l.log++[]⟩ := by
  rw [List.append_nil]
  exact ⟨hsame ▸ h.maximum,hsame ▸ h.lockout,
    hsame ▸ refines_later h.refines (Nat.le_add_right _ _),h.lawful⟩

theorem tracked_answered {l : Logged μ} (h : Tracked l) (app : UdsApplication μ) (delay : ℕ)
    (verdict : Verdict) (ha : Answered l.app.context.security (UInt32.ofNat (l.now+delay))
      app.context.security verdict) :
    Tracked ⟨app,l.now+delay,l.log++[⟨l.now+delay,verdict⟩]⟩ := by
  have hm := answered_moves (refines_later h.refines (Nat.le_add_right l.now delay))
    (by rw [h.lockout]; decide) ha
  have hlockout : l.app.context.security.lockoutMs.toNat = 10000 := by
    rw [h.lockout]
    rfl
  have hmaximum : l.app.context.security.maximumAttempts.toNat = 3 := by
    rw [h.maximum]
    rfl
  refine ⟨hm.maximum.trans h.maximum,hm.lockout.trans h.lockout,?_,?_⟩
  · rw [after_concat]
    exact hlockout ▸ hm.refines
  · exact always_concat h.lawful (hmaximum ▸ hm.allowed)

theorem tracked_reset {l : Logged μ} (h : Tracked l) (memory : μ) (delay : ℕ) (nowMs : UInt32)
    (hc : SettledReset l (delay,.communicationReset nowMs)) :
    Tracked ⟨applicationInit callbacks memory nowMs,l.now+delay,l.log++[]⟩ := by
  have hspan := (refines_later h.refines (Nat.le_add_right l.now delay)).span
  rw [h.lockout] at hspan
  rw [List.append_nil]
  refine ⟨rfl,rfl,⟨(fun hv => by cases hv),hc.1.symm,?_,hspan,?_⟩,h.lawful⟩
  · show 0 < 3
    decide
  · exact fun hl => (hc.2 hl).symm

theorem tracked_step (l : Logged μ) (input : ℕ × LifeInput) (h : Tracked l)
    (hc : SettledReset l input) : Tracked (loggedStep callbacks l input).1 := by
  obtain ⟨delay,input⟩ := input
  cases input with
  | request bytes =>
    let now := UInt32.ofNat (l.now+delay)
    let handled := handleRequest (atTime l.app now) bytes now
    show Tracked ⟨handled.1,l.now+delay,
      l.log++securityAttempts (l.now+delay) [⟨bytes,now,responded handled⟩]⟩
    rw [attempts_one]
    by_cases hsid : byteAt bytes 0 = 0x27
    · rw [if_pos hsid]
      exact tracked_answered h handled.1 delay _
        (security_handled bytes (atTime l.app now) now rfl hsid)
    · rw [if_neg hsid]
      exact tracked_quiet h handled.1 delay (other_keeps bytes (atTime l.app now) now hsid)
  | tick => exact tracked_quiet h _ delay rfl
  | pollErase => exact tracked_quiet h _ delay rfl
  | clearReset => exact tracked_quiet h _ delay rfl
  | communicationReset nowMs => exact tracked_reset callbacks h _ delay nowMs hc

theorem kept_settled (l : Logged μ) (input : ℕ × LifeInput)
    (h : CountKept (loggedStep callbacks l input).1) : SettledReset l input := by
  obtain ⟨delay,input⟩ := input
  cases input with
  | communicationReset nowMs =>
    obtain ⟨hfailed,hlocked⟩ := h
    have hlog : (loggedStep callbacks l (delay,.communicationReset nowMs)).1.log = l.log :=
      List.append_nil l.log
    rw [hlog] at hfailed hlocked
    exact ⟨hfailed.symm,fun hl => (hlocked hl).symm⟩
  | _ => trivial

/-- Between two resets of the MCU the lockout is kept, with the count and the
deadline behind it, exactly when every communication reset comes at a time when
there is nothing to lose. -/
theorem lockout_kept_iff (memory : μ) (start : ℕ) (inputs : List (ℕ × LifeInput)) :
    (∀ n, let l := (run (loggedStep callbacks) (booted callbacks memory start)
        (inputs.take n)).1
      LockoutKept 10000 l.log ∧ CountKept l) ↔
    Along (loggedStep callbacks) SettledReset (booted callbacks memory start) inputs :=
  along_iff_shown (loggedStep callbacks) SettledReset (fun l _ => Tracked l)
    (fun l _ => LockoutKept 10000 l.log ∧ CountKept l) (fun _ _ h => tracked_kept h)
    (fun l _ input h hc => tracked_step callbacks l input h hc)
    (fun l _ input _ hk => kept_settled callbacks l input hk.2) _ [] inputs
    (booted_tracked callbacks memory start)

end Run

/-- Three wrong keys, a communication reset a millisecond later, and a seed. -/
def lockedInputs : List (ℕ × LifeInput) :=
  [(0,.request [0x27,0x01]),(1,.request [0x27,0x02,0,0,0,0]),
    (1,.request [0x27,0x01]),(1,.request [0x27,0x02,0,0,0,0]),
    (1,.request [0x27,0x01]),(1,.request [0x27,0x02,0,0,0,0]),
    (1,.communicationReset 6),(1,.request [0x27,0x01])]

/-- A communication reset ends the lockout, and it clears the count of wrong keys. -/
theorem reset_unlocks :
    ¬LockoutKept 10000 (run (loggedStep none) (booted none () 0) lockedInputs).1.log ∧
      ¬CountKept (run (loggedStep none) (booted none () 0)
        ((lockedInputs.take 2)++[(1,.communicationReset 2)])).1 := by
  have hlog : (run (loggedStep none) (booted none () 0) lockedInputs).1.log =
      [⟨0,.issued⟩,⟨1,.wrong⟩,⟨2,.issued⟩,⟨3,.wrong⟩,⟨4,.issued⟩,⟨5,.exceeded⟩]++
        ⟨7,.issued⟩::[] := by decide +kernel
  constructor
  · intro h
    have hrefused := h _ _ _ hlog ⟨5,.exceeded⟩ (by decide) rfl (by decide)
    cases hrefused
  · intro h
    have hfailed := h.failed
    revert hfailed
    decide +kernel

end CanopenReference.SecurityLockout
