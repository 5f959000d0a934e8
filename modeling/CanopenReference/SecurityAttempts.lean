import CanopenReference.Library.Attempts
import CanopenReference.SecurityProvider

/-!
# Attempts at the provider

The provider on the clock of the board, read as a limiter: what it keeps of the
log, a seed that is valid, a count and a wrapped deadline, is enough to allow
only what the limiter allows.
-/

set_option autoImplicit false

namespace CanopenReference.SecurityAttempts
open Library Library.Runs Library.Attempts SecurityProvider

def seedVerdict : UdsSecurityResult → Verdict
  | .ok => .issued
  | _ => .refused

def keyVerdict : UdsSecurityResult → Verdict
  | .ok => .accepted
  | .invalidKey => .wrong
  | .attemptsExceeded => .exceeded
  | _ => .refused

structure Refines (s : Limiter) (p : UdsSecurityProvider) (now : ℕ) : Prop where
  pending : p.seedValid = true → s.pending = true
  failed : p.failedAttempts.toNat = s.failed
  bound : p.failedAttempts.toNat < p.maximumAttempts.toNat
  span : s.lockedUntil ≤ now+p.lockoutMs.toNat
  locked : now < s.lockedUntil → p.lockoutUntilMs = UInt32.ofNat s.lockedUntil

theorem init_refines (seed : UInt32) (attempts : UInt8) (lockout : UInt32) (now : ℕ) :
    Refines ⟨false,0,0⟩ (udsSecurityProviderInit seed attempts lockout) now := by
  refine ⟨fun h => h,rfl,?_,Nat.zero_le _,fun h => absurd h (Nat.not_lt_zero now)⟩
  show 0 < (if attempts = 0 then udsSecurityProviderDefaultMaxAttempts else attempts).toNat
  split
  · decide
  · rename_i h
    exact Nat.pos_of_ne_zero fun h0 => h (UInt8.toNat_inj.mp h0)

section Step
variable {s : Limiter} {p : UdsSecurityProvider} {past now : ℕ}

theorem refines_later (h : Refines s p past) (hnow : past ≤ now) : Refines s p now :=
  ⟨h.pending,h.failed,h.bound,Nat.le_trans h.span (Nat.add_le_add_right hnow _),
    fun hl => h.locked (Nat.lt_of_le_of_lt hnow hl)⟩

theorem open_in_time (h : Refines s p now) (hlockout : p.lockoutMs.toNat < 2^31)
    (hopen : udsSecurityProviderIsLocked p (UInt32.ofNat now) = false) : s.lockedUntil ≤ now := by
  by_contra hc
  have hlocked := h.locked (Nat.lt_of_not_le hc)
  have hspan := h.span
  have hreached := @Clock.not_reached_before now s.lockedUntil (Nat.lt_of_not_le hc) (by omega)
  rw [udsSecurityProviderIsLocked,deadlineActive,hlocked,hreached] at hopen
  cases hopen

theorem draw_length (count : ℕ) (state : UInt32) : (drawBytes count state).1.length = count := by
  induction count generalizing state with
  | zero => rfl
  | succ count ih => exact congrArg Nat.succ (ih (nextState state))

theorem generate_issued {level : UInt8} {capacity : ℕ} {t : UInt32}
    (h : (udsSecurityProviderGenerateSeed p level capacity t).2.1 = .ok) :
    udsSecurityProviderIsLocked p t = false ∧
      (∃ state seed key length, (udsSecurityProviderGenerateSeed p level capacity t).1 =
        { p with
          deterministicState := state, seed := seed, key := key, keyLength := length,
          seedValid := true }) ∧
      ((udsSecurityProviderGenerateSeed p level capacity t).2.2.getD []).length =
        udsSecurityProviderSeedLength := by
  unfold udsSecurityProviderGenerateSeed at h ⊢
  split at h
  · cases h
  rename_i hlevel
  split at h
  · cases h
  rename_i hlocked
  split at h
  · cases h
  rename_i hroom
  rw [if_neg hlevel,if_neg hlocked,if_neg hroom]
  exact ⟨by simpa using hlocked,⟨_,_,_,_,rfl⟩,draw_length _ _⟩

structure Moves (s : Limiter) (p next : UdsSecurityProvider) (a : Attempt) : Prop where
  allowed : s.Allows p.maximumAttempts.toNat a
  refines : Refines (s.next p.lockoutMs.toNat a) next a.time
  maximum : next.maximumAttempts = p.maximumAttempts
  lockout : next.lockoutMs = p.lockoutMs

theorem refused_moves (h : Refines s p now) : Moves s p p ⟨now,.refused⟩ := ⟨trivial,h,rfl,rfl⟩

theorem generate_moves (h : Refines s p now) (hlockout : p.lockoutMs.toNat < 2^31)
    (level : UInt8) (capacity : ℕ) :
    let generated := udsSecurityProviderGenerateSeed p level capacity (UInt32.ofNat now)
    Moves s p generated.1 ⟨now,seedVerdict generated.2.1⟩ := by
  intro generated
  rcases generate_outcome p level capacity (UInt32.ofNat now) with ⟨hok,_⟩ | ⟨hfailed,hsame⟩
  · obtain ⟨hopen,⟨state,seed,key,length,hnext⟩,_⟩ := generate_issued hok
    rw [show generated.2.1 = .ok from hok,show generated.1 = _ from hnext]
    exact ⟨open_in_time h hlockout hopen,
      ⟨fun _ => rfl,h.failed,h.bound,h.span,h.locked⟩,rfl,rfl⟩
  · have hv : seedVerdict generated.2.1 = .refused := by
      change generated.2.1 ≠ .ok at hfailed
      cases hr : generated.2.1 <;> simp_all [seedVerdict]
    rw [hv,show generated.1 = p from hsame]
    exact refused_moves h

theorem verify_moves (h : Refines s p now) (hlockout : p.lockoutMs.toNat < 2^31)
    (level : UInt8) (key : List UInt8) :
    let verified := udsSecurityProviderVerifyKey p level key (UInt32.ofNat now)
    Moves s p verified.1 ⟨now,keyVerdict verified.2⟩ := by
  have ho := verify_outcome p level key (UInt32.ofNat now)
  generalize udsSecurityProviderVerifyKey p level key (UInt32.ofNat now) = verified at ho
  have hbound := h.bound
  have hmax := p.maximumAttempts.toNat_lt
  have hone : (p.failedAttempts+1).toNat = p.failedAttempts.toNat+1 := by
    rw [UInt8.toNat_add]
    exact Nat.mod_eq_of_lt (by show p.failedAttempts.toNat+1 < 256; omega)
  cases ho with
  | refused result hresult hc =>
    have hv : keyVerdict result = .refused := by
      rcases hresult with rfl | rfl | rfl <;> rfl
    show Moves s p p ⟨now,keyVerdict result⟩
    rw [hv]
    exact refused_moves h
  | exceeded hc hkey hlast =>
    have hleft : s.failed+1 ≤ p.maximumAttempts.toNat := by
      rw [← h.failed]
      omega
    have huntil : UInt32.ofNat now+p.lockoutMs = UInt32.ofNat (now+p.lockoutMs.toNat) := by
      rw [UInt32.ofNat_add,UInt32.ofNat_toNat]
    refine ⟨⟨open_in_time h hlockout hc.2.1,h.pending hc.2.2.1,hleft⟩,?_,rfl,rfl⟩
    exact ⟨(fun hv => by cases hv),rfl,Nat.lt_of_le_of_lt (Nat.zero_le _) hbound,Nat.le_refl _,
      fun _ => huntil⟩
  | wrong hc hkey hmore =>
    have hmore' : p.failedAttempts.toNat+1 < p.maximumAttempts.toNat := by
      rw [UInt8.le_iff_toNat_le,hone] at hmore
      omega
    have hfailed : (p.failedAttempts+1).toNat = s.failed+1 := by rw [hone,h.failed]
    refine ⟨⟨open_in_time h hlockout hc.2.1,h.pending hc.2.2.1,h.failed ▸ hmore'⟩,?_,rfl,rfl⟩
    exact ⟨(fun hv => by cases hv),hfailed,hone ▸ hmore',h.span,h.locked⟩
  | accepted hc hkey =>
    refine ⟨⟨open_in_time h hlockout hc.2.1,h.pending hc.2.2.1⟩,?_,rfl,rfl⟩
    exact ⟨(fun hv => by cases hv),rfl,Nat.lt_of_le_of_lt (Nat.zero_le _) hbound,h.span,h.locked⟩

end Step

inductive ProviderCall where
  | generateSeed (level : UInt8) (capacity : ℕ)
  | verifyKey (level : UInt8) (key : List UInt8)
  deriving DecidableEq

structure ProviderRecord where
  time : ℕ
  call : ProviderCall
  result : UdsSecurityResult
  compared : Bool
  deriving DecidableEq

/-- The provider and the real time of its last call. -/
structure Clocked where
  provider : UdsSecurityProvider
  now : ℕ

instance comparesDecidable (p : UdsSecurityProvider) (level : UInt8) (key : List UInt8)
    (t : UInt32) : Decidable (Compares p level key t) :=
  inferInstanceAs (Decidable (_ ∧ _))

/-- A call some time after the last one. The counter of the board shows the
real time up to its wrap. -/
def clockedStep (c : Clocked) (input : ℕ × ProviderCall) : Clocked × List ProviderRecord :=
  let now := c.now+input.1
  match input.2 with
  | .generateSeed level capacity =>
    let r := udsSecurityProviderGenerateSeed c.provider level capacity (UInt32.ofNat now)
    (⟨r.1,now⟩,[⟨now,input.2,r.2.1,false⟩])
  | .verifyKey level key =>
    let r := udsSecurityProviderVerifyKey c.provider level key (UInt32.ofNat now)
    (⟨r.1,now⟩,[⟨now,input.2,r.2,decide (Compares c.provider level key (UInt32.ofNat now))⟩])

def attempt (r : ProviderRecord) : Attempt :=
  ⟨r.time,match r.call with
    | .generateSeed _ _ => seedVerdict r.result
    | .verifyKey _ _ => keyVerdict r.result⟩

theorem compares_iff (p : UdsSecurityProvider) (level : UInt8) (key : List UInt8) (t : UInt32)
    (time : ℕ) : Compares p level key t ↔
      Compared ⟨time,keyVerdict (udsSecurityProviderVerifyKey p level key t).2⟩ := by
  have ho := verify_outcome p level key t
  generalize udsSecurityProviderVerifyKey p level key t = verified at ho
  cases ho with
  | refused result hresult hc =>
    refine iff_of_false hc ?_
    rcases hresult with rfl | rfl | rfl <;> simp [Compared,keyVerdict]
  | exceeded hc hkey hlast => exact iff_of_true hc (Or.inr (Or.inr rfl))
  | wrong hc hkey hmore => exact iff_of_true hc (Or.inr (Or.inl rfl))
  | accepted hc hkey => exact iff_of_true hc (Or.inl rfl)

/-- What is kept of the run so far: a lawful log, and a provider that stands
where the log puts the limiter. -/
structure Limited (maximum : UInt8) (lockout : UInt32) (c : Clocked)
    (records : List ProviderRecord) : Prop where
  sameMaximum : c.provider.maximumAttempts = maximum
  sameLockout : c.provider.lockoutMs = lockout
  refines : Refines (Limiter.after lockout.toNat (records.map attempt)) c.provider c.now
  lawful : Lawful maximum.toNat lockout.toNat (records.map attempt)
  compared : ∀ r ∈ records, r.compared = true ↔ Compared (attempt r)

theorem step_limited {maximum : UInt8} {lockout : UInt32} (hlockout : lockout.toNat < 2^31)
    (c : Clocked) (records : List ProviderRecord) (input : ℕ × ProviderCall)
    (h : Limited maximum lockout c records) :
    Limited maximum lockout (clockedStep c input).1 (records++(clockedStep c input).2) := by
  have hlater := refines_later h.refines (Nat.le_add_right c.now input.1)
  have hspan : c.provider.lockoutMs.toNat < 2^31 := by rw [h.sameLockout]; exact hlockout
  have hmove : ∀ (next : UdsSecurityProvider) (r : ProviderRecord),
      Moves (Limiter.after lockout.toNat (records.map attempt)) c.provider next (attempt r) →
      (r.compared = true ↔ Compared (attempt r)) → r.time = c.now+input.1 →
      Limited maximum lockout ⟨next,c.now+input.1⟩ (records++[r]) := by
    intro next r hm hc ht
    refine ⟨hm.maximum.trans h.sameMaximum,hm.lockout.trans h.sameLockout,?_,?_,?_⟩
    · rw [List.map_append,List.map_singleton,after_concat,← ht]
      exact h.sameLockout ▸ hm.refines
    · rw [List.map_append,List.map_singleton]
      exact always_concat h.lawful (h.sameMaximum ▸ hm.allowed)
    · exact List.forall_mem_append.mpr ⟨h.compared,List.forall_mem_singleton.mpr hc⟩
  obtain ⟨delay,call⟩ := input
  cases call with
  | generateSeed level capacity =>
    refine hmove _ _ (generate_moves hlater hspan level capacity) (iff_of_false (by simp) ?_) rfl
    simp only [attempt,Compared,seedVerdict]
    split <;> simp
  | verifyKey level key =>
    refine hmove _ _ (verify_moves hlater hspan level key) ?_ rfl
    rw [decide_eq_true_iff]
    exact compares_iff _ _ _ _ _

/-- Over any calls at any times, every seed is compared with at most one key,
at most the allowed number of wrong keys is compared from one success or
lockout to the next, and a lockout lets nothing through. -/
theorem attempts_limited (seed : UInt32) (attempts : UInt8) (lockout : UInt32) (start : ℕ)
    (calls : List (ℕ × ProviderCall)) (hlockout : lockout.toNat < 2^31) :
    let p := udsSecurityProviderInit seed attempts lockout
    let records := (run clockedStep ⟨p,start⟩ calls).2
    OneAnswer (records.map attempt) ∧
      WrongBounded p.maximumAttempts.toNat (records.map attempt) ∧
      LockoutKept p.lockoutMs.toNat (records.map attempt) ∧
      ∀ r ∈ records, r.compared = true ↔ Compared (attempt r) := by
  intro p records
  have hspan : p.lockoutMs.toNat < 2^31 := by
    show (if lockout = 0 then udsSecurityProviderDefaultLockoutMs else lockout).toNat < 2^31
    split
    · decide
    · exact hlockout
  have hstart : Limited p.maximumAttempts p.lockoutMs ⟨p,start⟩ [] :=
    ⟨rfl,rfl,init_refines seed attempts lockout start,always_nil,by simp⟩
  have hl := along_history clockedStep (fun _ _ => True) (Limited p.maximumAttempts p.lockoutMs)
    (fun c records input h _ => step_limited hspan c records input h) _ [] calls hstart
    (along_true _ _ _)
  rw [List.nil_append] at hl
  exact ⟨lawful_one_answer hl.lawful,lawful_bounded hl.lawful,lawful_lockout hl.lawful,
    hl.compared⟩

def wrongCalls : List (ℕ × ProviderCall) :=
  [(0,.generateSeed 1 4),(1,.verifyKey 1 [0,0,0,0]),(1,.generateSeed 1 4),
    (1,.verifyKey 1 [0,0,0,0]),(1,.generateSeed 1 4),(1,.verifyKey 1 [0,0,0,0]),
    (9999,.generateSeed 1 4),(1,.generateSeed 1 4)]

theorem attempts_limited_runtime :
    let records :=
      (run clockedStep ⟨udsSecurityProviderInit 0x13579BDF 3 10000,0⟩ wrongCalls).2
    records.map (fun r => (attempt r).verdict) =
        [.issued,.wrong,.issued,.wrong,.issued,.exceeded,.refused,.issued] ∧
      LockoutKept 10000 (records.map attempt) :=
  ⟨by decide +kernel,
    (attempts_limited 0x13579BDF 3 10000 (0) wrongCalls (by decide)).2.2.1⟩

end CanopenReference.SecurityAttempts
