import CanopenReference.Library.Buffer
import CanopenReference.Library.Clock
import CanopenReference.Library.Runs

/-!
# The SecurityAccess provider

The deterministic test provider of `uds_security_provider.c`. A seed call shows
the seed only when it issued one. Seed and key state are shared by all levels,
and a key is accepted for the level its call names.
-/

set_option autoImplicit false

namespace CanopenReference.SecurityProvider
open Library Library.Runs

def udsSecurityProviderSeedLength : ℕ := 4
def udsSecurityProviderMaxKeyLength : ℕ := 16
def udsSecurityProviderDefaultMaxAttempts : UInt8 := 3
def udsSecurityProviderDefaultLockoutMs : UInt32 := 10000

inductive UdsSecurityResult where
  | ok
  | invalidArgument
  | bufferTooSmall
  | delayActive
  | sequenceError
  | invalidKey
  | attemptsExceeded
  | levelUnsupported
  deriving DecidableEq, Repr

structure UdsSecurityProvider where
  seed : Buffer UInt8 udsSecurityProviderSeedLength
  key : Buffer UInt8 udsSecurityProviderMaxKeyLength
  keyLength : UInt8
  securityLevel : UInt8
  failedAttempts : UInt8
  maximumAttempts : UInt8
  lockoutMs : UInt32
  lockoutUntilMs : UInt32
  deterministicState : UInt32
  seedValid : Bool
  deriving DecidableEq

def deadlineActive (nowMs deadlineMs : UInt32) : Bool := !Clock.reached nowMs deadlineMs

def nextState (value : UInt32) : UInt32 :=
  let a := value ^^^ (value <<< 13)
  let b := a ^^^ (a >>> 17)
  let c := b ^^^ (b <<< 5)
  if c = 0 then 0xA5A5A5A5 else c

def constantTimeEqual (left right : List UInt8) (length : ℕ) : Bool :=
  (List.range length).foldl
    (fun difference index => difference ||| (left.getD index 0 ^^^ right.getD index 0)) 0 = (0:UInt8)

def udsSecurityProviderInit (deterministicSeed : UInt32) (maximumAttempts : UInt8)
    (lockoutMs : UInt32) : UdsSecurityProvider where
  seed := Buffer.blank _ 0
  key := Buffer.blank _ 0
  keyLength := 0
  securityLevel := 0
  failedAttempts := 0
  maximumAttempts :=
    if maximumAttempts = 0 then udsSecurityProviderDefaultMaxAttempts else maximumAttempts
  lockoutMs := if lockoutMs = 0 then udsSecurityProviderDefaultLockoutMs else lockoutMs
  lockoutUntilMs := 0
  deterministicState := if deterministicSeed = 0 then 0x13579BDF else deterministicSeed
  seedValid := false

def udsSecurityProviderIsLocked (p : UdsSecurityProvider) (nowMs : UInt32) : Bool :=
  deadlineActive nowMs p.lockoutUntilMs

def drawBytes : ℕ → UInt32 → List UInt8 × UInt32
  | 0, state => ([],state)
  | k+1, state =>
    let next := nextState state
    let rest := drawBytes k next
    ((next >>> 24).toUInt8::rest.1,rest.2)

def testMask : List UInt8 := [0xA5,0x5A,0xC3,0x3C]

def udsSecurityProviderGenerateSeed (p : UdsSecurityProvider) (level : UInt8) (capacity : ℕ)
    (nowMs : UInt32) : UdsSecurityProvider × UdsSecurityResult × Option (List UInt8) :=
  if level = 0 then (p,.invalidArgument,none)
  else if udsSecurityProviderIsLocked p nowMs then (p,.delayActive,none)
  else if capacity < udsSecurityProviderSeedLength then (p,.bufferTooSmall,none)
  else
    let drawn := drawBytes udsSecurityProviderSeedLength
      (nextState (p.deterministicState ^^^ level.toUInt32))
    ({ p with
        deterministicState := drawn.2
        seed := p.seed.write 0 drawn.1
        key := p.key.write 0 (List.zipWith (· ^^^ ·) drawn.1 testMask)
        keyLength := UInt8.ofNat udsSecurityProviderSeedLength
        seedValid := true },
      .ok,some drawn.1)

def udsSecurityProviderVerifyKey (p : UdsSecurityProvider) (level : UInt8) (key : List UInt8)
    (nowMs : UInt32) : UdsSecurityProvider × UdsSecurityResult :=
  if level = 0 then (p,.invalidArgument)
  else if udsSecurityProviderIsLocked p nowMs then (p,.delayActive)
  else if !p.seedValid ∨ key.length ≠ p.keyLength.toNat ∨
      udsSecurityProviderMaxKeyLength < key.length then (p,.sequenceError)
  else if !constantTimeEqual key p.key.cells p.keyLength.toNat then
    let failed : UdsSecurityProvider :=
      { p with securityLevel := 0, failedAttempts := p.failedAttempts+1, seedValid := false }
    if p.maximumAttempts ≤ failed.failedAttempts then
      ({ failed with lockoutUntilMs := nowMs+p.lockoutMs, failedAttempts := 0 },.attemptsExceeded)
    else (failed,.invalidKey)
  else ({ p with securityLevel := level, failedAttempts := 0, seedValid := false },.ok)

def udsSecurityProviderSessionReset (p : UdsSecurityProvider) : UdsSecurityProvider :=
  { p with securityLevel := 0, failedAttempts := 0, seedValid := false }

def Compares (p : UdsSecurityProvider) (level : UInt8) (key : List UInt8) (nowMs : UInt32) :
    Prop :=
  level ≠ 0 ∧ udsSecurityProviderIsLocked p nowMs = false ∧ p.seedValid = true ∧
    key.length = p.keyLength.toNat ∧ key.length ≤ udsSecurityProviderMaxKeyLength

def failed (p : UdsSecurityProvider) : UdsSecurityProvider :=
  { p with securityLevel := 0, failedAttempts := p.failedAttempts+1, seedValid := false }

/-- Everything a call of `udsSecurityProviderVerifyKey` can do. -/
inductive VerifyOutcome (p : UdsSecurityProvider) (level : UInt8) (key : List UInt8)
    (nowMs : UInt32) : UdsSecurityProvider × UdsSecurityResult → Prop where
  | refused (result : UdsSecurityResult)
      (hresult : result = .invalidArgument ∨ result = .delayActive ∨ result = .sequenceError)
      (hopen : ¬Compares p level key nowMs) : VerifyOutcome p level key nowMs (p,result)
  | exceeded (hopen : Compares p level key nowMs)
      (hkey : constantTimeEqual key p.key.cells p.keyLength.toNat = false)
      (hlast : p.maximumAttempts ≤ p.failedAttempts+1) :
      VerifyOutcome p level key nowMs
        ({ failed p with lockoutUntilMs := nowMs+p.lockoutMs, failedAttempts := 0 },
          .attemptsExceeded)
  | wrong (hopen : Compares p level key nowMs)
      (hkey : constantTimeEqual key p.key.cells p.keyLength.toNat = false)
      (hmore : ¬p.maximumAttempts ≤ p.failedAttempts+1) :
      VerifyOutcome p level key nowMs (failed p,.invalidKey)
  | accepted (hopen : Compares p level key nowMs)
      (hkey : constantTimeEqual key p.key.cells p.keyLength.toNat = true) :
      VerifyOutcome p level key nowMs
        ({ p with securityLevel := level, failedAttempts := 0, seedValid := false },.ok)

theorem verify_outcome (p : UdsSecurityProvider) (level : UInt8) (key : List UInt8)
    (nowMs : UInt32) :
    VerifyOutcome p level key nowMs (udsSecurityProviderVerifyKey p level key nowMs) := by
  unfold udsSecurityProviderVerifyKey
  by_cases hlevel : level = 0
  · rw [if_pos hlevel]
    exact .refused _ (by simp) fun h => h.1 hlevel
  rw [if_neg hlevel]
  by_cases hlock : udsSecurityProviderIsLocked p nowMs = true
  · rw [if_pos hlock]
    exact .refused _ (by simp) fun h => Bool.false_ne_true (h.2.1.symm.trans hlock)
  rw [if_neg hlock]
  by_cases hseq : !p.seedValid ∨ key.length ≠ p.keyLength.toNat ∨
      udsSecurityProviderMaxKeyLength < key.length
  · rw [if_pos hseq]
    refine .refused _ (by simp) ?_
    rintro ⟨_,_,hv,hl,hm⟩
    rcases hseq with h | h | h
    · simp [hv] at h
    · exact h hl
    · omega
  rw [if_neg hseq]
  simp only [not_or,Bool.not_eq_true,Bool.not_eq_eq_eq_not,Bool.not_true,Bool.not_eq_false,
    not_not,Nat.not_lt] at hlock hseq
  have hopen : Compares p level key nowMs := ⟨hlevel,hlock,hseq⟩
  cases hkey : constantTimeEqual key p.key.cells p.keyLength.toNat with
  | true => exact .accepted hopen hkey
  | false =>
    by_cases hlast : p.maximumAttempts ≤ p.failedAttempts+1
    · simp only [Bool.not_false,if_true,if_pos hlast]
      exact .exceeded hopen hkey hlast
    · simp only [Bool.not_false,if_true,if_neg hlast]
      exact .wrong hopen hkey hlast

theorem generate_outcome (p : UdsSecurityProvider) (level : UInt8) (capacity : ℕ)
    (nowMs : UInt32) :
    let generated := udsSecurityProviderGenerateSeed p level capacity nowMs
    generated.2.1 = .ok ∧ generated.1.seedValid = true ∨
      generated.2.1 ≠ .ok ∧ generated.1 = p := by
  unfold udsSecurityProviderGenerateSeed
  split
  · exact Or.inr ⟨by simp,rfl⟩
  split
  · exact Or.inr ⟨by simp,rfl⟩
  split
  · exact Or.inr ⟨by simp,rfl⟩
  · exact Or.inl ⟨rfl,rfl⟩

inductive SecurityCall where
  | generateSeed (level : UInt8) (capacity : ℕ) (nowMs : UInt32)
  | verifyKey (level : UInt8) (key : List UInt8) (nowMs : UInt32)
  deriving DecidableEq

structure SecurityRecord where
  call : SecurityCall
  result : UdsSecurityResult
  deriving DecidableEq

/-- The provider with the calls so far. -/
structure Monitored where
  provider : UdsSecurityProvider
  history : List SecurityRecord
  deriving DecidableEq

def monitorStep (m : Monitored) (call : SecurityCall) : Monitored × List SecurityRecord :=
  match call with
  | .generateSeed level capacity now =>
    let r := udsSecurityProviderGenerateSeed m.provider level capacity now
    (⟨r.1,m.history++[⟨call,r.2.1⟩]⟩,[⟨call,r.2.1⟩])
  | .verifyKey level key now =>
    let r := udsSecurityProviderVerifyKey m.provider level key now
    (⟨r.1,m.history++[⟨call,r.2⟩]⟩,[⟨call,r.2⟩])

def issuedLevel (r : SecurityRecord) : Option UInt8 :=
  match r.call with
  | .generateSeed level _ _ => if r.result = .ok then some level else none
  | .verifyKey _ _ _ => none

def lastIssued (history : List SecurityRecord) : Option UInt8 :=
  (history.filterMap issuedLevel).getLast?

def unlockedLevel (r : SecurityRecord) : Option UInt8 :=
  match r.call with
  | .generateSeed _ _ _ => none
  | .verifyKey level _ _ => if r.result = .ok then some level else none

/-- Every level was unlocked against a seed issued for that level. -/
def LevelsBound : List SecurityRecord → Prop :=
  Always fun before r => ∀ level, unlockedLevel r = some level → lastIssued before = some level

/-- A key that gets as far as the comparison names the level of the pending seed. -/
def NamesPendingLevel (m : Monitored) : SecurityCall → Prop
  | .generateSeed _ _ _ => True
  | .verifyKey level key now =>
    udsSecurityProviderIsLocked m.provider now = false → m.provider.seedValid = true →
      key.length = m.provider.keyLength.toNat → lastIssued m.history = some level

theorem step_bound (m : Monitored) (call : SecurityCall) (h : LevelsBound m.history)
    (hc : NamesPendingLevel m call) : LevelsBound (monitorStep m call).1.history := by
  cases call with
  | generateSeed level capacity now =>
    exact always_concat h fun level hl => by simp [unlockedLevel] at hl
  | verifyKey level key now =>
    refine always_concat h fun level' hl => ?_
    simp only [unlockedLevel] at hl
    split at hl
    · rename_i hok
      have ho := verify_outcome m.provider level key now
      generalize udsSecurityProviderVerifyKey m.provider level key now = r at ho hok
      cases ho with
      | refused result hresult _ => rcases hresult with rfl | rfl | rfl <;> cases hok
      | exceeded _ _ _ => cases hok
      | wrong _ _ _ => cases hok
      | accepted hopen _ =>
        rw [← hl]
        exact hc hopen.2.1 hopen.2.2.1 hopen.2.2.2.1
    · cases hl

/-- Where every compared key names the level of the pending seed, every level
is unlocked against a seed issued for it. -/
theorem levels_bound (seed : UInt32) (attempts : UInt8) (lockout : UInt32)
    (calls : List SecurityCall)
    (h : Along monitorStep NamesPendingLevel
      ⟨udsSecurityProviderInit seed attempts lockout,[]⟩ calls) :
    LevelsBound
      (run monitorStep ⟨udsSecurityProviderInit seed attempts lockout,[]⟩ calls).1.history :=
  along_invariant monitorStep NamesPendingLevel (fun m => LevelsBound m.history) step_bound _ calls
    always_nil h

def testProvider : UdsSecurityProvider := udsSecurityProviderInit 0x12345678 3 100

/-- The key for the seed that the test provider issues first for level 1. -/
def firstKey : List UInt8 :=
  (udsSecurityProviderGenerateSeed testProvider 1 4 0).1.key.cells.take 4

theorem levels_bound_one_unlock :
    LevelsBound (run monitorStep ⟨testProvider,[]⟩
      [.generateSeed 1 4 0,.verifyKey 1 firstKey 1]).1.history :=
  levels_bound 0x12345678 3 100 [.generateSeed 1 4 0,.verifyKey 1 firstKey 1]
    ⟨trivial,fun _ _ _ => by decide +kernel,trivial⟩

/-- The key for the seed of level 1 unlocks level 2. -/
theorem level_one_seed_unlocks_two :
    ¬LevelsBound (run monitorStep ⟨testProvider,[]⟩
      [.generateSeed 1 4 0,.verifyKey 2 firstKey 1]).1.history := by
  intro h
  have hl := h [⟨.generateSeed 1 4 0,.ok⟩] ⟨.verifyKey 2 firstKey 1,.ok⟩ [] (by decide +kernel) 2
    rfl
  exact absurd hl (by decide)

end CanopenReference.SecurityProvider
