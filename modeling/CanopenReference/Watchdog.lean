import CanopenReference.Library.Clock
import CanopenReference.Library.Runs

/-!
# Watchdog evidence

The dual-rate watchdog supervisor in a build with the watchdog. Times are real
milliseconds, of which the code sees the wrapping counter. The grace test reads
as fulfilled again after every turn of the counter.
-/

set_option autoImplicit false

namespace CanopenReference.Watchdog
open Library Library.Runs

structure WatchdogState where
  timerTicks : UInt32
  lastMainlineTick : UInt32
  mainlineTicks : UInt32
  startTick : UInt32
  halted : Bool
  deriving DecidableEq

/-- The initialization, unless the oscillator stays away or the watchdog refuses
its parameters: then the error handler stops the program. -/
def canopenReferenceWatchdogInit (lsiReady accepted : Bool) (now : UInt32) :
    Option WatchdogState :=
  if !lsiReady then none
  else if !accepted then none
  else some ⟨0,0,0,now,false⟩

def canopenReferenceWatchdogTickIsr (s : WatchdogState) : WatchdogState :=
  { s with timerTicks := s.timerTicks+1 }

/-- The mainline call, with whether it refreshed the watchdog. `refresh` is what
the driver makes of a refresh; a failing one stops the program, but for the
grace period. -/
def canopenReferenceWatchdogProcess (grace : UInt32) (s : WatchdogState) (now : UInt32)
    (refresh : Bool) : WatchdogState × Bool :=
  if now-s.startTick < grace then (s,refresh)
  else if s.timerTicks = s.lastMainlineTick then (s,false)
  else
    ({ s with
        lastMainlineTick := s.timerTicks, mainlineTicks := s.mainlineTicks+1
        halted := !refresh },refresh)

inductive WatchdogInput where
  | tickIsr
  | process (now : ℕ) (refresh : Bool)
  deriving DecidableEq

inductive WatchdogEvent where
  | ticked
  | processed (now : ℕ) (refreshed : Bool)
  deriving DecidableEq

def watchdogStep (grace : UInt32) (s : WatchdogState) (a : WatchdogInput) :
    WatchdogState × List WatchdogEvent :=
  if s.halted then (s,[])
  else
    match a with
    | .tickIsr => (canopenReferenceWatchdogTickIsr s,[.ticked])
    | .process now refresh =>
      let r := canopenReferenceWatchdogProcess grace s (UInt32.ofNat now) refresh
      (r.1,[.processed now r.2])

section Law
variable (grace : UInt32) (start : ℕ)

def Owed (past : List WatchdogEvent) : Prop :=
  ∃ before now after, past = before++.processed now true::after ∧ start+grace.toNat ≤ now ∧
    .ticked ∉ after

/-- Two refreshes after the grace period have a tick between them. -/
def Evidence (past : List WatchdogEvent) (e : WatchdogEvent) : Prop :=
  ∀ now, e = .processed now true → ¬Owed grace start past

/-- The calls come at times that do not decrease. -/
def InOrder : ℕ → List WatchdogInput → Prop
  | _, [] => True
  | last, .tickIsr::as => InOrder last as
  | last, .process now _::as => last ≤ now ∧ InOrder now as

def LaterGrace (now : ℕ) : Prop :=
  start+grace.toNat ≤ now ∧ (now-start)%2^32 < grace.toNat

instance (now : ℕ) : Decidable (LaterGrace grace start now) :=
  inferInstanceAs (Decidable (_ ∧ _))

/-- A mainline call in a later grace period, and the one after it, has a tick
between itself and the mainline call before. -/
def Attended : Bool → Bool → List WatchdogInput → Prop
  | _, _, [] => True
  | _, late, .tickIsr::as => Attended true late as
  | ticked, late, .process now _::as =>
    (LaterGrace grace start now ∨ late = true → ticked = true) ∧
      Attended false (decide (LaterGrace grace start now)) as

end Law

section Proof
variable {grace : UInt32} {start : ℕ} {past : List WatchdogEvent}

theorem owed_ticked : ¬Owed grace start (past++[.ticked]) := by
  rintro ⟨before,now,after,hsplit,-,hquiet⟩
  rcases concat_split hsplit with ⟨-,h,-⟩ | ⟨after',rfl,-⟩
  · cases h
  · exact hquiet (by simp)

theorem owed_processed {now : ℕ} {refreshed : Bool} :
    Owed grace start (past++[.processed now refreshed]) ↔
      Owed grace start past ∨ refreshed = true ∧ start+grace.toNat ≤ now := by
  constructor
  · rintro ⟨before,t,after,hsplit,hlate,hquiet⟩
    rcases concat_split hsplit with ⟨-,h,-⟩ | ⟨after',rfl,hpast⟩
    · cases h
      exact Or.inr ⟨rfl,hlate⟩
    · exact Or.inl ⟨before,t,after',hpast,hlate,fun h => hquiet (by simp [h])⟩
  · rintro (⟨before,t,after,rfl,hlate,hquiet⟩ | ⟨rfl,hlate⟩)
    · exact ⟨before,t,after++[.processed now refreshed],by simp,hlate,by simp [hquiet]⟩
    · exact ⟨past,now,[],rfl,hlate,by simp⟩

/-- What holds between two calls: a tick since the last mainline call is
evidence, and outside of the later grace periods the code's own mark shows that
there is none. -/
structure Supervised (grace : UInt32) (start : ℕ) (s : WatchdogState)
    (past : List WatchdogEvent) (last : ℕ) (ticked late : Bool) : Prop where
  begun : s.startTick = UInt32.ofNat start
  order : start ≤ last
  graced : Owed grace start past → start+grace.toNat ≤ last
  fresh : ticked = true → ¬Owed grace start past
  marked : late = false → Owed grace start past → s.lastMainlineTick = s.timerTicks

variable {s : WatchdogState} {last : ℕ} {ticked late : Bool}

theorem supervised_tick (h : Supervised grace start s past last ticked late) :
    Supervised grace start (canopenReferenceWatchdogTickIsr s) (past++[.ticked]) last true late where
  begun := h.begun
  order := h.order
  graced := fun howed => absurd howed owed_ticked
  fresh := fun _ => owed_ticked
  marked := fun _ howed => absurd howed owed_ticked

theorem grace_iff (h : s.startTick = UInt32.ofNat start) {now : ℕ} (hnow : start ≤ now) :
    UInt32.ofNat now-s.startTick < grace ↔ (now-start)%2^32 < grace.toNat := by
  rw [h,UInt32.lt_iff_toNat_lt,Clock.elapsed_mod hnow]

theorem process_evidence (h : Supervised grace start s past last ticked late) {now : ℕ}
    (hnow : last ≤ now) (hattended : LaterGrace grace start now ∨ late = true → ticked = true)
    (refresh : Bool) :
    Evidence grace start past (.processed now
      (canopenReferenceWatchdogProcess grace s (UInt32.ofNat now) refresh).2) := by
  rintro t hevent howed
  injection hevent with _ hrefreshed
  have hgraced := h.graced howed
  -- no tick since the last mainline call: the call is neither late nor after a late one
  have hstale : ¬(LaterGrace grace start now ∨ late = true) := fun hlate =>
    h.fresh (hattended hlate) howed
  obtain ⟨hnow',hlate⟩ := not_or.mp hstale
  have hmark := h.marked (Bool.eq_false_iff.mpr hlate) howed
  have hout : ¬UInt32.ofNat now-s.startTick < grace := by
    rw [grace_iff h.begun (Nat.le_trans h.order hnow)]
    exact fun hin => hnow' ⟨by omega,hin⟩
  rw [canopenReferenceWatchdogProcess,if_neg hout,if_pos hmark.symm] at hrefreshed
  cases hrefreshed

theorem supervised_process (h : Supervised grace start s past last ticked late) {now : ℕ}
    (hnow : last ≤ now) (refresh : Bool) :
    let r := canopenReferenceWatchdogProcess grace s (UInt32.ofNat now) refresh
    Supervised grace start r.1 (past++[.processed now r.2]) now false
      (decide (LaterGrace grace start now)) := by
  intro r
  have hnow' := Nat.le_trans h.order hnow
  have hin : UInt32.ofNat now-s.startTick < grace ↔ (now-start)%2^32 < grace.toNat :=
    grace_iff h.begun hnow'
  have hgraced : Owed grace start (past++[.processed now r.2]) → start+grace.toNat ≤ now := by
    intro howed
    rcases owed_processed.mp howed with howed | ⟨-,hlate⟩
    · exact Nat.le_trans (h.graced howed) hnow
    · exact hlate
  refine ⟨?_,hnow',hgraced,fun hticked => absurd hticked Bool.false_ne_true,
    fun hlate howed => ?_⟩
  · have hkept : r.1.startTick = s.startTick := by
      simp only [r,canopenReferenceWatchdogProcess]
      split
      · rfl
      split <;> rfl
    exact hkept.trans h.begun
  · have hlate' := of_decide_eq_false hlate
    have hout : ¬UInt32.ofNat now-s.startTick < grace := by
      rw [hin]
      exact fun hin => hlate' ⟨hgraced howed,hin⟩
    simp only [r,canopenReferenceWatchdogProcess,if_neg hout]
    split
    · rename_i hmark
      exact hmark.symm
    · rfl

theorem run_halted (as : List WatchdogInput) (hs : s.halted = true) :
    (run (watchdogStep grace) s as).2 = [] := by
  have hstep : ∀ a, watchdogStep grace s a = (s,[]) := fun a => by simp [watchdogStep,hs]
  induction as with
  | nil => rfl
  | cons a as ih => simpa [run_cons,hstep] using ih

theorem run_evidence (as : List WatchdogInput)
    (h : Supervised grace start s past last ticked late) (horder : InOrder last as)
    (hattended : Attended grace start ticked late as) (hp : Always (Evidence grace start) past) :
    Always (Evidence grace start) (past++(run (watchdogStep grace) s as).2) := by
  induction as generalizing s past last ticked late with
  | nil => simpa using hp
  | cons a as ih =>
    cases hs : s.halted with
    | true => simpa [run_halted (a::as) hs] using hp
    | false =>
      rw [run_cons,← List.append_assoc]
      cases a with
      | tickIsr =>
        simp only [watchdogStep,hs,Bool.false_eq_true,if_false]
        refine ih (supervised_tick h) horder hattended (always_concat hp ?_)
        rintro t hevent
        cases hevent
      | process now refresh =>
        simp only [watchdogStep,hs,Bool.false_eq_true,if_false]
        exact ih (supervised_process h horder.1 refresh) horder.2 hattended.2
          (always_concat hp (process_evidence h horder.1 hattended.1 refresh))

end Proof

/-- After the initialization, where every mainline call of a later grace period
and the one after it come on a tick, any two refreshes after the first grace
period have a tick between them. -/
theorem refreshes_on_ticks {grace : UInt32} {start : ℕ} {lsiReady accepted : Bool}
    {s : WatchdogState} {inputs : List WatchdogInput}
    (hinit : canopenReferenceWatchdogInit lsiReady accepted (UInt32.ofNat start) = some s)
    (horder : InOrder start inputs) (hattended : Attended grace start false false inputs) :
    Always (Evidence grace start) (run (watchdogStep grace) s inputs).2 := by
  have hs : s = ⟨0,0,0,UInt32.ofNat start,false⟩ := by
    unfold canopenReferenceWatchdogInit at hinit
    split at hinit
    · cases hinit
    split at hinit
    · cases hinit
    · cases hinit
      rfl
  have hnone : ¬Owed grace start [] := by
    rintro ⟨before,now,after,hsplit,-⟩
    simp at hsplit
  have hstart : Supervised grace start s [] start false false :=
    ⟨by rw [hs],Nat.le_refl _,fun h => absurd h hnone,fun _ => hnone,fun _ h => absurd h hnone⟩
  simpa using run_evidence inputs hstart horder hattended always_nil

theorem refreshes_on_ticks_turn :
    Always (Evidence 100 0) (run (watchdogStep 100) ⟨0,0,0,0,false⟩
      [.tickIsr,.process 150 true,.tickIsr,.process (2^32+5) true,.tickIsr,
        .process (2^32+200) true]).2 := by
  refine @refreshes_on_ticks 100 0 true true _ _ rfl ?_ ?_
  · simp [InOrder]
  · simp [Attended,LaterGrace]

def graceMs : UInt32 := 100

/-- A tick and a mainline call in every millisecond from `t` on, then `rest`. -/
def alive : ℕ → ℕ → List WatchdogInput → List WatchdogInput
  | _, 0, rest => rest
  | t, k+1, rest => .tickIsr::.process t true::alive (t+1) k rest

/-- The state of a healthy system before the millisecond `t`. -/
def healthy (t : ℕ) : WatchdogState :=
  ⟨UInt32.ofNat t,if t ≤ 100 then 0 else UInt32.ofNat t,UInt32.ofNat (t-100),0,false⟩

theorem tick_ne (t : ℕ) : UInt32.ofNat (t+1) ≠ UInt32.ofNat t := by
  intro h
  have hnat := congrArg UInt32.toNat h
  simp only [UInt32.toNat_ofNat'] at hnat
  omega

theorem healthy_evidence {t : ℕ} :
    UInt32.ofNat (t+1) ≠ (healthy t).lastMainlineTick := by
  simp only [healthy]
  split
  · intro h
    have hnat := congrArg UInt32.toNat h
    rw [UInt32.toNat_ofNat_of_lt' (by rw [show UInt32.size = 2^32 from rfl]; omega)] at hnat
    cases hnat
  · exact tick_ne t

theorem healthy_process {t : ℕ} (ht : t < 2^32) :
    canopenReferenceWatchdogProcess graceMs (canopenReferenceWatchdogTickIsr (healthy t))
      (UInt32.ofNat t) true = (healthy (t+1),true) := by
  have hgrace : UInt32.ofNat t-0 < graceMs ↔ t < 100 := by
    rw [UInt32.sub_zero,UInt32.lt_iff_toNat_lt,UInt32.toNat_ofNat_of_lt' ht]
    rfl
  have htick : UInt32.ofNat t+1 = UInt32.ofNat (t+1) := (UInt32.ofNat_add t 1).symm
  have hmark := @healthy_evidence t
  simp only [healthy] at hmark
  simp only [canopenReferenceWatchdogProcess,canopenReferenceWatchdogTickIsr,healthy,htick,hgrace,
    hmark,if_false]
  by_cases hin : t < 100
  · have hzero : t-100 = 0 ∧ t+1-100 = 0 := by omega
    rw [if_pos hin,if_pos (by omega),if_pos (by omega),hzero.1,hzero.2]
  · have hnext : t+1-100 = t-100+1 := by omega
    rw [if_neg hin,if_neg (by omega),hnext,UInt32.ofNat_add (t-100) 1]
    rfl

theorem healthy_round {t : ℕ} (ht : t < 2^32) (rest : List WatchdogInput) :
    (run (watchdogStep graceMs) (healthy t) (.tickIsr::.process t true::rest)).2 =
      .ticked::.processed t true::(run (watchdogStep graceMs) (healthy (t+1)) rest).2 := by
  have htick : watchdogStep graceMs (healthy t) .tickIsr =
      (canopenReferenceWatchdogTickIsr (healthy t),[.ticked]) := rfl
  have hprocess : watchdogStep graceMs (canopenReferenceWatchdogTickIsr (healthy t))
      (.process t true) = (healthy (t+1),[.processed t true]) := by
    show (_,[WatchdogEvent.processed t _]) = _
    rw [healthy_process ht]
  rw [run_cons,htick,run_cons,hprocess]
  rfl

theorem alive_order {t last k : ℕ} (hlast : last ≤ t) :
    InOrder last (alive t k [.process (t+k) true]) := by
  induction k generalizing t last with
  | zero => exact ⟨hlast,trivial⟩
  | succ k ih =>
    have h := @ih (t+1) t (Nat.le_succ t)
    rw [Nat.add_right_comm,Nat.add_assoc] at h
    exact ⟨hlast,h⟩

theorem alive_refreshes {t k : ℕ} (hturn : t+(k+1) = 2^32) :
    ∃ before, (run (watchdogStep graceMs) (healthy t)
        (alive t (k+1) [.process (2^32) true])).2 =
      before++[.processed (2^32-1) true,.processed (2^32) true] := by
  induction k generalizing t with
  | zero =>
    have ht : t = 2^32-1 := by omega
    have hturned : (run (watchdogStep graceMs) (healthy (t+1)) [.process (2^32) true]).2 =
        [.processed (2^32) true] := by
      rw [ht]
      rfl
    refine ⟨[.ticked],?_⟩
    rw [alive,alive,healthy_round (by omega),hturned,ht]
    rfl
  | succ k ih =>
    obtain ⟨before,hbefore⟩ := @ih (t+1) (by omega)
    refine ⟨.ticked::.processed t true::before,?_⟩
    rw [alive,healthy_round (by omega),hbefore]
    rfl

/-- The timer interrupt dies when the counter comes around after 49.7 days, and
the next mainline call refreshes. -/
theorem dead_timer_refreshed :
    let inputs := alive 0 (2^32) [.process (0+2^32) true]
    canopenReferenceWatchdogInit true true 0 = some (healthy 0) ∧ InOrder 0 inputs ∧
      ¬Always (Evidence graceMs 0) (run (watchdogStep graceMs) (healthy 0) inputs).2 := by
  refine ⟨rfl,alive_order (Nat.le_refl 0),fun hall => ?_⟩
  obtain ⟨before,hevents⟩ := @alive_refreshes 0 (2^32-1) rfl
  have hall' : Always (Evidence graceMs 0)
      (before++[.processed (2^32-1) true,.processed (2^32) true]) := hevents ▸ hall
  refine hall' (before++[.processed (2^32-1) true]) (.processed (2^32) true) [] (by simp)
    (2^32) rfl ⟨before,2^32-1,[],rfl,by decide,by simp⟩

end CanopenReference.Watchdog
