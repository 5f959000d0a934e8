import CanopenReference.Library.Clock
import CanopenReference.Library.Runs

/-!
# Timing instrumentation

The hooks of `canopen_reference_timing.c` in a build that has them. They are
called on entry to an interval and on leaving it, from several contexts that
interrupt each other; the cycle counter wraps.
-/

set_option autoImplicit false

namespace CanopenReference.TimingStats
open Library Library.Runs

inductive CanContext where
  | tx
  | rx0
  | rx1
  | error
  deriving DecidableEq

/-- The intervals of which only the maximum is kept. -/
inductive Phase where
  | appInterrupt
  | sync
  | rpdo
  | cia401
  | cia402
  | cia418
  | tpdo
  | udsRx
  | isotp
  | udsDispatch
  | udsTx
  | udsMainline
  deriving DecidableEq

structure Stats where
  coreClockHz : UInt32
  tim7IrqCount : UInt32
  tim7IrqCyclesMax : UInt32
  tim7PeriodCyclesMax : UInt32
  tim7OverrunCount : UInt32
  tim7WarningCount : UInt32
  canIrqCount : CanContext → UInt32
  canIrqCyclesMax : CanContext → UInt32
  mainlineSampleCount : UInt32
  mainlineCyclesMax : UInt32
  phaseCyclesMax : Phase → UInt32

structure TimingState where
  stats : Stats
  lastTim7Cycle : UInt32
  tim7Primed : Bool

def isrBudgetUs : UInt32 := 1000
def isrWarningUs : UInt32 := 500

def saturatingIncrement (value : UInt32) : UInt32 :=
  if value ≠ 0xFFFFFFFF then value+1 else value

def saturatingMax (value sample : UInt32) : UInt32 := if sample > value then sample else value

def timingInit (systemCoreClock : UInt32) : TimingState where
  stats :=
    { coreClockHz := systemCoreClock
      tim7IrqCount := 0
      tim7IrqCyclesMax := 0
      tim7PeriodCyclesMax := 0
      tim7OverrunCount := 0
      tim7WarningCount := 0
      canIrqCount := fun _ => 0
      canIrqCyclesMax := fun _ => 0
      mainlineSampleCount := 0
      mainlineCyclesMax := 0
      phaseCyclesMax := fun _ => 0 }
  lastTim7Cycle := 0
  tim7Primed := false

section Hooks
variable (s : TimingState) (start now : UInt32)

def tim7Enter : TimingState × UInt32 :=
  ({ s with
      stats := if s.tim7Primed then
          { s.stats with
            tim7PeriodCyclesMax :=
              saturatingMax s.stats.tim7PeriodCyclesMax (now-s.lastTim7Cycle) }
        else s.stats
      lastTim7Cycle := now
      tim7Primed := true },now)

def tim7Exit : TimingState :=
  let elapsed := now-start
  let budgetCycles := s.stats.coreClockHz/1000000*isrBudgetUs
  let warningCycles := s.stats.coreClockHz/1000000*isrWarningUs
  { s with
    stats := { s.stats with
      tim7IrqCount := saturatingIncrement s.stats.tim7IrqCount
      tim7IrqCyclesMax := saturatingMax s.stats.tim7IrqCyclesMax elapsed
      tim7WarningCount := if elapsed > warningCycles then
          saturatingIncrement s.stats.tim7WarningCount
        else s.stats.tim7WarningCount
      tim7OverrunCount := if elapsed > budgetCycles then
          saturatingIncrement s.stats.tim7OverrunCount
        else s.stats.tim7OverrunCount } }

def canExit (context : CanContext) : TimingState :=
  { s with
    stats := { s.stats with
      canIrqCount := fun c => if c = context then saturatingIncrement (s.stats.canIrqCount c)
        else s.stats.canIrqCount c
      canIrqCyclesMax := fun c => if c = context then
          saturatingMax (s.stats.canIrqCyclesMax c) (now-start)
        else s.stats.canIrqCyclesMax c } }

def phaseExit (phase : Phase) : TimingState :=
  { s with
    stats := { s.stats with
      phaseCyclesMax := fun p => if p = phase then
          saturatingMax (s.stats.phaseCyclesMax p) (now-start)
        else s.stats.phaseCyclesMax p } }

def mainlineExit : TimingState :=
  { s with
    stats := { s.stats with
      mainlineSampleCount := saturatingIncrement s.stats.mainlineSampleCount
      mainlineCyclesMax := saturatingMax s.stats.mainlineCyclesMax (now-start) } }

end Hooks

inductive Probe where
  | tim7
  | can (context : CanContext)
  | mainline
  | phase (phase : Phase)
  deriving DecidableEq

/-- Every hook on entry returns the cycle counter; that of TIM7 also looks at the
period. -/
def enter (s : TimingState) (now : UInt32) : Probe → TimingState × UInt32
  | .tim7 => tim7Enter s now
  | _ => (s,now)

def exit (s : TimingState) (start now : UInt32) : Probe → TimingState
  | .tim7 => tim7Exit s start now
  | .can context => canExit s start now context
  | .mainline => mainlineExit s start now
  | .phase phase => phaseExit s start now phase

/-- The statistics with the cycles that have passed, and the start that each
context has in a variable of its own. -/
structure Instrumented where
  timing : TimingState
  now : ℕ
  starts : Probe → Option UInt32

inductive TimingInput where
  | enter (probe : Probe) (delay : ℕ)
  | exit (probe : Probe) (delay : ℕ)

inductive TimingEvent where
  | entered (probe : Probe) (now : ℕ)
  | left (probe : Probe) (now : ℕ)

def timingStep (s : Instrumented) : TimingInput → Instrumented × List TimingEvent
  | .enter probe delay =>
    let entered := enter s.timing (UInt32.ofNat (s.now+delay)) probe
    (⟨entered.1,s.now+delay,fun p => if p = probe then some entered.2 else s.starts p⟩,
      [.entered probe (s.now+delay)])
  | .exit probe delay =>
    match s.starts probe with
    | none => ({ s with now := s.now+delay },[])
    | some start =>
      (⟨exit s.timing start (UInt32.ofNat (s.now+delay)) probe,s.now+delay,
          fun p => if p = probe then none else s.starts p⟩,
        [.left probe (s.now+delay)])

section History

/-- When the interval of the probe that is under way began, and how long the
earlier ones were. -/
def spanStep (probe : Probe) (spans : Option ℕ × List ℕ) : TimingEvent → Option ℕ × List ℕ
  | .entered p now => if p = probe then (some now,spans.2) else spans
  | .left p now => if p = probe then (none,spans.2++[now-spans.1.getD now]) else spans

def spans (probe : Probe) (history : List TimingEvent) : Option ℕ × List ℕ :=
  history.foldl (spanStep probe) (none,[])

def periodStep (periods : Option ℕ × List ℕ) : TimingEvent → Option ℕ × List ℕ
  | .entered .tim7 now =>
    (some now,periods.2++(periods.1.map fun last => now-last).toList)
  | _ => periods

def periods (history : List TimingEvent) : Option ℕ × List ℕ :=
  history.foldl periodStep (none,[])

def cycles (lengths : List ℕ) : List ℕ := lengths.map (·%2^32)

def longest (samples : List ℕ) : ℕ := samples.foldl max 0

def saturated (n : ℕ) : ℕ := min n (2^32-1)

def cycleLimit (coreClockHz : UInt32) (us : ℕ) : ℕ := coreClockHz.toNat/1000000*us

structure Tallied (count maximum : UInt32) (samples : List ℕ) : Prop where
  count : count.toNat = saturated samples.length
  maximum : maximum.toNat = longest samples

structure Measured (coreClockHz : UInt32) (stats : Stats) (past : List TimingEvent) : Prop where
  clock : stats.coreClockHz = coreClockHz
  tim7 : Tallied stats.tim7IrqCount stats.tim7IrqCyclesMax (cycles (spans .tim7 past).2)
  period : stats.tim7PeriodCyclesMax.toNat = longest (cycles (periods past).2)
  warnings : stats.tim7WarningCount.toNat =
    saturated ((cycles (spans .tim7 past).2).countP (cycleLimit coreClockHz 500 < ·))
  overruns : stats.tim7OverrunCount.toNat =
    saturated ((cycles (spans .tim7 past).2).countP (cycleLimit coreClockHz 1000 < ·))
  can : ∀ context, Tallied (stats.canIrqCount context) (stats.canIrqCyclesMax context)
    (cycles (spans (.can context) past).2)
  mainline : Tallied stats.mainlineSampleCount stats.mainlineCyclesMax
    (cycles (spans .mainline past).2)
  phase : ∀ phase, (stats.phaseCyclesMax phase).toNat =
    longest (cycles (spans (.phase phase) past).2)

end History

section Samples

theorem increment_saturated {value : UInt32} {n : ℕ} (h : value.toNat = saturated n) :
    (saturatingIncrement value).toNat = saturated (n+1) := by
  have hlt := value.toNat_lt
  unfold saturated at h ⊢
  unfold saturatingIncrement
  split
  · rename_i hroom
    have hne : value.toNat ≠ 2^32-1 := fun hc => hroom (UInt32.toNat_inj.mp hc)
    rw [UInt32.toNat_add]
    show (value.toNat+1)%2^32 = _
    omega
  · rename_i hfull
    have heq : value.toNat = 2^32-1 := congrArg UInt32.toNat (not_not.mp hfull)
    omega

theorem longest_concat (samples : List ℕ) (x : ℕ) :
    longest (samples++[x]) = max (longest samples) x := by
  rw [longest,List.foldl_append]
  rfl

theorem max_longest {value sample : UInt32} {samples : List ℕ}
    (h : value.toNat = longest samples) :
    (saturatingMax value sample).toNat = longest (samples++[sample.toNat]) := by
  rw [longest_concat,← h]
  unfold saturatingMax
  split
  · rename_i hlarger
    have hlt := UInt32.lt_iff_toNat_lt.mp hlarger
    omega
  · rename_i hother
    have hle := UInt32.le_iff_toNat_le.mp (UInt32.not_lt.mp hother)
    omega

theorem tallied_next {count maximum sample : UInt32} {samples : List ℕ}
    (h : Tallied count maximum samples) :
    Tallied (saturatingIncrement count) (saturatingMax maximum sample)
      (samples++[sample.toNat]) := by
  refine ⟨?_,max_longest h.maximum⟩
  rw [List.length_append]
  exact increment_saturated h.count

theorem cycle_limit (coreClockHz us : UInt32) (h : us.toNat ≤ 1000000) :
    (coreClockHz/1000000*us).toNat = cycleLimit coreClockHz us.toNat := by
  have hlt := coreClockHz.toNat_lt
  rw [UInt32.toNat_mul,UInt32.toNat_div]
  show coreClockHz.toNat/1000000*us.toNat%2^32 = _
  have hdiv : coreClockHz.toNat/1000000 ≤ 4294 := by omega
  have hmul : coreClockHz.toNat/1000000*us.toNat ≤ 4294*1000000 := Nat.mul_le_mul hdiv h
  exact Nat.mod_eq_of_lt (by omega)

theorem counted_over {count sample : UInt32} {samples : List ℕ} {coreClockHz us : UInt32}
    (hus : us.toNat ≤ 1000000)
    (h : count.toNat = saturated (samples.countP (cycleLimit coreClockHz us.toNat < ·))) :
    (if sample > coreClockHz/1000000*us then saturatingIncrement count else count).toNat =
      saturated ((samples++[sample.toNat]).countP (cycleLimit coreClockHz us.toNat < ·)) := by
  have hover : sample > coreClockHz/1000000*us ↔
      cycleLimit coreClockHz us.toNat < sample.toNat := by
    rw [← cycle_limit coreClockHz us hus]
    exact UInt32.lt_iff_toNat_lt
  rw [List.countP_append,List.countP_singleton]
  by_cases hlong : cycleLimit coreClockHz us.toNat < sample.toNat
  · rw [if_pos (hover.mpr hlong),if_pos (decide_eq_true hlong)]
    exact increment_saturated h
  · rw [if_neg (hover.not.mpr hlong),if_neg (by simpa using hlong)]
    exact h

end Samples

section Run
variable {coreClockHz : UInt32} {s : Instrumented} {past : List TimingEvent}

/-- The starts in the variables and the last entry of TIM7 are those of the
history, and the statistics say what it was. -/
structure Reflects (coreClockHz : UInt32) (s : Instrumented) (past : List TimingEvent) :
    Prop where
  starts : ∀ probe, s.starts probe = (spans probe past).1.map UInt32.ofNat
  begun : ∀ probe start, (spans probe past).1 = some start → start ≤ s.now
  primed : s.timing.tim7Primed = (periods past).1.isSome
  last : ∀ time, (periods past).1 = some time →
    s.timing.lastTim7Cycle = UInt32.ofNat time ∧ time ≤ s.now
  measured : Measured coreClockHz s.timing.stats past

theorem spans_concat (probe : Probe) (e : TimingEvent) :
    spans probe (past++[e]) = spanStep probe (spans probe past) e := by
  rw [spans,List.foldl_append]
  rfl

theorem periods_concat (e : TimingEvent) : periods (past++[e]) = periodStep (periods past) e := by
  rw [periods,List.foldl_append]
  rfl

theorem entered_spans (probe p : Probe) (now : ℕ) :
    spans p (past++[.entered probe now]) =
      if probe = p then (some now,(spans p past).2) else spans p past := spans_concat p _

theorem entered_lengths (probe p : Probe) (now : ℕ) :
    (spans p (past++[.entered probe now])).2 = (spans p past).2 := by
  rw [entered_spans]
  split <;> rfl

theorem entered_periods {probe : Probe} (h : probe ≠ .tim7) (now : ℕ) :
    periods (past++[.entered probe now]) = periods past := by
  rw [periods_concat]
  cases probe with
  | tim7 => exact absurd rfl h
  | _ => rfl

theorem measured_entered {stats : Stats} (h : Measured coreClockHz stats past) (probe : Probe)
    (now : ℕ) (period : UInt32)
    (hperiod : period.toNat = longest (cycles (periods (past++[.entered probe now])).2)) :
    Measured coreClockHz { stats with tim7PeriodCyclesMax := period }
      (past++[.entered probe now]) := by
  refine ⟨h.clock,?_,hperiod,?_,?_,fun context => ?_,?_,fun phase => ?_⟩
  · rw [entered_lengths]
    exact h.tim7
  · rw [entered_lengths]
    exact h.warnings
  · rw [entered_lengths]
    exact h.overruns
  · rw [entered_lengths]
    exact h.can context
  · rw [entered_lengths]
    exact h.mainline
  · rw [entered_lengths]
    exact h.phase phase

theorem enter_other {probe : Probe} (h : probe ≠ .tim7) (t : TimingState) (now : UInt32) :
    enter t now probe = (t,now) := by
  cases probe with
  | tim7 => exact absurd rfl h
  | _ => rfl

theorem enter_returns (t : TimingState) (now : UInt32) (probe : Probe) :
    (enter t now probe).2 = now := by
  cases probe <;> rfl

theorem tim7_period (h : Reflects coreClockHz s past) (delay : ℕ) :
    (tim7Enter s.timing (UInt32.ofNat (s.now+delay))).1.stats.tim7PeriodCyclesMax.toNat =
      longest (cycles (periods (past++[.entered .tim7 (s.now+delay)])).2) := by
  have hperiods : periods (past++[.entered .tim7 (s.now+delay)]) =
      (some (s.now+delay),(periods past).2++
        ((periods past).1.map fun last => s.now+delay-last).toList) := periods_concat _
  have hprimed := h.primed
  rw [hperiods]
  unfold tim7Enter
  cases hlast : (periods past).1 with
  | none =>
    rw [hlast,Option.isSome_none] at hprimed
    rw [if_neg (by rw [hprimed]; exact Bool.false_ne_true)]
    simpa using h.measured.period
  | some time =>
    rw [hlast,Option.isSome_some] at hprimed
    obtain ⟨hcycle,hle⟩ := h.last time hlast
    have helapsed : (UInt32.ofNat (s.now+delay)-UInt32.ofNat time).toNat =
        (s.now+delay-time)%2^32 := Clock.elapsed_mod (by omega)
    rw [if_pos hprimed,hcycle]
    have hmax := @max_longest _ (UInt32.ofNat (s.now+delay)-UInt32.ofNat time) _
      h.measured.period
    rw [helapsed] at hmax
    simpa [cycles] using hmax

theorem enter_reflects (h : Reflects coreClockHz s past) (probe : Probe) (delay : ℕ) :
    Reflects coreClockHz (timingStep s (.enter probe delay)).1
      (past++[.entered probe (s.now+delay)]) := by
  refine ⟨fun p => ?_,fun p start hstart => ?_,?_,fun time htime => ?_,?_⟩
  · rw [entered_spans]
    show (if p = probe then some (enter s.timing (UInt32.ofNat (s.now+delay)) probe).2
      else s.starts p) = _
    by_cases hp : probe = p
    · rw [if_pos hp,if_pos hp.symm,enter_returns]
      rfl
    · rw [if_neg hp,if_neg fun hc => hp hc.symm]
      exact h.starts p
  · show start ≤ s.now+delay
    rw [entered_spans] at hstart
    split at hstart
    · cases hstart
      exact Nat.le_refl _
    · exact Nat.le_trans (h.begun p start hstart) (Nat.le_add_right _ _)
  all_goals
    by_cases hprobe : probe = .tim7
  · subst hprobe
    rw [periods_concat]
    rfl
  · rw [entered_periods hprobe]
    show (enter s.timing (UInt32.ofNat (s.now+delay)) probe).1.tim7Primed = _
    rw [enter_other hprobe]
    exact h.primed
  · subst hprobe
    rw [periods_concat] at htime
    cases htime
    exact ⟨rfl,Nat.le_refl _⟩
  · rw [entered_periods hprobe] at htime
    obtain ⟨hcycle,hle⟩ := h.last time htime
    show (enter s.timing (UInt32.ofNat (s.now+delay)) probe).1.lastTim7Cycle = _ ∧
      time ≤ s.now+delay
    rw [enter_other hprobe]
    exact ⟨hcycle,Nat.le_trans hle (Nat.le_add_right _ _)⟩
  · subst hprobe
    have hstats : (enter s.timing (UInt32.ofNat (s.now+delay)) .tim7).1.stats =
        { s.timing.stats with
          tim7PeriodCyclesMax :=
            (tim7Enter s.timing (UInt32.ofNat (s.now+delay))).1.stats.tim7PeriodCyclesMax } := by
      unfold enter tim7Enter
      dsimp only
      split <;> rfl
    show Measured coreClockHz (enter s.timing (UInt32.ofNat (s.now+delay)) .tim7).1.stats _
    rw [hstats]
    exact measured_entered h.measured .tim7 _ _ (tim7_period h delay)
  · show Measured coreClockHz (enter s.timing (UInt32.ofNat (s.now+delay)) probe).1.stats _
    rw [enter_other hprobe]
    refine measured_entered h.measured probe _ s.timing.stats.tim7PeriodCyclesMax ?_
    rw [entered_periods hprobe]
    exact h.measured.period

theorem left_other {probe p : Probe} (h : probe ≠ p) (now : ℕ) :
    spans p (past++[.left probe now]) = spans p past := by
  rw [spans_concat]
  exact if_neg h

theorem left_periods (probe : Probe) (now : ℕ) :
    periods (past++[.left probe now]) = periods past := by
  rw [periods_concat]
  rfl

theorem left_cycles {probe : Probe} {time now : ℕ} (hopen : (spans probe past).1 = some time)
    (hle : time ≤ now) :
    cycles (spans probe (past++[.left probe now])).2 =
      cycles (spans probe past).2++[(UInt32.ofNat now-UInt32.ofNat time).toNat] := by
  rw [spans_concat,spanStep,if_pos rfl,hopen,Clock.elapsed_mod hle]
  exact List.map_append

theorem measured_left (h : Measured coreClockHz s.timing.stats past) {probe : Probe}
    {time now : ℕ} (hopen : (spans probe past).1 = some time) (hle : time ≤ now) :
    Measured coreClockHz
      (exit s.timing (UInt32.ofNat time) (UInt32.ofNat now) probe).stats
      (past++[.left probe now]) := by
  have hcycles := left_cycles hopen hle
  have hother : ∀ {p : Probe}, probe ≠ p →
      spans p (past++[.left probe now]) = spans p past := fun hp => left_other hp now
  have hperiod := h.period
  rw [← left_periods probe now] at hperiod
  cases probe with
  | tim7 =>
    refine ⟨h.clock,?_,hperiod,?_,?_,fun context => ?_,?_,fun phase => ?_⟩
    · rw [hcycles]
      exact tallied_next h.tim7
    · rw [hcycles]
      show (if _ > s.timing.stats.coreClockHz/1000000*isrWarningUs then _ else _ : UInt32).toNat = _
      rw [h.clock]
      exact counted_over (by decide) h.warnings
    · rw [hcycles]
      show (if _ > s.timing.stats.coreClockHz/1000000*isrBudgetUs then _ else _ : UInt32).toNat = _
      rw [h.clock]
      exact counted_over (by decide) h.overruns
    · rw [hother (by simp)]
      exact h.can context
    · rw [hother (by simp)]
      exact h.mainline
    · rw [hother (by simp)]
      exact h.phase phase
  | can context =>
    refine ⟨h.clock,?_,hperiod,?_,?_,fun c => ?_,?_,fun phase => ?_⟩
    · rw [hother (by simp)]
      exact h.tim7
    · rw [hother (by simp)]
      exact h.warnings
    · rw [hother (by simp)]
      exact h.overruns
    · by_cases hc : c = context
      · subst hc
        rw [hcycles]
        show Tallied (if c = c then _ else _) (if c = c then _ else _) _
        rw [if_pos rfl,if_pos rfl]
        exact tallied_next (h.can c)
      · rw [hother (by simp [Ne.symm hc])]
        show Tallied (if c = context then _ else _) (if c = context then _ else _) _
        rw [if_neg hc,if_neg hc]
        exact h.can c
    · rw [hother (by simp)]
      exact h.mainline
    · rw [hother (by simp)]
      exact h.phase phase
  | mainline =>
    refine ⟨h.clock,?_,hperiod,?_,?_,fun context => ?_,?_,fun phase => ?_⟩
    · rw [hother (by simp)]
      exact h.tim7
    · rw [hother (by simp)]
      exact h.warnings
    · rw [hother (by simp)]
      exact h.overruns
    · rw [hother (by simp)]
      exact h.can context
    · rw [hcycles]
      exact tallied_next h.mainline
    · rw [hother (by simp)]
      exact h.phase phase
  | phase phase =>
    refine ⟨h.clock,?_,hperiod,?_,?_,fun context => ?_,?_,fun p => ?_⟩
    · rw [hother (by simp)]
      exact h.tim7
    · rw [hother (by simp)]
      exact h.warnings
    · rw [hother (by simp)]
      exact h.overruns
    · rw [hother (by simp)]
      exact h.can context
    · rw [hother (by simp)]
      exact h.mainline
    · by_cases hp : p = phase
      · subst hp
        rw [hcycles]
        show (if p = p then _ else _ : UInt32).toNat = _
        rw [if_pos rfl]
        exact max_longest (h.phase p)
      · rw [hother (by simp [Ne.symm hp])]
        show (if p = phase then _ else _ : UInt32).toNat = _
        rw [if_neg hp]
        exact h.phase p

theorem left_spans (probe p : Probe) (now : ℕ) :
    (spans p (past++[.left probe now])).1 = if probe = p then none else (spans p past).1 := by
  rw [spans_concat]
  show (if probe = p then _ else _ : Option ℕ × List ℕ).1 = _
  split <;> rfl

theorem exit_keeps (t : TimingState) (start now : UInt32) (probe : Probe) :
    (exit t start now probe).tim7Primed = t.tim7Primed ∧
      (exit t start now probe).lastTim7Cycle = t.lastTim7Cycle := by
  cases probe <;> exact ⟨rfl,rfl⟩

theorem exit_reflects (h : Reflects coreClockHz s past) {probe : Probe} {start : UInt32}
    (hstart : s.starts probe = some start) (delay : ℕ) :
    Reflects coreClockHz
      ⟨exit s.timing start (UInt32.ofNat (s.now+delay)) probe,s.now+delay,
        fun p => if p = probe then none else s.starts p⟩
      (past++[.left probe (s.now+delay)]) := by
  obtain ⟨time,hopen,htime⟩ := Option.map_eq_some_iff.mp ((h.starts probe).symm.trans hstart)
  have hle : time ≤ s.now+delay := Nat.le_trans (h.begun probe time hopen) (Nat.le_add_right _ _)
  obtain ⟨hprimed,hcycle⟩ := exit_keeps s.timing start (UInt32.ofNat (s.now+delay)) probe
  refine ⟨fun p => ?_,fun p t ht => ?_,?_,fun t ht => ?_,?_⟩
  · rw [left_spans]
    by_cases hp : probe = p
    · rw [if_pos hp]
      exact if_pos hp.symm
    · rw [if_neg hp]
      exact (if_neg fun hc => hp hc.symm).trans (h.starts p)
  · rw [left_spans] at ht
    split at ht
    · cases ht
    · exact Nat.le_trans (h.begun p t ht) (Nat.le_add_right _ _)
  · rw [left_periods]
    exact hprimed.trans h.primed
  · rw [left_periods] at ht
    obtain ⟨hlast,hbefore⟩ := h.last t ht
    exact ⟨hcycle.trans hlast,Nat.le_trans hbefore (Nat.le_add_right _ _)⟩
  · rw [← htime]
    exact measured_left h.measured hopen hle

theorem step_reflects (h : Reflects coreClockHz s past) (input : TimingInput) :
    Reflects coreClockHz (timingStep s input).1 (past++(timingStep s input).2) := by
  cases input with
  | enter probe delay => exact enter_reflects h probe delay
  | exit probe delay =>
    dsimp only [timingStep]
    cases hstart : s.starts probe with
    | some start => exact exit_reflects h hstart delay
    | none =>
      rw [List.append_nil]
      refine ⟨h.starts,fun p t ht => ?_,h.primed,fun t ht => ?_,h.measured⟩
      · exact Nat.le_trans (h.begun p t ht) (Nat.le_add_right _ _)
      · obtain ⟨hlast,hbefore⟩ := h.last t ht
        exact ⟨hlast,Nat.le_trans hbefore (Nat.le_add_right _ _)⟩

def instrumented (systemCoreClock : UInt32) : Instrumented :=
  ⟨timingInit systemCoreClock,0,fun _ => none⟩

theorem init_reflects (systemCoreClock : UInt32) :
    Reflects systemCoreClock (instrumented systemCoreClock) [] where
  starts _ := rfl
  begun _ _ h := nomatch h
  primed := rfl
  last _ h := nomatch h
  measured := ⟨rfl,⟨rfl,rfl⟩,rfl,rfl,rfl,fun _ => ⟨rfl,rfl⟩,⟨rfl,rfl⟩,fun _ => rfl⟩

/-- However the intervals of the contexts lie in each other, the statistics are
the number and the maximum of their lengths as the cycle counter gives them, the
number of those of TIM7 that were over either limit, and its longest period. The
numbers stop at the end of their range. -/
theorem statistics_measured (systemCoreClock : UInt32) (inputs : List TimingInput) :
    let final := run timingStep (instrumented systemCoreClock) inputs
    Measured systemCoreClock final.1.timing.stats final.2 :=
  (along_history timingStep (fun _ _ => True) (Reflects systemCoreClock)
    (fun _ _ input h _ => step_reflects h input) (instrumented systemCoreClock) [] inputs
    (init_reflects systemCoreClock) (along_true _ _ _)).measured

end Run
end CanopenReference.TimingStats
