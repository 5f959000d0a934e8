import CanopenReference.Library.Watched
import CanopenReference.MainLoop

/-!
# The main loop beside a clock

The clock counts milliseconds without wrap and may advance before every
statement. It notes the time a pass samples, and the time of the last call of
the stack or of the last tick that a communication reset took over. A phase is
what calm statements and the passing of time keep, and there is one rule for
each form of statement.
-/

set_option autoImplicit false

namespace CanopenReference.ElapsedTime
open Library.Runs Library.Statements Library.Watched BusOff Diagnostics UdsStm32 MainLoop

/-- What the surroundings supply to a statement: the time that passes before
it, and the answers other than the tick. -/
structure Moment where
  delay : ℕ
  ok : Bool
  command : CoNmtResetCmd
  driver : List TxAnswer

/-- The clock, with the number of statements of the running call so far, the
time of the second one, the time that elapsed time is counted from, whether the
CAN module has just been set to normal mode, and whether every recovery so far
took over the tick that its pass had sampled. -/
structure Watch where
  time : ℕ
  place : ℕ
  sampled : ℕ
  since : ℕ
  normal : Bool
  punctual : Bool
  deriving DecidableEq

def answerAt (g : Watch) (i : Moment) : Answer :=
  ⟨UInt32.ofNat (g.time+i.delay),i.ok,i.command,i.driver⟩

def processes : AppEvent → Bool
  | .coProcess _ => true
  | _ => false

/-- The statement after the CAN module has been set to normal mode reads the
tick that a communication reset takes over. A reset of the MCU resets the tick. -/
def noted (g : Watch) (i : Moment) (a : App) (events : List AppEvent) : Watch :=
  let time := g.time+i.delay
  { time := if .mcuReset ∈ events then 0 else time
    place := g.place+1
    sampled := if g.place = 1 then time else g.sampled
    since := if g.normal then time else if events.any processes then g.sampled else g.since
    normal := .canNormalMode ∈ events
    punctual := g.punctual && (!g.normal || !a.recoveryAttemptActive ||
      UInt32.ofNat time = UInt32.ofNat g.sampled) }

def clock : Observer App Answer AppEvent Watch Moment where
  answer := answerAt
  note := noted
  enter g := { g with place := 0 }

def timedTurn : Machine (App × Watch) Moment (Watch × AppEvent) → Turn Entry Moment Interrupt →
    Machine (App × Watch) Moment (Watch × AppEvent) × List (Watch × AppEvent) :=
  watchTurn clock appEntry appHandler

def timedPowerOn : Machine (App × Watch) Moment (Watch × AppEvent) :=
  ⟨(powerOn,⟨0,0,0,0,false,true⟩),none⟩

/-- The difference handed to the stack is the elapsed time in microseconds, and
no more than that where it does not fit 32 bits. -/
def Exact : Watch × AppEvent → Prop
  | (g,.coProcess us) => g.since ≤ g.sampled ∧ us.toNat ≤ 1000*(g.sampled-g.since) ∧
      (1000*(g.sampled-g.since) < 2^32 → us.toNat = 1000*(g.sampled-g.since))
  | _ => True

/-- A tick that is taken over during a recovery is the one the pass sampled. -/
def Punctual (m : Machine (App × Watch) Moment (Watch × AppEvent)) :
    Turn Entry Moment Interrupt → Prop
  | .statement i => m.state.2.normal = true → m.state.1.recoveryAttemptActive = true →
      UInt32.ofNat (m.state.2.time+i.delay) = UInt32.ofNat m.state.2.sampled
  | _ => True

/-- The timed machine runs the main loop, with ticks that never go back. -/
theorem timed_run (turns : List (Turn Entry Moment Interrupt)) :
    ∃ turns' : List (Turn Entry Answer Interrupt),
      Beside clock (run appTurn ⟨powerOn,none⟩ turns').1 (run timedTurn timedPowerOn turns).1 ∧
      (run appTurn ⟨powerOn,none⟩ turns').2 =
        (run timedTurn timedPowerOn turns).2.map Prod.snd :=
  beside_run clock appEntry appHandler (.idle powerOn _) turns

structure SameTick (a b : App) : Prop where
  lastTick : b.lastTick = a.lastTick
  active : b.recoveryAttemptActive = a.recoveryAttemptActive
  co : b.co.isSome = a.co.isSome

def Mild (e : AppEvent) : Prop :=
  e ≠ .mcuReset ∧ e ≠ .canNormalMode ∧ processes e = false

def Calm : (App → Answer → App × List AppEvent) → Prop := Framed SameTick Mild

theorem same_refl (a : App) : SameTick a a := ⟨rfl,rfl,rfl⟩

theorem noted_mild (g : Watch) (i : Moment) (a : App) {events : List AppEvent}
    (h : ∀ e ∈ events, Mild e) : noted g i a events = noted g i a [] := by
  have h1 : AppEvent.mcuReset ∉ events := fun hm => (h _ hm).1 rfl
  have h2 : AppEvent.canNormalMode ∉ events := fun hm => (h _ hm).2.1 rfl
  have h3 : events.any processes = false := by
    rw [List.any_eq_false]
    intro e he
    simp [(h e he).2.2]
  simp [noted,h1,h2,h3]

theorem mild_exact {e : AppEvent} (h : Mild e) (g : Watch) : Exact (g,e) := by
  cases e with
  | coProcess us => exact absurd h.2.2 (by simp [processes])
  | _ => trivial

/-- Where the run has been punctual, every difference so far is exact and `P`
holds. -/
def Sound (P : App × Watch → Prop) (s : App × Watch) (past : List (Watch × AppEvent)) : Prop :=
  s.2.punctual = true → (∀ e ∈ past, Exact e) ∧ P s

theorem handler_calm (a : App) (cause : Interrupt) :
    SameTick a (appHandler a cause).1 ∧ ∀ e ∈ (appHandler a cause).2, Mild e := by
  cases cause with
  | error busOff =>
    constructor
    · simp only [appHandler,halCanErrorCallback]
      split <;> exact ⟨rfl,rfl,rfl⟩
    · intro e he
      simp only [appHandler] at he
      split at he
      · rw [List.mem_singleton.mp he]
        exact ⟨by decide,by decide,rfl⟩
      · cases he
  | rxFifo1 frame => exact ⟨⟨rfl,rfl,rfl⟩,by simp [appHandler]⟩

theorem exact_append {past : List (Watch × AppEvent)} {g : Watch} {events : List AppEvent}
    (h : ∀ e ∈ past, Exact e) (he : ∀ e ∈ events, Mild e) :
    ∀ e ∈ past++events.map fun e => (g,e), Exact e := by
  intro e hm
  rcases List.mem_append.mp hm with hm | hm
  · exact h e hm
  · obtain ⟨x,hx,rfl⟩ := List.mem_map.mp hm
    exact mild_exact (he x hx) g

structure Onward (s s' : App × Watch) : Prop where
  same : SameTick s.1 s'.1
  time : s.2.time ≤ s'.2.time
  place : s.2.place ≤ s'.2.place
  sampled : s.2.place ≠ 1 → s'.2.sampled = s.2.sampled
  since : s'.2.since = s.2.since

theorem onward_same {a b : App} (g : Watch) (h : SameTick a b) : Onward (a,g) (b,g) :=
  ⟨h,Nat.le_refl _,Nat.le_refl _,fun _ => rfl,rfl⟩

structure Phase where
  holds : App × Watch → Prop
  onward : ∀ s s', Onward s s' → holds s → holds s'

def still (P : App × Watch → Prop) (hP : ∀ a b g, SameTick a b → P (a,g) → P (b,g)) :
    Assertion (@watchHandler App AppEvent Watch Interrupt appHandler) where
  holds := Sound P
  stable s past cause h hp := by
    obtain ⟨hsame,hmild⟩ := handler_calm s.1 cause
    obtain ⟨hexact,hs⟩ := h hp
    exact ⟨exact_append hexact hmild,hP s.1 _ s.2 hsame hs⟩

/-- A phase while the clock shows `normal`, as an assertion. -/
def Phase.during (F : Phase) (normal : Bool) :
    Assertion (@watchHandler App AppEvent Watch Interrupt appHandler) :=
  still (fun s => s.2.normal = normal ∧ F.holds s) fun _ _ g hs h =>
    ⟨h.1,F.onward _ _ (onward_same g hs) h.2⟩

def Phase.assertion (F : Phase) :
    Assertion (@watchHandler App AppEvent Watch Interrupt appHandler) :=
  F.during false

def Phase.Holds (F : Phase) : App × Watch → List (Watch × AppEvent) → Prop := F.assertion.holds

theorem holds_mono {F G : Phase} (h : ∀ s, F.holds s → G.holds s) {s : App × Watch}
    {past : List (Watch × AppEvent)} (hF : F.Holds s past) : G.Holds s past := by
  intro hp
  obtain ⟨hexact,hn,hs⟩ := hF hp
  exact ⟨hexact,hn,h s hs⟩

def Phase.present (F : Phase) : Phase where
  holds s := s.1.co.isSome = true ∧ F.holds s
  onward s s' hs h := ⟨hs.same.co.trans h.1,F.onward s s' hs h.2⟩

theorem noted_onward {g : Watch} {a b : App} (i : Moment) (hs : SameTick a b)
    (hn : g.normal = false) : Onward (a,g) (b,noted g i a []) where
  same := hs
  time := by simp [noted]
  place := by simp [noted]
  sampled hp := by simp [noted,hp]
  since := by simp [noted,hn]

theorem noted_punctual {g : Watch} {a : App} {i : Moment} {events : List AppEvent}
    (h : (noted g i a events).punctual = true) : g.punctual = true := by
  simp only [noted,Bool.and_eq_true] at h
  exact h.1

theorem calm_keeps (F : Phase) {effect : App → Answer → App × List AppEvent} (he : Calm effect)
    {s : App × Watch} {past : List (Watch × AppEvent)} (i : Moment) (h : F.Holds s past) :
    F.Holds (watched clock effect s i).1 (past++(watched clock effect s i).2) := by
  obtain ⟨hs,hmild⟩ := he s.1 (answerAt s.2 i)
  intro hp
  obtain ⟨hexact,hn,hF⟩ := h (noted_punctual hp)
  have hnoted : (watched clock effect s i).1.2 = noted s.2 i s.1 [] := noted_mild s.2 i s.1 hmild
  refine ⟨exact_append hexact hmild,?_,?_⟩
  · rw [hnoted]
    rfl
  · refine F.onward s _ ?_ hF
    show Onward s (_,(watched clock effect s i).1.2)
    rw [hnoted]
    exact noted_onward i hs hn

section Rules
variable {α β : Type} (F : Phase) {post : β → App × Watch → List (Watch × AppEvent) → Prop}
  {s : App × Watch} {past : List (Watch × AppEvent)}

abbrev Timed (p : AppProgram β) (post : β → App × Watch → List (Watch × AppEvent) → Prop)
    (s : App × Watch) (past : List (Watch × AppEvent)) : Prop :=
  Outline (@watchHandler App AppEvent Watch Interrupt appHandler) (watch clock p) post s past

theorem timed_calm {p : AppProgram α} (hp : Every Calm p) (h : F.Holds s past) :
    Timed p (fun _ => F.Holds) s past := by
  refine outline_every F.assertion (every_watch clock (fun effect he => ?_) hp) h
  exact fun s past i hs => calm_keeps F he i hs

theorem timed_bind {p : AppProgram α} {k : α → AppProgram β}
    (h : Timed p (fun value => Timed (k value) post) s past) : Timed (p >>= k) post s past := by
  unfold Timed
  rw [watch_bind]
  exact outline_bind h

theorem timed_ite {c : Prop} [Decidable c] {p q : AppProgram β}
    (hp : c → Timed p post s past) (hq : ¬c → Timed q post s past) :
    Timed (if c then p else q) post s past := by
  unfold Timed
  rw [watch_ite]
  exact outline_ite hp hq

theorem calm_then {p : AppProgram α} {k : α → AppProgram β} (hp : Every Calm p)
    (h : F.Holds s past) (hk : ∀ value s past, F.Holds s past → Timed (k value) post s past) :
    Timed (p >>= k) post s past :=
  timed_bind (outline_mono hk (timed_calm F hp h))

theorem when_then {c : Bool} {p : AppProgram Unit} {k : Unit → AppProgram β}
    (h : F.Holds s past) (hp : ∀ s past, F.Holds s past → Timed p (fun _ => F.Holds) s past)
    (hk : ∀ s past, F.Holds s past → Timed (k ()) post s past) :
    Timed (when c p >>= k) post s past :=
  timed_bind (outline_mono (fun _ s past h => hk s past h)
    (timed_ite (fun _ => hp s past h) fun _ => h))

theorem fetch_then {f : App → α} {k : α → AppProgram β} (h : F.Holds s past)
    (hk : ∀ s past, F.Holds s past → Timed (k (f s.1)) post s past) :
    Timed (fetch f >>= k) post s past := by
  refine ⟨F.assertion,h,fun s past i hs => ?_⟩
  exact hk (s.1,noted s.2 i s.1 []) _
    (calm_keeps F (fun a _ => ⟨same_refl a,by simp⟩ : Calm fun a _ => (a,[])) i hs)

theorem assign_then {f : App → App} {k : Unit → AppProgram β} (h : F.Holds s past)
    (hk : ∀ s past, F.Holds s past → Timed (k ()) post (f s.1,s.2) past) :
    Timed (assign f >>= k) post s past := by
  refine ⟨F.assertion,h,fun s past i hs => ?_⟩
  exact hk (s.1,noted s.2 i s.1 []) _
    (calm_keeps F (fun a _ => ⟨same_refl a,by simp⟩ : Calm fun a _ => (a,[])) i hs)

theorem perform_then (A : Assertion (@watchHandler App AppEvent Watch Interrupt appHandler))
    {f : App → Answer → App} {e : App → Answer → List AppEvent} {k : Unit → AppProgram β}
    (hA : A.holds s past)
    (hk : ∀ s past i, A.holds s past →
      Timed (k ()) post (watched clock (fun a i => (f a i,e a i)) s i).1
        (past++(watched clock (fun a i => (f a i,e a i)) s i).2)) :
    Timed (perform f e >>= k) post s past :=
  ⟨A,hA,hk⟩

end Rules

section Calm
variable {α : Type}

theorem calm_fetch (f : App → α) : Every Calm (fetch f : AppProgram α) :=
  framed_fetch same_refl f

theorem calm_ask (f : Answer → α) : Every Calm (ask f : AppProgram α) :=
  framed_ask same_refl f

theorem calm_assign {f : App → App} (h : ∀ a, SameTick a (f a)) :
    Every Calm (assign f : AppProgram Unit) :=
  framed_assign h

theorem calm_report {e : AppEvent} (h : Mild e) : Every Calm (report e : AppProgram Unit) :=
  framed_report same_refl h

theorem calm_state (state : RuntimeState) : Every Calm (setRuntimeState state) :=
  framed_perform (fun _ _ => ⟨rfl,rfl,rfl⟩) fun _ _ _ he => by
    rw [List.mem_singleton.mp he]
    exact ⟨by simp,by simp,rfl⟩

end Calm

end CanopenReference.ElapsedTime
