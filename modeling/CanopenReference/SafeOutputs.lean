import CanopenReference.Library.History
import CanopenReference.Library.Outlines
import CanopenReference.OutputLoop

/-!
# Safe outputs without communication

The main loop writes nothing but safe values to the outputs; only timer
interrupts that find CAN in normal mode drive them. Outputs that a take-down has
forced stay safe as long as no such interrupt drives them in between, and so do
outputs that were safe when the wait for recovery began.
-/

set_option autoImplicit false

namespace CanopenReference.SafeOutputs
open Library.Runs Library.Statements Library.Outlines Library.History OutputLoop
open MainLoop hiding stopRuntime failRuntime canopenAppResetCommunication processCanRecovery
  canopenAppInit canopenAppPass canopenAppProcess nvicSystemReset

def SafeAt : Output → Outputs → Prop
  | .digital, o => o.digital = 0
  | .analog, o => o.analog = 0
  | .enable, o => o.enable = false

def downMark : PlantEvent → Option Bool
  | .canNormal value => some (!value)
  | .app .mcuReset => some false
  | _ => none

def Down (past : List PlantEvent) : Prop := latest downMark past = some true

def forcedMark (output : Output) : PlantEvent → Option Bool
  | .forced forced => if forced = output then some true else none
  | .canNormal true => some false
  | .app .mcuReset => some false
  | _ => none

def Forced (output : Output) (past : List PlantEvent) : Prop :=
  latest (forcedMark output) past = some true

def waitMark : PlantEvent → Option Bool
  | .waitRecovery _ => some true
  | .app (.runtimeState .running) => some false
  | .app .mcuReset => some false
  | _ => none

def Waiting (past : List PlantEvent) : Prop := latest waitMark past = some true

instance (past : List PlantEvent) : Decidable (Down past) := inferInstanceAs (Decidable (_ = _))

instance (output : Output) (past : List PlantEvent) : Decidable (Forced output past) :=
  inferInstanceAs (Decidable (_ = _))

instance (past : List PlantEvent) : Decidable (Waiting past) :=
  inferInstanceAs (Decidable (_ = _))

def drives (statusword : UInt16) (input : TimerInput) : Output → Prop
  | .digital => input.commands.digital ≠ 0
  | .analog => input.commands.analog ≠ 0
  | .enable => Cia402.enables statusword input.commands.written input.feedback = true

/-- Between the forcing of an output and the end of CANnormal no served timer
interrupt drives the output. -/
def Undisturbed (before : List PlantEvent) : PlantEvent → Prop
  | .served statusword input =>
    ∀ output, Forced output before → ¬Down before → ¬drives statusword input output
  | _ => True

/-- Recovery is waited for with safe outputs, and no served timer interrupt
drives an output meanwhile. -/
def Restrained (before : List PlantEvent) : PlantEvent → Prop
  | .waitRecovery outputs => outputs = safeOutputs
  | .served statusword input => Waiting before → ∀ output, ¬drives statusword input output
  | _ => True

instance outputsDecidable (P : Output → Prop) [DecidablePred P] : Decidable (∀ output, P output) :=
  decidable_of_iff (P .digital ∧ P .analog ∧ P .enable)
    ⟨fun h output => by cases output <;> simp [h],fun h => ⟨h _,h _,h _⟩⟩

instance drivesDecidable (statusword : UInt16) (input : TimerInput) :
    DecidablePred (drives statusword input)
  | .digital => inferInstanceAs (Decidable (_ ≠ _))
  | .analog => inferInstanceAs (Decidable (_ ≠ _))
  | .enable => inferInstanceAs (Decidable (_ = _))

instance undisturbedDecidable (before : List PlantEvent) : DecidablePred (Undisturbed before)
  | .served statusword input =>
    inferInstanceAs (Decidable
      (∀ output, Forced output before → ¬Down before → ¬drives statusword input output))
  | .app _ | .forced _ | .canNormal _ | .waitRecovery _ => inferInstanceAs (Decidable True)

instance restrainedDecidable (before : List PlantEvent) : DecidablePred (Restrained before)
  | .waitRecovery _ => inferInstanceAs (Decidable (_ = _))
  | .served statusword input =>
    inferInstanceAs (Decidable (Waiting before → ∀ output, ¬drives statusword input output))
  | .app _ | .forced _ | .canNormal _ => inferInstanceAs (Decidable True)

def Closed (s : Plant) : Prop := ∀ stack, s.app.co = some stack → stack.canNormal = false

structure Known (s : Plant) (past : List PlantEvent) : Prop where
  forced : Always Undisturbed past → ∀ output, Forced output past → SafeAt output s.outputs
  down : Down past → Closed s ∧ ∀ output, Forced output past
  waiting : Always Restrained past → Waiting past → s.outputs = safeOutputs

theorem safe_iff (o : Outputs) : o = safeOutputs ↔ ∀ output, SafeAt output o := by
  constructor
  · rintro rfl output
    cases output <;> rfl
  · intro h
    obtain ⟨digital,analog,enable⟩ := o
    have hd : digital = 0 := h .digital
    have ha : analog = 0 := h .analog
    have he : enable = false := h .enable
    rw [hd,ha,he]
    rfl

def Plain (e : PlantEvent) : Prop :=
  downMark e = none ∧ (∀ output, forcedMark output e = none) ∧ waitMark e ≠ some true

structure Tame (effect : Plant → PlantAnswer → Plant × List PlantEvent) : Prop where
  outputs : ∀ s i output, SafeAt output s.outputs → SafeAt output (effect s i).1.outputs
  closed : ∀ s i, Closed s → Closed (effect s i).1
  plain : ∀ s i, ∀ e ∈ (effect s i).2, Plain e

section Marks
variable {past events : List PlantEvent}

theorem down_plain (h : ∀ e ∈ events, Plain e) : Down (past++events) ↔ Down past := by
  unfold Down
  rw [latest_quiet downMark past events fun e he => (h e he).1]

theorem forced_plain (h : ∀ e ∈ events, Plain e) (output : Output) :
    Forced output (past++events) ↔ Forced output past := by
  unfold Forced
  rw [latest_quiet (forcedMark output) past events fun e he => (h e he).2.1 output]

theorem waiting_plain (h : ∀ e ∈ events, Plain e) (hw : Waiting (past++events)) :
    Waiting past := by
  induction events using List.reverseRecOn with
  | nil => rwa [List.append_nil] at hw
  | append_singleton events e ih =>
    apply ih fun x hx => h x (List.mem_append_left _ hx)
    unfold Waiting at hw ⊢
    rw [← List.append_assoc,latest_concat] at hw
    cases he : waitMark e with
    | none =>
      rw [he] at hw
      exact hw
    | some b =>
      rw [he] at hw
      exact absurd (he.trans hw) (h e (by simp)).2.2

end Marks

theorem tame_known {effect : Plant → PlantAnswer → Plant × List PlantEvent} (h : Tame effect)
    (s : Plant) (past : List PlantEvent) (i : PlantAnswer) (hk : Known s past) :
    Known (effect s i).1 (past++(effect s i).2) := by
  have hplain := h.plain s i
  constructor
  · intro hu output hf
    exact h.outputs s i output
      (hk.forced (always_front hu) output ((forced_plain hplain output).mp hf))
  · intro hd
    obtain ⟨hclosed,hforced⟩ := hk.down ((down_plain hplain).mp hd)
    exact ⟨h.closed s i hclosed,fun output => (forced_plain hplain output).mpr (hforced output)⟩
  · intro hr hw
    rw [safe_iff]
    intro output
    have hsafe := hk.waiting (always_front hr) (waiting_plain hplain hw)
    exact h.outputs s i output ((safe_iff _).mp hsafe output)

section Served
variable {past : List PlantEvent} {statusword : UInt16} {input : TimerInput}

theorem served_down : Down (past++[.served statusword input]) ↔ Down past := by
  unfold Down
  rw [latest_concat]
  rfl

theorem served_forced (output : Output) :
    Forced output (past++[.served statusword input]) ↔ Forced output past := by
  unfold Forced
  rw [latest_concat]
  rfl

theorem served_waiting : Waiting (past++[.served statusword input]) ↔ Waiting past := by
  unfold Waiting
  rw [latest_concat]
  rfl

theorem serve_safe_iff (s : Plant) (input : TimerInput) (output : Output) :
    SafeAt output (serve s input).outputs ↔ ¬drives s.drive.statusword input output := by
  cases output with
  | digital => exact not_not.symm
  | analog => exact not_not.symm
  | enable =>
    have hsettled := (Cia402.process_settled s.drive input.commands.written input.feedback).1
    show (Cia402.lastEnable _).getD s.outputs.enable = false ↔
      ¬Cia402.enables s.drive.statusword input.commands.written input.feedback = true
    rw [← Cia402.enabled_iff]
    rcases hsettled with ⟨he,-,mode,position,velocity,torque,hcalls⟩ | ⟨he,hcalls⟩
    · rw [hcalls]
      constructor
      · intro h
        cases h
      · exact fun h => absurd he h
    · rw [hcalls]
      exact ⟨fun _ => he,fun _ => rfl⟩

end Served

theorem can_same (a : App) (cause : MainLoop.Interrupt) :
    (appHandler a cause).1.co = a.co := by
  cases cause with
  | error busOff =>
    simp only [appHandler,halCanErrorCallback]
    split <;> rfl
  | rxFifo1 frame => rfl

theorem handler_known (s : Plant) (past : List PlantEvent) (cause : PlantInterrupt)
    (h : Known s past) : Known (plantHandler s cause).1 (past++(plantHandler s cause).2) := by
  cases cause with
  | can cause =>
    have hplain : ∀ e ∈ (plantHandler s (.can cause)).2, Plain e := by
      intro e he
      obtain ⟨x,hx,rfl⟩ := List.mem_map.mp he
      cases cause with
      | rxFifo1 frame => cases hx
      | error busOff =>
        cases busOff with
        | false => cases hx
        | true =>
          rw [List.mem_singleton.mp hx]
          exact ⟨rfl,fun _ => rfl,by decide⟩
    constructor
    · intro hu output hf
      exact h.forced (always_front hu) output ((forced_plain hplain output).mp hf)
    · intro hd
      obtain ⟨hclosed,hforced⟩ := h.down ((down_plain hplain).mp hd)
      refine ⟨fun stack hs => hclosed stack ?_,fun output =>
        (forced_plain hplain output).mpr (hforced output)⟩
      exact (can_same s.app cause).symm.trans hs
    · intro hr hw
      exact h.waiting (always_front hr) (waiting_plain hplain hw)
  | timer input =>
    show Known (canopenAppInterrupt s input).1 (past++(canopenAppInterrupt s input).2)
    unfold canopenAppInterrupt
    by_cases hgate : gateOpen s input = true
    swap
    · rw [if_neg hgate,List.append_nil]
      exact h
    rw [if_pos hgate]
    have hopen : ¬Closed s := by
      intro hclosed
      unfold gateOpen at hgate
      rw [Bool.and_eq_true] at hgate
      cases hco : s.app.co with
      | none =>
        rw [hco] at hgate
        exact absurd hgate.2 (by decide)
      | some stack =>
        rw [hco] at hgate
        exact absurd (hgate.2.symm.trans (hclosed stack hco)) (by decide)
    have hup : ¬Down past := fun hd => hopen (h.down hd).1
    constructor
    · intro hu output hf
      rw [served_forced] at hf
      have hrule := hu past _ [] rfl output hf hup
      exact (serve_safe_iff s input output).mpr hrule
    · intro hd
      exact absurd (served_down.mp hd) hup
    · intro hr hw
      rw [safe_iff]
      intro output
      have hrule := hr past _ [] rfl (served_waiting.mp hw) output
      exact (serve_safe_iff s input output).mpr hrule

def known : Assertion plantHandler := ⟨Known,handler_known⟩

def held (outputs : List Output) : Assertion plantHandler where
  holds s past := Known s past ∧ ∀ output ∈ outputs, Forced output past
  stable s past cause h := by
    refine ⟨handler_known s past cause h.1,fun output ho => ?_⟩
    have hf := h.2 output ho
    cases cause with
    | can cause =>
      have hquiet : ∀ e ∈ (plantHandler s (.can cause)).2, forcedMark output e = none := by
        intro e he
        obtain ⟨x,hx,rfl⟩ := List.mem_map.mp he
        cases cause with
        | rxFifo1 frame => cases hx
        | error busOff =>
          cases busOff with
          | false => cases hx
          | true =>
            rw [List.mem_singleton.mp hx]
            rfl
      unfold Forced
      rwa [latest_quiet _ _ _ hquiet]
    | timer input =>
      show Forced output (past++(canopenAppInterrupt s input).2)
      unfold canopenAppInterrupt
      split
      · exact (served_forced output).mpr hf
      · rwa [List.append_nil]

def Kept {α : Type} (p : PlantProgram α) : Prop :=
  ∀ s past, Known s past → Within plantHandler Known p (fun _ => Known) s past

section Kept
variable {α β : Type}

theorem kept_pure (value : α) : Kept (pure value) := fun _ _ h => h

theorem kept_bind {p : PlantProgram α} {k : α → PlantProgram β} (hp : Kept p)
    (hk : ∀ value, Kept (k value)) : Kept (p >>= k) :=
  fun s past h => within_bind (within_mono (fun value s past h => hk value s past h) (hp s past h))

theorem kept_ite {c : Prop} [Decidable c] {p q : PlantProgram α} (hp : Kept p) (hq : Kept q) :
    Kept (if c then p else q) :=
  fun s past h => within_ite (fun _ => hp s past h) fun _ => hq s past h

theorem kept_when {c : Bool} {p : PlantProgram Unit} (hp : Kept p) : Kept (when c p) :=
  kept_ite hp (kept_pure ())

theorem kept_tame {p : PlantProgram α} (hp : Every Tame p) : Kept p :=
  fun _ _ h => within_every known (fun _ _ h => h) (every_mono (fun _ he => tame_known he) hp) h

theorem kept_perform {f : Plant → PlantAnswer → Plant} {e : Plant → PlantAnswer → List PlantEvent}
    (h : ∀ s past i, Known s past → Known (f s i) (past++e s i)) :
    Kept (perform f e : PlantProgram Unit) := fun _ _ hs => within_perform known (fun _ _ h => h) hs h

theorem held_tame {outputs : List Output} {p : PlantProgram α} {s : Plant}
    {past : List PlantEvent} (hp : Every Tame p) (h : (held outputs).holds s past) :
    Within plantHandler Known p (fun _ => (held outputs).holds) s past := by
  refine within_every (held outputs) (fun _ _ h => h.1) (every_mono (fun effect he => ?_) hp) h
  intro s past i hs
  exact ⟨tame_known he s past i hs.1,fun output ho =>
    (forced_plain (he.plain s i) output).mpr (hs.2 output ho)⟩

theorem held_then {outputs : List Output} {p : PlantProgram α} {k : α → PlantProgram β}
    {post : β → Plant → List PlantEvent → Prop} {s : Plant} {past : List PlantEvent}
    (hp : Every Tame p) (h : (held outputs).holds s past)
    (hk : ∀ value s past, (held outputs).holds s past →
      Within plantHandler Known (k value) post s past) :
    Within plantHandler Known (p >>= k) post s past :=
  within_bind (within_mono hk (held_tame hp h))

end Kept

section Tame
variable {α : Type}

theorem tame_assign {f : Plant → Plant} (ho : ∀ s, (f s).outputs = s.outputs)
    (ha : ∀ s, (f s).app = s.app) : Every Tame (assign f : PlantProgram Unit) := by
  refine ⟨⟨fun s i output h => (ho s).symm ▸ h,fun s i h stack hs => ?_,fun s i e he => by cases he⟩,
    fun _ _ => trivial⟩
  exact h stack ((ha s) ▸ hs)

def AppTame (effect : App → Answer → App × List AppEvent) : Prop :=
  ∀ a i, ((∀ stack, a.co = some stack → stack.canNormal = false) →
    ∀ stack, (effect a i).1.co = some stack → stack.canNormal = false) ∧
      ∀ e ∈ (effect a i).2, e ≠ .mcuReset

theorem app_plain {e : AppEvent} (h : e ≠ .mcuReset) : Plain (.app e) := by
  have hnone : downMark (.app e) = none ∧ (∀ output, forcedMark output (.app e) = none) ∧
      waitMark (.app e) ≠ some true := by
    cases e with
    | mcuReset => exact absurd rfl h
    | runtimeState state =>
      refine ⟨rfl,fun _ => rfl,?_⟩
      cases state <;> simp [waitMark]
    | _ => exact ⟨rfl,fun _ => rfl,by simp [waitMark]⟩
  exact hnone

theorem tame_shown {f : Plant → PlantAnswer → Plant} {e : AppEvent}
    (ho : ∀ s i, (f s i).outputs = s.outputs) (ha : ∀ s i, (f s i).app = s.app)
    (he : e ≠ .mcuReset) : Every Tame (perform f fun _ _ => [.app e] : PlantProgram Unit) := by
  refine ⟨⟨fun s i output h => (ho s i).symm ▸ h,fun s i h stack hs => ?_,fun _ _ x hx => ?_⟩,
    fun _ _ => trivial⟩
  · exact h stack ((ha s i) ▸ hs)
  · rw [List.mem_singleton.mp hx]
    exact app_plain he

theorem tame_app {p : AppProgram α} (hp : Every AppTame p) : Every Tame (onApp p) := by
  induction p with
  | done value => trivial
  | step effect next ih =>
    refine ⟨⟨fun s i output h => h,fun s i h => (hp.1 s.app i.app).1 h,fun s i e he => ?_⟩,
      fun s i => ih s.app i.app (hp.2 s.app i.app)⟩
    obtain ⟨x,hx,rfl⟩ := List.mem_map.mp he
    exact app_plain ((hp.1 s.app i.app).2 x hx)

theorem app_fetch (f : App → α) : Every Tame (plant.onApp (fetch f)) :=
  tame_app ⟨fun _ _ => ⟨fun h => h,fun e he => by cases he⟩,fun _ _ => trivial⟩

theorem app_ask (f : Answer → α) : Every Tame (plant.onApp (ask f)) :=
  tame_app ⟨fun _ _ => ⟨fun h => h,fun e he => by cases he⟩,fun _ _ => trivial⟩

theorem app_report {e : AppEvent} (h : e ≠ .mcuReset) : Every Tame (plant.onApp (report e)) :=
  tame_app ⟨fun _ _ => ⟨fun h => h,fun _ hx => List.mem_singleton.mp hx ▸ h⟩,fun _ _ => trivial⟩

theorem app_assign {f : App → App} (h : ∀ a, (f a).co = a.co) :
    Every Tame (plant.onApp (assign f)) :=
  tame_app ⟨fun a _ => ⟨fun hc stack hs => hc stack ((h a) ▸ hs),fun e he => by cases he⟩,
    fun _ _ => trivial⟩

theorem app_stack {f : App → App}
    (h : ∀ a stack, (f a).co = some stack → stack.canNormal = false) :
    Every Tame (plant.onApp (assign f)) :=
  tame_app ⟨fun a _ => ⟨fun _ => h a,fun e he => by cases he⟩,fun _ _ => trivial⟩

theorem app_perform {f : App → Answer → App} {e : AppEvent} (h : ∀ a i, (f a i).co = a.co)
    (he : e ≠ .mcuReset) : Every Tame (plant.onApp (perform f fun _ _ => [e])) :=
  tame_app ⟨fun a i => ⟨fun hc stack hs => hc stack ((h a i) ▸ hs),
    fun _ hx => List.mem_singleton.mp hx ▸ he⟩,fun _ _ => trivial⟩

theorem app_state (state : RuntimeState) : Every Tame (plant.onApp (setRuntimeState state)) :=
  app_perform (fun _ _ => rfl) fun hc => by cases hc

theorem tame_running : Every Tame (plant.onApp enterRunning) := by
  apply tame_app
  refine ⟨fun a i => ⟨fun h => h,fun e he => by cases he⟩,fun _ _ => ?_⟩
  refine ⟨fun a i => ⟨fun h => h,fun e he => by cases he⟩,fun _ _ => ?_⟩
  refine ⟨fun a i => ⟨fun h => h,fun e he => by cases he⟩,fun _ _ => ?_⟩
  refine ⟨fun a i => ⟨fun h => h,fun e he => ?_⟩,fun _ _ => trivial⟩
  rw [List.mem_singleton.mp he]
  decide

end Tame

section Forcing
variable {β : Type} {outputs : List Output} {k : Unit → PlantProgram β}
  {post : β → Plant → List PlantEvent → Prop} {s : Plant} {past : List PlantEvent}

structure Forces (output : Output) (f : Plant → Plant) : Prop where
  safe : ∀ s, SafeAt output (f s).outputs
  others : ∀ s other, SafeAt other s.outputs → SafeAt other (f s).outputs
  app : ∀ s, (f s).app = s.app

theorem digital_forces : Forces .digital fun s =>
    { s with outputs := { s.outputs with digital := 0 } } where
  safe := fun _ => rfl
  others s other h := by cases other <;> first | rfl | exact h
  app := fun _ => rfl

theorem analog_forces : Forces .analog fun s =>
    { s with outputs := { s.outputs with analog := 0 } } where
  safe := fun _ => rfl
  others s other h := by cases other <;> first | rfl | exact h
  app := fun _ => rfl

theorem enable_forces : Forces .enable fun s =>
    { s with outputs := { s.outputs with enable := false } } where
  safe := fun _ => rfl
  others s other h := by cases other <;> first | rfl | exact h
  app := fun _ => rfl

theorem forces_tame {output : Output} {f : Plant → Plant} (h : Forces output f) :
    Every Tame (force false output f) := by
  refine ⟨⟨fun s _ other hs => h.others s other hs,fun s _ hc stack hs => ?_,
    fun s i e he => by cases he⟩,fun _ _ => trivial⟩
  exact hc stack ((h.app s) ▸ hs)

theorem forced_last {output : Output} {f : Plant → Plant} (hf : Forces output f)
    (h : (held outputs).holds s past) :
    Within plantHandler Known (force true output f) (fun _ => (held (output::outputs)).holds) s past := by
  refine within_perform (held outputs) (fun _ _ h => h.1) h fun s past i hs => ?_
  rw [if_pos rfl]
  have hother : ∀ other, Forced other (past++[.forced output]) ↔
      other = output ∨ Forced other past := by
    intro other
    unfold Forced
    rw [latest_concat]
    by_cases ho : other = output
    · subst ho
      simp [forcedMark]
    · simp [forcedMark,ho,Ne.symm ho]
  have hdown : Down (past++[.forced output]) ↔ Down past := by
    unfold Down
    rw [latest_concat]
    rfl
  refine ⟨⟨fun hu other ho => ?_,fun hd => ?_,fun hr hw => ?_⟩,fun other ho => ?_⟩
  · rcases (hother other).mp ho with rfl | ho
    · exact hf.safe s
    · exact hf.others s other (hs.1.forced (always_front hu) other ho)
  · obtain ⟨hclosed,hforced⟩ := hs.1.down (hdown.mp hd)
    refine ⟨fun stack hstack => hclosed stack ((hf.app s) ▸ hstack),fun other => ?_⟩
    exact (hother other).mpr (Or.inr (hforced other))
  · rw [safe_iff]
    intro other
    have hwait : Waiting past := by
      unfold Waiting at hw ⊢
      rw [latest_concat] at hw
      exact hw
    have hsafe := hs.1.waiting (always_front hr) hwait
    exact hf.others s other ((safe_iff _).mp hsafe other)
  · rcases List.mem_cons.mp ho with rfl | ho
    · exact (hother other).mpr (Or.inl rfl)
    · exact (hother other).mpr (Or.inr (hs.2 other ho))

theorem forced_then {output : Output} {f : Plant → Plant} (hf : Forces output f)
    (h : (held outputs).holds s past)
    (hk : ∀ s past, (held (output::outputs)).holds s past →
      Within plantHandler Known (k ()) post s past) :
    Within plantHandler Known (force true output f >>= k) post s past :=
  within_bind (within_mono (fun _ => hk) (forced_last hf h))

theorem take_down_within (h : Known s past) :
    Within plantHandler Known (forceSafeApplication true)
      (fun _ => (held [.enable,.analog,.digital]).holds) s past := by
  have hnone : (held []).holds s past := ⟨h,fun output ho => by cases ho⟩
  unfold forceSafeApplication cia401ForceSafeOutputs cia402ForceDisable
  refine held_then (app_report fun hc => by cases hc) hnone fun _ s past h => ?_
  refine within_bind (within_mono (fun _ s past h => ?_)
    (?_ : Within plantHandler Known _ (fun _ => (held [.analog,.digital]).holds) s past))
  · refine forced_then enable_forces h fun s past h => ?_
    refine held_then (tame_assign (fun _ => rfl) fun _ => rfl) h fun _ s past h => ?_
    exact held_tame (tame_assign (fun _ => rfl) fun _ => rfl) h
  · refine held_then (tame_assign (fun _ => rfl) fun _ => rfl) h fun _ s past h => ?_
    refine held_then (tame_assign (fun _ => rfl) fun _ => rfl) h fun _ s past h => ?_
    refine forced_then digital_forces h fun s past h => ?_
    exact forced_last analog_forces h

end Forcing

end CanopenReference.SafeOutputs
