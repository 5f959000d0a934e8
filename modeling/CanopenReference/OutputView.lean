import CanopenReference.Library.Views
import CanopenReference.OutputLoop

/-!
# The main loop behind the outputs

One program runs on two platforms. On the one with outputs there is more in view:
whoever looks at the variables of the file and the reported calls sees a run of
the bare main loop.
-/

set_option autoImplicit false

namespace CanopenReference.OutputView
open Library.Runs Library.Statements Library.Views OutputLoop

def appView : View Plant PlantAnswer PlantEvent MainLoop.App MainLoop.Answer MainLoop.AppEvent where
  state := Plant.app
  answer := PlantAnswer.app
  event
    | .app e => some e
    | _ => none

def appCause : PlantInterrupt → Option MainLoop.Interrupt
  | .can cause => some cause
  | .timer _ => none

section Statements
variable {α : Type}

theorem app_events (events : List MainLoop.AppEvent) :
    (events.map PlantEvent.app).filterMap appView.event = events := by
  rw [List.filterMap_map]
  exact List.filterMap_some

theorem app_shows (p : MainLoop.AppProgram α) : Shows appView (onApp p) p := by
  induction p with
  | done value => exact .done value
  | step effect next ih =>
    exact .seen (fun s i => Prod.ext rfl (app_events _)) fun s i => ih s.app i.app

theorem force_silent (takedown : Bool) (output : Output) {f : Plant → Plant}
    (h : ∀ s, (f s).app = s.app) : Shows appView (force takedown output f) (pure ()) := by
  apply silent_perform
  intro s i
  apply Prod.ext (h s)
  cases takedown <;> rfl

theorem cia401_silent (takedown : Bool) :
    Shows appView (cia401ForceSafeOutputs takedown) (pure ()) := by
  refine shows_after (silent_assign fun _ => rfl) ?_
  refine shows_after (silent_assign fun _ => rfl) ?_
  refine shows_after (force_silent takedown .digital fun _ => rfl) ?_
  exact force_silent takedown .analog fun _ => rfl

theorem cia402_silent (takedown : Bool) :
    Shows appView (cia402ForceDisable takedown) (pure ()) := by
  refine shows_after (force_silent takedown .enable fun _ => rfl) ?_
  refine shows_after (silent_assign fun _ => rfl) ?_
  exact silent_assign fun _ => rfl

theorem cia402_init_silent : Shows appView cia402Init (pure ()) := by
  refine shows_after (silent_assign fun _ => rfl) ?_
  refine shows_after (silent_assign fun _ => rfl) ?_
  refine shows_after (silent_assign fun _ => rfl) ?_
  exact cia402_silent false

theorem force_safe_shows (takedown : Bool) :
    Shows appView (forceSafeApplication takedown) (report .forceSafeApplication) := by
  show Shows appView _ (report .forceSafeApplication >>= fun _ => pure ())
  apply shows_bind (app_shows _)
  intro _
  exact shows_after (cia401_silent takedown) (cia402_silent takedown)

theorem timer_start_shows : Shows appView timerStart (report .timerStart) :=
  .seen (fun _ _ => rfl) fun _ _ => .done ()

theorem timer_stop_shows : Shows appView timerStop (report .timerStop) :=
  .seen (fun _ _ => rfl) fun _ _ => .done ()

theorem clear_shows :
    Shows appView clearCanNormal (assign fun a => { a with co := some ⟨false⟩ }) :=
  .seen (fun _ _ => rfl) fun _ _ => .done ()

theorem normal_shows : Shows appView canSetNormalMode
    (perform (fun a i => { a with co := some ⟨i.ok⟩ }) fun _ _ => [.canNormalMode]) := by
  apply shows_perform
  intro s i
  refine Prod.ext rfl ?_
  show (PlantEvent.app .canNormalMode::if i.app.ok then [.canNormal true] else []).filterMap
    appView.event = [.canNormalMode]
  cases i.app.ok <;> rfl

theorem mcu_reset_shows : Shows appView nvicSystemReset MainLoop.nvicSystemReset :=
  .seen (fun _ _ => rfl) fun _ _ => .done ()

theorem request_shows (now : UInt32) : Shows appView (requestRecovery now)
    (assign fun a => { a with canRecovery := BusOff.canRecoveryRequest a.canRecovery now }) := by
  refine .seen (fun s i => Prod.ext rfl ?_) fun _ _ => .done ()
  show List.filterMap appView.event (if _ then _ else _) = []
  split <;> rfl

theorem co_process_shows (timeDifferenceUs : UInt32) :
    Shows appView (coProcess timeDifferenceUs) (report (.coProcess timeDifferenceUs)) :=
  .seen (fun _ _ => rfl) fun _ _ => .done ()

end Statements

section Program
variable {σ ι ε σ' ι' ε' : Type} {v : View σ ι ε σ' ι' ε'} {on : MainLoop.Platform σ ι ε}
  {on' : MainLoop.Platform σ' ι' ε'}

/-- On the first platform the view sees what happens on the second one. -/
structure Alike (v : View σ ι ε σ' ι' ε') (on : MainLoop.Platform σ ι ε)
    (on' : MainLoop.Platform σ' ι' ε') : Prop where
  onApp : ∀ {α : Type} (p : MainLoop.AppProgram α), Shows v (on.onApp p) (on'.onApp p)
  forceSafe : ∀ takedown, Shows v (on.forceSafeApplication takedown)
    (on'.forceSafeApplication takedown)
  initProfiles : Shows v on.initProfiles on'.initProfiles
  timerStart : Shows v on.timerStart on'.timerStart
  timerStop : Shows v on.timerStop on'.timerStop
  clear : Shows v on.clearCanNormal on'.clearCanNormal
  normal : Shows v on.canSetNormalMode on'.canSetNormalMode
  mcuReset : Shows v on.nvicSystemReset on'.nvicSystemReset
  request : ∀ now, Shows v (on.requestRecovery now) (on'.requestRecovery now)
  coProcess : ∀ time, Shows v (on.coProcess time) (on'.coProcess time)

theorem stop_shows (h : Alike v on on') : Shows v on.stopRuntime on'.stopRuntime := by
  apply shows_bind (h.forceSafe true)
  intro _
  apply shows_bind (h.onApp _)
  intro nodePresent
  apply shows_bind (shows_when h.timerStop)
  intro _
  apply shows_bind (h.onApp _)
  intro stack
  exact shows_when (shows_bind h.clear fun _ => h.onApp _)

theorem fail_shows (h : Alike v on on') (code : UInt32) :
    Shows v (on.failRuntime code) (on'.failRuntime code) := by
  apply shows_bind (h.onApp _)
  intro _
  apply shows_bind (h.onApp _)
  intro safeFault
  apply shows_bind (h.onApp _)
  intro _
  apply shows_bind (h.onApp _)
  intro _
  exact shows_bind (stop_shows h) fun _ => .done _

theorem guard_shows (h : Alike v on on') {code : UInt32} {p : Program σ ι ε Int32}
    {q : Program σ' ι' ε' Int32} (hpq : Shows v p q) :
    Shows v
      (on.onApp (ask MainLoop.Answer.ok) >>= fun ok =>
        if (!ok) = true then on.failRuntime code else p)
      (on'.onApp (ask MainLoop.Answer.ok) >>= fun ok =>
        if (!ok) = true then on'.failRuntime code else q) :=
  shows_bind (h.onApp _) fun _ => shows_ite (fail_shows h code) hpq

theorem reset_shows (h : Alike v on on') :
    Shows v on.canopenAppResetCommunication on'.canopenAppResetCommunication := by
  unfold MainLoop.Platform.canopenAppResetCommunication
  apply shows_bind (h.onApp _)
  intro _
  apply shows_bind (h.onApp _)
  intro missing
  apply shows_ite
  · exact shows_bind (h.onApp _) fun _ => .done _
  apply shows_bind (h.onApp _)
  intro _
  apply shows_bind (h.forceSafe true)
  intro _
  apply shows_bind h.clear
  intro _
  apply shows_bind (h.onApp _)
  intro _
  apply guard_shows h
  apply guard_shows h
  apply guard_shows h
  apply guard_shows h
  apply guard_shows h
  apply guard_shows h
  apply guard_shows h
  apply shows_bind (h.onApp _)
  intro udsTick
  apply shows_bind (h.onApp _)
  intro registered
  apply shows_bind (h.onApp _)
  intro _
  apply shows_ite (fail_shows h _)
  apply shows_bind h.initProfiles
  intro _
  apply shows_bind (h.onApp _)
  intro timer
  apply shows_ite
  · exact shows_bind (h.forceSafe false) fun _ => fail_shows h _
  apply shows_bind h.timerStart
  intro _
  exact shows_bind h.normal fun _ => h.onApp _

theorem recovery_shows (h : Alike v on on') (now : UInt32) :
    Shows v (on.processCanRecovery now) (on'.processCanRecovery now) := by
  unfold MainLoop.Platform.processCanRecovery
  apply shows_bind (h.onApp _)
  intro pending
  apply shows_bind
  · exact shows_when (shows_bind (h.onApp _) fun _ => h.request now)
  intro _
  apply shows_bind (h.onApp _)
  intro ready
  apply shows_ite (.done _)
  apply shows_bind (h.onApp _)
  intro _
  apply shows_bind (reset_shows h)
  intro result
  apply shows_bind (h.onApp _)
  intro _
  apply shows_bind (h.onApp _)
  intro _
  apply shows_bind (h.onApp _)
  intro _
  apply shows_ite (.done _)
  apply shows_bind (h.onApp _)
  intro state
  exact shows_when (shows_bind (fail_shows h _) fun _ => .done _)

theorem init_shows (h : Alike v on on') (complete : Bool) :
    Shows v (on.canopenAppInit complete) (on'.canopenAppInit complete) := by
  unfold MainLoop.Platform.canopenAppInit
  apply shows_ite (.done _)
  apply shows_bind (h.onApp _)
  intro _
  apply shows_bind (h.onApp _)
  intro _
  apply shows_bind (h.onApp _)
  intro _
  apply shows_bind (h.onApp _)
  intro _
  apply shows_bind (h.onApp _)
  intro _
  apply shows_bind (h.onApp _)
  intro _
  apply shows_bind (h.forceSafe false)
  intro _
  apply shows_bind (h.onApp _)
  intro created
  apply shows_bind (h.onApp _)
  intro _
  apply shows_ite
  · exact shows_bind (h.forceSafe false) fun _ => .done _
  apply shows_bind (reset_shows h)
  intro result
  apply shows_ite
  · apply shows_bind (fail_shows h _)
    intro _
    apply shows_bind (h.forceSafe false)
    intro _
    exact shows_bind (h.onApp _) fun _ => .done _
  · exact .done _

theorem pass_shows (h : Alike v on on') (now : UInt32) :
    Shows v (on.canopenAppPass now) (on'.canopenAppPass now) := by
  unfold MainLoop.Platform.canopenAppPass
  apply shows_bind (h.onApp _)
  intro command
  apply shows_bind (h.onApp _)
  intro _
  apply shows_bind (h.onApp _)
  intro resetPending
  apply shows_ite
  · apply shows_bind (h.onApp _)
    intro _
    exact shows_bind (h.forceSafe false) fun _ => h.mcuReset
  apply shows_ite
  · apply shows_bind (h.onApp _)
    intro _
    apply shows_bind h.timerStop
    intro _
    apply shows_bind (h.onApp _)
    intro _
    apply shows_bind (init_shows h true)
    intro result
    exact shows_when (shows_bind (fail_shows h _) fun _ => .done _)
  apply shows_ite
  · exact shows_bind (h.forceSafe false) fun _ => h.mcuReset
  · exact .done _

theorem process_shows (h : Alike v on on') :
    Shows v on.canopenAppProcess on'.canopenAppProcess := by
  unfold MainLoop.Platform.canopenAppProcess
  apply shows_bind (h.onApp _)
  intro stopped
  apply shows_ite (.done _)
  apply shows_bind (h.onApp _)
  intro now
  apply shows_bind (recovery_shows h now)
  intro _
  apply shows_bind (h.onApp _)
  intro lastTick
  apply shows_ite (.done _)
  apply shows_bind (h.onApp _)
  intro _
  apply shows_bind (h.coProcess _)
  intro _
  exact pass_shows h now

theorem entry_shows (h : Alike v on on') (entry : MainLoop.Entry) :
    Shows v (on.appEntry entry) (on'.appEntry entry) := by
  cases entry with
  | init complete =>
    apply shows_bind (h.onApp _)
    intro _
    exact shows_bind (init_shows h complete) fun _ => .done _
  | process => exact process_shows h

end Program

theorem plant_alike : Alike appView plant MainLoop.bare where
  onApp := app_shows
  forceSafe := force_safe_shows
  initProfiles := shows_after (cia401_silent false) cia402_init_silent
  timerStart := timer_start_shows
  timerStop := timer_stop_shows
  clear := clear_shows
  normal := normal_shows
  mcuReset := mcu_reset_shows
  request := request_shows
  coProcess := co_process_shows

theorem handler_shown (s : Plant) (cause : PlantInterrupt) :
    appView.shown (plantHandler s cause) =
      seenHandler MainLoop.appHandler (appView.state s) (appCause cause) := by
  cases cause with
  | can cause => exact Prod.ext rfl (app_events _)
  | timer input =>
    show appView.shown (canopenAppInterrupt s input) = (s.app,[])
    unfold canopenAppInterrupt
    split <;> rfl

/-- A run with outputs is a run of the main loop for whoever does not look at
the outputs. -/
theorem app_run (turns : List (Turn MainLoop.Entry PlantAnswer PlantInterrupt)) :
    ∃ turns' : List (Turn MainLoop.Entry MainLoop.Answer MainLoop.Interrupt),
      Seen appView (run plantTurn ⟨powerOnPlant,none⟩ turns).1
        (run MainLoop.appTurn ⟨MainLoop.powerOn,none⟩ turns').1 ∧
      (run plantTurn ⟨powerOnPlant,none⟩ turns).2.filterMap appView.event =
        (run MainLoop.appTurn ⟨MainLoop.powerOn,none⟩ turns').2 :=
  seen_run plantEntry MainLoop.appEntry plantHandler MainLoop.appHandler appCause
    (entry_shows plant_alike) handler_shown ⟨rfl,.done (),fun value h => by cases h⟩ turns

end CanopenReference.OutputView
