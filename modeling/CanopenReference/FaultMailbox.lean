import CanopenReference.Library.History
import CanopenReference.Library.Runs

/-!
# The fault code that survives a reset

`CANopenReferenceWatchdog_RecordFatalFault` leaves a code in two backup
registers, and the next initialization takes it out. A reset can fall between
any two stores.
-/

set_option autoImplicit false

namespace CanopenReference.FaultMailbox
open Library.Runs Library.History

def watchdogFaultMagic : UInt32 := 0xCA11FA11

/-- The stores to the two registers, in the order of the source. -/
inductive BackupStore where
  | mark
  | code (value : UInt32)
  | unmark
  | clear
  deriving DecidableEq

/-- The program is before its initialization, past it, or in the error handler,
which never returns. -/
inductive Phase where
  | starting
  | running
  | halted
  deriving DecidableEq

structure FaultDevice where
  bkp0r : UInt32
  bkp1r : UInt32
  previousFault : UInt32
  pending : List BackupStore
  phase : Phase
  deriving DecidableEq

def powered : FaultDevice := ⟨0,0,0,[],.starting⟩

def recordFatalFault (code : UInt32) : List BackupStore := [.mark,.code code]

def store (d : FaultDevice) : BackupStore → FaultDevice
  | .mark => { d with bkp0r := watchdogFaultMagic }
  | .code value => { d with bkp1r := value }
  | .unmark => { d with bkp0r := 0 }
  | .clear => { d with bkp1r := 0 }

/-- The part of the initialization that looks at the registers. -/
def watchdogInit (d : FaultDevice) : FaultDevice :=
  if d.bkp0r = watchdogFaultMagic then
    { d with previousFault := d.bkp1r, pending := [.unmark,.clear], phase := .running }
  else { d with phase := .running }

/-- The variables are cleared and the registers kept. -/
def warmReset (d : FaultDevice) : FaultDevice := ⟨d.bkp0r,d.bkp1r,0,[],.starting⟩

inductive FaultInput where
  | init
  | store
  | fatal (code : UInt32)
  | warmReset
  | powerOn

inductive FaultEvent where
  | reported (code : UInt32)
  | called (code : UInt32)
  | stored (op : BackupStore)
  | reset
  | powered
  deriving DecidableEq

/-- A fatal fault can come at any time, also within the initialization or the
handling of another one. -/
def faultStep (d : FaultDevice) : FaultInput → FaultDevice × List FaultEvent
  | .init =>
    if d.phase = .starting then (watchdogInit d,[.reported (watchdogInit d).previousFault])
    else (d,[])
  | .store =>
    match d.pending with
    | [] => (d,[])
    | op::rest => (store { d with pending := rest } op,[.stored op])
  | .fatal code =>
    ({ d with pending := recordFatalFault code, phase := .halted },[.called code])
  | .warmReset => (warmReset d,[.reset])
  | .powerOn => (powered,[.powered])

inductive Note where
  | empty
  | underway
  | complete (code : UInt32)
  deriving DecidableEq

def noteOf : FaultEvent → Option Note
  | .called _ => some .underway
  | .stored (.code value) => some (.complete value)
  | .stored .unmark => some .empty
  | .powered => some .empty
  | _ => none

def isPowered (e : FaultEvent) : Bool := e = .powered

def Matches (past : List FaultEvent) (value : UInt32) : Option Note → Prop
  | some (.complete code) => value = code
  | some .underway => value = 0 ∨ .called value ∈ since isPowered past
  | _ => value = 0

/-- What an initialization reports: the code of the last fault if it was recorded
to its end; nothing if no fault came since one was taken out; and after a fault
that a reset cut off, nothing or an earlier one. -/
def Reports (past : List FaultEvent) : FaultEvent → Prop
  | .reported value => Matches past value (latest noteOf past)
  | _ => True

def Shaped (d : FaultDevice) : Option Note → Prop
  | some (.complete code) =>
    d.bkp0r = watchdogFaultMagic ∧ d.bkp1r = code ∧
      (d.pending = [] ∨ d.pending = [.unmark,.clear])
  | some .underway =>
    d.pending = [] ∨ d.pending = [.unmark,.clear] ∨
      (∃ code, d.pending = recordFatalFault code) ∨
        d.bkp0r = watchdogFaultMagic ∧ ∃ code, d.pending = [.code code]
  | _ => d.bkp0r ≠ watchdogFaultMagic ∧ (d.pending = [] ∨ d.pending = [.clear])

/-- Every code in the registers or on its way there is one of a fault since the
power came on. -/
structure Mailbox (d : FaultDevice) (past : List FaultEvent) : Prop where
  shaped : Shaped d (latest noteOf past)
  known : d.bkp1r = 0 ∨ .called d.bkp1r ∈ since isPowered past
  coming : ∀ code, .code code ∈ d.pending → .called code ∈ since isPowered past
  fresh : d.phase = .starting → d.pending = [] ∧ d.previousFault = 0

section Proof
variable {d : FaultDevice} {past : List FaultEvent}

theorem powered_apart : (0 : UInt32) ≠ watchdogFaultMagic := by decide

theorem since_mem {e : FaultEvent} (h : isPowered e = false) {code : UInt32}
    (hmem : .called code ∈ since isPowered past) : .called code ∈ since isPowered (past++[e]) := by
  rw [since_concat,if_neg (by rw [h]; exact Bool.false_ne_true)]
  exact List.mem_append_left _ hmem

theorem quiet_latest {e : FaultEvent} (h : noteOf e = none) :
    latest noteOf (past++[e]) = latest noteOf past := by
  rw [latest_concat,h,Option.none_or]

theorem init_reports (h : Mailbox d past) (hphase : d.phase = .starting) :
    Reports past (.reported (watchdogInit d).previousFault) := by
  have hprevious := (h.fresh hphase).2
  have hshaped := h.shaped
  show Matches past _ (latest noteOf past)
  by_cases hmagic : d.bkp0r = watchdogFaultMagic
  · rw [watchdogInit,if_pos hmagic]
    cases hnote : latest noteOf past with
    | none =>
      rw [hnote] at hshaped
      exact absurd hmagic hshaped.1
    | some note =>
      rw [hnote] at hshaped
      cases note with
      | empty => exact absurd hmagic hshaped.1
      | underway => exact h.known
      | complete code => exact hshaped.2.1
  · rw [watchdogInit,if_neg hmagic]
    cases hnote : latest noteOf past with
    | none => exact hprevious
    | some note =>
      rw [hnote] at hshaped
      cases note with
      | empty => exact hprevious
      | underway => exact Or.inl hprevious
      | complete code => exact absurd hshaped.1 hmagic

theorem init_mailbox (h : Mailbox d past) (hphase : d.phase = .starting) (value : UInt32) :
    Mailbox (watchdogInit d) (past++[.reported value]) := by
  have hpending := (h.fresh hphase).1
  have hshaped := h.shaped
  have hlatest : latest noteOf (past++[.reported value]) = latest noteOf past := quiet_latest rfl
  have hknown := h.known.imp_right (@since_mem past (.reported value) rfl d.bkp1r)
  unfold watchdogInit
  split
  · rename_i hmagic
    refine ⟨?_,hknown,fun code hcode => by simp at hcode,fun hc => by cases hc⟩
    rw [hlatest]
    cases hnote : latest noteOf past with
    | none =>
      rw [hnote] at hshaped
      exact absurd hmagic hshaped.1
    | some note =>
      rw [hnote] at hshaped
      cases note with
      | empty => exact absurd hmagic hshaped.1
      | underway => exact Or.inr (Or.inl rfl)
      | complete code => exact ⟨hmagic,hshaped.2.1,Or.inr rfl⟩
  · refine ⟨?_,hknown,fun code hcode => ?_,fun hc => by cases hc⟩
    · rw [hlatest]
      exact hshaped
    · rw [hpending] at hcode
      exact absurd hcode List.not_mem_nil

theorem store_shaped (h : Mailbox d past) {op : BackupStore} {rest : List BackupStore}
    (hpending : d.pending = op::rest) :
    Shaped (store { d with pending := rest } op) (latest noteOf (past++[.stored op])) := by
  have hshaped := h.shaped
  have hidle : ¬d.pending = [] := by rw [hpending]; exact List.cons_ne_nil op rest
  have hunmark : d.pending = [.unmark,.clear] →
      Shaped (store { d with pending := rest } op) (latest noteOf (past++[.stored op])) := by
    intro hp
    cases hpending.symm.trans hp
    rw [latest_concat]
    exact ⟨powered_apart,Or.inr rfl⟩
  have hclear : d.bkp0r ≠ watchdogFaultMagic → d.pending = [.clear] →
      (latest noteOf past = none ∨ latest noteOf past = some .empty) →
        Shaped (store { d with pending := rest } op) (latest noteOf (past++[.stored op])) := by
    intro hmagic hp hnote
    cases hpending.symm.trans hp
    rw [quiet_latest rfl]
    rcases hnote with hnote | hnote
    · rw [hnote]
      exact ⟨hmagic,Or.inl rfl⟩
    · rw [hnote]
      exact ⟨hmagic,Or.inl rfl⟩
  cases hnote : latest noteOf past with
  | none =>
    rw [hnote] at hshaped
    exact hclear hshaped.1 (hshaped.2.resolve_left hidle) (Or.inl hnote)
  | some note =>
    rw [hnote] at hshaped
    cases note with
    | empty => exact hclear hshaped.1 (hshaped.2.resolve_left hidle) (Or.inr hnote)
    | complete code => exact hunmark (hshaped.2.2.resolve_left hidle)
    | underway =>
      rcases hshaped with hp | hp | ⟨code,hp⟩ | ⟨hmagic,code,hp⟩
      · exact absurd hp hidle
      · exact hunmark hp
      · cases hpending.symm.trans hp
        rw [quiet_latest rfl,hnote]
        exact Or.inr (Or.inr (Or.inr ⟨rfl,code,rfl⟩))
      · cases hpending.symm.trans hp
        rw [latest_concat]
        exact ⟨hmagic,rfl,Or.inl rfl⟩

theorem store_mailbox (h : Mailbox d past) {op : BackupStore} {rest : List BackupStore}
    (hpending : d.pending = op::rest) :
    Mailbox (store { d with pending := rest } op) (past++[.stored op]) := by
  have hgrow : ∀ {code}, .called code ∈ since isPowered past →
      .called code ∈ since isPowered (past++[.stored op]) := since_mem rfl
  refine ⟨store_shaped h hpending,?_,fun code hcode => ?_,fun hphase => ?_⟩
  · cases op with
    | code value => exact Or.inr (hgrow (h.coming value (by simp [hpending])))
    | clear => exact Or.inl rfl
    | mark => exact h.known.imp_right hgrow
    | unmark => exact h.known.imp_right hgrow
  · refine hgrow (h.coming code ?_)
    have hrest : .code code ∈ rest := by
      cases op <;> exact hcode
    rw [hpending]
    exact List.mem_cons_of_mem op hrest
  · have hstarting : d.phase = .starting := by
      cases op <;> exact hphase
    exact absurd ((h.fresh hstarting).1.symm.trans hpending) (List.cons_ne_nil op rest).symm

theorem fatal_mailbox (h : Mailbox d past) (code : UInt32) :
    Mailbox { d with pending := recordFatalFault code, phase := .halted }
      (past++[.called code]) := by
  refine ⟨?_,h.known.imp_right (since_mem rfl),fun value hvalue => ?_,fun hc => by cases hc⟩
  · rw [latest_concat]
    exact Or.inr (Or.inr (Or.inl ⟨code,rfl⟩))
  · have hsame : value = code := by
      simpa [recordFatalFault] using hvalue
    rw [since_concat,hsame]
    simp [isPowered]

theorem reset_mailbox (h : Mailbox d past) : Mailbox (warmReset d) (past++[.reset]) := by
  refine ⟨?_,h.known.imp_right (since_mem rfl),fun code hcode => ?_,fun _ => ⟨rfl,rfl⟩⟩
  · have hshaped := h.shaped
    rw [quiet_latest rfl]
    cases hnote : latest noteOf past with
    | none =>
      rw [hnote] at hshaped
      exact ⟨hshaped.1,Or.inl rfl⟩
    | some note =>
      rw [hnote] at hshaped
      cases note with
      | empty => exact ⟨hshaped.1,Or.inl rfl⟩
      | underway => exact Or.inl rfl
      | complete code => exact ⟨hshaped.1,hshaped.2.1,Or.inl rfl⟩
  · exact absurd hcode List.not_mem_nil

theorem powered_mailbox (before : List FaultEvent)
    (h : latest noteOf before = none ∨ latest noteOf before = some .empty) :
    Mailbox powered before := by
  refine ⟨?_,Or.inl rfl,fun code hcode => absurd hcode List.not_mem_nil,fun _ => ⟨rfl,rfl⟩⟩
  rcases h with h | h
  · rw [h]
    exact ⟨powered_apart,Or.inl rfl⟩
  · rw [h]
    exact ⟨powered_apart,Or.inl rfl⟩

theorem step_mailbox (h : Mailbox d past) (input : FaultInput) :
    (faultStep d input).2 = [] ∧ Mailbox (faultStep d input).1 past ∨
      ∃ e, (faultStep d input).2 = [e] ∧ Reports past e ∧
        Mailbox (faultStep d input).1 (past++[e]) := by
  cases input with
  | init =>
    dsimp only [faultStep]
    split
    · rename_i hphase
      exact Or.inr ⟨_,rfl,init_reports h hphase,init_mailbox h hphase _⟩
    · exact Or.inl ⟨rfl,h⟩
  | store =>
    dsimp only [faultStep]
    split
    · exact Or.inl ⟨rfl,h⟩
    · rename_i op rest hpending
      exact Or.inr ⟨_,rfl,trivial,store_mailbox h hpending⟩
  | fatal code => exact Or.inr ⟨_,rfl,trivial,fatal_mailbox h code⟩
  | warmReset => exact Or.inr ⟨_,rfl,trivial,reset_mailbox h⟩
  | powerOn =>
    exact Or.inr ⟨_,rfl,trivial,
      powered_mailbox _ (Or.inr (latest_concat noteOf past .powered))⟩

/-- Whatever faults, resets and power cycles come between any two stores, each
initialization reports what its history says. -/
theorem fault_reports (inputs : List FaultInput) :
    Always Reports (run faultStep powered inputs).2 := by
  refine (along_history faultStep (fun _ _ => True)
    (fun d past => Mailbox d past ∧ Always Reports past) (fun d past input h _ => ?_) powered []
    inputs ⟨powered_mailbox [] (Or.inl rfl),always_nil⟩ (along_true _ _ _)).2
  rcases step_mailbox h.1 input with ⟨hnone,hmailbox⟩ | ⟨e,hone,hreports,hmailbox⟩
  · rw [hnone,List.append_nil]
    exact ⟨hmailbox,h.2⟩
  · rw [hone]
    exact ⟨hmailbox,always_concat h.2 hreports⟩

/-- Two resets at bad moments, and an old code is reported again. -/
example : (run faultStep powered
      [.fatal 7,.store,.store,.warmReset,.init,.store,.warmReset,.fatal 9,.store,.warmReset,
        .init]).2 =
    [.called 7,.stored .mark,.stored (.code 7),.reset,.reported 7,.stored .unmark,.reset,
      .called 9,.stored .mark,.reset,.reported 7] := by decide

end Proof
end CanopenReference.FaultMailbox
