import Mathlib.Data.Nat.Notation
import Mathlib.Tactic.Common

/-!
# Runs of a step function that reports events

A machine is a step function from a state and an input to the next state and
the events the step reports. Finite runs serve safety; orbits under an
infinite schedule serve progress. Nothing here names a particular machine.
-/

set_option autoImplicit false

namespace Library.Runs

variable {σ α ε : Type*}

def run (step : σ → α → σ × List ε) : σ → List α → σ × List ε
  | s, [] => (s,[])
  | s, a::as =>
    let r := run step (step s a).1 as
    (r.1,(step s a).2++r.2)

section Run
variable (step : σ → α → σ × List ε)

@[simp] theorem run_nil (s : σ) : run step s [] = (s,[]) := rfl

theorem run_cons (s : σ) (a : α) (as : List α) :
    run step s (a::as) =
      ((run step (step s a).1 as).1,(step s a).2++(run step (step s a).1 as).2) := rfl

theorem run_append (s : σ) (as bs : List α) :
    run step s (as++bs) =
      ((run step (run step s as).1 bs).1,
        (run step s as).2++(run step (run step s as).1 bs).2) := by
  induction as generalizing s with
  | nil => rfl
  | cons a as ih => simp [run_cons,ih,List.append_assoc]

theorem run_concat (s : σ) (as : List α) (a : α) :
    run step s (as++[a]) =
      ((step (run step s as).1 a).1,(run step s as).2++(step (run step s as).1 a).2) := by
  simp [run_append,run_cons]

theorem run_invariant (I : σ → Prop) (hstep : ∀ s a, I s → I (step s a).1)
    (s : σ) (as : List α) (h : I s) : I (run step s as).1 := by
  induction as generalizing s with
  | nil => exact h
  | cons a as ih => exact ih _ (hstep s a h)

end Run

/-- Every step of the run meets the condition `C` in the state it starts from. -/
def Along (step : σ → α → σ × List ε) (C : σ → α → Prop) : σ → List α → Prop
  | _, [] => True
  | s, a::as => C s a ∧ Along step C (step s a).1 as

instance alongDecidable (step : σ → α → σ × List ε) (C : σ → α → Prop)
    [∀ s a, Decidable (C s a)] : ∀ s as, Decidable (Along step C s as)
  | _, [] => inferInstanceAs (Decidable True)
  | s, a::as =>
    haveI := alongDecidable step C (step s a).1 as
    inferInstanceAs (Decidable (C s a ∧ Along step C (step s a).1 as))

section Along
variable (step : σ → α → σ × List ε) (C : σ → α → Prop)

theorem along_append (s : σ) (as bs : List α) :
    Along step C s (as++bs) ↔ Along step C s as ∧ Along step C (run step s as).1 bs := by
  induction as generalizing s with
  | nil => simp [Along]
  | cons a as ih => simp [Along,run_cons,ih,and_assoc]

theorem along_invariant (I : σ → Prop) (hstep : ∀ s a, I s → C s a → I (step s a).1)
    (s : σ) (as : List α) (h : I s) (hc : Along step C s as) : I (run step s as).1 := by
  induction as generalizing s with
  | nil => exact h
  | cons a as ih => exact ih _ (hstep s a h hc.1) hc.2

/-- Events that are good whenever their step starts in the invariant and
meets the condition are good throughout the run. -/
theorem along_events (I : σ → Prop) (P : ε → Prop)
    (hstep : ∀ s a, I s → C s a → I (step s a).1)
    (hevent : ∀ s a, I s → C s a → ∀ e ∈ (step s a).2, P e)
    (s : σ) (as : List α) (h : I s) (hc : Along step C s as) :
    ∀ e ∈ (run step s as).2, P e := by
  induction as generalizing s with
  | nil => simp
  | cons a as ih =>
    intro e he
    rcases List.mem_append.mp he with h1 | h1
    · exact hevent s a h hc.1 e h1
    · exact ih _ (hstep s a h hc.1) hc.2 e h1

/-- Where a step reports only good events exactly when it meets the condition,
a run does so exactly when all its steps meet it. -/
theorem along_iff_events (I : σ → Prop) (P : ε → Prop)
    (hstep : ∀ s a, I s → C s a → I (step s a).1)
    (hevent : ∀ s a, I s → ((∀ e ∈ (step s a).2, P e) ↔ C s a))
    (s : σ) (as : List α) (h : I s) :
    (∀ e ∈ (run step s as).2, P e) ↔ Along step C s as := by
  constructor
  · intro hall
    induction as generalizing s with
    | nil => trivial
    | cons a as ih =>
      have hc : C s a :=
        (hevent s a h).mp fun e he => hall e (List.mem_append.mpr (Or.inl he))
      exact ⟨hc,ih _ (hstep s a h hc) fun e he => hall e (List.mem_append.mpr (Or.inr he))⟩
  · intro hc
    exact along_events step C I P hstep (fun s a hi hc => (hevent s a hi).mpr hc) s as h hc

/-- Two runs that look alike through `f` stay alike and report the same, as long
as every step does that under `C`. -/
theorem along_alike {β : Type*} (f : σ → β)
    (h : ∀ s t a, f s = f t → C s a → f (step s a).1 = f (step t a).1 ∧ (step s a).2 = (step t a).2)
    (s t : σ) (as : List α) (hs : f s = f t) (hc : Along step C s as) :
    f (run step s as).1 = f (run step t as).1 ∧ (run step s as).2 = (run step t as).2 := by
  induction as generalizing s t with
  | nil => exact ⟨hs,rfl⟩
  | cons a as ih =>
    obtain ⟨hnext,hevents⟩ := h s t a hs hc.1
    obtain ⟨hlast,hrest⟩ := ih _ _ hnext hc.2
    refine ⟨hlast,?_⟩
    rw [run_cons,run_cons]
    simp only [hevents,hrest]

end Along

theorem along_congr (step : σ → α → σ × List ε) {C C' : σ → α → Prop} (I : σ → Prop)
    (hstep : ∀ s a, I s → I (step s a).1) (h : ∀ s a, I s → (C s a ↔ C' s a))
    (s : σ) (as : List α) (hs : I s) : Along step C s as ↔ Along step C' s as := by
  induction as generalizing s with
  | nil => exact Iff.rfl
  | cons a as ih => exact and_congr (h s a hs) (ih _ (hstep s a hs))

theorem along_mono (step : σ → α → σ × List ε) {C C' : σ → α → Prop}
    (h : ∀ s a, C s a → C' s a) (s : σ) (as : List α) (hc : Along step C s as) :
    Along step C' s as := by
  induction as generalizing s with
  | nil => trivial
  | cons a as ih => exact ⟨h s a hc.1,ih _ hc.2⟩

/-- Two machines whose related states step to related states with the same
events report the same over a run. -/
theorem run_related {τ : Type*} (step : σ → α → σ × List ε) (step' : τ → α → τ × List ε)
    (R : σ → τ → Prop) (C : α → Prop)
    (h : ∀ s t a, R s t → C a → R (step s a).1 (step' t a).1 ∧ (step s a).2 = (step' t a).2)
    (s : σ) (t : τ) (as : List α) (hs : R s t) (hc : ∀ a ∈ as, C a) :
    R (run step s as).1 (run step' t as).1 ∧ (run step s as).2 = (run step' t as).2 := by
  induction as generalizing s t with
  | nil => exact ⟨hs,rfl⟩
  | cons a as ih =>
    obtain ⟨ha,has⟩ := List.forall_mem_cons.mp hc
    obtain ⟨hnext,hevents⟩ := h s t a hs ha
    obtain ⟨hlast,hrest⟩ := ih _ _ hnext has
    refine ⟨hlast,?_⟩
    rw [run_cons,run_cons]
    simp only [hevents,hrest]

/-- A machine whose inputs are worked off in several steps of another ends
where the other does. -/
theorem run_expand {τ β δ : Type*} (step : σ → α → σ × List ε) (coarse : τ → β → τ × List δ)
    (f : σ → τ) (expand : β → List α)
    (h : ∀ s b, f (run step s (expand b)).1 = (coarse (f s) b).1) (s : σ) (bs : List β) :
    f (run step s (bs.flatMap expand)).1 = (run coarse (f s) bs).1 := by
  induction bs generalizing s with
  | nil => rfl
  | cons b bs ih => rw [List.flatMap_cons,run_append,ih,h,run_cons]

theorem along_true (step : σ → α → σ × List ε) (s : σ) (as : List α) :
    Along step (fun _ _ => True) s as := by
  induction as generalizing s with
  | nil => trivial
  | cons a as ih => exact ⟨trivial,ih _⟩

theorem along_forall (step : σ → α → σ × List ε) {P : α → Prop} (s : σ) (as : List α)
    (h : ∀ a ∈ as, P a) : Along step (fun _ a => P a) s as := by
  induction as generalizing s with
  | nil => trivial
  | cons a as ih =>
    obtain ⟨ha,has⟩ := List.forall_mem_cons.mp h
    exact ⟨ha,ih _ has⟩

theorem along_inputs (step : σ → α → σ × List ε) {P : α → Prop} (s : σ) (as : List α) :
    Along step (fun _ a => P a) s as ↔ ∀ a ∈ as, P a := by
  refine ⟨fun h => ?_,along_forall step s as⟩
  induction as generalizing s with
  | nil => simp
  | cons a as ih => exact List.forall_mem_cons.mpr ⟨h.1,ih _ h.2⟩

/-- Inputs that leave the state alone can be left out: the state at the end is
the same, and so are the events of the others. -/
theorem run_without (step : σ → α → σ × List ε) (keep : α → Bool) (kept : ε → Bool)
    (hkeep : ∀ s a, keep a = true → ∀ e ∈ (step s a).2, kept e = true)
    (hdrop : ∀ s a, keep a = false → ∀ e ∈ (step s a).2, kept e = false) (s : σ) (as : List α)
    (h : Along step (fun s a => keep a = false → (step s a).1 = s) s as) :
    (run step s (as.filter keep)).1 = (run step s as).1 ∧
      (run step s (as.filter keep)).2 = (run step s as).2.filter kept := by
  induction as generalizing s with
  | nil => exact ⟨rfl,rfl⟩
  | cons a as ih =>
    obtain ⟨hlast,hevents⟩ := ih _ h.2
    cases hk : keep a with
    | true =>
      have hall : (step s a).2.filter kept = (step s a).2 := List.filter_eq_self.mpr (hkeep s a hk)
      rw [List.filter_cons_of_pos hk,run_cons,run_cons,List.filter_append,hall,hlast,hevents]
      exact ⟨rfl,rfl⟩
    | false =>
      have hsame := h.1 hk
      have hnone : (step s a).2.filter kept = [] := by
        rw [List.filter_eq_nil_iff]
        intro e he
        rw [hdrop s a hk e he]
        exact Bool.false_ne_true
      rw [List.filter_cons_of_neg (by rw [hk]; exact Bool.false_ne_true),run_cons,
        List.filter_append,hnone,List.nil_append,← hlast,← hevents,hsame]
      exact ⟨rfl,rfl⟩

/-- Every step of the run meets the condition `C`, which may also ask for the
events reported so far. -/
def AlongPast (step : σ → α → σ × List ε) (C : σ → List ε → α → Prop) :
    σ → List ε → List α → Prop
  | _, _, [] => True
  | s, past, a::as =>
    C s past a ∧ AlongPast step C (step s a).1 (past++(step s a).2) as

instance alongPastDecidable (step : σ → α → σ × List ε) (C : σ → List ε → α → Prop)
    [∀ s past a, Decidable (C s past a)] : ∀ s past as, Decidable (AlongPast step C s past as)
  | _, _, [] => inferInstanceAs (Decidable True)
  | s, past, a::as =>
    haveI := alongPastDecidable step C (step s a).1 (past++(step s a).2) as
    inferInstanceAs (Decidable (C s past a ∧ AlongPast step C _ _ as))

theorem along_past_plain (step : σ → α → σ × List ε) (C : σ → α → Prop) (s : σ) (past : List ε)
    (as : List α) : AlongPast step (fun s _ a => C s a) s past as ↔ Along step C s as := by
  induction as generalizing s past with
  | nil => exact Iff.rfl
  | cons a as ih => exact and_congr_right fun _ => ih _ _

theorem along_past_append (step : σ → α → σ × List ε) (C : σ → List ε → α → Prop) (s : σ)
    (past : List ε) (as bs : List α) :
    AlongPast step C s past (as++bs) ↔ AlongPast step C s past as ∧
      AlongPast step C (run step s as).1 (past++(run step s as).2) bs := by
  induction as generalizing s past with
  | nil => simp [AlongPast]
  | cons a as ih => simp [AlongPast,run_cons,ih,and_assoc]

theorem along_past_history (step : σ → α → σ × List ε) (C : σ → List ε → α → Prop)
    (I : σ → List ε → Prop)
    (hstep : ∀ s past a, I s past → C s past a → I (step s a).1 (past++(step s a).2))
    (s : σ) (past : List ε) (as : List α) (h : I s past) (hc : AlongPast step C s past as) :
    I (run step s as).1 (past++(run step s as).2) := by
  induction as generalizing s past with
  | nil => simpa using h
  | cons a as ih =>
    rw [run_cons,← List.append_assoc]
    exact ih _ _ (hstep s past a h hc.1) hc.2

theorem along_history (step : σ → α → σ × List ε) (C : σ → α → Prop) (I : σ → List ε → Prop)
    (hstep : ∀ s past a, I s past → C s a → I (step s a).1 (past++(step s a).2))
    (s : σ) (past : List ε) (as : List α) (h : I s past) (hc : Along step C s as) :
    I (run step s as).1 (past++(run step s as).2) :=
  along_past_history step (fun s _ a => C s a) I hstep s past as h
    ((along_past_plain step C s past as).mpr hc)

/-- Where the condition keeps an invariant that shows `P`, and `P` after a step
shows the condition, a run shows `P` throughout exactly when all its steps meet
the condition. -/
theorem along_iff_shown (step : σ → α → σ × List ε) (C : σ → α → Prop) (Q P : σ → List ε → Prop)
    (hshown : ∀ s past, Q s past → P s past)
    (hkept : ∀ s past a, Q s past → C s a → Q (step s a).1 (past++(step s a).2))
    (hneeded : ∀ s past a, Q s past → P (step s a).1 (past++(step s a).2) → C s a)
    (s : σ) (past : List ε) (as : List α) (hq : Q s past) :
    (∀ n, P (run step s (as.take n)).1 (past++(run step s (as.take n)).2)) ↔
      Along step C s as := by
  induction as generalizing s past with
  | nil => simpa [Along] using hshown s past hq
  | cons a as ih =>
    have hcons : ∀ n, P (run step s ((a::as).take (n+1))).1
          (past++(run step s ((a::as).take (n+1))).2) ↔
        P (run step (step s a).1 (as.take n)).1
          (past++(step s a).2++(run step (step s a).1 (as.take n)).2) := by
      intro n
      rw [List.take_succ_cons,run_cons,List.append_assoc]
    constructor
    · intro hall
      have hfirst : P (step s a).1 (past++(step s a).2) := by simpa using (hcons 0).mp (hall 1)
      have hc := hneeded s past a hq hfirst
      exact ⟨hc,(ih _ _ (hkept s past a hq hc)).mp fun n => (hcons n).mp (hall (n+1))⟩
    · rintro ⟨hc,hc'⟩ n
      cases n with
      | zero => simpa using hshown s past hq
      | succ n => exact (hcons n).mpr ((ih _ _ (hkept s past a hq hc)).mpr hc' n)

/-- Where a step from a good state leads to a good state exactly when it meets
the condition, a run stays in good states exactly when all its steps meet it. -/
theorem along_iff_states (step : σ → α → σ × List ε) (C : σ → α → Prop) (I Q : σ → List ε → Prop)
    (hkept : ∀ s past a, I s past → I (step s a).1 (past++(step s a).2))
    (hstep : ∀ s past a, I s past → Q s past →
      (Q (step s a).1 (past++(step s a).2) ↔ C s a))
    (s : σ) (past : List ε) (as : List α) (hi : I s past) (hq : Q s past) :
    (∀ n, Q (run step s (as.take n)).1 (past++(run step s (as.take n)).2)) ↔
      Along step C s as :=
  along_iff_shown step C (fun s past => I s past ∧ Q s past) Q (fun _ _ h => h.2)
    (fun s past a h hc => ⟨hkept s past a h.1,(hstep s past a h.1 h.2).mpr hc⟩)
    (fun s past a h hq => (hstep s past a h.1 h.2).mp hq) s past as ⟨hi,hq⟩

/-- Every event stands in the relation `P` to the events before it. -/
def Always (P : List ε → ε → Prop) (history : List ε) : Prop :=
  ∀ before e after, history = before++e::after → P before e

theorem always_iff_indexed (P : List ε → ε → Prop) (history : List ε) :
    Always P history ↔ ∀ n : Fin history.length, P (history.take n) (history.get n) := by
  constructor
  · intro h n
    apply h _ _ (history.drop (n+1))
    rw [List.get_eq_getElem,← List.drop_eq_getElem_cons n.isLt,List.take_append_drop]
  · rintro h before e after rfl
    have hn := h ⟨before.length,by simp⟩
    simpa using hn

instance alwaysDecidable (P : List ε → ε → Prop) [∀ before e, Decidable (P before e)]
    (history : List ε) : Decidable (Always P history) :=
  decidable_of_iff _ (always_iff_indexed P history).symm

theorem concat_split {history before after : List ε} {r x : ε}
    (h : history++[r] = before++x::after) :
    before = history ∧ x = r ∧ after = [] ∨
      ∃ after', after = after'++[r] ∧ history = before++x::after' := by
  rcases List.eq_nil_or_concat after with rfl | ⟨after',y,rfl⟩
  · obtain ⟨hl,hr⟩ := List.append_inj' h rfl
    exact Or.inl ⟨hl.symm,(List.cons.inj hr).1.symm,rfl⟩
  · have hl : history++[r] = (before++x::after')++[y] := by simpa using h
    obtain ⟨hl,hr⟩ := List.append_inj' hl rfl
    exact Or.inr ⟨after',by rw [(List.cons.inj hr).1,List.concat_eq_append],hl⟩

section History
variable {P : List ε → ε → Prop}

theorem always_nil : Always P [] := fun before e after h => by simp at h

theorem always_concat {history : List ε} {e : ε} (h : Always P history) (he : P history e) :
    Always P (history++[e]) := by
  intro before x after hsplit
  rcases concat_split hsplit with ⟨rfl,rfl,_⟩ | ⟨after',_,hl⟩
  · exact he
  · exact h before x after' hl

theorem always_front {history events : List ε} (h : Always P (history++events)) :
    Always P history := by
  rintro before e after rfl
  exact h before e (after++events) (by simp)

theorem always_append {history events : List ε} (h : Always P history)
    (he : ∀ e ∈ events, ∀ before, P before e) : Always P (history++events) := by
  induction events generalizing history with
  | nil => simpa using h
  | cons e events ih =>
    rw [List.append_cons]
    exact ih (always_concat h (he e (List.mem_cons_self ..) _))
      fun x hx => he x (List.mem_cons_of_mem _ hx)

theorem always_extend {history events : List ε} (h : Always P history)
    (he : ∀ before e after, events = before++e::after → P (history++before) e) :
    Always P (history++events) := by
  intro before e after hsplit
  rcases List.append_eq_append_iff.mp hsplit with ⟨extra,hbefore,hevents⟩ | ⟨extra,hhistory,hrest⟩
  · rw [hbefore]
    exact he extra e after hevents
  · cases extra with
    | nil =>
      rw [List.nil_append] at hrest
      rw [List.append_nil] at hhistory
      have hfirst := he [] e after hrest.symm
      rw [List.append_nil,hhistory] at hfirst
      exact hfirst
    | cons x extra =>
      rw [List.cons_append] at hrest
      obtain ⟨rfl,-⟩ := List.cons.inj hrest
      exact h before e extra hhistory

end History

/-- Where the events of a step fit the history exactly when it meets the
condition, those of a run do exactly when all its steps meet it. -/
theorem along_past_iff_always (step : σ → α → σ × List ε) (C : σ → List ε → α → Prop)
    (I : σ → List ε → Prop) (P : List ε → ε → Prop)
    (hkept : ∀ s past a, I s past → I (step s a).1 (past++(step s a).2))
    (hstep : ∀ s past a, I s past → Always P past →
      (Always P (past++(step s a).2) ↔ C s past a))
    (s : σ) (past : List ε) (as : List α) (hi : I s past) (hp : Always P past) :
    Always P (past++(run step s as).2) ↔ AlongPast step C s past as := by
  induction as generalizing s past with
  | nil => simpa [AlongPast] using hp
  | cons a as ih =>
    rw [run_cons,← List.append_assoc]
    constructor
    · intro hall
      have hfirst := always_front hall
      exact ⟨(hstep s past a hi hp).mp hfirst,(ih _ _ (hkept s past a hi) hfirst).mp hall⟩
    · rintro ⟨hc,hc'⟩
      exact (ih _ _ (hkept s past a hi) ((hstep s past a hi hp).mpr hc)).mpr hc'

theorem along_iff_always (step : σ → α → σ × List ε) (C : σ → α → Prop) (I : σ → List ε → Prop)
    (P : List ε → ε → Prop) (hkept : ∀ s past a, I s past → I (step s a).1 (past++(step s a).2))
    (hstep : ∀ s past a, I s past → Always P past →
      (Always P (past++(step s a).2) ↔ C s a))
    (s : σ) (past : List ε) (as : List α) (hi : I s past) (hp : Always P past) :
    Always P (past++(run step s as).2) ↔ Along step C s as :=
  (along_past_iff_always step (fun s _ a => C s a) I P hkept hstep s past as hi hp).trans
    (along_past_plain step C s past as)

/-- The states visited under an infinite schedule. -/
def orbit (step : σ → α → σ × List ε) (s : σ) (sched : ℕ → α) : ℕ → σ
  | 0 => s
  | n+1 => (step (orbit step s sched n) (sched n)).1

/-- The events reported in the first `n` steps of a schedule. -/
def reported (step : σ → α → σ × List ε) (s : σ) (sched : ℕ → α) : ℕ → List ε
  | 0 => []
  | n+1 => reported step s sched n++(step (orbit step s sched n) (sched n)).2

theorem exists_companion {γ : Type*} (R : ℕ → γ → Prop) (S : ℕ → γ → γ → Prop) (g₀ : γ)
    (h₀ : R 0 g₀) (h : ∀ n g, R n g → ∃ g', R (n+1) g' ∧ S n g g') :
    ∃ G : ℕ → γ, G 0 = g₀ ∧ ∀ n, R n (G n) ∧ S n (G n) (G (n+1)) := by
  choose! f hf using h
  let G : ℕ → γ := fun n => Nat.rec g₀ f n
  have hG : ∀ n, R n (G n) := by
    intro n
    induction n with
    | zero => exact h₀
    | succ n ih => exact (hf n _ ih).1
  exact ⟨G,rfl,fun n => ⟨hG n,(hf n _ (hG n)).2⟩⟩

/-- A rank that is always eventually lowered until the goal is met brings the
sequence to the goal. -/
theorem eventually_of_rank (rank : ℕ → ℕ) (goal : ℕ → Prop)
    (h : ∀ n, ¬goal n → ∃ m, n ≤ m ∧ rank m < rank n) : ∃ n, goal n := by
  suffices hk : ∀ k n, rank n ≤ k → ∃ m, goal m from hk _ 0 (Nat.le_refl _)
  intro k
  induction k with
  | zero =>
    intro n hn
    by_contra hc
    obtain ⟨m,_,hm⟩ := h n (fun hg => hc ⟨n,hg⟩)
    omega
  | succ k ih =>
    intro n hn
    by_cases hg : goal n
    · exact ⟨n,hg⟩
    · obtain ⟨m,_,hm⟩ := h n hg
      exact ih m (by omega)

/-- A sequence that rests or descends, and that descends whenever it has rested
long enough short of the goal, reaches the goal. -/
theorem eventually_of_fair {γ : Type*} (G : ℕ → γ) (rank : γ → ℕ) (goal : γ → Prop)
    (hstep : ∀ n, G (n+1) = G n ∨ rank (G (n+1)) < rank (G n))
    (hfair : ∀ n, ¬goal (G n) → ∃ m, n ≤ m ∧ (G m = G n → rank (G (m+1)) < rank (G m))) :
    ∃ n, goal (G n) := by
  have hrest : ∀ n d, G (n+d) = G n ∨ rank (G (n+d)) < rank (G n) := by
    intro n d
    induction d with
    | zero => exact Or.inl rfl
    | succ d ih =>
      rcases hstep (n+d) with he | hl
      · rw [← Nat.add_assoc,he]
        exact ih
      · right
        rcases ih with he | hl'
        · rw [← Nat.add_assoc,← he]
          exact hl
        · exact Nat.lt_trans hl hl'
  apply eventually_of_rank (fun n => rank (G n)) (fun n => goal (G n))
  intro n hn
  obtain ⟨m,hm,hlow⟩ := hfair n hn
  have hd := hrest n (m-n)
  rw [Nat.add_sub_cancel' hm] at hd
  rcases hd with he | hl
  · refine ⟨m+1,Nat.le_succ_of_le hm,?_⟩
    rw [← he]
    exact hlow he
  · exact ⟨m,hm,hl⟩

end Library.Runs
