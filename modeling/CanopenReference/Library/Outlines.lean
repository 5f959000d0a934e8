import CanopenReference.Library.Statements

/-!
# Outlines within a bound

An outline all of whose assertions imply a bound shows the bound in every state
of a run, also in the middle of a call.
-/

set_option autoImplicit false

namespace Library.Outlines
open Library.Runs Library.Statements

variable {σ ι ε κ η α β : Type} {handler : σ → η → σ × List ε}

/-- Every statement has an assertion from which it leads on, and which implies `B`. -/
def Within (handler : σ → η → σ × List ε) (B : σ → List ε → Prop) :
    Program σ ι ε α → (α → σ → List ε → Prop) → σ → List ε → Prop
  | .done value, post, s, past => post value s past
  | .step effect next, post, s, past =>
    ∃ A : Assertion handler, (∀ s past, A.holds s past → B s past) ∧ A.holds s past ∧
      ∀ s past answer, A.holds s past →
        Within handler B (next s answer) post (effect s answer).1 (past++(effect s answer).2)

section Rules
variable {B : σ → List ε → Prop} {s : σ} {past : List ε}

theorem within_mono {p : Program σ ι ε α} {post post' : α → σ → List ε → Prop}
    (hpost : ∀ value s past, post value s past → post' value s past)
    (h : Within handler B p post s past) : Within handler B p post' s past := by
  induction p generalizing s past with
  | done value => exact hpost value s past h
  | step effect next ih =>
    obtain ⟨A,hB,hA,hnext⟩ := h
    exact ⟨A,hB,hA,fun s past answer hs => ih s answer (hnext s past answer hs)⟩

theorem within_bind {p : Program σ ι ε α} {k : α → Program σ ι ε β}
    {post : β → σ → List ε → Prop}
    (h : Within handler B p (fun value => Within handler B (k value) post) s past) :
    Within handler B (p >>= k) post s past := by
  induction p generalizing s past with
  | done value => exact h
  | step effect next ih =>
    obtain ⟨A,hB,hA,hnext⟩ := h
    exact ⟨A,hB,hA,fun s past answer hs => ih s answer (hnext s past answer hs)⟩

theorem within_ite {c : Prop} [Decidable c] {p q : Program σ ι ε α}
    {post : α → σ → List ε → Prop} (hp : c → Within handler B p post s past)
    (hq : ¬c → Within handler B q post s past) :
    Within handler B (if c then p else q) post s past := by
  by_cases hc : c
  · rw [if_pos hc]
    exact hp hc
  · rw [if_neg hc]
    exact hq hc

variable (A : Assertion handler) (hB : ∀ s past, A.holds s past → B s past)
include hB

theorem within_perform {f : σ → ι → σ} {e : σ → ι → List ε} {post : Unit → σ → List ε → Prop}
    (hA : A.holds s past)
    (h : ∀ s past answer, A.holds s past → post () (f s answer) (past++e s answer)) :
    Within handler B (perform f e) post s past := ⟨A,hB,hA,h⟩

theorem within_every {p : Program σ ι ε α}
    (hp : Every (fun effect => ∀ s past answer, A.holds s past →
      A.holds (effect s answer).1 (past++(effect s answer).2)) p) (h : A.holds s past) :
    Within handler B p (fun _ => A.holds) s past := by
  induction p generalizing s past with
  | done value => exact h
  | step effect next ih =>
    exact ⟨A,hB,h,fun s past answer hs => ih s answer (hp.2 s answer) (hp.1 s past answer hs)⟩

end Rules

section Run
variable (entry : κ → Program σ ι ε Unit) {B : σ → List ε → Prop} (J : Assertion handler)
  (hB : ∀ s past, J.holds s past → B s past)
  (hentry : ∀ k s past, J.holds s past → Within handler B (entry k) (fun _ => J.holds) s past)

/-- The machine is at a place of an outline that ends in `J`. -/
def Inside (handler : σ → η → σ × List ε) (B : σ → List ε → Prop) (J : σ → List ε → Prop)
    (m : Machine σ ι ε) (past : List ε) : Prop :=
  match m.current with
  | none => J m.state past
  | some p => Within handler B p (fun _ => J) m.state past

theorem inside_settle {J : σ → List ε → Prop} {s : σ} {p : Program σ ι ε Unit} {past : List ε}
    (h : Within handler B p (fun _ => J) s past) : Inside handler B J ⟨s,settle p⟩ past := by
  cases p <;> exact h

include hentry in
theorem turn_inside (m : Machine σ ι ε) (past : List ε) (t : Turn κ ι η)
    (h : Inside handler B J.holds m past) :
    Inside handler B J.holds (turn entry handler m t).1 (past++(turn entry handler m t).2) := by
  obtain ⟨s,current⟩ := m
  cases t with
  | enter k =>
    cases current with
    | none =>
      show Inside handler B J.holds ⟨s,settle (entry k)⟩ (past++[])
      rw [List.append_nil]
      exact inside_settle (hentry k s past h)
    | some p =>
      show Inside handler B J.holds ⟨s,some p⟩ (past++[])
      rwa [List.append_nil]
  | statement answer =>
    cases current with
    | none =>
      show Inside handler B J.holds ⟨s,none⟩ (past++[])
      rwa [List.append_nil]
    | some p =>
      cases p with
      | done value =>
        show Inside handler B J.holds ⟨s,some (.done value)⟩ (past++[])
        rwa [List.append_nil]
      | step effect next =>
        obtain ⟨A,-,hA,hnext⟩ := h
        exact inside_settle (hnext s past answer hA)
  | interrupt cause =>
    cases current with
    | none => exact J.stable s past cause h
    | some p =>
      cases p with
      | done value => exact J.stable s past cause h
      | step effect next =>
        obtain ⟨A,hAB,hA,hnext⟩ := h
        exact ⟨A,hAB,A.stable s past cause hA,hnext⟩

include hB in
theorem inside_bound {m : Machine σ ι ε} {past : List ε} (h : Inside handler B J.holds m past) :
    B m.state past := by
  obtain ⟨s,current⟩ := m
  cases current with
  | none => exact hB s past h
  | some p =>
    cases p with
    | done value => exact hB s past h
    | step effect next =>
      obtain ⟨A,hAB,hA,-⟩ := h
      exact hAB s past hA

include hB hentry in
theorem run_within (s : σ) (ts : List (Turn κ ι η)) (h : J.holds s []) :
    B (run (turn entry handler) ⟨s,none⟩ ts).1.state (run (turn entry handler) ⟨s,none⟩ ts).2 := by
  have hp := along_history (turn entry handler) (fun _ _ => True) (Inside handler B J.holds)
    (fun m past t hm _ => turn_inside entry J hentry m past t hm) ⟨s,none⟩ [] ts h
    (along_true _ _ _)
  rw [List.nil_append] at hp
  exact inside_bound J hB hp

end Run
end Library.Outlines
