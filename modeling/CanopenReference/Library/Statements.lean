import CanopenReference.Library.Runs

/-!
# Programs between interrupts

A program is a tree of atomic statements over a state. A statement sees the
state and an answer of the surroundings and reports events; between any two
statements a handler may run. An outline gives every statement an assertion
that no handler breaks.
-/

set_option autoImplicit false

namespace Library.Statements
open Library.Runs

inductive Program (σ ι ε α : Type) where
  | done (value : α)
  | step (effect : σ → ι → σ × List ε) (next : σ → ι → Program σ ι ε α)

section Syntax
variable {σ ι ε α β : Type}

def Program.bind : Program σ ι ε α → (α → Program σ ι ε β) → Program σ ι ε β
  | .done value, k => k value
  | .step effect next, k => .step effect fun s i => (next s i).bind k

instance programMonad : Monad (Program σ ι ε) where
  pure := .done
  bind := Program.bind

def fetch (f : σ → α) : Program σ ι ε α := .step (fun s _ => (s,[])) fun s _ => .done (f s)

def assign (f : σ → σ) : Program σ ι ε Unit := .step (fun s _ => (f s,[])) fun _ _ => .done ()

def perform (f : σ → ι → σ) (e : σ → ι → List ε) : Program σ ι ε Unit :=
  .step (fun s i => (f s i,e s i)) fun _ _ => .done ()

/-- A call of the surroundings that shows and has no effect on the state. -/
def report (e : ε) : Program σ ι ε Unit := .step (fun s _ => (s,[e])) fun _ _ => .done ()

def ask (f : ι → α) : Program σ ι ε α := .step (fun s _ => (s,[])) fun _ i => .done (f i)

def when (c : Bool) (p : Program σ ι ε Unit) : Program σ ι ε Unit := if c then p else pure ()

end Syntax

section Machine
variable {σ ι ε κ η : Type}

structure Machine (σ ι ε : Type) where
  state : σ
  current : Option (Program σ ι ε Unit)

inductive Turn (κ ι η : Type) where
  | enter (entry : κ)
  | statement (answer : ι)
  | interrupt (cause : η)

def settle : Program σ ι ε Unit → Option (Program σ ι ε Unit)
  | .done _ => none
  | p => some p

/-- One turn: a call begins when none is running, the running call executes a
statement, or a handler runs. -/
def turn (entry : κ → Program σ ι ε Unit) (handler : σ → η → σ × List ε)
    (m : Machine σ ι ε) : Turn κ ι η → Machine σ ι ε × List ε
  | .enter k =>
    match m.current with
    | none => ({ m with current := settle (entry k) },[])
    | some _ => (m,[])
  | .statement answer =>
    match m.current with
    | some (.step effect next) =>
      (⟨(effect m.state answer).1,settle (next m.state answer)⟩,(effect m.state answer).2)
    | _ => (m,[])
  | .interrupt cause => ({ m with state := (handler m.state cause).1 },(handler m.state cause).2)

section Return
variable (entry : κ → Program σ ι ε Unit) (handler : σ → η → σ × List ε)

def Unfinished (m : Machine σ ι ε) : Prop := ∀ value, m.current ≠ some (.done value)

theorem settle_unfinished (s : σ) (p : Program σ ι ε Unit) : Unfinished ⟨s,settle p⟩ := by
  intro value
  cases p with
  | done value => simp [settle]
  | step effect next => simp [settle]

theorem turn_unfinished (m : Machine σ ι ε) (t : Turn κ ι η) (h : Unfinished m) :
    Unfinished (turn entry handler m t).1 := by
  cases t with
  | enter k =>
    simp only [turn]
    split
    · exact settle_unfinished _ _
    · exact h
  | statement answer =>
    simp only [turn]
    split
    · exact settle_unfinished _ _
    · exact h
  | interrupt cause => exact h

theorem call_returns (C : Machine σ ι ε → Turn κ ι η → Prop)
    (hC : ∀ m, ∃ answer, C m (.statement answer)) (m : Machine σ ι ε) (h : Unfinished m) :
    ∃ ts, Along (turn entry handler) C m ts ∧ (run (turn entry handler) m ts).1.current = none := by
  obtain ⟨s,current⟩ := m
  cases current with
  | none => exact ⟨[],trivial,rfl⟩
  | some p =>
    induction p generalizing s with
    | done value => exact absurd rfl (h value)
    | step effect next ih =>
      obtain ⟨answer,hanswer⟩ := hC ⟨s,some (.step effect next)⟩
      have hnext := settle_unfinished (effect s answer).1 (next s answer)
      cases hp : next s answer with
      | done value =>
        refine ⟨[.statement answer],⟨hanswer,trivial⟩,?_⟩
        simp [run_cons,turn,hp,settle]
      | step effect' next' =>
        rw [hp] at hnext
        obtain ⟨ts,hts,hdone⟩ := ih s answer (effect s answer).1 (hp ▸ hnext)
        have hturn : (turn entry handler ⟨s,some (.step effect next)⟩ (.statement answer)).1 =
            ⟨(effect s answer).1,some (next s answer)⟩ := by
          simp [turn,hp,settle]
        refine ⟨.statement answer::ts,⟨hanswer,?_⟩,?_⟩
        · rw [hturn]
          exact hts
        · rw [run_cons,hturn]
          exact hdone

end Return
end Machine

section Outline
variable {σ ι ε κ η : Type} (handler : σ → η → σ × List ε)

structure Assertion where
  holds : σ → List ε → Prop
  stable : ∀ s past cause, holds s past →
    holds (handler s cause).1 (past++(handler s cause).2)

def Assertion.either {handler : σ → η → σ × List ε} (A B : Assertion handler) :
    Assertion handler where
  holds s past := A.holds s past ∨ B.holds s past
  stable s past cause h := h.imp (A.stable s past cause) (B.stable s past cause)

def Outline {α : Type} : Program σ ι ε α → (α → σ → List ε → Prop) → σ → List ε → Prop
  | .done value, post, s, past => post value s past
  | .step effect next, post, s, past =>
    ∃ A : Assertion handler, A.holds s past ∧
      ∀ s past answer, A.holds s past →
        Outline (next s answer) post (effect s answer).1 (past++(effect s answer).2)

variable {handler} {α β : Type}

theorem outline_mono {p : Program σ ι ε α} {post post' : α → σ → List ε → Prop}
    (hpost : ∀ value s past, post value s past → post' value s past) {s : σ} {past : List ε}
    (h : Outline handler p post s past) : Outline handler p post' s past := by
  induction p generalizing s past with
  | done value => exact hpost value s past h
  | step effect next ih =>
    obtain ⟨A,hA,hnext⟩ := h
    exact ⟨A,hA,fun s past answer hs => ih s answer (hnext s past answer hs)⟩

theorem outline_bind {p : Program σ ι ε α} {k : α → Program σ ι ε β}
    {post : β → σ → List ε → Prop} {s : σ} {past : List ε}
    (h : Outline handler p (fun value => Outline handler (k value) post) s past) :
    Outline handler (p >>= k) post s past := by
  induction p generalizing s past with
  | done value => exact h
  | step effect next ih =>
    obtain ⟨A,hA,hnext⟩ := h
    exact ⟨A,hA,fun s past answer hs => ih s answer (hnext s past answer hs)⟩

theorem outline_ite {c : Prop} [Decidable c] {p q : Program σ ι ε α}
    {post : α → σ → List ε → Prop} {s : σ} {past : List ε}
    (hp : c → Outline handler p post s past) (hq : ¬c → Outline handler q post s past) :
    Outline handler (if c then p else q) post s past := by
  by_cases hc : c
  · rw [if_pos hc]
    exact hp hc
  · rw [if_neg hc]
    exact hq hc

section Rules
variable (A : Assertion handler) {post : β → σ → List ε → Prop} {s : σ} {past : List ε}

theorem outline_fetch {f : σ → α} {k : α → Program σ ι ε β} (hA : A.holds s past)
    (h : ∀ s past, A.holds s past → Outline handler (k (f s)) post s past) :
    Outline handler (fetch f >>= k) post s past := by
  refine ⟨A,hA,fun s past answer hs => ?_⟩
  rw [List.append_nil]
  exact h s past hs

theorem outline_assign {f : σ → σ} {k : Unit → Program σ ι ε β} (hA : A.holds s past)
    (h : ∀ s past, A.holds s past → Outline handler (k ()) post (f s) past) :
    Outline handler (assign f >>= k) post s past := by
  refine ⟨A,hA,fun s past answer hs => ?_⟩
  rw [List.append_nil]
  exact h s past hs

theorem outline_perform {f : σ → ι → σ} {e : σ → ι → List ε} {k : Unit → Program σ ι ε β}
    (hA : A.holds s past)
    (h : ∀ s past answer, A.holds s past →
      Outline handler (k ()) post (f s answer) (past++e s answer)) :
    Outline handler (perform f e >>= k) post s past :=
  ⟨A,hA,h⟩

theorem outline_report {e : ε} {k : Unit → Program σ ι ε β} (hA : A.holds s past)
    (h : ∀ s past, A.holds s past → Outline handler (k ()) post s (past++[e])) :
    Outline handler (report e >>= k) post s past :=
  ⟨A,hA,fun s past _ hs => h s past hs⟩

theorem outline_assign_last {f : σ → σ} {post : Unit → σ → List ε → Prop} (hA : A.holds s past)
    (h : ∀ s past, A.holds s past → post () (f s) past) :
    Outline handler (assign f : Program σ ι ε Unit) post s past := by
  refine ⟨A,hA,fun s past answer hs => ?_⟩
  rw [List.append_nil]
  exact h s past hs

theorem outline_perform_last {f : σ → ι → σ} {e : σ → ι → List ε}
    {post : Unit → σ → List ε → Prop} (hA : A.holds s past)
    (h : ∀ s past answer, A.holds s past → post () (f s answer) (past++e s answer)) :
    Outline handler (perform f e) post s past :=
  ⟨A,hA,h⟩

end Rules

/-- Every statement of the program has the property `S`. -/
def Every (S : (σ → ι → σ × List ε) → Prop) : Program σ ι ε α → Prop
  | .done _ => True
  | .step effect next => S effect ∧ ∀ s answer, Every S (next s answer)

theorem every_bind {S : (σ → ι → σ × List ε) → Prop} {p : Program σ ι ε α}
    {k : α → Program σ ι ε β} (hp : Every S p) (hk : ∀ value, Every S (k value)) :
    Every S (p >>= k) := by
  induction p with
  | done value => exact hk value
  | step effect next ih => exact ⟨hp.1,fun s answer => ih s answer (hp.2 s answer)⟩

theorem every_mono {S S' : (σ → ι → σ × List ε) → Prop} (h : ∀ effect, S effect → S' effect)
    {p : Program σ ι ε α} (hp : Every S p) : Every S' p := by
  induction p with
  | done value => trivial
  | step effect next ih => exact ⟨h effect hp.1,fun s answer => ih s answer (hp.2 s answer)⟩

theorem every_ite {S : (σ → ι → σ × List ε) → Prop} {c : Prop} [Decidable c]
    {p q : Program σ ι ε α} (hp : Every S p) (hq : Every S q) :
    Every S (if c then p else q) := by
  split
  · exact hp
  · exact hq

theorem every_when {S : (σ → ι → σ × List ε) → Prop} {c : Bool} {p : Program σ ι ε Unit}
    (hp : Every S p) : Every S (when c p) := every_ite hp trivial

/-- A statement that moves the state along `R` and reports events in `P` only. -/
def Framed (R : σ → σ → Prop) (P : ε → Prop) (effect : σ → ι → σ × List ε) : Prop :=
  ∀ s answer, R s (effect s answer).1 ∧ ∀ e ∈ (effect s answer).2, P e

section Framed
variable {R : σ → σ → Prop} {P : ε → Prop}

theorem framed_fetch (hR : ∀ s, R s s) (f : σ → α) :
    Every (Framed R P) (fetch f : Program σ ι ε α) :=
  ⟨fun s _ => ⟨hR s,by simp⟩,fun _ _ => trivial⟩

theorem framed_ask (hR : ∀ s, R s s) (f : ι → α) :
    Every (Framed R P) (ask f : Program σ ι ε α) :=
  ⟨fun s _ => ⟨hR s,by simp⟩,fun _ _ => trivial⟩

theorem framed_assign {f : σ → σ} (h : ∀ s, R s (f s)) :
    Every (Framed R P) (assign f : Program σ ι ε Unit) :=
  ⟨fun s _ => ⟨h s,by simp⟩,fun _ _ => trivial⟩

theorem framed_report (hR : ∀ s, R s s) {e : ε} (h : P e) :
    Every (Framed R P) (report e : Program σ ι ε Unit) :=
  ⟨fun s _ => ⟨hR s,by simpa using h⟩,fun _ _ => trivial⟩

theorem framed_perform {f : σ → ι → σ} {e : σ → ι → List ε} (h : ∀ s i, R s (f s i))
    (he : ∀ s i, ∀ x ∈ e s i, P x) : Every (Framed R P) (perform f e : Program σ ι ε Unit) :=
  ⟨fun s i => ⟨h s i,he s i⟩,fun _ _ => trivial⟩

end Framed

section Kept
variable (entry : κ → Program σ ι ε Unit) {I : σ → Prop}

def Keeps (I : σ → Prop) : (σ → ι → σ × List ε) → Prop :=
  Framed (fun s s' => I s → I s') fun _ => True

theorem turn_keeps (hentry : ∀ k, Every (Keeps I) (entry k))
    (hhandler : ∀ s cause, I s → I (handler s cause).1) (m : Machine σ ι ε) (t : Turn κ ι η)
    (h : I m.state ∧ ∀ p, m.current = some p → Every (Keeps I) p) :
    I (turn entry handler m t).1.state ∧
      ∀ p, (turn entry handler m t).1.current = some p → Every (Keeps I) p := by
  have hsettle : ∀ q : Program σ ι ε Unit, Every (Keeps I) q →
      ∀ p, settle q = some p → Every (Keeps I) p := by
    intro q hq p hp
    cases q with
    | done value => cases hp
    | step effect next =>
      cases hp
      exact hq
  obtain ⟨hstate,hcurrent⟩ := h
  cases t with
  | enter k =>
    simp only [turn]
    split
    · exact ⟨hstate,hsettle _ (hentry k)⟩
    · exact ⟨hstate,hcurrent⟩
  | statement answer =>
    simp only [turn]
    split
    · rename_i effect next hm
      have hp := hcurrent _ hm
      exact ⟨(hp.1 m.state answer).1 hstate,hsettle _ (hp.2 m.state answer)⟩
    · exact ⟨hstate,hcurrent⟩
  | interrupt cause => exact ⟨hhandler _ cause hstate,hcurrent⟩

theorem run_keeps (hentry : ∀ k, Every (Keeps I) (entry k))
    (hhandler : ∀ s cause, I s → I (handler s cause).1) (s : σ) (ts : List (Turn κ ι η))
    (h : I s) : I (run (turn entry handler) ⟨s,none⟩ ts).1.state :=
  (run_invariant (turn entry handler)
    (fun m => I m.state ∧ ∀ p, m.current = some p → Every (Keeps I) p)
    (turn_keeps entry hentry hhandler) ⟨s,none⟩ ts ⟨h,fun p hp => by cases hp⟩).1

end Kept

theorem outline_every (A : Assertion handler) {p : Program σ ι ε α}
    (hp : Every (fun effect => ∀ s past answer, A.holds s past →
      A.holds (effect s answer).1 (past++(effect s answer).2)) p)
    {s : σ} {past : List ε} (h : A.holds s past) :
    Outline handler p (fun _ => A.holds) s past := by
  induction p generalizing s past with
  | done value => exact h
  | step effect next ih =>
    exact ⟨A,h,fun s past answer hs => ih s answer (hp.2 s answer) (hp.1 s past answer hs)⟩

section Frame
variable {R : σ → σ → Prop} {P : ε → Prop}

theorem framed_append {H : σ → List ε → Prop} (hsame : ∀ s s' past, R s s' → H s past → H s' past)
    (happend : ∀ s past e, P e → H s past → H s (past++[e])) {s s' : σ} {past events : List ε}
    (hR : R s s') (hP : ∀ e ∈ events, P e) (h : H s past) : H s' (past++events) := by
  have hs := hsame s s' past hR h
  clear h
  induction events generalizing past with
  | nil => rwa [List.append_nil]
  | cons e events ih =>
    rw [List.append_cons]
    exact ih (fun x hx => hP x (List.mem_cons_of_mem _ hx))
      (happend s' past e (hP e (List.mem_cons_self ..)) hs)

variable (A : Assertion handler)
  (hsame : ∀ s s' past, R s s' → A.holds s past → A.holds s' past)
  (happend : ∀ s past e, P e → A.holds s past → A.holds s (past++[e]))
  {s : σ} {past : List ε}
include hsame happend

theorem outline_framed {p : Program σ ι ε α} (hp : Every (Framed R P) p) (h : A.holds s past) :
    Outline handler p (fun _ => A.holds) s past := by
  refine outline_every A (every_mono (fun effect he => ?_) hp) h
  intro s past answer hs
  exact framed_append hsame happend (he s answer).1 (he s answer).2 hs

theorem framed_then {p : Program σ ι ε α} {k : α → Program σ ι ε β}
    {post : β → σ → List ε → Prop} (hp : Every (Framed R P) p) (h : A.holds s past)
    (hk : ∀ value s past, A.holds s past → Outline handler (k value) post s past) :
    Outline handler (p >>= k) post s past :=
  outline_bind (outline_mono hk (outline_framed A hsame happend hp h))

end Frame

/-- The machine is at a place of an outline that ends in `J`. -/
def Placed (J : Assertion handler) (m : Machine σ ι ε) (past : List ε) : Prop :=
  match m.current with
  | none => J.holds m.state past
  | some p => Outline handler p (fun _ => J.holds) m.state past

theorem placed_settle {J : Assertion handler} {s : σ} {p : Program σ ι ε Unit}
    {past : List ε} (h : Outline handler p (fun _ => J.holds) s past) :
    Placed J ⟨s,settle p⟩ past := by
  cases p <;> exact h

theorem placed_interrupt {J : Assertion handler} {m : Machine σ ι ε} {past : List ε}
    (cause : η) (h : Placed J m past) :
    Placed J { m with state := (handler m.state cause).1 }
      (past++(handler m.state cause).2) := by
  unfold Placed at h ⊢
  simp only
  split at h
  · exact J.stable _ _ cause h
  · rename_i p _
    cases p with
    | done value => exact J.stable _ _ cause h
    | step effect next =>
      obtain ⟨A,hA,hnext⟩ := h
      exact ⟨A,A.stable _ _ cause hA,hnext⟩

section Run
variable (entry : κ → Program σ ι ε Unit) (J : Assertion handler)
  (hentry : ∀ k s past, J.holds s past → Outline handler (entry k) (fun _ => J.holds) s past)
include hentry

theorem turn_placed (m : Machine σ ι ε) (past : List ε) (t : Turn κ ι η)
    (h : Placed J m past) :
    Placed J (turn entry handler m t).1 (past++(turn entry handler m t).2) := by
  cases t with
  | enter k =>
    unfold turn
    cases hm : m.current with
    | none =>
      rw [List.append_nil]
      apply placed_settle
      apply hentry
      simpa [Placed,hm] using h
    | some p =>
      rw [List.append_nil]
      exact h
  | statement answer =>
    unfold turn
    cases hm : m.current with
    | none =>
      rw [List.append_nil]
      exact h
    | some p =>
      cases p with
      | done value =>
        rw [List.append_nil]
        exact h
      | step effect next =>
        have hp : Outline handler (.step effect next) (fun _ => J.holds) m.state past := by
          simpa [Placed,hm] using h
        obtain ⟨A,hA,hnext⟩ := hp
        exact placed_settle (hnext _ _ answer hA)
  | interrupt cause => exact placed_interrupt cause h

theorem run_placed (s : σ) (ts : List (Turn κ ι η)) (h : J.holds s []) :
    Placed J (run (turn entry handler) ⟨s,none⟩ ts).1
      (run (turn entry handler) ⟨s,none⟩ ts).2 := by
  have hstart : Placed J (⟨s,none⟩ : Machine σ ι ε) [] := h
  have hp := along_history (turn entry handler) (fun _ _ => True) (Placed J)
    (fun m past t hm _ => turn_placed entry J hentry m past t hm) ⟨s,none⟩ [] ts hstart
    (along_true _ _ _)
  simpa using hp

end Run
end Outline
end Library.Statements
