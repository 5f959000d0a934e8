import CanopenReference.Library.Statements

/-!
# Programs under observation

An observer stands beside a running program. It turns what the surroundings
supply into the answer of a statement, notes every statement, and may note that
a call begins. Forgetting the observer gives back a run of the program.
-/

set_option autoImplicit false

namespace Library.Watched
open Library.Runs Library.Statements

structure Observer (σ ι ε γ δ : Type) where
  answer : γ → δ → ι
  note : γ → δ → σ → List ε → γ
  enter : γ → γ

section Watch
variable {σ ι ε γ δ α β : Type} (o : Observer σ ι ε γ δ)

/-- A statement with the observer beside it. Events carry what the observer
knew before the statement. -/
def watched (effect : σ → ι → σ × List ε) (s : σ × γ) (i : δ) : (σ × γ) × List (γ × ε) :=
  let r := effect s.1 (o.answer s.2 i)
  ((r.1,o.note s.2 i s.1 r.2),r.2.map fun e => (s.2,e))

def watch : Program σ ι ε α → Program (σ × γ) δ (γ × ε) α
  | .done value => .done value
  | .step effect next =>
    .step (watched o effect) fun s i => watch (next s.1 (o.answer s.2 i))

def watchCall : Program σ ι ε α → Program (σ × γ) δ (γ × ε) α
  | .done value => .done value
  | .step effect next =>
    .step (fun s i => watched o effect (s.1,o.enter s.2) i) fun s i =>
      watch o (next s.1 (o.answer (o.enter s.2) i))

theorem watch_bind (p : Program σ ι ε α) (k : α → Program σ ι ε β) :
    watch o (p >>= k) = watch o p >>= fun value => watch o (k value) := by
  induction p with
  | done value => rfl
  | step effect next ih =>
    show Program.step _ _ = Program.step _ _
    congr 1
    funext s i
    exact ih s.1 (o.answer s.2 i)

theorem watch_ite (c : Prop) [Decidable c] (p q : Program σ ι ε α) :
    watch o (if c then p else q) = if c then watch o p else watch o q :=
  apply_ite (watch o) c p q

theorem every_watch {S : (σ → ι → σ × List ε) → Prop}
    {S' : (σ × γ → δ → (σ × γ) × List (γ × ε)) → Prop}
    (h : ∀ effect, S effect → S' (watched o effect)) {p : Program σ ι ε α} (hp : Every S p) :
    Every S' (watch o p) := by
  induction p with
  | done value => trivial
  | step effect next ih =>
    exact ⟨h effect hp.1,fun s i => ih s.1 (o.answer s.2 i) (hp.2 s.1 (o.answer s.2 i))⟩

end Watch

section Machine
variable {σ ι ε γ δ κ η : Type} (o : Observer σ ι ε γ δ) (entry : κ → Program σ ι ε Unit)
  (handler : σ → η → σ × List ε)

def watchHandler (s : σ × γ) (cause : η) : (σ × γ) × List (γ × ε) :=
  (((handler s.1 cause).1,s.2),(handler s.1 cause).2.map fun e => (s.2,e))

def watchTurn : Machine (σ × γ) δ (γ × ε) → Turn κ δ η →
    Machine (σ × γ) δ (γ × ε) × List (γ × ε) :=
  turn (fun k => watchCall o (entry k)) (watchHandler handler)

inductive Beside : Machine σ ι ε → Machine (σ × γ) δ (γ × ε) → Prop where
  | idle (s : σ) (g : γ) : Beside ⟨s,none⟩ ⟨(s,g),none⟩
  | within (s : σ) (g : γ) (effect : σ → ι → σ × List ε) (next : σ → ι → Program σ ι ε Unit) :
      Beside ⟨s,some (.step effect next)⟩ ⟨(s,g),some (watch o (.step effect next))⟩
  | called (s : σ) (g : γ) (effect : σ → ι → σ × List ε) (next : σ → ι → Program σ ι ε Unit) :
      Beside ⟨s,some (.step effect next)⟩ ⟨(s,g),some (watchCall o (.step effect next))⟩

theorem settle_watch (s : σ) (g : γ) (p : Program σ ι ε Unit) :
    Beside o ⟨s,settle p⟩ ⟨(s,g),settle (watch o p)⟩ := by
  cases p with
  | done value => exact .idle s g
  | step effect next => exact .within s g effect next

theorem settle_call (s : σ) (g : γ) (p : Program σ ι ε Unit) :
    Beside o ⟨s,settle p⟩ ⟨(s,g),settle (watchCall o p)⟩ := by
  cases p with
  | done value => exact .idle s g
  | step effect next => exact .called s g effect next

variable {m : Machine σ ι ε} {w : Machine (σ × γ) δ (γ × ε)}

theorem beside_turn (h : Beside o m w) (t : Turn κ δ η) :
    ∃ t' : Turn κ ι η,
      Beside o (turn entry handler m t').1 (watchTurn o entry handler w t).1 ∧
      (turn entry handler m t').2 = (watchTurn o entry handler w t).2.map Prod.snd := by
  have hforget : ∀ (g : γ) (events : List ε),
      events = (events.map fun e => (g,e)).map Prod.snd := by
    intro g events
    rw [List.map_map]
    exact (List.map_id events).symm
  cases t with
  | enter k =>
    refine ⟨.enter k,?_⟩
    cases h with
    | idle s g => exact ⟨settle_call o s g _,rfl⟩
    | within s g effect next => exact ⟨.within s g effect next,rfl⟩
    | called s g effect next => exact ⟨.called s g effect next,rfl⟩
  | statement i =>
    cases h with
    | idle s g => exact ⟨.statement (o.answer g i),.idle s g,rfl⟩
    | within s g effect next =>
      exact ⟨.statement (o.answer g i),settle_watch o _ _ _,hforget _ _⟩
    | called s g effect next =>
      exact ⟨.statement (o.answer (o.enter g) i),settle_watch o _ _ _,hforget _ _⟩
  | interrupt cause =>
    refine ⟨.interrupt cause,?_⟩
    cases h with
    | idle s g => exact ⟨.idle _ g,hforget _ _⟩
    | within s g effect next => exact ⟨.within _ g effect next,hforget _ _⟩
    | called s g effect next => exact ⟨.called _ g effect next,hforget _ _⟩

/-- An observed run is a run, with something noted beside it. -/
theorem beside_run (h : Beside o m w) (ts : List (Turn κ δ η)) :
    ∃ ts' : List (Turn κ ι η),
      Beside o (run (turn entry handler) m ts').1 (run (watchTurn o entry handler) w ts).1 ∧
      (run (turn entry handler) m ts').2 =
        (run (watchTurn o entry handler) w ts).2.map Prod.snd := by
  induction ts generalizing m w with
  | nil => exact ⟨[],h,rfl⟩
  | cons t ts ih =>
    obtain ⟨t',hnext,hevents⟩ := beside_turn o entry handler h t
    obtain ⟨ts',hlast,hrest⟩ := ih hnext
    refine ⟨t'::ts',hlast,?_⟩
    rw [run_cons,run_cons,List.map_append,hevents,hrest]

end Machine
end Library.Watched
