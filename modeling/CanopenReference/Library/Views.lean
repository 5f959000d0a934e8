import CanopenReference.Library.Statements

/-!
# Programs seen through a view

A view forgets part of the state and some of the events. A program shows a
smaller one where each of its statements is a statement of the smaller one or
changes nothing that the view sees. Runs of the machine then show runs.
-/

set_option autoImplicit false

namespace Library.Views
open Library.Runs Library.Statements

structure View (σ ι ε σ' ι' ε' : Type) where
  state : σ → σ'
  answer : ι → ι'
  event : ε → Option ε'

variable {σ ι ε σ' ι' ε' κ η η' α β : Type} (v : View σ ι ε σ' ι' ε')

def View.shown (r : σ × List ε) : σ' × List ε' := (v.state r.1,r.2.filterMap v.event)

inductive Shows : Program σ ι ε α → Program σ' ι' ε' α → Prop where
  | done (value : α) : Shows (.done value) (.done value)
  | seen {effect : σ → ι → σ × List ε} {next : σ → ι → Program σ ι ε α}
      {effect' : σ' → ι' → σ' × List ε'} {next' : σ' → ι' → Program σ' ι' ε' α}
      (heffect : ∀ s i, v.shown (effect s i) = effect' (v.state s) (v.answer i))
      (hnext : ∀ s i, Shows (next s i) (next' (v.state s) (v.answer i))) :
      Shows (.step effect next) (.step effect' next')
  | silent {effect : σ → ι → σ × List ε} {next : σ → ι → Program σ ι ε α}
      {q : Program σ' ι' ε' α} (heffect : ∀ s i, v.shown (effect s i) = (v.state s,[]))
      (hnext : ∀ s i, Shows (next s i) q) : Shows (.step effect next) q

section Rules
variable {v}

theorem shows_bind {p : Program σ ι ε α} {q : Program σ' ι' ε' α} {k : α → Program σ ι ε β}
    {k' : α → Program σ' ι' ε' β} (h : Shows v p q) (hk : ∀ value, Shows v (k value) (k' value)) :
    Shows v (p >>= k) (q >>= k') := by
  induction h with
  | done value => exact hk value
  | seen heffect _ ih => exact .seen heffect ih
  | silent heffect _ ih => exact .silent heffect ih

theorem shows_ite {c : Prop} [Decidable c] {p p' : Program σ ι ε α} {q q' : Program σ' ι' ε' α}
    (h : Shows v p q) (h' : Shows v p' q') :
    Shows v (if c then p else p') (if c then q else q') := by
  split
  · exact h
  · exact h'

theorem shows_when {c : Bool} {p : Program σ ι ε Unit} {q : Program σ' ι' ε' Unit}
    (h : Shows v p q) : Shows v (when c p) (when c q) := shows_ite h (.done ())

theorem shows_after {p : Program σ ι ε Unit} {k : Unit → Program σ ι ε β}
    {q : Program σ' ι' ε' β} (h : Shows v p (pure ())) (hk : Shows v (k ()) q) :
    Shows v (p >>= k) q := by
  show Shows v (p >>= k) (pure () >>= fun _ => q)
  exact shows_bind h fun _ => hk

theorem shows_perform {f : σ → ι → σ} {e : σ → ι → List ε} {f' : σ' → ι' → σ'}
    {e' : σ' → ι' → List ε'}
    (h : ∀ s i, v.shown (f s i,e s i) = (f' (v.state s) (v.answer i),e' (v.state s) (v.answer i))) :
    Shows v (perform f e) (perform f' e') := .seen h fun _ _ => .done ()

theorem silent_perform {f : σ → ι → σ} {e : σ → ι → List ε}
    (h : ∀ s i, v.shown (f s i,e s i) = (v.state s,[])) : Shows v (perform f e) (pure ()) :=
  .silent h fun _ _ => .done ()

theorem silent_assign {f : σ → σ} (h : ∀ s, v.state (f s) = v.state s) :
    Shows v (assign f) (pure ()) :=
  .silent (fun s _ => Prod.ext (h s) rfl) fun _ _ => .done ()

end Rules

section Machine
variable (entry : κ → Program σ ι ε Unit) (entry' : κ → Program σ' ι' ε' Unit)
  (handler : σ → η → σ × List ε) (handler' : σ' → η' → σ' × List ε') (cause : η → Option η')

def remaining (m : Machine σ ι ε) : Program σ ι ε Unit := m.current.getD (.done ())

theorem remaining_settle (s : σ) (p : Program σ ι ε Unit) : remaining ⟨s,settle p⟩ = p := by
  cases p with
  | done value => rfl
  | step effect next => rfl

structure Seen (m : Machine σ ι ε) (n : Machine σ' ι' ε') : Prop where
  state : v.state m.state = n.state
  remaining : Shows v (remaining m) (remaining n)
  unfinished : Unfinished n

def seenHandler (s : σ') : Option η' → σ' × List ε'
  | some c => handler' s c
  | none => (s,[])

variable {v} {m : Machine σ ι ε} {n : Machine σ' ι' ε'}

theorem remaining_step {effect : σ → ι → σ × List ε} {next : σ → ι → Program σ ι ε Unit}
    (h : remaining m = .step effect next) : m.current = some (.step effect next) := by
  obtain ⟨s,current⟩ := m
  cases current with
  | none => cases h
  | some p => exact congrArg some h

theorem seen_rest {s : σ} {p : Program σ ι ε Unit} (hs : v.state s = n.state)
    (h : Shows v p (remaining n)) (hn : Unfinished n) : Seen v ⟨s,settle p⟩ n := by
  refine ⟨hs,?_,hn⟩
  rw [remaining_settle]
  exact h

theorem seen_settle {s : σ} {t : σ'} {p : Program σ ι ε Unit} {q : Program σ' ι' ε' Unit}
    (hs : v.state s = t) (h : Shows v p q) : Seen v ⟨s,settle p⟩ ⟨t,settle q⟩ := by
  apply seen_rest hs
  · rw [remaining_settle]
    exact h
  · exact settle_unfinished _ _

theorem seen_idle {s : σ} (h : Seen v ⟨s,none⟩ n) : n.current = none := by
  obtain ⟨t,current⟩ := n
  cases current with
  | none => rfl
  | some q =>
    have hremaining : Shows v (.done ()) q := h.remaining
    cases hremaining with
    | done value => exact absurd rfl (h.unfinished ())

variable (hentry : ∀ k, Shows v (entry k) (entry' k))
  (hhandler : ∀ s c, v.shown (handler s c) = seenHandler handler' (v.state s) (cause c))

theorem seen_statement {s : σ} {effect : σ → ι → σ × List ε} {next : σ → ι → Program σ ι ε Unit}
    (h : Seen v ⟨s,some (.step effect next)⟩ n) (i : ι) :
    ∃ ts' : List (Turn κ ι' η'),
      Seen v ⟨(effect s i).1,settle (next s i)⟩ (run (turn entry' handler') n ts').1 ∧
      (effect s i).2.filterMap v.event = (run (turn entry' handler') n ts').2 := by
  obtain ⟨hstate,hremaining,hn⟩ := h
  change v.state s = n.state at hstate
  change Shows v (.step effect next) (remaining n) at hremaining
  generalize hq : remaining n = q at hremaining
  cases hremaining with
  | silent heffect hnext =>
    have hshown := heffect s i
    refine ⟨[],seen_rest ?_ ?_ hn,congrArg Prod.snd hshown⟩
    · exact (congrArg Prod.fst hshown).trans hstate
    · rw [run_nil,hq]
      exact hnext s i
  | @seen _ _ effect' next' heffect hnext =>
    have hshown := heffect s i
    have hcurrent := remaining_step hq
    obtain ⟨t,current⟩ := n
    cases hstate
    cases hcurrent
    refine ⟨[.statement (v.answer i)],?_,?_⟩
    · exact seen_settle (congrArg Prod.fst hshown) (hnext s i)
    · rw [run_cons,run_nil,List.append_nil]
      exact congrArg Prod.snd hshown

include hhandler in
theorem seen_interrupt (h : Seen v m n) (c : η) :
    ∃ ts' : List (Turn κ ι' η'),
      Seen v { m with state := (handler m.state c).1 } (run (turn entry' handler') n ts').1 ∧
      (handler m.state c).2.filterMap v.event = (run (turn entry' handler') n ts').2 := by
  have hshown := hhandler m.state c
  rw [h.state] at hshown
  cases hc : cause c with
  | none =>
    rw [hc] at hshown
    exact ⟨[],⟨congrArg Prod.fst hshown,h.remaining,h.unfinished⟩,congrArg Prod.snd hshown⟩
  | some c' =>
    rw [hc] at hshown
    refine ⟨[.interrupt c'],⟨congrArg Prod.fst hshown,h.remaining,h.unfinished⟩,?_⟩
    rw [run_cons,run_nil,List.append_nil]
    exact congrArg Prod.snd hshown

include hentry hhandler

theorem seen_turn (h : Seen v m n) (t : Turn κ ι η) :
    ∃ ts' : List (Turn κ ι' η'),
      Seen v (turn entry handler m t).1 (run (turn entry' handler') n ts').1 ∧
      (turn entry handler m t).2.filterMap v.event = (run (turn entry' handler') n ts').2 := by
  cases t with
  | interrupt c => exact seen_interrupt entry' handler handler' cause hhandler h c
  | enter k =>
    obtain ⟨s,current⟩ := m
    cases current with
    | some p => exact ⟨[],h,rfl⟩
    | none =>
      have hidle := seen_idle h
      obtain ⟨t,current⟩ := n
      cases hidle
      exact ⟨[.enter k],seen_settle h.state (hentry k),rfl⟩
  | statement i =>
    obtain ⟨s,current⟩ := m
    cases current with
    | none => exact ⟨[],h,rfl⟩
    | some p =>
      cases p with
      | done value => exact ⟨[],h,rfl⟩
      | step effect next => exact seen_statement entry' handler' h i

theorem seen_run (h : Seen v m n) (ts : List (Turn κ ι η)) :
    ∃ ts' : List (Turn κ ι' η'),
      Seen v (run (turn entry handler) m ts).1 (run (turn entry' handler') n ts').1 ∧
      (run (turn entry handler) m ts).2.filterMap v.event =
        (run (turn entry' handler') n ts').2 := by
  induction ts generalizing m n with
  | nil => exact ⟨[],h,rfl⟩
  | cons t ts ih =>
    obtain ⟨first,hnext,hevents⟩ := seen_turn entry entry' handler handler' cause hentry hhandler h t
    obtain ⟨rest,hlast,hrest⟩ := ih hnext
    refine ⟨first++rest,?_,?_⟩
    · rw [run_append]
      exact hlast
    · rw [run_cons,run_append,List.filterMap_append,hevents,hrest]

end Machine
end Library.Views
