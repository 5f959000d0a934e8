import Mathlib.Data.List.Forall2
import Mathlib.Data.List.Induction
import Mathlib.Data.Nat.Notation
import Mathlib.Tactic.Common

/-!
# Reading a history

What the last relevant event of a history said, what came since the last event
of a kind, and whether events of given kinds came in a given order. All are read
from the whole history and follow it event by event.
-/

set_option autoImplicit false

namespace Library.History

variable {ε α : Type*}

/-- What the last event with an answer answered. -/
def latest (answer : ε → Option α) (history : List ε) : Option α :=
  history.foldl (fun last e => (answer e).or last) none

/-- The events behind the last one that `mark` selects. -/
def since (mark : ε → Bool) (history : List ε) : List ε :=
  history.foldl (fun kept e => if mark e then [] else kept++[e]) []

section Latest
variable (answer : ε → Option α)

theorem latest_concat (history : List ε) (e : ε) :
    latest answer (history++[e]) = (answer e).or (latest answer history) := by
  simp [latest,List.foldl_append]

theorem latest_quiet (history events : List ε) (h : ∀ e ∈ events, answer e = none) :
    latest answer (history++events) = latest answer history := by
  induction events using List.reverseRecOn with
  | nil => rw [List.append_nil]
  | append_singleton events e ih =>
    have he : answer e = none := h e (by simp)
    rw [← List.append_assoc,latest_concat,he,Option.none_or]
    exact ih fun x hx => h x (by simp [hx])

theorem latest_mem {history : List ε} {a : α} (h : latest answer history = some a) :
    ∃ e ∈ history, answer e = some a := by
  induction history using List.reverseRecOn with
  | nil => cases h
  | append_singleton history e ih =>
    rw [latest_concat] at h
    cases he : answer e with
    | none =>
      rw [he,Option.none_or] at h
      obtain ⟨x,hx,ha⟩ := ih h
      exact ⟨x,List.mem_append_left _ hx,ha⟩
    | some b =>
      rw [he,Option.some_or] at h
      exact ⟨e,by simp,he.trans h⟩

theorem latest_exists {history : List ε} {e : ε} {a : α} (he : e ∈ history)
    (ha : answer e = some a) : ∃ b, latest answer history = some b := by
  induction history using List.reverseRecOn with
  | nil => cases he
  | append_singleton history x ih =>
    rw [latest_concat]
    cases hx : answer x with
    | some b => exact ⟨b,rfl⟩
    | none =>
      rw [Option.none_or]
      rcases List.mem_append.mp he with he | he
      · exact ih he
      · rw [List.mem_singleton.mp he,hx] at ha
        cases ha

end Latest

section Since
variable (mark : ε → Bool)

theorem since_concat (history : List ε) (e : ε) :
    since mark (history++[e]) = if mark e then [] else since mark history++[e] := by
  simp [since,List.foldl_append]

theorem since_quiet (history events : List ε) (h : ∀ e ∈ events, mark e = false) :
    since mark (history++events) = since mark history++events := by
  induction events using List.reverseRecOn with
  | nil => rw [List.append_nil,List.append_nil]
  | append_singleton events e ih =>
    have he : mark e = false := h e (by simp)
    rw [← List.append_assoc,since_concat,he,if_neg Bool.false_ne_true,
      ih fun x hx => h x (by simp [hx]),List.append_assoc]

theorem since_marked (history events : List ε) (e : ε) (he : mark e = true)
    (h : ∀ x ∈ events, mark x = false) : since mark (history++e::events) = events := by
  have hsplit : history++e::events = (history++[e])++events := by simp
  rw [hsplit,since_quiet mark _ events h,since_concat,if_pos he,List.nil_append]

end Since

def Passed (kinds : List (ε → Prop)) (history : List ε) : Prop :=
  ∃ es, es.Sublist history ∧ List.Forall₂ (fun kind e => kind e) kinds es

section Passed
variable {kinds : List (ε → Prop)} {history : List ε}

theorem passed_nil : Passed [] history := ⟨[],List.nil_sublist _,.nil⟩

theorem passed_append (events : List ε) (h : Passed kinds history) :
    Passed kinds (history++events) := by
  obtain ⟨es,hsub,hkinds⟩ := h
  exact ⟨es,hsub.trans (List.sublist_append_left _ _),hkinds⟩

theorem passed_next {kind : ε → Prop} {e : ε} (h : Passed kinds history) (he : kind e) :
    Passed (kinds++[kind]) (history++[e]) := by
  obtain ⟨es,hsub,hkinds⟩ := h
  exact ⟨es++[e],hsub.append (List.Sublist.refl [e]),List.rel_append hkinds (.cons he .nil)⟩

theorem passed_front {later : List (ε → Prop)} (h : Passed (kinds++later) history) :
    Passed kinds history := by
  obtain ⟨es,hsub,hkinds⟩ := h
  have hfront := List.forall₂_take kinds.length hkinds
  rw [List.take_left] at hfront
  exact ⟨es.take kinds.length,(List.take_sublist _ _).trans hsub,hfront⟩

theorem passed_mem {kind : ε → Prop} (h : Passed kinds history) (hk : kind ∈ kinds) :
    ∃ e ∈ history, kind e := by
  obtain ⟨es,hsub,hkinds⟩ := h
  obtain ⟨n,hn,hget⟩ := List.mem_iff_getElem.mp hk
  have hlen := hkinds.length_eq
  have he : n < es.length := hlen ▸ hn
  refine ⟨es[n],hsub.subset (List.getElem_mem he),?_⟩
  rw [← hget]
  exact hkinds.get hn he

end Passed
end Library.History
