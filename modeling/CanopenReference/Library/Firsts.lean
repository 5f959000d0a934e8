import Mathlib.Data.List.Infix
import Mathlib.Data.Nat.Notation

/-!
# The first distinct items

A table of bounded size that takes each item once, in the order in which the
items come. What the table holds depends on the items alone: it is the front of
them without their repetitions.
-/

set_option autoImplicit false

namespace Library

variable {α : Type*} [DecidableEq α]

/-- The first `capacity` different items. -/
def firsts (capacity : ℕ) (as : List α) : List α := as.eraseDups.take capacity

theorem erase_dups_concat (as : List α) (a : α) :
    (as++[a]).eraseDups = if a ∈ as then as.eraseDups else as.eraseDups++[a] := by
  rw [List.eraseDups_append]
  by_cases h : a ∈ as <;> simp [List.removeAll,h,List.eraseDups_cons]

theorem erase_dups_nodup (as : List α) : as.eraseDups.Nodup := by
  induction as using List.reverseRecOn with
  | nil => simp
  | append_singleton as a ih =>
    rw [erase_dups_concat]
    split
    · exact ih
    · rename_i ha
      refine List.nodup_append.mpr ⟨ih,by simp,fun x hx y hy => ?_⟩
      rintro rfl
      rw [List.mem_singleton] at hy
      rw [hy,List.mem_eraseDups] at hx
      exact ha hx

theorem firsts_nodup (capacity : ℕ) (as : List α) : (firsts capacity as).Nodup :=
  (erase_dups_nodup as).sublist (List.take_sublist _ _)

theorem firsts_length (capacity : ℕ) (as : List α) : (firsts capacity as).length ≤ capacity :=
  List.length_take_le _ _

theorem firsts_mem {capacity : ℕ} {as : List α} {a : α} (h : a ∈ firsts capacity as) : a ∈ as :=
  List.mem_eraseDups.mp (List.mem_of_mem_take h)

theorem firsts_front (capacity : ℕ) (as bs : List α) :
    firsts capacity as <+: firsts capacity (as++bs) := by
  rw [firsts,firsts,List.eraseDups_append]
  exact (List.prefix_append _ _).take capacity

theorem firsts_concat (capacity : ℕ) (as : List α) (a : α) :
    firsts capacity (as++[a]) =
      if a ∈ firsts capacity as ∨ capacity ≤ (firsts capacity as).length then firsts capacity as
      else firsts capacity as++[a] := by
  have hlen : (firsts capacity as).length = min capacity as.eraseDups.length :=
    List.length_take
  by_cases hfull : capacity ≤ as.eraseDups.length
  · -- the table is full: nothing behind its end shows
    rw [if_pos (Or.inr (by omega)),firsts,erase_dups_concat]
    split
    · rfl
    · exact List.take_append_of_le_length hfull
  · have hall : firsts capacity as = as.eraseDups := List.take_of_length_le (by omega)
    have hroom : ¬capacity ≤ as.eraseDups.length := hfull
    rw [hall,firsts,erase_dups_concat]
    by_cases ha : a ∈ as
    · rw [if_pos ha,if_pos (Or.inl (List.mem_eraseDups.mpr ha))]
      exact hall
    · rw [if_neg ha,if_neg (by simp [ha,hroom])]
      exact List.take_of_length_le (by simp; omega)

end Library
