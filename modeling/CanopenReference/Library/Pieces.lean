import Mathlib.Data.List.GetD
import Mathlib.Data.Nat.Notation
import Mathlib.Tactic.Common

/-!
# Cutting a list into pieces

A list cut into pieces of one size, the last one with what is left. All pieces
are multiples of a unit exactly when the whole is, and the size as well unless
one piece holds everything.
-/

set_option autoImplicit false

namespace Library
variable {α : Type*}

def cut (size : ℕ) : ℕ → List α → List (List α)
  | 0, _ => []
  | count+1, xs => xs.take size::cut size count (xs.drop size)

/-- The number of pieces is the length over the size, rounded up. -/
def pieces (size : ℕ) (xs : List α) : List (List α) := cut size ((xs.length+size-1)/size) xs

theorem cut_flatten (size count : ℕ) (xs : List α) (h : xs.length ≤ count*size) :
    (cut size count xs).flatten = xs := by
  induction count generalizing xs with
  | zero =>
    rw [Nat.zero_mul] at h
    rw [List.eq_nil_of_length_eq_zero (Nat.le_zero.mp h)]
    rfl
  | succ count ih =>
    rw [Nat.succ_mul] at h
    rw [cut,List.flatten_cons,ih (xs.drop size) (by rw [List.length_drop]; omega)]
    exact List.take_append_drop size xs

theorem cut_mem (size count : ℕ) (xs : List α) (hsize : 0 < size)
    (h : count*size < xs.length+size) :
    ∀ piece ∈ cut size count xs, piece ≠ [] ∧ piece.length ≤ size := by
  induction count generalizing xs with
  | zero => simp [cut]
  | succ count ih =>
    rw [Nat.succ_mul] at h
    intro piece hp
    rcases List.mem_cons.mp hp with rfl | hp
    · constructor
      · apply List.ne_nil_of_length_pos
        rw [List.length_take]
        omega
      · exact List.length_take_le size xs
    · exact ih (xs.drop size) (by rw [List.length_drop]; omega) piece hp

theorem cut_aligned (unit size count : ℕ) (xs : List α) (hlow : xs.length ≤ count*size)
    (hhigh : count*size < xs.length+size) :
    (∀ piece ∈ cut size count xs, piece.length%unit = 0) ↔
      xs.length%unit = 0 ∧ (xs.length ≤ size ∨ size%unit = 0) := by
  induction count generalizing xs with
  | zero =>
    rw [Nat.zero_mul] at hlow
    simp [cut,Nat.le_zero.mp hlow]
  | succ count ih =>
    rw [Nat.succ_mul] at hlow hhigh
    have hrest := ih (xs.drop size) (by rw [List.length_drop]; omega)
      (by rw [List.length_drop]; omega)
    rw [List.length_drop] at hrest
    rw [cut,List.forall_mem_cons,hrest,List.length_take]
    rcases Nat.lt_or_ge size xs.length with hlt | hle
    · rw [Nat.min_eq_left (Nat.le_of_lt hlt)]
      have hsum : xs.length = xs.length-size+size := by omega
      constructor
      · rintro ⟨hs,hr,_⟩
        refine ⟨?_,Or.inr hs⟩
        rw [hsum,Nat.add_mod,hr,hs]
        rfl
      · rintro ⟨hl,hs⟩
        have hs' : size%unit = 0 := hs.resolve_left (Nat.not_le.mpr hlt)
        refine ⟨hs',?_,Or.inr hs'⟩
        exact Nat.mod_eq_zero_of_dvd (Nat.dvd_sub (Nat.dvd_of_mod_eq_zero hl)
          (Nat.dvd_of_mod_eq_zero hs'))
    · rw [Nat.min_eq_right hle,Nat.sub_eq_zero_of_le hle]
      simp [hle]

section Pieces
variable (size : ℕ) (xs : List α) (hsize : 0 < size)
include hsize

theorem piece_count : xs.length ≤ (xs.length+size-1)/size*size ∧
    (xs.length+size-1)/size*size < xs.length+size := by
  have hd := Nat.div_add_mod (xs.length+size-1) size
  have hm := Nat.mod_lt (xs.length+size-1) hsize
  rw [Nat.mul_comm] at hd
  omega

theorem pieces_flatten : (pieces size xs).flatten = xs :=
  cut_flatten size _ xs (piece_count size xs hsize).1

theorem pieces_mem : ∀ piece ∈ pieces size xs, piece ≠ [] ∧ piece.length ≤ size :=
  cut_mem size _ xs hsize (piece_count size xs hsize).2

theorem pieces_aligned (unit : ℕ) : (∀ piece ∈ pieces size xs, piece.length%unit = 0) ↔
    xs.length%unit = 0 ∧ (xs.length ≤ size ∨ size%unit = 0) :=
  cut_aligned unit size _ xs (piece_count size xs hsize).1 (piece_count size xs hsize).2

end Pieces
theorem slot_mem {size : ℕ} (hsize : 0 < size) (filler x : α) (xs : List α) :
    (∃ piece < (xs.length+size-1)/size, ∃ slot < size, xs.getD (piece*size+slot) filler = x) ↔
      x ∈ xs ∨ (x = filler ∧ xs.length%size ≠ 0) := by
  have hpiece : ∀ piece, piece < (xs.length+size-1)/size ↔ piece*size < xs.length := by
    intro piece
    rw [← Nat.succ_le_iff,Nat.le_div_iff_mul_le hsize,Nat.succ_mul]
    omega
  constructor
  · rintro ⟨piece,hp,slot,hs,hx⟩
    rw [hpiece] at hp
    by_cases hin : piece*size+slot < xs.length
    · rw [List.getD_eq_getElem _ _ hin] at hx
      exact Or.inl (hx ▸ List.getElem_mem hin)
    · rw [List.getD_eq_default _ _ (Nat.not_lt.mp hin)] at hx
      refine Or.inr ⟨hx.symm,fun hmod => ?_⟩
      have hdiv := Nat.div_add_mod xs.length size
      have hlow : piece < xs.length/size := by
        by_contra hc
        have hle := Nat.mul_le_mul_left size (Nat.not_lt.mp hc)
        rw [Nat.mul_comm size piece] at hle
        omega
      have hnext := Nat.mul_le_mul_left size hlow
      rw [Nat.mul_succ,Nat.mul_comm size piece] at hnext
      omega
  · rintro (hx | ⟨rfl,hmod⟩)
    · obtain ⟨n,hn,hget⟩ := List.mem_iff_getElem.mp hx
      have hdiv := Nat.div_add_mod n size
      rw [Nat.mul_comm] at hdiv
      refine ⟨n/size,(hpiece _).mpr (by omega),n%size,Nat.mod_lt n hsize,?_⟩
      rw [hdiv,List.getD_eq_getElem _ _ hn,hget]
    · have hdiv := Nat.div_add_mod xs.length size
      rw [Nat.mul_comm] at hdiv
      refine ⟨xs.length/size,(hpiece _).mpr (by omega),xs.length%size,Nat.mod_lt _ hsize,?_⟩
      rw [hdiv,List.getD_eq_default _ _ (Nat.le_refl _)]

end Library
