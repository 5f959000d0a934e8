import CanopenReference.Library.Buffer

/-!
# A ring as a queue

A buffer whose entries from a tail index up to a head index are yet to be read.
An entry is stored at the head and taken at the tail; one slot stays free, so
that a full ring can be told from an empty one.
-/

set_option autoImplicit false

namespace Library.Queue
variable {α : Type*} {n : ℕ}

def advance (n index : ℕ) : ℕ := if index+1 = n then 0 else index+1

/-- The slot that lies `i` places behind an index. -/
def place (n index i : ℕ) : ℕ := if index+i < n then index+i else index+i-n

/-- The number of entries from `tail` up to `head`. -/
def count (n tail head : ℕ) : ℕ := if tail ≤ head then head-tail else n+head-tail

/-- The entries from `tail` up to `head`, the oldest first. -/
def unread (b : Buffer α n) (d : α) (tail head : ℕ) : List α :=
  (List.range (count n tail head)).map fun i => b.cell (place n tail i) d

section Indices
variable {tail head : ℕ}

theorem advance_lt (h : head < n) : advance n head < n := by
  unfold advance
  split <;> omega

theorem count_lt (ht : tail < n) (hh : head < n) : count n tail head < n := by
  unfold count
  split <;> omega

theorem place_count (ht : tail < n) (hh : head < n) : place n tail (count n tail head) = head := by
  unfold place count
  split <;> split <;> omega

theorem place_injective {i j : ℕ} (hi : i < n) (hj : j < n)
    (h : place n tail i = place n tail j) : i = j := by
  unfold place at h
  split at h <;> split at h <;> omega

theorem place_advance {i : ℕ} (hi : i+1 < n) :
    place n (advance n tail) i = place n tail (i+1) := by
  unfold place advance
  split <;> split <;> split <;> omega

theorem count_empty (ht : tail < n) : count n tail head = 0 ↔ tail = head := by
  unfold count
  split <;> omega

theorem count_full (ht : tail < n) (hh : head < n) :
    advance n head = tail ↔ count n tail head+1 = n := by
  unfold advance count
  split <;> split <;> omega

theorem count_push (ht : tail < n) (hroom : advance n head ≠ tail) :
    count n tail (advance n head) = count n tail head+1 := by
  unfold advance at hroom ⊢
  unfold count
  by_cases hlast : head+1 = n
  · rw [if_pos hlast] at hroom ⊢
    split <;> split <;> omega
  · rw [if_neg hlast] at hroom ⊢
    split <;> split <;> omega

theorem count_pop (ht : tail < n) (hh : head < n) (hsome : tail ≠ head) :
    count n tail head = count n (advance n tail) head+1 := by
  unfold advance count
  split <;> split <;> split <;> omega

end Indices

section Entries
variable {b : Buffer α n} {d : α} {tail head : ℕ}

theorem unread_length : (unread b d tail head).length = count n tail head := by
  simp [unread]

theorem unread_none (ht : tail < n) : unread b d tail tail = [] := by
  rw [← List.length_eq_zero_iff,unread_length,count_empty ht]

theorem unread_push (ht : tail < n) (hh : head < n) (hroom : advance n head ≠ tail) (x : α) :
    unread (b.write head [x]) d tail (advance n head) = unread b d tail head++[x] := by
  have hlast : (b.write head [x]).cell head d = x := by
    have hcells := b.write_cells head [x] (by simp; omega)
    have hsize := b.size
    rw [Buffer.cell,List.getD_eq_getElem?_getD,hcells,List.append_assoc,
      List.getElem?_append_right (by rw [List.length_take]; omega)]
    simp [hsize,Nat.min_eq_left (Nat.le_of_lt hh)]
  rw [unread,count_push ht hroom,List.range_succ,List.map_append,List.map_singleton,
    place_count ht hh,hlast,unread]
  congr 1
  apply List.map_congr_left
  intro i hi
  have hcount := count_lt ht hh
  have hlow := List.mem_range.mp hi
  have hother : place n tail i ≠ head := by
    intro hp
    have := place_injective (by omega) hcount (hp.trans (place_count ht hh).symm)
    omega
  rcases Nat.lt_or_gt_of_ne hother with hlt | hgt
  · exact b.cell_write_before head _ [x] d hlt
  · exact b.cell_write_after head _ [x] d (by simp; omega) (by simp; omega)

theorem unread_pop (ht : tail < n) (hh : head < n) (hsome : tail ≠ head) :
    unread b d tail head = b.cell tail d::unread b d (advance n tail) head := by
  have hcount := count_lt ht hh
  have hpop := count_pop ht hh hsome
  have hfirst : place n tail 0 = tail := if_pos ht
  rw [unread,hpop,List.range_succ_eq_map,List.map_cons,hfirst,List.map_map,unread]
  congr 1
  apply List.map_congr_left
  intro i hi
  have hlow := List.mem_range.mp hi
  rw [Function.comp_apply,place_advance (by omega)]

end Entries
end Library.Queue
