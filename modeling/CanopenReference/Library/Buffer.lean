import Mathlib.Data.Nat.Notation
import Mathlib.Tactic.Common

/-!
# Fixed-size buffers

A buffer carries its size as a field, so no write can grow or shrink it. A
write drops what would fall beyond the end; a caller that never writes there
shows that its range fits.
-/

set_option autoImplicit false

namespace Library

structure Buffer (α : Type*) (n : ℕ) where
  cells : List α
  size : cells.length = n
  deriving DecidableEq

namespace Buffer
variable {α : Type*} {n : ℕ}

def blank (n : ℕ) (x : α) : Buffer α n := ⟨List.replicate n x,List.length_replicate⟩

/-- The first `k` cells. -/
def front (b : Buffer α n) (k : ℕ) : List α := b.cells.take k

/-- At most `len` cells from index `start` on. -/
def slice (b : Buffer α n) (start len : ℕ) : List α := (b.cells.drop start).take len

/-- The cell at index `i`, read as `d` outside the buffer. -/
def cell (b : Buffer α n) (i : ℕ) (d : α) : α := b.cells.getD i d

/-- Store `xs` from index `start` on. -/
def write (b : Buffer α n) (start : ℕ) (xs : List α) : Buffer α n where
  cells := (b.cells.take start++xs++b.cells.drop (start+xs.length)).take n
  size := by
    have h := b.size
    simp only [List.length_take,List.length_append,List.length_drop]
    omega

theorem write_cells (b : Buffer α n) (start : ℕ) (xs : List α) (h : start+xs.length ≤ n) :
    (b.write start xs).cells = b.cells.take start++xs++b.cells.drop (start+xs.length) := by
  have hb := b.size
  apply List.take_of_length_le
  simp only [List.length_append,List.length_take,List.length_drop]
  omega

theorem front_write (b : Buffer α n) (start : ℕ) (xs : List α) (h : start+xs.length ≤ n) :
    (b.write start xs).front (start+xs.length) = b.front start++xs := by
  have hb := b.size
  rw [front,write_cells b start xs h]
  apply List.take_left'
  simp only [List.length_append,List.length_take]
  omega

theorem front_write_zero (b : Buffer α n) (xs : List α) (h : xs.length ≤ n) :
    (b.write 0 xs).front xs.length = xs := by
  simpa [front] using front_write b 0 xs (by omega)

theorem head_write_zero (b : Buffer α n) (x : α) (xs : List α) (k : ℕ) (hk : 0 < k)
    (h : xs.length < n) : ((b.write 0 (x::xs)).front k).head? = some x := by
  obtain ⟨k,rfl⟩ := Nat.exists_eq_succ_of_ne_zero (Nat.ne_of_gt hk)
  rw [front,write_cells b 0 (x::xs) (by simp; omega)]
  rfl

theorem slice_front (b : Buffer α n) (start len k : ℕ) (hl : start+len ≤ k) :
    b.slice start len = ((b.front k).drop start).take len := by
  rw [front,List.drop_take,List.take_take,Nat.min_eq_left (by omega),slice]

theorem front_slice (b : Buffer α n) {xs : List α} (h : b.front xs.length = xs) (start len : ℕ)
    (hl : start+len ≤ xs.length) : b.slice start len = (xs.drop start).take len := by
  rw [slice_front b start len xs.length hl,h]

theorem front_write_before (b : Buffer α n) (start k : ℕ) (xs : List α) (hk : k ≤ start) :
    (b.write start xs).front k = b.front k := by
  have hb := b.size
  have hfront : b.front k = b.cells.take (min k n) := by
    rw [front,List.take_eq_take_iff]
    omega
  show ((b.cells.take start++xs++b.cells.drop (start+xs.length)).take n).take k = b.front k
  rw [hfront,List.take_take,List.append_assoc,List.take_append_of_le_length,List.take_take]
  · congr 1
    omega
  · rw [List.length_take]
    omega

theorem cell_write_after (b : Buffer α n) (start i : ℕ) (xs : List α) (d : α)
    (hi : start+xs.length ≤ i) (h : start+xs.length ≤ n) :
    (b.write start xs).cell i d = b.cell i d := by
  have hb := b.size
  have hl : (b.cells.take start++xs).length = start+xs.length := by
    simp only [List.length_append,List.length_take]
    omega
  simp only [cell,List.getD_eq_getElem?_getD]
  rw [write_cells b start xs h,List.getElem?_append_right (by omega),hl,List.getElem?_drop,
    Nat.add_sub_cancel' hi]

theorem cell_front (b : Buffer α n) (i k : ℕ) (d : α) (h : i < k) :
    b.cell i d = (b.front k).getD i d := by
  simp [cell,front,List.getD_eq_getElem?_getD,h]

theorem cell_write_before (b : Buffer α n) (start i : ℕ) (xs : List α) (d : α)
    (hi : i < start) : (b.write start xs).cell i d = b.cell i d := by
  rw [cell_front _ i (i+1) d (by omega),front_write_before b start (i+1) xs hi,
    ← cell_front b i (i+1) d (by omega)]

theorem cell_write_head (b : Buffer α n) (x : α) (xs : List α) (d : α) (h : 0 < n) :
    (b.write 0 (x::xs)).cell 0 d = x := by
  obtain ⟨n,rfl⟩ := Nat.exists_eq_succ_of_ne_zero (Nat.ne_of_gt h)
  rfl

theorem mem_write (b : Buffer α n) (start : ℕ) (xs : List α) (x : α)
    (h : x ∈ (b.write start xs).cells) : x ∈ b.cells ∨ x ∈ xs := by
  rcases List.mem_append.mp (List.mem_of_mem_take h) with hx | hx
  · rcases List.mem_append.mp hx with hx | hx
    · exact Or.inl (List.mem_of_mem_take hx)
    · exact Or.inr hx
  · exact Or.inl (List.mem_of_mem_drop hx)

theorem cell_mem (b : Buffer α n) (i : ℕ) (d : α) : b.cell i d ∈ b.cells ∨ b.cell i d = d := by
  rw [cell,List.getD_eq_getElem?_getD]
  cases h : b.cells[i]? with
  | none => exact Or.inr rfl
  | some x => exact Or.inl (List.mem_of_getElem? h)

theorem front_length (b : Buffer α n) (k : ℕ) (h : k ≤ n) : (b.front k).length = k := by
  simp [front,b.size,h]

theorem front_size (b : Buffer α n) : b.front n = b.cells :=
  List.take_of_length_le (Nat.le_of_eq b.size)

end Buffer
end Library
