import Mathlib.Algebra.Group.Nat.Defs
import Mathlib.Tactic.Common

/-!
# Wrapping 32-bit counters

Two counters are compared by the sign of their wrapped difference, so the
order is the intended one while they lie within half a turn of each other.
-/

set_option autoImplicit false

namespace Library.Clock

/-- `a` is at or after `b`: the signed wrapped difference is not negative. -/
def reached (a b : UInt32) : Bool := decide (0 ≤ (a-b).toInt32)

theorem reached_next (s : UInt32) : reached (s+1) s = true := by
  have h : s+1-s = 1 := by rw [UInt32.add_comm,UInt32.add_sub_cancel]
  simp [reached,h]

theorem not_reached_later {w : UInt32} (hw : (-w).toInt32 < 0) (s : UInt32) :
    reached s (s+w) = false := by
  have h : s-(s+w) = -w := by
    rw [UInt32.sub_eq_add_neg,UInt32.neg_add,UInt32.sub_eq_add_neg,← UInt32.add_assoc,
      UInt32.add_right_neg,UInt32.zero_add]
  rw [reached,h]
  simpa using hw

/-- A deadline that lies ahead in real time, by half a turn at most, is not
reached on the counter. -/
theorem not_reached_before {now deadline : ℕ} (h : now < deadline)
    (hspan : deadline ≤ now+2^31) :
    reached (UInt32.ofNat now) (UInt32.ofNat deadline) = false := by
  obtain ⟨d,rfl⟩ := Nat.exists_eq_add_of_le (Nat.le_of_lt h)
  have hd : 0 < d ∧ d ≤ 2^31 := by omega
  have hsize : UInt32.size = 2^32 := rfl
  have hneg : (-UInt32.ofNat d).toNat = 2^32-d := by
    rw [UInt32.toNat_neg,UInt32.toNat_ofNat_of_lt' (by omega),hsize]
    exact Nat.mod_eq_of_lt (by omega)
  rw [UInt32.ofNat_add]
  apply not_reached_later
  rw [Int32.lt_iff_toInt_lt]
  show (-UInt32.ofNat d).toBitVec.toInt < 0
  rw [BitVec.toInt_eq_toNat_cond]
  show (if 2*(-UInt32.ofNat d).toNat < 2^32 then ((-UInt32.ofNat d).toNat : Int) else _) < 0
  rw [hneg,if_neg (by omega)]
  show (((-UInt32.ofNat d).toNat : Int)-((2^32 : ℕ) : Int)) < 0
  rw [hneg]
  omega

theorem elapsed_le {past now : ℕ} (h : past ≤ now) :
    (UInt32.ofNat now-UInt32.ofNat past).toNat ≤ now-past := by
  obtain ⟨d,rfl⟩ := Nat.exists_eq_add_of_le h
  rw [UInt32.ofNat_add,UInt32.add_comm,UInt32.add_sub_cancel,Nat.add_sub_cancel_left]
  exact Nat.mod_le d _

theorem elapsed_mod {past now : ℕ} (h : past ≤ now) :
    (UInt32.ofNat now-UInt32.ofNat past).toNat = (now-past)%2^32 := by
  obtain ⟨d,rfl⟩ := Nat.exists_eq_add_of_le h
  rw [UInt32.ofNat_add,UInt32.add_comm,UInt32.add_sub_cancel,Nat.add_sub_cancel_left]
  rfl

theorem elapsed_eq {past now : ℕ} (h : past ≤ now) (hspan : now < past+2^32) :
    (UInt32.ofNat now-UInt32.ofNat past).toNat = now-past := by
  rw [elapsed_mod h]
  exact Nat.mod_eq_of_lt (by omega)

/-- A time that has come shows as reached for half a turn, and then for the
first half of every further turn. -/
theorem reached_iff {past now : ℕ} (h : past ≤ now) :
    reached (UInt32.ofNat now) (UInt32.ofNat past) = true ↔ (now-past)%2^32 < 2^31 := by
  have hmod := elapsed_mod h
  have hlt := Nat.mod_lt (now-past) (show 0 < 2^32 by decide)
  rw [reached,decide_eq_true_iff,Int32.le_iff_toInt_le]
  show 0 ≤ (UInt32.ofNat now-UInt32.ofNat past).toBitVec.toInt ↔ _
  have hnat : (UInt32.ofNat now-UInt32.ofNat past).toBitVec.toNat = (now-past)%2^32 := hmod
  rw [BitVec.toInt_eq_toNat_cond,hnat]
  by_cases hhalf : 2*((now-past)%2^32) < 2^32
  · rw [if_pos hhalf]
    omega
  · rw [if_neg hhalf]
    omega

theorem stamp_back {past now : ℕ} (h : past ≤ now) :
    let back := (UInt32.ofNat now-UInt32.ofNat past).toNat
    back ≤ now ∧ UInt32.ofNat past = UInt32.ofNat (now-back) := by
  intro back
  have hback : back = (now-past)%2^32 := elapsed_mod h
  have hle : back ≤ now-past := hback ▸ Nat.mod_le _ _
  refine ⟨by omega,?_⟩
  apply UInt32.toNat_inj.mp
  show past%2^32 = (now-back)%2^32
  omega

theorem not_reached_next (s : UInt32) : reached s (s+1) = false :=
  not_reached_later (by decide) s

end Library.Clock
