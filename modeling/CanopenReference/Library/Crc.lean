import Mathlib.Algebra.CharP.Two
import Mathlib.Algebra.Field.ZMod
import Mathlib.Algebra.Polynomial.Div

/-!
# Reflected cyclic redundancy checks

A check register that shifts towards its low end, read as a polynomial over the
field of two elements with the low bit as the highest coefficient. Feeding a
message leaves the remainder of the message polynomial by the generator.
-/

set_option autoImplicit false

namespace Library.Crc
open Polynomial

variable {w : ℕ}

noncomputable def registerPoly (r : BitVec w) : Polynomial (ZMod 2) :=
  ∑ d ∈ Finset.range w, if r.getMsbD d then X^d else 0

noncomputable def generator (g : BitVec w) : Polynomial (ZMod 2) := X^w+registerPoly g

def shift (g r : BitVec w) : BitVec w := (r >>> 1) ^^^ (if r.getLsbD 0 then g else 0)

def absorb (g r : BitVec w) (byte : BitVec 8) : BitVec w :=
  Nat.repeat (shift g) 8 (r ^^^ byte.setWidth w)

noncomputable def messagePoly : List (BitVec 8) → Polynomial (ZMod 2)
  | [] => 0
  | byte::rest => X^(8*rest.length)*registerPoly byte+messagePoly rest

theorem term_coeff (b : Bool) (k d : ℕ) :
    (if b then (X : Polynomial (ZMod 2))^k else 0).coeff d = if d = k ∧ b then 1 else 0 := by
  cases b <;> simp [coeff_X_pow]

theorem register_coeff (r : BitVec w) (d : ℕ) :
    (registerPoly r).coeff d = if r.getMsbD d then 1 else 0 := by
  rw [registerPoly,finsetSum_coeff]
  simp only [term_coeff,ite_and,Finset.sum_ite_eq,Finset.mem_range]
  by_cases hd : d < w
  · rw [if_pos hd]
  · rw [if_neg hd,BitVec.getMsbD_of_ge _ _ (Nat.le_of_not_lt hd)]
    rfl

theorem register_degree (r : BitVec w) : (registerPoly r).degree < w := by
  rw [degree_lt_iff_coeff_zero]
  intro d hd
  rw [register_coeff,BitVec.getMsbD_of_ge _ _ hd]
  rfl

theorem register_injective {r s : BitVec w} (h : registerPoly r = registerPoly s) : r = s := by
  apply BitVec.eq_of_getMsbD_eq
  intro d _
  have hcoeff := congrArg (fun p => p.coeff d) h
  simp only [register_coeff] at hcoeff
  cases hr : r.getMsbD d <;> cases hs : s.getMsbD d <;> simp [hr,hs] at hcoeff ⊢

theorem register_xor (r s : BitVec w) :
    registerPoly (r ^^^ s) = registerPoly r+registerPoly s := by
  have htwo : (1 : ZMod 2)+1 = 0 := by decide
  ext d
  rw [coeff_add,register_coeff,register_coeff,register_coeff,BitVec.getMsbD_xor]
  cases r.getMsbD d <;> cases s.getMsbD d <;> simp [htwo]

theorem generator_monic (g : BitVec w) : (generator g).Monic :=
  monic_X_pow_add (register_degree g)

theorem generator_degree (g : BitVec w) : (generator g).degree = w := by
  rw [generator,degree_add_eq_left_of_degree_lt]
  · exact degree_X_pow w
  · rw [degree_X_pow]
    exact register_degree g

theorem register_halved (r : BitVec w) :
    registerPoly (r >>> 1)+(if r.getLsbD 0 then X^w else 0) = X*registerPoly r := by
  ext d
  rw [coeff_add,register_coeff,term_coeff,BitVec.getMsbD_ushiftRight]
  cases d with
  | zero =>
    rw [coeff_X_mul_zero]
    cases w with
    | zero => simp
    | succ w => simp
  | succ d =>
    rw [coeff_X_mul,register_coeff]
    by_cases htop : d+1 = w
    · have hlow : r.getMsbD d = r.getLsbD 0 := by
        rw [BitVec.getMsbD_eq_getLsbD,show w-1-d = 0 by omega]
        simp [show d < w by omega]
      simp [htop,hlow]
    · by_cases hd : d+1 < w
      · simp [htop,hd]
      · rw [BitVec.getMsbD_of_ge r d (by omega)]
        simp [htop,hd]

theorem register_widened (byte : BitVec 8) (hw : 8 ≤ w) :
    registerPoly (byte.setWidth w) = X^(w-8)*registerPoly byte := by
  ext d
  rw [register_coeff,coeff_X_pow_mul',register_coeff,BitVec.getMsbD_setWidth]
  by_cases hd : w-8 ≤ d
  · rw [show d+8-w = d-(w-8) by omega]
    simp [hd]
  · simp [hd]

theorem shift_step (g r : BitVec w) : generator g ∣ registerPoly (shift g r)-X*registerPoly r := by
  have hhalf := register_halved r
  unfold shift
  rw [register_xor,← hhalf,generator]
  cases r.getLsbD 0 with
  | false => simp [registerPoly]
  | true =>
    simp only [if_true]
    rw [add_sub_add_left_eq_sub,CharTwo.sub_eq_add,add_comm]

theorem shift_steps (g r : BitVec w) (k : ℕ) :
    generator g ∣ registerPoly (Nat.repeat (shift g) k r)-X^k*registerPoly r := by
  induction k with
  | zero => simp [Nat.repeat]
  | succ k ih =>
    have hstep := shift_step g (Nat.repeat (shift g) k r)
    have hsum := dvd_add hstep (ih.mul_left X)
    have heq : registerPoly (Nat.repeat (shift g) (k+1) r)-X^(k+1)*registerPoly r =
        registerPoly (shift g (Nat.repeat (shift g) k r))-X*registerPoly (Nat.repeat (shift g) k r)+
          X*(registerPoly (Nat.repeat (shift g) k r)-X^k*registerPoly r) := by
      show registerPoly (shift g (Nat.repeat (shift g) k r))-_ = _
      ring
    rw [heq]
    exact hsum

theorem absorb_step (g r : BitVec w) (byte : BitVec 8) (hw : 8 ≤ w) :
    generator g ∣
      registerPoly (absorb g r byte)-(X^8*registerPoly r+X^w*registerPoly byte) := by
  have h := shift_steps g (r ^^^ byte.setWidth w) 8
  rw [register_xor,register_widened byte hw,mul_add,← mul_assoc,← pow_add,
    Nat.add_sub_cancel' hw] at h
  exact h

theorem absorb_message (g r : BitVec w) (message : List (BitVec 8)) (hw : 8 ≤ w) :
    registerPoly (message.foldl (absorb g) r) =
      (X^(8*message.length)*registerPoly r+X^w*messagePoly message) %ₘ generator g := by
  have hdvd : generator g ∣ registerPoly (message.foldl (absorb g) r)-
      (X^(8*message.length)*registerPoly r+X^w*messagePoly message) := by
    induction message generalizing r with
    | nil => simp [messagePoly]
    | cons byte rest ih =>
      have hstep := (absorb_step g r byte hw).mul_left (X^(8*rest.length))
      have hsum := dvd_add (ih (absorb g r byte)) hstep
      have heq : registerPoly ((byte::rest).foldl (absorb g) r)-
          (X^(8*(byte::rest).length)*registerPoly r+X^w*messagePoly (byte::rest)) =
          registerPoly (rest.foldl (absorb g) (absorb g r byte))-
              (X^(8*rest.length)*registerPoly (absorb g r byte)+X^w*messagePoly rest)+
            X^(8*rest.length)*(registerPoly (absorb g r byte)-
              (X^8*registerPoly r+X^w*registerPoly byte)) := by
        simp only [List.foldl_cons,List.length_cons,messagePoly]
        ring
      rw [heq]
      exact hsum
  rw [← modByMonic_eq_of_dvd_sub (generator_monic g) hdvd]
  refine ((modByMonic_eq_self_iff (generator_monic g)).mpr ?_).symm
  rw [generator_degree]
  exact register_degree _

end Library.Crc
