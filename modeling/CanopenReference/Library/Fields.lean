import Mathlib.Algebra.Group.Int.Defs
import Mathlib.Algebra.Group.Nat.Defs
import Mathlib.Tactic.Common

/-!
# Bit fields and bytes of numbers

Masks and shifts of natural numbers as quotients and remainders, and numbers as
bytes, low byte first.
-/

set_option autoImplicit false

namespace Library

theorem field_read (x low width : ℕ) : (x >>> low) &&& (2^width-1) = x/2^low%2^width := by
  rw [Nat.and_two_pow_sub_one_eq_mod,Nat.shiftRight_eq_div_pow]

theorem field_mask (x low width : ℕ) :
    x &&& ((2^width-1) <<< low) = x/2^low%2^width*2^low := by
  rw [← field_read,← Nat.shiftLeft_eq,Nat.shiftLeft_and_distrib]
  refine Nat.eq_of_testBit_eq fun i => ?_
  simp only [Nat.testBit_and,Nat.testBit_shiftLeft,Nat.testBit_shiftRight]
  by_cases h : low ≤ i
  · simp [h]
  · simp [h]

theorem field_join {x y low : ℕ} (hx : x%2^low = 0) (hy : y < 2^low) : x ||| y = x+y := by
  obtain ⟨k,rfl⟩ := Nat.dvd_of_mod_eq_zero hx
  exact (Nat.two_pow_add_eq_or_of_lt hy k).symm

def littleEndian : ℕ → ℕ → List UInt8
  | 0, _ => []
  | count+1, v => UInt8.ofNat v::littleEndian count (v/256)

def littleValue : List UInt8 → ℕ
  | [] => 0
  | byte::bytes => byte.toNat+256*littleValue bytes

@[simp] theorem little_length (count v : ℕ) : (littleEndian count v).length = count := by
  induction count generalizing v with
  | zero => rfl
  | succ count ih => simp [littleEndian,ih]

theorem little_value (count v : ℕ) : littleValue (littleEndian count v) = v%256^count := by
  induction count generalizing v with
  | zero => simp [littleEndian,littleValue,Nat.mod_one]
  | succ count ih =>
    have hbyte : (UInt8.ofNat v).toNat = v%256 := UInt8.toNat_ofNat'
    rw [littleEndian,littleValue,ih,hbyte,Nat.pow_succ,Nat.mul_comm (256^count) 256,Nat.mod_mul]

theorem little_take {count k : ℕ} (h : k ≤ count) (v : ℕ) :
    (littleEndian count v).take k = littleEndian k v := by
  induction k generalizing count v with
  | zero => rfl
  | succ k ih =>
    obtain ⟨count,rfl⟩ : ∃ n, count = n+1 := ⟨count-1,by omega⟩
    rw [littleEndian,littleEndian,List.take_succ_cons,ih (by omega)]

theorem little_zero (count : ℕ) : littleEndian count 0 = List.replicate count 0 := by
  induction count with
  | zero => rfl
  | succ count ih =>
    rw [littleEndian,Nat.zero_div,ih]
    rfl

theorem little_byte (x : UInt8) : littleEndian 1 x.toNat = [x] := by
  show [UInt8.ofNat x.toNat] = _
  rw [UInt8.ofNat_toNat]

theorem value_zeros (bytes : List UInt8) (k : ℕ) :
    littleValue (bytes++List.replicate k 0) = littleValue bytes := by
  have hzeros : littleValue (List.replicate k 0) = 0 := by
    induction k with
    | zero => rfl
    | succ k ih =>
      show 0+256*littleValue (List.replicate k 0) = 0
      rw [ih]
  induction bytes with
  | nil => exact hzeros
  | cons byte bytes ih => rw [List.cons_append,littleValue,littleValue,ih]

def signedValue (bytes : List UInt8) : ℤ := (littleValue bytes : ℤ).bmod (256^bytes.length)

theorem signed_value {count : ℕ} {v : ℤ} (hlow : -((256^(count+1)/2 : ℕ) : ℤ) ≤ v)
    (hhigh : v < ((256^(count+1)/2 : ℕ) : ℤ)) :
    signedValue (littleEndian (count+1) (v%((256^(count+1) : ℕ) : ℤ)).toNat) = v := by
  have hpos : 0 < 256^(count+1) := Nat.pow_pos (by decide)
  have hmod : (v%((256^(count+1) : ℕ) : ℤ)).toNat%256^(count+1) = (v%((256^(count+1) : ℕ) : ℤ)).toNat := by
    refine Nat.mod_eq_of_lt ?_
    have hlt := Int.emod_lt_of_pos v (Int.natCast_pos.mpr hpos)
    omega
  have hnonneg := Int.emod_nonneg v (Int.natCast_ne_zero.mpr (Nat.ne_of_gt hpos))
  rw [signedValue,little_length,little_value,hmod,Int.toNat_of_nonneg hnonneg,Int.emod_bmod]
  exact Int.bmod_eq_of_le hlow (by omega)

end Library
