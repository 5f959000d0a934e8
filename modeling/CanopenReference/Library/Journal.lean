import CanopenReference.Library.Clock

/-!
# A two-slot journal

Each slot is empty or holds a numbered value. A new value takes the number
after the current one and the slot that does not hold it, so that emptying the
slot to be rewritten loses nothing and filling it makes the new value current,
also where the numbers wrap. Raising the number in that slot is another matter:
it may overtake the current one.
-/

set_option autoImplicit false

namespace Library

structure Journal (α : Type*) where
  a : Option (UInt32 × α)
  b : Option (UInt32 × α)

namespace Journal
variable {α : Type*}

inductive Side where
  | a
  | b
  deriving DecidableEq

def get (j : Journal α) : Side → Option (UInt32 × α)
  | .a => j.a
  | .b => j.b

def put (j : Journal α) (side : Side) (x : Option (UInt32 × α)) : Journal α :=
  match side with
  | .a => { j with a := x }
  | .b => { j with b := x }

def newest (j : Journal α) : Option Side :=
  match j.a, j.b with
  | none, none => none
  | none, some _ => some .b
  | some _, none => some .a
  | some x, some y => if Clock.reached x.1 y.1 then some .a else some .b

/-- The slot a new value is written to. -/
def target (j : Journal α) : Side := if newest j = some .a then .b else .a

def current (j : Journal α) : Option (UInt32 × α) := (newest j).bind j.get

def nextNumber (j : Journal α) : UInt32 :=
  match current j with
  | none => 1
  | some x => x.1+1

theorem current_put_none (j : Journal α) : current (j.put (target j) none) = current j := by
  obtain ⟨a,b⟩ := j
  cases a with
  | none => cases b <;> rfl
  | some x =>
    cases b with
    | none => rfl
    | some y =>
      cases h : Clock.reached x.1 y.1 <;> simp [current,newest,target,put,get,h]

theorem current_put_next (j : Journal α) (v : α) :
    current (j.put (target j) (some (nextNumber j,v))) = some (nextNumber j,v) := by
  obtain ⟨a,b⟩ := j
  cases a with
  | none =>
    cases b with
    | none => rfl
    | some y =>
      simp [current,newest,target,put,get,nextNumber,Clock.reached_next]
  | some x =>
    cases b with
    | none =>
      simp [current,newest,target,put,get,nextNumber,Clock.not_reached_next]
    | some y =>
      cases h : Clock.reached x.1 y.1 <;>
        simp [current,newest,target,put,get,nextNumber,h,Clock.reached_next,
          Clock.not_reached_next]

def Side.other : Side → Side
  | .a => .b
  | .b => .a

def ahead : Side → UInt32 → UInt32 → Bool
  | .a, x, y => Clock.reached x y
  | .b, x, y => !Clock.reached y x

theorem newest_iff (j : Journal α) (side : Side) :
    newest j = some side ↔ ∃ x, j.get side = some x ∧
      ∀ y, j.get side.other = some y → ahead side x.1 y.1 = true := by
  obtain ⟨a,b⟩ := j
  cases a with
  | none => cases b <;> cases side <;> simp [newest,get,Side.other]
  | some x =>
    cases b with
    | none => cases side <;> simp [newest,get,Side.other]
    | some y =>
      cases h : Clock.reached x.1 y.1 <;> cases side <;>
        simp [newest,get,Side.other,ahead,h]

@[simp] theorem get_put (j : Journal α) (side : Side) (x : Option (UInt32 × α)) :
    (j.put side x).get side = x := by
  cases side <;> rfl

@[simp] theorem get_put_other (j : Journal α) (side : Side) (x : Option (UInt32 × α)) :
    (j.put side.other x).get side = j.get side := by
  cases side <;> rfl

/-- In a journal that was filled from the start, the values of the first side
have the odd numbers. -/
def Side.parity : Side → ℕ
  | .a => 0
  | .b => 1

/-- What new values leave behind them: the current one in `side`, and before it
the one with the number `s`, if any. -/
structure Consecutive (j : Journal α) (side : Side) (s : UInt32) (v : α) : Prop where
  current : j.get side = some (s+1,v)
  previous : ∀ x, j.get side.other = some x → x.1 = s
  parity : s.toNat%2 = side.parity

section Consecutive
variable {j : Journal α} {side : Side} {s : UInt32} {v : α}

theorem ahead_next (side : Side) (s : UInt32) : ahead side (s+1) s = true := by
  cases side with
  | a => exact Clock.reached_next s
  | b => simp [ahead,Clock.not_reached_next]

theorem consecutive_newest (h : Consecutive j side s v) : newest j = some side := by
  refine (newest_iff j side).mpr ⟨_,h.current,fun y hy => ?_⟩
  rw [h.previous y hy]
  exact ahead_next side s

theorem consecutive_target (h : Consecutive j side s v) : target j = side.other := by
  rw [target,consecutive_newest h]
  cases side <;> rfl

theorem consecutive_number (h : Consecutive j side s v) : nextNumber j = s+1+1 := by
  rw [nextNumber,Journal.current,consecutive_newest h,Option.bind_some,h.current]

theorem consecutive_first (v : α) :
    Consecutive (put ⟨none,none⟩ .a (some (1,v))) .a 0 v := by
  refine ⟨rfl,fun x hx => ?_,rfl⟩
  cases hx

theorem consecutive_put (h : Consecutive j side s v) (v' : α) :
    Consecutive (j.put (target j) (some (nextNumber j,v'))) side.other (s+1) v' := by
  have hback : side.other.other = side := by cases side <;> rfl
  rw [consecutive_target h,consecutive_number h]
  refine ⟨get_put j _ _,fun x hx => ?_,?_⟩
  · rw [hback,get_put_other,h.current] at hx
    cases hx
    rfl
  · have hparity := h.parity
    have hnext : (s+1).toNat = (s.toNat+1)%2^32 := UInt32.toNat_add s 1
    rw [hnext]
    cases side <;> simp only [Side.parity,Side.other] at hparity ⊢ <;> omega

theorem consecutive_overtaken (h : Consecutive j side s v) (x : UInt32 × α)
    (hahead : ahead side.other x.1 (s+1) = true) :
    Journal.current (j.put side.other (some x)) = some x := by
  have hback : side.other.other = side := by cases side <;> rfl
  have hnewest : newest (j.put side.other (some x)) = some side.other := by
    refine (newest_iff _ _).mpr ⟨x,get_put j _ _,fun y hy => ?_⟩
    rw [hback,get_put_other,h.current] at hy
    cases hy
    exact hahead
  rw [Journal.current,hnewest,Option.bind_some,get_put]

/-- Where the previous number is raised, an odd one to an odd one, the current
value stays the newest unless the number comes ahead by half a turn at most. -/
theorem consecutive_raised (h : Consecutive j side s v) (x : UInt32 × α)
    (hraised : s.toNat ≤ x.1.toNat) (hodd : s.toNat%2 = 1 → x.1.toNat%2 = 1) :
    newest (j.put side.other (some x)) = some side ↔
      ¬(2 ≤ x.1.toNat-s.toNat ∧ x.1.toNat-s.toNat ≤ 2^31+1) := by
  have hlt := x.1.toNat_lt
  have hnumber : x.1 = UInt32.ofNat x.1.toNat := UInt32.ofNat_toNat.symm
  have hnext : s+1 = UInt32.ofNat (s.toNat+1) := by
    rw [UInt32.ofNat_add,UInt32.ofNat_toNat]
    rfl
  have hparity := h.parity
  have hiff : newest (j.put side.other (some x)) = some side ↔ ahead side (s+1) x.1 = true := by
    rw [newest_iff,get_put_other,get_put]
    simp [h.current]
  rw [hiff]
  cases side with
  | a =>
    rw [ahead]
    by_cases hrise : x.1.toNat ≤ s.toNat+1
    · rw [hnext,hnumber,Clock.reached_iff hrise,UInt32.toNat_ofNat_of_lt' hlt]
      omega
    · -- the raised number is ahead, so the current one is read a turn later
      have hturn : UInt32.ofNat (s.toNat+1) = UInt32.ofNat (s.toNat+1+2^32) := by
        apply UInt32.toNat_inj.mp
        rw [UInt32.toNat_ofNat',UInt32.toNat_ofNat',Nat.add_mod_right]
      rw [hnext,hturn,hnumber,Clock.reached_iff (by omega),UInt32.toNat_ofNat_of_lt' hlt]
      omega
  | b =>
    rw [ahead,Bool.not_eq_true',Bool.eq_false_iff]
    have hxodd := hodd hparity
    simp only [Side.parity] at hparity
    by_cases hsame : x.1.toNat = s.toNat
    · rw [UInt32.toNat_inj.mp hsame,Clock.not_reached_next]
      simp
    · rw [hnext,hnumber,ne_eq,Clock.reached_iff (by omega),UInt32.toNat_ofNat_of_lt' hlt]
      omega

end Consecutive

end Journal
end Library
