import Mathlib.Data.Rat.Floor
import Mathlib.Tactic.FieldSimp
import Mathlib.Tactic.Linarith
import Mathlib.Tactic.NormNum
import CanopenReference.J1939

/-!
# The battery gateway

`encode_battery_status_1` and the gateway that supplies its arguments, on exact
measurements. The encoder is faithful where its arguments are in range. The
gateway passes an object index as the battery instance.
-/

set_option autoImplicit false

namespace CanopenReference.BatteryStatus
open Library J1939

def round (x : ℚ) : ℤ :=
  if x-x.floor < 1/2 then x.floor
  else if 1/2 < x-x.floor then x.floor+1
  else if x.floor%2 = 0 then x.floor else x.floor+1

theorem round_near (x : ℚ) : |(round x : ℚ)-x| ≤ 1/2 := by
  have hlow : (x.floor : ℚ) ≤ x := Rat.floor_le x
  have hhigh : x < (x.floor : ℚ)+1 := by linarith [@Rat.lt_floor x]
  rw [abs_le]
  unfold round
  split
  · constructor <;> linarith
  split
  · push_cast
    constructor <;> linarith
  split
  · constructor <;> linarith
  · push_cast
    constructor <;> linarith

def pgnBatteryStatus1 : ℤ := 127508

def representable (voltage current temperature : ℤ) : Bool :=
  (0 ≤ voltage ∧ voltage ≤ 0xFFFF) ∧ (-32768 ≤ current ∧ current ≤ 32767) ∧
    -32768 ≤ temperature ∧ temperature ≤ 32767

def signedBytes (v : ℤ) : List UInt8 := littleEndian 2 (v%65536).toNat

/-- The source scales floats; here the measurements are exact rationals, and so
are the products that are rounded. -/
def encodeBatteryStatus1 (source inst : ℤ) (voltageV currentA temperatureK : ℚ) :
    Except Nmea2000Error ExtendedCanFrame :=
  if !(0 ≤ inst ∧ inst ≤ 0xFF : Bool) then .error .batteryInstance
  else
    let voltage := round (voltageV*100)
    let current := round (currentA*10)
    let temperature := round (temperatureK*100)
    if !representable voltage current temperature then .error .batteryMeasurement
    else
      match makeJ1939Id 6 pgnBatteryStatus1 source none with
      | .error e => .error e
      | .ok canId =>
        extendedCanFrame canId ([UInt8.ofNat inst.toNat]++littleEndian 2 voltage.toNat++
          signedBytes current++signedBytes temperature++[0xFF])

structure BatteryGateway where
  sourceAddress : ℤ
  batteryIndex : ℤ := 0x6081
  deriving DecidableEq

def BatteryGateway.batteryStatus (gateway : BatteryGateway)
    (voltageV currentA temperatureK : ℚ) : Except Nmea2000Error ExtendedCanFrame :=
  encodeBatteryStatus1 gateway.sourceAddress gateway.batteryIndex voltageV currentA temperatureK

/-- The encoder admits the scaled and rounded values. -/
def Admitted (voltageV currentA temperatureK : ℚ) : Prop :=
  representable (round (voltageV*100)) (round (currentA*10)) (round (temperatureK*100)) = true

def Near (field : ℤ) (scale measured : ℚ) : Prop := |field/scale-measured| ≤ 1/(2*scale)

def Decoded (data : List UInt8) (voltageV currentA temperatureK : ℚ) : Prop :=
  Near (littleValue ((data.drop 1).take 2)) 100 voltageV ∧
    Near (signedValue ((data.drop 3).take 2)) 10 currentA ∧
    Near (signedValue ((data.drop 5).take 2)) 100 temperatureK

/-- The gateway returns a frame that gives the measurements back. -/
def Faithful (gateway : BatteryGateway) (voltageV currentA temperatureK : ℚ) : Prop :=
  ∃ frame, gateway.batteryStatus voltageV currentA temperatureK = .ok frame ∧
    Decoded frame.data voltageV currentA temperatureK

theorem rounded_near {scale : ℚ} (hscale : 0 < scale) (measured : ℚ) :
    Near (round (measured*scale)) scale measured := by
  have h := round_near (measured*scale)
  have heq : (round (measured*scale) : ℚ)/scale-measured =
      ((round (measured*scale) : ℚ)-measured*scale)/scale := by
    field_simp
  rw [Near,heq,abs_div,abs_of_pos hscale,div_le_div_iff₀ hscale (by linarith)]
  nlinarith

theorem payload_fields (inst : UInt8) (voltage : ℕ) (current temperature : ℤ) :
    let data := [inst]++littleEndian 2 voltage++signedBytes current++signedBytes temperature++[0xFF]
    (data.drop 1).take 2 = littleEndian 2 voltage ∧ (data.drop 3).take 2 = signedBytes current ∧
      (data.drop 5).take 2 = signedBytes temperature :=
  ⟨rfl,rfl,rfl⟩

theorem encode_faithful {source inst : ℤ} {voltageV currentA temperatureK : ℚ}
    (hsource : 0 ≤ source ∧ source ≤ 0xFF) (hinst : 0 ≤ inst ∧ inst ≤ 0xFF)
    (hadmitted : Admitted voltageV currentA temperatureK) :
    ∃ frame, encodeBatteryStatus1 source inst voltageV currentA temperatureK = .ok frame ∧
      Decoded frame.data voltageV currentA temperatureK := by
  have hmake : makeJ1939Id 6 pgnBatteryStatus1 source none = .ok (0x19F21400+source) := by
    refine (make_iff _ _ _ _ _).mpr ⟨decide_eq_true ?_,rfl,Or.inl (by decide),?_⟩
    · exact ⟨by decide,hsource,by decide⟩
    · rw [identifier,group,if_pos (by decide),if_pos (by decide),pgnBatteryStatus1]
      omega
  obtain ⟨⟨hv,hv'⟩,hc,ht⟩ := of_decide_eq_true hadmitted
  have hvoltage : (littleValue (littleEndian 2 (round (voltageV*100)).toNat) : ℤ) =
      round (voltageV*100) := by
    rw [little_value]
    omega
  have hcurrent : signedValue (signedBytes (round (currentA*10))) = round (currentA*10) :=
    @signed_value 1 _ hc.1 (Int.lt_add_one_of_le hc.2)
  have htemperature : signedValue (signedBytes (round (temperatureK*100))) =
      round (temperatureK*100) :=
    @signed_value 1 _ ht.1 (Int.lt_add_one_of_le ht.2)
  obtain ⟨hf1,hf2,hf3⟩ := payload_fields (UInt8.ofNat inst.toNat) (round (voltageV*100)).toNat
    (round (currentA*10)) (round (temperatureK*100))
  unfold encodeBatteryStatus1
  rw [if_neg (by simp [hinst]),hmake]
  simp only [Admitted] at hadmitted
  simp only [hadmitted,Bool.not_true,Bool.false_eq_true,if_false]
  rw [extendedCanFrame,dif_pos (by omega),dif_pos (by simp [signedBytes])]
  refine ⟨_,rfl,?_⟩
  rw [Decoded]
  simp only [hf1,hf2,hf3,hvoltage,hcurrent,htemperature]
  exact ⟨rounded_near (by norm_num) voltageV,rounded_near (by norm_num) currentA,
    rounded_near (by norm_num) temperatureK⟩

theorem encode_refused (source : ℤ) {inst : ℤ} (h : ¬(0 ≤ inst ∧ inst ≤ 0xFF))
    (voltageV currentA temperatureK : ℚ) :
    encodeBatteryStatus1 source inst voltageV currentA temperatureK =
      .error .batteryInstance := by
  unfold encodeBatteryStatus1
  rw [if_pos (by simp only [Bool.not_eq_true',decide_eq_false_iff_not]; exact h)]

/-- For admitted measurements a gateway is faithful exactly when its index is one
of a battery instance, which that of `BatteryGateway(source)` is not. -/
theorem gateway_faithful_iff {source : ℤ} {voltageV currentA temperatureK : ℚ}
    (hsource : 0 ≤ source ∧ source ≤ 0xFF)
    (hadmitted : Admitted voltageV currentA temperatureK) :
    (∀ index : ℤ, Faithful ⟨source,index⟩ voltageV currentA temperatureK ↔
      0 ≤ index ∧ index ≤ 0xFF) ∧
    ¬Faithful { sourceAddress := source } voltageV currentA temperatureK := by
  have hiff : ∀ index : ℤ, Faithful ⟨source,index⟩ voltageV currentA temperatureK ↔
      0 ≤ index ∧ index ≤ 0xFF := by
    intro index
    constructor
    · rintro ⟨frame,hframe,-⟩
      by_contra hout
      rw [BatteryGateway.batteryStatus,encode_refused source hout] at hframe
      cases hframe
    · intro hindex
      exact encode_faithful hsource hindex hadmitted
  exact ⟨hiff,fun h => absurd ((hiff _).mp h) (by decide)⟩

theorem gateway_faithful_iff_node :
    (Faithful ⟨42,0⟩ 48 (-123/10) (5963/20) ↔ (0 : ℤ) ≤ 0 ∧ (0 : ℤ) ≤ 0xFF) ∧
      ¬Faithful { sourceAddress := 42 } 48 (-123/10) (5963/20) := by
  have hadmitted : Admitted 48 (-123/10) (5963/20) := by
    unfold Admitted
    decide +kernel
  have h := gateway_faithful_iff (show 0 ≤ (42 : ℤ) ∧ (42 : ℤ) ≤ 0xFF by decide) hadmitted
  exact ⟨h.1 0,h.2⟩

/-- The measurements of the encoder's test, through the gateway. -/
theorem gateway_refuses :
    Admitted 48 (-123/10) (5963/20) ∧
      BatteryGateway.batteryStatus { sourceAddress := 42 } 48 (-123/10) (5963/20) =
        .error .batteryInstance := by
  refine ⟨?_,rfl⟩
  unfold Admitted
  decide +kernel

end CanopenReference.BatteryStatus
