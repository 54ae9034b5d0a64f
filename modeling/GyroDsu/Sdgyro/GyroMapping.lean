import GyroDsu.Lib.IeeeExact
import GyroDsu.Sdgyro.CemuhookAdapter

/-
From the bytes of a report to pitch, yaw and roll. The bytes are read here as the report
defines them, apart from the struct the adapter reads.
-/
namespace GyroMapping
open SdHidFrame CemuhookAdapter LittleEndian

def axis (frame : Frame) (offset : Nat) : Int :=
  let bits := (memory frame offset).toNat + 256 * (memory frame (offset + 1)).toNat
  if bits < 2 ^ 15 then bits else (bits : Int) - 2 ^ 16

def z (v : Int) : Int := if -8 < v ∧ v < 8 then 0 else v

def rightToLeft (frame : Frame) : Int := z (axis frame 30)
def topToBottom (frame : Frame) : Int := z (axis frame 32)
def frontToBack (frame : Frame) : Int := z (axis frame 34)

/-- A report of this kind carries no gyro values. -/
def NoGyroKind (frame : Frame) : Prop := memory frame 0 = 0xDD

instance (frame : Frame) : Decidable (NoGyroKind frame) := by
  unfold NoGyroKind
  infer_instance

def Sixteenth (w : Single) (n : Int) : Prop := ∃ q, Ieee.value w = some q ∧ 16 * q = n

structure Mapped (frame : Frame) (m : MotionData) : Prop where
  suppressed : NoGyroKind frame → Sixteenth m.pitch 0 ∧ Sixteenth m.yaw 0 ∧ Sixteenth m.roll 0
  moving : ¬NoGyroKind frame → Sixteenth m.pitch (rightToLeft frame) ∧
    Sixteenth m.yaw (-frontToBack frame) ∧ Sixteenth m.roll (topToBottom frame)

theorem loadI16_axis (frame : Frame) (offset : Nat) : (loadI16 frame offset).toInt = axis frame offset := by
  have low := (memory frame offset).toNat_lt
  have high := (memory frame (offset + 1)).toNat_lt
  have bits : load (memory frame) offset 2 =
      (memory frame offset).toNat + 256 * (memory frame (offset + 1)).toNat := by
    simp [load, decode, List.range_succ]
  rw [loadI16, bits, Int16.toInt_ofNat', Int.bmod_def]
  simp only [axis, Int16.size]
  omega

theorem deadzone_z (v : Int16) : (deadzone v).toInt = z v.toInt := by
  unfold deadzone z gyroDeadzone
  split
  · rename_i small
    rw [if_pos ⟨small.2, small.1⟩]
    rfl
  · rename_i large
    rw [if_neg fun small => large ⟨small.2, small.1⟩]

theorem decode_float (v : Int16) :
    Ieee.decode (floatOfInt16 v) = .finite (decide (v.toInt < 0)) v.toInt.natAbs := by
  have low := v.le_toInt
  have high := v.toInt_lt
  apply Ieee.decode_ofInt
  · decide
  · decide
  · simp only [Ieee.single]
    omega

theorem decode_gyro1dps : Ieee.decode gyro1dps = .finite false 16 := by
  have sixteen := Ieee.decode_ofInt (f := Ieee.single) (n := 16) (by decide) (by decide) (by decide)
  rw [gyro1dps, sixteen]
  norm_num

/-- Dividing a 16-bit integer by sixteen loses nothing. -/
theorem sixteenth_div {w : Single} {negative : Bool} {n : Nat} (datum : Ieee.decode w = .finite negative n)
    (small : n ≤ 2 ^ 15) : Sixteenth (Ieee.div w gyro1dps) (if negative then -(n : Int) else n) := by
  have quotient : (Ieee.decode w).div (Ieee.decode gyro1dps) = .finite negative (n / 16) := by
    rw [datum, decode_gyro1dps]
    simp [Ieee.Datum.div]
  have exact_quotient : Ieee.decode (Ieee.div w gyro1dps) = .finite negative (n / 16) := by
    rw [Ieee.div, quotient]
    rcases Nat.eq_zero_or_pos n with rfl | some_n
    · rw [Nat.cast_zero, zero_div]
      exact Ieee.decode_encode_zero negative (by decide)
    · have log_small : Nat.log2 n ≤ 15 := by
        have := (Nat.pow_le_pow_iff_right (by decide : 1 < 2)).mp
          ((Nat.log2_self_le (Nat.ne_of_gt some_n)).trans small)
        omega
      have dyadic := Ieee.decode_encode_dyadic (f := Ieee.single) negative some_n (k := -4)
        (by simp only [Ieee.single]; omega) (by simp only [Ieee.Format.bias, Ieee.single]; omega)
        (by simp only [Ieee.Format.bias, Ieee.Format.top, Ieee.single]; omega)
      rwa [show (n : ℚ) * Ieee.twoPow (-4) = n / 16 by rw [Ieee.twoPow_zpow]; norm_num; ring] at dyadic
  refine ⟨_, Ieee.value_finite exact_quotient, ?_⟩
  cases negative
  · simp only [Ieee.signed, Bool.false_eq_true, if_false, Int.cast_natCast]
    ring
  · simp only [Ieee.signed, if_true, Int.cast_neg, Int.cast_natCast]
    ring

theorem sixteenth_float (v : Int16) : Sixteenth (Ieee.div (floatOfInt16 v) gyro1dps) v.toInt := by
  have low := v.le_toInt
  have high := v.toInt_lt
  have exact_v := sixteenth_div (decode_float v) (by omega)
  by_cases negative : v.toInt < 0
  · rw [decide_eq_true negative, if_pos rfl, Int.ofNat_natAbs_of_nonpos negative.le, neg_neg] at exact_v
    exact exact_v
  · rw [decide_eq_false negative, if_neg (by decide), Int.natAbs_of_nonneg (not_lt.mp negative)] at exact_v
    exact exact_v

theorem sixteenth_neg (v : Int16) :
    Sixteenth (Ieee.div (Ieee.neg (floatOfInt16 v)) gyro1dps) (-v.toInt) := by
  have low := v.le_toInt
  have high := v.toInt_lt
  have datum : Ieee.decode (Ieee.neg (floatOfInt16 v)) =
      .finite (!decide (v.toInt < 0)) v.toInt.natAbs := by
    rw [Ieee.decode_neg, decode_float]
    rfl
  have exact_v := sixteenth_div datum (by omega)
  by_cases negative : v.toInt < 0
  · rw [decide_eq_true negative, Bool.not_true, if_neg (by decide),
      Int.ofNat_natAbs_of_nonpos negative.le] at exact_v
    exact exact_v
  · rw [decide_eq_false negative, Bool.not_false, if_pos rfl,
      Int.natAbs_of_nonneg (not_lt.mp negative)] at exact_v
    exact exact_v

theorem sixteenth_unique {w : Single} {a b : Int} (h : Sixteenth w a) (h' : Sixteenth w b) : a = b := by
  obtain ⟨q, number, product⟩ := h
  obtain ⟨r, number', product'⟩ := h'
  obtain rfl : q = r := Option.some.inj (number.symm.trans number')
  exact_mod_cast product.symm.trans product'

/-- The header is masked with a zero, so no frame is of the kind without gyro values. -/
theorem never_suppressed (header : UInt32) : gyroSuppressed header = false := by
  simp [gyroSuppressed]

theorem always_moving (frame : Frame) (data : MotionData) (last : Smoothing) :
    Sixteenth (setMotionData (getSdFrame frame) data last).1.pitch (rightToLeft frame) ∧
      Sixteenth (setMotionData (getSdFrame frame) data last).1.yaw (-frontToBack frame) ∧
      Sixteenth (setMotionData (getSdFrame frame) data last).1.roll (topToBottom frame) := by
  have pitch := sixteenth_float (deadzone (loadI16 frame 30))
  have yaw := sixteenth_neg (deadzone (loadI16 frame 34))
  have roll := sixteenth_float (deadzone (loadI16 frame 32))
  rw [deadzone_z, loadI16_axis] at pitch yaw roll
  simp only [setMotionData, never_suppressed, Bool.false_eq_true, if_false]
  exact ⟨pitch, yaw, roll⟩

/-- The mapping is as intended exactly for the frames that carry gyro values, and for those
    of the other kind whose values are all small. -/
theorem mapped_iff (frame : Frame) (data : MotionData) (last : Smoothing) :
    Mapped frame (setMotionData (getSdFrame frame) data last).1 ↔
      (NoGyroKind frame → rightToLeft frame = 0 ∧ frontToBack frame = 0 ∧ topToBottom frame = 0) := by
  obtain ⟨pitch, yaw, roll⟩ := always_moving frame data last
  constructor
  · intro mapped kind
    obtain ⟨pitch', yaw', roll'⟩ := mapped.suppressed kind
    have no_yaw := sixteenth_unique yaw yaw'
    exact ⟨sixteenth_unique pitch pitch', by omega, sixteenth_unique roll roll'⟩
  · intro small
    constructor
    · intro kind
      obtain ⟨no_pitch, no_yaw, no_roll⟩ := small kind
      rw [no_pitch] at pitch
      rw [no_yaw, neg_zero] at yaw
      rw [no_roll] at roll
      exact ⟨pitch, yaw, roll⟩
    · intro _
      exact ⟨pitch, yaw, roll⟩

def stillData : MotionData := ⟨0, 0, 0, 0, 0, 0, 0, 0⟩

def noGyroReport : Frame := 0xDD :: List.replicate 29 0 ++ 16 :: List.replicate 33 0

/-- The gyro values of such a report get through. -/
theorem no_gyro_not_suppressed :
    noGyroReport.length = 64 ∧ NoGyroKind noGyroReport ∧
      Sixteenth (setMotionData (getSdFrame noGyroReport) stillData ⟨0, 0, 0⟩).1.pitch 16 ∧
      ¬Mapped noGyroReport (setMotionData (getSdFrame noGyroReport) stillData ⟨0, 0, 0⟩).1 := by
  have axes : rightToLeft noGyroReport = 16 := by decide
  have pitch := (always_moving noGyroReport stillData ⟨0, 0, 0⟩).1
  rw [axes] at pitch
  refine ⟨by decide, by decide, pitch, fun mapped => ?_⟩
  have none_left := sixteenth_unique pitch (mapped.suppressed (by decide)).1
  cases none_left

end GyroMapping
