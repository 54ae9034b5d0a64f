import GyroDsu.Lib.Ieee
import Mathlib.Data.Int.Log
import Mathlib.Tactic.Linarith
import Mathlib.Tactic.FieldSimp
import Mathlib.Tactic.Ring

/-!
Numbers a format represents exactly: encoding and decoding gives them back, and an
operation whose exact result is such a number is exact.
-/
namespace Ieee

theorem twoPow_zpow (k : Int) : twoPow k = (2 : ℚ) ^ k := by
  unfold twoPow
  split
  · rename_i positive
    rw [← zpow_natCast, Int.toNat_of_nonneg positive]
  · rename_i negative
    rw [one_div, ← zpow_natCast, Int.toNat_of_nonneg (by omega), zpow_neg, inv_inv]

theorem reaches_iff {q : ℚ} (positive : 0 < q) (k : Int) : twoPow k ≤ q ↔ k ≤ Int.log 2 q := by
  rw [twoPow_zpow, ← Int.zpow_le_iff_le_log (by norm_num) positive, Nat.cast_ofNat]

theorem below_iff {q : ℚ} (positive : 0 < q) (k : Int) : q < twoPow k ↔ Int.log 2 q < k := by
  rw [twoPow_zpow, ← Int.lt_zpow_iff_log_lt (by norm_num) positive, Nat.cast_ofNat]

theorem log_quotient {n d a b : Nat} (num_low : 2 ^ a ≤ n) (num_high : n < 2 ^ (a + 1))
    (den_low : 2 ^ b ≤ d) (den_high : d < 2 ^ (b + 1)) :
    (a : Int) - b - 1 ≤ Int.log 2 ((n : ℚ) / d) ∧ Int.log 2 ((n : ℚ) / d) < (a : Int) - b + 1 := by
  have two : (2 : ℚ) ≠ 0 := by norm_num
  have num_positive : (0 : ℚ) < n := by exact_mod_cast Nat.lt_of_lt_of_le (Nat.two_pow_pos a) num_low
  have den_positive : (0 : ℚ) < d := by exact_mod_cast Nat.lt_of_lt_of_le (Nat.two_pow_pos b) den_low
  have positive : 0 < (n : ℚ) / d := div_pos num_positive den_positive
  have scale : ∀ k : Int, (0 : ℚ) ≤ 2 ^ k := fun k => zpow_nonneg (by norm_num) k
  constructor
  · rw [← reaches_iff positive, twoPow_zpow, le_div_iff₀ den_positive]
    calc (2 : ℚ) ^ ((a : Int) - b - 1) * d
        ≤ 2 ^ ((a : Int) - b - 1) * 2 ^ ((b : Int) + 1) :=
          mul_le_mul_of_nonneg_left (by exact_mod_cast den_high.le) (scale _)
      _ = 2 ^ (a : Int) := by
          rw [← zpow_add₀ two]
          congr 1
          ring
      _ ≤ n := by exact_mod_cast num_low
  · rw [← below_iff positive, twoPow_zpow, div_lt_iff₀ den_positive]
    calc (n : ℚ) < 2 ^ ((a : Int) + 1) := by exact_mod_cast num_high
      _ = 2 ^ ((a : Int) - b + 1) * 2 ^ (b : Int) := by
          rw [← zpow_add₀ two]
          congr 1
          ring
      _ ≤ 2 ^ ((a : Int) - b + 1) * d :=
          mul_le_mul_of_nonneg_left (by exact_mod_cast den_low) (scale _)

theorem floorLog_log {q : ℚ} (positive : 0 < q) : floorLog q = Int.log 2 q := by
  have num_positive := Rat.num_pos.mpr positive
  have some_num : q.num.natAbs ≠ 0 := by omega
  have quotient : (q.num.natAbs : ℚ) / q.den = q := by
    have nonneg : ((q.num.natAbs : Int) : ℚ) = q.num := by
      rw [Int.natAbs_of_nonneg num_positive.le]
    rw [← Int.cast_natCast, nonneg, Rat.num_div_den]
  have bounds := log_quotient (Nat.log2_self_le some_num) Nat.lt_log2_self
    (Nat.log2_self_le q.den_ne_zero) Nat.lt_log2_self
  rw [quotient] at bounds
  unfold floorLog
  simp only [reaches_iff positive]
  split <;> omega

theorem roundEven_natCast (n : Nat) : roundEven (n : ℚ) = n := by
  have floor : (n : ℚ).floor.toNat = n := by
    simp [Rat.floor_def]
  unfold roundEven
  simp only [floor, sub_self]
  rw [if_pos (Or.inl (by norm_num))]

variable {f : Format}

def Format.datum (f : Format) (negative : Bool) (e m : Nat) : Datum :=
  if e = f.top then
    if m = 0 then .infinite negative else .nan
  else if e = 0 then .finite negative (m * f.quantum 1)
  else .finite negative ((2 ^ f.fracBits + m) * f.quantum e)

theorem decode_datum (w : Word f) :
    decode w = f.datum w.msb (w.toNat / 2 ^ f.fracBits % 2 ^ f.expBits) (w.toNat % 2 ^ f.fracBits) :=
  rfl

theorem pattern_toNat (negative : Bool) {body : Nat} (small : body < 2 ^ (f.expBits + f.fracBits)) :
    (pattern f negative body).toNat = negative.toNat * 2 ^ (f.expBits + f.fracBits) + body := by
  have width : 2 ^ (1 + f.expBits + f.fracBits) = 2 * 2 ^ (f.expBits + f.fracBits) := by
    rw [Nat.add_assoc, Nat.pow_add, Nat.pow_one]
  rw [pattern, BitVec.toNat_ofNat, Nat.mod_eq_of_lt]
  rw [width]
  cases negative <;> simp only [Bool.toNat_true, Bool.toNat_false] <;> omega

theorem decode_pattern (negative : Bool) {body : Nat} (small : body < 2 ^ (f.expBits + f.fracBits)) :
    decode (pattern f negative body) =
      f.datum negative (body / 2 ^ f.fracBits) (body % 2 ^ f.fracBits) := by
  have value := pattern_toNat negative small
  have sign : (pattern f negative body).msb = negative := by
    rw [BitVec.msb_eq_decide, value, show 1 + f.expBits + f.fracBits - 1 = f.expBits + f.fracBits by omega]
    cases negative
    · simpa using small
    · simp
  have split : 2 ^ (f.expBits + f.fracBits) = 2 ^ f.expBits * 2 ^ f.fracBits := Nat.pow_add _ _ _
  have upper : body / 2 ^ f.fracBits < 2 ^ f.expBits := by
    rw [Nat.div_lt_iff_lt_mul (Nat.two_pow_pos _), ← split]
    exact small
  rw [decode_datum, sign, value, split, ← Nat.mul_assoc, Nat.add_comm, Nat.add_mul_div_right _ _ (Nat.two_pow_pos _),
    Nat.add_mul_mod_self_right, Nat.add_mul_mod_self_right, Nat.mod_eq_of_lt upper]

theorem quantum_positive (f : Format) (e : Nat) : 0 < f.quantum e := by
  rw [Format.quantum, twoPow_zpow]
  exact zpow_pos (by norm_num) _

/-- A significand of full length: its exponent is found again, and nothing is rounded. -/
theorem exponent_normal {n e : Nat} (low : 2 ^ f.fracBits ≤ n) (high : n < 2 ^ (f.fracBits + 1))
    (normal : 1 ≤ e) : f.exponent (n * f.quantum e) = e := by
  have two : (2 : ℚ) ≠ 0 := by norm_num
  have scale : (0 : ℚ) < f.quantum e := quantum_positive f e
  have some_n : (0 : ℚ) < n := by exact_mod_cast Nat.lt_of_lt_of_le (Nat.two_pow_pos _) low
  have positive : 0 < (n : ℚ) * f.quantum e := mul_pos some_n scale
  have lower : (e : Int) - f.bias ≤ Int.log 2 ((n : ℚ) * f.quantum e) := by
    rw [← reaches_iff positive, twoPow_zpow]
    calc (2 : ℚ) ^ ((e : Int) - f.bias) = 2 ^ (f.fracBits : Int) * f.quantum e := by
          rw [Format.quantum, twoPow_zpow, ← zpow_add₀ two]
          congr 1
          ring
      _ ≤ n * f.quantum e := mul_le_mul_of_nonneg_right (by exact_mod_cast low) scale.le
  have upper : Int.log 2 ((n : ℚ) * f.quantum e) < (e : Int) - f.bias + 1 := by
    rw [← below_iff positive, twoPow_zpow]
    calc (n : ℚ) * f.quantum e < 2 ^ ((f.fracBits : Int) + 1) * f.quantum e :=
          mul_lt_mul_of_pos_right (by exact_mod_cast high) scale
      _ = 2 ^ ((e : Int) - f.bias + 1) := by
          rw [Format.quantum, twoPow_zpow, ← zpow_add₀ two]
          congr 1
          ring
  unfold Format.exponent
  rw [if_neg positive.ne', floorLog_log positive]
  omega

theorem top_bound (f : Format) : f.top * 2 ^ f.fracBits < 2 ^ (f.expBits + f.fracBits) := by
  rw [Nat.pow_add]
  apply Nat.mul_lt_mul_of_pos_right _ (Nat.two_pow_pos _)
  have := Nat.two_pow_pos f.expBits
  unfold Format.top
  omega

theorem decode_encode_normal (negative : Bool) {n e : Nat} (low : 2 ^ f.fracBits ≤ n)
    (high : n < 2 ^ (f.fracBits + 1)) (normal : 1 ≤ e) (finite : e < f.top) :
    decode (encode f (.finite negative (n * f.quantum e))) = .finite negative (n * f.quantum e) := by
  have scale : f.quantum e ≠ 0 := (quantum_positive f e).ne'
  have one : 0 < 2 ^ f.fracBits := Nat.two_pow_pos _
  obtain ⟨rest, rfl⟩ := Nat.exists_eq_add_of_le low
  rw [Nat.pow_succ] at high
  have body : (e - 1) * 2 ^ f.fracBits + (2 ^ f.fracBits + rest) = rest + e * 2 ^ f.fracBits := by
    obtain ⟨e', rfl⟩ := Nat.exists_eq_add_of_le normal
    rw [Nat.add_sub_cancel_left]
    ring
  have under_top : rest + e * 2 ^ f.fracBits < f.top * 2 ^ f.fracBits := by
    calc rest + e * 2 ^ f.fracBits < 2 ^ f.fracBits + e * 2 ^ f.fracBits := by omega
      _ = (e + 1) * 2 ^ f.fracBits := by ring
      _ ≤ f.top * 2 ^ f.fracBits := Nat.mul_le_mul_right _ finite
  have encoded : encode f (.finite negative ((2 ^ f.fracBits + rest : Nat) * f.quantum e)) =
      pattern f negative (rest + e * 2 ^ f.fracBits) := by
    simp only [encode]
    rw [exponent_normal low (by rw [Nat.pow_succ]; exact high) normal, mul_div_cancel_right₀ _ scale,
      roundEven_natCast, body, Nat.min_eq_left under_top.le]
  rw [encoded, decode_pattern negative (under_top.trans (top_bound f)),
    Nat.add_mul_div_right _ _ one, Nat.div_eq_of_lt (by omega : rest < 2 ^ f.fracBits), Nat.zero_add,
    Nat.add_mul_mod_self_right, Nat.mod_eq_of_lt (by omega : rest < 2 ^ f.fracBits)]
  unfold Format.datum
  rw [if_neg (by omega), if_neg (by omega)]
  push_cast
  rfl

theorem decode_encode_zero (negative : Bool) (some_exponent : 0 < f.expBits) :
    decode (encode f (.finite negative 0)) = .finite negative 0 := by
  have some_top : f.top ≠ 0 := by
    have : 2 ^ 1 ≤ 2 ^ f.expBits := Nat.pow_le_pow_right (by decide) some_exponent
    unfold Format.top
    omega
  have encoded : encode f (.finite negative 0) = pattern f negative 0 := by
    have exponent : f.exponent 0 = 1 := if_pos rfl
    have rounded : roundEven 0 = 0 := roundEven_natCast 0
    simp only [encode, exponent, Nat.sub_self, Nat.zero_mul, Nat.zero_add, zero_div, rounded,
      Nat.zero_min]
  rw [encoded, decode_pattern negative (Nat.two_pow_pos _)]
  unfold Format.datum
  rw [Nat.zero_div, Nat.zero_mod, if_neg (Ne.symm some_top), if_pos rfl]
  simp

theorem decode_encode_dyadic (negative : Bool) {n : Nat} {k : Int} (some_n : 0 < n)
    (short : n < 2 ^ (f.fracBits + 1)) (above : 1 ≤ (Nat.log2 n : Int) + k + f.bias)
    (below : (Nat.log2 n : Int) + k + f.bias < f.top) :
    decode (encode f (.finite negative (n * twoPow k))) = .finite negative (n * twoPow k) := by
  have two : (2 : ℚ) ≠ 0 := by norm_num
  have log_low := Nat.log2_self_le (Nat.ne_of_gt some_n)
  have log_high : n < 2 ^ (Nat.log2 n + 1) := Nat.lt_log2_self
  have log_short : Nat.log2 n ≤ f.fracBits := by
    have := (Nat.pow_lt_pow_iff_right (by decide : 1 < 2)).mp (Nat.lt_of_le_of_lt log_low short)
    omega
  -- The significand is brought to full length, and the exponent to that of its last digit.
  obtain ⟨shift, full⟩ := Nat.exists_eq_add_of_le log_short
  obtain ⟨e, exponent⟩ : ∃ e : Nat, (e : Int) = (Nat.log2 n : Int) + k + f.bias :=
    ⟨((Nat.log2 n : Int) + k + f.bias).toNat, Int.toNat_of_nonneg (by omega)⟩
  have same : (n : ℚ) * twoPow k = (n * 2 ^ shift : Nat) * f.quantum e := by
    rw [Format.quantum, twoPow_zpow, twoPow_zpow, Nat.cast_mul, Nat.cast_pow, Nat.cast_ofNat, mul_assoc,
      ← zpow_natCast, ← zpow_add₀ two]
    congr 2
    rw [exponent, full]
    push_cast
    ring
  rw [same]
  apply decode_encode_normal
  · rw [full, Nat.pow_add]
    exact Nat.mul_le_mul_right _ log_low
  · rw [full, show Nat.log2 n + shift + 1 = Nat.log2 n + 1 + shift by omega, Nat.pow_add]
    exact Nat.mul_lt_mul_of_pos_right log_high (Nat.two_pow_pos _)
  · omega
  · omega

/-- The number a word stands for, if it is one. -/
def value (w : Word f) : Option ℚ :=
  match decode w with
  | .finite negative size => some (signed negative size)
  | _ => none

theorem value_finite {w : Word f} {negative : Bool} {size : ℚ}
    (datum : decode w = .finite negative size) : value w = some (signed negative size) := by
  rw [value, datum]

def Datum.negate : Datum → Datum
  | .nan => .nan
  | .infinite negative => .infinite (!negative)
  | .finite negative size => .finite (!negative) size

theorem decode_neg (w : Word f) : decode (neg w) = (decode w).negate := by
  have flipped : (neg w).toNat = w.toNat ^^^ 2 ^ (f.expBits + f.fracBits) := by
    rw [neg, BitVec.toNat_xor, pattern_toNat true (Nat.two_pow_pos _)]
    simp
  have sign : (neg w).msb = !w.msb := by
    have bit : (pattern f true 0).msb = true := by
      rw [BitVec.msb_eq_decide, pattern_toNat true (Nat.two_pow_pos _),
        show 1 + f.expBits + f.fracBits - 1 = f.expBits + f.fracBits by omega]
      simp
    rw [neg, BitVec.msb_xor, bit, Bool.xor_true]
  have fraction : (neg w).toNat % 2 ^ f.fracBits = w.toNat % 2 ^ f.fracBits := by
    rw [flipped, Nat.xor_mod_two_pow, Nat.pow_add, Nat.mul_mod_left, Nat.xor_zero]
  have exponent : (neg w).toNat / 2 ^ f.fracBits % 2 ^ f.expBits = w.toNat / 2 ^ f.fracBits % 2 ^ f.expBits := by
    rw [flipped, Nat.xor_div_two_pow, Nat.pow_add, Nat.mul_div_left _ (Nat.two_pow_pos _),
      Nat.xor_mod_two_pow, Nat.mod_self, Nat.xor_zero]
  rw [decode_datum, decode_datum, sign, fraction, exponent]
  unfold Format.datum
  split
  · split <;> rfl
  · split <;> rfl

theorem abs_eq (w : Word f) : abs w = if w.msb then neg w else w := by
  have size : (pattern f true 0).toNat = 2 ^ (f.expBits + f.fracBits) := by
    rw [pattern_toNat true (Nat.two_pow_pos _)]
    simp
  have bit : ∀ i, (pattern f true 0).getLsbD i = decide (f.expBits + f.fracBits = i) := by
    intro i
    rw [BitVec.getLsbD, size, Nat.testBit_two_pow]
  have sign : w.msb = w.getLsbD (f.expBits + f.fracBits) := by
    rw [BitVec.msb_eq_getLsbD_last, show 1 + f.expBits + f.fracBits - 1 = f.expBits + f.fracBits by omega]
  apply BitVec.eq_of_getLsbD_eq
  intro i inside
  have cleared : (abs w).getLsbD i = (w.getLsbD i && !decide (f.expBits + f.fracBits = i)) := by
    rw [abs, BitVec.getLsbD_and, BitVec.getLsbD_not, bit, decide_eq_true inside, Bool.true_and]
  have flipped : (neg w).getLsbD i = (w.getLsbD i ^^ decide (f.expBits + f.fracBits = i)) := by
    rw [neg, BitVec.getLsbD_xor, bit]
  rw [cleared, apply_ite (fun v : Word f => v.getLsbD i), flipped]
  by_cases top : f.expBits + f.fracBits = i
  · rw [← top, ← sign]
    cases w.msb <;> simp
  · simp [top]

theorem decode_sign {w : Word f} {negative : Bool} {size : ℚ} (datum : decode w = .finite negative size) :
    w.msb = negative := by
  rw [decode_datum] at datum
  unfold Format.datum at datum
  split at datum
  · split at datum <;> cases datum
  · split at datum <;> cases datum <;> rfl

theorem decode_ofInt (wide : f.fracBits + f.bias < f.top) (biased : 1 ≤ f.bias) {n : Int}
    (short : n.natAbs < 2 ^ (f.fracBits + 1)) :
    decode (ofInt f n) = .finite (decide (n < 0)) n.natAbs := by
  have some_exponent : 0 < f.expBits := by
    by_contra none_left
    have : f.expBits = 0 := by omega
    simp [Format.top, this] at wide
  have size : |(n : ℚ)| = n.natAbs := by
    rw [← Int.cast_natCast, Int.natCast_natAbs, Int.cast_abs]
  have sign : decide ((n : ℚ) < 0) = decide (n < 0) := by
    simp only [Int.cast_lt_zero]
  rw [ofInt, ofRat, size, sign]
  rcases Nat.eq_zero_or_pos n.natAbs with zero | some_n
  · rw [zero, Nat.cast_zero]
    exact decode_encode_zero _ some_exponent
  · have log_short : Nat.log2 n.natAbs ≤ f.fracBits := by
      have := (Nat.pow_lt_pow_iff_right (by decide : 1 < 2)).mp
        (Nat.lt_of_le_of_lt (Nat.log2_self_le (Nat.ne_of_gt some_n)) short)
      omega
    have exact_n := decode_encode_dyadic (decide (n < 0)) some_n short (k := 0) (by omega) (by omega)
    rwa [show twoPow 0 = 1 from rfl, mul_one] at exact_n

end Ieee
