import GyroDsu.Lib.IeeeExact
import Mathlib.Algebra.Order.Floor.Ring
import Mathlib.Tactic.GCongr

/-!
Rounding to a format: it keeps the order, leaves what the format holds alone and is off by
at most half a unit in the last place. Operations whose result stays below the greatest
number are their exact result, rounded.
-/
namespace Ieee
variable {f : Format}

def Format.precision (f : Format) : Nat := f.fracBits + 1

/-- A magnitude with as many digits as the format has, and no limit to its size. -/
def Format.Holds (f : Format) (q : ℚ) : Prop :=
  ∃ n e : Nat, n < 2 ^ f.precision ∧ 1 ≤ e ∧ q = n * f.quantum e

def Format.round (f : Format) (q : ℚ) : ℚ :=
  roundEven (q / f.quantum (f.exponent q)) * f.quantum (f.exponent q)

def Format.nearest (f : Format) (q : ℚ) : ℚ := if q < 0 then -f.round (-q) else f.round q

def Format.greatest (f : Format) : ℚ := (2 ^ f.precision - 1) * f.quantum (f.top - 1)

theorem quantum_add (f : Format) (e k : Nat) : f.quantum (e + k) = 2 ^ k * f.quantum e := by
  rw [Format.quantum, Format.quantum, twoPow_zpow, twoPow_zpow, ← zpow_natCast, ← zpow_add₀ (by norm_num)]
  congr 1
  push_cast
  ring

theorem quantum_mono (f : Format) {e e' : Nat} (le : e ≤ e') : f.quantum e ≤ f.quantum e' := by
  obtain ⟨k, rfl⟩ := Nat.exists_eq_add_of_le le
  rw [quantum_add]
  exact le_mul_of_one_le_left (quantum_positive f e).le (one_le_pow₀ (by norm_num))

theorem quantum_double (f : Format) {e e' : Nat} (less : e < e') : 2 * f.quantum e ≤ f.quantum e' := by
  have next := quantum_mono f (Nat.succ_le_of_lt less)
  rwa [Nat.succ_eq_add_one, quantum_add, pow_one] at next

theorem floor_natCast {q : ℚ} (positive : 0 ≤ q) : ((q.floor.toNat : Nat) : ℚ) = ⌊q⌋ := by
  have same : q.floor = ⌊q⌋ := rfl
  rw [same, ← Int.cast_natCast, Int.toNat_of_nonneg (Int.floor_nonneg.mpr positive)]

theorem roundEven_cases {q : ℚ} (positive : 0 ≤ q) :
    (roundEven q : ℚ) = ⌊q⌋ ∧ q - ⌊q⌋ ≤ 1 / 2 ∨ (roundEven q : ℚ) = ⌊q⌋ + 1 ∧ 1 / 2 ≤ q - ⌊q⌋ := by
  have whole := floor_natCast positive
  unfold roundEven
  simp only [whole]
  split
  · rename_i down
    left
    refine ⟨whole, ?_⟩
    rcases down with less | ⟨tie, _⟩
    · exact less.le
    · exact tie.le
  · rename_i up
    right
    refine ⟨?_, ?_⟩
    · rw [Nat.cast_add, whole, Nat.cast_one]
    · exact not_lt.mp fun less => up (Or.inl less)

theorem roundEven_error {q : ℚ} (positive : 0 ≤ q) : |(roundEven q : ℚ) - q| ≤ 1 / 2 := by
  have low := Int.floor_le q
  have high := Int.lt_floor_add_one q
  rw [abs_le]
  rcases roundEven_cases positive with ⟨down, near⟩ | ⟨up, near⟩
  · rw [down]
    constructor <;> linarith
  · rw [up]
    constructor <;> linarith

/-- The one natural number less than half a unit away. -/
theorem roundEven_near {q : ℚ} {n : Nat} (positive : 0 ≤ q) (near : |q - n| < 1 / 2) : roundEven q = n := by
  have error := abs_le.mp (roundEven_error positive)
  have bounds := abs_lt.mp near
  have less : (roundEven q : ℚ) < n + 1 := by linarith
  have more : (n : ℚ) < roundEven q + 1 := by linarith
  have less' : roundEven q < n + 1 := by exact_mod_cast less
  have more' : n < roundEven q + 1 := by exact_mod_cast more
  omega

theorem roundEven_mono {q r : ℚ} (positive : 0 ≤ q) (le : q ≤ r) : roundEven q ≤ roundEven r := by
  have positive' := positive.trans le
  have cast : (roundEven q : ℚ) ≤ roundEven r := by
    rcases (Int.floor_mono le).lt_or_eq with less | same
    · have step : (⌊q⌋ : ℚ) + 1 ≤ ⌊r⌋ := by exact_mod_cast less
      have upper : (roundEven q : ℚ) ≤ ⌊q⌋ + 1 := by
        rcases roundEven_cases positive with ⟨down, _⟩ | ⟨up, _⟩
        · rw [down]
          linarith
        · exact up.le
      have lower : (⌊r⌋ : ℚ) ≤ roundEven r := by
        rcases roundEven_cases positive' with ⟨down, _⟩ | ⟨up, _⟩
        · exact down.ge
        · rw [up]
          linarith
      linarith
    · -- With the same floor, what lies below a number rounded down is rounded down too.
      have whole' := floor_natCast positive'
      have floors : q.floor.toNat = r.floor.toNat := by
        have : q.floor = r.floor := same
        rw [this]
      unfold roundEven
      simp only [whole', ← same, floors]
      split
      · split
        · exact le_rfl
        · exact_mod_cast Nat.le_succ _
      · rename_i up
        rw [if_neg]
        rintro (less | ⟨tie, even⟩)
        · exact up (Or.inl (by linarith))
        · rcases lt_or_eq_of_le (show q - ⌊q⌋ ≤ 1 / 2 by linarith) with below | here
          · exact up (Or.inl below)
          · exact up (Or.inr ⟨here, even⟩)
  exact_mod_cast cast

theorem exponent_pos (f : Format) (q : ℚ) : 1 ≤ f.exponent q := by
  unfold Format.exponent
  split
  · exact le_rfl
  · omega

theorem exponent_bounds (f : Format) {q : ℚ} (positive : 0 ≤ q) :
    q < 2 ^ f.precision * f.quantum (f.exponent q) ∧
      (f.exponent q = 1 ∨ 2 ^ f.fracBits * f.quantum (f.exponent q) ≤ q) := by
  have two : (2 : ℚ) ≠ 0 := by norm_num
  have reach : ∀ (e k : Nat), (2 : ℚ) ^ k * f.quantum e = twoPow ((e : Int) - f.bias - f.fracBits + k) := by
    intro e k
    rw [Format.quantum, twoPow_zpow, twoPow_zpow, ← zpow_natCast, ← zpow_add₀ two]
    congr 1
    ring
  rcases positive.eq_or_lt with zero | some_q
  · subst zero
    have one : f.exponent 0 = 1 := if_pos rfl
    exact ⟨mul_pos (by positivity) (quantum_positive f _), Or.inl one⟩
  · have exponent : f.exponent q = (max 1 (Int.log 2 q + f.bias)).toNat := by
      unfold Format.exponent
      rw [if_neg some_q.ne', floorLog_log some_q]
    rw [reach, reach, below_iff some_q, reaches_iff some_q, exponent]
    unfold Format.precision
    omega

theorem exponent_mono (f : Format) {q r : ℚ} (positive : 0 ≤ q) (le : q ≤ r) :
    f.exponent q ≤ f.exponent r := by
  by_contra less
  obtain ⟨_, above⟩ := exponent_bounds f positive
  obtain ⟨below, _⟩ := exponent_bounds f (positive.trans le)
  have some_exponent := exponent_pos f r
  have reaches := above.resolve_left (by omega)
  have double := quantum_double f (not_le.mp less)
  have scaled := mul_le_mul_of_nonneg_left double (by positivity : (0 : ℚ) ≤ 2 ^ f.fracBits)
  rw [Format.precision, pow_succ] at below
  linarith

theorem round_nonneg (f : Format) (q : ℚ) : 0 ≤ f.round q :=
  mul_nonneg (Nat.cast_nonneg _) (quantum_positive f _).le

theorem scaled_nonneg (f : Format) {q : ℚ} (positive : 0 ≤ q) (e : Nat) : 0 ≤ q / f.quantum e :=
  div_nonneg positive (quantum_positive f e).le

theorem round_error (f : Format) {q : ℚ} (positive : 0 ≤ q) :
    |f.round q - q| ≤ f.quantum (f.exponent q) / 2 := by
  have scale := quantum_positive f (f.exponent q)
  have error := roundEven_error (scaled_nonneg f positive (f.exponent q))
  have split : f.round q - q = (roundEven (q / f.quantum (f.exponent q)) - q / f.quantum (f.exponent q)) *
      f.quantum (f.exponent q) := by
    rw [sub_mul, div_mul_cancel₀ _ scale.ne']
    rfl
  rw [split, abs_mul, abs_of_pos scale]
  calc _ ≤ 1 / 2 * f.quantum (f.exponent q) := mul_le_mul_of_nonneg_right error scale.le
    _ = f.quantum (f.exponent q) / 2 := by ring

theorem round_mono (f : Format) {q r : ℚ} (positive : 0 ≤ q) (le : q ≤ r) : f.round q ≤ f.round r := by
  have positive' := positive.trans le
  rcases (exponent_mono f positive le).eq_or_lt with same | less
  · unfold Format.round
    rw [same]
    have scale := quantum_positive f (f.exponent r)
    have digits := roundEven_mono (scaled_nonneg f positive (f.exponent r)) (div_le_div_of_nonneg_right le scale.le)
    exact mul_le_mul_of_nonneg_right (by exact_mod_cast digits) scale.le
  · -- The numbers lie on both sides of a power of two, which is rounded to itself.
    have scale := quantum_positive f (f.exponent q)
    have scale' := quantum_positive f (f.exponent r)
    obtain ⟨below, _⟩ := exponent_bounds f positive
    obtain ⟨_, above⟩ := exponent_bounds f positive'
    have reaches := above.resolve_left (by have := exponent_pos f q; omega)
    have lower : roundEven (q / f.quantum (f.exponent q)) ≤ 2 ^ f.precision := by
      rw [← roundEven_natCast (2 ^ f.precision)]
      apply roundEven_mono (scaled_nonneg f positive _)
      rw [div_le_iff₀ scale]
      exact_mod_cast below.le
    have upper : 2 ^ f.fracBits ≤ roundEven (r / f.quantum (f.exponent r)) := by
      rw [← roundEven_natCast (2 ^ f.fracBits)]
      apply roundEven_mono (Nat.cast_nonneg _)
      rw [le_div_iff₀ scale']
      exact_mod_cast reaches
    calc f.round q ≤ (2 ^ f.precision : Nat) * f.quantum (f.exponent q) :=
          mul_le_mul_of_nonneg_right (by exact_mod_cast lower) scale.le
      _ = 2 ^ f.fracBits * (2 * f.quantum (f.exponent q)) := by
          rw [Format.precision, pow_succ]
          push_cast
          ring
      _ ≤ 2 ^ f.fracBits * f.quantum (f.exponent r) :=
          mul_le_mul_of_nonneg_left (quantum_double f less) (by positivity)
      _ ≤ f.round r := mul_le_mul_of_nonneg_right (by exact_mod_cast upper) scale'.le

theorem holds_digits {q : ℚ} (holds : f.Holds q) :
    ∃ n : Nat, q = n * f.quantum (f.exponent q) ∧ n < 2 ^ f.precision ∧
      (f.exponent q = 1 ∨ 2 ^ f.fracBits ≤ n) := by
  obtain ⟨n, e, short, normal, rfl⟩ := holds
  have positive : 0 ≤ (n : ℚ) * f.quantum e := mul_nonneg (Nat.cast_nonneg _) (quantum_positive f e).le
  obtain ⟨below, above⟩ := exponent_bounds f positive
  have least : f.exponent (n * f.quantum e) ≤ e := by
    by_contra more
    have reaches := above.resolve_left (by omega)
    have double := mul_le_mul_of_nonneg_left (quantum_double f (not_le.mp more))
      (by positivity : (0 : ℚ) ≤ 2 ^ f.fracBits)
    have few : (n : ℚ) * f.quantum e < 2 ^ f.precision * f.quantum e :=
      mul_lt_mul_of_pos_right (by exact_mod_cast short) (quantum_positive f e)
    rw [Format.precision, pow_succ] at few
    linarith
  obtain ⟨k, same⟩ := Nat.exists_eq_add_of_le least
  have digits : (n : ℚ) * f.quantum e = (n * 2 ^ k : Nat) * f.quantum (f.exponent (n * f.quantum e)) := by
    conv_lhs => rw [same, quantum_add]
    push_cast
    ring
  have scale := quantum_positive f (f.exponent (n * f.quantum e))
  refine ⟨n * 2 ^ k, digits, ?_, above.imp_right fun reaches => ?_⟩
  · have below' := digits.symm.trans_lt below
    exact_mod_cast lt_of_mul_lt_mul_right below' scale.le
  · have reaches' := reaches.trans_eq digits
    exact_mod_cast le_of_mul_le_mul_right reaches' scale

theorem round_near {q h : ℚ} (holds : f.Holds h) (positive : 0 ≤ q)
    (near : |q - h| < f.quantum (f.exponent h) / 4) : f.round q = h := by
  obtain ⟨n, digits, short, full⟩ := holds_digits holds
  set e := f.exponent h with exponent
  have scale := quantum_positive f e
  have bounds := abs_lt.mp near
  obtain ⟨below, above⟩ := exponent_bounds f positive
  have some_exponent := exponent_pos f q
  have some_exponent' : 1 ≤ e := exponent_pos f h
  have full_short : (n : ℚ) + 1 ≤ 2 ^ f.precision := by exact_mod_cast short
  have top : (n : ℚ) * f.quantum e + f.quantum e ≤ 2 ^ f.precision * f.quantum e := by
    have := mul_le_mul_of_nonneg_right full_short scale.le
    linarith
  have rounds : ∀ (e' n' : Nat), f.exponent q = e' → h = n' * f.quantum e' →
      |q - h| < f.quantum e' / 2 → f.round q = h := by
    intro e' n' here same close
    have scale' := quantum_positive f e'
    have digit : roundEven (q / f.quantum e') = n' := by
      apply roundEven_near (scaled_nonneg f positive e')
      have apart : q / f.quantum e' - n' = (q - h) / f.quantum e' := by
        rw [same, sub_div, mul_div_cancel_right₀ _ scale'.ne']
      rw [apart, abs_div, abs_of_pos scale', div_lt_iff₀ scale']
      linarith
    rw [Format.round, here, digit, same]
  rcases Nat.lt_trichotomy (f.exponent q) e with less | here | more
  · -- Below the least number with this exponent, where the spacing is half as wide.
    have full' : 2 ^ f.fracBits ≤ n := full.resolve_left (by omega)
    have full_n : (2 : ℚ) ^ f.fracBits ≤ n := by exact_mod_cast full'
    obtain ⟨d, next⟩ : ∃ d, e = d + 1 := ⟨e - 1, by omega⟩
    have half : f.quantum e = 2 * f.quantum d := by rw [next, quantum_add, pow_one]
    have few : (2 : ℚ) ^ f.fracBits * f.quantum e ≤ n * f.quantum e :=
      mul_le_mul_of_nonneg_right full_n scale.le
    have some_digits : (1 : ℚ) ≤ 2 ^ f.fracBits := one_le_pow₀ (by norm_num)
    have one_digit : f.quantum e ≤ 2 ^ f.fracBits * f.quantum e := le_mul_of_one_le_left scale.le some_digits
    have last : f.exponent q = d := by
      by_contra other
      have double := mul_le_mul_of_nonneg_left (quantum_double f (show f.exponent q < d by omega))
        (by positivity : (0 : ℚ) ≤ 2 ^ f.fracBits)
      have whole : (2 : ℚ) ^ f.fracBits * f.quantum e = 2 * (2 ^ f.fracBits * f.quantum d) := by
        rw [half]
        ring
      rw [Format.precision, pow_succ] at below
      linarith
    apply rounds d (2 * n) last
    · rw [digits, half]
      push_cast
      ring
    · rw [half] at near
      linarith
  · exact rounds e n here digits (near.trans (by linarith))
  · have reaches := above.resolve_left (by omega)
    have double := mul_le_mul_of_nonneg_left (quantum_double f more) (by positivity : (0 : ℚ) ≤ 2 ^ f.fracBits)
    rw [Format.precision, pow_succ] at top
    linarith

theorem holds_nonneg {h : ℚ} (holds : f.Holds h) : 0 ≤ h := by
  obtain ⟨n, e, _, _, rfl⟩ := holds
  exact mul_nonneg (Nat.cast_nonneg _) (quantum_positive f e).le

theorem holds_least {h : ℚ} (holds : f.Holds h) (some_h : h ≠ 0) : f.quantum 1 ≤ h := by
  obtain ⟨n, e, _, normal, rfl⟩ := holds
  have some_n : n ≠ 0 := by
    rintro rfl
    exact some_h (by simp)
  have one : (1 : ℚ) ≤ n := by exact_mod_cast Nat.one_le_iff_ne_zero.mpr some_n
  exact (quantum_mono f normal).trans (le_mul_of_one_le_left (quantum_positive f e).le one)

theorem round_fixed {h : ℚ} (holds : f.Holds h) : f.round h = h := by
  apply round_near holds (holds_nonneg holds)
  rw [sub_self, abs_zero]
  have := quantum_positive f (f.exponent h)
  linarith

/-- A number the format holds is all that is left of what is relatively close to it. -/
theorem round_close {q h : ℚ} (holds : f.Holds h) (positive : 0 ≤ q)
    (close : |q - h| * 2 ^ (f.precision + 2) < h) : f.round q = h := by
  apply round_near holds positive
  obtain ⟨below, _⟩ := exponent_bounds f (holds_nonneg holds)
  rw [pow_add, ← mul_assoc] at close
  have scaled : |q - h| * 4 * 2 ^ f.precision < f.quantum (f.exponent h) * 2 ^ f.precision := by linarith
  have := lt_of_mul_lt_mul_right scaled (by positivity)
  linarith

theorem holds_greatest (some_exponent : 2 ≤ f.top) : f.Holds f.greatest := by
  have one : 1 ≤ 2 ^ f.precision := Nat.one_le_two_pow
  refine ⟨2 ^ f.precision - 1, f.top - 1, by omega, by omega, ?_⟩
  rw [Format.greatest, Nat.cast_sub one]
  push_cast
  rfl

/-- Digits at an exponent, as the two fields of a pattern; one digit too many carries. -/
theorem datum_body (negative : Bool) {n e : Nat} (normal : 1 ≤ e) (short : n ≤ 2 ^ f.precision)
    (full : e = 1 ∨ 2 ^ f.fracBits ≤ n) (under_top : (e - 1) * 2 ^ f.fracBits + n < f.top * 2 ^ f.fracBits) :
    f.datum negative (((e - 1) * 2 ^ f.fracBits + n) / 2 ^ f.fracBits)
      (((e - 1) * 2 ^ f.fracBits + n) % 2 ^ f.fracBits) = .finite negative (n * f.quantum e) := by
  have one : 0 < 2 ^ f.fracBits := Nat.two_pow_pos _
  rw [Format.precision, Nat.pow_succ] at short
  obtain ⟨e, rfl⟩ := Nat.exists_eq_add_of_le' normal
  rw [Nat.add_sub_cancel] at under_top ⊢
  rw [Nat.mul_add_mod_self_right, Nat.add_comm, Nat.add_mul_div_right _ _ one]
  have field : n / 2 ^ f.fracBits + e < f.top := by
    rw [← Nat.add_mul_div_right _ _ one, Nat.div_lt_iff_lt_mul one, Nat.add_comm]
    exact under_top
  unfold Format.datum
  rw [if_neg (by omega)]
  rcases Nat.lt_or_ge n (2 ^ f.fracBits) with few | enough
  · obtain rfl : e = 0 := by
      have := full.resolve_right (by omega)
      omega
    rw [Nat.div_eq_of_lt few, if_pos rfl, Nat.mod_eq_of_lt few]
  · obtain ⟨rest, rfl⟩ := Nat.exists_eq_add_of_le enough
    rw [Nat.add_div_left _ one, Nat.add_mod_left]
    rcases Nat.lt_or_ge rest (2 ^ f.fracBits) with fits | carries
    · rw [Nat.div_eq_of_lt fits, Nat.mod_eq_of_lt fits, if_neg (by omega)]
      push_cast
      rw [show Nat.succ 0 + e = e + 1 by omega]
    · obtain rfl : rest = 2 ^ f.fracBits := by omega
      rw [Nat.div_self one, Nat.mod_self, if_neg (by omega), show Nat.succ 1 + e = e + 1 + 1 by omega,
        quantum_add f (e + 1) 1]
      push_cast
      rw [show (2 ^ f.fracBits + 0) * (2 ^ 1 * f.quantum (e + 1)) =
        (2 ^ f.fracBits + 2 ^ f.fracBits) * f.quantum (e + 1) by ring]

theorem decode_encode (negative : Bool) {q : ℚ} (some_exponent : 2 ≤ f.top) (positive : 0 ≤ q)
    (fits : q ≤ f.greatest) : decode (encode f (.finite negative q)) = .finite negative (f.round q) := by
  have scale := quantum_positive f (f.exponent q)
  obtain ⟨below, above⟩ := exponent_bounds f positive
  have rounded : f.round q ≤ f.greatest := by
    rw [← round_fixed (holds_greatest some_exponent)]
    exact round_mono f positive fits
  have short : roundEven (q / f.quantum (f.exponent q)) ≤ 2 ^ f.precision := by
    rw [← roundEven_natCast (2 ^ f.precision)]
    apply roundEven_mono (scaled_nonneg f positive _)
    rw [div_le_iff₀ scale]
    exact_mod_cast below.le
  have full : f.exponent q = 1 ∨ 2 ^ f.fracBits ≤ roundEven (q / f.quantum (f.exponent q)) := by
    refine above.imp_right fun reaches => ?_
    rw [← roundEven_natCast (2 ^ f.fracBits)]
    apply roundEven_mono (Nat.cast_nonneg _)
    rw [le_div_iff₀ scale]
    exact_mod_cast reaches
  have some_scale := quantum_positive f (f.top - 1)
  have least : f.exponent q ≤ f.top - 1 := by
    by_contra more
    have reaches := above.resolve_left (by omega)
    have double := mul_le_mul_of_nonneg_left (quantum_double f (not_le.mp more))
      (by positivity : (0 : ℚ) ≤ 2 ^ f.fracBits)
    rw [Format.greatest, Format.precision, pow_succ] at fits
    linarith
  have under_top : (f.exponent q - 1) * 2 ^ f.fracBits + roundEven (q / f.quantum (f.exponent q)) <
      f.top * 2 ^ f.fracBits := by
    obtain ⟨top, top_eq⟩ : ∃ top, f.top = top + 2 := ⟨f.top - 2, by omega⟩
    have one : 0 < 2 ^ f.fracBits := Nat.two_pow_pos _
    rcases least.eq_or_lt with last | less
    · have few : roundEven (q / f.quantum (f.exponent q)) < 2 ^ f.precision := by
        have digits : (roundEven (q / f.quantum (f.exponent q)) : ℚ) * f.quantum (f.exponent q) ≤
            (2 ^ f.precision - 1) * f.quantum (f.exponent q) := by
          conv_rhs => rw [last]
          exact rounded
        have := le_of_mul_le_mul_right digits scale
        have : (roundEven (q / f.quantum (f.exponent q)) : ℚ) < 2 ^ f.precision := by linarith
        exact_mod_cast this
      rw [Format.precision, Nat.pow_succ] at few
      rw [last, top_eq, show top + 2 - 1 - 1 = top by omega, Nat.add_mul]
      rw [last, top_eq] at few
      omega
    · have before : f.exponent q - 1 + 2 ≤ top + 1 := by
        have := exponent_pos f q
        omega
      have place := Nat.mul_le_mul_right (2 ^ f.fracBits) before
      rw [Format.precision, Nat.pow_succ] at short
      rw [top_eq]
      simp only [Nat.add_mul] at place ⊢
      omega
  simp only [encode]
  rw [Nat.min_eq_left under_top.le, decode_pattern negative (under_top.trans (top_bound f)),
    datum_body negative (exponent_pos f q) short full under_top]
  rfl

theorem round_zero (f : Format) : f.round 0 = 0 := by
  rw [Format.round, zero_div, show roundEven 0 = 0 from roundEven_natCast 0]
  simp

theorem nearest_neg (f : Format) (q : ℚ) : f.nearest (-q) = -f.nearest q := by
  unfold Format.nearest
  rcases lt_trichotomy q 0 with negative | rfl | positive
  · rw [if_neg (by linarith), if_pos negative, neg_neg]
  · simp [round_zero]
  · rw [if_pos (by linarith), if_neg (by linarith), neg_neg]

theorem nearest_nonneg (f : Format) {q : ℚ} (positive : 0 ≤ q) : f.nearest q = f.round q :=
  if_neg (not_lt.mpr positive)

theorem nearest_signed (f : Format) (negative : Bool) {size : ℚ} (positive : 0 ≤ size) :
    f.nearest (signed negative size) = signed negative (f.round size) := by
  cases negative with
  | false => exact nearest_nonneg f positive
  | true =>
    change f.nearest (-size) = -f.round size
    rw [nearest_neg, nearest_nonneg f positive]

theorem nearest_mono (f : Format) {q r : ℚ} (le : q ≤ r) : f.nearest q ≤ f.nearest r := by
  rcases lt_or_ge q 0 with negative | positive
  · rcases lt_or_ge r 0 with negative' | positive'
    · rw [Format.nearest, Format.nearest, if_pos negative, if_pos negative']
      exact neg_le_neg (round_mono f (by linarith) (by linarith))
    · rw [nearest_nonneg f positive', Format.nearest, if_pos negative]
      have := round_nonneg f (-q)
      have := round_nonneg f r
      linarith
  · rw [nearest_nonneg f positive, nearest_nonneg f (positive.trans le)]
    exact round_mono f positive le

theorem nearest_abs (f : Format) (q : ℚ) : |f.nearest q| = f.round |q| := by
  rcases lt_or_ge q 0 with negative | positive
  · rw [Format.nearest, if_pos negative, abs_neg, abs_of_nonneg (round_nonneg f _), abs_of_neg negative]
  · rw [nearest_nonneg f positive, abs_of_nonneg (round_nonneg f _), abs_of_nonneg positive]

theorem nearest_bounded {q h : ℚ} (holds : f.Holds h) (below : |q| ≤ h) : |f.nearest q| ≤ h := by
  rw [nearest_abs, ← round_fixed holds]
  exact round_mono f (abs_nonneg q) below

theorem nearest_error (f : Format) (q : ℚ) : |f.nearest q - q| ≤ f.quantum (f.exponent |q|) / 2 := by
  rcases lt_or_ge q 0 with negative | positive
  · have error := round_error f (show 0 ≤ -q by linarith)
    rw [Format.nearest, if_pos negative, abs_of_neg negative, ← abs_neg]
    rwa [show -(-f.round (-q) - q) = f.round (-q) - -q by ring]
  · rw [nearest_nonneg f positive, abs_of_nonneg positive]
    exact round_error f positive

theorem nearest_within (f : Format) {q : ℚ} {e : Nat} (normal : 1 ≤ e)
    (below : |q| < 2 ^ f.precision * f.quantum e) : |f.nearest q - q| ≤ f.quantum e / 2 := by
  obtain ⟨_, above⟩ := exponent_bounds f (abs_nonneg q)
  have least : f.exponent |q| ≤ e := by
    by_contra more
    have reaches := above.resolve_left (by omega)
    have double := mul_le_mul_of_nonneg_left (quantum_double f (not_le.mp more))
      (by positivity : (0 : ℚ) ≤ 2 ^ f.fracBits)
    rw [Format.precision, pow_succ] at below
    linarith
  have error := nearest_error f q
  have := quantum_mono f least
  linarith

theorem nearest_relative (f : Format) {q : ℚ} (normal : 2 ^ f.fracBits * f.quantum 1 ≤ |q|) :
    |f.nearest q - q| * 2 ^ f.precision ≤ |q| := by
  have error := nearest_error f q
  obtain ⟨_, above⟩ := exponent_bounds f (abs_nonneg q)
  have reaches : 2 ^ f.fracBits * f.quantum (f.exponent |q|) ≤ |q| := by
    rcases above with least | reaches
    · rw [least]
      exact normal
    · exact reaches
  calc |f.nearest q - q| * 2 ^ f.precision
      ≤ f.quantum (f.exponent |q|) / 2 * 2 ^ f.precision := mul_le_mul_of_nonneg_right error (by positivity)
    _ = 2 ^ f.fracBits * f.quantum (f.exponent |q|) := by
        rw [Format.precision, pow_succ]
        ring
    _ ≤ |q| := reaches

theorem nearest_fixed {h : ℚ} (holds : f.Holds |h|) : f.nearest h = h := by
  rcases lt_or_ge h 0 with negative | positive
  · rw [abs_of_neg negative] at holds
    rw [Format.nearest, if_pos negative, round_fixed holds, neg_neg]
  · rw [abs_of_nonneg positive] at holds
    rw [nearest_nonneg f positive, round_fixed holds]

theorem nearest_close {q h : ℚ} (holds : f.Holds |h|) (close : |q - h| * 2 ^ (f.precision + 2) < |h|) :
    f.nearest q = h := by
  have far : |q - h| < |h| := by
    refine lt_of_le_of_lt (le_mul_of_one_le_right (abs_nonneg _) ?_) close
    exact one_le_pow₀ (by norm_num)
  have bounds := abs_lt.mp far
  rcases lt_or_ge h 0 with negative | positive
  · rw [abs_of_neg negative] at holds close bounds
    have apart : -q - -h = -(q - h) := by ring
    rw [Format.nearest, if_pos (by linarith), round_close holds (by linarith) (by rwa [apart, abs_neg]), neg_neg]
  · rw [abs_of_nonneg positive] at holds close bounds
    rw [nearest_nonneg f (by linarith), round_close holds (by linarith) close]

theorem value_some {w : Word f} {a : ℚ} :
    value w = some a ↔ ∃ negative size, decode w = .finite negative size ∧ signed negative size = a := by
  unfold value
  cases decode w with
  | nan => simp
  | infinite negative => simp
  | finite negative size => simp

theorem signed_abs (negative : Bool) {size : ℚ} (positive : 0 ≤ size) : |signed negative size| = size := by
  cases negative with
  | false => exact abs_of_nonneg positive
  | true =>
    change |-size| = size
    rw [abs_neg, abs_of_nonneg positive]

section operations
variable (some_exponent : 2 ≤ f.top)
include some_exponent

theorem finite_holds {w : Word f} {negative : Bool} {size : ℚ} (datum : decode w = .finite negative size) :
    f.Holds size ∧ size ≤ f.greatest := by
  have some_precision : 2 ^ f.precision = 2 ^ f.fracBits + 2 ^ f.fracBits := by
    rw [Format.precision, Nat.pow_succ]
    omega
  have top : f.top + 1 = 2 ^ f.expBits := by
    have := Nat.two_pow_pos f.expBits
    unfold Format.top
    omega
  have fraction := Nat.mod_lt w.toNat (Nat.two_pow_pos f.fracBits)
  have field := Nat.mod_lt (w.toNat / 2 ^ f.fracBits) (Nat.two_pow_pos f.expBits)
  have digits : ∀ n e : Nat, n < 2 ^ f.precision → 1 ≤ e → e ≤ f.top - 1 →
      f.Holds (n * f.quantum e) ∧ (n : ℚ) * f.quantum e ≤ f.greatest := by
    intro n e short normal least
    refine ⟨⟨n, e, short, normal, rfl⟩, ?_⟩
    have few : (n : ℚ) ≤ 2 ^ f.precision - 1 := by
      have : (n : ℚ) + 1 ≤ 2 ^ f.precision := by exact_mod_cast short
      linarith
    exact mul_le_mul few (quantum_mono f least) (quantum_positive f e).le ((Nat.cast_nonneg n).trans few)
  rw [decode_datum] at datum
  unfold Format.datum at datum
  split at datum
  · split at datum <;> cases datum
  · split at datum
    · cases datum
      exact digits _ 1 (by omega) le_rfl (by omega)
    · cases datum
      have holds := digits (2 ^ f.fracBits + w.toNat % 2 ^ f.fracBits)
        (w.toNat / 2 ^ f.fracBits % 2 ^ f.expBits) (by omega) (by omega) (by omega)
      push_cast at holds ⊢
      exact holds

theorem value_holds {w : Word f} {a : ℚ} (stands : value w = some a) : f.Holds |a| := by
  obtain ⟨negative, size, datum, rfl⟩ := value_some.mp stands
  obtain ⟨holds, _⟩ := finite_holds some_exponent datum
  rwa [signed_abs negative (holds_nonneg holds)]

theorem value_encode (negative : Bool) {size : ℚ} (positive : 0 ≤ size) (fits : size ≤ f.greatest) :
    value (encode f (.finite negative size)) = some (f.nearest (signed negative size)) := by
  rw [value_finite (decode_encode negative some_exponent positive fits), nearest_signed f negative positive]

theorem value_rounded (negative : Bool) {q : ℚ} (sign : q ≠ 0 → negative = decide (q < 0))
    (fits : |q| ≤ f.greatest) : value (encode f (.finite negative |q|)) = some (f.nearest q) := by
  rw [value_encode some_exponent negative (abs_nonneg q) fits]
  congr 1
  rcases lt_trichotomy q 0 with below | rfl | above
  · rw [sign below.ne, decide_eq_true below, abs_of_neg below]
    change f.nearest (- -q) = _
    rw [neg_neg]
  · cases negative <;> simp [signed]
  · rw [sign above.ne', decide_eq_false (not_lt.mpr above.le), abs_of_pos above]
    rfl

theorem value_ofRat {q : ℚ} (fits : |q| ≤ f.greatest) : value (ofRat f q) = some (f.nearest q) :=
  value_rounded some_exponent _ (fun _ => rfl) fits

theorem value_add {v w : Word f} {a b : ℚ} (left : value v = some a) (right : value w = some b)
    (fits : |a + b| ≤ f.greatest) : value (add v w) = some (f.nearest (a + b)) := by
  obtain ⟨s, x, datum, rfl⟩ := value_some.mp left
  obtain ⟨t, y, datum', rfl⟩ := value_some.mp right
  rw [add, datum, datum']
  exact value_rounded some_exponent _ (fun other => if_neg other) fits

theorem value_mul {v w : Word f} {a b : ℚ} (left : value v = some a) (right : value w = some b)
    (fits : |a * b| ≤ f.greatest) : value (mul v w) = some (f.nearest (a * b)) := by
  obtain ⟨s, x, datum, rfl⟩ := value_some.mp left
  obtain ⟨t, y, datum', rfl⟩ := value_some.mp right
  have product : signed s x * signed t y = signed (s ^^ t) (x * y) := by
    cases s <;> cases t <;> simp [signed]
  have positive : 0 ≤ x * y := mul_nonneg (holds_nonneg (finite_holds some_exponent datum).1)
    (holds_nonneg (finite_holds some_exponent datum').1)
  rw [product, signed_abs _ positive] at fits
  rw [mul, datum, datum', product]
  exact value_encode some_exponent _ positive fits

theorem value_div {v w : Word f} {a b : ℚ} (left : value v = some a) (right : value w = some b)
    (some_b : b ≠ 0) (fits : |a / b| ≤ f.greatest) : value (div v w) = some (f.nearest (a / b)) := by
  obtain ⟨s, x, datum, rfl⟩ := value_some.mp left
  obtain ⟨t, y, datum', rfl⟩ := value_some.mp right
  have quotient : signed s x / signed t y = signed (s ^^ t) (x / y) := by
    cases s <;> cases t <;> simp [signed, neg_div, div_neg]
  have some_y : y ≠ 0 := by
    rintro rfl
    apply some_b
    cases t <;> simp [signed]
  have positive : 0 ≤ x / y := div_nonneg (holds_nonneg (finite_holds some_exponent datum).1)
    (holds_nonneg (finite_holds some_exponent datum').1)
  rw [quotient, signed_abs _ positive] at fits
  rw [div, datum, datum', quotient]
  simp only [Datum.div, ne_eq, some_y, not_false_eq_true, if_true]
  exact value_encode some_exponent _ positive fits

theorem value_convert {g : Format} {w : Word g} {a : ℚ} (some_exponent' : 2 ≤ g.top)
    (stands : value w = some a) (fits : |a| ≤ f.greatest) : value (convert f w) = some (f.nearest a) := by
  obtain ⟨s, x, datum, rfl⟩ := value_some.mp stands
  have positive := holds_nonneg (finite_holds some_exponent' datum).1
  rw [signed_abs s positive] at fits
  rw [convert, datum]
  exact value_encode some_exponent s positive fits

end operations

theorem value_neg {w : Word f} {a : ℚ} (stands : value w = some a) : value (neg w) = some (-a) := by
  obtain ⟨s, x, datum, rfl⟩ := value_some.mp stands
  rw [value_finite (by rw [decode_neg, datum]; rfl)]
  cases s <;> simp [signed]

theorem value_abs (some_exponent : 2 ≤ f.top) {w : Word f} {a : ℚ} (stands : value w = some a) :
    value (abs w) = some |a| := by
  obtain ⟨s, x, datum, rfl⟩ := value_some.mp stands
  have positive := holds_nonneg (finite_holds some_exponent datum).1
  rw [abs_eq, decode_sign datum, signed_abs s positive]
  cases s with
  | false => exact stands
  | true =>
    rw [if_pos rfl, value_neg stands]
    simp [signed]

theorem value_sub (some_exponent : 2 ≤ f.top) {v w : Word f} {a b : ℚ} (left : value v = some a)
    (right : value w = some b) (fits : |a - b| ≤ f.greatest) : value (sub v w) = some (f.nearest (a - b)) := by
  rw [sub_eq_add_neg] at fits ⊢
  exact value_add some_exponent left (value_neg right) fits

theorem lt_value {v w : Word f} {a b : ℚ} (left : value v = some a) (right : value w = some b) :
    lt v w = decide (a < b) := by
  obtain ⟨s, x, datum, rfl⟩ := value_some.mp left
  obtain ⟨t, y, datum', rfl⟩ := value_some.mp right
  rw [lt, datum, datum']
  rfl

end Ieee
