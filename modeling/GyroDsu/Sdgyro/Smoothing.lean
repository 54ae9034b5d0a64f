import GyroDsu.Lib.IeeeRounding
import GyroDsu.Sdgyro.CemuhookAdapter

/-
SmoothAccel as a filter on numbers: the weighted mean of the last value and the reading,
three times rounded to double and once to float.
-/
namespace Smoothing
open CemuhookAdapter Ieee

def weightLast : ℚ := 8556839292003942 / 2 ^ 53
def weightCurr : ℚ := 7205759403792794 / 2 ^ 57

def mix (last curr : ℚ) : ℚ :=
  single.nearest (double.nearest (double.nearest (last * weightLast) + double.nearest (curr * weightCurr)))

theorem value_weightLast : value (ofRat double (95 / 100)) = some weightLast := by decide +kernel

theorem value_weightCurr : value (ofRat double (5 / 100)) = some weightCurr := by decide +kernel

theorem fits_single {q : ℚ} (small : |q| ≤ 2 ^ 17) : |q| ≤ single.greatest :=
  small.trans (by decide +kernel)

theorem fits_double {q : ℚ} (small : |q| ≤ 2 ^ 17) : |q| ≤ double.greatest :=
  small.trans (by decide +kernel)

theorem quantum_widened (e : Nat) : single.quantum e = double.quantum (e + 925) := by
  have bias : single.bias = 127 := by decide
  have bias' : double.bias = 1023 := by decide
  have digits : single.fracBits = 23 := rfl
  have digits' : double.fracBits = 52 := rfl
  have same : (e : Int) - (127 : Nat) - (23 : Nat) = ((e + 925 : Nat) : Int) - (1023 : Nat) - (52 : Nat) := by omega
  rw [Format.quantum, Format.quantum, bias, bias', digits, digits', same]

theorem single_in_double {q : ℚ} (holds : single.Holds q) : double.Holds q := by
  obtain ⟨n, e, short, normal, rfl⟩ := holds
  refine ⟨n, e + 925, ?_, by omega, by rw [quantum_widened]⟩
  simp only [Format.precision, single, double] at short ⊢
  omega

theorem holds_power (k : Nat) (short : k < 24) : double.Holds (2 ^ k) := by
  refine ⟨2 ^ k, 1075, ?_, by decide, ?_⟩
  · exact (Nat.pow_lt_pow_right (by decide) short).trans (by decide)
  · have one : double.quantum 1075 = 1 := by decide +kernel
    rw [one, mul_one]
    push_cast
    rfl

theorem holds_int (n : Int) (short : n.natAbs < 2 ^ 24) : single.Holds |(n : ℚ)| := by
  refine ⟨n.natAbs, 150, short, by decide, ?_⟩
  have one : single.quantum 150 = 1 := by decide +kernel
  rw [one, mul_one, ← Int.cast_abs, Int.abs_eq_natAbs]
  rfl

theorem mix_mono {a b c d : ℚ} (last : a ≤ b) (curr : c ≤ d) : mix a c ≤ mix b d := by
  have some_last : (0 : ℚ) ≤ weightLast := by norm_num [weightLast]
  have some_curr : (0 : ℚ) ≤ weightCurr := by norm_num [weightCurr]
  apply nearest_mono
  apply nearest_mono
  apply add_le_add
  · exact nearest_mono _ (mul_le_mul_of_nonneg_right last some_last)
  · exact nearest_mono _ (mul_le_mul_of_nonneg_right curr some_curr)

theorem double_relative {q : ℚ} (normal : 1 / 2 ^ 200 ≤ |q|) : |double.nearest q - q| * 2 ^ 53 ≤ |q| :=
  nearest_relative double (le_trans (by decide +kernel) normal)

/-- A value that the reading agrees with stays, for all that the weights do not add up to one. -/
theorem mix_steady {a : ℚ} (holds : single.Holds |a|) : mix a a = a := by
  rcases eq_or_ne a 0 with rfl | some_a
  · have zero : ∀ f : Format, f.nearest 0 = 0 := fun f => by rw [nearest_nonneg f le_rfl, round_zero]
    simp only [mix, zero_mul, zero, add_zero]
  · have least : 1 / 2 ^ 149 ≤ |a| :=
      le_trans (by decide +kernel) (holds_least holds (abs_ne_zero.mpr some_a))
    have left : |a * weightLast| = |a| * weightLast := by
      rw [abs_mul, abs_of_nonneg (by norm_num [weightLast] : (0 : ℚ) ≤ weightLast)]
    have right : |a * weightCurr| = |a| * weightCurr := by
      rw [abs_mul, abs_of_nonneg (by norm_num [weightCurr] : (0 : ℚ) ≤ weightCurr)]
    have missing : |a * (weightLast + weightCurr - 1)| = |a| * (6 / 2 ^ 57) := by
      rw [abs_mul]
      congr 1
      rw [abs_of_nonpos (by norm_num [weightLast, weightCurr])]
      norm_num [weightLast, weightCurr]
    have error := double_relative (q := a * weightLast) (by rw [left, weightLast]; linarith)
    have error' := double_relative (q := a * weightCurr) (by rw [right, weightCurr]; linarith)
    rw [left] at error
    rw [right] at error'
    have sum : |double.nearest (a * weightLast) + double.nearest (a * weightCurr) - a| ≤
        |double.nearest (a * weightLast) - a * weightLast| +
          |double.nearest (a * weightCurr) - a * weightCurr| + |a * (weightLast + weightCurr - 1)| := by
      refine le_trans (le_of_eq ?_) (abs_add_three _ _ _)
      congr 1
      ring
    rw [missing] at sum
    simp only [weightLast, weightCurr] at error error' sum
    have near : |double.nearest (a * weightLast) + double.nearest (a * weightCurr) - a| * 2 ^ 51 ≤ |a| := by
      simp only [weightLast, weightCurr]
      linarith
    have size := abs_sub_abs_le_abs_sub a (double.nearest (a * weightLast) + double.nearest (a * weightCurr))
    have size' := abs_sub_abs_le_abs_sub (double.nearest (a * weightLast) + double.nearest (a * weightCurr)) a
    rw [abs_sub_comm a] at size
    have last := double_relative
      (q := double.nearest (a * weightLast) + double.nearest (a * weightCurr)) (by linarith)
    have whole := abs_sub_le
      (double.nearest (double.nearest (a * weightLast) + double.nearest (a * weightCurr)))
      (double.nearest (a * weightLast) + double.nearest (a * weightCurr)) a
    apply nearest_close holds
    have digits : single.precision + 2 = 26 := rfl
    rw [digits]
    linarith

theorem mix_between {a c lo hi : ℚ} (holds : single.Holds |a|) (holds' : single.Holds |c|)
    (above : lo ≤ a ∧ lo ≤ c) (below : a ≤ hi ∧ c ≤ hi) : lo ≤ mix a c ∧ mix a c ≤ hi := by
  rcases le_total a c with up | down
  · have low := mix_mono (le_refl a) up
    have high := mix_mono up (le_refl c)
    rw [mix_steady holds] at low
    rw [mix_steady holds'] at high
    exact ⟨above.1.trans low, high.trans below.2⟩
  · have low := mix_mono down (le_refl c)
    have high := mix_mono (le_refl a) down
    rw [mix_steady holds'] at low
    rw [mix_steady holds] at high
    exact ⟨above.2.trans low, high.trans below.1⟩

theorem mix_error {a c : ℚ} (small : |a| ≤ 2 ^ 15) (small' : |c| ≤ 2 ^ 15) :
    |mix a c - (19 / 20 * a + 1 / 20 * c)| ≤ 1 / 500 := by
  have spacing : double.quantum 1038 = 1 / 2 ^ 37 := by decide +kernel
  have spacing' : single.quantum 142 = 1 / 2 ^ 8 := by decide +kernel
  have bounds := abs_le.mp small
  have bounds' := abs_le.mp small'
  have within : ∀ q : ℚ, |q| < 2 ^ 16 → |double.nearest q - q| ≤ 1 / 2 ^ 38 := by
    intro q below
    have error := nearest_within double (q := q) (e := 1038) (by decide) (by
      rw [spacing]
      refine below.trans_eq ?_
      norm_num [Format.precision, double])
    rw [spacing] at error
    linarith
  have within' : ∀ q : ℚ, |q| < 2 ^ 16 → |single.nearest q - q| ≤ 1 / 2 ^ 9 := by
    intro q below
    have error := nearest_within single (q := q) (e := 142) (by decide) (by
      rw [spacing']
      refine below.trans_eq ?_
      norm_num [Format.precision, single])
    rw [spacing'] at error
    linarith
  have last := abs_le.mp (within (a * weightLast) (by
    rw [abs_lt, weightLast]
    constructor <;> linarith))
  have curr := abs_le.mp (within (c * weightCurr) (by
    rw [abs_lt, weightCurr]
    constructor <;> linarith))
  simp only [weightLast, weightCurr] at last curr
  have sum := abs_le.mp (within (double.nearest (a * weightLast) + double.nearest (c * weightCurr)) (by
    rw [abs_lt]
    simp only [weightLast, weightCurr]
    constructor <;> linarith))
  simp only [weightLast, weightCurr] at sum
  have whole := abs_le.mp (within'
    (double.nearest (double.nearest (a * weightLast) + double.nearest (c * weightCurr))) (by
      rw [abs_lt]
      simp only [weightLast, weightCurr]
      constructor <;> linarith))
  simp only [weightLast, weightCurr] at whole
  rw [abs_le]
  simp only [mix, weightLast, weightCurr]
  constructor <;> linarith

theorem value_reading (curr : Int16) : value (floatOfInt16 curr) = some (curr.toInt : ℚ) := by
  have low := curr.le_toInt
  have high := curr.toInt_lt
  have holds := holds_int curr.toInt (by omega)
  have bound : |(curr.toInt : ℚ)| ≤ 2 ^ 15 := by
    rw [abs_le]
    constructor
    · exact_mod_cast low
    · exact_mod_cast high.le
  rw [floatOfInt16, ofInt, value_ofRat (by decide) (fits_single (by linarith)), nearest_fixed holds]

/-- The test whether a reading is smoothed or taken over. -/
def near (last : Single) (curr : Int16) : Bool :=
  lt (abs (sub (floatOfInt16 curr) last)) accelSmooth

theorem value_smoothed {last : Single} {a : ℚ} (stands : value last = some a) (small : |a| ≤ 2 ^ 15)
    (curr : Int16) :
    value (smoothAccel last curr).1 = some (if near last curr then mix a curr.toInt else curr.toInt) := by
  have reading := value_reading curr
  have small' : |(curr.toInt : ℚ)| ≤ 2 ^ 15 := by
    rw [abs_le]
    constructor
    · exact_mod_cast curr.le_toInt
    · exact_mod_cast curr.toInt_lt.le
  have widened : ∀ {w : Single} {q : ℚ}, value w = some q → |q| ≤ 2 ^ 15 →
      value (convert double w) = some q := by
    intro w q stands small
    rw [value_convert (by decide) (by decide) stands (fits_double (by linarith)),
      nearest_fixed (single_in_double (value_holds (by decide) stands))]
  have weighted : ∀ {q w : ℚ}, |q| ≤ 2 ^ 15 → 0 ≤ w → w ≤ 1 → |q * w| ≤ 2 ^ 16 := by
    intro q w small some_w light
    rw [abs_mul, abs_of_nonneg some_w]
    have := mul_le_of_le_one_right (abs_nonneg q) light
    linarith
  have left := weighted (w := weightLast) small (by norm_num [weightLast]) (by norm_num [weightLast])
  have right := weighted (w := weightCurr) small' (by norm_num [weightCurr]) (by norm_num [weightCurr])
  have product := value_mul (by decide) (widened stands small) value_weightLast (fits_double (by linarith))
  have product' := value_mul (by decide) (widened reading small') value_weightCurr (fits_double (by linarith))
  have sum : |double.nearest (a * weightLast) + double.nearest (curr.toInt * weightCurr)| ≤ 2 ^ 17 := by
    have := nearest_bounded (holds_power 16 (by decide)) left
    have := nearest_bounded (holds_power 16 (by decide)) right
    have := abs_add_le (double.nearest (a * weightLast)) (double.nearest (curr.toInt * weightCurr))
    linarith
  have added := value_add (by decide) product product' (fits_double sum)
  have stored := value_convert (f := single) (by decide) (by decide) added
    (fits_single (nearest_bounded (holds_power 17 (by decide)) sum))
  unfold smoothAccel near
  simp only
  split
  · exact stored
  · exact reading

structure Range where
  lo : Int
  hi : Int
  low : -2 ^ 15 ≤ lo
  lo_zero : lo ≤ 0
  zero_hi : 0 ≤ hi
  high : hi ≤ 2 ^ 15

def Range.negate (r : Range) : Range where
  lo := -r.hi
  hi := -r.lo
  low := by have := r.high; omega
  lo_zero := by have := r.zero_hi; omega
  zero_hi := by have := r.lo_zero; omega
  high := by have := r.low; omega

def Range.Reads (r : Range) (v : Int16) : Prop := r.lo ≤ v.toInt ∧ v.toInt ≤ r.hi

def Range.Contains (r : Range) (unit : ℚ) (w : Single) : Prop :=
  ∃ q, value w = some q ∧ (r.lo : ℚ) ≤ q * unit ∧ q * unit ≤ r.hi

def smoothed : List Int16 → Single
  | [] => ofInt single 0
  | curr :: earlier => (smoothAccel (smoothed earlier) curr).1

def decided : List Int16 → List (Int16 × Bool)
  | [] => []
  | curr :: earlier => (curr, near (smoothed earlier) curr) :: decided earlier

/-- The same filter without any rounding, told for each reading what to do. -/
def exact : List (Int16 × Bool) → ℚ
  | [] => 0
  | (curr, mixed) :: earlier => if mixed then 19 / 20 * exact earlier + 1 / 20 * curr.toInt else curr.toInt

/-- The filter without any rounding that finds out itself what to do. -/
def ideal : List Int16 → ℚ
  | [] => 0
  | curr :: earlier =>
    if |curr.toInt - ideal earlier| < 511 then 19 / 20 * ideal earlier + 1 / 20 * curr.toInt else curr.toInt

/-- No reading is within a twentieth of the limit. -/
def Clear : List Int16 → Prop
  | [] => True
  | curr :: earlier => 1 / 20 ≤ |(|curr.toInt - ideal earlier| - 511)| ∧ Clear earlier

theorem reading_small (curr : Int16) : |(curr.toInt : ℚ)| ≤ 2 ^ 15 := by
  rw [abs_le]
  constructor
  · exact_mod_cast curr.le_toInt
  · exact_mod_cast curr.toInt_lt.le

theorem value_zero : value (ofInt single 0) = some 0 := by decide +kernel

theorem smoothed_range (r : Range) (readings : List Int16) (within : ∀ v ∈ readings, r.Reads v) :
    ∃ a, value (smoothed readings) = some a ∧ (r.lo : ℚ) ≤ a ∧ a ≤ r.hi := by
  induction readings with
  | nil =>
    refine ⟨0, value_zero, ?_, ?_⟩
    · exact_mod_cast r.lo_zero
    · exact_mod_cast r.zero_hi
  | cons curr earlier ih =>
    obtain ⟨a, stands, above, below⟩ := ih fun v member => within v (List.mem_cons_of_mem _ member)
    obtain ⟨above', below'⟩ := within curr List.mem_cons_self
    have low : (-2 ^ 15 : ℚ) ≤ r.lo := by exact_mod_cast r.low
    have high : (r.hi : ℚ) ≤ 2 ^ 15 := by exact_mod_cast r.high
    have above'' : (r.lo : ℚ) ≤ curr.toInt := by exact_mod_cast above'
    have below'' : (curr.toInt : ℚ) ≤ r.hi := by exact_mod_cast below'
    have small : |a| ≤ 2 ^ 15 := by
      rw [abs_le]
      constructor <;> linarith
    refine ⟨_, value_smoothed stands small curr, ?_⟩
    split
    · exact mix_between (value_holds (by decide) stands) (value_holds (by decide) (value_reading curr))
        ⟨above, above''⟩ ⟨below, below''⟩
    · exact ⟨above'', below''⟩

def widest : Range := ⟨-2 ^ 15, 2 ^ 15, by decide, by decide, by decide, by decide⟩

theorem widest_reads (v : Int16) : widest.Reads v := ⟨v.le_toInt, v.toInt_lt.le⟩

theorem smoothed_small (readings : List Int16) :
    ∃ a, value (smoothed readings) = some a ∧ |a| ≤ 2 ^ 15 := by
  obtain ⟨a, stands, above, below⟩ := smoothed_range widest readings fun v _ => widest_reads v
  refine ⟨a, stands, abs_le.mpr ⟨?_, ?_⟩⟩
  · exact_mod_cast above
  · exact_mod_cast below

/-- However long the stream, the roundings never add up to more than a twenty-fifth of a unit:
    each step forgets a twentieth of what the earlier ones have gathered. -/
theorem smoothed_exact (readings : List Int16) :
    ∃ a, value (smoothed readings) = some a ∧ |a - exact (decided readings)| ≤ 1 / 25 := by
  induction readings with
  | nil => exact ⟨0, value_zero, by simp [decided, exact]⟩
  | cons curr earlier ih =>
    obtain ⟨a, stands, small⟩ := smoothed_small earlier
    obtain ⟨b, stands', error⟩ := ih
    obtain rfl : a = b := Option.some.inj (stands.symm.trans stands')
    refine ⟨_, value_smoothed stands small curr, ?_⟩
    unfold decided exact
    split
    · have step := abs_le.mp (mix_error small (reading_small curr))
      have before := abs_le.mp error
      rw [abs_le]
      constructor <;> linarith
    · norm_num

theorem value_accelSmooth : value accelSmooth = some 511 := by decide +kernel

theorem near_rounded {last : Single} {a : ℚ} (stands : value last = some a) (small : |a| ≤ 2 ^ 15) (curr : Int16) :
    near last curr = decide (|single.nearest (curr.toInt - a)| < 511) := by
  have small' := reading_small curr
  have apart : |(curr.toInt : ℚ) - a| ≤ 2 ^ 17 := by
    have := abs_sub_le (curr.toInt : ℚ) 0 a
    rw [sub_zero, zero_sub, abs_neg] at this
    linarith
  have distance := value_sub (by decide) (value_reading curr) stands (fits_single apart)
  exact lt_value (value_abs (by decide) distance) value_accelSmooth

theorem near_below {last : Single} {a : ℚ} (stands : value last = some a) (small : |a| ≤ 2 ^ 15) {curr : Int16}
    (below : |curr.toInt - a| ≤ 511 - 1 / 128) : near last curr = true := by
  have spacing : single.quantum 143 = 1 / 2 ^ 7 := by decide +kernel
  have holds : single.Holds (511 - 1 / 128) := by
    refine ⟨65407, 143, by decide, by decide, ?_⟩
    rw [spacing]
    norm_num
  rw [near_rounded stands small, decide_eq_true_iff]
  exact (nearest_bounded holds below).trans_lt (by norm_num)

theorem near_above {last : Single} {a : ℚ} (stands : value last = some a) (small : |a| ≤ 2 ^ 15) {curr : Int16}
    (above : 511 ≤ |curr.toInt - a|) : near last curr = false := by
  have limit : single.round 511 = 511 := by
    have holds := holds_int 511 (by decide)
    rw [abs_of_nonneg (by norm_num)] at holds
    exact_mod_cast round_fixed holds
  rw [near_rounded stands small, decide_eq_false_iff_not, not_lt, nearest_abs, ← limit]
  exact round_mono single (by norm_num) above

theorem exact_decided (readings : List Int16) (clear : Clear readings) : exact (decided readings) = ideal readings := by
  induction readings with
  | nil => rfl
  | cons curr earlier ih =>
    obtain ⟨away, clear⟩ := clear
    have before := ih clear
    obtain ⟨a, stands, small⟩ := smoothed_small earlier
    obtain ⟨b, stands', error⟩ := smoothed_exact earlier
    obtain rfl : a = b := Option.some.inj (stands.symm.trans stands')
    rw [before] at error
    have shift := abs_le.mp (abs_abs_sub_abs_le (curr.toInt - a) (curr.toInt - ideal earlier))
    rw [show (curr.toInt : ℚ) - a - (curr.toInt - ideal earlier) = -(a - ideal earlier) by ring, abs_neg] at shift
    rw [decided, exact, ideal, before]
    by_cases close : |(curr.toInt : ℚ) - ideal earlier| < 511
    · rw [abs_of_neg (by linarith)] at away
      rw [near_below stands small (by linarith), if_pos rfl, if_pos close]
    · rw [abs_of_nonneg (by linarith)] at away
      rw [near_above stands small (by linarith), if_neg Bool.false_ne_true, if_neg close]

theorem value_acc1G : value acc1G = some (2 ^ 14) := by decide +kernel

theorem holds_g (n : Int) (short : n.natAbs < 2 ^ 24) : single.Holds |(n : ℚ) / 2 ^ 14| := by
  refine ⟨n.natAbs, 136, short, by decide, ?_⟩
  have unit : single.quantum 136 = 1 / 2 ^ 14 := by decide +kernel
  rw [unit, abs_div, ← Int.cast_abs, Int.abs_eq_natAbs, abs_of_nonneg (by positivity : (0 : ℚ) ≤ 2 ^ 14),
    mul_one_div]
  rfl

theorem value_g {last : Single} {a : ℚ} (stands : value last = some a) (small : |a| ≤ 2 ^ 15) :
    value (div last acc1G) = some (single.nearest (a / 2 ^ 14)) := by
  have some_g : |a / 2 ^ 14| ≤ 2 ^ 17 := by
    rw [abs_div, abs_of_nonneg (by positivity : (0 : ℚ) ≤ 2 ^ 14), div_le_iff₀ (by positivity)]
    linarith
  exact value_div (by decide) stands value_acc1G (by norm_num) (fits_single some_g)

def following (last : Single) (a : ℚ) (curr : Int16) : ℚ := if near last curr then mix a curr.toInt else curr.toInt

theorem smoothAccel_formula {last : Single} {a : ℚ} (stands : value last = some a) (small : |a| ≤ 2 ^ 15)
    (curr : Int16) :
    value (smoothAccel last curr).1 = some (following last a curr) ∧
      value (smoothAccel last curr).2 = some (single.nearest (following last a curr / 2 ^ 14)) := by
  have kept := value_smoothed stands small curr
  have bounds := abs_le.mp small
  have reading := abs_le.mp (reading_small curr)
  have within : |following last a curr| ≤ 2 ^ 15 := by
    unfold following
    split
    · have between := mix_between (value_holds (by decide) stands) (value_holds (by decide) (value_reading curr))
        ⟨bounds.1, reading.1⟩ ⟨bounds.2, reading.2⟩
      exact abs_le.mpr between
    · exact reading_small curr
  exact ⟨kept, value_g kept within⟩

end Smoothing
