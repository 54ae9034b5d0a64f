import GyroDsu.Lib.Crc
import Mathlib.Algebra.Field.ZMod
import Mathlib.Algebra.CharP.Two
import Mathlib.Algebra.Polynomial.FieldDivision
import Mathlib.Tactic.LinearCombination

/-!
Reflected cyclic redundancy checks as division of polynomials over GF(2). The register
is read with its lowest bit as the highest coefficient.
-/
namespace Crc
open Polynomial

variable {w : Nat} (poly : BitVec w)

noncomputable def coefficient (bit : Bool) : (ZMod 2)[X] := if bit then 1 else 0

noncomputable def wordPoly (v : BitVec w) : (ZMod 2)[X] :=
  ∑ i ∈ Finset.range w, coefficient (v.getLsbD i) * X ^ i

noncomputable def regPoly (reg : BitVec w) : (ZMod 2)[X] := wordPoly reg.reverse

/-- The first bit of a message is its highest coefficient. -/
noncomputable def messagePoly : List Bool → (ZMod 2)[X]
  | [] => 0
  | bit :: message => coefficient bit * X ^ message.length + messagePoly message

noncomputable def generator : (ZMod 2)[X] := X ^ w + regPoly poly

theorem coefficient_coeff (bit : Bool) (n : Nat) :
    (coefficient bit).coeff n = if bit = true ∧ n = 0 then 1 else 0 := by
  cases bit <;> simp [coefficient, coeff_one]

theorem wordPoly_filter (v : BitVec w) :
    wordPoly v = ∑ i ∈ (Finset.range w).filter (fun i => v.getLsbD i = true), X ^ i := by
  rw [wordPoly, Finset.sum_filter]
  refine Finset.sum_congr rfl fun i _ => ?_
  cases v.getLsbD i <;> simp [coefficient]

theorem wordPoly_coeff (v : BitVec w) (n : Nat) :
    (wordPoly v).coeff n = if v.getLsbD n then 1 else 0 := by
  rw [wordPoly, finsetSum_coeff]
  have term : ∀ i ∈ Finset.range w, (coefficient (v.getLsbD i) * X ^ i).coeff n =
      if n = i then (if v.getLsbD n then 1 else 0) else 0 := by
    intro i _
    cases bit : v.getLsbD i
    · simp only [coefficient, Bool.false_eq_true, if_false, zero_mul, coeff_zero]
      split <;> simp_all
    · simp only [coefficient, if_true, one_mul, coeff_X_pow]
      split <;> simp_all
  rw [Finset.sum_congr rfl term, Finset.sum_ite_eq]
  by_cases inside : n < w
  · simp [inside]
  · simp [inside, BitVec.getLsbD_of_ge v n (by omega)]

theorem regPoly_coeff (reg : BitVec w) (n : Nat) :
    (regPoly reg).coeff n = if n < w ∧ reg.getLsbD (w - 1 - n) = true then 1 else 0 := by
  rw [regPoly, wordPoly_coeff, BitVec.getLsbD_reverse, BitVec.getMsbD_eq_getLsbD]
  simp

theorem regPoly_allOnes : regPoly (BitVec.allOnes w) = ∑ i ∈ Finset.range w, X ^ i := by
  rw [regPoly, wordPoly]
  refine Finset.sum_congr rfl fun i member => ?_
  rw [BitVec.getLsbD_reverse, BitVec.getMsbD_allOnes, coefficient,
    if_pos (decide_eq_true (Finset.mem_range.mp member)), one_mul]

theorem degree_regPoly (reg : BitVec w) : (regPoly reg).degree < w := by
  rw [degree_lt_iff_coeff_zero]
  intro n outside
  rw [regPoly_coeff, if_neg (by omega)]

theorem regPoly_xor (a b : BitVec w) : regPoly (a ^^^ b) = regPoly a + regPoly b := by
  ext n
  rw [coeff_add, regPoly_coeff, regPoly_coeff, regPoly_coeff, BitVec.getLsbD_xor]
  by_cases inside : n < w
  · cases a.getLsbD (w - 1 - n) <;> cases b.getLsbD (w - 1 - n) <;> simp [inside]
    rfl
  · simp [inside]

theorem regPoly_unit (wide : 0 < w) (bit : Bool) :
    regPoly (unit bit : BitVec w) = coefficient bit * X ^ (w - 1) := by
  ext n
  rw [regPoly_coeff]
  cases bit
  · simp [unit, coefficient]
  · rw [coefficient, if_pos rfl, one_mul, coeff_X_pow]
    congr 1
    have low : (unit true : BitVec w).getLsbD (w - 1 - n) = decide (w - 1 - n = 0) := by
      simp only [unit, BitVec.ofBool_true, BitVec.getLsbD_setWidth]
      by_cases zero : w - 1 - n = 0
      · simp [zero, wide]
      · simp [zero, BitVec.getLsbD_one]
    rw [low, decide_eq_true_eq, eq_iff_iff]
    omega

theorem regPoly_ushiftRight (reg : BitVec w) :
    regPoly (reg >>> 1) + coefficient (reg.getLsbD 0) * X ^ w = X * regPoly reg := by
  ext n
  rw [coeff_add, regPoly_coeff, BitVec.getLsbD_ushiftRight]
  cases n with
  | zero =>
    rw [coeff_X_mul_zero]
    by_cases empty : w = 0
    · subst empty
      simp [coefficient]
    · have out : reg.getLsbD (1 + (w - 1 - 0)) = false := BitVec.getLsbD_of_ge _ _ (by omega)
      have above : ¬w ≤ 0 := by omega
      simp only [out, coeff_mul_X_pow', above, if_false, Bool.false_eq_true, and_false, add_zero]
  | succ n =>
    rw [coeff_X_mul, regPoly_coeff, coeff_mul_X_pow', coefficient_coeff]
    by_cases last : n + 1 = w
    · subst last
      simp
    · by_cases inside : n + 1 < w
      · rw [if_neg (c := w ≤ n + 1) (by omega), add_zero, show 1 + (w - 1 - (n + 1)) = w - 1 - n by omega]
        simp [inside, show n < w by omega]
      · have beyond : n + 1 - w ≠ 0 := by omega
        simp [inside, beyond, show ¬n < w by omega]

theorem regPoly_shift (reg : BitVec w) :
    regPoly (shift poly reg) = X * regPoly reg + coefficient (reg.getLsbD 0) * generator poly := by
  have moved := regPoly_ushiftRight reg
  have cancel : (X ^ w : (ZMod 2)[X]) + X ^ w = 0 := CharTwo.add_self_eq_zero _
  unfold shift generator
  cases low : reg.getLsbD 0
  · rw [low] at moved
    simp only [coefficient, Bool.false_eq_true, if_false, zero_mul, add_zero] at moved ⊢
    exact moved
  · rw [low] at moved
    simp only [coefficient, if_true, one_mul] at moved ⊢
    rw [regPoly_xor, ← moved]
    linear_combination -cancel

theorem regPoly_feed (wide : 0 < w) (reg : BitVec w) (bit : Bool) :
    generator poly ∣ regPoly (feed poly reg bit) - (X * regPoly reg + coefficient bit * X ^ w) := by
  have power : (X : (ZMod 2)[X]) * X ^ (w - 1) = X ^ w := by
    rw [← pow_succ', Nat.sub_add_cancel wide]
  refine ⟨coefficient ((reg ^^^ unit bit).getLsbD 0), ?_⟩
  rw [feed, regPoly_shift, regPoly_xor, regPoly_unit wide]
  linear_combination coefficient bit * power

/-- Feeding a message is multiplying by x for each bit and adding the message times x^w. -/
theorem regPoly_remainder (wide : 0 < w) (reg : BitVec w) (message : List Bool) :
    generator poly ∣ regPoly (remainder poly reg message) -
      (regPoly reg * X ^ message.length + messagePoly message * X ^ w) := by
  induction message generalizing reg with
  | nil => simp [remainder, messagePoly]
  | cons bit message ih =>
    have fed := Dvd.dvd.mul_right (regPoly_feed poly wide reg bit) (X ^ message.length)
    have rest := ih (feed poly reg bit)
    have both := dvd_add rest fed
    have later : remainder poly reg (bit :: message) = remainder poly (feed poly reg bit) message := rfl
    rw [later, messagePoly, List.length_cons]
    refine both.trans (dvd_of_eq ?_)
    ring

theorem generator_degree : (generator poly).degree = w := by
  rw [generator, degree_add_eq_left_of_degree_lt, degree_X_pow]
  rw [degree_X_pow]
  exact degree_regPoly poly

theorem generator_monic : (generator poly).Monic := monic_X_pow_add (degree_regPoly poly)

theorem regPoly_eq_mod (wide : 0 < w) (reg : BitVec w) (message : List Bool) :
    regPoly (remainder poly reg message) =
      (messagePoly message * X ^ w + regPoly reg * X ^ message.length) %ₘ generator poly := by
  have small : (regPoly (remainder poly reg message)).degree < (generator poly).degree := by
    rw [generator_degree]
    exact degree_regPoly _
  have divides := regPoly_remainder poly wide reg message
  rw [add_comm (messagePoly message * X ^ w)]
  rw [← modByMonic_eq_of_dvd_sub (generator_monic poly) divides]
  exact ((modByMonic_eq_self_iff (generator_monic poly)).mpr small).symm

theorem messagePoly_degree (message : List Bool) : (messagePoly message).degree < message.length := by
  induction message with
  | nil => simp [messagePoly]
  | cons bit message ih =>
    rw [degree_lt_iff_coeff_zero] at ih ⊢
    intro n outside
    rw [List.length_cons] at outside
    rw [messagePoly, coeff_add, ih n (by omega), coeff_mul_X_pow', coefficient_coeff]
    have above : n - message.length ≠ 0 := by omega
    simp [above]

theorem messagePoly_coeff (message : List Bool) (i : Nat) (inside : i < message.length) :
    (messagePoly message).coeff (message.length - 1 - i) = if message[i] then 1 else 0 := by
  induction message generalizing i with
  | nil => cases inside
  | cons bit message ih =>
    have lower := (degree_lt_iff_coeff_zero _ _).mp (messagePoly_degree message)
    rw [messagePoly, coeff_add, coeff_mul_X_pow', coefficient_coeff]
    cases i with
    | zero => simp [lower]
    | succ i =>
      rw [List.length_cons] at inside
      have same : (bit :: message).length - 1 - (i + 1) = message.length - 1 - i := by
        rw [List.length_cons]
        omega
      rw [same, ih i (by omega), if_neg (by omega), zero_add, List.getElem_cons_succ]

theorem messagePoly_injective {first second : List Bool} (length : first.length = second.length)
    (same : messagePoly first = messagePoly second) : first = second := by
  apply List.ext_getElem length
  intro i here there
  have at_i := messagePoly_coeff first i here
  rw [same, length, messagePoly_coeff second i there] at at_i
  cases bit : first[i] <;> cases bit' : second[i] <;> simp_all

theorem messagePoly_append (first second : List Bool) :
    messagePoly (first ++ second) = messagePoly first * X ^ second.length + messagePoly second := by
  induction first with
  | nil => simp [messagePoly]
  | cons bit first ih =>
    rw [List.cons_append, messagePoly, ih, messagePoly, List.length_append, pow_add]
    ring

theorem generator_coprime (wide : 0 < w) (odd : poly.getLsbD (w - 1) = true) (n : Nat) :
    IsCoprime (generator poly) (X ^ n) := by
  have prime : Irreducible (X : (ZMod 2)[X]) := irreducible_X
  apply IsCoprime.pow_right
  apply IsCoprime.symm
  rw [prime.coprime_iff_not_dvd, X_dvd_iff]
  have zero : (generator poly).coeff 0 = 1 := by
    rw [generator, coeff_add, regPoly_coeff, coeff_X_pow]
    simp [wide.ne, wide, odd]
  rw [zero]
  exact one_ne_zero

/-- Messages that differ in no more consecutive bits than the register has give different
    remainders. -/
theorem burst_detected (wide : 0 < w) (odd : poly.getLsbD (w - 1) = true) (reg : BitVec w)
    (front back : List Bool) {burst burst' : List Bool} (length : burst.length = burst'.length)
    (short : burst.length ≤ w) (other : burst ≠ burst') :
    remainder poly reg (front ++ burst ++ back) ≠ remainder poly reg (front ++ burst' ++ back) := by
  intro same
  have first := regPoly_remainder poly wide reg (front ++ burst ++ back)
  have second := regPoly_remainder poly wide reg (front ++ burst' ++ back)
  rw [same] at first
  have divides := dvd_sub second first
  have difference : generator poly ∣ X ^ (back.length + w) * (messagePoly burst - messagePoly burst') := by
    refine divides.trans (dvd_of_eq ?_)
    simp only [messagePoly_append, List.length_append, length, pow_add]
    ring
  have small : (messagePoly burst - messagePoly burst').degree < (generator poly).degree := by
    rw [generator_degree]
    refine lt_of_le_of_lt (degree_sub_le _ _) (max_lt ?_ ?_)
    · exact lt_of_lt_of_le (messagePoly_degree burst) (by exact_mod_cast short)
    · exact lt_of_lt_of_le (messagePoly_degree burst') (by rw [← length]; exact_mod_cast short)
  have cancelled := (generator_coprime poly wide odd _).dvd_of_dvd_mul_left difference
  have zero := eq_zero_of_dvd_of_degree_lt cancelled small
  exact other (messagePoly_injective length (sub_eq_zero.mp zero))

end Crc
