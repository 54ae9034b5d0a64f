import Mathlib.Data.Nat.Digits.Defs
import Mathlib.Data.List.TakeDrop

/-
Numerals as characters: written in any base up to sixteen, with leading zeros to a given
width, and read back. A text cut to a fixed width is told from a padded numeral.
-/
namespace Numerals

abbrev Text := List Char

def digitValue (c : Char) : Nat := if c.isDigit then c.toNat - 48 else c.toNat - 87

def value (base : Nat) (text : Text) : Nat :=
  text.foldl (fun sofar c => base * sofar + digitValue c) 0

def padded (base width n : Nat) : Text :=
  List.replicate (width - (Nat.toDigits base n).length) '0' ++ Nat.toDigits base n

theorem digit_value {d : Nat} (small : d < 16) : digitValue d.digitChar = d := by
  have all : ∀ d < 16, digitValue d.digitChar = d := by decide
  exact all d small

theorem value_concat (base : Nat) (text : Text) (c : Char) :
    value base (text ++ [c]) = base * value base text + digitValue c := by
  simp [value]

theorem value_digits {base : Nat} (above : 1 < base) (most : base ≤ 16) (n : Nat) :
    value base (Nat.toDigits base n) = n := by
  induction n using Nat.strong_induction_on with
  | _ n before =>
    rw [Nat.toDigits_eq_if above]
    split
    case isTrue small => simp [value, digit_value (lt_of_lt_of_le small most)]
    case isFalse large =>
      have less : n / base < n := Nat.div_lt_self (by omega) above
      have last : n % base < 16 := lt_of_lt_of_le (Nat.mod_lt n (by omega)) most
      rw [value_concat, before _ less, digit_value last]
      exact Nat.div_add_mod n base

theorem value_zeros (base k : Nat) (text : Text) :
    value base (List.replicate k '0' ++ text) = value base text := by
  induction k with
  | zero => rfl
  | succ k before => simpa [List.replicate_succ, value, digitValue] using before

theorem value_padded {base : Nat} (above : 1 < base) (most : base ≤ 16) (width n : Nat) :
    value base (padded base width n) = n := by
  rw [padded, value_zeros, value_digits above most]

theorem digits_are_digits {base : Nat} (above : 1 < base) (n : Nat) :
    ∀ c ∈ Nat.toDigits base n, ∃ d < base, c = d.digitChar := by
  induction n using Nat.strong_induction_on with
  | _ n before =>
    intro c member
    rw [Nat.toDigits_eq_if above] at member
    split at member
    case isTrue small => exact ⟨n, small, by simpa using member⟩
    case isFalse large =>
      rcases List.mem_append.mp member with front | last
      · exact before _ (Nat.div_lt_self (by omega) above) c front
      · exact ⟨n % base, Nat.mod_lt n (by omega), by simpa using last⟩

theorem padded_are_digits {base : Nat} (above : 1 < base) (width n : Nat) :
    ∀ c ∈ padded base width n, ∃ d < base, c = d.digitChar := by
  intro c member
  rcases List.mem_append.mp member with zero | digit
  · exact ⟨0, by omega, List.eq_of_mem_replicate zero⟩
  · exact digits_are_digits above n c digit

theorem digits_fit {base width n : Nat} (above : 1 < base) (some_width : 0 < width)
    (fits : n < base ^ width) : (Nat.toDigits base n).length ≤ width :=
  (Nat.length_toDigits_le_iff above some_width).mpr fits

theorem digits_fill {base width n : Nat} (above : 1 < base) :
    width < (Nat.toDigits base n).length ↔ base ^ width ≤ n ∨ width = 0 := by
  rcases Nat.eq_zero_or_pos width with zero | positive
  · simpa [zero] using Nat.length_toDigits_pos
  · have bound := Nat.length_toDigits_le_iff (n := n) above positive
    omega

/- A numeral of at most `width` digits that another character ends, cut to `width`
   characters, is the padded numeral of the number exactly if it has all its digits. -/
theorem cut_is_padded {base width m n : Nat} (above : 1 < base) (most : base ≤ 16)
    (fits : m < base ^ (width + 1)) (ending : Char) (other : ∀ d < base, ending ≠ d.digitChar)
    (rest : Text) :
    (Nat.toDigits base m ++ ending :: rest).take (width + 1) = padded base (width + 1) n ↔
      m = n ∧ (base ^ width ≤ n ∨ width = 0) := by
  have length_le := digits_fit above (Nat.succ_pos width) fits
  constructor
  · intro same
    have full : width < (Nat.toDigits base m).length := by
      by_contra short
      have present : ending ∈ padded base (width + 1) n := by
        rw [← same, List.take_append, List.take_of_length_le length_le]
        have room : width + 1 - (Nat.toDigits base m).length ≠ 0 := by omega
        obtain ⟨k, room⟩ := Nat.exists_eq_succ_of_ne_zero room
        simp [room]
      obtain ⟨d, small, eq⟩ := padded_are_digits above (width + 1) n ending present
      exact other d small eq
    have whole : (Nat.toDigits base m ++ ending :: rest).take (width + 1) = Nat.toDigits base m := by
      rw [List.take_append_of_le_length (by omega), List.take_of_length_le length_le]
    have equal : m = n := by
      rw [← value_digits above most m, ← whole, same, value_padded above most]
    exact ⟨equal, (digits_fill above).mp (equal ▸ full)⟩
  · rintro ⟨rfl, full⟩
    have length_eq := (digits_fill above).mpr full
    rw [List.take_append_of_le_length (by omega), List.take_of_length_le length_le, padded,
      Nat.sub_eq_zero_of_le (by omega)]
    rfl

def isSpace (c : Char) : Bool := c ∈ [' ', '\t', '\n', '\x0b', '\x0c', '\r']

/- `in >> i` for a 32-bit int and the text behind it; no result is a failed stream. -/
def readInt (text : Text) : Option (Int × Text) :=
  let start := text.dropWhile isSpace
  let negative := start.head? = some '-'
  let digits := if negative ∨ start.head? = some '+' then start.tail else start
  let number := digits.takeWhile Char.isDigit
  let i : Int := if negative then - value 10 number else value 10 number
  if number = [] ∨ i < - 2 ^ 31 ∨ 2 ^ 31 ≤ i then none
  else some (i, digits.dropWhile Char.isDigit)

/- `out << i`. -/
def writeInt (i : Int) : Text :=
  if i < 0 then '-' :: Nat.toDigits 10 i.natAbs else Nat.toDigits 10 i.natAbs

theorem digits_read {n : Nat} {rest : Text} (ends : ∀ c ∈ rest.head?, c.isDigit = false) :
    (Nat.toDigits 10 n ++ rest).takeWhile Char.isDigit = Nat.toDigits 10 n ∧
      (Nat.toDigits 10 n ++ rest).dropWhile Char.isDigit = rest := by
  have all : ∀ c ∈ Nat.toDigits 10 n, c.isDigit = true := fun c member =>
    Nat.isDigit_of_mem_toDigits (by decide) (by decide) member
  rw [List.takeWhile_append_of_pos all, List.dropWhile_append_of_pos all]
  cases rest with
  | nil => simp
  | cons c rest =>
    have stop : c.isDigit = false := ends c rfl
    simp [stop]

theorem space_no_digit {c : Char} (digit : c.isDigit = true) :
    isSpace c = false ∧ c ≠ '-' ∧ c ≠ '+' := by
  refine ⟨?_, ?_, ?_⟩
  · by_contra space
    simp only [isSpace, Bool.not_eq_false, decide_eq_true_eq, List.mem_cons, List.not_mem_nil, or_false] at space
    rcases space with rfl | rfl | rfl | rfl | rfl | rfl <;> cases digit
  · rintro rfl
    cases digit
  · rintro rfl
    cases digit

theorem read_write (i : Int) (low : - 2 ^ 31 ≤ i) (high : i < 2 ^ 31) (rest : Text)
    (ends : ∀ c ∈ rest.head?, c.isDigit = false) :
    readInt (writeInt i ++ rest) = some (i, rest) := by
  obtain ⟨taken, left⟩ := digits_read (n := i.natAbs) ends
  have number : value 10 (Nat.toDigits 10 i.natAbs) = i.natAbs :=
    value_digits (by decide) (by decide) _
  by_cases negative : i < 0
  · have start : (writeInt i ++ rest).dropWhile isSpace = '-' :: (Nat.toDigits 10 i.natAbs ++ rest) := by
      simp [writeInt, negative, isSpace]
    have size : (i.natAbs : Int) = -i := by omega
    simp [readInt, start, taken, left, number, size]
    omega
  · obtain ⟨c, digits, eq⟩ := List.exists_cons_of_ne_nil (Nat.toDigits_ne_nil (n := i.natAbs) (b := 10))
    have digit : c.isDigit = true :=
      Nat.isDigit_of_mem_toDigits (n := i.natAbs) (by decide : 0 < 10) (by decide) (by simp [eq])
    obtain ⟨no_space, no_minus, no_plus⟩ := space_no_digit digit
    have start : (writeInt i ++ rest).dropWhile isSpace = Nat.toDigits 10 i.natAbs ++ rest := by
      simp [writeInt, negative, eq, no_space]
    have head : (Nat.toDigits 10 i.natAbs ++ rest).head? = some c := by simp [eq]
    have size : (i.natAbs : Int) = i := by omega
    simp [readInt, start, head, no_minus, no_plus, taken, left, number, size]
    omega

end Numerals
