import GyroDsu.Lib.CrcPolynomial
import GyroDsu.Cemuhook.Protocol
import Mathlib.Tactic.IntervalCases

/-
crc32 as division of polynomials over GF(2), and which changes of a packet it shows.
-/
namespace Checksum
open Polynomial Protocol

/-- The bits of a byte string as the check takes them: lowest bit of each byte first. -/
def messageBits (s : List UInt8) : List Bool := s.flatMap Crc.byteBits

noncomputable def ieee : (ZMod 2)[X] :=
  X ^ 32 + X ^ 26 + X ^ 23 + X ^ 22 + X ^ 16 + X ^ 12 + X ^ 11 + X ^ 10 + X ^ 8 + X ^ 7 + X ^ 5 +
    X ^ 4 + X ^ 2 + X + 1

theorem generator_ieee : Crc.generator 0xedb88320#32 = ieee := by
  have reversed : (0xedb88320#32).reverse = 0x04c11db7#32 := by decide +kernel
  have terms : (Finset.range 32).filter (fun i => (0x04c11db7#32).getLsbD i = true) =
      {26, 23, 22, 16, 12, 11, 10, 8, 7, 5, 4, 2, 1, 0} := by decide
  rw [Crc.generator, Crc.regPoly, reversed, Crc.wordPoly_filter, terms, ieee]
  simp (disch := decide) only [Finset.sum_insert, Finset.sum_singleton, pow_one, pow_zero]
  ring

theorem messageBits_length (s : List UInt8) : (messageBits s).length = 8 * s.length := by
  induction s with
  | nil => rfl
  | cons byte s ih =>
    have eight : (Crc.byteBits byte).length = 8 := by simp [Crc.byteBits, Crc.lowBits]
    rw [messageBits, List.flatMap_cons, List.length_append, eight, List.length_cons]
    rw [messageBits] at ih
    omega

theorem byteBits_injective {a b : UInt8} (same : Crc.byteBits a = Crc.byteBits b) : a = b := by
  apply UInt8.toBitVec_inj.mp
  apply BitVec.eq_of_getLsbD_eq
  intro i inside
  have at_i := congrArg (fun bits => bits[i]?) same
  simpa [Crc.byteBits, Crc.lowBits, inside] using at_i

theorem messageBits_injective {s t : List UInt8} (same : messageBits s = messageBits t) : s = t := by
  induction s generalizing t with
  | nil =>
    have length := congrArg List.length same
    rw [messageBits_length, messageBits_length] at length
    rw [List.length_nil] at length
    exact (List.eq_nil_of_length_eq_zero (by omega)).symm
  | cons a s ih =>
    cases t with
    | nil =>
      have length := congrArg List.length same
      rw [messageBits_length, messageBits_length, List.length_cons, List.length_nil] at length
      omega
    | cons b t =>
      have eight : (Crc.byteBits a).length = (Crc.byteBits b).length := by simp [Crc.byteBits, Crc.lowBits]
      obtain ⟨first, rest⟩ := List.append_inj same eight
      rw [byteBits_injective first, ih rest]

theorem window_split {bits other : List Bool} {start width : Nat}
    (agree : ∀ i, i < start ∨ start + width ≤ i → bits[i]? = other[i]?) :
    bits = bits.take start ++ (bits.drop start).take width ++ bits.drop (start + width) ∧
      other = bits.take start ++ (other.drop start).take width ++ bits.drop (start + width) := by
  have whole : ∀ l : List Bool, l = l.take start ++ (l.drop start).take width ++ l.drop (start + width) := by
    intro l
    rw [← List.drop_drop, List.append_assoc, List.take_append_drop, List.take_append_drop]
  have front : bits.take start = other.take start := by
    apply List.ext_getElem?
    intro i
    rw [List.getElem?_take, List.getElem?_take]
    split
    · next before => exact agree i (Or.inl before)
    · rfl
  have back : bits.drop (start + width) = other.drop (start + width) := by
    apply List.ext_getElem?
    intro i
    rw [List.getElem?_drop, List.getElem?_drop]
    exact agree _ (Or.inr (by omega))
  refine ⟨whole bits, ?_⟩
  rw [front, back]
  exact whole other

theorem crc32_complement (s : List UInt8) :
    (~~~(crc32 s)).toBitVec = Crc.remainder 0xedb88320#32 (BitVec.allOnes 32) (messageBits s) := by
  rw [UInt32.toBitVec_not, crc32_checksum, checksum, BitVec.not_not]
  rfl

/-- crc32 is the remainder the standard asks for, so that a change within 32 bits shows. -/
theorem crc32_is_ieee (s : List UInt8) :
    Crc.wordPoly (~~~(crc32 s)).toBitVec.reverse =
        (Crc.messagePoly (messageBits s) * X ^ 32 +
          (∑ i ∈ Finset.range 32, X ^ i) * X ^ (8 * s.length)) %ₘ ieee ∧
      ∀ t : List UInt8, t.length = s.length → t ≠ s →
        (∃ start, ∀ i, i < start ∨ start + 32 ≤ i → (messageBits t)[i]? = (messageBits s)[i]?) →
        crc32 t ≠ crc32 s := by
  constructor
  · have division := Crc.regPoly_eq_mod 0xedb88320#32 (by decide) (BitVec.allOnes 32) (messageBits s)
    rw [generator_ieee, Crc.regPoly_allOnes, messageBits_length, ← crc32_complement] at division
    exact division
  · rintro t length other ⟨start, agree⟩ same
    have bits_length : (messageBits t).length = (messageBits s).length := by
      rw [messageBits_length, messageBits_length, length]
    obtain ⟨t_split, s_split⟩ := window_split agree
    have burst_length : (((messageBits t).drop start).take 32).length =
        (((messageBits s).drop start).take 32).length := by
      simp only [List.length_take, List.length_drop, bits_length]
    have burst_other : ((messageBits t).drop start).take 32 ≠ ((messageBits s).drop start).take 32 := by
      intro equal
      rw [equal, ← s_split] at t_split
      exact other (messageBits_injective t_split)
    have detected := Crc.burst_detected 0xedb88320#32 (by decide) (by decide) (BitVec.allOnes 32)
      ((messageBits t).take start) ((messageBits t).drop (start + 32)) burst_length
      (List.length_take_le _ _) burst_other
    rw [← t_split, ← s_split, ← crc32_complement, ← crc32_complement, same] at detected
    exact detected rfl

/-- The lowest bit of the second byte is bit 8 of the message. -/
theorem crc32_is_ieee_bit : crc32 [1, 2] ≠ crc32 [1, 3] := by
  refine (crc32_is_ieee [1, 3]).2 [1, 2] rfl (by decide) ⟨8, ?_⟩
  rintro i (before | after)
  · interval_cases i <;> rfl
  · rw [List.getElem?_eq_none, List.getElem?_eq_none]
    · rw [messageBits_length, List.length_cons, List.length_singleton]
      omega
    · rw [messageBits_length, List.length_cons, List.length_singleton]
      omega

end Checksum
