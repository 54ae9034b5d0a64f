import Mathlib.Data.List.Basic
import Mathlib.Algebra.Group.Nat.Defs
import Mathlib.Logic.Function.Iterate

/-!
Reflected cyclic redundancy checks of any width. A message is a list of bits, fed to
the register one at a time; an implementation may add several bits at once and shift
afterwards.
-/
namespace Crc
variable {w : Nat} (poly : BitVec w)

/-- One shift of the register, the bit shifted out deciding about the polynomial. -/
def shift (reg : BitVec w) : BitVec w :=
  if reg.getLsbD 0 then (reg >>> 1) ^^^ poly else reg >>> 1

def unit (bit : Bool) : BitVec w := BitVec.setWidth w (BitVec.ofBool bit)

def feed (reg : BitVec w) (bit : Bool) : BitVec w := shift poly (reg ^^^ unit bit)

def remainder (reg : BitVec w) (message : List Bool) : BitVec w := message.foldl (feed poly) reg

def lowBits (v : BitVec w) (k : Nat) : List Bool := (List.range k).map v.getLsbD

def byteBits (byte : UInt8) : List Bool := lowBits byte.toBitVec 8

theorem remainder_append (reg : BitVec w) (first second : List Bool) :
    remainder poly reg (first ++ second) = remainder poly (remainder poly reg first) second :=
  List.foldl_append

theorem shift_xor (a b : BitVec w) : shift poly (a ^^^ b) = shift poly a ^^^ shift poly b := by
  unfold shift
  rw [BitVec.getLsbD_xor, BitVec.ushiftRight_xor_distrib]
  cases a.getLsbD 0 <;> cases b.getLsbD 0
  · rfl
  · simp [BitVec.xor_assoc]
  · simp only [Bool.xor_false, if_true, Bool.false_eq_true, if_false, BitVec.xor_assoc]
    rw [BitVec.xor_comm poly]
  · simp only [Bool.xor_self, Bool.false_eq_true, if_false, if_true]
    rw [BitVec.xor_assoc, ← BitVec.xor_assoc poly, BitVec.xor_comm poly, BitVec.xor_assoc,
      BitVec.xor_self, BitVec.xor_zero]

theorem unit_low (wide : 0 < w) (bit : Bool) : (unit bit : BitVec w).getLsbD 0 = bit := by
  cases bit <;> simp [unit, wide]

theorem unit_shifted (bit : Bool) : (unit bit : BitVec w) >>> 1 = 0#w := by
  apply BitVec.eq_of_getLsbD_eq
  intro i _
  cases bit <;> simp [unit, BitVec.getLsbD_ushiftRight, BitVec.getLsbD_setWidth]

theorem shift_added (wide : 0 < w) (reg v : BitVec w) :
    shift poly (reg ^^^ v) = feed poly reg (v.getLsbD 0) ^^^ (v >>> 1) := by
  have split : reg ^^^ v = (reg ^^^ unit (v.getLsbD 0)) ^^^ (v ^^^ unit (v.getLsbD 0)) := by
    rw [BitVec.xor_assoc, BitVec.xor_comm v, ← BitVec.xor_assoc (unit _), BitVec.xor_self,
      BitVec.zero_xor]
  have cleared : (v ^^^ unit (v.getLsbD 0)).getLsbD 0 = false := by
    rw [BitVec.getLsbD_xor, unit_low wide, Bool.xor_self]
  have rest : shift poly (v ^^^ unit (v.getLsbD 0)) = v >>> 1 := by
    rw [shift, cleared, if_neg (by decide), BitVec.ushiftRight_xor_distrib, unit_shifted,
      BitVec.xor_zero]
  rw [split, shift_xor, rest]
  rfl

theorem shifts_added (wide : 0 < w) (reg v : BitVec w) (k : Nat) :
    (shift poly)^[k] (reg ^^^ v) = remainder poly reg (lowBits v k) ^^^ (v >>> k) := by
  induction k with
  | zero => simp [remainder, lowBits]
  | succ k ih =>
    have more : lowBits v (k + 1) = lowBits v k ++ [(v >>> k).getLsbD 0] := by
      simp [lowBits, List.range_succ]
    rw [Function.iterate_succ_apply', ih, shift_added poly wide, more, remainder_append,
      BitVec.shiftRight_add]
    rfl

theorem shifts_word (wide : 0 < w) (reg v : BitVec w) {k : Nat} (short : v.toNat < 2 ^ k) :
    (shift poly)^[k] (reg ^^^ v) = remainder poly reg (lowBits v k) := by
  have empty : v >>> k = 0#w := by
    apply BitVec.eq_of_toNat_eq
    rw [BitVec.toNat_ushiftRight, Nat.shiftRight_eq_div_pow, Nat.div_eq_of_lt short]
    rfl
  rw [shifts_added poly wide, empty, BitVec.xor_zero]

end Crc
