import Mathlib.Data.List.Basic
import Mathlib.Tactic.Ring

/-!
Little-endian words in byte strings and in byte-addressed memory.
A memory gives a byte at every address; what an address holds past the end of
an object is for the caller to say.
-/
namespace LittleEndian

def encode : Nat → Nat → List UInt8
  | 0, _ => []
  | width + 1, n => UInt8.ofNat (n % 256) :: encode width (n / 256)

def decode : List UInt8 → Nat
  | [] => 0
  | b :: bs => b.toNat + 256 * decode bs

abbrev Memory := Nat → UInt8

def load (mem : Memory) (address width : Nat) : Nat :=
  decode ((List.range width).map fun i => mem (address + i))

/-- A byte string as memory, zero behind its end. -/
def memory (bytes : List UInt8) : Memory := fun i => bytes.getD i 0

theorem encode_length (width n : Nat) : (encode width n).length = width := by
  induction width generalizing n with
  | zero => rfl
  | succ width ih => simp [encode, ih]

theorem decode_encode (width n : Nat) : decode (encode width n) = n % 256 ^ width := by
  induction width generalizing n with
  | zero => simp [encode, decode, Nat.mod_one]
  | succ width ih =>
    have byte : (UInt8.ofNat (n % 256)).toNat = n % 256 := by
      simp [UInt8.toNat_ofNat']
    rw [encode, decode, ih, byte, Nat.pow_succ', Nat.mod_mul]

theorem decode_lt (bytes : List UInt8) : decode bytes < 256 ^ bytes.length := by
  induction bytes with
  | nil => exact Nat.one_pos
  | cons b bytes ih =>
    have byte := b.toNat_lt
    rw [decode, List.length_cons, Nat.pow_succ]
    omega

theorem decode_injective {bytes other : List UInt8} (length : bytes.length = other.length)
    (same : decode bytes = decode other) : bytes = other := by
  induction bytes generalizing other with
  | nil => exact (List.eq_nil_of_length_eq_zero length.symm).symm
  | cons b bytes ih =>
    cases other with
    | nil => cases length
    | cons c other =>
      have low := b.toNat_lt
      have low' := c.toNat_lt
      simp only [decode] at same
      have first : b = c := UInt8.toNat_inj.mp (by omega)
      rw [first, ih (Nat.succ.inj length) (by omega)]

theorem load_memory (bytes : List UInt8) (width : Nat) (inside : width ≤ bytes.length) :
    load (memory bytes) 0 width = decode (bytes.take width) := by
  unfold load
  congr 1
  apply List.ext_getElem
  · simp [inside]
  · intro i bound _
    have here : i < bytes.length := by
      rw [List.length_map, List.length_range] at bound
      omega
    simp [memory, here]

theorem load_memory_at (bytes : List UInt8) (address width : Nat) (inside : address + width ≤ bytes.length) :
    load (memory bytes) address width = decode ((bytes.drop address).take width) := by
  have moved : load (memory bytes) address width = load (memory (bytes.drop address)) 0 width := by
    unfold load
    congr 1
    apply List.map_congr_left
    intro i _
    simp [memory]
  rw [moved, load_memory _ _ (by rw [List.length_drop]; omega)]

theorem load_agree {m m' : Memory} {address width : Nat}
    (same : ∀ i, i < width → m (address + i) = m' (address + i)) :
    load m address width = load m' address width := by
  unfold load
  congr 1
  exact List.map_congr_left fun i hi => same i (List.mem_range.mp hi)

theorem load_field (front rest : List UInt8) (width n address : Nat)
    (place : front.length = address) :
    load (memory (front ++ encode width n ++ rest)) address width = n % 256 ^ width := by
  rw [← decode_encode]
  unfold load
  congr 1
  apply List.ext_getElem
  · simp [encode_length]
  · intro i bound _
    have inside : i < (encode width n).length := by simpa [encode_length] using bound
    subst place
    have short : front.length + i < (front ++ encode width n).length := by
      rw [List.length_append]; omega
    simp only [List.getElem_map, List.getElem_range, memory, List.getD_eq_getElem?_getD]
    rw [List.getElem?_append_left short, List.getElem?_append_right (by omega),
      Nat.add_sub_cancel_left, List.getElem?_eq_getElem inside, Option.getD_some]

theorem load_words (front : List UInt8) (width : Nat) {words : List Nat} {k n : Nat} (here : words[k]? = some n) :
    load (memory (front ++ words.flatMap (encode width))) (front.length + width * k) width = n % 256 ^ width := by
  obtain ⟨inside, same⟩ := List.getElem?_eq_some_iff.mp here
  have parts : words = words.take k ++ n :: words.drop (k + 1) := by
    rw [← same, ← List.drop_eq_getElem_cons inside, List.take_append_drop]
  have before : ((words.take k).flatMap (encode width)).length = width * k := by
    rw [List.length_flatMap]
    simp [encode_length, Nat.min_eq_left (Nat.le_of_lt inside), Nat.mul_comm]
  rw [parts, List.flatMap_append, List.flatMap_cons, ← List.append_assoc, ← List.append_assoc]
  exact load_field _ _ width n _ (by rw [List.length_append, before])

end LittleEndian
