import Mathlib.Data.Rat.Floor

/-!
Binary floating point of any width, as bit patterns. Results are exact rationals
rounded once, to nearest with ties to the even pattern. NaN has one pattern here:
its sign and payload are outside this model.
-/
namespace Ieee

structure Format where
  expBits : Nat
  fracBits : Nat
  deriving DecidableEq, Repr

def single : Format := ⟨8, 23⟩
def double : Format := ⟨11, 52⟩

abbrev Word (f : Format) := BitVec (1 + f.expBits + f.fracBits)

def Format.bias (f : Format) : Nat := 2 ^ (f.expBits - 1) - 1
def Format.top (f : Format) : Nat := 2 ^ f.expBits - 1

/-- What a pattern stands for; `size` is the magnitude of a finite number. -/
inductive Datum where
  | nan
  | infinite (negative : Bool)
  | finite (negative : Bool) (size : ℚ)

def twoPow (k : Int) : ℚ := if 0 ≤ k then (2 : ℚ) ^ k.toNat else 1 / (2 : ℚ) ^ (-k).toNat

def Format.quantum (f : Format) (e : Nat) : ℚ := twoPow ((e : Int) - f.bias - f.fracBits)

def decode {f : Format} (w : Word f) : Datum :=
  let e := w.toNat / 2 ^ f.fracBits % 2 ^ f.expBits
  let m := w.toNat % 2 ^ f.fracBits
  if e = f.top then
    if m = 0 then .infinite w.msb else .nan
  else if e = 0 then .finite w.msb (m * f.quantum 1)
  else .finite w.msb ((2 ^ f.fracBits + m) * f.quantum e)

def floorLog (q : ℚ) : Int :=
  let guess : Int := (Nat.log2 q.num.natAbs : Int) - Nat.log2 q.den
  if twoPow guess ≤ q then guess else guess - 1

/-- Biased exponent of a magnitude; zero and the subnormal range share exponent 1. -/
def Format.exponent (f : Format) (q : ℚ) : Nat :=
  if q = 0 then 1 else (max 1 (floorLog q + f.bias)).toNat

def roundEven (q : ℚ) : Nat :=
  let low := q.floor.toNat
  if q - low < 1 / 2 ∨ (q - low = 1 / 2 ∧ low % 2 = 0) then low else low + 1

def pattern (f : Format) (negative : Bool) (body : Nat) : Word f :=
  BitVec.ofNat _ (negative.toNat * 2 ^ (f.expBits + f.fracBits) + body)

/-- A significand that rounds up to the next power of two carries into the exponent
    field, and past the largest exponent into the pattern of infinity. -/
def encode (f : Format) : Datum → Word f
  | .nan => pattern f false (f.top * 2 ^ f.fracBits + 2 ^ (f.fracBits - 1))
  | .infinite negative => pattern f negative (f.top * 2 ^ f.fracBits)
  | .finite negative size =>
      let e := f.exponent size
      let body := (e - 1) * 2 ^ f.fracBits + roundEven (size / f.quantum e)
      pattern f negative (min body (f.top * 2 ^ f.fracBits))

def signed (negative : Bool) (size : ℚ) : ℚ := if negative then -size else size

def Datum.add : Datum → Datum → Datum
  | .nan, _ => .nan
  | _, .nan => .nan
  | .infinite a, .infinite b => if a = b then .infinite a else .nan
  | .infinite a, .finite _ _ => .infinite a
  | .finite _ _, .infinite b => .infinite b
  | .finite a x, .finite b y =>
      let sum := signed a x + signed b y
      .finite (if sum = 0 then a && b else decide (sum < 0)) |sum|

def Datum.mul : Datum → Datum → Datum
  | .nan, _ => .nan
  | _, .nan => .nan
  | .infinite a, .infinite b => .infinite (a ^^ b)
  | .infinite a, .finite b y => if y = 0 then .nan else .infinite (a ^^ b)
  | .finite a x, .infinite b => if x = 0 then .nan else .infinite (a ^^ b)
  | .finite a x, .finite b y => .finite (a ^^ b) (x * y)

def Datum.div : Datum → Datum → Datum
  | .nan, _ => .nan
  | _, .nan => .nan
  | .infinite _, .infinite _ => .nan
  | .infinite a, .finite b _ => .infinite (a ^^ b)
  | .finite a _, .infinite b => .finite (a ^^ b) 0
  | .finite a x, .finite b y =>
      if y ≠ 0 then .finite (a ^^ b) (x / y) else if x = 0 then .nan else .infinite (a ^^ b)

def Datum.lt : Datum → Datum → Bool
  | .nan, _ => false
  | _, .nan => false
  | .infinite a, .infinite b => a && !b
  | .infinite a, .finite _ _ => a
  | .finite _ _, .infinite b => !b
  | .finite a x, .finite b y => decide (signed a x < signed b y)

variable {f : Format}

def neg (w : Word f) : Word f := w ^^^ pattern f true 0
def abs (w : Word f) : Word f := w &&& ~~~pattern f true 0
def add (v w : Word f) : Word f := encode f ((decode v).add (decode w))
def sub (v w : Word f) : Word f := add v (neg w)
def mul (v w : Word f) : Word f := encode f ((decode v).mul (decode w))
def div (v w : Word f) : Word f := encode f ((decode v).div (decode w))
def lt (v w : Word f) : Bool := (decode v).lt (decode w)
def convert {f : Format} (g : Format) (w : Word f) : Word g := encode g (decode w)
def ofRat (f : Format) (q : ℚ) : Word f := encode f (.finite (decide (q < 0)) |q|)
def ofInt (f : Format) (n : Int) : Word f := ofRat f n

-- A negative zero, a number, a tie, the smallest subnormal, and 0.95 in double.
example : (neg (ofInt single 0)).toNat = 0x80000000 ∧ (ofRat single (-5/2)).toNat = 0xC0200000 ∧
    (ofInt single 16777217).toNat = 0x4B800000 ∧ (ofRat single (twoPow (-149))).toNat = 1 ∧
    (ofRat double (95/100)).toNat = 0x3FEE666666666666 := by decide +kernel

end Ieee
