import GyroDsu.Lib.Ieee
import GyroDsu.Pipeline.SignalOut
import GyroDsu.Sdgyro.SdHidFrame

/-
CemuhookAdapter: turns served HID frames into DSU motion data, one call of
setMotionDataNewFrame for each packet. Frames are taken one by one from a stream;
taking one is a GetConsumeLock that returned. Log output is left out.
-/
namespace CemuhookAdapter
open SdHidFrame SignalOut

abbrev Single := Ieee.Word Ieee.single

def scanTimeUs : Nat := 4000
def acc1G : Single := Ieee.ofInt Ieee.single 0x4000
def gyro1dps : Single := Ieee.ofInt Ieee.single 16
def gyroDeadzone : Int := 8
def accelSmooth : Single := Ieee.ofInt Ieee.single 0x1FF

structure MotionData where
  timestampL : UInt32
  timestampH : UInt32
  accX : Single
  accY : Single
  accZ : Single
  pitch : Single
  yaw : Single
  roll : Single
  deriving DecidableEq

def floatOfInt16 (v : Int16) : Single := Ieee.ofInt Ieee.single v.toInt

/-- The new value of last and the result. The weights are doubles, the stored
    value is a float again. -/
def smoothAccel (last : Single) (curr : Int16) : Single × Single :=
  let now := floatOfInt16 curr
  let next :=
    if Ieee.lt (Ieee.abs (Ieee.sub now last)) accelSmooth then
      Ieee.convert Ieee.single
        (Ieee.add
          (Ieee.mul (Ieee.convert Ieee.double last) (Ieee.ofRat Ieee.double (95 / 100)))
          (Ieee.mul (Ieee.convert Ieee.double now) (Ieee.ofRat Ieee.double (5 / 100))))
    else now
  (next, Ieee.div next acc1G)

def MotionData.setTimestamp (data : MotionData) (timestamp : UInt64) : MotionData :=
  { data with
    timestampL := (timestamp &&& 0xFFFFFFFF).toUInt32
    timestampH := (timestamp >>> 32).toUInt32 }

def toTimestamp (increment : UInt32) : UInt64 := increment.toUInt64 * UInt64.ofNat scanTimeUs

structure Smoothing where
  lastAccelRtL : Single
  lastAccelFtB : Single
  lastAccelTtB : Single
  deriving DecidableEq

/-- `frame.Header & 0xFF == 0xDD`: the comparison binds tighter than the mask, so the
    header is masked with the truth value of `0xFF == 0xDD`. -/
def gyroSuppressed (header : UInt32) : Bool :=
  header &&& (if (0xFF : UInt32) == 0xDD then 1 else 0) != 0

def deadzone (gyro : Int16) : Int16 :=
  if gyro.toInt < gyroDeadzone ∧ gyro.toInt > -gyroDeadzone then 0 else gyro

def setMotionData (frame : SdFrame) (data : MotionData) (last : Smoothing) :
    MotionData × Smoothing :=
  let data := data.setTimestamp (toTimestamp frame.increment)
  let (rtl, accX) := smoothAccel last.lastAccelRtL frame.accelAxisRightToLeft
  let (ftb, accY) := smoothAccel last.lastAccelFtB frame.accelAxisFrontToBack
  let (ttb, accZ) := smoothAccel last.lastAccelTtB frame.accelAxisTopToBottom
  let data := { data with accX := Ieee.neg accX, accY := Ieee.neg accY, accZ := accZ }
  let data :=
    if gyroSuppressed frame.header then
      { data with
        pitch := Ieee.ofInt Ieee.single 0
        yaw := Ieee.ofInt Ieee.single 0
        roll := Ieee.ofInt Ieee.single 0 }
    else
      { data with
        pitch := Ieee.div (floatOfInt16 (deadzone frame.gyroAxisRightToLeft)) gyro1dps
        yaw := Ieee.div (Ieee.neg (floatOfInt16 (deadzone frame.gyroAxisFrontToBack))) gyro1dps
        roll := Ieee.div (floatOfInt16 (deadzone frame.gyroAxisTopToBottom)) gyro1dps }
  (data, ⟨rtl, ftb, ttb⟩)

/-- frameServe is a pointer in the source; here only whether it is null. -/
structure Adapter where
  ignoreFirst : Bool
  isPersistent : Bool
  data : MotionData
  lastInc : UInt32
  lastTimestamp : UInt64
  smoothing : Smoothing
  toReplicate : Int
  noGyroCooldown : Int
  noGyro : Signal
  frameServe : Bool
  deriving DecidableEq

/-- What the constructor leaves unwritten keeps the content of `memory`. -/
def construct (memory : Adapter) (persistent : Bool) : Adapter :=
  { memory with
    lastInc := 0
    smoothing := ⟨Ieee.ofInt _ 0, Ieee.ofInt _ 0, Ieee.ofInt _ 0⟩
    isPersistent := persistent
    toReplicate := 0
    noGyroCooldown := 0
    noGyro := {} }

def Adapter.startFrameGrab (a : Adapter) : Adapter :=
  { a with lastInc := 0, ignoreFirst := true, frameServe := true }

def Adapter.stopFrameGrab (a : Adapter) : Adapter := { a with frameServe := false }

def maxDiffReplicate : Int := 100
def noGyroCooldownFrames : Int := 1000
def maxRepeatedLoop : Nat := 1000

def noGyroFrame (frame : SdFrame) : Bool :=
  frame.accelAxisFrontToBack == 0 && frame.accelAxisRightToLeft == 0 &&
  frame.accelAxisTopToBottom == 0 && frame.gyroAxisFrontToBack == 0 &&
  frame.gyroAxisRightToLeft == 0 && frame.gyroAxisTopToBottom == 0

def Adapter.signalNoGyro (a : Adapter) (frame : SdFrame) : Adapter :=
  if a.noGyroCooldown ≤ 0 ∧ noGyroFrame frame then
    { a with noGyro := a.noGyro.sendSignal, noGyroCooldown := noGyroCooldownFrames }
  else a

def Adapter.diff (a : Adapter) (frame : SdFrame) : Int :=
  (frame.increment.toNat : Int) - (a.lastInc.toNat : Int)

def Adapter.repeated (a : Adapter) (frame : SdFrame) : Bool :=
  decide (a.lastInc ≠ 0 ∧ a.diff frame < 1 ∧ a.diff frame > -100)

/-- The else branch of the test for repetition: the frame becomes motion data. -/
def Adapter.accept (a : Adapter) (frame : SdFrame) (motion : MotionData) :
    Adapter × MotionData :=
  let diff := a.diff frame
  let a : Adapter :=
    if a.lastInc ≠ 0 ∧ diff > 1 ∧ diff ≤ maxDiffReplicate then { a with toReplicate := diff - 1 }
    else a
  let (motion, smoothing) := setMotionData frame motion a.smoothing
  let a : Adapter := { a with smoothing := smoothing }
  if a.toReplicate > 0 then
    let timestamp := toTimestamp (a.lastInc + 1)
    let motion := motion.setTimestamp timestamp
    ({ a with
       lastTimestamp := timestamp
       data := if a.isPersistent then a.data else motion
       lastInc := frame.increment }, motion)
  else ({ a with lastInc := frame.increment }, motion)

/-- A replicated frame. Without persistence the saved copy is handed out. -/
def Adapter.replicate (a : Adapter) (motion : MotionData) : Adapter × MotionData :=
  let timestamp := a.lastTimestamp + UInt64.ofNat scanTimeUs
  let a : Adapter := { a with toReplicate := a.toReplicate - 1, lastTimestamp := timestamp }
  if a.isPersistent then (a, motion.setTimestamp timestamp)
  else
    let data := a.data.setTimestamp timestamp
    ({ a with data := data }, data)

/-- Which of the three returns a call left through; `frame` counts from the first
    frame of the stream. -/
inductive Exit where
  | repeated
  | accepted (frame : Nat)
  | replicated
  deriving DecidableEq, Repr

/-- `next` is the position in the stream of the first frame not yet consumed. -/
structure CallResult where
  adapter : Adapter
  motion : MotionData
  next : Nat
  exit : Exit

/-- The count a call returns is a reference to toReplicate. -/
def CallResult.returned (r : CallResult) : Int := r.adapter.toReplicate

def grabLoop (stream : Nat → Frame) : Nat → Adapter → MotionData → Nat → CallResult
  | repeatedLoop, a, motion, next =>
    if a.toReplicate = 0 then
      let frame := getSdFrame (stream next)
      let a := a.signalNoGyro frame
      if a.repeated frame then
        match repeatedLoop with
        | 0 => ⟨a, motion, next + 1, .repeated⟩
        | repeatedLoop + 1 => grabLoop stream repeatedLoop a motion (next + 1)
      else
        let (a, motion) := a.accept frame motion
        ⟨a, motion, next + 1, .accepted next⟩
    else
      let (a, motion) := a.replicate motion
      ⟨a, motion, next, .replicated⟩

def enterCall (a : Adapter) (next : Nat) : Adapter × Nat :=
  let a : Adapter := if a.noGyroCooldown > 0 then { a with noGyroCooldown := a.noGyroCooldown - 1 } else a
  if a.ignoreFirst then ({ a with ignoreFirst := false }, next + 1) else (a, next)

def setMotionDataNewFrame (stream : Nat → Frame) (a : Adapter) (motion : MotionData)
    (next : Nat) : CallResult :=
  let (a, next) := enterCall a next
  grabLoop stream maxRepeatedLoop a motion next

end CemuhookAdapter
