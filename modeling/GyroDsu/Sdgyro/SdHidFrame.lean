import GyroDsu.Lib.LittleEndian

/-
The HID report of the Steam Deck controls, as the bytes the pipeline serves and
as the struct the adapter reads from them. Buttons, trackpads, triggers and
sticks are in the report but no modelled function reads them.
-/
namespace SdHidFrame
open LittleEndian

abbrev Frame := List UInt8

/-- The comment behind a field is its offset in the struct. -/
structure SdFrame where
  header : UInt32               -- 0
  increment : UInt32            -- 4
  accelAxisRightToLeft : Int16  -- 24
  accelAxisTopToBottom : Int16  -- 26
  accelAxisFrontToBack : Int16  -- 28
  gyroAxisRightToLeft : Int16   -- 30
  gyroAxisTopToBottom : Int16   -- 32
  gyroAxisFrontToBack : Int16   -- 34
  deriving DecidableEq, Repr

def loadU32 (frame : Frame) (offset : Nat) : UInt32 :=
  UInt32.ofNat (load (memory frame) offset 4)

def loadI16 (frame : Frame) (offset : Nat) : Int16 :=
  Int16.ofNat (load (memory frame) offset 2)

def getSdFrame (frame : Frame) : SdFrame where
  header := loadU32 frame 0
  increment := loadU32 frame 4
  accelAxisRightToLeft := loadI16 frame 24
  accelAxisTopToBottom := loadI16 frame 26
  accelAxisFrontToBack := loadI16 frame 28
  gyroAxisRightToLeft := loadI16 frame 30
  gyroAxisTopToBottom := loadI16 frame 32
  gyroAxisFrontToBack := loadI16 frame 34

end SdHidFrame
