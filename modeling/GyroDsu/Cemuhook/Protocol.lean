import GyroDsu.Lib.Crc
import GyroDsu.Lib.LittleEndian
import GyroDsu.Sdgyro.CemuhookAdapter

/-
The packets of the DSU protocol as structs and as the bytes they occupy in memory. All
members are aligned without gaps; only VersionData is padded at its end.
-/
namespace Protocol
open LittleEndian CemuhookAdapter

def versionType : UInt32 := 0x100000
def infoType : UInt32 := 0x100001
def dataType : UInt32 := 0x100002

structure Header where
  magic : Vector UInt8 4
  version : UInt16
  length : UInt16
  crc32 : UInt32
  id : UInt32
  eventType : UInt32
  deriving DecidableEq

def Header.bytes (h : Header) : List UInt8 :=
  h.magic.toList ++ encode 2 h.version.toNat ++ encode 2 h.length.toNat ++
    encode 4 h.crc32.toNat ++ encode 4 h.id.toNat ++ encode 4 h.eventType.toNat

structure VersionData where
  header : Header
  version : UInt16
  padding : Vector UInt8 2
  deriving DecidableEq

def VersionData.body (v : VersionData) : List UInt8 :=
  encode 2 v.version.toNat ++ v.padding.toList

def VersionData.bytes (v : VersionData) : List UInt8 := v.header.bytes ++ v.body

structure SharedResponse where
  slot : UInt8
  slotState : UInt8
  deviceModel : UInt8
  connection : UInt8
  mac1 : UInt32
  mac2 : UInt16
  battery : UInt8
  connected : UInt8
  deriving DecidableEq

def SharedResponse.bytes (r : SharedResponse) : List UInt8 :=
  [r.slot, r.slotState, r.deviceModel, r.connection] ++ encode 4 r.mac1.toNat ++
    encode 2 r.mac2.toNat ++ [r.battery, r.connected]

structure InfoAnswer where
  header : Header
  response : SharedResponse
  deriving DecidableEq

def InfoAnswer.bytes (a : InfoAnswer) : List UInt8 := a.header.bytes ++ a.response.bytes

def motionBytes (m : MotionData) : List UInt8 :=
  encode 4 m.timestampL.toNat ++ encode 4 m.timestampH.toNat ++
    encode 4 m.accX.toNat ++ encode 4 m.accY.toNat ++ encode 4 m.accZ.toNat ++
    encode 4 m.pitch.toNat ++ encode 4 m.yaw.toNat ++ encode 4 m.roll.toNat

/-- The twenty bytes from buttons1 to aL2 are one member here. -/
structure DataEvent where
  header : Header
  response : SharedResponse
  packetNumber : UInt32
  buttons : Vector UInt8 20
  touch : Vector UInt32 3
  motion : MotionData
  deriving DecidableEq

def DataEvent.body (d : DataEvent) : List UInt8 :=
  d.response.bytes ++ encode 4 d.packetNumber.toNat ++ d.buttons.toList ++
    d.touch.toList.flatMap (fun t => encode 4 t.toNat) ++ motionBytes d.motion

def DataEvent.bytes (d : DataEvent) : List UInt8 := d.header.bytes ++ d.body

@[simp] theorem header_length (h : Header) : h.bytes.length = 20 := by
  simp [Header.bytes, encode_length]

@[simp] theorem response_length (r : SharedResponse) : r.bytes.length = 12 := by
  simp [SharedResponse.bytes, encode_length]

@[simp] theorem versionBody_length (v : VersionData) : v.body.length = 4 := by
  simp [VersionData.body, encode_length]

@[simp] theorem version_length (v : VersionData) : v.bytes.length = 24 := by
  simp [VersionData.bytes]

@[simp] theorem info_length (a : InfoAnswer) : a.bytes.length = 32 := by
  simp [InfoAnswer.bytes]

@[simp] theorem dataBody_length (d : DataEvent) : d.body.length = 80 := by
  have touch : (d.touch.toList.flatMap fun t => encode 4 t.toNat).length = 12 := by
    rw [List.length_flatMap]
    simp [encode_length]
  simp [DataEvent.body, motionBytes, encode_length, touch]

@[simp] theorem data_length (d : DataEvent) : d.bytes.length = 100 := by
  simp [DataEvent.bytes]

def crcShift (crc : UInt32) : UInt32 :=
  if crc &&& 1 != 0 then (crc >>> 1) ^^^ 0xedb88320 else crc >>> 1

def crc32 (s : List UInt8) : UInt32 :=
  ~~~(s.foldl (fun crc byte => crcShift^[8] (crc ^^^ byte.toUInt32)) 0xFFFFFFFF)

def checksum (s : List UInt8) : BitVec 32 :=
  ~~~(Crc.remainder 0xedb88320#32 (BitVec.allOnes 32) (s.flatMap Crc.byteBits))

theorem low_bit (crc : UInt32) : (crc &&& 1 != 0) = crc.toBitVec.getLsbD 0 := by
  have masked : (crc &&& 1).toBitVec = BitVec.setWidth 32 (BitVec.ofBool (crc.toBitVec.getLsbD 0)) := by
    rw [UInt32.toBitVec_and]
    exact BitVec.and_one_eq_setWidth_ofBool_getLsbD
  cases bit : crc.toBitVec.getLsbD 0 with
  | false =>
    have zero : crc &&& 1 = 0 := UInt32.toBitVec_inj.mp (by rw [masked, bit]; decide)
    rw [zero]
    decide
  | true =>
    have one : crc &&& 1 = 1 := UInt32.toBitVec_inj.mp (by rw [masked, bit]; decide)
    rw [one]
    decide

theorem crcShift_shift (crc : UInt32) :
    (crcShift crc).toBitVec = Crc.shift 0xedb88320#32 crc.toBitVec := by
  unfold crcShift Crc.shift
  rw [low_bit]
  split
  · simp
  · simp

theorem crcShift_shifts (crc : UInt32) (k : Nat) :
    (crcShift^[k] crc).toBitVec = (Crc.shift 0xedb88320#32)^[k] crc.toBitVec := by
  induction k with
  | zero => rfl
  | succ k ih => rw [Function.iterate_succ_apply', Function.iterate_succ_apply', crcShift_shift, ih]

theorem crc32_checksum (s : List UInt8) : (crc32 s).toBitVec = checksum s := by
  have folded : ∀ crc : UInt32,
      (s.foldl (fun crc byte => crcShift^[8] (crc ^^^ byte.toUInt32)) crc).toBitVec =
        Crc.remainder 0xedb88320#32 crc.toBitVec (s.flatMap Crc.byteBits) := by
    induction s with
    | nil => intro crc; rfl
    | cons byte s ih =>
      intro crc
      have bits : Crc.lowBits byte.toUInt32.toBitVec 8 = Crc.byteBits byte := by
        unfold Crc.byteBits Crc.lowBits
        apply List.map_congr_left
        intro i member
        have small := List.mem_range.mp member
        simp only [UInt8.toBitVec_toUInt32, BitVec.getLsbD_setWidth]
        simp only [Bool.and_eq_right_iff_imp, decide_eq_true_eq]
        omega
      have short : byte.toUInt32.toBitVec.toNat < 2 ^ 8 := by
        rw [UInt32.toNat_toBitVec, UInt8.toNat_toUInt32]
        exact byte.toNat_lt
      rw [List.foldl_cons, ih, List.flatMap_cons, Crc.remainder_append, crcShift_shifts,
        UInt32.toBitVec_xor, Crc.shifts_word _ (by decide) _ _ short, bits]
  rw [crc32, checksum, UInt32.toBitVec_not, folded]
  rfl

def magic : List UInt8 := ['D', 'S', 'U', 'S'].map Char.toUInt8

/-- What the clients of the protocol are told about the byte string of a packet. -/
structure WellFormed (eventType : UInt32) (id : UInt32) (bytes : List UInt8) : Prop where
  magic : bytes.take 4 = magic
  version : load (memory bytes) 4 2 = 1001
  length : 16 + load (memory bytes) 6 2 = bytes.length
  crc : load (memory bytes) 8 4 = (checksum (bytes.take 8 ++ [0, 0, 0, 0] ++ bytes.drop 12)).toNat
  id : load (memory bytes) 12 4 = id.toNat
  eventType : load (memory bytes) 16 4 = eventType.toNat

theorem word_small (n : UInt32) : n.toNat % 256 ^ 4 = n.toNat := Nat.mod_eq_of_lt n.toNat_lt

theorem half_small (n : UInt16) : n.toNat % 256 ^ 2 = n.toNat := Nat.mod_eq_of_lt n.toNat_lt

theorem header_loads (h : Header) (body : List UInt8) :
    (h.bytes ++ body).take 4 = h.magic.toList ∧
      load (memory (h.bytes ++ body)) 4 2 = h.version.toNat ∧
      load (memory (h.bytes ++ body)) 6 2 = h.length.toNat ∧
      load (memory (h.bytes ++ body)) 8 4 = h.crc32.toNat ∧
      load (memory (h.bytes ++ body)) 12 4 = h.id.toNat ∧
      load (memory (h.bytes ++ body)) 16 4 = h.eventType.toNat := by
  unfold Header.bytes
  refine ⟨?_, ?_, ?_, ?_, ?_, ?_⟩
  · simp only [List.append_assoc]
    exact List.take_left' (by simp)
  · rw [List.append_assoc, List.append_assoc, List.append_assoc, List.append_assoc,
      load_field _ _ _ _ _ (by simp), half_small]
  · rw [List.append_assoc, List.append_assoc, List.append_assoc, load_field _ _ _ _ _ (by simp [encode_length]),
      half_small]
  · rw [List.append_assoc, List.append_assoc, load_field _ _ _ _ _ (by simp [encode_length]), word_small]
  · rw [List.append_assoc, load_field _ _ _ _ _ (by simp [encode_length]), word_small]
  · rw [load_field _ _ _ _ _ (by simp [encode_length]), word_small]

theorem zeroed_bytes (h : Header) (body : List UInt8) :
    (h.bytes ++ body).take 8 ++ [0, 0, 0, 0] ++ (h.bytes ++ body).drop 12 =
      Header.bytes { h with crc32 := 0 } ++ body := by
  have front : (h.magic.toList ++ encode 2 h.version.toNat ++ encode 2 h.length.toNat).length = 8 := by
    simp [encode_length]
  have zero : encode 4 (0 : UInt32).toNat = [0, 0, 0, 0] := by decide
  have split : h.bytes ++ body =
      (h.magic.toList ++ encode 2 h.version.toNat ++ encode 2 h.length.toNat) ++
        (encode 4 h.crc32.toNat ++ (encode 4 h.id.toNat ++ encode 4 h.eventType.toNat ++ body)) := by
    simp [Header.bytes]
  have early : (h.bytes ++ body).take 8 =
      h.magic.toList ++ encode 2 h.version.toNat ++ encode 2 h.length.toNat := by
    rw [split, List.take_left' front]
  have late : (h.bytes ++ body).drop 12 = encode 4 h.id.toNat ++ encode 4 h.eventType.toNat ++ body := by
    rw [split, ← List.append_assoc, List.drop_left' (by simp [encode_length])]
  rw [early, late, Header.bytes, zero]
  simp

theorem wellFormed_packet (h : Header) (body : List UInt8) (start : h.magic.toList = magic)
    (version : h.version = 1001) (count : h.length.toNat = 4 + body.length)
    (crc : h.crc32 = crc32 (Header.bytes { h with crc32 := 0 } ++ body)) :
    WellFormed h.eventType h.id (h.bytes ++ body) := by
  obtain ⟨magic_at, version_at, length_at, crc_at, id_at, type_at⟩ := header_loads h body
  constructor
  · rw [magic_at, start]
  · rw [version_at, version]
    rfl
  · rw [length_at, count, List.length_append, header_length]
    omega
  · rw [crc_at, zeroed_bytes, ← crc32_checksum, ← crc]
    rfl
  · exact id_at
  · exact type_at

theorem illFormed_packet {h : Header} {body : List UInt8} (count : h.length.toNat ≠ 4 + body.length)
    (eventType id : UInt32) : ¬WellFormed eventType id (h.bytes ++ body) := by
  intro formed
  have length := formed.length
  rw [(header_loads h body).2.2.1, List.length_append, header_length] at length
  omega

end Protocol
