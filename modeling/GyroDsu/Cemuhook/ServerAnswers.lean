import GyroDsu.Lib.Runs
import GyroDsu.Cemuhook.Protocol

/-
The answers of the Server: four packets, filled in once by the constructor and changed
in place for every request. A sent datagram is the memory of one of them at that time.
-/
namespace ServerAnswers
open LittleEndian CemuhookAdapter Protocol

def deckSlot : UInt8 := 0

structure Answers where
  versionAnswer : VersionData
  infoDeckAnswer : InfoAnswer
  infoNoneAnswer : InfoAnswer
  dataAnswer : DataEvent
  deriving DecidableEq

/-- `memory` is what the members hold before, `outHeader` and `sresponse` what the local
    variables of these names hold: every member that is not written keeps it. -/
def prepareAnswerConstants (memory : Answers) (outHeader : Header) (sresponse : SharedResponse) :
    Answers :=
  let outHeader : Header :=
    { outHeader with
      magic := #v['D'.toUInt8, 'S'.toUInt8, 'U'.toUInt8, 'S'.toUInt8]
      version := 1001 }
  let sresponse : SharedResponse :=
    { sresponse with
      deviceModel := 2, connection := 1, mac1 := 0, mac2 := 0, battery := 0, connected := 0 }
  let infoDeckAnswer : InfoAnswer :=
    ⟨{ outHeader with eventType := infoType, length := 12 + 4 }, { sresponse with slot := deckSlot }⟩
  { versionAnswer :=
      { memory.versionAnswer with header := { outHeader with length := 2 + 4 }, version := 1001 }
    infoDeckAnswer := infoDeckAnswer
    infoNoneAnswer :=
      { infoDeckAnswer with
        response :=
          { infoDeckAnswer.response with deviceModel := 0, connection := 0, slotState := 0 } }
    dataAnswer :=
      { memory.dataAnswer with
        header := { outHeader with eventType := dataType, length := 100 - 16 }
        response := { sresponse with slotState := 2, connected := 1, slot := deckSlot }
        -- The cleared bytes go one member too far, into the motion data.
        buttons := Vector.replicate 20 0
        touch := Vector.replicate 3 0
        motion := { memory.dataAnswer.motion with timestampL := 0 } } }

def VersionData.withCrc (v : VersionData) : VersionData :=
  let v := { v with header := { v.header with crc32 := 0 } }
  { v with header := { v.header with crc32 := crc32 v.bytes } }

def InfoAnswer.withCrc (a : InfoAnswer) : InfoAnswer :=
  let a := { a with header := { a.header with crc32 := 0 } }
  { a with header := { a.header with crc32 := crc32 a.bytes } }

def isControllerConnected : Bool := true

def Answers.prepareVersionAnswer (a : Answers) (id : UInt32) : Answers × List UInt8 :=
  let answer := VersionData.withCrc
    { a.versionAnswer with header := { a.versionAnswer.header with id := id } }
  ({ a with versionAnswer := answer }, answer.bytes)

def Answers.prepareInfoAnswer (a : Answers) (id : UInt32) (slot : UInt8) : Answers × List UInt8 :=
  if slot != deckSlot then
    let answer := InfoAnswer.withCrc
      ⟨{ a.infoNoneAnswer.header with id := id }, { a.infoNoneAnswer.response with slot := slot }⟩
    ({ a with infoNoneAnswer := answer }, answer.bytes)
  else
    let answer := InfoAnswer.withCrc
      ⟨{ a.infoDeckAnswer.header with id := id },
       { a.infoDeckAnswer.response with
         slot := slot
         slotState := if isControllerConnected then 2 else 0 }⟩
    ({ a with infoDeckAnswer := answer }, answer.bytes)

def Answers.prepareDataAnswerWithoutCrc (a : Answers) (id packet : UInt32) (motion : MotionData) :
    Answers :=
  { a with
    dataAnswer :=
      { a.dataAnswer with
        header := { a.dataAnswer.header with id := id }
        packetNumber := packet
        motion := motion } }

def DataEvent.calcCrc (d : DataEvent) : DataEvent :=
  let d := { d with header := { d.header with crc32 := 0 } }
  { d with header := { d.header with crc32 := crc32 d.bytes } }

def DataEvent.modifyId (d : DataEvent) (id : UInt32) : DataEvent :=
  DataEvent.calcCrc { d with header := { d.header with id := id } }

def sendData {C : Type} (idOf : C → UInt32) : DataEvent → List C → DataEvent × List (C × List UInt8)
  | d, [] => (d, [])
  | d, client :: clients =>
    let d := DataEvent.modifyId d (idOf client)
    let (last, rest) := sendData idOf d clients
    (last, (client, d.bytes) :: rest)

/-- The members that no Prepare or Modify function writes, and what makes them right. -/
structure Sound (a : Answers) : Prop where
  version : a.versionAnswer.header.magic.toList = magic ∧ a.versionAnswer.header.version = 1001 ∧
    a.versionAnswer.header.length = 6
  deck : a.infoDeckAnswer.header.magic.toList = magic ∧ a.infoDeckAnswer.header.version = 1001 ∧
    a.infoDeckAnswer.header.length = 16 ∧ a.infoDeckAnswer.header.eventType = infoType
  none : a.infoNoneAnswer.header.magic.toList = magic ∧ a.infoNoneAnswer.header.version = 1001 ∧
    a.infoNoneAnswer.header.length = 16 ∧ a.infoNoneAnswer.header.eventType = infoType
  data : a.dataAnswer.header.magic.toList = magic ∧ a.dataAnswer.header.version = 1001 ∧
    a.dataAnswer.header.length = 84 ∧ a.dataAnswer.header.eventType = dataType

theorem constants_sound (memory : Answers) (outHeader : Header) (sresponse : SharedResponse) :
    Sound (prepareAnswerConstants memory outHeader sresponse) := by
  constructor <;> refine ⟨rfl, rfl, ?_⟩
  · rfl
  · exact ⟨rfl, rfl⟩
  · exact ⟨rfl, rfl⟩
  · exact ⟨rfl, rfl⟩

theorem modifyId_again (d : DataEvent) (first second : UInt32) :
    DataEvent.modifyId (DataEvent.modifyId d first) second = DataEvent.modifyId d second := rfl

theorem sendData_sent {C : Type} (idOf : C → UInt32) (d : DataEvent) (clients : List C) :
    (sendData idOf d clients).2 =
      clients.map fun client => (client, (DataEvent.modifyId d (idOf client)).bytes) := by
  induction clients generalizing d with
  | nil => rfl
  | cons client clients ih =>
    rw [sendData, List.map_cons]
    simp only [ih, modifyId_again]

theorem sendData_last {C : Type} (idOf : C → UInt32) (d : DataEvent) (clients : List C) :
    ∃ id crc, (sendData idOf d clients).1 = { d with header := { d.header with id := id, crc32 := crc } } := by
  induction clients generalizing d with
  | nil => exact ⟨d.header.id, d.header.crc32, rfl⟩
  | cons client clients ih =>
    obtain ⟨id, crc, same⟩ := ih (DataEvent.modifyId d (idOf client))
    exact ⟨id, crc, same⟩

/-- A request that is answered: a subscription is answered in every iteration of sendTask,
    for all clients. -/
inductive Request where
  | version (id : UInt32)
  | info (id : UInt32) (slot : UInt8)
  | data (packet : UInt32) (motion : MotionData) (ids : List UInt32)

structure Sent where
  eventType : UInt32
  id : UInt32
  bytes : List UInt8

def Answers.serve (a : Answers) : Request → Answers × List Sent
  | .version id =>
    let (a, bytes) := a.prepareVersionAnswer id
    (a, [⟨versionType, id, bytes⟩])
  | .info id slot =>
    let (a, bytes) := a.prepareInfoAnswer id slot
    (a, [⟨infoType, id, bytes⟩])
  | .data packet motion ids =>
    let a := a.prepareDataAnswerWithoutCrc 0 packet motion
    let (dataAnswer, sent) := sendData id a.dataAnswer ids
    ({ a with dataAnswer := dataAnswer }, sent.map fun (id, bytes) => ⟨dataType, id, bytes⟩)

structure Serving where
  answers : Answers
  sent : List Sent

def Serving.step (s : Serving) (request : Request) : Option Serving :=
  some ⟨(s.answers.serve request).1, (s.answers.serve request).2 ++ s.sent⟩

theorem version_sent {a : Answers} (h : Sound a) (id : UInt32) :
    Sound (a.prepareVersionAnswer id).1 ∧
      ∀ eventType id', ¬WellFormed eventType id' (a.prepareVersionAnswer id).2 := by
  constructor
  · exact ⟨h.version, h.deck, h.none, h.data⟩
  · -- The two padding bytes are sent and not counted.
    apply illFormed_packet
    have length := h.version.2.2
    simp [VersionData.withCrc, length]

theorem info_sent {a : Answers} (h : Sound a) (id : UInt32) (slot : UInt8) :
    Sound (a.prepareInfoAnswer id slot).1 ∧ WellFormed infoType id (a.prepareInfoAnswer id slot).2 := by
  have packet : ∀ answer : InfoAnswer, answer.header.magic.toList = magic → answer.header.version = 1001 →
      answer.header.length = 16 → answer.header.eventType = infoType → answer.header.id = id →
      WellFormed infoType id (InfoAnswer.withCrc answer).bytes := by
    intro answer start version length eventType id_is
    rw [← eventType, ← id_is]
    exact wellFormed_packet (InfoAnswer.withCrc answer).header answer.response.bytes start version
      (by simp [InfoAnswer.withCrc, length]) rfl
  unfold Answers.prepareInfoAnswer
  split
  · obtain ⟨start, version, length, eventType⟩ := h.none
    exact ⟨⟨h.version, h.deck, ⟨start, version, length, eventType⟩, h.data⟩,
      packet _ start version length eventType rfl⟩
  · obtain ⟨start, version, length, eventType⟩ := h.deck
    exact ⟨⟨h.version, ⟨start, version, length, eventType⟩, h.none, h.data⟩,
      packet _ start version length eventType rfl⟩

theorem data_sent {a : Answers} (h : Sound a) (packet : UInt32) (motion : MotionData) (id : UInt32) :
    WellFormed dataType id
      (DataEvent.modifyId (a.prepareDataAnswerWithoutCrc 0 packet motion).dataAnswer id).bytes := by
  obtain ⟨start, version, length, eventType⟩ := h.data
  have count : (DataEvent.modifyId (a.prepareDataAnswerWithoutCrc 0 packet motion).dataAnswer
      id).header.length = 84 := length
  rw [← eventType]
  exact wellFormed_packet (DataEvent.modifyId (a.prepareDataAnswerWithoutCrc 0 packet motion).dataAnswer id).header
    _ start version (by rw [count, dataBody_length]; rfl) rfl

theorem data_sound {a : Answers} (h : Sound a) (packet : UInt32) (motion : MotionData) {C : Type}
    (idOf : C → UInt32) (clients : List C) :
    Sound { a with
      dataAnswer :=
        (sendData idOf (a.prepareDataAnswerWithoutCrc 0 packet motion).dataAnswer clients).1 } := by
  obtain ⟨id, crc, same⟩ := sendData_last idOf (a.prepareDataAnswerWithoutCrc 0 packet motion).dataAnswer clients
  rw [same]
  exact ⟨h.version, h.deck, h.none, h.data⟩

theorem info_not_version : infoType ≠ versionType := by decide

theorem data_not_version : dataType ≠ versionType := by decide

theorem serve_sound {a : Answers} (h : Sound a) (request : Request) :
    Sound (a.serve request).1 ∧
      ∀ d ∈ (a.serve request).2, WellFormed d.eventType d.id d.bytes ↔ d.eventType ≠ versionType := by
  cases request with
  | version id =>
    obtain ⟨sound, illFormed⟩ := version_sent h id
    refine ⟨sound, ?_⟩
    intro d member
    obtain rfl := List.mem_singleton.mp member
    exact iff_of_false (illFormed _ _) (by simp)
  | info id slot =>
    obtain ⟨sound, formed⟩ := info_sent h id slot
    refine ⟨sound, ?_⟩
    intro d member
    obtain rfl := List.mem_singleton.mp member
    exact iff_of_true formed info_not_version
  | data packet motion ids =>
    refine ⟨data_sound h packet motion id ids, ?_⟩
    intro d member
    simp only [Answers.serve, sendData_sent, List.map_map] at member
    obtain ⟨id, _, rfl⟩ := List.mem_map.mp member
    exact iff_of_true (data_sent h packet motion id) data_not_version

/-- Whatever was answered before: the answers to INFO and DATA requests are well formed,
    the answer to a VERSION request never is. -/
theorem sent_wellFormed_iff (memory : Answers) (outHeader : Header) (sresponse : SharedResponse)
    (requests : List Request) (t : Serving)
    (run : Runs.Run Serving.step ⟨prepareAnswerConstants memory outHeader sresponse, []⟩ requests t) :
    ∀ d ∈ t.sent, WellFormed d.eventType d.id d.bytes ↔ d.eventType ≠ versionType := by
  have all : Sound t.answers ∧ ∀ d ∈ t.sent, WellFormed d.eventType d.id d.bytes ↔ d.eventType ≠ versionType := by
    refine Runs.run_invariant (fun s : Serving => Sound s.answers ∧
      ∀ d ∈ s.sent, WellFormed d.eventType d.id d.bytes ↔ d.eventType ≠ versionType) ?_ run ?_
    · intro s request t h step
      obtain rfl := Option.some.inj step
      obtain ⟨sound, sent⟩ := serve_sound h.1 request
      refine ⟨sound, ?_⟩
      intro d member
      rcases List.mem_append.mp member with now | before
      · exact sent d now
      · exact h.2 d before
    · exact ⟨constants_sound memory outHeader sresponse, fun d none_sent => by cases none_sent⟩
  exact all.2

def blankHeader : Header := ⟨Vector.replicate 4 0, 0, 0, 0, 0, 0⟩
def blankResponse : SharedResponse := ⟨0, 0, 0, 0, 0, 0, 0, 0⟩

def blank : Answers where
  versionAnswer := ⟨blankHeader, 0, Vector.replicate 2 0⟩
  infoDeckAnswer := ⟨blankHeader, blankResponse⟩
  infoNoneAnswer := ⟨blankHeader, blankResponse⟩
  dataAnswer := ⟨blankHeader, blankResponse, 0, Vector.replicate 20 0, Vector.replicate 3 0,
    ⟨0, 0, 0, 0, 0, 0, 0, 0⟩⟩

def fresh : Serving := ⟨prepareAnswerConstants blank blankHeader blankResponse, []⟩

theorem sent_wellFormed_iff_info :
    ∃ t, Runs.Run Serving.step fresh [.info 5 0] t ∧
      ∃ d ∈ t.sent, d.id = 5 ∧ WellFormed d.eventType d.id d.bytes := by
  have run : Runs.Run Serving.step fresh [.info 5 0] _ := Runs.Run.next Runs.Run.nil rfl
  refine ⟨_, run, _, List.mem_cons_self, rfl, ?_⟩
  exact (sent_wellFormed_iff blank blankHeader blankResponse _ _ run _ List.mem_cons_self).mpr
    info_not_version

/-- A request for the version is answered with 24 bytes that claim to be 22. -/
theorem version_answer_illFormed :
    ∃ t, Runs.Run Serving.step fresh [.version 5] t ∧
      ∃ d ∈ t.sent, d.eventType = versionType ∧ d.id = 5 ∧ ¬WellFormed d.eventType d.id d.bytes := by
  refine ⟨_, Runs.Run.next Runs.Run.nil rfl, _, List.mem_cons_self, rfl, rfl, ?_⟩
  exact (version_sent (constants_sound blank blankHeader blankResponse) 5).2 versionType 5

end ServerAnswers
