import GyroDsu.Cemuhook.ServerAnswers

/-
Requests that serverTask answers at once. They are read from the receive buffer in
place, so a request can take in what lies behind the received bytes: the rest of an
earlier datagram, and past the buffer whatever is there.
-/
namespace InfoRequests
open LittleEndian Protocol ServerAnswers

def bufLen : Nat := 100
def headerSize : Nat := 20

def eventType (buf : Memory) : UInt32 := UInt32.ofNat (load buf 16 4)
def requestId (buf : Memory) : UInt32 := UInt32.ofNat (load buf 12 4)
def portCnt (buf : Memory) : Int := (Int32.ofNat (load buf 20 4)).toInt
def slot (buf : Memory) (i : Nat) : UInt8 := buf (24 + i)

def infoLoop (buf : Memory) : Answers → List Nat → Answers × List (List UInt8)
  | a, [] => (a, [])
  | a, i :: rest =>
    let (a, bytes) := a.prepareInfoAnswer (requestId buf) (slot buf i)
    let (a, sent) := infoLoop buf a rest
    (a, bytes :: sent)

def ports (buf : Memory) : List Nat := List.range (portCnt buf).toNat

def respond (a : Answers) (buf : Memory) : Answers × List (List UInt8) :=
  if eventType buf = versionType then
    let (a, bytes) := a.prepareVersionAnswer (requestId buf)
    (a, [bytes])
  else if eventType buf = infoType then infoLoop buf a (ports buf)
  else (a, [])

def word (offset : Nat) : List Nat := (List.range 4).map (offset + ·)

/-- The offsets it reads. The loop reads the count of ports again before every turn. -/
def reads (buf : Memory) : List Nat :=
  word 16 ++
    if eventType buf = versionType then word 12
    else if eventType buf = infoType then
      word 20 ++ (ports buf).flatMap fun i => word 12 ++ [24 + i] ++ word 20
    else []

/-- The received bytes `d` are at the start of the buffer. -/
def Holds (d : List UInt8) (buf : Memory) : Prop := ∀ i, i < d.length → buf i = memory d i

/-- The answer to a request stays within what has been received. -/
structure Confined (d : List UInt8) : Prop where
  reads : ∀ buf, Holds d buf → ∀ offset ∈ reads buf, offset < d.length
  few : ∀ a buf, Holds d buf → (respond a buf).2.length ≤ 4
  determined : ∀ a buf buf', Holds d buf → Holds d buf' → (respond a buf).2 = (respond a buf').2

theorem load_holds {d : List UInt8} {buf : Memory} (h : Holds d buf) {offset : Nat}
    (inside : offset + 4 ≤ d.length) : load buf offset 4 = load (memory d) offset 4 :=
  load_agree fun i bound => h (offset + i) (by omega)

theorem mem_word {offset i : Nat} : i ∈ word offset ↔ offset ≤ i ∧ i < offset + 4 := by
  simp only [word, List.mem_map, List.mem_range]
  constructor
  · rintro ⟨j, bound, rfl⟩
    omega
  · rintro ⟨above, below⟩
    exact ⟨i - offset, by omega, by omega⟩

theorem infoLoop_length (buf : Memory) (a : Answers) (is : List Nat) :
    (infoLoop buf a is).2.length = is.length := by
  induction is generalizing a with
  | nil => rfl
  | cons i is ih => simp only [infoLoop, List.length_cons, ih]

theorem infoLoop_agree {buf buf' : Memory} (id : requestId buf = requestId buf') (a : Answers)
    (is : List Nat) (slots : ∀ i ∈ is, slot buf i = slot buf' i) :
    infoLoop buf a is = infoLoop buf' a is := by
  induction is generalizing a with
  | nil => rfl
  | cons i is ih =>
    have rest := fun a => ih a fun j member => slots j (List.mem_cons_of_mem _ member)
    simp only [infoLoop, id, slots i List.mem_cons_self, rest]

theorem respond_info {buf : Memory} (info : eventType buf = infoType) (a : Answers) :
    respond a buf = infoLoop buf a (ports buf) := by
  rw [respond, if_neg (by rw [info]; exact info_not_version), if_pos info]

theorem reads_info {buf : Memory} (info : eventType buf = infoType) :
    reads buf = word 16 ++ (word 20 ++ (ports buf).flatMap fun i => word 12 ++ [24 + i] ++ word 20) := by
  rw [reads, if_neg (by rw [info]; exact info_not_version), if_pos info]

theorem memory_holds (d : List UInt8) : Holds d (memory d) := fun _ _ => rfl

theorem counted_slots {d : List UInt8} (info : eventType (memory d) = infoType)
    (confined : Confined d) :
    24 ≤ d.length ∧ portCnt (memory d) ≤ 4 ∧ portCnt (memory d) ≤ (d.length : Int) - 24 := by
  have reads := confined.reads (memory d) (memory_holds d)
  rw [reads_info info] at reads
  have counted : 24 ≤ d.length := by
    have last := reads 23 (by simp [mem_word])
    omega
  have few := confined.few blank (memory d) (memory_holds d)
  rw [respond_info info, infoLoop_length, ports, List.length_range] at few
  refine ⟨counted, by omega, ?_⟩
  by_contra beyond
  have port : d.length - 24 ∈ ports (memory d) := List.mem_range.mpr (by omega)
  have slot := reads (24 + (d.length - 24)) (by
    simp only [List.mem_append, List.mem_flatMap]
    exact Or.inr (Or.inr ⟨_, port, Or.inl (Or.inr (by simp))⟩))
  omega

theorem slots_confined {d : List UInt8} (info : eventType (memory d) = infoType)
    (counted : 24 ≤ d.length) (few : portCnt (memory d) ≤ 4)
    (inside : portCnt (memory d) ≤ (d.length : Int) - 24) : Confined d := by
  have type : ∀ buf, Holds d buf → eventType buf = infoType := by
    intro buf h
    rw [← info, eventType, eventType, load_holds h (by omega)]
  have ports_eq : ∀ buf, Holds d buf → ports buf = ports (memory d) := by
    intro buf h
    rw [ports, ports, portCnt, portCnt, load_holds h (by omega)]
  have port_bound : ∀ i ∈ ports (memory d), 24 + i < d.length := by
    intro i member
    have := List.mem_range.mp member
    omega
  constructor
  · intro buf h offset member
    rw [reads_info (type buf h), ports_eq buf h] at member
    simp only [List.mem_append, List.mem_flatMap, mem_word, List.mem_singleton] at member
    rcases member with bounds | bounds | ⟨i, port, (bounds | rfl) | bounds⟩
    · omega
    · omega
    · omega
    · exact port_bound i port
    · omega
  · intro a buf h
    rw [respond_info (type buf h), infoLoop_length, ports_eq buf h, ports, List.length_range]
    omega
  · intro a buf buf' h h'
    rw [respond_info (type buf h), respond_info (type buf' h'), ports_eq buf h, ports_eq buf' h']
    apply congrArg Prod.snd
    apply infoLoop_agree
    · rw [requestId, requestId, load_holds h (by omega), load_holds h' (by omega)]
    · intro i port
      have bound := port_bound i port
      rw [slot, slot, h _ bound, h' _ bound]

/-- An INFO request stays within its datagram exactly when the datagram contains the count
    of ports and as many slots, at most four. -/
theorem confined_iff (d : List UInt8) (_size : headerSize ≤ d.length ∧ d.length ≤ bufLen)
    (info : eventType (memory d) = infoType) :
    Confined d ↔ 24 ≤ d.length ∧ portCnt (memory d) ≤ 4 ∧ portCnt (memory d) ≤ (d.length : Int) - 24 := by
  constructor
  · intro confined
    exact counted_slots info confined
  · rintro ⟨counted, few, inside⟩
    exact slots_confined info counted few inside

/-- An INFO request of 28 bytes: id 7, then the count of ports and four slots. -/
def infoRequest (count : UInt8) : List UInt8 :=
  [68, 83, 85, 67, 0xE9, 3, 12, 0, 0, 0, 0, 0, 7, 0, 0, 0, 1, 0, 0x10, 0, count, 0, 0, 0, 0, 1, 2, 3]

theorem confined_four : Confined (infoRequest 4) :=
  (confined_iff (infoRequest 4) (by decide) (by decide)).mpr (by decide)

/-- A fifth port is looked up behind the datagram, and one answer too many is sent. -/
theorem fifth_port_not_confined :
    eventType (memory (infoRequest 5)) = infoType ∧ ¬Confined (infoRequest 5) ∧
      28 ∈ reads (memory (infoRequest 5)) ∧ (respond blank (memory (infoRequest 5))).2.length = 5 := by
  have info : eventType (memory (infoRequest 5)) = infoType := by decide
  have answers : (respond blank (memory (infoRequest 5))).2.length = 5 := by
    rw [respond_info info, infoLoop_length]
    decide
  refine ⟨info, ?_, by decide, answers⟩
  intro confined
  have few := confined.few blank _ (memory_holds _)
  omega

end InfoRequests
