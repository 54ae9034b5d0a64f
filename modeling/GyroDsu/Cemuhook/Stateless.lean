import GyroDsu.Cemuhook.Broadcast
import GyroDsu.Cemuhook.Shutdown

/-
The answers are kept and changed in place, and yet the server forgets: what it sends for a request
never depends on the requests before it, nor on those of other clients.
-/
namespace Stateless
open LittleEndian CemuhookAdapter Protocol ServerAnswers InfoRequests Server Lifecycle Broadcast Shutdown

def clearHeader (h : Header) : Header := { h with id := 0, crc32 := 0 }

/-- The answers without the members that are written again for every request. -/
def forget (a : Answers) : Answers where
  versionAnswer := { a.versionAnswer with header := clearHeader a.versionAnswer.header }
  infoDeckAnswer :=
    ⟨clearHeader a.infoDeckAnswer.header, { a.infoDeckAnswer.response with slot := 0, slotState := 0 }⟩
  infoNoneAnswer := ⟨clearHeader a.infoNoneAnswer.header, { a.infoNoneAnswer.response with slot := 0 }⟩
  dataAnswer :=
    { a.dataAnswer with
      header := clearHeader a.dataAnswer.header
      packetNumber := 0
      motion := still }

theorem info_forgets (a : Answers) (id : UInt32) (slot : UInt8) :
    (a.prepareInfoAnswer id slot).2 = ((forget a).prepareInfoAnswer id slot).2 ∧
      forget (a.prepareInfoAnswer id slot).1 = forget a := by
  unfold Answers.prepareInfoAnswer
  split <;> exact ⟨rfl, rfl⟩

theorem infoLoop_forgets (buf : Memory) (a : Answers) (slots : List Nat) :
    (infoLoop buf a slots).2 = slots.map (fun i => ((forget a).prepareInfoAnswer (requestId buf) (slot buf i)).2) ∧
      forget (infoLoop buf a slots).1 = forget a := by
  induction slots generalizing a with
  | nil => exact ⟨rfl, rfl⟩
  | cons i slots ih =>
    obtain ⟨sent, kept⟩ := info_forgets a (requestId buf) (slot buf i)
    obtain ⟨rest, kept_rest⟩ := ih (a.prepareInfoAnswer (requestId buf) (slot buf i)).1
    simp only [infoLoop, List.map_cons, sent, rest, kept, kept_rest, and_self]

theorem respond_forgets (a : Answers) (buf : Memory) :
    (respond a buf).2 = (respond (forget a) buf).2 ∧ forget (respond a buf).1 = forget a := by
  have again : forget (forget a) = forget a := rfl
  unfold respond
  split
  · exact ⟨rfl, rfl⟩
  · split
    · obtain ⟨sent, kept⟩ := infoLoop_forgets buf a (ports buf)
      rw [sent, (infoLoop_forgets buf (forget a) (ports buf)).1, again]
      exact ⟨rfl, kept⟩
    · exact ⟨rfl, rfl⟩

theorem sendData_forgets {C : Type} (idOf : C → UInt32) (a : Answers) (clients : List C) :
    forget { a with dataAnswer := (sendData idOf a.dataAnswer clients).1 } = forget a := by
  obtain ⟨id, crc, same⟩ := sendData_last idOf a.dataAnswer clients
  rw [same]
  rfl

theorem step_forgets {s t : State} {a : Action} (step : s.step a = some t) :
    forget t.answers = forget s.answers := by
  cases step_cases step with
  | header | short | receiveTimeout | stop => rfl
  | server moves =>
    cases moves with
    | port i pc more => exact (info_forgets s.answers _ _).2
    | _ => rfl
  | sender run motion sender here moves =>
    cases moves with
    | broadcast pc => exact sendData_forgets Client.id s.answers s.clients
    | _ => rfl

theorem run_forgets {s t : State} {as : List Action} (run : Runs.Run State.step s as t) :
    forget t.answers = forget s.answers := by
  induction run with
  | nil => rfl
  | next before last ih => exact (step_forgets last).trans ih

theorem four_letters : #['D'.toUInt8, 'S'.toUInt8, 'U'.toUInt8, 'S'.toUInt8].size = 4 := rfl

def header (length : UInt16) (id eventType : UInt32) : Header where
  magic := ⟨#['D'.toUInt8, 'S'.toUInt8, 'U'.toUInt8, 'S'.toUInt8], four_letters⟩
  version := 1001
  length := length
  crc32 := 0
  id := id
  eventType := eventType

def infoPacket (id : UInt32) (slot : UInt8) : InfoAnswer :=
  InfoAnswer.withCrc ⟨header 16 id infoType,
    if slot = deckSlot then ⟨0, 2, 2, 1, 0, 0, 0, 0⟩ else ⟨slot, 0, 0, 0, 0, 0, 0, 0⟩⟩

def dataPacket (packet : UInt32) (motion : MotionData) (id : UInt32) : DataEvent :=
  DataEvent.calcCrc ⟨header 84 id dataType, ⟨0, 2, 2, 1, 0, 0, 0, 1⟩, packet, Vector.replicate 20 0,
    Vector.replicate 3 0, motion⟩

theorem info_constants (memory : Answers) (outHeader : Header) (sresponse : SharedResponse) (id : UInt32)
    (slot : UInt8) : ((forget (prepareAnswerConstants memory outHeader sresponse)).prepareInfoAnswer id slot).2 =
      (infoPacket id slot).bytes := by
  unfold Answers.prepareInfoAnswer
  split
  · rename_i other
    rw [infoPacket, if_neg (by simpa using other)]
    rfl
  · rename_i deck
    have same : slot = deckSlot := by simpa using deck
    rw [infoPacket, if_pos same, same]
    rfl

theorem data_constants {a memory : Answers} {outHeader : Header} {sresponse : SharedResponse}
    (same : forget a = forget (prepareAnswerConstants memory outHeader sresponse)) (id : UInt32) :
    DataEvent.modifyId a.dataAnswer id = dataPacket a.dataAnswer.packetNumber a.dataAnswer.motion id := by
  have forgets : DataEvent.modifyId a.dataAnswer id =
      DataEvent.modifyId { (forget a).dataAnswer with
        packetNumber := a.dataAnswer.packetNumber
        motion := a.dataAnswer.motion } id := rfl
  rw [forgets, same]
  rfl

theorem motion_kept {s t : State} {a : Action} (step : s.step a = some t) :
    t.answers.dataAnswer.motion = s.answers.dataAnswer.motion ∨
      ∃ run sender motion, a = .sender run motion ∧ s.senders run = some sender ∧ sender.pc = .prepare ∧
        t.answers.dataAnswer.motion = motion := by
  cases step_cases step with
  | header | short | receiveTimeout | stop => exact Or.inl rfl
  | server moves =>
    cases moves with
    | port i pc more => exact Or.inl (congrArg DataEvent.motion (info_dataAnswer s.answers _ _))
    | _ => exact Or.inl rfl
  | sender run motion sender here moves =>
    cases moves with
    | prepare pc => exact Or.inr ⟨run, sender, motion, rfl, here, pc, rfl⟩
    | broadcast pc =>
      obtain ⟨id, crc, same⟩ := sendData_last Client.id s.answers.dataAnswer s.clients
      exact Or.inl (by simp only [same])
    | _ => exact Or.inl rfl

structure Constructed (s : State) : Prop where
  starts : Starts s
  answers : ∃ memory outHeader sresponse, s.answers = prepareAnswerConstants memory outHeader sresponse

/-- The answers sent at once, newest first. -/
def answered : List Event → List (Address × List UInt8)
  | [] => []
  | .answer address bytes :: log => (address, bytes) :: answered log
  | _ :: log => answered log

/-- What a datagram that lies in the buffer is answered with, oldest first. -/
def answersTo (a : Answers) (source : Address) (buf : Memory) : List (Address × List UInt8) :=
  (respond a buf).2.map fun bytes => (source, bytes)

def answering (buf : Memory) : Nat := if eventType buf = infoType then (portCnt buf).toNat + 2 else 1

/-- The received bytes have all that an answer to them needs. -/
def Complete (d : List UInt8) : Prop :=
  headerSize ≤ d.length ∧ (eventType (memory d) = infoType →
    24 ≤ d.length ∧ portCnt (memory d) ≤ 4 ∧ portCnt (memory d) ≤ (d.length : Int) - 24)

theorem complete_confined {d : List UInt8} (complete : Complete d) : Confined d := by
  obtain ⟨whole, slots⟩ := complete
  by_cases info : eventType (memory d) = infoType
  · obtain ⟨counted, few, inside⟩ := slots info
    exact slots_confined info counted few inside
  · unfold headerSize at whole
    have types : ∀ buf, Holds d buf → eventType buf = eventType (memory d) := fun buf h =>
      congrArg UInt32.ofNat (load_holds h (by omega))
    constructor
    · intro buf h offset member
      rw [reads, types buf h, if_neg info] at member
      split at member <;> simp only [List.mem_append, List.append_nil, mem_word] at member <;> omega
    · intro a buf h
      rw [respond, types buf h, if_neg info]
      split <;> simp
    · intro a buf buf' h h'
      have id : requestId buf = requestId buf' := by
        rw [requestId, requestId, load_holds h (by omega), load_holds h' (by omega)]
      rw [respond, respond, types buf h, types buf' h', if_neg info, if_neg info, id]

theorem receive_holds (buf : Memory) (bytes : List UInt8) : Holds (bytes.take bufLen) (receive buf bytes) := by
  intro i inside
  rw [List.length_take] at inside
  rw [receive, if_pos (by omega), memory, memory, List.getD_eq_getElem?_getD, List.getD_eq_getElem?_getD,
    List.getElem?_take_of_lt (by omega)]

theorem answersTo_info {buf : Memory} (info : eventType buf = infoType) (a : Answers) (source : Address) :
    answersTo a source buf =
      (ports buf).map fun i => (source, ((forget a).prepareInfoAnswer (requestId buf) (slot buf i)).2) := by
  rw [answersTo, respond_info info, (infoLoop_forgets buf a (ports buf)).1, List.map_map]
  rfl

inductive Answering (new : Answers) (source : Address) (buf : Memory) (before : List (Address × List UInt8))
    (u : State) : Nat → Prop where
  | dispatch (pc : u.pc = .dispatch) (from_there : u.source = source) (there : u.buf = buf)
      (log : answered u.log = before) : Answering new source buf before u 0
  | inform (i : Nat) (info : eventType buf = infoType) (pc : u.pc = .inform i) (from_there : u.source = source)
      (there : u.buf = buf) (inside : i ≤ (portCnt buf).toNat)
      (log : answered u.log = ((answersTo new source buf).take i).reverse ++ before) :
      Answering new source buf before u (i + 1)
  | done (k : Nat) (all : k = answering buf)
      (log : answered u.log = (answersTo new source buf).reverse ++ before) : Answering new source buf before u k

theorem inform_answered {new : Answers} {u v : State} {source : Address} {before : List (Address × List UInt8)}
    {i : Nat} (same : forget u.answers = forget new) (info : eventType u.buf = infoType) (pc : u.pc = .inform i)
    (from_there : u.source = source) (inside : i ≤ (portCnt u.buf).toNat)
    (log : answered u.log = ((answersTo new source u.buf).take i).reverse ++ before)
    (step : u.serverStep = some v) : Answering new source u.buf before v (i + 2) := by
  have all := answersTo_info info new source
  cases serverStep_cases step with
  | port j pc' more =>
    obtain rfl := ServerPc.inform.inj (pc.symm.trans pc')
    refine .inform (i + 1) info rfl from_there rfl (by omega) ?_
    have here : (answersTo new source u.buf)[i]? =
        some (source, ((forget new).prepareInfoAnswer (requestId u.buf) (slot u.buf i)).2) := by
      rw [all, List.getElem?_map, ports, List.getElem?_range (by omega)]
      rfl
    rw [List.take_add_one, here, Option.toList_some, List.reverse_append]
    change (u.source, (u.answers.prepareInfoAnswer _ _).2) :: answered u.log = _
    rw [log, (info_forgets u.answers _ _).1, same, from_there]
    rfl
  | informed j pc' every =>
    obtain rfl := ServerPc.inform.inj (pc.symm.trans pc')
    have last : i = (portCnt u.buf).toNat := by omega
    refine .done _ (by rw [answering, if_pos info, last]) ?_
    rw [List.take_of_length_le (by rw [all, List.length_map, ports, List.length_range]; omega)] at log
    exact log
  | stops pc' | listens pc' | version pc' | info pc' | data pc' | ignored pc' | unknown pc' | known _ _ pc'
  | subscribe pc' | launch pc' | launched pc' | spawn pc' | refresh _ pc' | due pc' | notDue pc' | scan _ pc'
  | drained pc' | notDrained pc' | requestStop _ pc' | join _ pc' | finished pc' | finish pc' | requestLast _ pc'
  | joinLast _ pc' => cases pc.symm.trans pc'

theorem dispatch_answered {new : Answers} {u v : State} (same : forget u.answers = forget new)
    (pc : u.pc = .dispatch) (step : u.serverStep = some v) :
    Answering new u.source u.buf (answered u.log) v 1 := by
  simp only [State.serverStep, pc, Option.some.injEq] at step
  unfold State.dispatch at step
  split at step
  · rename_i version
    have sent := (respond_forgets u.answers u.buf).1
    rw [same, ← (respond_forgets new u.buf).1, respond, if_pos version] at sent
    subst step
    refine .done 1 (by rw [answering, version, if_neg (by decide)]) ?_
    rw [answersTo, ← sent]
    rfl
  · rename_i not_version
    split at step
    · rename_i info
      subst step
      exact .inform 0 info rfl rfl rfl (Nat.zero_le _) rfl
    · rename_i not_info
      have nothing : answersTo new u.source u.buf = [] := by
        rw [answersTo, respond, if_neg not_version, if_neg not_info]
        rfl
      have one : 1 = answering u.buf := by rw [answering, if_neg not_info]
      split at step <;> subst step <;> exact .done 1 one (by rw [nothing]; rfl)

theorem beside_answered {u v : State} {a : Action} (other : serves a = false) (step : u.step a = some v) :
    answered v.log = answered u.log := by
  cases step_cases step with
  | header | short | receiveTimeout | server => cases other
  | stop => rfl
  | sender run motion sender here moves => cases moves <;> rfl

theorem answering_step {new : Answers} {source : Address} {buf : Memory} {before : List (Address × List UInt8)}
    {u v : State} {k : Nat} {a : Action} (same : forget u.answers = forget new)
    (so_far : Answering new source buf before u k) (more : k < answering buf) (serving : serves a = true)
    (step : u.step a = some v) : Answering new source buf before v (k + 1) := by
  have by_server : u.pc ≠ .receive → u.serverStep = some v := by
    intro elsewhere
    cases a with
    | datagram | receiveTimeout => simp [State.step, elsewhere] at step
    | server => exact step
    | sender | stop => cases serving
  cases so_far with
  | dispatch pc from_there there log =>
    subst from_there there log
    exact dispatch_answered same pc (by_server (by simp [pc]))
  | inform i info pc from_there there inside log =>
    subst there
    exact inform_answered same info pc from_there inside log (by_server (by simp [pc]))
  | done k all log => omega

theorem answering_beside {new : Answers} {source : Address} {buf : Memory} {before : List (Address × List UInt8)}
    {u v : State} {k : Nat} {a : Action} (so_far : Answering new source buf before u k) (other : serves a = false)
    (step : u.step a = some v) : Answering new source buf before v k := by
  obtain ⟨pc_kept, buf_kept, source_kept⟩ := beside_place other step
  have log_kept := beside_answered other step
  cases so_far with
  | dispatch pc from_there there log =>
    exact .dispatch (pc_kept.trans pc) (source_kept.trans from_there) (buf_kept.trans there) (log_kept.trans log)
  | inform i info pc from_there there inside log =>
    exact .inform i info (pc_kept.trans pc) (source_kept.trans from_there) (buf_kept.trans there) inside
      (log_kept.trans log)
  | done k all log => exact .done _ all (log_kept.trans log)

theorem run_answering {new : Answers} {t u : State} {bs : List Action} (same : forget t.answers = forget new)
    (pc : t.pc = .dispatch) (run : Runs.Run State.step t bs u) (few : bs.countP serves ≤ answering t.buf) :
    Answering new t.source t.buf (answered t.log) u (bs.countP serves) := by
  induction run with
  | nil => exact .dispatch pc rfl rfl rfl
  | @next as a m v earlier last ih =>
    cases serving : serves a with
    | true =>
      rw [List.countP_cons_of_pos serving] at few ⊢
      exact answering_step ((run_forgets earlier).trans same) (ih (by omega)) (by omega) serving last
    | false =>
      rw [List.countP_cons_of_neg (by simp [serving])] at few ⊢
      exact answering_beside (ih few) serving last

theorem answered_all {new : Answers} {source : Address} {buf : Memory} {before : List (Address × List UInt8)}
    {u : State} (finished : Answering new source buf before u (answering buf)) :
    answered u.log = (answersTo new source buf).reverse ++ before := by
  have two : ∀ i, eventType buf = infoType → i ≤ (portCnt buf).toNat → answering buf ≠ i + 1 := by
    intro i info inside
    rw [answering, if_pos info]
    omega
  have some_steps : answering buf ≠ 0 := by
    unfold answering
    split <;> omega
  generalize all : answering buf = k at finished
  cases finished with
  | dispatch => exact absurd all some_steps
  | inform i info pc from_there there inside log => exact absurd all (two i info inside)
  | done k _ log => exact log

theorem datagram_answered {new : Answers} {t v u : State} {source : Address} {bytes : List UInt8} {bs : List Action}
    (same : forget t.answers = forget new) (arrives : t.step (.datagram source bytes) = some v)
    (complete : Complete (bytes.take bufLen)) (run : Runs.Run State.step v bs u)
    (finished : bs.countP serves = answering (memory (bytes.take bufLen))) :
    answered u.log = (answersTo new source (memory (bytes.take bufLen))).reverse ++ answered t.log := by
  have confined := complete_confined complete
  have whole : headerSize ≤ bytes.length := complete.1.trans (List.length_take_le' _ _)
  have same_then := (step_forgets arrives).trans same
  cases step_cases arrives with
  | short _ _ pc short => omega
  | header _ _ pc long =>
    have holds := receive_holds t.buf bytes
    have type : eventType (receive t.buf bytes) = eventType (memory (bytes.take bufLen)) :=
      congrArg UInt32.ofNat (load_holds holds complete.1)
    have steps : answering (receive t.buf bytes) = answering (memory (bytes.take bufLen)) := by
      rw [answering, answering, type]
      split
      · rename_i info
        rw [portCnt, portCnt, load_holds holds (complete.2 info).1]
      · rfl
    have answers : answersTo new source (receive t.buf bytes) = answersTo new source (memory (bytes.take bufLen)) := by
      rw [answersTo, answersTo, confined.determined new _ _ holds (memory_holds _)]
    have done := run_answering same_then rfl run (by rw [finished]; exact steps.ge)
    rw [finished, ← steps] at done
    rw [answered_all done]
    exact congrArg (fun sent => sent.reverse ++ answered t.log) answers

/-- However many requests of however many clients have been answered, in whatever order and however far
    sendTask has come: a datagram with all that its answers need is answered as by the server when it
    was new, whatever the receive buffer holds besides; any other one as the new server answers the
    same buffer. An INFO answer is determined by the request's id and the slot, and a DATA packet by
    the client's id, the number of the packet and the motion data that sendTask has just got. -/
theorem answers_forget {s t : State} {as : List Action} (constructed : Constructed s)
    (run : Runs.Run State.step s as t) :
    (∀ source bytes v, t.step (.datagram source bytes) = some v → Complete (bytes.take bufLen) →
      ∀ bs u, Runs.Run State.step v bs u → bs.countP serves = answering (memory (bytes.take bufLen)) →
        answered u.log = (answersTo s.answers source (memory (bytes.take bufLen))).reverse ++ answered t.log) ∧
    (t.pc = .dispatch → ∀ bs u, Runs.Run State.step t bs u → bs.countP serves = answering t.buf →
      answered u.log = (answersTo s.answers t.source t.buf).reverse ++ answered t.log) ∧
    (∀ buf, (respond t.answers buf).2 = (respond s.answers buf).2) ∧
    (∀ buf, eventType buf = infoType → (respond t.answers buf).2 =
      (ports buf).map fun i => (infoPacket (requestId buf) (slot buf i)).bytes) ∧
    (∀ r sender motion u, t.senders r = some sender → sender.pc = .broadcast →
      t.step (.sender r motion) = some u →
      u.log = .broadcast r sender.packet (t.clients.map fun c =>
        (c, (dataPacket sender.packet t.answers.dataAnswer.motion c.id).bytes)) :: t.log) ∧
    ∀ a u, t.step a = some u → u.answers.dataAnswer.motion = t.answers.dataAnswer.motion ∨
      ∃ r sender motion, a = .sender r motion ∧ t.senders r = some sender ∧ sender.pc = .prepare ∧
        u.answers.dataAnswer.motion = motion := by
  obtain ⟨starts, memory, outHeader, sresponse, constants⟩ := constructed
  have same := run_forgets run
  have again := same
  rw [constants] at again
  obtain ⟨_, numbered, _⟩ := reachable_continuous ⟨s, as, starts, run⟩
  refine ⟨fun source bytes v arrives complete bs u more finished =>
    datagram_answered same arrives complete more finished, ?_, ?_, ?_, ?_, fun a u step => motion_kept step⟩
  · intro pc bs u more finished
    exact answered_all (finished ▸ run_answering same pc more finished.le)
  · intro buf
    rw [(respond_forgets t.answers buf).1, (respond_forgets s.answers buf).1, same]
  · intro buf info
    rw [respond_info info, (infoLoop_forgets buf t.answers (ports buf)).1, again]
    exact List.map_congr_left fun i _ => info_constants memory outHeader sresponse _ _
  · intro r sender motion u here sends step
    obtain ⟨sender', here', moves⟩ := Option.bind_eq_some_iff.mp step
    obtain rfl := Option.some.inj (here.symm.trans here')
    have log := (broadcast_log sends (senderStep_cases moves)).1
    have packets : ∀ id, DataEvent.modifyId t.answers.dataAnswer id =
        dataPacket sender.packet t.answers.dataAnswer.motion id := by
      intro id
      rw [data_constants again, numbered.content r sender here sends]
    simp only [log, datagrams, packets]

theorem started_constructed : Constructed started :=
  ⟨started_starts, blank, blankHeader, blankResponse, rfl⟩

def asking : List Action := firstIteration ++ [.server]

theorem asking_executed :
    ((Runs.execute State.step started asking).bind fun t => (t.step (.sender 0 still)).bind fun _ =>
      (t.step (.datagram ⟨2, 2⟩ (infoRequest 4))).bind fun v =>
        (Runs.execute State.step v (List.replicate 6 .server)).map fun _ => (t.senders 0, t.clients)) =
      some (some ⟨.broadcast, 1⟩, [⟨⟨1, 1⟩, 7, 0⟩]) := by
  rfl

theorem answers_forget_asked :
    ∃ t u v w bs sent, Runs.Run State.step started asking.reverse t ∧ t.step (.sender 0 still) = some u ∧
      u.log = .broadcast 0 1 sent :: t.log ∧
      sent = [(⟨⟨1, 1⟩, 7, 0⟩, (dataPacket 1 t.answers.dataAnswer.motion 7).bytes)] ∧
      t.step (.datagram ⟨2, 2⟩ (infoRequest 4)) = some v ∧ Runs.Run State.step v bs w ∧ bs.length = 6 ∧
      answered w.log =
        (answersTo started.answers ⟨2, 2⟩ (memory ((infoRequest 4).take bufLen))).reverse ++ answered t.log := by
  obtain ⟨t, done, rest⟩ := Option.bind_eq_some_iff.mp asking_executed
  obtain ⟨u, sends, rest⟩ := Option.bind_eq_some_iff.mp rest
  obtain ⟨v, arrives, rest⟩ := Option.bind_eq_some_iff.mp rest
  obtain ⟨w, answers, there⟩ := Option.map_eq_some_iff.mp rest
  obtain ⟨here, clients⟩ := Prod.mk.inj there
  have run := Runs.run_of_execute done
  have run' := Runs.run_of_execute answers
  obtain ⟨at_datagram, _, _, _, at_broadcast, _⟩ := answers_forget started_constructed run
  have log := at_broadcast 0 _ still u here rfl sends
  have complete : Complete ((infoRequest 4).take bufLen) := by
    unfold Complete
    decide
  exact ⟨t, u, v, w, _, _, run, sends, log, by rw [clients]; rfl, arrives, run', rfl,
    at_datagram ⟨2, 2⟩ (infoRequest 4) v arrives complete _ w run' (by decide)⟩

end Stateless
