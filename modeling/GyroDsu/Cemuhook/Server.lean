import GyroDsu.Cemuhook.InfoRequests

/-
The Server: serverTask, every run of sendTask, and what they share. A section under a
mutex is one step; between sections the threads interleave freely. Log output and
sleeping are left out. Motion data comes from outside: SetMotionDataNewFrame may leave
anything in the motion structure.
-/
namespace Server
open LittleEndian CemuhookAdapter Protocol ServerAnswers InfoRequests

/-- sin_addr and sin_port, the members that operator== compares. -/
structure Address where
  ip : UInt32
  port : UInt16
  deriving DecidableEq, Repr

structure Client where
  address : Address
  id : UInt32
  sendTimeout : Nat
  deriving DecidableEq, Repr

def cSendTimeout : Nat := 3
def cTimeoutIncreasePeriod : UInt32 := 500

/-- Where serverTask stands. -/
inductive ServerPc where
  | loop
  | receive
  | dispatch
  | inform (port : Nat)
  | find
  | subscribe
  | launch
  | spawn
  | refresh (client : Nat)
  | checkpoint
  | scan (increment : Bool)
  | drain
  | requestStop
  | join
  | finish
  | requestLast
  | joinLast
  | returned
  deriving DecidableEq, Repr

inductive SenderPc where
  | start
  | test
  | prepare
  | broadcast
  | count
  | stopGrab
  | done
  deriving DecidableEq, Repr

structure Sender where
  pc : SenderPc
  packet : UInt32
  deriving DecidableEq, Repr

inductive Call where
  | startFrameGrab (run : Nat)
  | setMotionDataNewFrame (run : Nat)
  | stopFrameGrab (run : Nat)
  deriving DecidableEq, Repr

/-- What happens, for the history: a VERSION or INFO request answered, a DATA request
    processed, all clients counted up, a client removed, the datagrams of an iteration of
    sendTask, and a stop requested. -/
inductive Event where
  | answer (address : Address) (bytes : List UInt8)
  | request (address : Address)
  | tick
  | removed (address : Address)
  | broadcast (run : Nat) (packet : UInt32) (sent : List (Client × List UInt8))
  | stopRequest (run : Nat)

/-- `source` is sockInClient. `runs` counts the runs of sendTask launched. The last two
    are history, newest first. -/
structure State where
  answers : Answers
  buf : Memory
  source : Address
  clients : List Client
  checkTimeout : Bool
  stopSending : Bool
  stop : Bool
  pc : ServerPc
  sendThread : Option Nat
  senders : Nat → Option Sender
  runs : Nat
  frameServe : Bool
  calls : List Call
  log : List Event

inductive Action where
  | datagram (source : Address) (bytes : List UInt8)
  | receiveTimeout
  | server
  | sender (run : Nat) (motion : MotionData)
  | stop

/-- recvfrom: what does not fit is cut off, what is not received stays. -/
def receive (buf : Memory) (bytes : List UInt8) : Memory :=
  fun i => if i < min bytes.length bufLen then memory bytes i else buf i

def Client.timedOut (c : Client) : Bool := c.sendTimeout > cSendTimeout

def Client.countUp (c : Client) : Client := { c with sendTimeout := c.sendTimeout + 1 }

/-- The first section of CheckClientTimeout. The loop erases while it goes through the
    vector; `increment` counts every client up first. -/
def scanClients (increment : Bool) : List Client → List Client
  | [] => []
  | client :: clients =>
    let client := if increment then client.countUp else client
    if client.timedOut then scanClients increment clients
    else client :: scanClients increment clients

def scanned (increment : Bool) (clients : List Client) : List Client :=
  if increment then clients.map Client.countUp else clients

def State.scan (s : State) (increment : Bool) : State :=
  { s with
    checkTimeout := false
    clients := scanClients increment s.clients
    pc := .drain
    log := ((scanned increment s.clients).filter Client.timedOut).map (fun c => .removed c.address) ++
      (if increment then [.tick] else []) ++ s.log }

def State.answer (s : State) (answer : Answers × List UInt8) (next : ServerPc) : State :=
  { s with answers := answer.1, pc := next, log := .answer s.source answer.2 :: s.log }

def State.dispatch (s : State) : State :=
  if eventType s.buf = versionType then
    s.answer (s.answers.prepareVersionAnswer (requestId s.buf)) .checkpoint
  else if eventType s.buf = infoType then { s with pc := .inform 0 }
  else if eventType s.buf = dataType then { s with pc := .find }
  else { s with pc := .checkpoint }

def State.inform (s : State) (port : Nat) : State :=
  if (port : Int) < portCnt s.buf then
    s.answer (s.answers.prepareInfoAnswer (requestId s.buf) (slot s.buf port)) (.inform (port + 1))
  else { s with pc := .checkpoint }

def State.find (s : State) : State :=
  match s.clients.findIdx? fun c => c.address = s.source with
  | none => { s with pc := .subscribe }
  | some i => { s with pc := .refresh i }

def State.subscribe (s : State) : State :=
  { s with
    clients := s.clients ++ [⟨s.source, requestId s.buf, 0⟩]
    pc := .launch
    log := .request s.source :: s.log }

def State.refresh (s : State) (client : Nat) : State :=
  { s with
    clients := s.clients.modify client fun c => { c with sendTimeout := 0 }
    pc := .checkpoint
    log := .request s.source :: s.log }

def State.setSender (s : State) (run : Nat) (sender : Sender) : State :=
  { s with senders := fun r => if r = run then some sender else s.senders r }

def State.spawn (s : State) : State :=
  { s.setSender s.runs ⟨.start, 0⟩ with
    sendThread := some s.runs
    runs := s.runs + 1
    pc := .checkpoint }

def State.requestStop (s : State) (run : Nat) (next : ServerPc) : State :=
  { s with stopSending := true, pc := next, log := .stopRequest run :: s.log }

def State.joinable (s : State) (run : Nat) : Prop := ∃ sender, s.senders run = some sender ∧ sender.pc = .done

instance (s : State) (run : Nat) : Decidable (s.joinable run) :=
  match same : s.senders run with
  | none => isFalse (by rintro ⟨sender, other, _⟩; rw [same] at other; cases other)
  | some sender =>
    if finished : sender.pc = .done then isTrue ⟨sender, same, finished⟩
    else isFalse (by
      rintro ⟨sender', same', finished'⟩
      obtain rfl := Option.some.inj (same.symm.trans same')
      exact finished finished')

def State.serverStep (s : State) : Option State :=
  match s.pc with
  | .loop => some { s with pc := if s.stop then .finish else .receive }
  | .receive => none
  | .dispatch => some s.dispatch
  | .inform port => some (s.inform port)
  | .find => some s.find
  | .subscribe => some s.subscribe
  | .launch =>
    match s.sendThread with
    | none => some { s with stopSending := false, pc := .spawn }
    | some _ => some { s with pc := .checkpoint }
  | .spawn => some s.spawn
  | .refresh client => some (s.refresh client)
  | .checkpoint => some { s with pc := if s.checkTimeout then .scan false else .loop }
  | .scan increment => some (s.scan increment)
  | .drain => some { s with pc := if s.sendThread ≠ none ∧ s.clients = [] then .requestStop else .loop }
  | .requestStop => s.sendThread.map fun run => s.requestStop run .join
  | .join =>
    s.sendThread.bind fun run =>
      if s.joinable run then some { s with sendThread := none, pc := .loop } else none
  | .finish => some { s with pc := if s.sendThread = none then .returned else .requestLast }
  | .requestLast => s.sendThread.map fun run => s.requestStop run .joinLast
  | .joinLast =>
    s.sendThread.bind fun run => if s.joinable run then some { s with pc := .returned } else none
  | .returned => none

def State.senderStep (s : State) (run : Nat) (sender : Sender) (motion : MotionData) : Option State :=
  match sender.pc with
  | .start =>
    some { s.setSender run { sender with pc := .test } with
      frameServe := true
      calls := .startFrameGrab run :: s.calls }
  | .test => some (s.setSender run { sender with pc := if s.stopSending then .stopGrab else .prepare })
  | .prepare =>
    some { s.setSender run ⟨.broadcast, sender.packet + 1⟩ with
      answers := s.answers.prepareDataAnswerWithoutCrc 0 (sender.packet + 1) motion
      calls := .setMotionDataNewFrame run :: s.calls }
  | .broadcast =>
    let (dataAnswer, sent) := sendData Client.id s.answers.dataAnswer s.clients
    some { s.setSender run { sender with pc := .count } with
      answers := { s.answers with dataAnswer := dataAnswer }
      log := .broadcast run sender.packet sent :: s.log }
  | .count =>
    if sender.packet % cTimeoutIncreasePeriod = 0 then
      some { s.setSender run { sender with pc := .test } with
        clients := s.clients.map Client.countUp
        checkTimeout := true
        log := .tick :: s.log }
    else some (s.setSender run { sender with pc := .test })
  | .stopGrab =>
    some { s.setSender run { sender with pc := .done } with
      frameServe := false
      calls := .stopFrameGrab run :: s.calls }
  | .done => none

def State.step (s : State) : Action → Option State
  | .datagram source bytes =>
    if s.pc = .receive then
      some { s with
        buf := receive s.buf bytes
        source := source
        pc := if headerSize ≤ min bytes.length bufLen then .dispatch else .scan true }
    else none
  | .receiveTimeout => if s.pc = .receive then some { s with pc := .scan true } else none
  | .server => s.serverStep
  | .sender run motion => (s.senders run).bind fun sender => s.senderStep run sender motion
  | .stop => some { s with stop := true }

structure Starts (s : State) : Prop where
  answers : Sound s.answers
  clients : s.clients = []
  pc : s.pc = .loop
  sendThread : s.sendThread = none
  senders : ∀ run, s.senders run = none
  frameServe : s.frameServe = false
  calls : s.calls = []
  log : s.log = []

@[simp] theorem setSender_same (s : State) (run : Nat) (sender : Sender) :
    (s.setSender run sender).senders run = some sender := by
  simp [State.setSender]

theorem setSender_other (s : State) {run r : Nat} (sender : Sender) (other : r ≠ run) :
    (s.setSender run sender).senders r = s.senders r := by
  simp [State.setSender, other]

theorem setSender_cases {s : State} {run r : Nat} {sender other : Sender}
    (there : (s.setSender run sender).senders r = some other) :
    (r = run ∧ other = sender) ∨ (r ≠ run ∧ s.senders r = some other) := by
  by_cases same : r = run
  · rw [same, setSender_same] at there
    exact Or.inl ⟨same, (Option.some.inj there).symm⟩
  · rw [setSender_other s sender same] at there
    exact Or.inr ⟨same, there⟩

theorem scanClients_eq (increment : Bool) (clients : List Client) :
    scanClients increment clients = (scanned increment clients).filter fun c => !c.timedOut := by
  induction clients with
  | nil => cases increment <;> rfl
  | cons client clients ih =>
    cases increment <;> simp only [scanClients, ih, scanned, Bool.false_eq_true, if_false, if_true,
      List.map_cons, List.filter_cons] <;> cases Client.timedOut _ <;> rfl

def CountsUp (s : State) (a : Action) : Prop :=
  ∃ run motion sender, a = .sender run motion ∧ s.senders run = some sender ∧ sender.pc = .count ∧
    sender.packet % cTimeoutIncreasePeriod = 0

theorem server_quiet (s : State) : ¬CountsUp s .server := by
  rintro ⟨_, _, _, other, _⟩
  cases other

inductive ServerStep (s : State) : State → Prop where
  | stops (pc : s.pc = .loop) : ServerStep s { s with pc := .finish }
  | listens (pc : s.pc = .loop) : ServerStep s { s with pc := .receive }
  | version (pc : s.pc = .dispatch) (type : eventType s.buf = versionType) :
      ServerStep s (s.answer (s.answers.prepareVersionAnswer (requestId s.buf)) .checkpoint)
  | info (pc : s.pc = .dispatch) (type : eventType s.buf = infoType) : ServerStep s { s with pc := .inform 0 }
  | data (pc : s.pc = .dispatch) (type : eventType s.buf = dataType) : ServerStep s { s with pc := .find }
  | ignored (pc : s.pc = .dispatch) : ServerStep s { s with pc := .checkpoint }
  | port (i : Nat) (pc : s.pc = .inform i) (more : (i : Int) < portCnt s.buf) :
      ServerStep s
        (s.answer (s.answers.prepareInfoAnswer (requestId s.buf) (slot s.buf i)) (.inform (i + 1)))
  | informed (i : Nat) (pc : s.pc = .inform i) (all : portCnt s.buf ≤ i) :
      ServerStep s { s with pc := .checkpoint }
  | unknown (pc : s.pc = .find) (nobody : ∀ c ∈ s.clients, c.address ≠ s.source) :
      ServerStep s { s with pc := .subscribe }
  | known (i : Nat) (c : Client) (pc : s.pc = .find) (here : s.clients[i]? = some c)
      (address : c.address = s.source) : ServerStep s { s with pc := .refresh i }
  | subscribe (pc : s.pc = .subscribe) : ServerStep s s.subscribe
  | launch (pc : s.pc = .launch) (owner : s.sendThread = none) :
      ServerStep s { s with stopSending := false, pc := .spawn }
  | launched (pc : s.pc = .launch) (owner : s.sendThread ≠ none) : ServerStep s { s with pc := .checkpoint }
  | spawn (pc : s.pc = .spawn) : ServerStep s s.spawn
  | refresh (i : Nat) (pc : s.pc = .refresh i) : ServerStep s (s.refresh i)
  | due (pc : s.pc = .checkpoint) : ServerStep s { s with pc := .scan false }
  | notDue (pc : s.pc = .checkpoint) : ServerStep s { s with pc := .loop }
  | scan (increment : Bool) (pc : s.pc = .scan increment) : ServerStep s (s.scan increment)
  | drained (pc : s.pc = .drain) (owner : s.sendThread ≠ none) (clients : s.clients = []) :
      ServerStep s { s with pc := .requestStop }
  | notDrained (pc : s.pc = .drain) (clients : s.sendThread ≠ none → s.clients ≠ []) :
      ServerStep s { s with pc := .loop }
  | requestStop (run : Nat) (pc : s.pc = .requestStop) (owner : s.sendThread = some run) :
      ServerStep s (s.requestStop run .join)
  | join (run : Nat) (pc : s.pc = .join) (owner : s.sendThread = some run) (finished : s.joinable run) :
      ServerStep s { s with sendThread := none, pc := .loop }
  | finished (pc : s.pc = .finish) (owner : s.sendThread = none) : ServerStep s { s with pc := .returned }
  | finish (pc : s.pc = .finish) (owner : s.sendThread ≠ none) : ServerStep s { s with pc := .requestLast }
  | requestLast (run : Nat) (pc : s.pc = .requestLast) (owner : s.sendThread = some run) :
      ServerStep s (s.requestStop run .joinLast)
  | joinLast (run : Nat) (pc : s.pc = .joinLast) (owner : s.sendThread = some run)
      (finished : s.joinable run) : ServerStep s { s with pc := .returned }

theorem find_cases (s : State) (pc : s.pc = .find) : ServerStep s s.find := by
  unfold State.find
  cases found : s.clients.findIdx? fun c => c.address = s.source with
  | none =>
    apply ServerStep.unknown pc
    intro c member same
    have all := List.findIdx?_eq_none_iff.mp found c member
    simp only [same, decide_true, Bool.true_eq_false] at all
  | some i =>
    obtain ⟨inside, here, _⟩ := List.findIdx?_eq_some_iff_getElem.mp found
    exact ServerStep.known i s.clients[i] pc (List.getElem?_eq_getElem inside) (of_decide_eq_true here)

theorem serverStep_cases {s t : State} (step : s.serverStep = some t) : ServerStep s t := by
  cases pc : s.pc <;> simp only [State.serverStep, pc, Option.some.injEq, reduceCtorEq] at step
  case loop =>
    subst step
    split
    · exact .stops pc
    · exact .listens pc
  case dispatch =>
    subst step
    unfold State.dispatch
    split
    · rename_i type
      exact .version pc type
    · split
      · rename_i type
        exact .info pc type
      · split
        · rename_i type
          exact .data pc type
        · exact .ignored pc
  case inform i =>
    subst step
    unfold State.inform
    split
    · rename_i more
      exact .port i pc more
    · rename_i all
      exact .informed i pc (not_lt.mp all)
  case find => exact step ▸ find_cases s pc
  case subscribe => exact step ▸ .subscribe pc
  case launch =>
    split at step
    · rename_i owner
      cases step
      exact .launch pc owner
    · rename_i owner
      cases step
      exact .launched pc (by simp [owner])
  case spawn => exact step ▸ .spawn pc
  case refresh i => exact step ▸ .refresh i pc
  case checkpoint =>
    subst step
    split
    · exact .due pc
    · exact .notDue pc
  case scan increment => exact step ▸ .scan increment pc
  case drain =>
    subst step
    split
    · rename_i drained
      exact .drained pc drained.1 drained.2
    · rename_i other
      exact .notDrained pc fun owner clients => other ⟨owner, clients⟩
  case requestStop =>
    obtain ⟨run, owner, rfl⟩ := Option.map_eq_some_iff.mp step
    exact .requestStop run pc owner
  case join =>
    obtain ⟨run, owner, rest⟩ := Option.bind_eq_some_iff.mp step
    split at rest
    · rename_i finished
      cases rest
      exact .join run pc owner finished
    · cases rest
  case finish =>
    subst step
    split
    · rename_i owner
      exact .finished pc owner
    · rename_i owner
      exact .finish pc owner
  case requestLast =>
    obtain ⟨run, owner, rfl⟩ := Option.map_eq_some_iff.mp step
    exact .requestLast run pc owner
  case joinLast =>
    obtain ⟨run, owner, rest⟩ := Option.bind_eq_some_iff.mp step
    split at rest
    · rename_i finished
      cases rest
      exact .joinLast run pc owner finished
    · cases rest

inductive SenderStep (s : State) (run : Nat) (sender : Sender) (motion : MotionData) : State → Prop where
  | start (pc : sender.pc = .start) :
      SenderStep s run sender motion
        { s.setSender run ⟨.test, sender.packet⟩ with
          frameServe := true
          calls := .startFrameGrab run :: s.calls }
  | stops (pc : sender.pc = .test) (flag : s.stopSending = true) :
      SenderStep s run sender motion (s.setSender run ⟨.stopGrab, sender.packet⟩)
  | goes (pc : sender.pc = .test) : SenderStep s run sender motion (s.setSender run ⟨.prepare, sender.packet⟩)
  | prepare (pc : sender.pc = .prepare) :
      SenderStep s run sender motion
        { s.setSender run ⟨.broadcast, sender.packet + 1⟩ with
          answers := s.answers.prepareDataAnswerWithoutCrc 0 (sender.packet + 1) motion
          calls := .setMotionDataNewFrame run :: s.calls }
  | broadcast (pc : sender.pc = .broadcast) :
      SenderStep s run sender motion
        { s.setSender run ⟨.count, sender.packet⟩ with
          answers := { s.answers with dataAnswer := (sendData Client.id s.answers.dataAnswer s.clients).1 }
          log := .broadcast run sender.packet (sendData Client.id s.answers.dataAnswer s.clients).2 :: s.log }
  | tick (pc : sender.pc = .count) (period : sender.packet % cTimeoutIncreasePeriod = 0) :
      SenderStep s run sender motion
        { s.setSender run ⟨.test, sender.packet⟩ with
          clients := s.clients.map Client.countUp
          checkTimeout := true
          log := .tick :: s.log }
  | noTick (pc : sender.pc = .count) (period : sender.packet % cTimeoutIncreasePeriod ≠ 0) :
      SenderStep s run sender motion (s.setSender run ⟨.test, sender.packet⟩)
  | stopGrab (pc : sender.pc = .stopGrab) :
      SenderStep s run sender motion
        { s.setSender run ⟨.done, sender.packet⟩ with
          frameServe := false
          calls := .stopFrameGrab run :: s.calls }

theorem senderStep_cases {s t : State} {run : Nat} {sender : Sender} {motion : MotionData}
    (step : s.senderStep run sender motion = some t) : SenderStep s run sender motion t := by
  cases pc : sender.pc <;> simp only [State.senderStep, pc, Option.some.injEq, reduceCtorEq] at step
  case start => exact step ▸ .start pc
  case test =>
    cases flag : s.stopSending with
    | true =>
      simp only [flag, if_true] at step
      exact step ▸ .stops pc flag
    | false =>
      simp only [flag, Bool.false_eq_true, if_false] at step
      exact step ▸ .goes pc
  case prepare => exact step ▸ .prepare pc
  case broadcast => exact step ▸ .broadcast pc
  case count =>
    split at step
    · rename_i period
      cases step
      exact .tick pc period
    · rename_i period
      cases step
      exact .noTick pc period
  case stopGrab => exact step ▸ .stopGrab pc

inductive Step (s : State) : Action → State → Prop where
  | header (source : Address) (bytes : List UInt8) (pc : s.pc = .receive) (long : headerSize ≤ bytes.length) :
      Step s (.datagram source bytes) { s with buf := receive s.buf bytes, source := source, pc := .dispatch }
  | short (source : Address) (bytes : List UInt8) (pc : s.pc = .receive) (short : bytes.length < headerSize) :
      Step s (.datagram source bytes) { s with buf := receive s.buf bytes, source := source, pc := .scan true }
  | receiveTimeout (pc : s.pc = .receive) : Step s .receiveTimeout { s with pc := .scan true }
  | server {t : State} (moves : ServerStep s t) : Step s .server t
  | sender {t : State} (run : Nat) (motion : MotionData) (sender : Sender)
      (here : s.senders run = some sender) (moves : SenderStep s run sender motion t) :
      Step s (.sender run motion) t
  | stop : Step s .stop { s with stop := true }

theorem step_cases {s t : State} {a : Action} (step : s.step a = some t) : Step s a t := by
  cases a with
  | datagram source bytes =>
    simp only [State.step] at step
    split at step
    · rename_i pc
      cases step
      by_cases long : headerSize ≤ bytes.length
      · have whole : headerSize ≤ min bytes.length bufLen := le_min long (by decide)
        rw [if_pos whole]
        exact .header source bytes pc long
      · have cut : ¬headerSize ≤ min bytes.length bufLen := fun both => long (both.trans (min_le_left _ _))
        rw [if_neg cut]
        exact .short source bytes pc (not_le.mp long)
    · cases step
  | receiveTimeout =>
    simp only [State.step] at step
    split at step
    · rename_i pc
      cases step
      exact .receiveTimeout pc
    · cases step
  | server => exact .server (serverStep_cases step)
  | sender run motion =>
    obtain ⟨sender, here, moves⟩ := Option.bind_eq_some_iff.mp step
    exact .sender run motion sender here (senderStep_cases moves)
  | stop =>
    cases step
    exact .stop

def started : State where
  answers := prepareAnswerConstants blank blankHeader blankResponse
  buf := fun _ => 0
  source := ⟨0, 0⟩
  clients := []
  checkTimeout := false
  stopSending := false
  stop := false
  pc := .loop
  sendThread := none
  senders := fun _ => none
  runs := 0
  frameServe := false
  calls := []
  log := []

theorem started_starts : Starts started := by
  constructor
  · exact constants_sound blank blankHeader blankResponse
  · rfl
  · rfl
  · rfl
  · intro run
    rfl
  · rfl
  · rfl
  · rfl

theorem started_reachable {schedule : List Action} {t : State}
    (done : Runs.execute State.step started schedule = some t) : Runs.Reachable State.step Starts t :=
  ⟨started, schedule.reverse, started_starts, Runs.run_of_execute done⟩

def dataRequest (id : UInt32) : List UInt8 :=
  Header.bytes ⟨#v['D'.toUInt8, 'S'.toUInt8, 'U'.toUInt8, 'C'.toUInt8], 1001, 12, 0, id, dataType⟩ ++
    List.replicate 8 0

def subscribing (source : Address) (id : UInt32) : List Action :=
  .server :: .datagram source (dataRequest id) :: List.replicate 6 .server

theorem subscribed_once :
    ∃ t, Runs.execute State.step started (subscribing ⟨1, 1⟩ 7) = some t ∧ t.pc = .loop ∧
      t.clients = [⟨⟨1, 1⟩, 7, 0⟩] := by
  have now : (Runs.execute State.step started (subscribing ⟨1, 1⟩ 7)).map (fun t => (t.pc, t.clients)) =
      some (.loop, [⟨⟨1, 1⟩, 7, 0⟩]) := by
    rfl
  obtain ⟨t, done, result⟩ := Option.map_eq_some_iff.mp now
  exact ⟨t, done, congrArg Prod.fst result, congrArg Prod.snd result⟩

end Server
