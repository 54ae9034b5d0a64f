import GyroDsu.Cemuhook.Lifecycle
import GyroDsu.Cemuhook.Subscriptions

/-
What the clients receive: every iteration of sendTask sends one packet to each of them,
and a client that stays in the table gets them with consecutive numbers.
-/
namespace Broadcast
open LittleEndian CemuhookAdapter Protocol ServerAnswers InfoRequests Server Lifecycle

def iterations (run : Nat) : List Event → Nat
  | [] => 0
  | .broadcast other _ _ :: log => if other = run then iterations run log + 1 else iterations run log
  | .answer _ _ :: log => iterations run log
  | .request _ :: log => iterations run log
  | .tick :: log => iterations run log
  | .removed _ :: log => iterations run log
  | .stopRequest _ :: log => iterations run log

def lastPacket (address : Address) : List Event → Option UInt32
  | [] => none
  | .broadcast _ packet sent :: log =>
    if ∃ d ∈ sent, d.1.address = address then some packet else lastPacket address log
  | .removed other :: log => if other = address then none else lastPacket address log
  | .answer _ _ :: log => lastPacket address log
  | .request _ :: log => lastPacket address log
  | .tick :: log => lastPacket address log
  | .stopRequest _ :: log => lastPacket address log

structure Numbered (s : State) : Prop where
  packet : ∀ run sender, s.senders run = some sender →
    sender.packet = UInt32.ofNat (iterations run s.log + if sender.pc = .broadcast then 1 else 0)
  unused : ∀ run, s.senders run = none → iterations run s.log = 0
  content : ∀ run sender, s.senders run = some sender → sender.pc = .broadcast →
    s.answers.dataAnswer.packetNumber = sender.packet

/-- Whoever has been sent a packet is still in the table, has it from the run that
    sendThread owns, and from its last iteration. -/
def Continuous (s : State) : Prop :=
  ∀ address packet, lastPacket address s.log = some packet →
    address ∈ s.clients.map Client.address ∧
      ∃ run, s.sendThread = some run ∧ packet = UInt32.ofNat (iterations run s.log)

theorem info_dataAnswer (a : Answers) (id : UInt32) (slot : UInt8) :
    (a.prepareInfoAnswer id slot).1.dataAnswer = a.dataAnswer := by
  unfold Answers.prepareInfoAnswer
  split <;> rfl

theorem iterations_removed (run : Nat) (clients : List Client) (log : List Event) :
    iterations run (clients.map (fun c => .removed c.address) ++ log) = iterations run log := by
  induction clients with
  | nil => rfl
  | cons c clients ih => exact ih

theorem scan_iterations (s : State) (increment : Bool) (run : Nat) :
    iterations run (s.scan increment).log = iterations run s.log := by
  cases increment <;> simp [State.scan, List.append_assoc, iterations_removed, iterations]

theorem lastPacket_removed (address : Address) (clients : List Client) (log : List Event) :
    lastPacket address (clients.map (fun c => .removed c.address) ++ log) =
      if address ∈ clients.map Client.address then none else lastPacket address log := by
  induction clients with
  | nil => simp
  | cons c clients ih =>
    rw [List.map_cons, List.cons_append, lastPacket, ih]
    by_cases same : c.address = address
    · simp [same]
    · have other : ¬address = c.address := fun equal => same equal.symm
      simp [same, other]

theorem scan_lastPacket (s : State) (increment : Bool) (address : Address) :
    lastPacket address (s.scan increment).log =
      if address ∈ ((scanned increment s.clients).filter Client.timedOut).map Client.address then none
      else lastPacket address s.log := by
  cases increment <;> simp only [State.scan, List.append_assoc, lastPacket_removed, Bool.false_eq_true,
    if_false, if_true, List.nil_append, List.cons_append, lastPacket]

theorem numbered_move {s t : State} (h : Numbered s) (threads : Threads s) {run : Nat}
    {sender next : Sender} (here : s.senders run = some sender) (unfinished : sender.pc ≠ .done)
    (moved : t.senders = (s.setSender run next).senders)
    (rest : ∀ r, r ≠ run → iterations r t.log = iterations r s.log)
    (packet : next.packet = UInt32.ofNat (iterations run t.log + if next.pc = .broadcast then 1 else 0))
    (content : next.pc = .broadcast → t.answers.dataAnswer.packetNumber = next.packet) : Numbered t := by
  constructor
  · intro r sender' there
    rw [moved] at there
    rcases setSender_cases there with ⟨rfl, rfl⟩ | ⟨other, before⟩
    · exact packet
    · rw [rest r other]
      exact h.packet r sender' before
  · intro r nobody
    by_cases same : r = run
    · rw [moved, same, setSender_same] at nobody
      cases nobody
    · rw [moved, setSender_other s next same] at nobody
      rw [rest r same]
      exact h.unused r nobody
  · intro r sender' there sends
    rw [moved] at there
    rcases setSender_cases there with ⟨rfl, rfl⟩ | ⟨other, before⟩
    · exact content sends
    · have finished := others_done threads ⟨sender, here, unfinished⟩ before other
      rw [sends] at finished
      cases finished

theorem numbered_silent {s t : State} (h : Numbered s) (threads : Threads s) {run : Nat} {sender : Sender}
    (here : s.senders run = some sender) (before : sender.pc ≠ .done ∧ sender.pc ≠ .broadcast)
    (next : SenderPc) (after : next ≠ .broadcast)
    (moved : t.senders = (s.setSender run ⟨next, sender.packet⟩).senders)
    (log : ∀ r, iterations r t.log = iterations r s.log) : Numbered t := by
  refine numbered_move h threads here before.1 moved (fun r _ => log r) ?_ (fun sends => absurd sends after)
  rw [h.packet run sender here, log, if_neg before.2, if_neg after]

theorem senderStep_numbered {s t : State} (h : Numbered s) (threads : Threads s) {run : Nat}
    {sender : Sender} {motion : MotionData} (here : s.senders run = some sender)
    (moves : SenderStep s run sender motion t) : Numbered t := by
  cases moves with
  | start pc | noTick pc period | tick pc period =>
    exact numbered_silent h threads here (by simp [pc]) .test (by simp) rfl fun _ => rfl
  | stops pc flag => exact numbered_silent h threads here (by simp [pc]) .stopGrab (by simp) rfl fun _ => rfl
  | goes pc => exact numbered_silent h threads here (by simp [pc]) .prepare (by simp) rfl fun _ => rfl
  | stopGrab pc => exact numbered_silent h threads here (by simp [pc]) .done (by simp) rfl fun _ => rfl
  | prepare pc =>
    refine numbered_move h threads here (by simp [pc]) rfl (fun _ _ => rfl) ?_ fun _ => rfl
    rw [h.packet run sender here, if_neg (by simp [pc])]
    simp [State.setSender, UInt32.ofNat_add]
  | broadcast pc =>
    refine numbered_move h threads here (by simp [pc]) rfl ?_ ?_ (by simp)
    · intro r other
      have elsewhere : ¬run = r := fun same => other same.symm
      simp only [iterations, elsewhere, if_false]
    · rw [h.packet run sender here, if_pos pc]
      simp [iterations]

theorem spawn_numbered {s : State} (h : Numbered s) (threads : Threads s) : Numbered s.spawn := by
  have new : s.senders s.runs = none := by
    by_contra known
    exact lt_irrefl _ (threads.fresh s.runs known)
  constructor
  · intro r sender there
    rcases setSender_cases there with ⟨rfl, rfl⟩ | ⟨_, before⟩
    · have none_yet : iterations s.runs s.spawn.log = 0 := h.unused s.runs new
      rw [none_yet]
      rfl
    · exact h.packet r sender before
  · intro r nobody
    by_cases same : r = s.runs
    · rw [State.spawn, same, setSender_same] at nobody
      cases nobody
    · rw [State.spawn, setSender_other s _ same] at nobody
      exact h.unused r nobody
  · intro r sender there sends
    rcases setSender_cases there with ⟨_, rfl⟩ | ⟨_, before⟩
    · cases sends
    · exact h.content r sender before sends

theorem numbered_aside {s t : State} (h : Numbered s) (senders : t.senders = s.senders)
    (dataAnswer : t.answers.dataAnswer = s.answers.dataAnswer)
    (log : ∀ run, iterations run t.log = iterations run s.log) : Numbered t := by
  constructor
  · intro run sender here
    rw [log]
    exact h.packet run sender (senders ▸ here)
  · intro run nobody
    rw [log]
    exact h.unused run (senders ▸ nobody)
  · intro run sender here sends
    rw [dataAnswer]
    exact h.content run sender (senders ▸ here) sends

theorem step_numbered {s t : State} {a : Action} (h : Numbered s) (threads : Threads s)
    (step : s.step a = some t) : Numbered t := by
  cases step_cases step with
  | server moves =>
    cases moves with
    | spawn pc => exact spawn_numbered h threads
    | scan increment pc => exact numbered_aside h rfl rfl (scan_iterations s increment)
    | port i pc more => exact numbered_aside h rfl (info_dataAnswer s.answers _ _) fun _ => rfl
    | _ => exact numbered_aside h rfl rfl fun _ => rfl
  | sender run motion sender here moves => exact senderStep_numbered h threads here moves
  | header | short | receiveTimeout | stop => exact numbered_aside h rfl rfl fun _ => rfl

theorem continuous_pass {s t : State} (h : Continuous s)
    (kept : s.clients.map Client.address ⊆ t.clients.map Client.address)
    (owner : t.sendThread = s.sendThread)
    (last : ∀ address, lastPacket address t.log = lastPacket address s.log)
    (log : ∀ run, iterations run t.log = iterations run s.log) : Continuous t := by
  intro address packet sent
  rw [last] at sent
  obtain ⟨member, run, owned, same⟩ := h address packet sent
  refine ⟨kept member, run, owner.trans owned, ?_⟩
  rw [log]
  exact same

theorem continuous_scan {s : State} (h : Continuous s) (increment : Bool) : Continuous (s.scan increment) := by
  intro address packet sent
  rw [scan_lastPacket] at sent
  split at sent
  · cases sent
  · rename_i not_removed
    obtain ⟨member, run, owned, same⟩ := h address packet sent
    refine ⟨?_, run, owned, ?_⟩
    · rw [← Subscriptions.scanned_addresses increment] at member
      obtain ⟨c, c_member, rfl⟩ := List.mem_map.mp member
      rw [State.scan, scanClients_eq]
      apply List.mem_map_of_mem
      apply List.mem_filter.mpr
      refine ⟨c_member, ?_⟩
      cases old : c.timedOut with
      | false => rfl
      | true => exact absurd (List.mem_map_of_mem (List.mem_filter.mpr ⟨c_member, old⟩)) not_removed
    · rw [scan_iterations]
      exact same

theorem continuous_silent {s t : State} (h : Continuous s)
    (nobody : s.clients = [] ∨ s.sendThread = none)
    (last : ∀ address, lastPacket address t.log = lastPacket address s.log) : Continuous t := by
  intro address packet sent
  rw [last] at sent
  obtain ⟨member, run, owned, _⟩ := h address packet sent
  rcases nobody with clients | owner
  · rw [clients] at member
    cases member
  · rw [owner] at owned
    cases owned

theorem serverStep_continuous {s t : State} (h : Continuous s) (place : Place s)
    (moves : ServerStep s t) : Continuous t := by
  cases moves with
  | spawn pc =>
    simp only [Place, pc] at place
    exact continuous_silent h (Or.inr place.2.1) fun _ => rfl
  | join run pc owner finished =>
    simp only [Place, pc] at place
    exact continuous_silent h (Or.inl place.2) fun _ => rfl
  | scan increment pc => exact continuous_scan h increment
  | subscribe pc =>
    refine continuous_pass h ?_ rfl (fun _ => rfl) fun _ => rfl
    simp [State.subscribe]
  | refresh i pc =>
    refine continuous_pass h ?_ rfl (fun _ => rfl) fun _ => rfl
    rw [Subscriptions.refresh_addresses]
    exact List.Subset.refl _
  | _ => exact continuous_pass h (List.Subset.refl _) rfl (fun _ => rfl) fun _ => rfl

def datagrams (s : State) : List (Client × List UInt8) :=
  s.clients.map fun c => (c, (DataEvent.modifyId s.answers.dataAnswer c.id).bytes)

theorem broadcast_log {s t : State} {run : Nat} {sender : Sender} {motion : MotionData}
    (sends : sender.pc = .broadcast) (moves : SenderStep s run sender motion t) :
    t.log = .broadcast run sender.packet (datagrams s) :: s.log ∧ t.clients = s.clients ∧
      t.sendThread = s.sendThread := by
  cases moves with
  | broadcast pc =>
    refine ⟨?_, rfl, rfl⟩
    simp only [sendData_sent]
    rfl
  | start pc | stops pc | goes pc | prepare pc | tick pc | noTick pc | stopGrab pc =>
    rw [sends] at pc
    cases pc

theorem sent_address {s : State} {address : Address} :
    (∃ d ∈ datagrams s, d.1.address = address) ↔ address ∈ s.clients.map Client.address := by
  simp [datagrams]

theorem broadcast_continuous {s t : State} (h : Continuous s) (threads : Threads s) (numbered : Numbered s)
    {run : Nat} {sender : Sender} {motion : MotionData} (here : s.senders run = some sender)
    (sends : sender.pc = .broadcast) (moves : SenderStep s run sender motion t) : Continuous t := by
  obtain ⟨log, clients, owner⟩ := broadcast_log sends moves
  have owned := threads.owned run ⟨sender, here, by simp [sends]⟩
  intro address packet sent
  rw [log, lastPacket] at sent
  simp only [sent_address] at sent
  split at sent
  · rename_i member
    obtain rfl := Option.some.inj sent
    rw [clients, owner]
    refine ⟨member, run, owned, ?_⟩
    rw [log, iterations, if_pos rfl, numbered.packet run sender here, if_pos sends]
  · rename_i stranger
    exact absurd (h address packet sent).1 stranger

theorem senderStep_continuous {s t : State} (h : Continuous s) (threads : Threads s) (numbered : Numbered s)
    {run : Nat} {sender : Sender} {motion : MotionData} (here : s.senders run = some sender)
    (moves : SenderStep s run sender motion t) : Continuous t := by
  by_cases sends : sender.pc = .broadcast
  · exact broadcast_continuous h threads numbered here sends moves
  · cases moves with
    | broadcast pc => exact absurd pc sends
    | tick pc period =>
      refine continuous_pass h ?_ rfl (fun _ => rfl) fun _ => rfl
      simp [Function.comp_def]
    | _ => exact continuous_pass h (List.Subset.refl _) rfl (fun _ => rfl) fun _ => rfl

theorem step_continuous {s t : State} {a : Action} (h : Continuous s) (sound : Lifecycle.Sound s)
    (numbered : Numbered s) (step : s.step a = some t) : Continuous t := by
  cases step_cases step with
  | server moves => exact serverStep_continuous h sound.place moves
  | sender run motion sender here moves => exact senderStep_continuous h sound.threads numbered here moves
  | header | short | receiveTimeout | stop => exact h

theorem reachable_continuous {s : State} (reached : Runs.Reachable State.step Starts s) :
    Lifecycle.Sound s ∧ Numbered s ∧ Continuous s := by
  refine Runs.reachable_invariant (fun s => Lifecycle.Sound s ∧ Numbered s ∧ Continuous s) ?_ ?_ reached
  · intro s starts
    refine ⟨starts_sound starts, ?_, ?_⟩
    · constructor
      · intro run sender here
        rw [starts.senders run] at here
        cases here
      · intro run _
        rw [starts.log]
        rfl
      · intro run sender here
        rw [starts.senders run] at here
        cases here
    · intro address packet sent
      rw [starts.log] at sent
      cases sent
  · rintro s a t ⟨sound, numbered, continuous⟩ step
    exact ⟨step_sound sound step, step_numbered numbered sound.threads step,
      step_continuous continuous sound numbered step⟩

/-- A packet without the bytes of crc32 and id in its header. -/
def besideCrcAndId (bytes : List UInt8) : List UInt8 := bytes.take 8 ++ bytes.drop 16

theorem besideCrcAndId_packet (h : Header) (body : List UInt8) :
    besideCrcAndId (h.bytes ++ body) =
      h.magic.toList ++ encode 2 h.version.toNat ++ encode 2 h.length.toNat ++
        (encode 4 h.eventType.toNat ++ body) := by
  have split : h.bytes ++ body =
      (h.magic.toList ++ encode 2 h.version.toNat ++ encode 2 h.length.toNat) ++
        ((encode 4 h.crc32.toNat ++ encode 4 h.id.toNat) ++ (encode 4 h.eventType.toNat ++ body)) := by
    simp [Header.bytes]
  have front : (h.magic.toList ++ encode 2 h.version.toNat ++ encode 2 h.length.toNat).length = 8 := by
    simp [encode_length]
  unfold besideCrcAndId
  rw [split, List.take_left' front, ← List.append_assoc (_ ++ _) (_ ++ _) _, List.drop_left' ?_]
  simp [encode_length]

theorem besideCrcAndId_modifyId (d : DataEvent) (id id' : UInt32) :
    besideCrcAndId (DataEvent.modifyId d id).bytes = besideCrcAndId (DataEvent.modifyId d id').bytes := by
  unfold DataEvent.bytes
  rw [besideCrcAndId_packet, besideCrcAndId_packet]
  rfl

theorem id_modifyId (d : DataEvent) (id : UInt32) :
    load (memory (DataEvent.modifyId d id).bytes) 12 4 = id.toNat :=
  (header_loads _ _).2.2.2.2.1

theorem packetNumber_load (d : DataEvent) : load (memory d.bytes) 32 4 = d.packetNumber.toNat := by
  have split : d.bytes = (d.header.bytes ++ d.response.bytes) ++ encode 4 d.packetNumber.toNat ++
      (d.buttons.toList ++ (d.touch.toList.flatMap (fun t => encode 4 t.toNat) ++ motionBytes d.motion)) := by
    simp [DataEvent.bytes, DataEvent.body]
  rw [split, load_field _ _ _ _ _ (by simp), word_small]

/-- The iteration that comes after k others of its run sends packet k + 1, modulo 2^32, to
    each client in the table once; its datagrams differ in id and crc32 only, and for a
    client that was sent a packet before it is the next one. -/
theorem broadcast_exact {s t : State} {run : Nat} {sender : Sender} {motion : MotionData}
    (reached : Runs.Reachable State.step Starts s) (here : s.senders run = some sender)
    (sends : sender.pc = .broadcast) (step : s.step (.sender run motion) = some t) :
    ∃ sent, t.log = .broadcast run sender.packet sent :: s.log ∧
      sent.map Prod.fst = s.clients ∧ (s.clients.map Client.address).Nodup ∧
      sender.packet = UInt32.ofNat (iterations run s.log + 1) ∧
      (∀ d ∈ sent, load (memory d.2) 12 4 = d.1.id.toNat ∧ load (memory d.2) 32 4 = sender.packet.toNat) ∧
      (∀ d ∈ sent, ∀ e ∈ sent, besideCrcAndId d.2 = besideCrcAndId e.2) ∧
      ∀ c ∈ s.clients, ∀ last, lastPacket c.address s.log = some last → sender.packet = last + 1 := by
  obtain ⟨sound, numbered, continuous⟩ := reachable_continuous reached
  have table := Subscriptions.reachable_table reached
  obtain ⟨sender', here', moves⟩ := Option.bind_eq_some_iff.mp step
  obtain rfl := Option.some.inj (here.symm.trans here')
  have log := (broadcast_log sends (senderStep_cases moves)).1
  have packet : sender.packet = UInt32.ofNat (iterations run s.log + 1) := by
    rw [numbered.packet run sender here, if_pos sends]
  refine ⟨datagrams s, log, ?_, table.distinct, packet, ?_, ?_, ?_⟩
  · simp [datagrams, Function.comp_def]
  · intro d member
    obtain ⟨c, _, rfl⟩ := List.mem_map.mp member
    constructor
    · exact id_modifyId s.answers.dataAnswer c.id
    · rw [← numbered.content run sender here sends]
      exact packetNumber_load _
  · intro d member e member'
    obtain ⟨c, _, rfl⟩ := List.mem_map.mp member
    obtain ⟨c', _, rfl⟩ := List.mem_map.mp member'
    exact besideCrcAndId_modifyId s.answers.dataAnswer c.id c'.id
  · intro c _ last sent
    obtain ⟨_, run', owned, same⟩ := continuous c.address last sent
    have owner := sound.threads.owned run ⟨sender, here, by simp [sends]⟩
    obtain rfl : run = run' := Option.some.inj (owner.symm.trans owned)
    rw [packet, same, UInt32.ofNat_add]
    rfl

def still : MotionData := ⟨0, 0, 0, 0, 0, 0, 0, 0⟩

def firstIteration : List Action := subscribing ⟨1, 1⟩ 7 ++ List.replicate 3 (.sender 0 still)

def secondIteration : List Action :=
  firstIteration ++ List.replicate 2 (.sender 0 still) ++ subscribing ⟨2, 2⟩ 8 ++ List.replicate 2 (.sender 0 still)

theorem second_executed :
    ((Runs.execute State.step started secondIteration).bind fun s =>
      (s.step (.sender 0 still)).map fun _ => (s.senders 0, s.clients, lastPacket ⟨1, 1⟩ s.log)) =
      some (some ⟨.broadcast, 2⟩, [⟨⟨1, 1⟩, 7, 0⟩, ⟨⟨2, 2⟩, 8, 0⟩], some 1) := by
  rfl

theorem broadcast_exact_second :
    ∃ (s t : State) (sent : List (Client × List UInt8)), Runs.Reachable State.step Starts s ∧
      t.log = .broadcast 0 2 sent :: s.log ∧
      sent.map Prod.fst = [⟨⟨1, 1⟩, 7, 0⟩, ⟨⟨2, 2⟩, 8, 0⟩] ∧
      (∀ d ∈ sent, load (memory d.2) 12 4 = d.1.id.toNat ∧ load (memory d.2) 32 4 = 2) ∧
      (∀ d ∈ sent, ∀ e ∈ sent, besideCrcAndId d.2 = besideCrcAndId e.2) ∧
      lastPacket ⟨1, 1⟩ s.log = some 1 ∧ ∀ last, lastPacket ⟨1, 1⟩ s.log = some last → 2 = last + 1 := by
  obtain ⟨s, done, rest⟩ := Option.bind_eq_some_iff.mp second_executed
  obtain ⟨t, step, now⟩ := Option.map_eq_some_iff.mp rest
  simp only [Prod.mk.injEq] at now
  obtain ⟨here, clients, first⟩ := now
  have reached := started_reachable done
  obtain ⟨sent, log, all, _, _, fields, same, next⟩ := broadcast_exact reached here rfl step
  exact ⟨s, t, sent, reached, log, all.trans clients, fields, same, first,
    fun last => next ⟨⟨1, 1⟩, 7, 0⟩ (by simp [clients]) last⟩

end Broadcast
