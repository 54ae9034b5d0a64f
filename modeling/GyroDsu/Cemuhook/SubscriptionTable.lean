import GyroDsu.Cemuhook.Broadcast
import GyroDsu.Cemuhook.Shutdown

/-
The table of clients together with what counts for it: a DATA datagram that is taken in is
a request, and the send thread's ticks go by the 32-bit numbers of its packets.
-/
namespace SubscriptionTable
open LittleEndian Protocol InfoRequests Server Subscriptions Broadcast Shutdown

def requested : List Event → List Address
  | [] => []
  | .request address :: log => address :: requested log
  | _ :: log => requested log

def Processes (s : State) (a : Action) : Prop := a = .server ∧ (s.pc = .subscribe ∨ ∃ i, s.pc = .refresh i)

def processing : ServerPc → Bool
  | .find | .subscribe | .refresh _ => true
  | _ => false

/-- A DATA datagram of `source` is taken in: serverTask has its next three steps to take, and with the
    third the request is processed, whatever the other threads do meanwhile; its sender is in the
    table then, with the ticks since for its count. -/
def TakenIn (source : Address) (t : State) : Prop :=
  ∀ as u, Runs.Run State.step t as u →
    (as.countP serves < 3 → ∃ v, u.step .server = some v) ∧
    (as.countP serves = 3 → ∃ newer older c, u.log = newer ++ .request source :: older ∧
      requested newer = [] ∧ t.log <:+ older ∧ c ∈ u.clients ∧ c.address = source ∧ c.sendTimeout = ticks newer)

theorem requested_append (newer log : List Event) : requested (newer ++ log) = requested newer ++ requested log := by
  induction newer with
  | nil => rfl
  | cons e newer ih => cases e <;> simp only [List.cons_append, requested, ih]

theorem scan_requested (s : State) (increment : Bool) :
    requested (s.scan increment).log = requested s.log := by
  have removals : ∀ clients : List Client, requested (clients.map fun c => .removed c.address) = [] := by
    intro clients
    induction clients with
    | nil => rfl
    | cons c clients ih => exact ih
  cases increment <;> simp [State.scan, requested_append, removals, requested]

theorem step_requested {s t : State} {a : Action} (step : s.step a = some t) :
    (Processes s a → requested t.log = s.source :: requested s.log) ∧
    (¬Processes s a → requested t.log = requested s.log) := by
  cases step_cases step with
  | header | short | receiveTimeout | stop => exact ⟨fun processes => (by cases processes.1), fun _ => rfl⟩
  | sender run motion sender here moves =>
    refine ⟨fun processes => (by cases processes.1), fun _ => ?_⟩
    cases moves <;> rfl
  | server moves =>
    cases moves with
    | subscribe pc => exact ⟨fun _ => rfl, fun never => absurd ⟨rfl, Or.inl pc⟩ never⟩
    | refresh i pc => exact ⟨fun _ => rfl, fun never => absurd ⟨rfl, Or.inr ⟨i, pc⟩⟩ never⟩
    | scan increment pc =>
      refine ⟨?_, fun _ => scan_requested s increment⟩
      rintro ⟨_, other | ⟨i, other⟩⟩ <;> cases pc.symm.trans other
    | stops pc | listens pc | version pc | info pc | data pc | ignored pc | port i pc | informed i pc | unknown pc
    | known i c pc | launch pc | launched pc | spawn pc | due pc | notDue pc | drained pc | notDrained pc
    | requestStop run pc | join run pc | finished pc | finish pc | requestLast run pc | joinLast run pc =>
      refine ⟨?_, fun _ => rfl⟩
      rintro ⟨_, other | ⟨i, other⟩⟩ <;> cases pc.symm.trans other

theorem step_processing {s t : State} {a : Action}
    (h : processing s.pc = true → eventType s.buf = dataType) (step : s.step a = some t) :
    processing t.pc = true → eventType t.buf = dataType := by
  cases step_cases step with
  | header | short | receiveTimeout => nofun
  | sender run motion sender here moves => cases moves <;> exact h
  | stop => exact h
  | server moves =>
    cases moves with
    | data pc type => exact fun _ => type
    | unknown pc | known i c pc => exact fun _ => h (by rw [pc]; rfl)
    | _ => nofun

theorem reachable_processing {s : State} (reached : Runs.Reachable State.step Starts s) :
    processing s.pc = true → eventType s.buf = dataType := by
  refine Runs.reachable_invariant (fun s => processing s.pc = true → eventType s.buf = dataType) ?_
    (fun _ _ _ h step => step_processing h step) reached
  intro s h now
  rw [h.pc] at now
  cases now

/-- How far serverTask has come with the DATA request of `source`, counted in its steps, and what
    was in the history before. -/
inductive Taking (source : Address) (before : List Event) (u : State) : Nat → Prop where
  | dispatch (pc : u.pc = .dispatch) (type : eventType u.buf = dataType) (from_there : u.source = source)
      (log : before <:+ u.log) : Taking source before u 0
  | find (pc : u.pc = .find) (from_there : u.source = source) (log : before <:+ u.log) : Taking source before u 1
  | process (pc : u.pc = .subscribe ∨ ∃ i, u.pc = .refresh i) (from_there : u.source = source)
      (log : before <:+ u.log) : Taking source before u 2
  | done (newer older : List Event) (c : Client) (log : u.log = newer ++ .request source :: older)
      (none_newer : requested newer = []) (kept : before <:+ older) (member : c ∈ u.clients)
      (address : c.address = source) (counted : c.sendTimeout = ticks newer) : Taking source before u 3

theorem data_dispatch {s t : State} (pc : s.pc = .dispatch) (type : eventType s.buf = dataType)
    (step : s.step .server = some t) : t = { s with pc := .find } := by
  simp only [State.step, State.serverStep, pc, State.dispatch, type, if_neg ServerAnswers.data_not_version,
    if_true, Option.some.injEq] at step
  rw [if_neg (by decide)] at step
  exact step.symm

theorem find_place (s : State) :
    s.find.source = s.source ∧ s.find.log = s.log ∧ (s.find.pc = .subscribe ∨ ∃ i, s.find.pc = .refresh i) := by
  unfold State.find
  split
  · exact ⟨rfl, rfl, Or.inl rfl⟩
  · exact ⟨rfl, rfl, Or.inr ⟨_, rfl⟩⟩

theorem subscribe_taken {u : State} {before : List Event} (log : before <:+ u.log) :
    Taking u.source before u.subscribe 3 :=
  .done [] u.log ⟨u.source, requestId u.buf, 0⟩ rfl rfl log (List.mem_append_right _ List.mem_cons_self) rfl rfl

theorem refresh_taken {u : State} {before : List Event} {i : Nat} (table : Table u) (pc : u.pc = .refresh i)
    (log : before <:+ u.log) : Taking u.source before (u.refresh i) 3 := by
  obtain ⟨known, here, address⟩ := table.located.2 i pc
  have there : (u.refresh i).clients[i]? = some { known with sendTimeout := 0 } := by
    simp only [State.refresh, List.getElem?_modify, here, if_true]
    rfl
  exact .done [] u.log _ rfl rfl log (List.mem_of_getElem? there) address rfl

theorem taking_serves {source : Address} {before : List Event} {u v : State} {k : Nat} {a : Action}
    (table : Table u) (taking : Taking source before u k) (more : k < 3) (serving : serves a = true)
    (step : u.step a = some v) : Taking source before v (k + 1) := by
  have by_server : u.pc ≠ .receive → u.serverStep = some v := by
    intro elsewhere
    cases a with
    | datagram source bytes => simp [State.step, elsewhere] at step
    | receiveTimeout => simp [State.step, elsewhere] at step
    | server => exact step
    | sender | stop => cases serving
  cases taking with
  | dispatch pc type from_there log =>
    obtain rfl := data_dispatch pc type (by_server (by simp [pc]))
    exact .find rfl from_there log
  | find pc from_there log =>
    have finds := by_server (by simp [pc])
    simp only [State.serverStep, pc, Option.some.injEq] at finds
    obtain ⟨source_kept, log_kept, place⟩ := find_place u
    rw [← finds]
    exact .process place (source_kept.trans from_there) (log_kept ▸ log)
  | process pc from_there log =>
    subst from_there
    rcases pc with pc | ⟨i, pc⟩
    · have subscribes := by_server (by simp [pc])
      simp only [State.serverStep, pc, Option.some.injEq] at subscribes
      exact subscribes ▸ subscribe_taken log
    · have refreshes := by_server (by simp [pc])
      simp only [State.serverStep, pc, Option.some.injEq] at refreshes
      exact refreshes ▸ refresh_taken table pc log
  | done => omega

theorem beside_events {u v : State} {a : Action} (other : serves a = false) (step : u.step a = some v) :
    ∃ events, v.log = events ++ u.log ∧ requested events = [] ∧
      ∀ c ∈ u.clients, ∃ d ∈ v.clients, d.address = c.address ∧ d.sendTimeout = c.sendTimeout + ticks events := by
  cases step_cases step with
  | header | short | receiveTimeout | server => cases other
  | stop => exact ⟨[], rfl, rfl, fun c member => ⟨c, member, rfl, rfl⟩⟩
  | sender run motion sender here moves =>
    have same : ∀ c ∈ u.clients, ∃ d ∈ u.clients, d.address = c.address ∧ d.sendTimeout = c.sendTimeout :=
      fun c member => ⟨c, member, rfl, rfl⟩
    cases moves with
    | tick pc period =>
      refine ⟨[.tick], rfl, rfl, fun c member => ⟨c.countUp, ?_, rfl, rfl⟩⟩
      exact List.mem_map_of_mem member
    | broadcast pc => exact ⟨[_], rfl, rfl, same⟩
    | start | stops | goes | prepare | noTick | stopGrab => exact ⟨[], rfl, rfl, same⟩

theorem ticks_append (newer log : List Event) : ticks (newer ++ log) = ticks newer + ticks log := by
  induction newer with
  | nil => simp [ticks]
  | cons e newer ih =>
    cases e <;> simp only [List.cons_append, ticks, ih]
    omega

/-- The other threads leave it to serverTask, and count for the client what they count. -/
theorem taking_beside {source : Address} {before : List Event} {u v : State} {k : Nat} {a : Action}
    (taking : Taking source before u k) (other : serves a = false) (step : u.step a = some v) :
    Taking source before v k := by
  obtain ⟨pc_kept, buf_kept, source_kept⟩ := beside_place other step
  obtain ⟨events, log, none_requested, clients⟩ := beside_events other step
  have later : before <:+ u.log → before <:+ v.log := by
    intro earlier
    rw [log]
    exact earlier.trans (List.suffix_append events u.log)
  cases taking with
  | dispatch pc type from_there old =>
    exact .dispatch (pc_kept.trans pc) (buf_kept ▸ type) (source_kept.trans from_there) (later old)
  | find pc from_there old => exact .find (pc_kept.trans pc) (source_kept.trans from_there) (later old)
  | process pc from_there old => exact .process (pc_kept ▸ pc) (source_kept.trans from_there) (later old)
  | done newer older c at_request none_newer kept member address counted =>
    obtain ⟨d, member', address', counted'⟩ := clients c member
    refine .done (events ++ newer) older d ?_ ?_ kept member' (address'.trans address) ?_
    · rw [log, at_request, List.append_assoc]
    · rw [requested_append, none_requested, none_newer]
      rfl
    · rw [counted', counted, ticks_append, Nat.add_comm]

theorem run_taking {source : Address} {before : List Event} {t u : State} {as : List Action}
    (table : Table t) (taking : Taking source before t 0) (run : Runs.Run State.step t as u) :
    Table u ∧ (as.countP serves ≤ 3 → Taking source before u (as.countP serves)) := by
  induction run with
  | nil => exact ⟨table, fun _ => taking⟩
  | @next as a m n earlier last ih =>
    obtain ⟨table, so_far⟩ := ih
    refine ⟨step_table table last, fun few => ?_⟩
    cases serving : serves a with
    | true =>
      rw [List.countP_cons_of_pos serving] at few ⊢
      exact taking_serves table (so_far (by omega)) (by omega) serving last
    | false =>
      rw [List.countP_cons_of_neg (by simp [serving])] at few ⊢
      exact taking_beside (so_far few) serving last

theorem taking_goes {source : Address} {before : List Event} {u : State} {k : Nat}
    (taking : Taking source before u k) (more : k < 3) : ∃ v, u.step .server = some v := by
  cases taking with
  | dispatch pc | find pc => exact ⟨_, by simp only [State.step, State.serverStep, pc]; rfl⟩
  | process pc =>
    rcases pc with pc | ⟨i, pc⟩
    · exact ⟨_, by simp only [State.step, State.serverStep, pc]; rfl⟩
    · exact ⟨_, by simp only [State.step, State.serverStep, pc]; rfl⟩
  | done => omega

theorem takenIn_taking {source : Address} {t : State} (table : Table t) (taking : Taking source t.log t 0) :
    TakenIn source t := by
  intro as u run
  obtain ⟨_, far⟩ := run_taking table taking run
  refine ⟨fun few => taking_goes (far (by omega)) few, fun three => ?_⟩
  have done := far (Nat.le_of_eq three)
  rw [three] at done
  cases done with
  | done newer older c log none_newer kept member address counted =>
    exact ⟨newer, older, c, log, none_newer, kept, member, address, counted⟩

theorem received_type {buf : Memory} {bytes : List UInt8} (whole : headerSize ≤ bytes.length) :
    eventType (receive buf bytes) = eventType (memory bytes) := by
  have same : load (receive buf bytes) 16 4 = load (memory bytes) 16 4 := by
    apply load_agree
    intro i bound
    have inside : 16 + i < min bytes.length bufLen := by
      rw [headerSize] at whole
      rw [bufLen]
      omega
    rw [receive, if_pos inside]
  rw [eventType, eventType, same]

theorem data_taken {s t : State} {source : Address} {bytes : List UInt8} (table : Table s)
    (arrives : s.step (.datagram source bytes) = some t) (whole : headerSize ≤ bytes.length)
    (type : eventType (memory bytes) = dataType) : TakenIn source t := by
  refine takenIn_taking (step_table table arrives) ?_
  cases step_cases arrives with
  | header _ _ pc => exact .dispatch rfl ((received_type whole).trans type) rfl (List.suffix_refl _)
  | short _ _ pc short => omega

theorem sender_ticks {s : State} (numbered : Numbered s) (run : Nat) (motion : CemuhookAdapter.MotionData) :
    Ticks s (.sender run motion) ↔
      ∃ sender, s.senders run = some sender ∧ sender.pc = .count ∧ iterations run s.log % 2 ^ 32 % 500 = 0 := by
  have divides : ∀ sender, s.senders run = some sender → sender.pc = .count →
      (sender.packet % cTimeoutIncreasePeriod = 0 ↔ iterations run s.log % 2 ^ 32 % 500 = 0) := by
    intro sender here pc
    have packet := numbered.packet run sender here
    rw [if_neg (by simp [pc]), Nat.add_zero] at packet
    rw [packet, ← UInt32.toNat_inj, UInt32.toNat_mod, UInt32.toNat_ofNat']
    rfl
  constructor
  · rintro (⟨run', motion', sender, same, here, pc, period⟩ | ⟨other, _⟩)
    · obtain ⟨rfl, rfl⟩ := Action.sender.inj same
      exact ⟨sender, here, pc, (divides sender here pc).mp period⟩
    · cases other
  · rintro ⟨sender, here, pc, period⟩
    exact Or.inl ⟨run, motion, sender, rfl, here, pc, (divides sender here pc).mpr period⟩

/-- In every reachable state the table has one entry for an address and counts the ticks
    since its last request. A tick is a packet of a run of sendTask whose number modulo 2^32
    is a multiple of 500, or a scan that counts; a request is a DATA datagram taken in. A
    step removes an entry only in a scan that finds more than three, leaves none of these
    behind, and keeps order, address and id of the others. -/
theorem subscription_table {s : State} (reached : Runs.Reachable State.step Starts s) :
    (s.clients.map Client.address).Nodup ∧
    (∀ c ∈ s.clients, c.sendTimeout = ticksSince c.address s.log) ∧
    (∀ run motion, Ticks s (.sender run motion) ↔
      ∃ sender, s.senders run = some sender ∧ sender.pc = .count ∧ iterations run s.log % 2 ^ 32 % 500 = 0) ∧
    (∀ source bytes t, s.step (.datagram source bytes) = some t → headerSize ≤ bytes.length →
      eventType (memory bytes) = dataType → TakenIn source t) ∧
    ∀ a t, s.step a = some t →
      (Ticks s a → ticks t.log = ticks s.log + 1) ∧
      (¬Ticks s a → ticks t.log = ticks s.log) ∧
      (Processes s a → eventType s.buf = dataType ∧ requested t.log = s.source :: requested s.log) ∧
      (¬Processes s a → requested t.log = requested s.log) ∧
      (∀ c ∈ s.clients, Removed s t c.address →
        ∃ increment, a = .server ∧ s.pc = .scan increment ∧
          3 < c.sendTimeout + increment.toNat ∧ 4 ≤ ticksSince c.address t.log) ∧
      (∀ increment, a = .server → s.pc = .scan increment → ∀ c ∈ t.clients, c.sendTimeout ≤ 3) ∧
      ((entries t).Sublist (entries s) ∨
        s.pc = .subscribe ∧ entries t = entries s ++ [(s.source, requestId s.buf)]) := by
  have table := reachable_table reached
  obtain ⟨_, numbered, _⟩ := reachable_continuous reached
  refine ⟨table.distinct, table.counted, sender_ticks numbered,
    fun _ _ _ arrives whole type => data_taken table arrives whole type, ?_⟩
  intro a t step
  obtain ⟨counting, quiet⟩ := step_ticks step
  obtain ⟨processed, unprocessed⟩ := step_requested step
  refine ⟨counting, quiet, fun processes => ⟨?_, processed processes⟩, unprocessed, ?_, ?_, step_entries step⟩
  · apply reachable_processing reached
    rcases processes.2 with pc | ⟨i, pc⟩ <;> rw [pc] <;> rfl
  · intro c member gone
    obtain ⟨increment, server, pc, same, old⟩ := step_removed step member gone
    refine ⟨increment, server, pc, old, ?_⟩
    rw [same, scan_ticksSince, ← table.counted c member]
    exact old
  · intro increment server pc c member
    subst server
    rw [scan_step pc step] at member
    exact scan_young s increment c member

def quietWhile : List Action :=
  subscribing ⟨1, 1⟩ 7 ++ [.server, .receiveTimeout, .server, .server, .server]

theorem quiet_executed :
    (Runs.execute State.step started quietWhile).map (fun s => (s.pc, s.clients)) =
      some (.receive, [⟨⟨1, 1⟩, 7, 1⟩]) := by
  rfl

/-- The client has been counted up once, and its next request is taken in. -/
theorem subscription_table_refreshed :
    ∃ s t u as, Runs.Reachable State.step Starts s ∧ s.clients = [⟨⟨1, 1⟩, 7, 1⟩] ∧
      ticksSince ⟨1, 1⟩ s.log = 1 ∧ s.step (.datagram ⟨1, 1⟩ (dataRequest 7)) = some t ∧
      Runs.Run State.step t as u ∧ as.countP serves = 3 ∧
      ∃ newer older c, u.log = newer ++ .request ⟨1, 1⟩ :: older ∧ requested newer = [] ∧ t.log <:+ older ∧
        c ∈ u.clients ∧ c.address = ⟨1, 1⟩ ∧ c.sendTimeout = ticks newer := by
  obtain ⟨s, done, now⟩ := Option.map_eq_some_iff.mp quiet_executed
  have pc : s.pc = .receive := congrArg Prod.fst now
  have clients : s.clients = [⟨⟨1, 1⟩, 7, 1⟩] := congrArg Prod.snd now
  have reached := started_reachable done
  obtain ⟨_, counted, _, taken, _⟩ := subscription_table reached
  have arrives : ∃ t, s.step (.datagram ⟨1, 1⟩ (dataRequest 7)) = some t := by simp [State.step, pc]
  obtain ⟨t, arrives⟩ := arrives
  have taken_in := taken ⟨1, 1⟩ (dataRequest 7) t arrives (by decide) (by decide)
  obtain ⟨v, first⟩ := (taken_in [] t .nil).1 (by decide)
  have one := Runs.Run.next Runs.Run.nil first
  obtain ⟨w, second⟩ := (taken_in [.server] v one).1 (by decide)
  have two := Runs.Run.next one second
  obtain ⟨u, third⟩ := (taken_in [.server, .server] w two).1 (by decide)
  have three := Runs.Run.next two third
  exact ⟨s, t, u, _, reached, clients, (counted ⟨⟨1, 1⟩, 7, 1⟩ (by simp [clients])).symm, arrives, three, rfl,
    (taken_in _ u three).2 rfl⟩

/-- What every 500th packet counts for an address since its last request, where no scan counts. -/
def fiveHundredths (address : Address) : List Event → Nat
  | [] => 0
  | .request other :: log => if other = address then 0 else fiveHundredths address log
  | .broadcast run _ _ :: log =>
    fiveHundredths address log + if (iterations run log + 1) % 500 = 0 then 1 else 0
  | _ :: log => fiveHundredths address log

structure Sends (s : State) (sender : Sender) (packets sendTimeout : Nat) : Prop where
  here : s.senders 0 = some sender
  goes : s.stopSending = false
  clients : s.clients = [⟨⟨1, 1⟩, 7, sendTimeout⟩]
  sent : iterations 0 s.log = packets
  counted : fiveHundredths ⟨1, 1⟩ s.log = packets / 500

def iteration : List Action := List.replicate 4 (.sender 0 still)

theorem sends_test {s : State} {packet : UInt32} {packets sendTimeout : Nat}
    (sends : Sends s ⟨.test, packet⟩ packets sendTimeout) :
    ∃ t, s.step (.sender 0 still) = some t ∧ Sends t ⟨.prepare, packet⟩ packets sendTimeout := by
  refine ⟨s.setSender 0 ⟨.prepare, packet⟩, ?_, setSender_same _ _ _, sends.goes, sends.clients, sends.sent,
    sends.counted⟩
  simp [State.step, State.senderStep, sends.here, sends.goes]

theorem sends_prepare {s : State} {packet : UInt32} {packets sendTimeout : Nat}
    (sends : Sends s ⟨.prepare, packet⟩ packets sendTimeout) :
    ∃ t, s.step (.sender 0 still) = some t ∧ Sends t ⟨.broadcast, packet + 1⟩ packets sendTimeout := by
  have step : s.step (.sender 0 still) = s.senderStep 0 ⟨.prepare, packet⟩ still := by
    simp only [State.step, sends.here, Option.bind_some]
  exact ⟨_, step, setSender_same s 0 ⟨.broadcast, packet + 1⟩, sends.goes, sends.clients, sends.sent, sends.counted⟩

theorem sends_broadcast {s : State} {packet : UInt32} {packets sendTimeout : Nat}
    (sends : Sends s ⟨.broadcast, packet⟩ packets sendTimeout) :
    ∃ t, s.step (.sender 0 still) = some t ∧ Sends t ⟨.count, packet⟩ (packets + 1) sendTimeout := by
  have step : s.step (.sender 0 still) = s.senderStep 0 ⟨.broadcast, packet⟩ still := by
    simp only [State.step, sends.here, Option.bind_some]
  have more : (packets + 1) / 500 = packets / 500 + if (packets + 1) % 500 = 0 then 1 else 0 := by
    split <;> omega
  refine ⟨_, step, setSender_same s 0 ⟨.count, packet⟩, sends.goes, sends.clients, ?_, ?_⟩
  · exact congrArg (· + 1) sends.sent
  · rw [more, ← sends.counted, ← sends.sent]
    rfl

theorem sends_count {s : State} {packet : UInt32} {packets sendTimeout : Nat}
    (sends : Sends s ⟨.count, packet⟩ packets sendTimeout) :
    ∃ t, s.step (.sender 0 still) = some t ∧
      Sends t ⟨.test, packet⟩ packets (sendTimeout + if packet % 500 = 0 then 1 else 0) := by
  have step : s.step (.sender 0 still) = s.senderStep 0 ⟨.count, packet⟩ still := by
    simp only [State.step, sends.here, Option.bind_some]
  by_cases period : packet % 500 = 0
  · simp only [State.senderStep, cTimeoutIncreasePeriod, period, if_true] at step
    refine ⟨_, step, setSender_same s 0 ⟨.test, packet⟩, sends.goes, ?_, sends.sent, sends.counted⟩
    simp [sends.clients, period, Client.countUp]
  · simp only [State.senderStep, cTimeoutIncreasePeriod, period, if_false] at step
    refine ⟨_, step, setSender_same s 0 ⟨.test, packet⟩, sends.goes, ?_, sends.sent, sends.counted⟩
    simp [State.setSender, sends.clients, period]

theorem one_packet {s : State} {packet : UInt32} {packets sendTimeout : Nat}
    (sends : Sends s ⟨.test, packet⟩ packets sendTimeout) :
    ∃ t, Runs.Run State.step s iteration t ∧
      Sends t ⟨.test, packet + 1⟩ (packets + 1) (sendTimeout + if (packet + 1) % 500 = 0 then 1 else 0) := by
  obtain ⟨t, tested, sends⟩ := sends_test sends
  obtain ⟨u, prepared, sends⟩ := sends_prepare sends
  obtain ⟨v, sent, sends⟩ := sends_broadcast sends
  obtain ⟨w, counted, sends⟩ := sends_count sends
  exact ⟨w, .next (.next (.next (.next .nil tested) prepared) sent) counted, sends⟩

theorem next_number (packets : Nat) : UInt32.ofNat packets + 1 = UInt32.ofNat (packets + 1) :=
  (UInt32.ofNat_add packets 1).symm

theorem many_packets {s : State} (sends : Sends s ⟨.test, 0⟩ 0 0) (packets : Nat) (few : packets < 2 ^ 32) :
    ∃ as t, Runs.Run State.step s as t ∧ (∀ a ∈ as, a = .sender 0 still) ∧
      Sends t ⟨.test, UInt32.ofNat packets⟩ packets (packets / 500) := by
  induction packets with
  | zero => exact ⟨[], s, .nil, by simp, sends⟩
  | succ packets ih =>
    obtain ⟨as, t, run, senders, sends⟩ := ih (by omega)
    obtain ⟨u, more, sends'⟩ := one_packet sends
    refine ⟨iteration ++ as, u, Runs.run_append run more, ?_, ?_⟩
    · intro a member
      rcases List.mem_append.mp member with new | old
      · exact List.eq_of_mem_replicate new
      · exact senders a old
    · have small : UInt32.ofNat (packets + 1) % 500 = 0 ↔ (packets + 1) % 500 = 0 := by
        rw [← UInt32.toNat_inj, UInt32.toNat_mod, UInt32.toNat_ofNat', Nat.mod_eq_of_lt few]
        rfl
      have count : (packets + 1) / 500 = packets / 500 + if (packets + 1) % 500 = 0 then 1 else 0 := by
        split <;> omega
      rw [next_number] at sends'
      simp only [small] at sends'
      exact count ▸ sends'

theorem sending_executed :
    (Runs.execute State.step started (subscribing ⟨1, 1⟩ 7 ++ [.sender 0 still])).map
      (fun s => (s.senders 0, s.stopSending, s.clients, iterations 0 s.log, fiveHundredths ⟨1, 1⟩ s.log)) =
      some (some ⟨.test, 0⟩, false, [⟨⟨1, 1⟩, 7, 0⟩], 0, 0) := by
  rfl

/-- After 2^32 packets the client has been counted up once more than there were 500 packets:
    the last of them has the number 0. -/
theorem ticks_miscounted :
    ∃ as s, Runs.Run State.step started as s ∧
      (∀ a ∈ as, a ≠ .receiveTimeout ∧ ∀ source bytes, a = .datagram source bytes → bytes = dataRequest 7) ∧
      s.clients = [⟨⟨1, 1⟩, 7, 8589935⟩] ∧ fiveHundredths ⟨1, 1⟩ s.log = 8589934 := by
  obtain ⟨s, done, now⟩ := Option.map_eq_some_iff.mp sending_executed
  simp only [Prod.mk.injEq] at now
  obtain ⟨here, goes, clients, sent, counted⟩ := now
  obtain ⟨as, t, run, senders, sends⟩ := many_packets ⟨here, goes, clients, sent, counted⟩ 4294967295 (by decide)
  obtain ⟨u, last, sends⟩ := one_packet sends
  refine ⟨_, u, Runs.run_append (Runs.run_of_execute done) (Runs.run_append run last), ?_, sends.clients,
    sends.counted⟩
  intro a member
  have either : a = .sender 0 still ∨ a ∈ subscribing ⟨1, 1⟩ 7 ++ [.sender 0 still] := by
    rcases List.mem_append.mp member with late | early
    · rcases List.mem_append.mp late with last | before
      · exact Or.inl (List.eq_of_mem_replicate last)
      · exact Or.inl (senders a before)
    · exact Or.inr (List.mem_reverse.mp early)
  rcases either with rfl | early
  · exact ⟨by simp, by simp⟩
  · simp [subscribing] at early
    rcases early with rfl | rfl | rfl | rfl <;> simp

end SubscriptionTable
