import GyroDsu.Cemuhook.Server

/-
The table of clients: one entry for an address, its sendTimeout the number of ticks
since the last DATA request from there, removed only by a scan that finds it too old.
-/
namespace Subscriptions
open Server InfoRequests

/-- Ticks since the last DATA request from an address; removals are no ticks. -/
def ticksSince (address : Address) : List Event → Nat
  | [] => 0
  | .request other :: log => if other = address then 0 else ticksSince address log
  | .tick :: log => ticksSince address log + 1
  | .answer _ _ :: log => ticksSince address log
  | .removed _ :: log => ticksSince address log
  | .broadcast _ _ _ :: log => ticksSince address log
  | .stopRequest _ :: log => ticksSince address log

def ticks : List Event → Nat
  | [] => 0
  | .tick :: log => ticks log + 1
  | _ :: log => ticks log

/-- What serverTask has found out about the sender of a DATA request still holds when it
    uses it, although it has given up the lock in between. -/
def Located (s : State) : Prop :=
  (s.pc = .subscribe → ∀ c ∈ s.clients, c.address ≠ s.source) ∧
    ∀ i, s.pc = .refresh i → ∃ c, s.clients[i]? = some c ∧ c.address = s.source

structure Table (s : State) : Prop where
  distinct : (s.clients.map Client.address).Nodup
  counted : ∀ c ∈ s.clients, c.sendTimeout = ticksSince c.address s.log
  located : Located s

def entries (s : State) : List (Address × UInt32) := s.clients.map fun c => (c.address, c.id)

def Aside : Event → Prop
  | .answer _ _ => True
  | .broadcast _ _ _ => True
  | .stopRequest _ => True
  | _ => False

inductive ClientStep (s : State) (a : Action) (t : State) : Prop where
  | pass (clients : t.clients = s.clients) (log : ∃ events, t.log = events ++ s.log ∧ ∀ e ∈ events, Aside e)
      (quiet : ¬CountsUp s a)
  | subscribe (server : a = .server) (pc : s.pc = .subscribe) (same : t = s.subscribe)
  | refresh (server : a = .server) (i : Nat) (pc : s.pc = .refresh i) (same : t = s.refresh i)
  | scan (server : a = .server) (increment : Bool) (pc : s.pc = .scan increment)
      (same : t = s.scan increment)
  | countUp (counts : CountsUp s a) (clients : t.clients = s.clients.map Client.countUp)
      (log : t.log = .tick :: s.log)

@[simp] theorem countUp_address (c : Client) : c.countUp.address = c.address := rfl
@[simp] theorem countUp_id (c : Client) : c.countUp.id = c.id := rfl
@[simp] theorem countUp_sendTimeout (c : Client) : c.countUp.sendTimeout = c.sendTimeout + 1 := rfl

theorem count_skips {count : List Event → Nat} {events : List Event} (log : List Event)
    (skips : ∀ e ∈ events, ∀ log, count (e :: log) = count log) : count (events ++ log) = count log := by
  induction events with
  | nil => rfl
  | cons e events ih =>
    rw [List.cons_append, skips e List.mem_cons_self]
    exact ih fun e member => skips e (List.mem_cons_of_mem _ member)

theorem aside_skipped {count : List Event → Nat} {events log : List Event}
    (answer : ∀ a b log, count (.answer a b :: log) = count log)
    (broadcast : ∀ a b c log, count (.broadcast a b c :: log) = count log)
    (stop : ∀ a log, count (.stopRequest a :: log) = count log) (aside : ∀ e ∈ events, Aside e) :
    count (events ++ log) = count log := by
  apply count_skips
  intro e member log
  have passed := aside e member
  cases e with
  | answer => exact answer _ _ log
  | broadcast => exact broadcast _ _ _ log
  | stopRequest => exact stop _ log
  | request | tick | removed => exact absurd passed (by simp [Aside])

theorem ticksSince_aside (address : Address) {events log : List Event} (aside : ∀ e ∈ events, Aside e) :
    ticksSince address (events ++ log) = ticksSince address log :=
  aside_skipped (fun _ _ _ => rfl) (fun _ _ _ _ => rfl) (fun _ _ => rfl) aside

theorem ticks_aside {events log : List Event} (aside : ∀ e ∈ events, Aside e) :
    ticks (events ++ log) = ticks log :=
  aside_skipped (fun _ _ _ => rfl) (fun _ _ _ _ => rfl) (fun _ _ => rfl) aside

theorem ticksSince_removed (address : Address) (clients : List Client) (log : List Event) :
    ticksSince address (clients.map (fun c => .removed c.address) ++ log) = ticksSince address log := by
  apply count_skips
  intro e member log
  obtain ⟨c, _, rfl⟩ := List.mem_map.mp member
  rfl

theorem ticks_removed (clients : List Client) (log : List Event) :
    ticks (clients.map (fun c => .removed c.address) ++ log) = ticks log := by
  apply count_skips
  intro e member log
  obtain ⟨c, _, rfl⟩ := List.mem_map.mp member
  rfl

theorem scan_ticksSince (s : State) (increment : Bool) (address : Address) :
    ticksSince address (s.scan increment).log = ticksSince address s.log + increment.toNat := by
  cases increment <;> simp [State.scan, List.append_assoc, ticksSince_removed, ticksSince]

theorem mem_scanned {increment : Bool} {clients : List Client} {c : Client} :
    c ∈ scanned increment clients ↔
      ∃ old ∈ clients, c = { old with sendTimeout := old.sendTimeout + increment.toNat } := by
  cases increment with
  | false => simp [scanned]
  | true =>
    simp only [scanned, if_true, List.mem_map, Bool.toNat_true]
    constructor
    · rintro ⟨old, member, rfl⟩
      exact ⟨old, member, rfl⟩
    · rintro ⟨old, member, rfl⟩
      exact ⟨old, member, rfl⟩

theorem scanned_addresses (increment : Bool) (clients : List Client) :
    (scanned increment clients).map Client.address = clients.map Client.address := by
  cases increment <;> simp [scanned, Function.comp_def]

theorem pass_quietly {s t : State} {a : Action} (clients : t.clients = s.clients) (log : t.log = s.log)
    (quiet : ¬CountsUp s a) : ClientStep s a t :=
  .pass clients ⟨[], log, fun e none_new => by cases none_new⟩ quiet

theorem pass_beside {s t : State} {a : Action} {e : Event} (clients : t.clients = s.clients)
    (log : t.log = e :: s.log) (aside : Aside e) (quiet : ¬CountsUp s a) : ClientStep s a t := by
  refine .pass clients ⟨[e], log, fun e' member => ?_⟩ quiet
  obtain rfl := List.mem_singleton.mp member
  exact aside

theorem server_clients {s t : State} (moves : ServerStep s t) : ClientStep s .server t := by
  have quiet := server_quiet s
  cases moves with
  | subscribe pc => exact .subscribe rfl pc rfl
  | refresh i pc => exact .refresh rfl i pc rfl
  | scan increment pc => exact .scan rfl increment pc rfl
  | version | port | requestStop | requestLast => exact pass_beside rfl rfl trivial quiet
  | _ => exact pass_quietly rfl rfl quiet

theorem sender_clients {s t : State} {run : Nat} {sender : Sender} {motion : CemuhookAdapter.MotionData}
    (here : s.senders run = some sender) (moves : SenderStep s run sender motion t) :
    ClientStep s (.sender run motion) t := by
  have quiet : (sender.pc = .count → sender.packet % cTimeoutIncreasePeriod ≠ 0) →
      ¬CountsUp s (.sender run motion) := by
    rintro other ⟨run', motion', sender', same, there, at_count, period⟩
    obtain ⟨rfl, rfl⟩ := Action.sender.inj same
    obtain rfl := Option.some.inj (here.symm.trans there)
    exact other at_count period
  cases moves with
  | tick pc period => exact .countUp ⟨run, motion, sender, rfl, here, pc, period⟩ rfl rfl
  | noTick pc period => exact pass_quietly rfl rfl (quiet fun _ => period)
  | broadcast pc => exact pass_beside rfl rfl trivial (quiet (by simp [pc]))
  | start pc | stops pc | goes pc | prepare pc | stopGrab pc =>
    exact pass_quietly rfl rfl (quiet (by simp [pc]))

theorem step_clients {s t : State} {a : Action} (step : s.step a = some t) : ClientStep s a t := by
  cases step_cases step with
  | server moves => exact server_clients moves
  | sender run motion sender here moves => exact sender_clients here moves
  | header | short | receiveTimeout | stop =>
    refine pass_quietly rfl rfl ?_
    rintro ⟨_, _, _, other, _⟩
    cases other

theorem elsewhere_located {s : State} (not_subscribe : s.pc ≠ .subscribe)
    (not_refresh : ∀ i, s.pc ≠ .refresh i) : Located s := by
  constructor
  · intro here
    exact absurd here not_subscribe
  · intro i here
    exact absurd here (not_refresh i)

theorem server_located {s t : State} (moves : ServerStep s t) : Located t := by
  cases moves with
  | unknown pc nobody =>
    constructor
    · intro _
      exact nobody
    · intro i other
      cases other
  | known i c pc here address =>
    constructor
    · intro other
      cases other
    · intro j same
      obtain rfl := ServerPc.refresh.inj same
      exact ⟨c, here, address⟩
  | _ => exact elsewhere_located (by intro other; cases other) (by intro i other; cases other)

theorem sender_located {s t : State} (h : Located s) {run : Nat} {sender : Sender}
    {motion : CemuhookAdapter.MotionData} (moves : SenderStep s run sender motion t) : Located t := by
  cases moves with
  | tick pc period =>
    constructor
    · intro here c member
      obtain ⟨old, old_member, rfl⟩ := List.mem_map.mp member
      exact h.1 here old old_member
    · intro i here
      obtain ⟨old, there, address⟩ := h.2 i here
      refine ⟨old.countUp, ?_, address⟩
      simp only [List.getElem?_map, there, Option.map_some]
  | _ => exact ⟨h.1, h.2⟩

theorem step_located {s t : State} {a : Action} (h : Located s) (step : s.step a = some t) : Located t := by
  cases step_cases step with
  | server moves => exact server_located moves
  | sender run motion sender here moves => exact sender_located h moves
  | stop => exact ⟨h.1, h.2⟩
  | header | short | receiveTimeout =>
    exact elsewhere_located (by intro other; cases other) (by intro i other; cases other)

theorem scan_entries (s : State) (increment : Bool) : (entries (s.scan increment)).Sublist (entries s) := by
  have kept : (s.scan increment).clients.Sublist (scanned increment s.clients) := by
    rw [State.scan, scanClients_eq]
    exact List.filter_sublist
  have same : (scanned increment s.clients).map (fun c => (c.address, c.id)) = entries s := by
    cases increment <;> simp [scanned, entries, Function.comp_def]
  rw [← same]
  exact kept.map _

theorem refresh_entries (s : State) (i : Nat) : entries (s.refresh i) = entries s := by
  apply List.ext_getElem?
  intro j
  simp only [entries, State.refresh, List.getElem?_map, List.getElem?_modify]
  cases s.clients[j]? with
  | none => rfl
  | some c =>
    by_cases same : i = j <;> simp [same]

theorem step_entries {s t : State} {a : Action} (step : s.step a = some t) :
    (entries t).Sublist (entries s) ∨
      s.pc = .subscribe ∧ entries t = entries s ++ [(s.source, requestId s.buf)] := by
  cases step_clients step with
  | pass clients _ _ =>
    left
    unfold entries
    rw [clients]
  | subscribe _ pc same =>
    right
    refine ⟨pc, ?_⟩
    rw [same]
    simp [entries, State.subscribe]
  | refresh _ i _ same =>
    left
    rw [same, refresh_entries]
  | scan _ increment _ same =>
    left
    rw [same]
    exact scan_entries s increment
  | countUp _ clients _ =>
    left
    unfold entries
    rw [clients, List.map_map]
    exact List.Sublist.refl _

theorem addresses_entries (s : State) : s.clients.map Client.address = (entries s).map Prod.fst := by
  simp [entries, Function.comp_def]

theorem other_address {clients : List Client} (distinct : (clients.map Client.address).Nodup)
    {i j : Nat} {known other : Client} (first : clients[i]? = some known)
    (second : clients[j]? = some other) (differs : i ≠ j) : known.address ≠ other.address := by
  intro same
  have at_i : (clients.map Client.address)[i]? = some known.address := by simp [first]
  have at_j : (clients.map Client.address)[j]? = some known.address := by simp [second, same]
  obtain ⟨inside, _⟩ := List.getElem?_eq_some_iff.mp at_i
  exact differs ((List.getElem?_inj inside distinct).mp (at_i.trans at_j.symm))

theorem refresh_addresses (s : State) (i : Nat) :
    (s.refresh i).clients.map Client.address = s.clients.map Client.address := by
  rw [addresses_entries, addresses_entries, refresh_entries]

theorem step_distinct {s t : State} {a : Action} (h : Table s) (step : s.step a = some t) :
    (t.clients.map Client.address).Nodup := by
  have distinct := h.distinct
  rw [addresses_entries] at distinct ⊢
  rcases step_entries step with kept | ⟨pc, added⟩
  · exact (kept.map Prod.fst).nodup distinct
  · rw [added, List.map_append, List.nodup_append]
    refine ⟨distinct, List.pairwise_singleton _ _, ?_⟩
    intro a member b single same
    rw [← addresses_entries] at member
    obtain ⟨c, c_member, rfl⟩ := List.mem_map.mp member
    exact h.located.1 pc c c_member (same.trans (List.mem_singleton.mp single))

theorem subscribe_counted {s : State} (h : Table s) (pc : s.pc = .subscribe) :
    ∀ c ∈ s.subscribe.clients, c.sendTimeout = ticksSince c.address s.subscribe.log := by
  intro c member
  rcases List.mem_append.mp member with before | new
  · have other : ¬s.source = c.address := fun same => h.located.1 pc c before same.symm
    simp only [State.subscribe, ticksSince, other, if_false]
    exact h.counted c before
  · obtain rfl := List.mem_singleton.mp new
    simp [State.subscribe, ticksSince]

theorem refresh_counted {s : State} (h : Table s) {i : Nat} (pc : s.pc = .refresh i) :
    ∀ c ∈ (s.refresh i).clients, c.sendTimeout = ticksSince c.address (s.refresh i).log := by
  obtain ⟨known, here, address⟩ := h.located.2 i pc
  intro c member
  obtain ⟨j, at_j⟩ := List.mem_iff_getElem?.mp member
  simp only [State.refresh, List.getElem?_modify] at at_j
  obtain ⟨old, there, rfl⟩ := Option.map_eq_some_iff.mp at_j
  by_cases same : i = j
  · subst same
    obtain rfl := Option.some.inj (here.symm.trans there)
    simp [State.refresh, ticksSince, address]
  · -- Another entry has another address, so this request is not from there.
    have other : ¬s.source = old.address := address ▸ other_address h.distinct here there same
    simp only [same, if_false, State.refresh, ticksSince, other]
    exact h.counted old (List.mem_of_getElem? there)

theorem step_counted {s t : State} {a : Action} (h : Table s) (step : s.step a = some t) :
    ∀ c ∈ t.clients, c.sendTimeout = ticksSince c.address t.log := by
  cases step_clients step with
  | pass clients log _ =>
    obtain ⟨events, log, aside⟩ := log
    intro c member
    rw [clients] at member
    rw [log, ticksSince_aside _ aside]
    exact h.counted c member
  | subscribe _ pc same => exact same ▸ subscribe_counted h pc
  | refresh _ i pc same => exact same ▸ refresh_counted h pc
  | scan _ increment _ same =>
    intro c member
    rw [same, State.scan, scanClients_eq] at member
    obtain ⟨old, old_member, rfl⟩ := mem_scanned.mp (List.mem_filter.mp member).1
    rw [same, scan_ticksSince]
    simp only [h.counted old old_member]
  | countUp _ clients log =>
    intro c member
    rw [clients] at member
    obtain ⟨old, old_member, rfl⟩ := List.mem_map.mp member
    rw [log, ticksSince, countUp_sendTimeout, countUp_address, h.counted old old_member]

theorem step_table {s t : State} {a : Action} (h : Table s) (step : s.step a = some t) : Table t :=
  ⟨step_distinct h step, step_counted h step, step_located h.located step⟩

theorem starts_table {s : State} (h : Starts s) : Table s := by
  constructor
  · rw [h.clients]
    exact List.nodup_nil
  · intro c member
    rw [h.clients] at member
    cases member
  · constructor
    · intro other
      rw [h.pc] at other
      cases other
    · intro i other
      rw [h.pc] at other
      cases other

theorem reachable_table {s : State} (reached : Runs.Reachable State.step Starts s) : Table s :=
  Runs.reachable_invariant Table (fun _ => starts_table) (fun _ _ _ h step => step_table h step) reached

def Ticks (s : State) (a : Action) : Prop := CountsUp s a ∨ a = .server ∧ s.pc = .scan true

theorem server_ticks {s : State} : Ticks s .server ↔ s.pc = .scan true := by
  constructor
  · rintro (counts | ⟨_, pc⟩)
    · exact absurd counts (server_quiet s)
    · exact pc
  · intro pc
    exact Or.inr ⟨rfl, pc⟩

theorem scan_ticks (s : State) (increment : Bool) :
    ticks (s.scan increment).log = ticks s.log + increment.toNat := by
  cases increment <;> simp [State.scan, List.append_assoc, ticks_removed, ticks]

theorem scan_step {s t : State} {increment : Bool} (pc : s.pc = .scan increment)
    (step : s.step .server = some t) : t = s.scan increment := by
  simp only [State.step, State.serverStep, pc] at step
  exact (Option.some.inj step).symm

theorem step_ticks {s t : State} {a : Action} (step : s.step a = some t) :
    (Ticks s a → ticks t.log = ticks s.log + 1) ∧ (¬Ticks s a → ticks t.log = ticks s.log) := by
  have scans : a = .server ∧ s.pc = .scan true → ticks t.log = ticks s.log + 1 := by
    rintro ⟨rfl, pc⟩
    rw [scan_step pc step, scan_ticks]
    rfl
  cases step_clients step with
  | pass _ log quiet =>
    obtain ⟨events, log, aside⟩ := log
    constructor
    · rintro (counts | scan)
      · exact absurd counts quiet
      · exact scans scan
    · intro _
      rw [log, ticks_aside aside]
  | subscribe server pc same =>
    subst server same
    constructor
    · intro now
      rw [server_ticks, pc] at now
      cases now
    · intro _
      rfl
  | refresh server i pc same =>
    subst server same
    constructor
    · intro now
      rw [server_ticks, pc] at now
      cases now
    · intro _
      rfl
  | scan server increment pc same =>
    subst server same
    rw [server_ticks, pc, scan_ticks]
    cases increment <;> simp
  | countUp counts _ log =>
    constructor
    · intro _
      rw [log, ticks]
    · intro never
      exact absurd (Or.inl counts) never

def Removed (s t : State) (address : Address) : Prop :=
  address ∈ s.clients.map Client.address ∧ address ∉ t.clients.map Client.address

theorem not_removed {s t : State} (kept : (entries s).Sublist (entries t)) (address : Address) :
    ¬Removed s t address := by
  rintro ⟨before, gone⟩
  rw [addresses_entries] at before gone
  exact gone ((kept.map Prod.fst).subset before)

theorem scan_removed {s : State} {increment : Bool} {c : Client} (member : c ∈ s.clients)
    (gone : Removed s (s.scan increment) c.address) : cSendTimeout < c.sendTimeout + increment.toNat := by
  by_contra young
  have counted : { c with sendTimeout := c.sendTimeout + increment.toNat } ∈ (s.scan increment).clients := by
    rw [State.scan, scanClients_eq]
    apply List.mem_filter.mpr
    constructor
    · exact mem_scanned.mpr ⟨c, member, rfl⟩
    · simpa [Client.timedOut] using young
  exact gone.2 (List.mem_map.mpr ⟨_, counted, rfl⟩)

theorem step_removed {s t : State} {a : Action} (step : s.step a = some t) {c : Client}
    (member : c ∈ s.clients) (gone : Removed s t c.address) :
    ∃ increment, a = .server ∧ s.pc = .scan increment ∧ t = s.scan increment ∧
      cSendTimeout < c.sendTimeout + increment.toNat := by
  cases step_clients step with
  | pass clients _ _ =>
    refine absurd gone (not_removed ?_ c.address)
    unfold entries
    rw [clients]
  | subscribe _ _ same =>
    refine absurd gone (not_removed ?_ c.address)
    rw [same]
    simp [entries, State.subscribe]
  | refresh _ i _ same =>
    refine absurd gone (not_removed ?_ c.address)
    rw [same, refresh_entries]
  | scan server increment pc same =>
    rw [same] at gone
    exact ⟨increment, server, pc, same, scan_removed member gone⟩
  | countUp _ clients _ =>
    refine absurd gone (not_removed ?_ c.address)
    unfold entries
    rw [clients, List.map_map]
    exact List.Sublist.refl _

theorem scan_young (s : State) (increment : Bool) :
    ∀ c ∈ (s.scan increment).clients, c.sendTimeout ≤ cSendTimeout := by
  intro c member
  rw [State.scan, scanClients_eq] at member
  simpa [Client.timedOut] using (List.mem_filter.mp member).2

end Subscriptions
