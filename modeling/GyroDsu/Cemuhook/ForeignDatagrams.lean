import GyroDsu.Cemuhook.Subscriptions

/-
What datagrams from one address do to the subscriptions of all others, with no receive
timeout and no tick of a send thread in between. A datagram that is too short takes the
way of a receive timeout.
-/
namespace ForeignDatagrams
open Server InfoRequests Subscriptions

instance (s : State) (a : Action) : Decidable (CountsUp s a) :=
  match a with
  | .sender run motion =>
    match here : s.senders run with
    | none => isFalse (by
        rintro ⟨_, _, _, same, there, _⟩
        obtain ⟨rfl, _⟩ := Action.sender.inj same
        rw [here] at there
        cases there)
    | some sender =>
      if counts : sender.pc = .count ∧ sender.packet % cTimeoutIncreasePeriod = 0 then
        isTrue ⟨run, motion, sender, rfl, here, counts⟩
      else isFalse (by
        rintro ⟨_, _, _, same, there, rest⟩
        obtain ⟨rfl, _⟩ := Action.sender.inj same
        obtain rfl := Option.some.inj (here.symm.trans there)
        exact counts rest)
  | .datagram _ _ => isFalse (by rintro ⟨_, _, _, other, _⟩; cases other)
  | .receiveTimeout => isFalse (by rintro ⟨_, _, _, other, _⟩; cases other)
  | .server => isFalse (server_quiet s)
  | .stop => isFalse (by rintro ⟨_, _, _, other, _⟩; cases other)

/-- A step that is neither a receive timeout nor a tick of a send thread. -/
def quietStep (s : State) : Action → Option State
  | .receiveTimeout => none
  | a => if CountsUp s a then none else s.step a

def others (source : Address) (s : State) : List Client :=
  s.clients.filter fun c => c.address ≠ source

/-- All others are as they were, but for those removed that were too old already. -/
structure Unharmed (source : Address) (s t : State) : Prop where
  unchanged : (others source t).Sublist (others source s)
  kept : ∀ c ∈ others source s, c.sendTimeout ≤ cSendTimeout → c ∈ others source t

/-- A datagram with a whole header, or one that finds only old clients elsewhere. -/
def Harmless (source : Address) (s : State) (bytes : List UInt8) : Prop :=
  headerSize ≤ bytes.length ∨ ∀ c ∈ others source s, cSendTimeout < c.sendTimeout

instance (source : Address) (s : State) (bytes : List UInt8) : Decidable (Harmless source s bytes) :=
  inferInstanceAs (Decidable (_ ∨ _))

def harmlessStep (source : Address) (s : State) (a : Action) : Option State :=
  match a with
  | .datagram origin bytes => if origin = source ∧ Harmless source s bytes then quietStep s a else none
  | _ => quietStep s a

def handling : ServerPc → Bool
  | .dispatch => true
  | .find => true
  | .subscribe => true
  | .refresh _ => true
  | _ => false

def settled : ServerPc → Bool
  | .loop => true
  | .receive => true
  | .drain => true
  | .requestStop => true
  | .join => true
  | .finish => true
  | .requestLast => true
  | .joinLast => true
  | .returned => true
  | _ => false

def IsDatagram (a : Action) : Prop := ∃ source bytes, a = .datagram source bytes

theorem quiet_step {s t : State} {a : Action} (quiet : quietStep s a = some t) :
    s.step a = some t ∧ ¬CountsUp s a ∧ a ≠ .receiveTimeout := by
  cases a with
  | receiveTimeout => cases quiet
  | datagram | server | sender | stop =>
    simp only [quietStep] at quiet
    split at quiet
    · cases quiet
    · rename_i silent
      exact ⟨quiet, silent, by simp⟩

theorem harmless_step {source : Address} {s t : State} {a : Action} (step : harmlessStep source s a = some t) :
    quietStep s a = some t ∧ ∀ origin bytes, a = .datagram origin bytes → origin = source ∧ Harmless source s bytes := by
  cases a with
  | datagram origin bytes =>
    simp only [harmlessStep] at step
    split at step
    · rename_i allowed
      refine ⟨step, ?_⟩
      intro origin' bytes' same
      obtain ⟨rfl, rfl⟩ := Action.datagram.inj same
      exact allowed
    · cases step
  | receiveTimeout | server | sender | stop =>
    refine ⟨step, ?_⟩
    intro origin bytes other
    cases other

theorem sender_place {s t : State} {run : Nat} {motion : CemuhookAdapter.MotionData}
    (step : s.step (.sender run motion) = some t) : t.pc = s.pc ∧ t.source = s.source := by
  cases step_cases step with
  | sender _ _ sender here moves => cases moves <;> exact ⟨rfl, rfl⟩

structure ServerMoves (s t : State) : Prop where
  source : t.source = s.source
  scan : t.pc ≠ .scan true
  handling : handling t.pc = true → handling s.pc = true
  settled : settled s.pc = true → settled t.pc = true

theorem server_moves {s t : State} (moves : ServerStep s t) : ServerMoves s t := by
  cases moves <;> constructor <;>
    simp_all [handling, settled, State.answer, State.subscribe, State.spawn, State.setSender, State.refresh,
      State.scan, State.requestStop]

theorem step_place {s t : State} {a : Action} (step : s.step a = some t) :
    (t.pc = .scan true → s.pc = .scan true ∨ a = .receiveTimeout ∨
      ∃ origin bytes, a = .datagram origin bytes ∧ bytes.length < headerSize) ∧
    (handling t.pc = true → (handling s.pc = true ∧ t.source = s.source) ∨
      ∃ bytes, a = .datagram t.source bytes) := by
  cases step_cases step with
  | header source bytes pc long =>
    constructor
    · intro other
      cases other
    · intro _
      exact Or.inr ⟨bytes, rfl⟩
  | short source bytes pc short =>
    constructor
    · intro _
      exact Or.inr (Or.inr ⟨source, bytes, rfl, short⟩)
    · intro other
      cases other
  | receiveTimeout pc =>
    constructor
    · intro _
      exact Or.inr (Or.inl rfl)
    · intro other
      cases other
  | server moves =>
    have stays := server_moves moves
    constructor
    · intro scans
      exact absurd scans stays.scan
    · intro handles
      exact Or.inl ⟨stays.handling handles, stays.source⟩
  | sender run motion =>
    obtain ⟨pc, source⟩ := sender_place step
    constructor
    · intro scans
      exact Or.inl (pc ▸ scans)
    · intro handles
      exact Or.inl ⟨pc ▸ handles, source⟩
  | stop =>
    constructor
    · intro scans
      exact Or.inl scans
    · intro handles
      exact Or.inl ⟨handles, rfl⟩

theorem mem_others {source : Address} {s : State} {c : Client} :
    c ∈ others source s ↔ c ∈ s.clients ∧ c.address ≠ source := by
  simp [others]

theorem subscribe_others (s : State) : others s.source s.subscribe = others s.source s := by
  simp [others, State.subscribe]

theorem filter_modify (keep : Client → Bool) (change : Client → Client) (clients : List Client) (i : Nat)
    {c : Client} (here : clients[i]? = some c) (before : keep c = false) (after : keep (change c) = false) :
    (clients.modify i change).filter keep = clients.filter keep := by
  induction clients generalizing i with
  | nil => simp
  | cons first clients ih =>
    cases i with
    | zero =>
      obtain rfl : first = c := by simpa using here
      simp [before, after]
    | succ i =>
      have rest := ih i (by simpa using here)
      simp only [List.modify_succ_cons, List.filter_cons, rest]

theorem refresh_others {s : State} {i : Nat} {c : Client} (here : s.clients[i]? = some c)
    (address : c.address = s.source) : others s.source (s.refresh i) = others s.source s :=
  filter_modify _ _ s.clients i here (by simp [address]) (by simp [address])

theorem scan_others (source : Address) (s : State) (increment : Bool) :
    others source (s.scan increment) =
      (scanned increment (others source s)).filter fun c => !c.timedOut := by
  have commutes : (scanned increment s.clients).filter (fun c => c.address ≠ source) =
      scanned increment (others source s) := by
    cases increment with
    | false => rfl
    | true =>
      simp only [scanned, if_true, others, List.filter_map]
      rfl
  rw [← commutes, others, State.scan, scanClients_eq, List.filter_comm]

theorem unharmed_refl (source : Address) (s : State) : Unharmed source s s :=
  ⟨List.Sublist.refl _, fun _ member _ => member⟩

theorem unharmed_trans {source : Address} {s t u : State} (first : Unharmed source s t)
    (second : Unharmed source t u) : Unharmed source s u :=
  ⟨second.unchanged.trans first.unchanged,
    fun c member young => second.kept c (first.kept c member young) young⟩

theorem unharmed_same {source : Address} {s t : State} (same : others source t = others source s) :
    Unharmed source s t := by
  constructor
  · rw [same]
  · intro c member _
    rw [same]
    exact member

theorem scan_unharmed {source : Address} {s : State} {increment : Bool}
    (aged : increment = true → ∀ c ∈ others source s, cSendTimeout < c.sendTimeout) :
    Unharmed source s (s.scan increment) := by
  cases increment with
  | false =>
    constructor
    · rw [scan_others]
      exact List.filter_sublist
    · intro c member young
      rw [scan_others]
      apply List.mem_filter.mpr
      constructor
      · exact member
      · simpa [Client.timedOut] using young
  | true =>
    have none_left : others source (s.scan true) = [] := by
      rw [scan_others, List.filter_eq_nil_iff]
      intro c member
      obtain ⟨old, old_member, rfl⟩ := mem_scanned.mp member
      have := aged rfl old old_member
      simp only [Client.timedOut, Bool.not_eq_true', decide_eq_false_iff_not, Bool.toNat_true, not_not]
      omega
    constructor
    · rw [none_left]
      exact List.nil_sublist _
    · intro c member young
      exact absurd (aged rfl c member) (not_lt.mpr young)

/-- What a run of harmless steps keeps: whose request serverTask handles, where it has
    found the sender, and that it counts only old clients. -/
structure Guarded (source : Address) (s : State) : Prop where
  aged : s.pc = .scan true → ∀ c ∈ others source s, cSendTimeout < c.sendTimeout
  handled : handling s.pc = true → s.source = source
  located : Located s

theorem settled_not_handling {pc : ServerPc} (between : settled pc = true) : handling pc = false := by
  cases pc <;> simp_all [settled, handling]

theorem settled_guarded {source : Address} {s : State} (between : settled s.pc = true) : Guarded source s := by
  constructor
  · intro pc
    rw [pc] at between
    cases between
  · intro handles
    rw [settled_not_handling between] at handles
    cases handles
  · apply elsewhere_located
    · intro pc
      rw [pc] at between
      cases between
    · intro i pc
      rw [pc] at between
      cases between

theorem guarded_step {source : Address} {s t : State} {a : Action} (h : Guarded source s)
    (quiet : quietStep s a = some t)
    (harmless : ∀ origin bytes, a = .datagram origin bytes → origin = source ∧ Harmless source s bytes) :
    Guarded source t ∧ Unharmed source s t := by
  obtain ⟨step, no_tick, no_timeout⟩ := quiet_step quiet
  obtain ⟨scans, handles⟩ := step_place step
  have handled : handling t.pc = true → t.source = source := by
    intro now
    rcases handles now with ⟨before, same⟩ | ⟨bytes, rfl⟩
    · rw [same]
      exact h.handled before
    · exact (harmless _ _ rfl).1
  have located := step_located h.located step
  cases step_clients step with
  | pass clients _ _ =>
    have same : others source t = others source s := by
      unfold others
      rw [clients]
    refine ⟨⟨?_, handled, located⟩, unharmed_same same⟩
    intro now
    rw [same]
    rcases scans now with before | timeout | ⟨origin, bytes, rfl, short⟩
    · exact h.aged before
    · exact absurd timeout no_timeout
    · exact (harmless origin bytes rfl).2.resolve_left (not_le.mpr short)
  | subscribe _ pc same =>
    subst same
    have from_there : s.source = source := h.handled (by rw [pc]; rfl)
    refine ⟨⟨?_, handled, located⟩, unharmed_same (from_there ▸ subscribe_others s)⟩
    intro other
    cases other
  | refresh _ i pc same =>
    subst same
    have from_there : s.source = source := h.handled (by rw [pc]; rfl)
    obtain ⟨c, here, address⟩ := h.located.2 i pc
    refine ⟨⟨?_, handled, located⟩, unharmed_same (from_there ▸ refresh_others here address)⟩
    intro other
    cases other
  | scan _ increment pc same =>
    subst same
    refine ⟨⟨?_, handled, located⟩, scan_unharmed ?_⟩
    · intro other
      cases other
    · intro counts
      exact h.aged (counts ▸ pc)
  | countUp counts _ _ => exact absurd counts no_tick

theorem guarded_run {source : Address} {s t : State} {as : List Action} (between : settled s.pc = true)
    (run : Runs.Run (harmlessStep source) s as t) : Guarded source t ∧ Unharmed source s t := by
  refine Runs.run_invariant (fun u => Guarded source u ∧ Unharmed source s u) ?_ run ?_
  · intro u a v h step
    obtain ⟨quiet, harmless⟩ := harmless_step step
    obtain ⟨guarded, unharmed⟩ := guarded_step h.1 quiet harmless
    exact ⟨guarded, unharmed_trans h.2 unharmed⟩
  · exact ⟨settled_guarded between, unharmed_refl source s⟩

theorem harmless_datagram {source : Address} {s u t : State} {bytes : List UInt8} {as : List Action}
    (arrives : s.step (.datagram source bytes) = some u) (run : Runs.Run quietStep u as t)
    (alone : ∀ a ∈ as, ¬IsDatagram a) (harmless : Harmless source s bytes) : Unharmed source s t := by
  have quiet : quietStep s (.datagram source bytes) = some u := by
    simp only [quietStep]
    rw [if_neg, arrives]
    rintro ⟨_, _, _, other, _⟩
    cases other
  have receiving : settled s.pc = true := by
    cases step_cases arrives with
    | header _ _ pc | short _ _ pc =>
      rw [pc]
      rfl
  have first := guarded_step (settled_guarded receiving) quiet fun origin bytes' same => by
    obtain ⟨rfl, rfl⟩ := Action.datagram.inj same
    exact ⟨rfl, harmless⟩
  refine (Runs.run_invariant_of (fun v => Guarded source v ∧ Unharmed source s v)
    (fun a => ¬IsDatagram a) ?_ run alone first).2
  intro v a w h other step
  have next := guarded_step h.1 step fun origin bytes' same => absurd ⟨origin, bytes', same⟩ other
  exact ⟨next.1, unharmed_trans h.2 next.2⟩

def Aging (s t : State) : Prop :=
  (t.pc = .scan true ∧ t.clients = s.clients) ∨
    (settled t.pc = true ∧ t.clients = scanClients true s.clients)

theorem short_aging {source : Address} {s u : State} {bytes : List UInt8}
    (arrives : s.step (.datagram source bytes) = some u) (short : ¬headerSize ≤ bytes.length) : Aging s u := by
  cases step_cases arrives with
  | header _ _ pc long => exact absurd long short
  | short _ _ pc _ => exact Or.inl ⟨rfl, rfl⟩

theorem settled_clients {s t : State} {a : Action} (between : settled s.pc = true)
    (step : s.step a = some t) (no_tick : ¬CountsUp s a) : t.clients = s.clients := by
  cases step_clients step with
  | pass clients _ _ => exact clients
  | subscribe _ pc _ | refresh _ _ pc _ | scan _ _ pc _ =>
    rw [pc] at between
    cases between
  | countUp counts _ _ => exact absurd counts no_tick

theorem aging_step {s t u : State} {a : Action} (h : Aging s t) (quiet : quietStep t a = some u)
    (other : ¬IsDatagram a) : Aging s u := by
  obtain ⟨step, no_tick, no_timeout⟩ := quiet_step quiet
  rcases h with ⟨pc, clients⟩ | ⟨between, clients⟩
  · cases a with
    | datagram origin bytes => exact absurd ⟨origin, bytes, rfl⟩ other
    | receiveTimeout => exact absurd rfl no_timeout
    | server =>
      right
      rw [scan_step pc step, ← clients]
      exact ⟨rfl, rfl⟩
    | sender run motion =>
      left
      obtain ⟨same, _⟩ := sender_place step
      refine ⟨same.trans pc, ?_⟩
      cases step_clients step with
      | pass same _ _ => exact same.trans clients
      | countUp counts _ _ => exact absurd counts no_tick
      | subscribe server | refresh server | scan server => cases server
    | stop =>
      left
      obtain rfl := Option.some.inj step
      exact ⟨pc, clients⟩
  · right
    refine ⟨?_, (settled_clients between step no_tick).trans clients⟩
    cases a with
    | datagram origin bytes => exact absurd ⟨origin, bytes, rfl⟩ other
    | receiveTimeout => exact absurd rfl no_timeout
    | server => exact (server_moves (serverStep_cases step)).settled between
    | sender run motion =>
      rw [(sender_place step).1]
      exact between
    | stop =>
      obtain rfl := Option.some.inj step
      exact between

/-- A client that is still there unchanged has taken the place of one a tick younger. -/
theorem aging_harms {source : Address} {s t : State} (clients : t.clients = scanClients true s.clients)
    (unharmed : Unharmed source s t) : ∀ c ∈ others source s, cSendTimeout < c.sendTimeout := by
  have earlier : ∀ c ∈ others source s, c.sendTimeout ≤ cSendTimeout →
      ∃ old ∈ others source s, c.sendTimeout = old.sendTimeout + 1 := by
    intro c member young
    have kept := (mem_others.mp (unharmed.kept c member young)).1
    rw [clients, scanClients_eq] at kept
    obtain ⟨old, old_member, rfl⟩ := mem_scanned.mp (List.mem_filter.mp kept).1
    exact ⟨old, mem_others.mpr ⟨old_member, (mem_others.mp member).2⟩, rfl⟩
  have none_young : ∀ n, n ≤ cSendTimeout → ∀ c ∈ others source s, c.sendTimeout ≠ n := by
    intro n
    induction n with
    | zero =>
      intro bound c member age
      obtain ⟨old, _, next⟩ := earlier c member (age ▸ bound)
      omega
    | succ n ih =>
      intro bound c member age
      obtain ⟨old, old_member, next⟩ := earlier c member (age ▸ bound)
      exact ih (by omega) old old_member (by omega)
  intro c member
  by_contra young
  exact none_young c.sendTimeout (not_lt.mp young) c member rfl

/-- A datagram spares the other clients exactly when it has a whole header or they are too
    old anyway; and no sequence of such datagrams does more than remove old clients. -/
theorem unharmed_iff_harmless (source : Address) (s : State) :
    (∀ (u t : State) (bytes : List UInt8) (as : List Action),
      s.step (.datagram source bytes) = some u → Runs.Run quietStep u as t →
      (∀ a ∈ as, ¬IsDatagram a) → t.pc = .loop →
      (Unharmed source s t ↔
        headerSize ≤ bytes.length ∨ ∀ c ∈ others source s, cSendTimeout < c.sendTimeout)) ∧
    ∀ (t : State) (as : List Action), settled s.pc = true → Runs.Run (harmlessStep source) s as t →
      Unharmed source s t := by
  constructor
  · intro u t bytes as arrives run alone done
    constructor
    · intro unharmed
      by_cases long : headerSize ≤ bytes.length
      · exact Or.inl long
      · right
        have at_end : Aging s t := Runs.run_invariant_of (Aging s) (fun a => ¬IsDatagram a)
          (fun v a w h other step => aging_step h step other) run alone (short_aging arrives long)
        rcases at_end with ⟨scanning, _⟩ | ⟨_, clients⟩
        · rw [done] at scanning
          cases scanning
        · exact aging_harms clients unharmed
    · intro harmless
      exact harmless_datagram arrives run alone harmless
  · intro t as between run
    exact (guarded_run between run).2

def subscribed : Option State := Runs.execute State.step started (subscribing ⟨1, 1⟩ 7 ++ [.server])

theorem second_executed :
    (subscribed.bind fun s => (s.step (.datagram ⟨2, 2⟩ (dataRequest 8))).bind fun u =>
      (Runs.execute quietStep u (List.replicate 5 .server)).map fun t => (t.pc, t.clients.length)) =
      some (.loop, 2) := by
  rfl

theorem unharmed_iff_harmless_second :
    ∃ s u t, s.step (.datagram ⟨2, 2⟩ (dataRequest 8)) = some u ∧
      Runs.Run quietStep u (List.replicate 5 .server) t ∧ t.pc = .loop ∧ t.clients.length = 2 ∧
      Unharmed ⟨2, 2⟩ s t := by
  obtain ⟨s, _, rest⟩ := Option.bind_eq_some_iff.mp second_executed
  obtain ⟨u, arrives, rest⟩ := Option.bind_eq_some_iff.mp rest
  obtain ⟨t, done, now⟩ := Option.map_eq_some_iff.mp rest
  have run : Runs.Run quietStep u (List.replicate 5 .server) t := Runs.run_of_execute done
  have pc : t.pc = .loop := congrArg Prod.fst now
  refine ⟨s, u, t, arrives, run, pc, congrArg Prod.snd now, ?_⟩
  apply ((unharmed_iff_harmless ⟨2, 2⟩ s).1 u t (dataRequest 8) _ arrives run ?_ pc).mpr
  · left
    decide
  · rintro a member ⟨source, bytes, rfl⟩
    cases List.eq_of_mem_replicate member

def flood : List Action :=
  (List.replicate 3 [.datagram ⟨2, 2⟩ [], .server, .server, .server]).flatten ++ [.datagram ⟨2, 2⟩ [], .server]

theorem flood_executed :
    (subscribed.bind fun s => (Runs.execute quietStep s flood).map fun t => (s.clients, t.clients)) =
      some ([⟨⟨1, 1⟩, 7, 0⟩], []) := by
  rfl

theorem short_datagrams_evict :
    ∃ s t, Runs.Reachable State.step Starts s ∧ Runs.Run quietStep s flood.reverse t ∧
      (∀ a ∈ flood, a = .server ∨ a = .datagram ⟨2, 2⟩ []) ∧ s.clients = [⟨⟨1, 1⟩, 7, 0⟩] ∧
      t.clients = [] ∧ ¬Unharmed ⟨2, 2⟩ s t := by
  obtain ⟨s, first, rest⟩ := Option.bind_eq_some_iff.mp flood_executed
  obtain ⟨t, second, now⟩ := Option.map_eq_some_iff.mp rest
  have before : s.clients = [⟨⟨1, 1⟩, 7, 0⟩] := congrArg Prod.fst now
  have after : t.clients = [] := congrArg Prod.snd now
  refine ⟨s, t, started_reachable first, Runs.run_of_execute second, by simp [flood], before, after, ?_⟩
  intro unharmed
  have client : (⟨⟨1, 1⟩, 7, 0⟩ : Client) ∈ others ⟨2, 2⟩ s := by simp [others, before]
  have kept := unharmed.kept _ client (by decide)
  simp [others, after] at kept

end ForeignDatagrams
