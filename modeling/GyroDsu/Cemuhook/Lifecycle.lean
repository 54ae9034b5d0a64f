import GyroDsu.Cemuhook.Server

/-
The send thread: at most one run of sendTask is alive, it lives while there are
clients, and it is asked to stop and joined before the next one is launched.
-/
namespace Lifecycle
open Server InfoRequests

def Alive (s : State) (run : Nat) : Prop :=
  ∃ sender, s.senders run = some sender ∧ sender.pc ≠ .done

def Requested (s : State) (run : Nat) : Prop := .stopRequest run ∈ s.log

/-- Which run is between StartFrameGrab and StopFrameGrab after these calls, newest first.
    No answer means that a call came at the wrong place. -/
def grabbing : List Call → Option (Option Nat)
  | [] => some none
  | .startFrameGrab run :: calls => if grabbing calls = some none then some (some run) else none
  | .setMotionDataNewFrame run :: calls =>
    if grabbing calls = some (some run) then some (some run) else none
  | .stopFrameGrab run :: calls => if grabbing calls = some (some run) then some none else none

/-- The run owned by sendThread is the only one that may be alive, and the motion source
    is started and stopped by it. -/
structure Threads (s : State) : Prop where
  owned : ∀ run, Alive s run → s.sendThread = some run
  known : ∀ run, s.sendThread = some run → s.senders run ≠ none
  fresh : ∀ run, s.senders run ≠ none → run < s.runs
  working : ∀ run sender, s.senders run = some sender → sender.pc ≠ .start → sender.pc ≠ .done →
    grabbing s.calls = some (some run) ∧ s.frameServe = true
  resting : (∀ run sender, s.senders run = some sender → sender.pc = .start ∨ sender.pc = .done) →
    grabbing s.calls = some none

structure Requests (s : State) : Prop where
  issued : ∀ run, Requested s run → run < s.runs
  flag : ∀ run, Alive s run → (s.stopSending = true ↔ Requested s run)
  obeyed : ∀ run sender, s.senders run = some sender → sender.pc = .stopGrab ∨ sender.pc = .done →
    Requested s run
  pending : ∀ run, s.sendThread = some run → Requested s run →
    s.pc = .join ∨ s.pc = .joinLast ∨ s.pc = .returned

def Place (s : State) : Prop :=
  match s.pc with
  | .launch => s.clients ≠ []
  | .spawn => s.clients ≠ [] ∧ s.sendThread = none ∧ s.stopSending = false
  | .drain => s.clients ≠ [] → s.sendThread ≠ none
  | .requestStop | .join => s.sendThread ≠ none ∧ s.clients = []
  | .requestLast | .joinLast => s.sendThread ≠ none
  | .returned => ∀ run, ¬Alive s run
  | _ => s.sendThread ≠ none ↔ s.clients ≠ []

structure Sound (s : State) : Prop where
  threads : Threads s
  requests : Requests s
  place : Place s

theorem starts_sound {s : State} (h : Starts s) : Sound s := by
  have nobody : ∀ run, ¬Alive s run := by
    rintro run ⟨sender, here, _⟩
    rw [h.senders run] at here
    cases here
  have nothing : ∀ run, ¬Requested s run := by
    intro run requested
    rw [Requested, h.log] at requested
    cases requested
  constructor
  · constructor
    · intro run alive
      exact absurd alive (nobody run)
    · intro run owned
      rw [h.sendThread] at owned
      cases owned
    · intro run known
      exact absurd (h.senders run) known
    · intro run sender here
      rw [h.senders run] at here
      cases here
    · intro _
      rw [h.calls]
      rfl
  · constructor
    · intro run requested
      exact absurd requested (nothing run)
    · intro run alive
      exact absurd alive (nobody run)
    · intro run sender here
      rw [h.senders run] at here
      cases here
    · intro run _ requested
      exact absurd requested (nothing run)
  · simp only [Place, h.pc, h.sendThread, h.clients, ne_eq, not_true_eq_false]

/-- Nobody but the owned run moves, so all others have finished. -/
theorem others_done {s : State} (h : Threads s) {run : Nat} (alive : Alive s run) {other : Nat}
    {sender : Sender} (here : s.senders other = some sender) (differs : other ≠ run) : sender.pc = .done := by
  by_contra unfinished
  have first := h.owned run alive
  have second := h.owned other ⟨sender, here, unfinished⟩
  exact differs (Option.some.inj (second.symm.trans first))

theorem threads_move {s t : State} (h : Threads s) {run : Nat} {sender next : Sender}
    (here : s.senders run = some sender) (unfinished : sender.pc ≠ .done)
    (moved : t.senders = (s.setSender run next).senders) (owner : t.sendThread = s.sendThread)
    (runs : t.runs = s.runs)
    (inside : next.pc ≠ .start → next.pc ≠ .done →
      grabbing t.calls = some (some run) ∧ t.frameServe = true)
    (outside : next.pc = .start ∨ next.pc = .done → grabbing t.calls = some none) : Threads t := by
  have alive : Alive s run := ⟨sender, here, unfinished⟩
  have others : ∀ r sender', r ≠ run → t.senders r = some sender' → sender'.pc = .done := by
    intro r sender' differs there
    rw [moved, setSender_other s next differs] at there
    exact others_done h alive there differs
  constructor
  · rintro r ⟨sender', there, unfinished'⟩
    rw [owner]
    by_cases same : r = run
    · rw [same]
      exact h.owned run alive
    · exact absurd (others r sender' same there) unfinished'
  · intro r owned
    rw [owner] at owned
    rw [moved]
    by_cases same : r = run
    · simp [same]
    · rw [setSender_other s next same]
      exact h.known r owned
  · intro r known
    rw [runs]
    by_cases same : r = run
    · rw [same]
      exact h.fresh run (by simp [here])
    · rw [moved, setSender_other s next same] at known
      exact h.fresh r known
  · intro r sender' there not_start not_done
    by_cases same : r = run
    · rw [same, moved, setSender_same] at there
      obtain rfl := Option.some.inj there
      rw [same]
      exact inside not_start not_done
    · exact absurd (others r sender' same there) not_done
  · intro rests
    exact outside (rests run next (by rw [moved, setSender_same]))

theorem alive_before {s t : State} (h : Threads s) {run : Nat} {sender next : Sender}
    (here : s.senders run = some sender) (unfinished : sender.pc ≠ .done)
    (moved : t.senders = (s.setSender run next).senders) {r : Nat} (alive : Alive t r) : Alive s r := by
  obtain ⟨sender', there, unfinished'⟩ := alive
  by_cases same : r = run
  · rw [same]
    exact ⟨sender, here, unfinished⟩
  · rw [moved, setSender_other s next same] at there
    exact absurd (others_done h ⟨sender, here, unfinished⟩ there same) unfinished'

theorem sender_sound {s t : State} (h : Sound s) {run : Nat} {sender next : Sender}
    (here : s.senders run = some sender) (unfinished : sender.pc ≠ .done)
    (moved : t.senders = (s.setSender run next).senders)
    (kept : t.sendThread = s.sendThread ∧ t.runs = s.runs ∧ t.stopSending = s.stopSending ∧ t.pc = s.pc)
    (requests : ∀ r, Requested t r ↔ Requested s r) (clients : t.clients = [] ↔ s.clients = [])
    (obeys : next.pc = .stopGrab ∨ next.pc = .done → Requested s run)
    (inside : next.pc ≠ .start → next.pc ≠ .done →
      grabbing t.calls = some (some run) ∧ t.frameServe = true)
    (outside : next.pc = .start ∨ next.pc = .done → grabbing t.calls = some none) : Sound t := by
  obtain ⟨owner, runs, flag, pc⟩ := kept
  have before : ∀ r, Alive t r → Alive s r := fun r => alive_before h.threads here unfinished moved
  constructor
  · exact threads_move h.threads here unfinished moved owner runs inside outside
  · constructor
    · intro r requested
      rw [runs]
      exact h.requests.issued r ((requests r).mp requested)
    · intro r alive
      rw [flag, requests]
      exact h.requests.flag r (before r alive)
    · intro r sender' there ends
      rw [requests]
      rw [moved] at there
      by_cases same : r = run
      · rw [same, setSender_same] at there
        obtain rfl := Option.some.inj there
        rw [same]
        exact obeys ends
      · rw [setSender_other s next same] at there
        exact h.requests.obeyed r sender' there ends
    · intro r owned requested
      rw [owner] at owned
      rw [requests] at requested
      rw [pc]
      exact h.requests.pending r owned requested
  · have place := h.place
    unfold Place at place ⊢
    rw [pc, owner, flag]
    simp only [ne_eq, clients]
    cases at_pc : s.pc with
    | returned =>
      simp only [at_pc] at place ⊢
      intro r alive
      exact place r (before r alive)
    | _ => simpa only [at_pc] using place

theorem working_sound {s t : State} (h : Sound s) {run : Nat} {sender next : Sender}
    (here : s.senders run = some sender) (works : sender.pc ≠ .start ∧ sender.pc ≠ .done)
    (moved : t.senders = (s.setSender run next).senders)
    (kept : t.sendThread = s.sendThread ∧ t.runs = s.runs ∧ t.stopSending = s.stopSending ∧ t.pc = s.pc)
    (requests : ∀ r, Requested t r ↔ Requested s r) (clients : t.clients = [] ↔ s.clients = [])
    (obeys : next.pc = .stopGrab → Requested s run) (on : next.pc ≠ .start ∧ next.pc ≠ .done)
    (calls : grabbing s.calls = some (some run) → grabbing t.calls = some (some run))
    (grab : t.frameServe = s.frameServe) : Sound t := by
  obtain ⟨inside, served⟩ := h.threads.working run sender here works.1 works.2
  refine sender_sound h here works.2 moved kept requests clients ?_ ?_ ?_
  · rintro (stops | ends)
    · exact obeys stops
    · exact absurd ends on.2
  · intro _ _
    exact ⟨calls inside, grab.trans served⟩
  · rintro (starts | ends)
    · exact absurd starts on.1
    · exact absurd ends on.2

theorem senderStep_sound {s t : State} (h : Sound s) {run : Nat} {sender : Sender}
    {motion : CemuhookAdapter.MotionData} (here : s.senders run = some sender)
    (moves : SenderStep s run sender motion t) : Sound t := by
  cases moves with
  | start pc =>
    have alive : Alive s run := ⟨sender, here, by simp [pc]⟩
    have rests : grabbing s.calls = some none := by
      apply h.threads.resting
      intro r sender' there
      by_cases same : r = run
      · rw [same, here] at there
        obtain rfl := Option.some.inj there
        exact Or.inl pc
      · exact Or.inr (others_done h.threads alive there same)
    refine sender_sound h here (by simp [pc]) (by rfl) (by trivial) (by intro r; rfl) (by rfl)
      ?_ ?_ ?_
    · rintro (ends | ends) <;> cases ends
    · intro _ _
      exact ⟨by simp only [grabbing, rests, if_true], rfl⟩
    · rintro (ends | ends) <;> cases ends
  | stops pc flag =>
    have alive : Alive s run := ⟨sender, here, by simp [pc]⟩
    refine working_sound h here (by simp [pc]) (by rfl) (by trivial) (by intro r; rfl) (by rfl)
      ?_ (by simp) id (by rfl)
    intro _
    exact (h.requests.flag run alive).mp flag
  | goes pc =>
    exact working_sound h here (by simp [pc]) (by rfl) (by trivial) (by intro r; rfl) (by rfl)
      (by simp) (by simp) id (by rfl)
  | prepare pc =>
    refine working_sound h here (by simp [pc]) (by rfl) (by trivial) (by intro r; rfl) (by rfl)
      (by simp) (by simp) ?_ (by rfl)
    intro inside
    simp only [grabbing, inside, if_true]
  | broadcast pc =>
    refine working_sound h here (by simp [pc]) (by rfl) (by trivial) ?_ (by rfl) (by simp) (by simp)
      id (by rfl)
    intro r
    simp only [Requested, List.mem_cons, reduceCtorEq, false_or]
  | tick pc period =>
    refine working_sound h here (by simp [pc]) (by rfl) (by trivial) ?_ List.map_eq_nil_iff (by simp)
      (by simp) id (by rfl)
    intro r
    simp only [Requested, List.mem_cons, reduceCtorEq, false_or]
  | noTick pc period =>
    exact working_sound h here (by simp [pc]) (by rfl) (by trivial) (by intro r; rfl) (by rfl)
      (by simp) (by simp) id (by rfl)
  | stopGrab pc =>
    have works := h.threads.working run sender here (by simp [pc]) (by simp [pc])
    refine sender_sound h here (by simp [pc]) (by rfl) (by trivial) (by intro r; rfl) (by rfl)
      ?_ ?_ ?_
    · intro _
      exact h.requests.obeyed run sender here (Or.inl pc)
    · intro _ not_done
      exact absurd rfl not_done
    · intro _
      simp only [grabbing, works.1, if_true]

theorem server_pass {s t : State} (h : Sound s)
    (kept : t.senders = s.senders ∧ t.sendThread = s.sendThread ∧ t.runs = s.runs ∧
      t.calls = s.calls ∧ t.frameServe = s.frameServe ∧ t.stopSending = s.stopSending)
    (requests : ∀ run, Requested t run ↔ Requested s run)
    (leaves : s.pc ≠ .join ∧ s.pc ≠ .joinLast ∧ s.pc ≠ .returned) (place : Place t) : Sound t := by
  obtain ⟨senders, owner, runs, calls, grab, flag⟩ := kept
  have alive : ∀ run, Alive t run ↔ Alive s run := by
    intro run
    rw [Alive, Alive, senders]
  constructor
  · constructor
    · intro run
      rw [alive, owner]
      exact h.threads.owned run
    · intro run
      rw [owner, senders]
      exact h.threads.known run
    · intro run
      rw [senders, runs]
      exact h.threads.fresh run
    · intro run sender
      rw [senders, calls, grab]
      exact h.threads.working run sender
    · rw [senders, calls]
      exact h.threads.resting
  · constructor
    · intro run
      rw [requests, runs]
      exact h.requests.issued run
    · intro run
      rw [alive, flag, requests]
      exact h.requests.flag run
    · intro run sender
      rw [senders, requests]
      exact h.requests.obeyed run sender
    · intro run owned requested
      rw [owner] at owned
      rw [requests] at requested
      rcases h.requests.pending run owned requested with at_join | at_last | at_end
      · exact absurd at_join leaves.1
      · exact absurd at_last leaves.2.1
      · exact absurd at_end leaves.2.2
  · exact place

theorem nobody_alive {s : State} (h : Threads s) (owner : s.sendThread = none) (run : Nat) :
    ¬Alive s run := by
  intro alive
  have owned := h.owned run alive
  rw [owner] at owned
  cases owned

/-- After the join nobody is alive: the owned run was the only one that could be. -/
theorem joined_nobody {s : State} (h : Threads s) {run : Nat} (owner : s.sendThread = some run)
    (finished : s.joinable run) (other : Nat) : ¬Alive s other := by
  rintro ⟨sender, here, unfinished⟩
  obtain ⟨sender', there, ends⟩ := finished
  have owned := h.owned other ⟨sender, here, unfinished⟩
  obtain rfl : run = other := Option.some.inj (owner.symm.trans owned)
  obtain rfl := Option.some.inj (here.symm.trans there)
  exact unfinished ends

theorem spawn_sound {s : State} (h : Sound s) (owner : s.sendThread = none) (flag : s.stopSending = false)
    (clients : s.clients ≠ []) : Sound s.spawn := by
  have nobody := nobody_alive h.threads owner
  have all_done : ∀ run sender, s.senders run = some sender → sender.pc = .done := by
    intro run sender here
    by_contra unfinished
    exact nobody run ⟨sender, here, unfinished⟩
  have not_requested : ¬Requested s s.runs := by
    intro requested
    exact Nat.lt_irrefl _ (h.requests.issued s.runs requested)
  constructor
  · constructor
    · rintro run ⟨sender, here, unfinished⟩
      rcases setSender_cases here with ⟨rfl, _⟩ | ⟨_, before⟩
      · rfl
      · exact absurd (all_done run sender before) unfinished
    · intro run owned
      obtain rfl : s.runs = run := Option.some.inj owned
      rw [State.spawn, setSender_same]
      exact Option.some_ne_none _
    · intro run known
      obtain ⟨sender, here⟩ := Option.ne_none_iff_exists'.mp known
      rcases setSender_cases here with ⟨rfl, _⟩ | ⟨_, before⟩
      · exact Nat.lt_succ_self _
      · exact Nat.lt_succ_of_lt (h.threads.fresh run (by simp [before]))
    · intro run sender here not_start not_done
      rcases setSender_cases here with ⟨_, rfl⟩ | ⟨_, before⟩
      · exact absurd rfl not_start
      · exact absurd (all_done run sender before) not_done
    · intro _
      exact h.threads.resting fun run sender here => Or.inr (all_done run sender here)
  · constructor
    · intro run requested
      exact Nat.lt_succ_of_lt (h.requests.issued run requested)
    · rintro run ⟨sender, here, unfinished⟩
      rcases setSender_cases here with ⟨rfl, _⟩ | ⟨_, before⟩
      · exact iff_of_false (by simp [State.spawn, State.setSender, flag]) not_requested
      · exact absurd (all_done run sender before) unfinished
    · intro run sender here ends
      rcases setSender_cases here with ⟨_, rfl⟩ | ⟨_, before⟩
      · rcases ends with ends | ends <;> cases ends
      · exact h.requests.obeyed run sender before ends
    · intro run owned requested
      obtain rfl : s.runs = run := Option.some.inj owned
      exact absurd requested not_requested
  · exact iff_of_true (Option.some_ne_none _) clients

theorem requestStop_sound {s : State} (h : Sound s) {run : Nat} (owner : s.sendThread = some run)
    (next : ServerPc) (waits : next = .join ∧ s.clients = [] ∨ next = .joinLast) :
    Sound (s.requestStop run next) := by
  constructor
  · exact ⟨h.threads.owned, h.threads.known, h.threads.fresh, h.threads.working, h.threads.resting⟩
  · constructor
    · intro r requested
      rcases List.mem_cons.mp requested with now | before
      · obtain rfl := Event.stopRequest.inj now
        exact h.threads.fresh r (h.threads.known r owner)
      · exact h.requests.issued r before
    · intro r alive
      obtain rfl : run = r := Option.some.inj (owner.symm.trans (h.threads.owned r alive))
      exact iff_of_true rfl List.mem_cons_self
    · intro r sender here ends
      exact List.mem_cons_of_mem _ (h.requests.obeyed r sender here ends)
    · intro _ _ _
      rcases waits with ⟨rfl, _⟩ | rfl
      · exact Or.inl rfl
      · exact Or.inr (Or.inl rfl)
  · have owned : s.sendThread ≠ none := by simp [owner]
    rcases waits with ⟨rfl, clients⟩ | rfl
    · exact ⟨owned, clients⟩
    · exact owned

theorem scanClients_nil (increment : Bool) : scanClients increment [] = [] := rfl

theorem launch_sound {s : State} (h : Sound s) (owner : s.sendThread = none) (clients : s.clients ≠ []) :
    Sound { s with stopSending := false, pc := .spawn } := by
  have nobody := nobody_alive h.threads owner
  constructor
  · exact ⟨h.threads.owned, h.threads.known, h.threads.fresh, h.threads.working, h.threads.resting⟩
  · refine ⟨h.requests.issued, ?_, h.requests.obeyed, ?_⟩
    · intro run alive
      exact absurd alive (nobody run)
    · intro run owned
      simp only [owner] at owned
      cases owned
  · exact ⟨clients, owner, rfl⟩

theorem join_sound {s : State} (h : Sound s) {run : Nat} (owner : s.sendThread = some run)
    (finished : s.joinable run) (clients : s.clients = []) :
    Sound { s with sendThread := none, pc := .loop } := by
  have nobody := joined_nobody h.threads owner finished
  constructor
  · refine ⟨?_, ?_, h.threads.fresh, h.threads.working, h.threads.resting⟩
    · intro r alive
      exact absurd alive (nobody r)
    · intro r owned
      cases owned
  · refine ⟨h.requests.issued, ?_, h.requests.obeyed, ?_⟩
    · intro r alive
      exact absurd alive (nobody r)
    · intro r owned
      cases owned
  · exact iff_of_false (by simp) (by simp [clients])

theorem joinLast_sound {s : State} (h : Sound s) {run : Nat} (owner : s.sendThread = some run)
    (finished : s.joinable run) : Sound { s with pc := .returned } := by
  have nobody := joined_nobody h.threads owner finished
  constructor
  · exact ⟨h.threads.owned, h.threads.known, h.threads.fresh, h.threads.working, h.threads.resting⟩
  · exact ⟨h.requests.issued, h.requests.flag, h.requests.obeyed, fun _ _ _ => Or.inr (Or.inr rfl)⟩
  · exact nobody

theorem serverStep_sound {s t : State} (h : Sound s) (moves : ServerStep s t) : Sound t := by
  have place := h.place
  cases moves with
  | stops pc | listens pc | info pc | data pc | ignored pc | informed i pc | unknown pc | known i c pc
  | due pc | notDue pc =>
    simp only [Place, pc] at place
    exact server_pass h (by trivial) (fun _ => Iff.rfl) (by simp [pc]) place
  | version pc | port i pc =>
    simp only [Place, pc] at place
    refine server_pass h (by trivial) ?_ (by simp [pc]) place
    intro run
    simp only [Requested, State.answer, List.mem_cons, reduceCtorEq, false_or]
  | subscribe pc =>
    refine server_pass h (by trivial) ?_ (by simp [pc]) ?_
    · intro run
      simp only [Requested, State.subscribe, List.mem_cons, reduceCtorEq, false_or]
    · simp [Place, State.subscribe]
  | launch pc owner =>
    simp only [Place, pc] at place
    exact launch_sound h owner place
  | launched pc owner =>
    simp only [Place, pc] at place
    exact server_pass h (by trivial) (fun _ => Iff.rfl) (by simp [pc]) (iff_of_true owner place)
  | spawn pc =>
    simp only [Place, pc] at place
    exact spawn_sound h place.2.1 place.2.2 place.1
  | refresh i pc =>
    simp only [Place, pc] at place
    refine server_pass h (by trivial) ?_ (by simp [pc]) ?_
    · intro run
      simp only [Requested, State.refresh, List.mem_cons, reduceCtorEq, false_or]
    · simpa [Place, State.refresh] using place
  | scan increment pc =>
    simp only [Place, pc] at place
    refine server_pass h (by trivial) ?_ (by simp [pc]) ?_
    · intro run
      cases increment <;> simp [Requested, State.scan]
    · intro some_left
      apply place.mpr
      intro none_before
      simp only [State.scan, none_before, scanClients_nil, ne_eq, not_true_eq_false] at some_left
  | drained pc owner clients =>
    exact server_pass h (by trivial) (fun _ => Iff.rfl) (by simp [pc]) ⟨owner, clients⟩
  | notDrained pc clients =>
    simp only [Place, pc] at place
    exact server_pass h (by trivial) (fun _ => Iff.rfl) (by simp [pc]) ⟨clients, place⟩
  | requestStop run pc owner =>
    simp only [Place, pc] at place
    exact requestStop_sound h owner .join (Or.inl ⟨rfl, place.2⟩)
  | join run pc owner finished =>
    simp only [Place, pc] at place
    exact join_sound h owner finished place.2
  | finished pc owner =>
    have nobody := nobody_alive h.threads owner
    exact server_pass h (by trivial) (fun _ => Iff.rfl) (by simp [pc]) nobody
  | finish pc owner => exact server_pass h (by trivial) (fun _ => Iff.rfl) (by simp [pc]) owner
  | requestLast run pc owner => exact requestStop_sound h owner .joinLast (Or.inr rfl)
  | joinLast run pc owner finished => exact joinLast_sound h owner finished

theorem step_sound {s t : State} {a : Action} (h : Sound s) (step : s.step a = some t) : Sound t := by
  have place := h.place
  cases step_cases step with
  | header source bytes pc | short source bytes pc | receiveTimeout pc =>
    simp only [Place, pc] at place
    exact server_pass h (by trivial) (fun _ => Iff.rfl) (by simp [pc]) place
  | server moves => exact serverStep_sound h moves
  | sender run motion sender here moves => exact senderStep_sound h here moves
  | stop =>
    exact ⟨⟨h.threads.owned, h.threads.known, h.threads.fresh, h.threads.working, h.threads.resting⟩,
      ⟨h.requests.issued, h.requests.flag, h.requests.obeyed, h.requests.pending⟩, h.place⟩

theorem reachable_sound {s : State} (reached : Runs.Reachable State.step Starts s) : Sound s :=
  Runs.reachable_invariant Sound (fun _ => starts_sound) (fun _ _ _ h step => step_sound h step) reached

/-- In every reachable state: the send thread is there when there are clients, no two runs
    are alive, the motion source is started, used and stopped in turn by one run at a time,
    a stop is requested of the run that is alive or not at all, and none outlives serverTask. -/
theorem send_thread_lifecycle {s : State} (reached : Runs.Reachable State.step Starts s) :
    (s.pc = .loop → (s.sendThread ≠ none ↔ s.clients ≠ [])) ∧
    (∀ run other, Alive s run → Alive s other → run = other) ∧
    grabbing s.calls ≠ none ∧
    (∀ run sender, s.senders run = some sender → sender.pc = .prepare →
      grabbing s.calls = some (some run) ∧ s.frameServe = true) ∧
    (∀ run, Alive s run → (s.stopSending = true ↔ Requested s run)) ∧
    (s.pc = .returned → ∀ run, ¬Alive s run) := by
  have sound := reachable_sound reached
  have place := sound.place
  constructor
  · intro at_loop
    simpa only [Place, at_loop] using place
  constructor
  · intro run other first second
    have owned := sound.threads.owned run first
    have owned' := sound.threads.owned other second
    exact Option.some.inj (owned.symm.trans owned')
  constructor
  · by_cases works : ∃ run sender, s.senders run = some sender ∧ sender.pc ≠ .start ∧ sender.pc ≠ .done
    · obtain ⟨run, sender, here, not_start, not_done⟩ := works
      rw [(sound.threads.working run sender here not_start not_done).1]
      exact Option.some_ne_none _
    · rw [sound.threads.resting]
      · exact Option.some_ne_none _
      · intro run sender here
        by_contra neither
        rw [not_or] at neither
        exact works ⟨run, sender, here, neither.1, neither.2⟩
  constructor
  · intro run sender here pc
    exact sound.threads.working run sender here (by rw [pc]; decide) (by rw [pc]; decide)
  constructor
  · exact sound.requests.flag
  · intro at_end
    simpa only [Place, at_end] using place

theorem send_thread_lifecycle_launched :
    ∃ t, Runs.Reachable State.step Starts t ∧ t.pc = .loop ∧ t.sendThread ≠ none := by
  obtain ⟨t, done, pc, clients⟩ := subscribed_once
  have reached := started_reachable done
  refine ⟨t, reached, pc, ((send_thread_lifecycle reached).1 pc).mpr ?_⟩
  rw [clients]
  exact List.cons_ne_nil _ _

end Lifecycle
