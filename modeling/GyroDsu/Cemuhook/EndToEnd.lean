import GyroDsu.Cemuhook.Streaming
import GyroDsu.Sdgyro.Grab

/-
From the device to the clients: serverTask, sendTask with the adapter's calls taken apart,
ServeFrame and ReadDataApi, in any order of their steps. It behaves as the server whose
calls are single steps, on the frames the adapter turns out to have got.
-/
namespace EndToEnd
open SdHidFrame CemuhookAdapter AdapterSession Protocol ServerAnswers Server Lifecycle Broadcast
open Delivery (Along Continues AsCalls)
open Grab (Reported Source)

/-- What StartFrameGrab finds when its GetServe is done: ReadDataApi, and ServeFrame with the new
    Serve at `own`. -/
structure Opening where
  source : Source
  own : Nat

structure Opens (frameLen : Nat) (opening : Opening) : Prop where
  reached : Runs.Reachable Source.step (Source.Starts frameLen) opening.source
  own : ∃ c, opening.source.serving.frames[opening.own]? = some c ∧ c.seen = []

/-- The adapter is the one between two runs of sendTask; each run has a grab of its own,
    which stays as it is once the run has stopped. `sessions` is history: what each run has
    started from. -/
structure State where
  server : Server.State
  adapter : Adapter
  grabs : Nat → Option Grab.State
  sessions : Nat → Option Session

inductive Action where
  | datagram (source : Address) (bytes : List UInt8)
  | receiveTimeout
  | server
  | sender (run : Nat)
  | grab (run : Nat) (a : Grab.Action)
  | stop

def State.motion (s : State) : MotionData := s.server.answers.dataAnswer.motion

def State.serve (s : State) (a : Server.Action) : Option State :=
  (s.server.step a).map fun server => { s with server := server }

def State.setGrab (s : State) (run : Nat) (g : Grab.State) : State :=
  { s with grabs := fun r => if r = run then some g else s.grabs r }

/-- StartFrameGrab. -/
def State.opened (s : State) (opening : Opening) : Grab.State where
  delivery :=
    { serving := opening.source.serving
      own := opening.own
      adapter := s.adapter.startFrameGrab
      motion := s.motion
      phase := .outside
      results := [] }
  device := opening.source.device
  called := false

def State.startGrab (s : State) (run : Nat) (opening : Opening) (server : Server.State) : State where
  server := server
  adapter := s.adapter
  grabs := fun r => if r = run then some (s.opened opening) else s.grabs r
  sessions := fun r => if r = run then some (enter s.adapter s.motion) else s.sessions r

def State.preparing (s : State) (run : Nat) : Bool :=
  (s.server.senders run).any fun sender => sender.pc = .prepare

-- What the runs of sendTask find, and what is left to a motion structure between calls.
variable (openings : Nat → Opening) (overwritten : Nat → MotionData)

def State.send (s : State) (run : Nat) (sender : Sender) : Option State :=
  match sender.pc with
  | .start =>
    (s.serve (.sender run s.motion)).map fun t => s.startGrab run (openings run) t.server
  | .prepare =>
    (s.grabs run).bind fun g =>
      if g.called ∧ g.delivery.phase = .outside then
        (s.serve (.sender run g.delivery.motion)).map fun t => t.setGrab run { g with called := false }
      else none
  | .stopGrab =>
    (s.grabs run).bind fun g =>
      (s.serve (.sender run s.motion)).map fun t => { t with adapter := g.delivery.adapter.stopFrameGrab }
  | _ => s.serve (.sender run s.motion)

def State.step (s : State) : Action → Option State
  | .datagram source bytes => s.serve (.datagram source bytes)
  | .receiveTimeout => s.serve .receiveTimeout
  | .server => s.serve .server
  | .stop => s.serve .stop
  | .sender run => (s.server.senders run).bind fun sender => s.send openings run sender
  | .grab run a =>
    (s.grabs run).bind fun g =>
      match a with
      | .call => if s.preparing run then (g.step overwritten .call).map fun g => s.setGrab run g else none
      | a => (g.step overwritten a).map fun g => s.setGrab run g

structure Starts (s : State) : Prop where
  server : Server.Starts s.server
  persistent : s.adapter.isPersistent = true
  grabs : ∀ run, s.grabs run = none
  sessions : ∀ run, s.sessions run = none

inductive Moves (s : State) : State → Prop where
  | aside {a : Server.Action} {server : Server.State} (foreign : ∀ run motion, a ≠ .sender run motion)
      (step : s.server.step a = some server) : Moves s { s with server := server }
  | start {run : Nat} {sender : Sender} {server : Server.State} (here : s.server.senders run = some sender)
      (pc : sender.pc = .start) (step : s.server.step (.sender run s.motion) = some server) :
      Moves s (s.startGrab run (openings run) server)
  | prepare {run : Nat} {sender : Sender} {server : Server.State} {g : Grab.State}
      (here : s.server.senders run = some sender) (pc : sender.pc = .prepare) (grab : s.grabs run = some g)
      (called : g.called = true) (outside : g.delivery.phase = .outside)
      (step : s.server.step (.sender run g.delivery.motion) = some server) :
      Moves s ({ s with server := server }.setGrab run { g with called := false })
  | stopGrab {run : Nat} {sender : Sender} {server : Server.State} {g : Grab.State}
      (here : s.server.senders run = some sender) (pc : sender.pc = .stopGrab) (grab : s.grabs run = some g)
      (step : s.server.step (.sender run s.motion) = some server) :
      Moves s { s with server := server, adapter := g.delivery.adapter.stopFrameGrab }
  | quiet {run : Nat} {sender : Sender} {server : Server.State} (here : s.server.senders run = some sender)
      (pc : sender.pc = .test ∨ sender.pc = .broadcast ∨ sender.pc = .count)
      (step : s.server.step (.sender run s.motion) = some server) : Moves s { s with server := server }
  | grab {run : Nat} {g g' : Grab.State} {a : Grab.Action} (grab : s.grabs run = some g)
      (step : g.step overwritten a = some g') (calls : a = .call → s.preparing run = true) :
      Moves s (s.setGrab run g')

variable {openings overwritten} {frameLen : Nat} {s t : State}

theorem serve_cases {a : Server.Action} (done : s.serve a = some t) :
    ∃ server, s.server.step a = some server ∧ t = { s with server := server } := by
  obtain ⟨server, step, rfl⟩ := Option.map_eq_some_iff.mp done
  exact ⟨server, step, rfl⟩

theorem send_moves {run : Nat} {sender : Sender} (here : s.server.senders run = some sender)
    (step : s.send openings run sender = some t) : Moves openings overwritten s t := by
  have quiet : sender.pc = .test ∨ sender.pc = .broadcast ∨ sender.pc = .count →
      s.serve (.sender run s.motion) = some t → Moves openings overwritten s t := by
    intro pc served
    obtain ⟨server, moved, rfl⟩ := serve_cases served
    exact .quiet here pc moved
  cases pc : sender.pc with
  | start =>
    simp only [State.send, pc] at step
    obtain ⟨u, served, rfl⟩ := Option.map_eq_some_iff.mp step
    obtain ⟨server, moved, rfl⟩ := serve_cases served
    exact .start here pc moved
  | prepare =>
    simp only [State.send, pc] at step
    obtain ⟨g, grab, done⟩ := Option.bind_eq_some_iff.mp step
    obtain ⟨⟨called, outside⟩, sent⟩ := Option.ite_none_right_eq_some.mp done
    obtain ⟨u, served, rfl⟩ := Option.map_eq_some_iff.mp sent
    obtain ⟨server, moved, rfl⟩ := serve_cases served
    exact .prepare here pc grab called outside moved
  | stopGrab =>
    simp only [State.send, pc] at step
    obtain ⟨g, grab, sent⟩ := Option.bind_eq_some_iff.mp step
    obtain ⟨u, served, rfl⟩ := Option.map_eq_some_iff.mp sent
    obtain ⟨server, moved, rfl⟩ := serve_cases served
    exact .stopGrab here pc grab moved
  | test =>
    simp only [State.send, pc] at step
    exact quiet (Or.inl pc) step
  | broadcast =>
    simp only [State.send, pc] at step
    exact quiet (Or.inr (Or.inl pc)) step
  | count =>
    simp only [State.send, pc] at step
    exact quiet (Or.inr (Or.inr pc)) step
  | done =>
    simp only [State.send, pc] at step
    obtain ⟨server, moved, rfl⟩ := serve_cases step
    obtain ⟨sender', here', sends⟩ := Option.bind_eq_some_iff.mp moved
    obtain rfl := Option.some.inj (here.symm.trans here')
    simp [Server.State.senderStep, pc] at sends

theorem step_moves {a : Action} (step : s.step openings overwritten a = some t) :
    Moves openings overwritten s t := by
  have aside : ∀ {b : Server.Action}, (∀ run motion, b ≠ .sender run motion) → s.serve b = some t →
      Moves openings overwritten s t := by
    intro b foreign served
    obtain ⟨server, moved, rfl⟩ := serve_cases served
    exact .aside foreign moved
  cases a with
  | datagram source bytes => exact aside (by simp) step
  | receiveTimeout => exact aside (by simp) step
  | server => exact aside (by simp) step
  | stop => exact aside (by simp) step
  | sender run =>
    obtain ⟨sender, here, sent⟩ := Option.bind_eq_some_iff.mp step
    exact send_moves here sent
  | grab run a =>
    obtain ⟨g, grab, done⟩ := Option.bind_eq_some_iff.mp step
    cases a with
    | call =>
      obtain ⟨preparing, called⟩ := Option.ite_none_right_eq_some.mp done
      obtain ⟨g', goes, rfl⟩ := Option.map_eq_some_iff.mp called
      exact .grab grab goes fun _ => preparing
    | delivery | device =>
      obtain ⟨g', goes, rfl⟩ := Option.map_eq_some_iff.mp done
      exact .grab grab goes (by simp)

structure Launches (u v : Server.State) : Prop where
  new : ∀ run sender, v.senders run = some sender →
    u.senders run = some sender ∨ u.senders run = none ∧ sender.pc = .start
  still : ∀ run sender, u.senders run = some sender → v.senders run = some sender

theorem launches_none {u v : Server.State} (same : v.senders = u.senders) : Launches u v := by
  constructor
  · intro run sender here
    exact Or.inl (same ▸ here)
  · intro run sender here
    rw [same]
    exact here

theorem aside_launches {u v : Server.State} (threads : Threads u) {a : Server.Action}
    (foreign : ∀ run motion, a ≠ .sender run motion) (step : u.step a = some v) : Launches u v := by
  cases step_cases step with
  | header | short | receiveTimeout | stop => exact launches_none rfl
  | sender run motion => exact absurd rfl (foreign run motion)
  | server moves =>
    cases moves with
    | spawn pc =>
      have new : u.senders u.runs = none := by
        by_contra known
        exact lt_irrefl _ (threads.fresh u.runs known)
      refine ⟨fun run sender here => ?_, fun run sender here => ?_⟩
      · rcases setSender_cases here with ⟨rfl, rfl⟩ | ⟨_, before⟩
        · exact Or.inr ⟨new, rfl⟩
        · exact Or.inl before
      · refine (setSender_other u _ ?_).trans here
        rintro rfl
        cases new.symm.trans here
    | _ => exact launches_none rfl

structure Sent (u v : Server.State) (run : Nat) (sender next : Sender) : Prop where
  senders : v.senders = (u.setSender run next).senders
  started : next.pc ≠ .start
  done : next.pc = .done ↔ sender.pc = .stopGrab

theorem sent_next {u v : Server.State} {run : Nat} {sender : Sender} {motion : MotionData}
    (here : u.senders run = some sender) (step : u.step (.sender run motion) = some v) :
    SenderStep u run sender motion v ∧ ∃ next, Sent u v run sender next := by
  obtain ⟨sender', here', sends⟩ := Option.bind_eq_some_iff.mp step
  obtain rfl := Option.some.inj (here.symm.trans here')
  have moves := senderStep_cases sends
  refine ⟨moves, ?_⟩
  cases moves with
  | start pc | stops pc | goes pc | prepare pc | broadcast pc | tick pc | noTick pc | stopGrab pc =>
    exact ⟨_, rfl, by simp, by simp [pc]⟩

theorem sent_here {u v : Server.State} {run : Nat} {sender next : Sender} (sent : Sent u v run sender next) :
    v.senders run = some next := by
  rw [sent.senders]
  exact setSender_same u run next

theorem sent_other {u v : Server.State} {run r : Nat} {sender next : Sender} (sent : Sent u v run sender next)
    (other : r ≠ run) : v.senders r = u.senders r := by
  rw [sent.senders]
  exact setSender_other u next other

theorem setGrab_cases {run r : Nat} {g g' : Grab.State} (found : (s.setGrab run g).grabs r = some g') :
    (r = run ∧ g' = g) ∨ (r ≠ run ∧ s.grabs r = some g') := by
  by_cases same : r = run
  · have here : (s.setGrab run g).grabs r = some g := if_pos same
    exact Or.inl ⟨same, Option.some.inj (found.symm.trans here)⟩
  · have here : (s.setGrab run g).grabs r = s.grabs r := if_neg same
    exact Or.inr ⟨same, here.symm.trans found⟩

theorem setGrab_here (s : State) (run : Nat) (g : Grab.State) : (s.setGrab run g).grabs run = some g :=
  if_pos rfl

theorem setGrab_other (s : State) {run r : Nat} (g : Grab.State) (other : r ≠ run) :
    (s.setGrab run g).grabs r = s.grabs r := if_neg other

theorem setGrab_known {s : State} {run r : Nat} (g : Grab.State)
    (known : r = run ∨ ∃ g', s.grabs r = some g') : ∃ g', (s.setGrab run g).grabs r = some g' := by
  by_cases same : r = run
  · exact ⟨g, if_pos same⟩
  · obtain ⟨g', here⟩ := known.resolve_left same
    exact ⟨g', (setGrab_other s g same).trans here⟩

structure Kept (overwritten : Nat → MotionData) (frameLen : Nat) (s : State) : Prop where
  server : Lifecycle.Sound s.server
  known : ∀ run g, s.grabs run = some g → ∃ sender, s.server.senders run = some sender ∧ sender.pc ≠ .start
  calling : ∀ run g, s.grabs run = some g → g.called = true →
    ∃ sender, s.server.senders run = some sender ∧ sender.pc = .prepare
  grabs : ∀ run g, s.grabs run = some g → ∃ session, Grab.Sound overwritten frameLen session g

theorem opened_sound (small : frameLen < 2 ^ 31) (s : State) {opening : Opening} (opens : Opens frameLen opening) :
    Grab.Sound overwritten frameLen (enter s.adapter s.motion) (s.opened opening) := by
  have source := Grab.source_reachable_sound small opens.reached
  have starts : Delivery.Starts (s.opened opening).delivery := ⟨source.reached, opens.own, rfl, rfl⟩
  exact ⟨Delivery.starts_along starts, ⟨fun _ _ => rfl, fun _ r rest is => by cases is⟩, fun _ => rfl, source.reports⟩

theorem sent_kept {server : Server.State} {run : Nat} {sender next : Sender} (h : Kept overwritten frameLen s)
    (sound : Lifecycle.Sound server) (sent : Sent s.server server run sender next)
    (grabs : ∀ r, r ≠ run → t.grabs r = s.grabs r) (same : t.server = server)
    (calling : ∀ g, t.grabs run = some g → g.called = false)
    (grab : ∀ g, t.grabs run = some g → ∃ session, Grab.Sound overwritten frameLen session g) :
    Kept overwritten frameLen t := by
  refine ⟨same ▸ sound, fun r g found => ?_, fun r g found called => ?_, fun r g found => ?_⟩
  · by_cases here : r = run
    · rw [here, same]
      exact ⟨next, sent_here sent, sent.started⟩
    · rw [grabs r here] at found
      rw [same, sent_other sent here]
      exact h.known r g found
  · by_cases here : r = run
    · rw [here] at found
      cases (calling g found).symm.trans called
    · rw [grabs r here] at found
      rw [same, sent_other sent here]
      exact h.calling r g found called
  · by_cases here : r = run
    · rw [here] at found
      exact grab g found
    · rw [grabs r here] at found
      exact h.grabs r g found

theorem not_calling {run : Nat} {sender : Sender} {g : Grab.State} (h : Kept overwritten frameLen s)
    (here : s.server.senders run = some sender) (other : sender.pc ≠ .prepare) (found : s.grabs run = some g) :
    g.called = false := by
  by_contra called
  obtain ⟨sender', here', pc⟩ := h.calling run g found (eq_true_of_ne_false called)
  obtain rfl := Option.some.inj (here.symm.trans here')
  exact other pc

theorem moves_kept (small : frameLen < 2 ^ 31) (opens : ∀ run, Opens frameLen (openings run))
    (h : Kept overwritten frameLen s) (moves : Moves openings overwritten s t) :
    Kept overwritten frameLen t := by
  cases moves with
  | aside foreign step =>
    have launches := aside_launches h.server.threads foreign step
    refine ⟨Lifecycle.step_sound h.server step, fun r g found => ?_, fun r g found called => ?_, h.grabs⟩
    · obtain ⟨sender, here, pc⟩ := h.known r g found
      exact ⟨sender, launches.still r sender here, pc⟩
    · obtain ⟨sender, here, pc⟩ := h.calling r g found called
      exact ⟨sender, launches.still r sender here, pc⟩
  | start here pc step =>
    rename_i run sender server
    obtain ⟨_, next, sent⟩ := sent_next here step
    have new : (s.startGrab run (openings run) server).grabs run = some (s.opened (openings run)) := if_pos rfl
    refine sent_kept h (Lifecycle.step_sound h.server step) sent (fun r other => if_neg other) rfl
      (fun g found => ?_) (fun g found => ?_)
    · obtain rfl := Option.some.inj (new.symm.trans found)
      rfl
    · obtain rfl := Option.some.inj (new.symm.trans found)
      exact ⟨_, opened_sound small s (opens run)⟩
  | prepare here pc grab called outside step =>
    rename_i run sender server g
    obtain ⟨_, next, sent⟩ := sent_next here step
    refine sent_kept h (Lifecycle.step_sound h.server step) sent (fun r other => setGrab_other _ _ other) rfl
      (fun g' found => ?_) (fun g' found => ?_)
    · rw [setGrab_here] at found
      obtain rfl := Option.some.inj found
      rfl
    · rw [setGrab_here] at found
      obtain rfl := Option.some.inj found
      obtain ⟨session, sound⟩ := h.grabs run g grab
      exact ⟨session, sound.along, sound.rests, fun _ => outside, sound.reports⟩
  | stopGrab here pc grab step =>
    rename_i run sender server g
    obtain ⟨_, next, sent⟩ := sent_next here step
    exact sent_kept h (Lifecycle.step_sound h.server step) sent (fun r _ => rfl) rfl
      (fun g' found => not_calling h here (by simp [pc]) found) (fun g' found => h.grabs run g' found)
  | quiet here pc step =>
    rename_i run sender server
    obtain ⟨_, next, sent⟩ := sent_next here step
    exact sent_kept h (Lifecycle.step_sound h.server step) sent (fun r _ => rfl) rfl
      (fun g' found => not_calling h here (by rcases pc with pc | pc | pc <;> simp [pc]) found)
      (fun g' found => h.grabs run g' found)
  | grab grab step calls =>
    rename_i run g g' a
    obtain ⟨session, sound⟩ := h.grabs run g grab
    refine ⟨h.server, fun r g'' found => ?_, fun r g'' found called => ?_, fun r g'' found => ?_⟩
    · rcases setGrab_cases found with ⟨rfl, _⟩ | ⟨_, before⟩
      · exact h.known r g grab
      · exact h.known r g'' before
    · rcases setGrab_cases found with ⟨rfl, rfl⟩ | ⟨_, before⟩
      · cases Grab.step_does step with
        | call free enters =>
          obtain ⟨sender, here, pc⟩ := (Option.any_eq_true _ _).mp (calls rfl)
          exact ⟨sender, here, of_decide_eq_true pc⟩
        | goes device other goes not_call => exact h.calling r g grab called
        | examines device => exact h.calling r g grab called
      · exact h.calling r g'' before called
    · rcases setGrab_cases found with ⟨rfl, rfl⟩ | ⟨_, before⟩
      · exact ⟨session, Grab.step_sound small sound step⟩
      · exact h.grabs r g'' before

theorem starts_kept (h : Starts s) : Kept overwritten frameLen s := by
  refine ⟨Lifecycle.starts_sound h.server, fun r g found => ?_, fun r g found => ?_, fun r g found => ?_⟩ <;>
  · rw [h.grabs r] at found
    cases found

theorem moves_back (h : Kept overwritten frameLen s) (moves : Moves openings overwritten s t) {run : Nat}
    {g : Grab.State} (found : s.grabs run = some g) :
    ∃ g', t.grabs run = some g' ∧
      ∀ stream, Continues stream g'.delivery.seen → Continues stream g.delivery.seen := by
  cases moves with
  | aside | stopGrab | quiet => exact ⟨g, found, fun _ continues => continues⟩
  | start here pc step =>
    rename_i r sender server
    by_cases same : run = r
    · obtain ⟨sender', here', started⟩ := h.known run g found
      rw [same] at here'
      obtain rfl := Option.some.inj (here.symm.trans here')
      exact absurd pc started
    · exact ⟨g, (if_neg same).trans found, fun _ continues => continues⟩
  | prepare here pc grab called outside step =>
    rename_i r sender server g'
    by_cases same : run = r
    · subst same
      obtain rfl := Option.some.inj (grab.symm.trans found)
      exact ⟨_, setGrab_here _ _ _, fun _ continues => continues⟩
    · exact ⟨g, (setGrab_other _ _ same).trans found, fun _ continues => continues⟩
  | grab grab step calls =>
    rename_i r g' g'' a
    by_cases same : run = r
    · subst same
      obtain rfl := Option.some.inj (grab.symm.trans found)
      obtain ⟨session, sound⟩ := h.grabs run _ grab
      exact ⟨_, setGrab_here _ _ _, fun _ continues =>
        Grab.continues_before sound.along (Grab.step_does step) continues⟩
    · exact ⟨g, (setGrab_other _ _ same).trans found, fun _ continues => continues⟩

/-- The grab of a run that is alive, beside the session of the server with single calls: the
    call that is over, if there is one, is its next. -/
structure Live (overwritten : Nat → MotionData) (frameLen calls : Nat) (session : Session) (g : Grab.State) :
    Prop where
  sound : Grab.Sound overwritten frameLen session g
  count : g.delivery.results.length = calls + if g.called = true ∧ g.delivery.phase = .outside then 1 else 0

structure Matches (overwritten : Nat → MotionData) (frameLen : Nat) (s : State) (u : Streaming.State) :
    Prop where
  server : u.server = s.server
  adapter : (∀ run sender, s.server.senders run = some sender → sender.pc = .start ∨ sender.pc = .done) →
    u.adapter = s.adapter
  live : ∀ run sender, s.server.senders run = some sender → sender.pc ≠ .start → sender.pc ≠ .done →
    ∃ g session, s.grabs run = some g ∧ u.sessions run = some session ∧
      Live overwritten frameLen u.calls session g
  sessions : u.sessions = s.sessions
  grabs : ∀ run session, s.sessions run = some session → ∃ g, s.grabs run = some g

/-- A step of the run that is alive: there is no other one to be matched. -/
theorem sent_matches {v : Streaming.State} {server : Server.State} {run : Nat} {sender next : Sender}
    (threads : Threads s.server) (here : s.server.senders run = some sender) (unfinished : sender.pc ≠ .done)
    (sent : Sent s.server server run sender next) (same : t.server = server) (same' : v.server = server)
    (live : next.pc ≠ .done → ∃ g session, t.grabs run = some g ∧ v.sessions run = some session ∧
      Live overwritten frameLen v.calls session g)
    (adapter : next.pc = .done → v.adapter = t.adapter) (sessions : v.sessions = t.sessions)
    (grabs : ∀ r session, t.sessions r = some session → ∃ g, t.grabs r = some g) :
    Matches overwritten frameLen t v := by
  refine ⟨same'.trans same.symm, fun all => ?_, fun r sender' there not_start not_done => ?_, sessions, grabs⟩
  · rcases all run next (same ▸ sent_here sent) with start | done
    · exact absurd start sent.started
    · exact adapter done
  · rw [same] at there
    by_cases equal : r = run
    · rw [equal] at there ⊢
      obtain rfl := Option.some.inj (there.symm.trans (sent_here sent))
      exact live not_done
    · rw [sent_other sent equal] at there
      exact absurd (others_done threads ⟨sender, here, unfinished⟩ there equal) not_done

variable {streams : Nat → Nat → Frame} {u : Streaming.State}

theorem last_call {session : Session} {g : Grab.State} {stream : Nat → Frame} {r : CallResult}
    {rest : List CallResult} (sound : Grab.Sound overwritten frameLen session g)
    (continues : Continues stream g.delivery.seen) (results : g.delivery.results = r :: rest) :
    r = session.callAt stream overwritten rest.length := by
  have past := sound.along.past stream continues
  rw [results] at past
  exact past.1

theorem started_matched (small : frameLen < 2 ^ 31) (h : Matches overwritten frameLen s u)
    (kept : Kept overwritten frameLen s) {run : Nat} {sender : Sender} {server : Server.State} (here : s.server.senders run = some sender)
    (pc : sender.pc = .start) (step : s.server.step (.sender run s.motion) = some server)
    {opening : Opening} (opens : Opens frameLen opening) :
    ∃ v, u.step streams (.sender run) = some v ∧
      Matches overwritten frameLen (s.startGrab run opening server) v := by
  obtain ⟨server', adapter, next, sessions, calls⟩ := u
  obtain rfl : server' = s.server := h.server
  obtain rfl : sessions = s.sessions := h.sessions
  have resting : adapter = s.adapter := by
    refine h.adapter fun r sender' there => ?_
    by_cases same : r = run
    · rw [same] at there
      obtain rfl := Option.some.inj (here.symm.trans there)
      exact Or.inl pc
    · exact Or.inr (others_done kept.server.threads ⟨sender, here, by simp [pc]⟩ there same)
  obtain ⟨_, after, sent⟩ := sent_next here step
  refine ⟨⟨server, adapter.startFrameGrab, 0, fun r => if r = run then some (enter adapter s.motion) else s.sessions r, 0⟩,
    ?_, ?_⟩
  · have step' : s.server.step (.sender run s.server.answers.dataAnswer.motion) = some server := step
    simp [Streaming.State.step, here, pc, Streaming.State.startFrameGrab, Streaming.State.serve,
      Streaming.State.motion, step', State.motion]
  · refine sent_matches kept.server.threads here (by simp [pc]) sent rfl rfl (fun _ => ?_) (fun done => ?_) ?_
      (fun r session entered => ?_)
    · refine ⟨_, _, if_pos rfl, if_pos rfl, ?_, rfl⟩
      rw [resting]
      exact opened_sound small s opens
    · rw [sent.done, pc] at done
      cases done
    · rw [resting]
      rfl
    · refine setGrab_known (s.opened opening) (or_iff_not_imp_left.mpr fun other => ?_)
      exact h.grabs r session ((if_neg other).symm.trans entered)

theorem prepared_matched (h : Matches overwritten frameLen s u) (kept : Kept overwritten frameLen s)
    (sound : Streaming.Sound streams overwritten u) {run : Nat} {sender : Sender} {server : Server.State}
    {g : Grab.State} (here : s.server.senders run = some sender) (pc : sender.pc = .prepare)
    (grab : s.grabs run = some g) (called : g.called = true) (outside : g.delivery.phase = .outside)
    (step : s.server.step (.sender run g.delivery.motion) = some server)
    (continues : Continues (streams run) g.delivery.seen) :
    ∃ v, u.step streams (.sender run) = some v ∧
      Matches overwritten frameLen ({ s with server := server }.setGrab run { g with called := false }) v := by
  obtain ⟨g', session, grab', entered, live⟩ := h.live run sender here (by simp [pc]) (by simp [pc])
  obtain rfl := Option.some.inj (grab.symm.trans grab')
  obtain ⟨session', entered', amid⟩ := sound.amid run sender (h.server ▸ here) (by simp [pc]) (by simp [pc])
  obtain rfl := Option.some.inj (entered.symm.trans entered')
  have call : setMotionDataNewFrame (streams run) u.adapter u.motion u.next =
      session.callAt (streams run) overwritten u.calls := by
    rw [amid.adapter, amid.next, amid.motion]
    rfl
  have count := live.count
  rw [if_pos ⟨called, outside⟩] at count
  obtain ⟨r, rest, results⟩ := List.exists_cons_of_length_eq_add_one count
  have last := last_call live.sound continues results
  have number : rest.length = u.calls := by
    rw [results, List.length_cons] at count
    omega
  rw [number] at last
  have persistent : r.adapter.isPersistent = true := by
    rw [last, Session.callAt, Modes.call_persistence, Modes.at_persistence]
    exact amid.persistent
  have motion := (live.sound.rests.later outside r rest results).2
  rw [if_pos persistent, last] at motion
  rw [motion] at step
  obtain ⟨_, after, sent⟩ := sent_next here step
  have started : sender.pc ≠ .stopGrab := by simp [pc]
  refine ⟨{ u with
      server := server
      adapter := (session.callAt (streams run) overwritten u.calls).adapter
      next := (session.callAt (streams run) overwritten u.calls).next
      calls := u.calls + 1 }, ?_, ?_⟩
  · simp only [Streaming.State.step, h.server, here, Option.bind_some, pc, Streaming.State.newFrame, call,
      Streaming.State.serve, step, Option.map_some]
  · refine sent_matches kept.server.threads here (by simp [pc]) sent rfl rfl (fun _ => ?_) (fun done => ?_)
      h.sessions (fun r session entered => ?_)
    · refine ⟨_, session, setGrab_here _ _ _, entered, ⟨live.sound.along, live.sound.rests, fun _ => outside,
        live.sound.reports⟩, ?_⟩
      rw [if_neg (by simp)]
      exact count
    · exact absurd (sent.done.mp done) started
    · exact setGrab_known _ (Or.inr (h.grabs r session entered))

theorem stopped_matched (h : Matches overwritten frameLen s u) (kept : Kept overwritten frameLen s)
    (sound : Streaming.Sound streams overwritten u) {run : Nat} {sender : Sender} {server : Server.State}
    {g : Grab.State} (here : s.server.senders run = some sender) (pc : sender.pc = .stopGrab)
    (grab : s.grabs run = some g) (step : s.server.step (.sender run s.motion) = some server)
    (continues : Continues (streams run) g.delivery.seen) :
    ∃ v, u.step streams (.sender run) = some v ∧
      Matches overwritten frameLen { s with server := server, adapter := g.delivery.adapter.stopFrameGrab } v := by
  obtain ⟨g', session, grab', entered, live⟩ := h.live run sender here (by simp [pc]) (by simp [pc])
  obtain rfl := Option.some.inj (grab.symm.trans grab')
  obtain ⟨session', entered', amid⟩ := sound.amid run sender (h.server ▸ here) (by simp [pc]) (by simp [pc])
  obtain rfl := Option.some.inj (entered.symm.trans entered')
  have uncalled : g.called = false := not_calling kept here (by simp [pc]) grab
  have outside := live.sound.uncalled uncalled
  have count := live.count
  rw [if_neg (by simp [uncalled]), Nat.add_zero] at count
  have resting : u.adapter = g.delivery.adapter := by
    rw [amid.adapter]
    cases results : g.delivery.results with
    | nil =>
      rw [results] at count
      rw [live.sound.rests.first outside results, ← count]
      rfl
    | cons r rest =>
      rw [results] at count
      rw [(live.sound.rests.later outside r rest results).1, last_call live.sound continues results, ← count]
      rfl
  obtain ⟨_, after, sent⟩ := sent_next here step
  refine ⟨{ u with server := server, adapter := u.adapter.stopFrameGrab }, ?_, ?_⟩
  · have step' : s.server.step (.sender run u.motion) = some server := by
      rw [Streaming.State.motion, h.server]
      exact step
    simp only [Streaming.State.step, h.server, here, Option.bind_some, pc, Streaming.State.stopFrameGrab,
      Streaming.State.serve, step', Option.map_some]
  · refine sent_matches kept.server.threads here (by simp [pc]) sent rfl rfl (fun goes_on => ?_) (fun _ => ?_)
      h.sessions h.grabs
    · exact absurd (sent.done.mpr pc) goes_on
    · rw [resting]

theorem quiet_matched (h : Matches overwritten frameLen s u) (kept : Kept overwritten frameLen s) {run : Nat}
    {sender : Sender} {server : Server.State} (here : s.server.senders run = some sender)
    (pc : sender.pc = .test ∨ sender.pc = .broadcast ∨ sender.pc = .count)
    (step : s.server.step (.sender run s.motion) = some server) :
    ∃ v, u.step streams (.sender run) = some v ∧ Matches overwritten frameLen { s with server := server } v := by
  have alive : sender.pc ≠ .start ∧ sender.pc ≠ .done ∧ sender.pc ≠ .stopGrab := by
    rcases pc with pc | pc | pc <;> simp [pc]
  obtain ⟨_, after, sent⟩ := sent_next here step
  refine ⟨{ u with server := server }, ?_, ?_⟩
  · have step' : s.server.step (.sender run u.motion) = some server := by
      rw [Streaming.State.motion, h.server]
      exact step
    rcases pc with pc | pc | pc <;>
      simp only [Streaming.State.step, h.server, here, Option.bind_some, pc, Streaming.State.serve, step',
        Option.map_some]
  · refine sent_matches kept.server.threads here alive.2.1 sent rfl rfl (fun _ => ?_) (fun done => ?_)
      h.sessions h.grabs
    · exact h.live run sender here alive.1 alive.2.1
    · exact absurd (sent.done.mp done) alive.2.2

theorem aside_matched (h : Matches overwritten frameLen s u) (kept : Kept overwritten frameLen s)
    {a : Server.Action} {server : Server.State} (foreign : ∀ run motion, a ≠ .sender run motion)
    (step : s.server.step a = some server) :
    ∃ b v, u.step streams b = some v ∧ Matches overwritten frameLen { s with server := server } v := by
  have same : ∃ b, u.step streams b = u.serve a := by
    cases a with
    | datagram source bytes => exact ⟨.datagram source bytes, rfl⟩
    | receiveTimeout => exact ⟨.receiveTimeout, rfl⟩
    | server => exact ⟨.server, rfl⟩
    | stop => exact ⟨.stop, rfl⟩
    | sender run motion => exact absurd rfl (foreign run motion)
  obtain ⟨b, serves⟩ := same
  have launches := aside_launches kept.server.threads foreign step
  refine ⟨b, { u with server := server }, ?_, rfl, fun all => ?_, fun run sender there not_start not_done => ?_,
    h.sessions, h.grabs⟩
  · rw [serves, Streaming.State.serve, h.server, step]
    rfl
  · exact h.adapter fun run sender here => all run sender (launches.still run sender here)
  · rcases launches.new run sender there with before | ⟨_, start⟩
    · exact h.live run sender before not_start not_done
    · exact absurd start not_start

theorem grab_matched (small : frameLen < 2 ^ 31) (h : Matches overwritten frameLen s u) {run : Nat}
    {g g' : Grab.State} {a : Grab.Action} (grab : s.grabs run = some g)
    (step : g.step overwritten a = some g') : Matches overwritten frameLen (s.setGrab run g') u := by
  refine ⟨h.server, h.adapter, fun r sender here not_start not_done => ?_, h.sessions, fun r session entered => ?_⟩
  · obtain ⟨g'', session, found, entered, live⟩ := h.live r sender here not_start not_done
    by_cases same : r = run
    · subst same
      obtain rfl := Option.some.inj (grab.symm.trans found)
      refine ⟨g', session, setGrab_here _ _ _, entered, Grab.step_sound small live.sound step, ?_⟩
      have count := live.count
      cases Grab.step_does step with
      | call free enters =>
        obtain ⟨inside, results, _⟩ := Grab.entered enters
        rw [if_neg (by simp [free])] at count
        rw [if_neg (by simp [inside])]
        exact (congrArg List.length results).trans count
      | goes device other goes not_call =>
        cases Grab.progress goes other with
        | on results phase _ =>
          simp only [results, phase]
          exact count
        | returned inside outside r results =>
          have called : g.called = true := by
            by_contra uncalled
            exact inside (live.sound.uncalled (eq_false_of_ne_true uncalled))
          rw [if_neg (by simp [inside])] at count
          simp only [results, List.length_cons, count, called, outside, and_self, if_true, Nat.add_zero]
      | examines device => exact count
    · exact ⟨g'', session, (setGrab_other _ _ same).trans found, entered, live⟩
  · exact setGrab_known _ (Or.inr (h.grabs r session entered))

theorem moves_matched (small : frameLen < 2 ^ 31) (opens : ∀ run, Opens frameLen (openings run))
    (h : Matches overwritten frameLen s u) (kept : Kept overwritten frameLen s)
    (sound : Streaming.Sound streams overwritten u)
    (continues : ∀ run g, s.grabs run = some g → Continues (streams run) g.delivery.seen)
    (moves : Moves openings overwritten s t) :
    ∃ v, (v = u ∨ ∃ b, u.step streams b = some v) ∧ Matches overwritten frameLen t v := by
  have moved : ∀ {b : Streaming.Action}, (∃ v, u.step streams b = some v ∧ Matches overwritten frameLen t v) →
      ∃ v, (v = u ∨ ∃ b, u.step streams b = some v) ∧ Matches overwritten frameLen t v := by
    rintro b ⟨v, step, matched⟩
    exact ⟨v, Or.inr ⟨b, step⟩, matched⟩
  cases moves with
  | aside foreign step =>
    obtain ⟨b, matched⟩ := aside_matched h kept foreign step
    exact moved matched
  | start here pc step => exact moved (started_matched small h kept here pc step (opens _))
  | prepare here pc grab called outside step =>
    exact moved (prepared_matched h kept sound here pc grab called outside step (continues _ _ grab))
  | stopGrab here pc grab step => exact moved (stopped_matched h kept sound here pc grab step (continues _ _ grab))
  | quiet here pc step => exact moved (quiet_matched h kept here pc step)
  | grab grab step calls => exact ⟨u, Or.inl rfl, grab_matched small h grab step⟩

theorem run_kept {as : List Action} (small : frameLen < 2 ^ 31) (opens : ∀ run, Opens frameLen (openings run))
    (starts : Starts s) (run : Runs.Run (State.step openings overwritten) s as t) :
    Kept overwritten frameLen t :=
  Runs.run_invariant (Kept overwritten frameLen)
    (fun _ _ _ h step => moves_kept small opens h (step_moves step)) run (starts_kept starts)

/-- On streams that start with the frames the adapter has got in each run, the server with single
    calls can have come to the same. -/
theorem run_matched {as : List Action} (small : frameLen < 2 ^ 31)
    (opens : ∀ run, Opens frameLen (openings run)) (starts : Starts s)
    (run : Runs.Run (State.step openings overwritten) s as t)
    (continues : ∀ run g, t.grabs run = some g → Continues (streams run) g.delivery.seen) :
    ∃ v, Runs.Reachable (Streaming.State.step streams) Streaming.Starts v ∧ Matches overwritten frameLen t v := by
  induction run with
  | nil =>
    have begins : Streaming.Starts ⟨s.server, s.adapter, 0, s.sessions, 0⟩ :=
      ⟨starts.server, starts.persistent, starts.sessions⟩
    refine ⟨_, ⟨_, [], begins, .nil⟩, rfl, fun _ => rfl, fun run sender here => ?_, rfl, fun run session entered => ?_⟩
    · rw [starts.server.senders run] at here
      cases here
    · rw [starts.sessions run] at entered
      cases entered
  | @next as a m n before last ih =>
    have kept := run_kept small opens starts before
    have moves := step_moves last
    have earlier : ∀ run g, m.grabs run = some g → Continues (streams run) g.delivery.seen := by
      intro run g found
      obtain ⟨g', found', back⟩ := moves_back kept moves found
      exact back _ (continues run g' found')
    obtain ⟨v, ⟨v₀, bs, begins, reached⟩, matched⟩ := ih earlier
    have sound : Streaming.Sound streams overwritten v := Streaming.reachable_sound ⟨v₀, bs, begins, reached⟩
    obtain ⟨w, rfl | ⟨b, step⟩, matched'⟩ := moves_matched small opens matched kept sound earlier moves
    · exact ⟨_, ⟨v₀, bs, begins, reached⟩, matched'⟩
    · exact ⟨w, ⟨v₀, b :: bs, begins, .next reached step⟩, matched'⟩

def streamOf (seen : List (ServeFrame.View Frame)) (i : Nat) : Frame := (seen.reverse[i]?).elim [] ServeFrame.View.frame

theorem streamOf_continues (newer seen : List (ServeFrame.View Frame)) :
    Continues (streamOf (newer ++ seen)) seen := by
  induction seen generalizing newer with
  | nil => trivial
  | cons v seen ih =>
    constructor
    · simp [streamOf]
    · have older := ih (newer ++ [v])
      rwa [List.append_assoc] at older

def State.got (s : State) (run : Nat) : Nat → Frame :=
  (s.grabs run).elim (fun _ => []) fun g => streamOf g.delivery.seen

theorem got_continues (s : State) (run : Nat) (g : Grab.State) (found : s.grabs run = some g) :
    Continues (s.got run) g.delivery.seen := by
  rw [State.got, found]
  exact streamOf_continues [] g.delivery.seen

theorem other_continues {run : Nat} {g : Grab.State} {stream : Nat → Frame} (found : s.grabs run = some g)
    (continues : Continues stream g.delivery.seen) (r : Nat) (g' : Grab.State) (found' : s.grabs r = some g') :
    Continues (if r = run then stream else s.got r) g'.delivery.seen := by
  split
  · rename_i same
    rw [same] at found'
    obtain rfl := Option.some.inj (found.symm.trans found')
    exact continues
  · exact got_continues s r g' found'

theorem sent_shown (small : frameLen < 2 ^ 31) (opens : ∀ run, Opens frameLen (openings run))
    (reached : Runs.Reachable (State.step openings overwritten) Starts s)
    {newer older : List Event} {run : Nat} {packet : UInt32} {sent : List (Client × List UInt8)}
    (log : s.server.log = newer ++ .broadcast run packet sent :: older)
    (continues : ∀ run g, s.grabs run = some g → Continues (streams run) g.delivery.seen) :
    ∀ d ∈ sent, ∃ g a motion, s.grabs run = some g ∧ s.sessions run = some (enter a motion) ∧
      Streaming.readMotion d.2 =
        ((enter a motion).callAt (streams run) overwritten (iterations run older)).motion := by
  obtain ⟨s₀, as, starts, goes⟩ := reached
  obtain ⟨v, reached', matched⟩ := run_matched small opens starts goes continues
  have sound : Streaming.Sound streams overwritten v := Streaming.reachable_sound reached'
  intro d member
  have told := Streaming.told_at ((matched.server ▸ log) ▸ sound.told) d member
  cases entered : v.sessions run with
  | none =>
    rw [Streaming.State.shown, entered] at told
    cases told
  | some session =>
    obtain ⟨a, motion, rfl, _⟩ := sound.entered run session entered
    rw [Streaming.State.shown, entered, Option.map_some] at told
    rw [matched.sessions] at entered
    obtain ⟨g, found⟩ := matched.grabs run _ entered
    exact ⟨g, a, motion, found, entered, Option.some.inj told⟩

/-- From the device to the clients, in any order of all the steps: the motion data of a DATA packet is what
    the call with the number of its iteration shows in the session that has the adapter for itself,
    on the frames the adapter has got in that run. These are frames that were sent, in that order and
    none twice, and all but the first, which a session ignores, are reports that a Read has got from the
    device or what a Read it refused has left of the vector it was given. -/
theorem packets_from_reports (small : frameLen < 2 ^ 31) (opens : ∀ run, Opens frameLen (openings run))
    (reached : Runs.Reachable (State.step openings overwritten) Starts s)
    {newer older : List Event} {run : Nat} {packet : UInt32} {sent : List (Client × List UInt8)}
    (log : s.server.log = newer ++ .broadcast run packet sent :: older) (some_client : sent ≠ []) :
    ∃ g a motion, s.grabs run = some g ∧ s.sessions run = some (enter a motion) ∧
      (∀ stream, Continues stream g.delivery.seen → ∀ d ∈ sent, Streaming.readMotion d.2 =
        ((enter a motion).callAt stream overwritten (iterations run older)).motion) ∧
      (g.delivery.seen.map ServeFrame.View.number).Pairwise (· > ·) ∧
      (∀ v ∈ g.delivery.seen, g.delivery.serving.sentAs v.number = some v.frame) ∧
      ∀ v ∈ g.delivery.seen.dropLast, Reported frameLen g.device.reads v.frame := by
  obtain ⟨d, rest, rfl⟩ := List.exists_cons_of_ne_nil some_client
  obtain ⟨g, a, motion, found, entered, _⟩ :=
    sent_shown small opens reached log (got_continues s) d List.mem_cons_self
  obtain ⟨s₀, as, starts, goes⟩ := reached
  obtain ⟨session, sound⟩ := (run_kept small opens starts goes).grabs run g found
  obtain ⟨c, here, _⟩ := sound.along.own
  have consumer := sound.along.serving.consumers _ c here
  have seen := Delivery.seen_eq here
  refine ⟨g, a, motion, found, entered, fun stream continues e member => ?_, ?_, ?_, Grab.seen_reported sound⟩
  · obtain ⟨g', a', motion', found', entered', shown⟩ :=
      sent_shown small opens ⟨s₀, as, starts, goes⟩ log (other_continues found continues) e member
    rw [if_pos rfl] at shown
    rw [Option.some.inj (entered.symm.trans entered')]
    exact shown
  · rw [seen]
    exact consumer.ordered
  · rw [seen]
    exact fun v member => (consumer.known v member).2

def atRest : Source where
  serving :=
    { pipe := Pipe.construct fun _ => List.replicate 5 0
      frames := []
      pc := .idle
      sent := []
      number := fun _ => 0
      taken := [] }
  device := ⟨.top, []⟩

theorem atRest_starts : Source.Starts 5 atRest :=
  ⟨⟨rfl, rfl, rfl, fun i => by cases i <;> rfl, rfl⟩, fun _ => rfl, rfl, rfl⟩

def found : Opening where
  source := { atRest with serving := { atRest.serving with frames := [⟨{}, []⟩] } }
  own := 0

theorem found_opens : Opens 5 found :=
  ⟨⟨atRest, [.serving .getServe], atRest_starts, .next .nil rfl⟩, ⟨_, rfl, rfl⟩⟩

def served (increment : UInt8) : List Action :=
  ([.read [.got [0, 0], .got [0, 0, increment]], .examine, .send] : List Grab.DeviceAction).map
      (fun a => .grab 0 (.device a)) ++
    ([.enter, .lock, .locked, .waitForData, .unlock 0, .leave] : List (ServeFrame.Action Frame)).map
      fun a => .grab 0 (.delivery (.serving a))

/-- A client subscribes, the call for its packet gets two reports, and the packet is sent. -/
def onePacket : List Action :=
  .server :: .datagram ⟨1, 1⟩ (dataRequest 7) :: List.replicate 6 .server ++ [.sender 0, .sender 0] ++
    .grab 0 .call :: served 10 ++ [.grab 0 (.delivery (.acquire true)), .grab 0 (.delivery .release)] ++
    served 13 ++ [.acquire false, .read, .release].map (fun a => .grab 0 (.delivery a)) ++
    [.sender 0, .sender 0]

def unstarted : State := ⟨Server.started, Timeline.idleAdapter, fun _ => none, fun _ => none⟩

theorem packets_from_reports_one :
    ∃ (s : State) (sent : List (Client × List UInt8)) (g : Grab.State) (a : Adapter) (motion : MotionData),
      s.server.log = [] ++ .broadcast 0 1 sent :: [.request ⟨1, 1⟩] ∧
      sent.map Prod.fst = [⟨⟨1, 1⟩, 7, 0⟩] ∧ s.grabs 0 = some g ∧
      g.delivery.seen.map ServeFrame.View.frame = [[0, 0, 0, 0, 13], [0, 0, 0, 0, 10]] ∧
      (∀ stream, Continues stream g.delivery.seen → ∀ d ∈ sent, Streaming.readMotion d.2 =
        ((enter a motion).callAt stream (fun _ => still) 0).motion) ∧
      ∀ v ∈ g.delivery.seen.dropLast, Reported 5 g.device.reads v.frame := by
  have run : Runs.Run (State.step (fun _ => found) fun _ => still) unstarted onePacket.reverse _ :=
    Runs.run_of_execute rfl
  have starts : Starts unstarted := ⟨started_starts, rfl, fun _ => rfl, fun _ => rfl⟩
  obtain ⟨g, a, motion, here, _, shows, _, _, reported⟩ :=
    packets_from_reports (by decide) (fun _ => found_opens) ⟨_, _, starts, run⟩
      (show _ = [] ++ Event.broadcast 0 1 _ :: [Event.request ⟨1, 1⟩] from rfl) (by simp)
  refine ⟨_, _, g, a, motion, rfl, rfl, here, ?_, shows, reported⟩
  obtain rfl := Option.some.inj here
  rfl

end EndToEnd
