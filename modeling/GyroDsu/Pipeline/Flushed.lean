import GyroDsu.Pipeline.LatestValue

/-
PipeOut when Flush is used as well: a wait then returns without anything having been sent,
and what it receives is what the swap of the buffers happens to bring back.
-/
namespace Flushed
open Pipe Mailbox

variable {T : Type}

inductive Entry (T : Type) where
  | call (e : Event T)
  | flushed

inductive Action (T : Type) where
  | call (a : LatestValue.Action T)
  | flush

structure State (T : Type) where
  pipe : PipeOut T
  log : List (Entry T)

def start (object : Inst → T) : State T := ⟨construct object, []⟩

/-- A call as it is without Flush, on a log of its own. -/
def State.step (s : State T) : Action T → Option (State T)
  | .call a =>
    (LatestValue.State.step ⟨s.pipe, []⟩ a).map fun t => ⟨t.pipe, t.log.map Entry.call ++ s.log⟩
  | .flush => some ⟨s.pipe.flush, .flushed :: s.log⟩

def due : List (Entry T) → Bool
  | [] => false
  | .call (.sent _) :: _ => true
  | .call (.received _) :: _ => false
  | .flushed :: _ => true
  | _ :: log => due log

def latest : List (Entry T) → Option T
  | [] => none
  | .call (.sent value) :: _ => some value
  | .call (.received _) :: _ => none
  | _ :: log => latest log

/-- All that the receiving thread has had, newest first: the instances it starts with count. -/
def had (object : Inst → T) : List (Entry T) → List T
  | [] => [object .inst3, object .inst2]
  | .call (.received value) :: log => value :: had object log
  | _ :: log => had object log

def previous (object : Inst → T) (log : List (Entry T)) : T := (had object log).getD 1 (object .inst2)

def current (object : Inst → T) (log : List (Entry T)) : T := (had object log).getD 0 (object .inst3)

def next (object : Inst → T) (log : List (Entry T)) : T := (latest log).getD (previous object log)

structure Sound (object : Inst → T) (s : State T) : Prop where
  flag : s.pipe.bufWasSent = due s.log
  current : s.pipe.received = current object s.log
  next : s.pipe.object s.pipe.bufSent = next object s.log

theorem take_received (p : PipeOut T) : p.take.received = p.object p.bufSent := rfl

theorem take_sound {object : Inst → T} {s : State T} (h : Sound object s) :
    Sound object ⟨s.pipe.take, .call (.received s.pipe.take.received) :: s.log⟩ := by
  refine ⟨rfl, rfl, ?_⟩
  have kept : s.pipe.received = current object s.log := h.current
  have one : ∀ l : List T, ∀ x y z : T, l ≠ [] → (x :: l).getD 1 y = l.getD 0 z := by
    intro l x y z some_l
    cases l with
    | nil => exact absurd rfl some_l
    | cons w l => rfl
  have some_had : ∀ log : List (Entry T), had object log ≠ [] := by
    intro log
    induction log with
    | nil => exact List.cons_ne_nil _ _
    | cons e log ih =>
      cases e with
      | flushed => exact ih
      | call e =>
        cases e with
        | received value => exact List.cons_ne_nil _ _
        | sent | refused | asked => exact ih
  change s.pipe.received = ((had object (.call (.received s.pipe.take.received) :: s.log)).getD 1 (object .inst2))
  rw [kept, had, one _ _ _ (object .inst3) (some_had s.log)]
  rfl

theorem call_sound {object : Inst → T} {s : State T} {a : LatestValue.Action T} {t : LatestValue.State T}
    (h : Sound object s) (step : LatestValue.State.step ⟨s.pipe, []⟩ a = some t) :
    Sound object ⟨t.pipe, t.log.map Entry.call ++ s.log⟩ := by
  cases a with
  | fill change =>
    obtain rfl := Option.some.inj step
    refine ⟨h.flag, ?_, ?_⟩
    · exact (fill_received s.pipe _).trans h.current
    · exact (write_other s.pipe _ s.pipe.mod_sent.symm).trans h.next
  | sendData =>
    obtain rfl := Option.some.inj step
    exact ⟨rfl, h.current, rfl⟩
  | wasReceived =>
    obtain rfl := Option.some.inj step
    exact ⟨h.flag, h.current, h.next⟩
  | waitForData =>
    obtain ⟨pipe, waited, rfl⟩ := Option.map_eq_some_iff.mp step
    obtain ⟨_, rfl⟩ := waitForData_cases waited
    exact take_sound h
  | waitForDataFor =>
    obtain rfl := Option.some.inj step
    cases sent : s.pipe.bufWasSent with
    | true => exact take_sound h
    | false => exact ⟨h.flag, h.current, h.next⟩
  | tryData =>
    obtain rfl := Option.some.inj step
    cases sent : s.pipe.bufWasSent with
    | true => exact take_sound h
    | false => exact ⟨h.flag, h.current, h.next⟩

theorem step_sound {object : Inst → T} {s t : State T} {a : Action T} (h : Sound object s)
    (step : s.step a = some t) : Sound object t := by
  cases a with
  | call a =>
    obtain ⟨u, called, rfl⟩ := Option.map_eq_some_iff.mp step
    exact call_sound h called
  | flush =>
    obtain rfl := Option.some.inj step
    exact ⟨rfl, h.current, h.next⟩

theorem run_sound {object : Inst → T} {actions : List (Action T)} {t : State T}
    (run : Runs.Run State.step (start object) actions t) : Sound object t :=
  Runs.run_invariant (Sound object) (fun _ _ _ h step => step_sound h step) run ⟨rfl, rfl, rfl⟩

/-- Where the values received come from: an instance that nobody has sent is never received,
    unless it was there at the start. -/
def Origin (object : Inst → T) (log : List (Entry T)) (value : T) : Prop :=
  value = object .inst2 ∨ value = object .inst3 ∨ .call (.sent value) ∈ log

theorem origin_later {object : Inst → T} {log : List (Entry T)} {value : T} (e : Entry T)
    (origin : Origin object log value) : Origin object (e :: log) value :=
  origin.imp_right (Or.imp_right (List.mem_cons_of_mem _))

theorem latest_origin {object : Inst → T} {log : List (Entry T)} {value : T}
    (newest : latest log = some value) : Origin object log value := by
  induction log with
  | nil => cases newest
  | cons e log ih =>
    cases e with
    | flushed => exact origin_later _ (ih newest)
    | call e =>
      cases e with
      | sent v =>
        obtain rfl : v = value := Option.some.inj newest
        exact Or.inr (Or.inr List.mem_cons_self)
      | received v => cases newest
      | refused | asked => exact origin_later _ (ih newest)

def Followed (object : Inst → T) : List (Entry T) → Prop
  | [] => True
  | .call (.received value) :: log => due log = true ∧ value = next object log ∧ Followed object log
  | _ :: log => Followed object log

theorem had_origin {object : Inst → T} {log : List (Entry T)} (followed : Followed object log) :
    ∀ value ∈ had object log, Origin object log value := by
  induction log with
  | nil =>
    intro value member
    rcases List.mem_cons.mp member with rfl | member
    · exact Or.inr (Or.inl rfl)
    · exact Or.inl (List.mem_singleton.mp member)
  | cons e log ih =>
    cases e with
    | flushed => exact fun value member => origin_later _ (ih followed value member)
    | call e =>
      cases e with
      | sent | refused | asked => exact fun value member => origin_later _ (ih followed value member)
      | received v =>
        obtain ⟨_, follows, before⟩ := followed
        intro value member
        rcases List.mem_cons.mp member with rfl | member
        · apply origin_later
          rw [follows, next]
          cases newest : latest log with
          | some v => exact latest_origin newest
          | none =>
            rw [Option.getD_none, previous]
            cases second : (had object log)[1]? with
            | none =>
              rw [List.getD_eq_getElem?_getD, second]
              exact Or.inl rfl
            | some v =>
              rw [List.getD_eq_getElem?_getD, second]
              exact ih before v (List.mem_of_getElem? second)
        · exact origin_later _ (ih before value member)

theorem latest_due {log : List (Entry T)} {value : T} (newest : latest log = some value) : due log = true := by
  induction log with
  | nil => cases newest
  | cons e log ih =>
    cases e with
    | flushed => rfl
    | call e =>
      cases e with
      | sent v => rfl
      | received v => cases newest
      | refused | asked => exact ih newest

theorem receive_due {object : Inst → T} {s : State T} {a : LatestValue.Action T} (h : Sound object s)
    (receives : a.receives = true) (ready : due s.log = true) :
    s.step (.call a) = some ⟨s.pipe.take, .call (.received (next object s.log)) :: s.log⟩ := by
  have sent : s.pipe.bufWasSent = true := h.flag.trans ready
  rw [← h.next, ← take_received]
  cases a with
  | waitForData => simp [State.step, LatestValue.State.step, PipeOut.waitForData, sent]
  | waitForDataFor | tryData => simp [State.step, LatestValue.State.step, LatestValue.State.take, sent]
  | fill | sendData | wasReceived => cases receives

theorem receive_idle {object : Inst → T} {s t : State T} {a : LatestValue.Action T} (h : Sound object s)
    (receives : a.receives = true) (idle : due s.log = false) (step : s.step (.call a) = some t) :
    t = ⟨s.pipe, .call .refused :: s.log⟩ := by
  have none_sent : s.pipe.bufWasSent = false := h.flag.trans idle
  cases a with
  | waitForData => simp [State.step, LatestValue.State.step, PipeOut.waitForData, none_sent] at step
  | waitForDataFor | tryData =>
    simp only [State.step, LatestValue.State.step, none_sent, Bool.false_eq_true, if_false] at step
    exact (Option.some.inj step).symm
  | fill | sendData | wasReceived => cases receives

theorem step_followed {object : Inst → T} {s t : State T} {a : Action T} (h : Sound object s)
    (followed : Followed object s.log) (step : s.step a = some t) : Followed object t.log := by
  cases a with
  | flush =>
    obtain rfl := Option.some.inj step
    exact followed
  | call a =>
    cases receives : a.receives with
    | true =>
      cases ready : due s.log with
      | true =>
        rw [receive_due h receives ready] at step
        obtain rfl := Option.some.inj step
        exact ⟨ready, rfl, followed⟩
      | false =>
        obtain rfl := receive_idle h receives ready step
        exact followed
    | false =>
      cases a with
      | fill | sendData | wasReceived =>
        obtain rfl := Option.some.inj step
        exact followed
      | waitForData | waitForDataFor | tryData => cases receives

theorem run_followed {object : Inst → T} {actions : List (Action T)} {t : State T}
    (run : Runs.Run State.step (start object) actions t) : Sound object t ∧ Followed object t.log := by
  refine ⟨run_sound run, ?_⟩
  exact (Runs.run_invariant (fun s => Sound object s ∧ Followed object s.log)
    (fun _ _ _ h step => ⟨step_sound h.1 step, step_followed h.1 h.2 step⟩) run
    ⟨⟨rfl, rfl, rfl⟩, trivial⟩).2

/-- With Flush at any time, a wait returns exactly when something was sent or flushed since the last
    receive. It never loses what was sent; where nothing was, it brings back the value before the last. -/
theorem flush_brings_back (object : Inst → T) (actions : List (Action T)) (t : State T)
    (run : Runs.Run State.step (start object) actions t) :
    t.pipe.bufWasSent = due t.log ∧ t.pipe.received = current object t.log ∧
    Followed object t.log ∧ (∀ value ∈ had object t.log, Origin object t.log value) ∧
    (∀ value, latest t.log = some value → due t.log = true) ∧
    ∀ a, a.receives = true →
      (due t.log = true →
        t.step (.call a) = some ⟨t.pipe.take, .call (.received (next object t.log)) :: t.log⟩) ∧
      (due t.log = false → ∀ u, t.step (.call a) = some u → u = ⟨t.pipe, .call .refused :: t.log⟩) := by
  obtain ⟨sound, followed⟩ := run_followed run
  exact ⟨sound.flag, sound.current, followed, had_origin followed, fun _ => latest_due,
    fun a receives => ⟨receive_due sound receives, fun idle _ => receive_idle sound receives idle⟩⟩

def flushed_twice : List (Action Nat) :=
  [.call (.fill fun _ => 5), .call .sendData, .call .tryData, .call (.fill fun _ => 7), .call .sendData,
    .call .waitForData, .flush, .call .waitForData, .flush, .call .waitForDataFor]

theorem flush_brings_back_twice :
    ∃ t : State Nat, Runs.Run State.step (start fun _ => 0) flushed_twice.reverse t ∧
      had (fun _ => 0) t.log = [7, 5, 7, 5, 0, 0] ∧ t.pipe.received = 7 ∧ t.pipe.bufWasSent = false := by
  have ends : (Runs.execute State.step (start fun _ => 0) flushed_twice).map (fun t =>
      (had (fun _ => 0) t.log, due t.log)) = some ([7, 5, 7, 5, 0, 0], false) := by
    decide
  obtain ⟨t, done, ends⟩ := Option.map_eq_some_iff.mp ends
  obtain ⟨had_six, idle⟩ := Prod.mk.inj ends
  have run := Runs.run_of_execute done
  obtain ⟨flag, holds, _⟩ := flush_brings_back (fun _ => 0) _ _ run
  rw [current, had_six] at holds
  exact ⟨t, run, had_six, holds, flag.trans idle⟩

end Flushed
