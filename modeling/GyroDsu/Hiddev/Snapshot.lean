import GyroDsu.Hiddev.Served

/-
What a consumer sees of the served frames: a frame that stands still while the lock is
held, and never the same or an earlier one at the next lock.
-/
namespace Snapshot
open Pipe Serves ServeFrame

variable {T : Type}

theorem view_changes {s t : State T} {a : Action T} (step : s.step a = some t) :
    t.view = s.view ∨ s.pc = .waiting := by
  cases step_cases step with
  | fill value => exact Or.inl (by simp only [State.view, write_bufRcv, mark_bufRcv, fill_received])
  | sendData => exact Or.inl (by simp only [State.view, sendData_bufRcv, mark_bufRcv, sendData_received])
  | waitForData waiting => exact Or.inr waiting
  | _ => exact Or.inl rfl

theorem held_view {s t : State T} (sound : Sound s) {i : Nat} {c : Consumer T}
    (here : s.frames[i]? = some c) (held : c.serve.consumed) {a : Action T} (step : s.step a = some t) :
    t.view = s.view :=
  (view_changes step).resolve_right (held_not_waiting sound.served.consumers here held)

theorem acquired_latest {s t : State T} (sound : Sound s) {i : Nat} {garbage : Bool} {c : Consumer T}
    (here : s.frames[i]? = some c) (step : s.step (.acquire i garbage) = some t) :
    (∃ serve, t.frames[i]? = some ⟨serve, s.view :: c.seen⟩) ∧ s.taken.head? = some s.view.number := by
  obtain ⟨c', here', rest⟩ := Option.bind_eq_some_iff.mp step
  obtain ⟨serve, got, rfl⟩ := Option.map_eq_some_iff.mp rest
  obtain rfl : c = c' := Option.some.inj (here.symm.trans here')
  obtain ⟨_, served, _⟩ := getConsumeLock_cases got
  obtain ⟨some_taken, _⟩ := (sound.consumers i c here).due (Or.inl served)
  constructor
  · refine ⟨serve, ?_⟩
    rw [List.getElem?_set_self (List.getElem?_eq_some_iff.mp here).1]
  · exact sound.latest.resolve_right some_taken

/-- In every reachable state: what a consumer holds stands still, each acquisition gets
    the frame taken from the pipe last, and no consumer sees a frame twice, out of order or
    before it has been received. -/
theorem serving_is_snapshot {s : State T} (reached : Runs.Reachable State.step Starts s)
    {i : Nat} {c : Consumer T} (here : s.frames[i]? = some c) :
    (c.serve.consumed → c.seen.head? = some s.view ∧ ∀ a t, s.step a = some t → t.view = s.view) ∧
    (∀ garbage t, s.step (.acquire i garbage) = some t →
      (∃ serve, t.frames[i]? = some ⟨serve, s.view :: c.seen⟩) ∧ s.taken.head? = some s.view.number) ∧
    (c.seen.map View.number).Pairwise (· > ·) ∧
    ∀ v ∈ c.seen, v.number ∈ s.taken ∧ s.sentAs v.number = some v.frame := by
  have sound := reachable_sound reached
  have consumer := sound.consumers i c here
  constructor
  · intro held
    exact ⟨consumer.holding held, fun a t step => held_view sound here held step⟩
  constructor
  · intro garbage t step
    exact acquired_latest sound here step
  · exact ⟨consumer.ordered, consumer.known⟩

def empty : State Nat where
  pipe := construct fun _ => 0
  frames := []
  pc := .idle
  sent := []
  number := fun _ => 0
  taken := []

theorem empty_starts : Starts empty := by
  constructor
  · rfl
  · rfl
  · rfl
  · intro i
    cases i <;> rfl
  · rfl

def servedOnce : List (Action Nat) :=
  [.getServe, .fill 7, .sendData, .enter, .lock, .locked, .waitForData, .unlock 0, .leave,
    .acquire 0 true, .fill 8, .sendData]

/-- The consumer then: its own lock, made by moving, holds garbage in `moved`. -/
def reading : Consumer Nat := ⟨⟨false, some (.consumer ⟨true, true⟩)⟩, [⟨.inst1, 1, 7⟩]⟩

theorem serving_is_snapshot_served_once :
    ∃ s, Runs.execute State.step empty servedOnce = some s ∧ s.frames[0]? = some reading ∧
      ∀ a t, s.step a = some t → t.view = s.view := by
  have run : Runs.Run State.step empty servedOnce.reverse _ := Runs.run_of_execute rfl
  refine ⟨_, rfl, rfl, ?_⟩
  have held : reading.serve.consumed := ⟨⟨true, true⟩, rfl⟩
  exact ((serving_is_snapshot ⟨empty, _, empty_starts, run⟩ (i := 0) (c := reading) rfl).1 held).2

end Snapshot
