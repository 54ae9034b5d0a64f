import GyroDsu.Hiddev.Snapshot
import Mathlib.Logic.Function.Basic

/-
ServeFrame while it is stopped from a third thread and started again, with the frames filled
piece by piece. FlushPipes sends on the pipe as if it were the producer, who may be in the
middle of a frame. The read call of ReadDataApi is given its instance once (`byCall`);
ProcessData goes through GetPointerToFill for every byte.
-/
namespace Stopping
open Pipe Serves ServeFrame Runs

variable {size : Nat} {P : Type}

abbrev Frame (size : Nat) (P : Type) := Fin size → P

inductive Stage where
  | off
  | top
  | waitForServes
  | check
  | iterate
  | ended
  deriving DecidableEq, Repr

inductive Stop where
  | none
  | flushing
  | joining
  deriving DecidableEq, Repr

/-- The producer writes the piece `count` of the frame `draft` next; it has begun with `bound`
    in bufMod, and there has been a FlushPipes since if `cut`. `disturbed` is from a FlushPipes
    until a frame begun after it has been sent. -/
structure State (size : Nat) (P : Type) where
  base : ServeFrame.State (Frame size P)
  stage : Stage
  stop : Bool
  stopping : Stop
  filling : Bool
  bound : Inst
  count : Nat
  draft : Frame size P
  cut : Bool
  disturbed : Bool

inductive Action (size : Nat) (P : Type) where
  | beginFill
  | fillPiece (value : P)
  | sendData
  | serve (a : ServeFrame.Action (Frame size P))
  | shouldContinue
  | waitForServes
  | enter
  | leave
  | start
  | setStop
  | flushPipes
  | join

def inSection {T : Type} : ServeFrame.Action T → Bool
  | .fill _ | .sendData | .enter | .leave => false
  | _ => true

def State.beginFill (s : State size P) : State size P :=
  { s with
    filling := true
    bound := s.base.pipe.bufMod
    count := 0
    cut := false }

def State.target (s : State size P) (byCall : Bool) : Inst :=
  if byCall then s.bound else s.base.pipe.bufMod

def State.fillPiece (s : State size P) (inst : Inst) (value : P) (inside : s.count < size) : State size P :=
  let piece : Fin size := ⟨s.count, inside⟩
  { s with
    base := { s.base with
      pipe := s.base.pipe.write inst (Function.update (s.base.pipe.object inst) piece value)
      number := Function.update s.base.number inst 0 }
    count := s.count + 1
    draft := Function.update s.draft piece value }

def State.sendData (s : State size P) : State size P :=
  { s with
    base := { s.base with
      pipe := s.base.pipe.sendData
      sent := s.base.sent ++ [s.draft]
      number := s.base.mark (s.base.sent.length + 1) }
    filling := false
    disturbed := s.disturbed && s.cut }

def State.flushPipes (s : State size P) : State size P :=
  { s with
    base := { s.base with pipe := s.base.pipe.sendData }
    cut := true
    disturbed := true }

def State.enter (s : State size P) : State size P :=
  { s with base := { s.base with pc := .locking 0 } }

def State.step (byCall : Bool) (s : State size P) : Action size P → Option (State size P)
  | .beginFill => some s.beginFill
  | .fillPiece value =>
    if inside : s.count < size then
      if s.filling then some (s.fillPiece (s.target byCall) value inside) else none
    else none
  | .sendData => if s.filling ∧ s.count = size then some s.sendData else none
  | .serve a =>
    if inSection a then (s.base.step a).map fun base => { s with base := base } else none
  | .shouldContinue =>
    match s.stage with
    | .top => some { s with stage := if s.stop then .ended else .waitForServes }
    | .check => some { s with stage := if s.stop then .ended else .iterate }
    | _ => none
  | .waitForServes =>
    if s.stage = .waitForServes ∧ s.base.pc = .idle ∧ (s.base.frames ≠ [] ∨ s.stop) then
      some { s with stage := .check }
    else none
  | .enter => if s.stage = .iterate ∧ s.base.pc = .idle then some s.enter else none
  | .leave => (s.base.step .leave).map fun base => { s with base := base, stage := .top }
  | .start => if s.stage = .off then some { s with stage := .top, stop := false } else none
  | .setStop =>
    if s.stage ≠ .off ∧ s.stopping = .none then some { s with stop := true, stopping := .flushing }
    else none
  | .flushPipes =>
    if s.stopping = .flushing then some { s.flushPipes with stopping := .joining } else none
  | .join =>
    if s.stopping = .joining ∧ s.stage = .ended then
      some { s with stage := .off, stop := false, stopping := .none }
    else none

def construct (object : Inst → Frame size P) (draft : Frame size P) : State size P where
  base := ⟨Pipe.construct object, [], .idle, [], fun _ => 0, []⟩
  stage := .off
  stop := false
  stopping := .none
  filling := false
  bound := .inst1
  count := 0
  draft := draft
  cut := false
  disturbed := false

/-- ServeFrame does not receive what a FlushPipes has left behind. -/
def Undisturbed (s : State size P) : Action size P → Prop
  | .serve .waitForData => s.disturbed = false
  | _ => True

instance (s : State size P) : (a : Action size P) → Decidable (Undisturbed s a)
  | .serve .waitForData => inferInstanceAs (Decidable (s.disturbed = false))
  | .serve (.fill _) | .serve .sendData | .serve .getServe | .serve (.acquire _ _) | .serve (.release _)
  | .serve .enter | .serve .lock | .serve .grow | .serve .locked | .serve (.unlock _) | .serve .leave
  | .beginFill | .fillPiece _ | .sendData | .shouldContinue | .waitForServes | .enter | .leave | .start
  | .setStop | .flushPipes | .join => .isTrue trivial

def Action.quiet : Action size P → Bool
  | .shouldContinue | .waitForServes | .start | .setStop | .join => true
  | _ => false

inductive Change (byCall : Bool) (s : State size P) : Action size P → State size P → Prop where
  | beginFill : Change byCall s .beginFill s.beginFill
  | fillPiece (value : P) (inside : s.count < size) (filling : s.filling = true) :
      Change byCall s (.fillPiece value) (s.fillPiece (s.target byCall) value inside)
  | sendData (filling : s.filling = true) (full : s.count = size) : Change byCall s .sendData s.sendData
  | serve (a : ServeFrame.Action (Frame size P)) (base : ServeFrame.State (Frame size P))
      (inside : inSection a = true) (step : s.base.step a = some base) :
      Change byCall s (.serve a) { s with base := base }
  | enter (idle : s.base.pc = .idle) : Change byCall s .enter s.enter
  | leave (base : ServeFrame.State (Frame size P)) (step : s.base.step .leave = some base) :
      Change byCall s .leave { s with base := base, stage := .top }
  | flushPipes (flushing : s.stopping = .flushing) :
      Change byCall s .flushPipes { s.flushPipes with stopping := .joining }
  | aside (a : Action size P) (quiet : a.quiet = true) (stage : Stage) (stop : Bool)
      (stopping : Stop) :
      Change byCall s a { s with stage := stage, stop := stop, stopping := stopping }

theorem serve_cases {byCall : Bool} {s t : State size P} {a : ServeFrame.Action (Frame size P)}
    (step : s.step byCall (.serve a) = some t) :
    inSection a = true ∧ ∃ base, s.base.step a = some base ∧ t = { s with base := base } := by
  simp only [State.step] at step
  split at step
  · rename_i inside
    obtain ⟨base, moved, rfl⟩ := Option.map_eq_some_iff.mp step
    exact ⟨inside, base, moved, rfl⟩
  · cases step

theorem step_cases {byCall : Bool} {s t : State size P} {a : Action size P}
    (step : s.step byCall a = some t) : Change byCall s a t := by
  cases a with
  | beginFill =>
    obtain rfl := Option.some.inj step
    exact .beginFill
  | fillPiece value =>
    simp only [State.step] at step
    split at step
    · rename_i inside
      obtain ⟨filling, done⟩ := Option.ite_none_right_eq_some.mp step
      obtain rfl := Option.some.inj done
      exact .fillPiece value inside filling
    · cases step
  | sendData =>
    obtain ⟨⟨filling, full⟩, done⟩ := Option.ite_none_right_eq_some.mp step
    obtain rfl := Option.some.inj done
    exact .sendData filling full
  | serve a =>
    obtain ⟨inside, base, moved, rfl⟩ := serve_cases step
    exact .serve a base inside moved
  | shouldContinue =>
    simp only [State.step] at step
    split at step
    · obtain rfl := Option.some.inj step
      exact .aside _ rfl _ s.stop s.stopping
    · obtain rfl := Option.some.inj step
      exact .aside _ rfl _ s.stop s.stopping
    · cases step
  | enter =>
    obtain ⟨⟨_, idle⟩, done⟩ := Option.ite_none_right_eq_some.mp step
    obtain rfl := Option.some.inj done
    exact .enter idle
  | leave =>
    obtain ⟨base, moved, rfl⟩ := Option.map_eq_some_iff.mp step
    exact .leave base moved
  | flushPipes =>
    obtain ⟨flushing, done⟩ := Option.ite_none_right_eq_some.mp step
    obtain rfl := Option.some.inj done
    exact .flushPipes flushing
  | waitForServes =>
    obtain ⟨_, done⟩ := Option.ite_none_right_eq_some.mp step
    obtain rfl := Option.some.inj done
    exact .aside _ rfl .check s.stop s.stopping
  | start =>
    obtain ⟨_, done⟩ := Option.ite_none_right_eq_some.mp step
    obtain rfl := Option.some.inj done
    exact .aside _ rfl .top false s.stopping
  | setStop =>
    obtain ⟨_, done⟩ := Option.ite_none_right_eq_some.mp step
    obtain rfl := Option.some.inj done
    exact .aside _ rfl s.stage true .flushing
  | join =>
    obtain ⟨_, done⟩ := Option.ite_none_right_eq_some.mp step
    obtain rfl := Option.some.inj done
    exact .aside _ rfl .off false .none

structure Sound (s : State size P) : Prop where
  served : Served s.base
  numbers : ∀ i, s.base.number i ≤ s.base.sent.length
  disturbs : s.cut = true → s.disturbed = true
  aside : s.filling = true → s.bound ≠ s.base.pipe.bufRcv
  whole : s.filling = true → s.cut = false → s.bound = s.base.pipe.bufMod ∧
    ∀ j : Fin size, j < s.count → s.base.pipe.toFill j = s.draft j
  waiting : s.disturbed = false → s.base.pipe.bufWasSent = true →
    s.base.number s.base.pipe.bufRcv < s.base.number s.base.pipe.bufSent ∧
      s.base.sentAs (s.base.number s.base.pipe.bufSent) = some (s.base.pipe.object s.base.pipe.bufSent)

theorem beside_sound {s t : State size P} (h : Sound s) (served : Served t.base)
    (pipe : t.base.pipe = s.base.pipe) (sent : t.base.sent = s.base.sent)
    (number : t.base.number = s.base.number)
    (filler : (t.filling, t.bound, t.count, t.draft, t.cut, t.disturbed) =
      (s.filling, s.bound, s.count, s.draft, s.cut, s.disturbed)) : Sound t := by
  simp only [Prod.mk.injEq] at filler
  obtain ⟨filling, bound, count, draft, cut, disturbed⟩ := filler
  have sentAs : t.base.sentAs = s.base.sentAs := by
    funext k
    rw [State.sentAs, State.sentAs, sent]
  constructor
  · exact served
  · rw [number, sent]
    exact h.numbers
  · rw [cut, disturbed]
    exact h.disturbs
  · rw [filling, bound, pipe]
    exact h.aside
  · rw [filling, cut, bound, pipe, count, draft]
    exact h.whole
  · rw [disturbed, pipe, number, sentAs]
    exact h.waiting

theorem beginFill_sound {s : State size P} (h : Sound s) : Sound s.beginFill := by
  constructor
  · exact h.served
  · exact h.numbers
  · intro cut
    cases cut
  · intro _
    exact s.base.pipe.mod_rcv
  · intro _ _
    refine ⟨rfl, fun j before => ?_⟩
    exact absurd before (Nat.not_lt_zero _)
  · exact h.waiting

theorem target_aside {s : State size P} (h : Sound s) (filling : s.filling = true) (byCall : Bool) :
    s.target byCall ≠ s.base.pipe.bufRcv := by
  cases byCall with
  | true => exact h.aside filling
  | false => exact s.base.pipe.mod_rcv

theorem not_cut {s : State size P} (h : Sound s) (undisturbed : s.disturbed = false) : s.cut = false := by
  cases cut : s.cut with
  | false => rfl
  | true =>
    rw [h.disturbs cut] at undisturbed
    cases undisturbed

theorem target_whole {s : State size P} (h : Sound s) (filling : s.filling = true)
    (whole : s.cut = false) (byCall : Bool) : s.target byCall = s.base.pipe.bufMod := by
  cases byCall with
  | true => exact (h.whole filling whole).1
  | false => rfl

theorem fillPiece_view {s : State size P} {inst : Inst} (value : P) (inside : s.count < size)
    (other : inst ≠ s.base.pipe.bufRcv) : (s.fillPiece inst value inside).base.view = s.base.view := by
  simp only [State.fillPiece, State.view, PipeOut.received, write_bufRcv,
    write_other _ _ other.symm, Function.update_of_ne other.symm]

theorem fillPiece_sound {s : State size P} (h : Sound s) (filling : s.filling = true) (byCall : Bool)
    (value : P) (inside : s.count < size) : Sound (s.fillPiece (s.target byCall) value inside) := by
  constructor
  · exact pipe_served h.served rfl rfl (fillPiece_view value inside (target_aside h filling byCall)) rfl
      fun k x same => same
  · intro i
    by_cases here : i = s.target byCall
    · subst here
      simp only [State.fillPiece, Function.update_self]
      exact Nat.zero_le _
    · simp only [State.fillPiece, Function.update_of_ne here]
      exact h.numbers i
  · exact h.disturbs
  · exact h.aside
  · intro _ whole
    obtain ⟨bound, written⟩ := h.whole filling whole
    have target := target_whole h filling whole byCall
    refine ⟨bound, fun j before => ?_⟩
    simp only [State.fillPiece, PipeOut.toFill, target, write_bufMod, write_same]
    by_cases last : j = ⟨s.count, inside⟩
    · rw [last, Function.update_self, Function.update_self]
    · rw [Function.update_of_ne last, Function.update_of_ne last]
      apply written
      have differs : j.val ≠ s.count := fun same => last (Fin.ext same)
      simp only [State.fillPiece] at before
      omega
  · intro undisturbed sent
    have target := target_whole h filling (not_cut h undisturbed) byCall
    have received := s.base.pipe.mod_rcv.symm
    have waiting := s.base.pipe.mod_sent.symm
    simp only [State.fillPiece, target, write_bufRcv, write_bufSent, Function.update_of_ne received,
      Function.update_of_ne waiting, write_other _ _ waiting]
    exact h.waiting undisturbed sent

theorem filled_whole {s : State size P} (h : Sound s) (filling : s.filling = true)
    (full : s.count = size) (whole : s.cut = false) : s.base.pipe.toFill = s.draft := by
  funext j
  apply (h.whole filling whole).2 j
  rw [full]
  exact j.isLt

theorem sendData_sound {s : State size P} (h : Sound s) (filling : s.filling = true)
    (full : s.count = size) : Sound s.sendData := by
  constructor
  · refine pipe_served h.served rfl rfl ?_ rfl fun k x same => sentAs_append s.base _ same
    simp only [State.sendData, State.view, sendData_bufRcv, mark_bufRcv, sendData_received]
  · intro i
    simp only [State.sendData, State.mark, List.length_append, List.length_singleton]
    split
    · exact Nat.le_refl _
    · exact Nat.le_succ_of_le (h.numbers i)
  · intro cut
    simp only [State.sendData] at cut ⊢
    rw [cut, h.disturbs cut]
    rfl
  · intro done
    cases done
  · intro done
    cases done
  · intro undisturbed _
    have whole : s.cut = false := by
      cases cut : s.cut with
      | false => rfl
      | true =>
        simp only [State.sendData, cut, h.disturbs cut] at undisturbed
        cases undisturbed
    simp only [State.sendData, sendData_bufRcv, sendData_bufSent, sendData_object, mark_bufRcv, mark_bufMod]
    refine ⟨Nat.lt_succ_of_le (h.numbers _), ?_⟩
    rw [State.sentAs, if_neg (Nat.succ_ne_zero _), Nat.succ_sub_one, List.getElem?_concat_length]
    rw [← filled_whole h filling full whole]
    rfl

theorem flushPipes_sound {s : State size P} (h : Sound s) : Sound s.flushPipes := by
  constructor
  · exact pipe_served h.served rfl rfl rfl rfl fun k x same => same
  · exact h.numbers
  · intro _
    rfl
  · exact h.aside
  · intro _ whole
    cases whole
  · intro undisturbed
    cases undisturbed

theorem enter_served {s : State size P} (h : Served s.base) (idle : s.base.pc = .idle) :
    Served s.enter.base :=
  served_of_consumers h (enter_consumers (numbered_lenient s.base) h.consumers idle) rfl rfl rfl rfl

theorem receive_sound {s : State size P} {base : ServeFrame.State (Frame size P)} (h : Sound s)
    (undisturbed : s.disturbed = false) (step : s.base.step .waitForData = some base) :
    Sound { s with base := base } := by
  have whole := not_cut h undisturbed
  cases ServeFrame.step_cases step with
  | waitForData _ sent =>
    obtain ⟨newer, frame⟩ := h.waiting undisturbed sent
    constructor
    · exact take_served h.served step newer frame
    · exact h.numbers
    · exact h.disturbs
    · intro filling
      simp only [take_bufRcv, (h.whole filling whole).1]
      exact s.base.pipe.mod_sent
    · exact h.whole
    · intro _ again
      cases again

theorem serve_sound {s : State size P} {a : ServeFrame.Action (Frame size P)}
    {base : ServeFrame.State (Frame size P)} (h : Sound s) (inside : inSection a = true)
    (undisturbed : Undisturbed s (.serve a)) (step : s.base.step a = some base) :
    Sound { s with base := base } := by
  have quiet : a.quiet → Sound { s with base := base } := by
    intro quiet
    obtain ⟨pipe, sent, number, _⟩ := quiet_same quiet step
    exact beside_sound h (quiet_served h.served quiet step) pipe sent number rfl
  cases a with
  | fill | sendData => cases inside
  | waitForData => exact receive_sound h undisturbed step
  | getServe | acquire | release | enter | lock | grow | locked | unlock | leave => exact quiet trivial

theorem step_sound {byCall : Bool} {s t : State size P} {a : Action size P} (h : Sound s)
    (undisturbed : Undisturbed s a) (step : s.step byCall a = some t) : Sound t := by
  cases step_cases step with
  | beginFill => exact beginFill_sound h
  | fillPiece value inside filling => exact fillPiece_sound h filling byCall value inside
  | sendData filling full => exact sendData_sound h filling full
  | serve a base inside moved => exact serve_sound h inside undisturbed moved
  | enter idle => exact beside_sound h (enter_served h.served idle) rfl rfl rfl rfl
  | leave base moved =>
    have quiet : ServeFrame.Action.quiet (T := Frame size P) .leave := trivial
    obtain ⟨pipe, sent, number, _⟩ := quiet_same quiet moved
    exact beside_sound h (quiet_served h.served quiet moved) pipe sent number rfl
  | flushPipes => exact beside_sound (flushPipes_sound h) (flushPipes_sound h).served rfl rfl rfl rfl
  | aside => exact beside_sound h h.served rfl rfl rfl rfl

theorem construct_sound (object : Inst → Frame size P) (draft : Frame size P) :
    Sound (construct object draft) := by
  constructor
  · refine ⟨Or.inr rfl, fun some_taken => absurd rfl some_taken, fun i c here => ?_⟩
    cases here
  · intro i
    exact Nat.le_refl _
  · intro cut
    cases cut
  · intro filling
    cases filling
  · intro filling
    cases filling
  · intro _ sent
    cases sent

theorem held_still {byCall : Bool} {s t : State size P} {a : Action size P} (h : Sound s) {i : Nat}
    {c : Consumer (Frame size P)} (here : s.base.frames[i]? = some c) (held : c.serve.consumed)
    (step : s.step byCall a = some t) : t.base.view = s.base.view := by
  cases step_cases step with
  | beginFill | enter | aside => rfl
  | fillPiece value inside filling => exact fillPiece_view value inside (target_aside h filling byCall)
  | sendData =>
    simp only [State.sendData, State.view, sendData_bufRcv, mark_bufRcv, sendData_received]
  | serve a base inside moved =>
    exact (Snapshot.view_changes moved).resolve_right (held_not_waiting h.served.consumers here held)
  | leave base moved =>
    exact (Snapshot.view_changes moved).resolve_right (held_not_waiting h.served.consumers here held)
  | flushPipes => rfl

/-- In every run in which ServeFrame never receives between a FlushPipes and the SendData of the
    first frame begun after it: what a consumer holds is the latest it acquired and no step
    changes it, and each frame it has had is one the producer filled and sent, in the order sent
    and none of them twice. -/
theorem served_whole_and_new {byCall : Bool} {object : Inst → Frame size P} {draft : Frame size P}
    {moves : List (Move (State size P) (Action size P))} {s : State size P}
    (path : Path (State.step byCall) (construct object draft) moves s)
    (undisturbed : ∀ move ∈ moves, Undisturbed move.before move.action)
    {i : Nat} {c : Consumer (Frame size P)} (here : s.base.frames[i]? = some c) :
    (c.serve.consumed → c.seen.head? = some s.base.view ∧
      ∀ a t, s.step byCall a = some t → t.base.view = s.base.view) ∧
    (c.seen.map View.number).Pairwise (· > ·) ∧
    ∀ v ∈ c.seen, s.base.sentAs v.number = some v.frame := by
  have sound : Sound s := by
    refine path_invariant_of Sound Undisturbed ?_ path undisturbed (construct_sound object draft)
    intro u a v h met step
    exact step_sound h met step
  have attends := sound.served.consumers i c here
  constructor
  · intro held
    exact ⟨attends.holding held, fun a t step => held_still sound here held step⟩
  constructor
  · exact attends.history.ordered
  · intro v member
    exact (attends.history.known v member).2

def zeros : State 2 Nat := construct (fun _ _ => 0) fun _ => 0

def iteration : List (Action 2 Nat) :=
  [.shouldContinue, .waitForServes, .shouldContinue, .enter, .serve .lock, .serve .locked]

def stoppedBetween : List (Action 2 Nat) :=
  [.serve .getServe, .start, .beginFill, .fillPiece 7, .fillPiece 8, .sendData] ++ iteration ++
    [.serve .waitForData, .serve (.unlock 0), .leave, .serve (.acquire 0 true), .beginFill, .fillPiece 9,
      .setStop, .flushPipes, .shouldContinue, .join, .start]

theorem served_whole_and_new_stopped :
    ∃ moves s c, Path (State.step true) zeros moves s ∧ s.base.frames[0]? = some c ∧
      c.seen.map (fun v => (v.frame 0, v.frame 1)) = [(7, 8)] ∧
      ∀ a t, s.step true a = some t → t.base.view = s.base.view := by
  have path : Path (State.step true) zeros _ _ := path_of_record stoppedBetween Path.nil rfl
  refine ⟨_, _, _, path, rfl, rfl, ?_⟩
  exact ((served_whole_and_new path (by decide) (i := 0) rfl).1 ⟨⟨true, true⟩, rfl⟩).2

def stoppedInside : List (Action 2 Nat) :=
  [.serve .getServe, .start, .beginFill, .fillPiece 7] ++ iteration ++
    [.setStop, .flushPipes, .serve .waitForData, .serve (.unlock 0), .serve (.acquire 0 true)]

/-- The consumer then holds half a frame; nothing has been sent, and the producer's next piece
    goes into the frame held. -/
theorem unfinished_frame_served :
    ∃ moves s c, Path (State.step true) zeros moves s ∧ s.base.frames[0]? = some c ∧
      c.serve.consumed ∧ c.seen.map (fun v => (v.frame 0, v.frame 1)) = [(7, 0)] ∧ s.base.sent = [] ∧
      (¬∀ v ∈ c.seen, s.base.sentAs v.number = some v.frame) ∧
      ∃ t, s.step true (.fillPiece 8) = some t ∧ (t.base.view.frame 0, t.base.view.frame 1) = (7, 8) := by
  have path : Path (State.step true) zeros _ _ := path_of_record stoppedInside Path.nil rfl
  refine ⟨_, _, _, path, rfl, ⟨_, rfl⟩, rfl, rfl, ?_, _, rfl, rfl⟩
  intro sent
  have known := sent _ List.mem_cons_self
  cases known

end Stopping
