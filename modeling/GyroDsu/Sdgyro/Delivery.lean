import GyroDsu.Hiddev.Served
import GyroDsu.Sdgyro.Session

/-
The adapter as a consumer of ServeFrame. Its thread takes frames under consume locks and
reads them behind GetPointer, while the sender of frames, Execute and the other consumers
go on between any two of its steps. What others do to NoGyro is left out.
-/
namespace Delivery
open SdHidFrame CemuhookAdapter AdapterSession Serves
open ServeFrame (View Consumer)

/-- Where setMotionDataNewFrame stands: at the lock of the ignored frame, holding it, at
    the top of the loop, with a frame locked but not read, with a repeated frame still
    locked, and at a return under the lock. -/
inductive Phase where
  | outside
  | ignore
  | ignoring
  | loop (repeatedLoop : Nat)
  | frame (repeatedLoop : Nat)
  | next (repeatedLoop : Nat)
  | leave (exit : Exit)
  deriving DecidableEq, Repr

/-- `own` is the position of the adapter's Serve; `results` is history, newest first. -/
structure State where
  serving : ServeFrame.State Frame
  own : Nat
  adapter : Adapter
  motion : MotionData
  phase : Phase
  results : List CallResult

inductive Action where
  | serving (action : ServeFrame.Action Frame)
  | call
  | acquire (garbage : Bool)
  | read
  | replicate
  | release

def consumes (own : Nat) : ServeFrame.Action Frame → Bool
  | .acquire i _ | .release i => i == own
  | _ => false

def State.seen (s : State) : List (View Frame) := (s.serving.frames[s.own]?).elim [] Consumer.seen

def State.serve (s : State) (a : ServeFrame.Action Frame) : Option State :=
  (s.serving.step a).map fun serving => { s with serving := serving }

def cool (a : Adapter) : Adapter :=
  if a.noGyroCooldown > 0 then { a with noGyroCooldown := a.noGyroCooldown - 1 } else a

def entry (a : Adapter) : Phase := if a.ignoreFirst then .ignore else .loop maxRepeatedLoop

/-- The body of the loop under the lock. -/
def State.read (s : State) (repeatedLoop : Nat) : State :=
  let frame := getSdFrame s.serving.view.frame
  let a := s.adapter.signalNoGyro frame
  if a.repeated frame then
    { s with
      adapter := a
      phase := match repeatedLoop with
        | 0 => .leave .repeated
        | repeatedLoop + 1 => .next repeatedLoop }
  else
    let (a, motion) := a.accept frame s.motion
    { s with adapter := a, motion := motion, phase := .leave (.accepted (s.seen.length - 1)) }

-- What the caller leaves in the motion structure after its calls.
variable (overwritten : Nat → MotionData)

def State.leave (s : State) (exit : Exit) : State :=
  { s with
    motion := if s.adapter.isPersistent then s.motion else overwritten s.results.length
    phase := .outside
    results := ⟨s.adapter, s.motion, s.seen.length, exit⟩ :: s.results }

def State.step (s : State) : Action → Option State
  | .serving action => if consumes s.own action then none else s.serve action
  | .call =>
    if s.phase = .outside then
      some { s with adapter := cool s.adapter, phase := entry s.adapter }
    else none
  | .acquire garbage =>
    match s.phase with
    | .ignore =>
      (s.serve (.acquire s.own garbage)).map fun t =>
        { t with adapter := { t.adapter with ignoreFirst := false }, phase := .ignoring }
    | .loop repeatedLoop =>
      if s.adapter.toReplicate = 0 then
        (s.serve (.acquire s.own garbage)).map fun t => { t with phase := .frame repeatedLoop }
      else none
    | _ => none
  | .read =>
    match s.phase with
    | .frame repeatedLoop => some (s.read repeatedLoop)
    | _ => none
  | .replicate =>
    match s.phase with
    | .loop _ =>
      if s.adapter.toReplicate = 0 then none
      else
        let (a, motion) := s.adapter.replicate s.motion
        some ({ s with adapter := a, motion := motion }.leave overwritten .replicated)
    | _ => none
  | .release =>
    match s.phase with
    | .ignoring => (s.serve (.release s.own)).map fun t => { t with phase := .loop maxRepeatedLoop }
    | .next repeatedLoop =>
      (s.serve (.release s.own)).map fun t => { t with phase := .loop repeatedLoop }
    | .leave exit => (s.serve (.release s.own)).map fun t => t.leave overwritten exit
    | _ => none

structure Starts (s : State) : Prop where
  serving : Runs.Reachable ServeFrame.State.step ServeFrame.Starts s.serving
  own : ∃ c, s.serving.frames[s.own]? = some c ∧ c.seen = []
  phase : s.phase = .outside
  results : s.results = []

def State.session (s : State) : Session := ⟨s.adapter, s.motion, 0, none⟩

def Continues (stream : Nat → Frame) : List (View Frame) → Prop
  | [] => True
  | v :: seen => stream seen.length = v.frame ∧ Continues stream seen

def AsCalls (callAt : Nat → CallResult) : List CallResult → Prop
  | [] => True
  | r :: results => r = callAt results.length ∧ AsCalls callAt results

/-- What the call comes to if the rest of it has the stream for itself; between two calls,
    what the next one comes to. -/
def State.rest (stream : Nat → Frame) (s : State) : CallResult :=
  match s.phase with
  | .outside => setMotionDataNewFrame stream s.adapter s.motion s.seen.length
  | .ignore =>
    grabLoop stream maxRepeatedLoop { s.adapter with ignoreFirst := false } s.motion (s.seen.length + 1)
  | .ignoring => grabLoop stream maxRepeatedLoop s.adapter s.motion s.seen.length
  | .loop repeatedLoop | .next repeatedLoop =>
    grabLoop stream repeatedLoop s.adapter s.motion s.seen.length
  | .frame repeatedLoop => grabLoop stream repeatedLoop s.adapter s.motion (s.seen.length - 1)
  | .leave exit => ⟨s.adapter, s.motion, s.seen.length, exit⟩

def Phase.holds : Phase → Bool
  | .ignoring | .frame _ | .next _ | .leave _ => true
  | _ => false

/-- A step of anybody else leaves what a consumer has got, and its lock. -/
theorem others_leave {T : Type} {s t : ServeFrame.State T} {a : ServeFrame.Action T} {i : Nat} {c : Consumer T}
    (sound : ServeFrame.Sound s) (here : s.frames[i]? = some c)
    (other : ∀ garbage, a ≠ .acquire i garbage) (other' : a ≠ .release i) (step : s.step a = some t) :
    ∃ c', t.frames[i]? = some c' ∧ c'.seen = c.seen ∧ (c'.serve.consumed ↔ c.serve.consumed) := by
  have kept : ∀ {j : Nat} {d : Consumer T} (serve : Serve), s.frames[j]? = some d →
      (j = i → (serve.consumed ↔ c.serve.consumed)) →
      ∃ c', (s.frames.set j { d with serve := serve })[i]? = some c' ∧ c'.seen = c.seen ∧
        (c'.serve.consumed ↔ c.serve.consumed) := by
    intro j d serve there keeps
    by_cases same : j = i
    · subst same
      obtain rfl : c = d := Option.some.inj (here.symm.trans there)
      exact ⟨_, List.getElem?_set_self (List.getElem?_eq_some_iff.mp here).1, rfl, keeps rfl⟩
    · exact ⟨c, (List.getElem?_set_ne same).trans here, rfl, Iff.rfl⟩
  cases ServeFrame.step_cases step with
  | getServe =>
    refine ⟨c, ?_, rfl, Iff.rfl⟩
    simp only
    rw [List.getElem?_append_left (List.getElem?_eq_some_iff.mp here).1]
    exact here
  | acquire j garbage d serve there =>
    refine ⟨c, ?_, rfl, Iff.rfl⟩
    simp only
    rw [List.getElem?_set_ne (fun same => other garbage (by rw [same]))]
    exact here
  | release j d serve there =>
    exact kept serve there fun same => absurd (by rw [same]) other'
  | lock next d serve _ there got =>
    refine kept serve there fun same => ?_
    subst same
    obtain rfl : c = d := Option.some.inj (here.symm.trans there)
    obtain ⟨free, rfl⟩ := getServeLock_cases got
    refine iff_of_false ?_ (ServeFrame.not_owned _ free).1
    rintro ⟨lock, consumed⟩
    cases consumed
  | unlock j left d serve _ _ there done =>
    refine kept serve there fun same => ?_
    subst same
    obtain rfl : c = d := Option.some.inj (here.symm.trans there)
    obtain ⟨⟨lock, locked⟩, rfl⟩ := releaseServeLock_cases (sound.consumers _ c here).serve done
    refine iff_of_false ?_ ?_
    · rintro ⟨_, consumed⟩
      cases consumed
    · rintro ⟨_, consumed⟩
      cases locked.symm.trans consumed
  | grow =>
    refine ⟨{ c with serve := c.serve.relocate }, ?_, rfl, ?_⟩
    · simp only [List.getElem?_map, here, Option.map_some]
    · rw [relocate_sound (sound.consumers i c here).serve]
  | fill | sendData | enter | locked | waitForData | leave => exact ⟨c, here, rfl, Iff.rfl⟩

structure Along (session : Session) (s : State) : Prop where
  serving : ServeFrame.Sound s.serving
  own : ∃ c, s.serving.frames[s.own]? = some c ∧ (c.serve.consumed ↔ s.phase.holds = true)
  idle : ∀ repeatedLoop, s.phase = .frame repeatedLoop → s.adapter.toReplicate = 0
  rest : ∀ stream, Continues stream s.seen →
    s.rest stream = session.callAt stream overwritten s.results.length
  past : ∀ stream, Continues stream s.seen → AsCalls (session.callAt stream overwritten) s.results

theorem seen_eq {s : State} {c : Consumer Frame} (here : s.serving.frames[s.own]? = some c) :
    s.seen = c.seen := by
  rw [State.seen, here]
  rfl

theorem serve_cases {s t : State} {a : ServeFrame.Action Frame} (done : s.serve a = some t) :
    ∃ serving, s.serving.step a = some serving ∧ t = { s with serving := serving } := by
  obtain ⟨serving, step, rfl⟩ := Option.map_eq_some_iff.mp done
  exact ⟨serving, step, rfl⟩

theorem acquired {s : State} {garbage : Bool} {serving : ServeFrame.State Frame}
    (step : s.serving.step (.acquire s.own garbage) = some serving) :
    ∃ c, serving.frames[s.own]? = some c ∧ c.serve.consumed ∧ c.seen = s.serving.view :: s.seen := by
  cases ServeFrame.step_cases step with
  | acquire _ _ c serve here got =>
    obtain ⟨_, _, rfl⟩ := getConsumeLock_cases got
    refine ⟨_, List.getElem?_set_self (List.getElem?_eq_some_iff.mp here).1, ⟨_, rfl⟩, ?_⟩
    rw [seen_eq here]

theorem released {s : State} {serving : ServeFrame.State Frame} (sound : ServeFrame.Sound s.serving)
    (step : s.serving.step (.release s.own) = some serving) :
    ∃ c, serving.frames[s.own]? = some c ∧ ¬c.serve.consumed ∧ c.seen = s.seen := by
  cases ServeFrame.step_cases step with
  | release _ c serve here done =>
    obtain ⟨_, rfl⟩ := releaseConsumeLock_cases (sound.consumers _ c here).serve done
    refine ⟨_, List.getElem?_set_self (List.getElem?_eq_some_iff.mp here).1, ?_, ?_⟩
    · exact (ServeFrame.not_owned _ rfl).1
    · rw [seen_eq here]

/-- While the adapter holds its lock, the frame behind GetPointer is the one it got last. -/
theorem held_frame {session : Session} {s : State} (h : Along overwritten session s)
    (held : s.phase.holds = true) : ∃ seen, s.seen = s.serving.view :: seen := by
  obtain ⟨c, here, consumed⟩ := h.own
  have latest := (h.serving.consumers _ c here).holding (consumed.mpr held)
  rw [seen_eq here]
  exact ⟨c.seen.tail, List.eq_cons_of_mem_head? latest⟩

variable {overwritten} {session : Session} {s t : State}

theorem serving_along {a : ServeFrame.Action Frame} (h : Along overwritten session s)
    (other : consumes s.own a = false) (done : s.serve a = some t) : Along overwritten session t := by
  obtain ⟨serving, step, rfl⟩ := serve_cases done
  obtain ⟨c, here, held⟩ := h.own
  have others : (∀ garbage, a ≠ .acquire s.own garbage) ∧ a ≠ .release s.own := by
    constructor
    · rintro garbage rfl
      simp [consumes] at other
    · rintro rfl
      simp [consumes] at other
  obtain ⟨c', here', same, keeps⟩ := others_leave h.serving here others.1 others.2 step
  have seen : State.seen { s with serving := serving } = s.seen := by
    rw [seen_eq here', seen_eq here, same]
  refine ⟨ServeFrame.step_sound h.serving step, ⟨c', here', keeps.trans held⟩, h.idle, ?_, ?_⟩
  · intro stream continues
    rw [seen] at continues
    rw [← h.rest stream continues]
    unfold State.rest
    simp only [seen]
  · intro stream continues
    rw [seen] at continues
    exact h.past stream continues

theorem entry_cases (a : Adapter) :
    (a.ignoreFirst = true ∧ entry a = .ignore) ∨
      (a.ignoreFirst = false ∧ entry a = .loop maxRepeatedLoop) := by
  cases ignores : a.ignoreFirst with
  | true => exact Or.inl ⟨rfl, by simp only [entry, ignores, if_true]⟩
  | false => exact Or.inr ⟨rfl, by simp only [entry, ignores, Bool.false_eq_true, if_false]⟩

theorem cool_ignoreFirst (a : Adapter) : (cool a).ignoreFirst = a.ignoreFirst := by
  unfold cool
  split <;> rfl

theorem enterCall_eq (a : Adapter) (next : Nat) :
    enterCall a next =
      if a.ignoreFirst then ({ cool a with ignoreFirst := false }, next + 1) else (cool a, next) := by
  rw [← cool_ignoreFirst]
  rfl

theorem call_along (h : Along overwritten session s) (step : s.step overwritten .call = some t) :
    Along overwritten session t := by
  obtain ⟨outside, done⟩ := Option.ite_none_right_eq_some.mp step
  obtain rfl := Option.some.inj done
  obtain ⟨c, here, held⟩ := h.own
  have free : ¬c.serve.consumed := by
    rw [held, outside]
    nofun
  have before : ∀ stream, State.rest stream s =
      grabLoop stream maxRepeatedLoop (enterCall s.adapter s.seen.length).1 s.motion
        (enterCall s.adapter s.seen.length).2 := by
    intro stream
    rw [State.rest, outside]
    rfl
  rcases entry_cases s.adapter with ⟨ignores, entered⟩ | ⟨ignores, entered⟩
  · rw [entered]
    refine ⟨h.serving, ⟨c, here, iff_of_false free nofun⟩, nofun, fun stream continues => ?_, h.past⟩
    refine Eq.trans ?_ (h.rest stream continues)
    rw [before, enterCall_eq, if_pos ignores]
    rfl
  · rw [entered]
    refine ⟨h.serving, ⟨c, here, iff_of_false free nofun⟩, nofun, fun stream continues => ?_, h.past⟩
    refine Eq.trans ?_ (h.rest stream continues)
    rw [before, enterCall_eq, if_neg (by simp [ignores])]
    rfl

theorem taken_along {garbage : Bool} {serving : ServeFrame.State Frame} (h : Along overwritten session s)
    (taken : s.serving.step (.acquire s.own garbage) = some serving) (adapter : Adapter) (phase : Phase)
    (holds : phase.holds = true)
    (idle : ∀ repeatedLoop, phase = .frame repeatedLoop → adapter.toReplicate = 0)
    (rest : ∀ stream seen, State.seen { s with serving := serving } = seen →
      seen.length = s.seen.length + 1 →
      State.rest stream { s with serving := serving, adapter := adapter, phase := phase } = s.rest stream) :
    Along overwritten session { s with serving := serving, adapter := adapter, phase := phase } := by
  obtain ⟨c, here, consumed, seen⟩ := acquired taken
  have grown : State.seen { s with serving := serving } = s.serving.view :: s.seen :=
    (seen_eq here).trans seen
  refine ⟨ServeFrame.step_sound h.serving taken, ⟨c, here, iff_of_true consumed holds⟩, idle, ?_, ?_⟩
  · intro stream continues
    exact (rest stream _ grown rfl).trans (h.rest stream (grown ▸ continues).2)
  · intro stream continues
    exact h.past stream (grown ▸ continues).2

theorem released_along {serving : ServeFrame.State Frame} (h : Along overwritten session s)
    (gone : s.serving.step (.release s.own) = some serving) (phase : Phase) (free : phase.holds = false)
    (top : ∀ repeatedLoop, phase ≠ .frame repeatedLoop)
    (rest : ∀ stream, s.rest stream = State.rest stream { s with phase := phase }) :
    Along overwritten session { s with serving := serving, phase := phase } := by
  obtain ⟨c, here, let_go, seen⟩ := released h.serving gone
  have same : State.seen { s with serving := serving } = s.seen := (seen_eq here).trans seen
  refine ⟨ServeFrame.step_sound h.serving gone, ⟨c, here, iff_of_false let_go ?_⟩,
    fun n is => absurd is (top n), ?_, ?_⟩
  · simp only [free, Bool.false_eq_true, not_false_eq_true]
  · intro stream continues
    refine Eq.trans ?_ ((rest stream).symm.trans (h.rest stream (same ▸ continues)))
    unfold State.rest
    have : State.seen { s with serving := serving, phase := phase } = s.seen := same
    simp only [this]
    rfl
  · intro stream continues
    exact h.past stream (same ▸ continues)

theorem acquire_along {garbage : Bool} (h : Along overwritten session s)
    (step : s.step overwritten (.acquire garbage) = some t) : Along overwritten session t := by
  simp only [State.step] at step
  split at step
  · rename_i ignoring
    obtain ⟨u, served, rfl⟩ := Option.map_eq_some_iff.mp step
    obtain ⟨serving, taken, rfl⟩ := serve_cases served
    refine taken_along h taken _ _ rfl nofun fun stream seen grown length => ?_
    rw [State.rest.eq_def _ s, ignoring]
    simp only
    rw [← length, ← grown]
    rfl
  · rename_i repeatedLoop at_loop
    obtain ⟨idle, done⟩ := Option.ite_none_right_eq_some.mp step
    obtain ⟨u, served, rfl⟩ := Option.map_eq_some_iff.mp done
    obtain ⟨serving, taken, rfl⟩ := serve_cases served
    refine taken_along h taken _ _ rfl (fun _ _ => idle) fun stream seen grown length => ?_
    rw [State.rest.eq_def _ s, at_loop]
    simp only
    rw [← Nat.add_sub_cancel (n := s.seen.length) (m := 1), ← length, ← grown]
    rfl
  · cases step

theorem read_along (h : Along overwritten session s) (step : s.step overwritten .read = some t) :
    Along overwritten session t := by
  simp only [State.step] at step
  split at step
  · rename_i repeatedLoop at_frame
    obtain rfl := Option.some.inj step
    have held : s.phase.holds = true := by rw [at_frame]; rfl
    obtain ⟨older, seen⟩ := held_frame overwritten h held
    have length : s.seen.length = older.length + 1 := by rw [seen, List.length_cons]
    obtain ⟨c, here, consumed⟩ := h.own
    have before : ∀ stream, Continues stream s.seen → State.rest stream s =
        grabLoop stream repeatedLoop s.adapter s.motion older.length := by
      intro stream _
      rw [State.rest, at_frame, length, Nat.add_sub_cancel]
    have frame : ∀ stream, Continues stream s.seen →
        frames stream older.length = getSdFrame s.serving.view.frame := by
      intro stream continues
      rw [seen] at continues
      rw [frames, continues.1]
    have idle := h.idle repeatedLoop at_frame
    unfold State.read
    simp only
    split
    · rename_i again
      refine ⟨h.serving, ⟨c, here, iff_of_true (consumed.mpr held) ?_⟩, ?_, fun stream continues => ?_,
        h.past⟩
      · cases repeatedLoop <;> rfl
      · cases repeatedLoop <;> nofun
      · refine Eq.trans ?_ (h.rest stream continues)
        rw [before stream continues, grabLoop_turn repeatedLoop _ _ idle, frame stream continues,
          if_pos again]
        cases repeatedLoop <;> rw [State.rest, ← length] <;> rfl
    · rename_i new
      refine ⟨h.serving, ⟨c, here, iff_of_true (consumed.mpr held) rfl⟩, nofun, fun stream continues => ?_, h.past⟩
      refine Eq.trans ?_ (h.rest stream continues)
      rw [before stream continues, grabLoop_turn repeatedLoop _ _ idle, frame stream continues,
        if_neg new, State.rest, ← length]
      simp only [length, Nat.add_sub_cancel]
      rw [← length]
      rfl
  · cases step

theorem leave_along {exit : Exit} (serving : ServeFrame.Sound s.serving)
    (own : ∃ c, s.serving.frames[s.own]? = some c ∧ ¬c.serve.consumed)
    (rest : ∀ stream, Continues stream s.seen →
      ⟨s.adapter, s.motion, s.seen.length, exit⟩ = session.callAt stream overwritten s.results.length)
    (past : ∀ stream, Continues stream s.seen → AsCalls (session.callAt stream overwritten) s.results) :
    Along overwritten session (s.leave overwritten exit) := by
  obtain ⟨c, here, free⟩ := own
  refine ⟨serving, ⟨c, here, iff_of_false free nofun⟩, nofun, fun stream continues => ?_, fun stream continues => ?_⟩
  · have next : session.callAt stream overwritten (s.results.length + 1) =
        ((session.at stream overwritten s.results.length).after
          (session.callAt stream overwritten s.results.length) (overwritten s.results.length)).call stream := rfl
    refine Eq.trans ?_ next.symm
    rw [← rest stream continues]
    rfl
  · exact ⟨rest stream continues, past stream continues⟩

theorem replicate_along (h : Along overwritten session s) (step : s.step overwritten .replicate = some t) :
    Along overwritten session t := by
  simp only [State.step] at step
  split at step
  · rename_i repeatedLoop at_loop
    obtain ⟨busy, done⟩ := Option.ite_none_left_eq_some.mp step
    obtain rfl := Option.some.inj done
    obtain ⟨c, here, held⟩ := h.own
    have free : ¬c.serve.consumed := by
      rw [held, at_loop]
      nofun
    refine leave_along h.serving ⟨c, here, free⟩ (fun stream continues => ?_) h.past
    have before := h.rest stream continues
    rw [State.rest, at_loop] at before
    simp only at before
    rw [grabLoop_replicates _ _ _ busy] at before
    exact before
  · cases step

theorem release_along (h : Along overwritten session s) (step : s.step overwritten .release = some t) :
    Along overwritten session t := by
  simp only [State.step] at step
  split at step
  · rename_i at_phase
    obtain ⟨u, served, rfl⟩ := Option.map_eq_some_iff.mp step
    obtain ⟨serving, gone, rfl⟩ := serve_cases served
    exact released_along h gone (.loop maxRepeatedLoop) rfl nofun fun stream => by rw [State.rest, at_phase]; rfl
  · rename_i repeatedLoop at_phase
    obtain ⟨u, served, rfl⟩ := Option.map_eq_some_iff.mp step
    obtain ⟨serving, gone, rfl⟩ := serve_cases served
    exact released_along h gone (.loop repeatedLoop) rfl nofun fun stream => by rw [State.rest, at_phase]; rfl
  · rename_i exit at_phase
    obtain ⟨u, served, rfl⟩ := Option.map_eq_some_iff.mp step
    obtain ⟨serving, gone, rfl⟩ := serve_cases served
    obtain ⟨c, here, free, seen⟩ := released h.serving gone
    have same : State.seen { s with serving := serving } = s.seen := (seen_eq here).trans seen
    refine leave_along (ServeFrame.step_sound h.serving gone) ⟨c, here, free⟩ (fun stream continues => ?_) ?_
    · rw [same] at continues ⊢
      have before := h.rest stream continues
      rw [State.rest, at_phase] at before
      exact before
    · intro stream continues
      rw [same] at continues
      exact h.past stream continues
  · cases step

theorem step_along {a : Action} (h : Along overwritten session s)
    (step : s.step overwritten a = some t) : Along overwritten session t := by
  cases a with
  | serving action =>
    obtain ⟨other, served⟩ := Option.ite_none_left_eq_some.mp step
    exact serving_along h (by simpa using other) served
  | call => exact call_along h step
  | acquire garbage => exact acquire_along h step
  | read => exact read_along h step
  | replicate => exact replicate_along h step
  | release => exact release_along h step

theorem starts_along (h : Starts s) : Along overwritten s.session s := by
  obtain ⟨c, here, none_seen⟩ := h.own
  have seen : s.seen = [] := (seen_eq here).trans none_seen
  have sound := ServeFrame.reachable_sound h.serving
  have free : ¬c.serve.consumed := by
    intro consumed
    have latest := (sound.consumers _ c here).holding consumed
    rw [none_seen] at latest
    cases latest
  refine ⟨sound, ⟨c, here, iff_of_false free ?_⟩, ?_, fun stream _ => ?_, fun stream _ => ?_⟩
  · rw [h.phase]
    nofun
  · rw [h.phase]
    nofun
  · rw [State.rest, h.phase, h.results, seen]
    rfl
  · rw [h.results]
    trivial

theorem run_along {as : List Action} (h : Starts s) (run : Runs.Run (State.step overwritten) s as t) :
    Along overwritten s.session t :=
  Runs.run_invariant (Along overwritten s.session) (fun _ _ _ along step => step_along along step) run
    (starts_along h)

/-- However the adapter's thread, the sender, Execute and the other consumers take turns: each
    call returns what the same call of the lone session returns on the frames the adapter
    has got, these are frames that were sent, in that order and none twice, and the adapter
    owns its Serve's mutex only inside a call. -/
theorem calls_as_alone {as : List Action} (h : Starts s)
    (run : Runs.Run (State.step overwritten) s as t) :
    (∀ stream, Continues stream t.seen → AsCalls (s.session.callAt stream overwritten) t.results) ∧
    (t.seen.map View.number).Pairwise (· > ·) ∧
    (∀ v ∈ t.seen, t.serving.sentAs v.number = some v.frame) ∧
    ∃ c, t.serving.frames[t.own]? = some c ∧ (c.serve.consumed ↔ t.phase.holds = true) := by
  have along := run_along h run
  obtain ⟨c, here, held⟩ := along.own
  have consumer := along.serving.consumers _ c here
  have seen := seen_eq here
  refine ⟨along.past, ?_, ?_, c, here, held⟩
  · rw [seen]
    exact consumer.ordered
  · rw [seen]
    exact fun v member => (consumer.known v member).2

def started : State where
  serving :=
    { pipe := Pipe.construct fun _ => []
      frames := [⟨{}, []⟩]
      pc := .idle
      sent := []
      number := fun _ => 0
      taken := [] }
  own := 0
  adapter :=
    { ignoreFirst := true
      isPersistent := true
      data := ⟨0, 0, 0, 0, 0, 0, 0, 0⟩
      lastInc := 0
      lastTimestamp := 0
      smoothing := ⟨0, 0, 0⟩
      toReplicate := 0
      noGyroCooldown := 0
      noGyro := {}
      frameServe := true }
  motion := ⟨0, 0, 0, 0, 0, 0, 0, 0⟩
  phase := .outside
  results := []

theorem started_starts : Starts started := by
  refine ⟨⟨{ started.serving with frames := [] }, [.getServe], ?_, .next .nil rfl⟩, ⟨_, rfl, rfl⟩, rfl, rfl⟩
  refine ⟨rfl, rfl, rfl, fun i => ?_, rfl⟩
  cases i <;> rfl

def round (frame : Frame) : List Action :=
  ([.fill frame, .sendData, .enter, .lock, .locked, .waitForData, .unlock 0, .leave] :
    List (ServeFrame.Action Frame)).map .serving

def oneCall : List Action :=
  round [1] ++ [.call, .acquire true, .release] ++ round [2] ++
    [.acquire false, .serving (.fill [3]), .serving .sendData, .read, .release]

theorem calls_as_alone_one_call :
    ∃ t, Runs.execute (State.step fun _ => started.motion) started oneCall = some t ∧
      t.results.length = 1 ∧ (t.seen.map View.number) = [2, 1] ∧
      ∀ stream, Continues stream t.seen →
        AsCalls (started.session.callAt stream fun _ => started.motion) t.results := by
  have run : Runs.Run (State.step fun _ => started.motion) started oneCall.reverse _ :=
    Runs.run_of_execute rfl
  exact ⟨_, rfl, rfl, rfl, (calls_as_alone started_starts run).1⟩

end Delivery
