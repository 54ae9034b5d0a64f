import GyroDsu.Hiddev.Snapshot

/-
The passes of ServeFrame::Execute: what can hold one up, how long it takes, and that no consumer
is passed over.
-/
namespace Rounds
open Pipe Serves ServeFrame

variable {T : Type}

def works : Action T → Bool
  | .lock => true
  | .locked => true
  | .waitForData => true
  | .unlock _ => true
  | .leave => true
  | _ => false

def passLeft (s : State T) : Nat :=
  match s.pc with
  | .idle => 0
  | .locking next => s.frames.length - next + s.frames.length + 3
  | .waiting => s.frames.length + 2
  | .unlocking left => left.length + 1

inductive Waits (s : State T) : Prop where
  | nobody (idle : s.pc = .idle) (none_there : s.frames = [])
  | reader (next : Nat) (c : Consumer T) (at_next : s.pc = .locking next) (here : s.frames[next]? = some c)
      (held : c.serve.consumed)
  | frame (waiting : s.pc = .waiting) (idle : s.pipe.bufWasSent = false)

structure Within (s : State T) : Prop where
  locking : ∀ next, s.pc = .locking next → next ≤ s.frames.length
  unlocking : ∀ left, s.pc = .unlocking left → left.length ≤ s.frames.length ∧ ∀ i ∈ left, i < s.frames.length

theorem starts_within {s : State T} (h : Starts s) : Within s := by
  constructor
  · intro next at_next
    cases h.pc.symm.trans at_next
  · intro left at_left
    cases h.pc.symm.trans at_left

theorem within_same {s t : State T} (h : Within s) (pc : t.pc = s.pc)
    (length : t.frames.length = s.frames.length) : Within t := by
  constructor
  · rw [pc, length]
    exact h.locking
  · rw [pc, length]
    exact h.unlocking

theorem within_idle {s : State T} (idle : s.pc = .idle) : Within s := by
  constructor
  · intro next at_next
    cases idle.symm.trans at_next
  · intro left at_left
    cases idle.symm.trans at_left

theorem step_within {s t : State T} {a : Action T} (h : Within s) (step : s.step a = some t) : Within t := by
  cases step_cases step with
  | fill value => exact within_same h rfl rfl
  | sendData => exact within_same h rfl rfl
  | getServe idle => exact within_idle idle
  | acquire i garbage c serve here got => exact within_same h rfl List.length_set
  | release i c serve here done => exact within_same h rfl List.length_set
  | enter idle =>
    refine ⟨fun next at_next => ?_, fun left at_left => (nomatch at_left)⟩
    obtain rfl := Pc.locking.inj at_next
    exact Nat.zero_le _
  | lock next c serve at_next here got =>
    refine ⟨fun next' at_next' => ?_, fun left at_left => (nomatch at_left)⟩
    obtain rfl := Pc.locking.inj at_next'
    rw [List.length_set]
    exact (List.getElem?_eq_some_iff.mp here).1
  | grow => exact within_same h rfl (List.length_map _)
  | locked all => exact ⟨fun next at_next => (nomatch at_next), fun left at_left => (nomatch at_left)⟩
  | waitForData waiting sent =>
    refine ⟨fun next at_next => (nomatch at_next), fun left at_left => ?_⟩
    obtain rfl := Pc.unlocking.inj at_left
    exact ⟨Nat.le_of_eq List.length_range, fun i member => List.mem_range.mp member⟩
  | unlock i left c serve at_left at_i here done =>
    refine ⟨fun next at_next => (nomatch at_next), fun left' at_left' => ?_⟩
    obtain rfl := Pc.unlocking.inj at_left'
    obtain ⟨short, inside⟩ := h.unlocking left at_left
    rw [List.length_set]
    exact ⟨Nat.le_trans (List.length_filter_le _ _) short, fun j member => inside j (List.mem_filter.mp member).1⟩
  | leave none_left => exact within_idle rfl

theorem reachable_within {s : State T} (reached : Runs.Reachable State.step Starts s) : Within s :=
  Runs.reachable_invariant Within (fun _ => starts_within) (fun _ _ _ h step => step_within h step) reached

theorem lock_possible {serve : Serve} (free : serve.owner = none) : ∃ t, serve.getServeLock = some t :=
  ⟨_, if_pos free⟩

theorem unlock_possible {serve : Serve} (locked : serve.locked) : ∃ t, serve.releaseServeLock = some t := by
  obtain ⟨lock, owned⟩ := locked
  exact ⟨lock.destroy serve, by simp only [Serve.releaseServeLock, owned]⟩

/-- Nothing else can hold Execute up. -/
theorem waits_or_works {s : State T} (h : Sound s) (within : Within s) :
    Waits s ∨ (∃ t, s.step .enter = some t) ∨ ∃ a, works a = true ∧ ∃ t, s.step a = some t := by
  have attends := h.served.consumers
  cases pc : s.pc with
  | idle =>
    by_cases none_there : s.frames = []
    · exact Or.inl (.nobody pc none_there)
    · exact Or.inr (Or.inl ⟨_, if_pos ⟨pc, none_there⟩⟩)
  | locking next =>
    rcases Nat.lt_or_eq_of_le (within.locking next pc) with inside | all
    · have here := List.getElem?_eq_getElem inside
      have there := attends next _ here
      cases owned : s.frames[next].serve.owner with
      | none =>
        obtain ⟨serve, got⟩ := lock_possible owned
        refine Or.inr (Or.inr ⟨.lock, rfl, Option.isSome_iff_exists.mp ?_⟩)
        simp only [State.step, State.withServe, pc, here, got, Option.bind_some, Option.map_some,
          Option.isSome_some]
      | some owner =>
        cases owner with
        | consumer lock => exact Or.inl (.reader next _ pc here ⟨lock, owned⟩)
        | serveFrame lock =>
          have before := there.locked.mp ⟨lock, owned⟩
          rw [pc] at before
          exact absurd before (Nat.lt_irrefl next)
    · exact Or.inr (Or.inr ⟨.locked, rfl, _, if_pos (pc.trans (congrArg Pc.locking all))⟩)
  | waiting =>
    cases sent : s.pipe.bufWasSent with
    | false => exact Or.inl (.frame pc sent)
    | true =>
      refine Or.inr (Or.inr ⟨.waitForData, rfl, Option.isSome_iff_exists.mp ?_⟩)
      simp only [State.step, pc, if_true, PipeOut.waitForData, sent, Option.map_some, Option.isSome_some]
  | unlocking left =>
    cases left with
    | nil => exact Or.inr (Or.inr ⟨.leave, rfl, _, if_pos pc⟩)
    | cons i left =>
      have here := List.getElem?_eq_getElem ((within.unlocking _ pc).2 i List.mem_cons_self)
      have locked := (attends i _ here).locked.mpr (by rw [pc]; exact List.mem_cons_self)
      obtain ⟨serve, done⟩ := unlock_possible locked
      refine Or.inr (Or.inr ⟨.unlock i, rfl, Option.isSome_iff_exists.mp ?_⟩)
      simp only [State.step, State.withServe, pc, List.mem_cons_self, if_true, here, done,
        Option.bind_some, Option.map_some, Option.isSome_some]

theorem passLeft_step {s t : State T} {a : Action T} (other : a ≠ .enter) (step : s.step a = some t) :
    passLeft t ≤ passLeft s ∧ (works a = true → passLeft t < passLeft s) := by
  cases step_cases step with
  | enter => exact absurd rfl other
  | fill | sendData => exact ⟨Nat.le_refl _, nofun⟩
  | getServe idle =>
    refine ⟨?_, nofun⟩
    simp only [passLeft, idle, Nat.le_refl]
  | acquire i garbage c serve here got =>
    refine ⟨?_, nofun⟩
    simp only [passLeft, List.length_set, Nat.le_refl]
  | release i c serve here done =>
    refine ⟨?_, nofun⟩
    simp only [passLeft, List.length_set, Nat.le_refl]
  | grow =>
    refine ⟨?_, nofun⟩
    simp only [passLeft, List.length_map, Nat.le_refl]
  | lock next c serve at_next here got =>
    have inside := (List.getElem?_eq_some_iff.mp here).1
    simp only [passLeft, at_next, List.length_set]
    omega
  | locked all =>
    simp only [passLeft, all]
    omega
  | waitForData waiting sent =>
    simp only [passLeft, waiting, List.length_range]
    omega
  | unlock i left c serve at_left at_i here done =>
    have fewer : (left.filter (· ≠ i)).length < left.length :=
      List.length_filter_lt_length_iff_exists.mpr ⟨i, at_i, by simp⟩
    simp only [passLeft, at_left]
    omega
  | leave none_left =>
    simp only [passLeft, none_left]
    omega

theorem passLeft_le {s : State T} (within : Within s) : passLeft s ≤ 2 * s.frames.length + 3 := by
  unfold passLeft
  cases pc : s.pc with
  | idle => exact Nat.zero_le _
  | locking next => dsimp only; omega
  | waiting => dsimp only; omega
  | unlocking left =>
    have short := (within.unlocking left pc).1
    dsimp only
    omega

/-- Consumer `i` has had the frame received last, or gets it next. -/
def Kept (s : State T) (i : Nat) : Prop :=
  ∃ c, s.frames[i]? = some c ∧ (Due s i c ∨ c.seen.head? = some s.view)

theorem kept_same {s t : State T} {i : Nat} (kept : Kept s i) (frames : t.frames = s.frames)
    (view : t.view = s.view)
    (due : ∀ c, s.frames[i]? = some c → Due s i c → Due t i c) : Kept t i := by
  obtain ⟨c, here, has⟩ := kept
  refine ⟨c, by rw [frames]; exact here, ?_⟩
  rw [view]
  exact has.imp_left (due c here)

theorem kept_set {s t : State T} {i j : Nat} {c new : Consumer T} (kept : Kept s i)
    (here : s.frames[j]? = some c) (frames : t.frames = s.frames.set j new) (view : t.view = s.view)
    (own : Due s j c ∨ c.seen.head? = some s.view → Due t j new ∨ new.seen.head? = some s.view)
    (others : ∀ k d, k ≠ j → Due s k d → Due t k d) : Kept t i := by
  obtain ⟨d, there, has⟩ := kept
  by_cases same : i = j
  · subst same
    obtain rfl := Option.some.inj (here.symm.trans there)
    refine ⟨new, ?_, by rw [view]; exact own has⟩
    rw [frames, List.getElem?_set_self (List.getElem?_eq_some_iff.mp here).1]
  · refine ⟨d, ?_, by rw [view]; exact has.imp_left (others i d same)⟩
    rw [frames, List.getElem?_set_ne (Ne.symm same)]
    exact there

theorem received_kept {s t : State T} {i : Nat} (step : s.step .waitForData = some t)
    (inside : i < s.frames.length) : Kept t i := by
  cases step_cases step with
  | waitForData waiting sent =>
    exact ⟨_, List.getElem?_eq_getElem inside, Or.inl (Or.inr ⟨_, rfl, List.mem_range.mpr inside⟩)⟩

theorem step_kept {s t : State T} {a : Action T} {i : Nat} (h : Sound s) (kept : Kept s i)
    (step : s.step a = some t) : Kept t i := by
  have attends := h.served.consumers
  cases step_cases step with
  | fill value =>
    refine kept_same kept rfl ?_ fun _ _ due => due
    simp only [State.view, write_bufRcv, mark_bufRcv, fill_received]
  | sendData =>
    refine kept_same kept rfl ?_ fun _ _ due => due
    simp only [State.view, sendData_bufRcv, mark_bufRcv, sendData_received]
  | getServe idle =>
    obtain ⟨c, here, has⟩ := kept
    have inside := (List.getElem?_eq_some_iff.mp here).1
    exact ⟨c, (List.getElem?_append_left inside).trans here, has⟩
  | acquire j garbage c serve here got =>
    exact kept_set kept here rfl rfl (fun _ => Or.inr rfl) fun _ _ _ due => due
  | release j c serve here done =>
    obtain ⟨held, rfl⟩ := releaseConsumeLock_cases (attends j c here).serve done
    refine kept_set kept here rfl rfl (fun has => Or.inr ?_) fun _ _ _ due => due
    exact (attends j c here).holding held
  | enter idle =>
    refine kept_same kept rfl rfl fun c _ due => Or.inl ?_
    rcases due with served | ⟨left, at_left, _⟩
    · exact served
    · cases idle.symm.trans at_left
  | lock next c serve at_next here got =>
    obtain ⟨_, rfl⟩ := getServeLock_cases got
    have flag : ∀ k d, Due s k d → d.serve.served = true := by
      rintro k d (served | ⟨left, at_left, _⟩)
      · exact served
      · cases at_next.symm.trans at_left
    exact kept_set kept here rfl rfl (fun has => has.imp_left fun due => Or.inl (flag _ _ due))
      fun k d _ due => Or.inl (flag k d due)
  | grow =>
    obtain ⟨c, here, has⟩ := kept
    refine ⟨c, ?_, has⟩
    rw [List.getElem?_map, here, Option.map_some, relocate_sound (attends i c here).serve]
  | locked all =>
    refine kept_same kept rfl rfl fun c _ due => Or.inl ?_
    rcases due with served | ⟨left, at_left, _⟩
    · exact served
    · cases all.symm.trans at_left
  | waitForData waiting sent =>
    obtain ⟨c, here, _⟩ := kept
    exact received_kept step (List.getElem?_eq_some_iff.mp here).1
  | unlock j left c serve at_left at_j here done =>
    obtain ⟨_, rfl⟩ := releaseServeLock_cases (attends j c here).serve done
    refine kept_set kept here rfl rfl (fun _ => Or.inl (Or.inl rfl)) fun k d other due => ?_
    rcases due with served | ⟨left', at_left', member⟩
    · exact Or.inl served
    · obtain rfl := Pc.unlocking.inj (at_left.symm.trans at_left')
      exact Or.inr ⟨_, rfl, List.mem_filter.mpr ⟨member, by simpa using other⟩⟩
  | leave none_left =>
    refine kept_same kept rfl rfl fun c _ due => Or.inl ?_
    rcases due with served | ⟨left, at_left, member⟩
    · exact served
    · obtain rfl := Pc.unlocking.inj (none_left.symm.trans at_left)
      cases member

theorem run_kept {s t : State T} {as : List (Action T)} {i : Nat} (h : Sound s) (kept : Kept s i)
    (run : Runs.Run State.step s as t) : Kept t i :=
  (Runs.run_invariant (fun s => Sound s ∧ Kept s i)
    (fun _ _ _ both step => ⟨step_sound both.1 step, step_kept both.1 both.2 step⟩) run ⟨h, kept⟩).2

theorem due_acquires {s : State T} (h : Sound s) {i : Nat} {c : Consumer T} (here : s.frames[i]? = some c)
    (served : c.serve.served = true) (free : ¬s.pc.holds i) (garbage : Bool) :
    ∃ t, s.step (.acquire i garbage) = some t := by
  have attends := h.served.consumers i c here
  have unowned : c.serve.owner = none := by
    have sound := attends.serve
    cases owned : c.serve.owner with
    | none => rfl
    | some owner =>
      cases owner with
      | consumer lock =>
        simp only [Serve.Sound, owned] at sound
        cases sound.2.symm.trans served
      | serveFrame lock => exact absurd (attends.locked.mp ⟨lock, owned⟩) free
  refine Option.isSome_iff_exists.mp ?_
  simp only [State.step, here, Option.bind_some, Serve.getConsumeLock, unowned, served, and_self, if_true,
    Option.map_some, Option.isSome_some]

/-- In every reachable state: Execute has a step to take unless nobody is registered, a consumer is
    reading or nothing has been sent; a pass takes it two steps for each consumer and three more; no
    consumer registered at a receive is passed over, whatever follows; and whoever has been served can
    get its frame. -/
theorem nobody_passed_over {s : State T} (reached : Runs.Reachable State.step Starts s) :
    (Waits s ∨ (∃ t, s.step .enter = some t) ∨ ∃ a, works a = true ∧ ∃ t, s.step a = some t) ∧
    (∀ as t, Runs.Run State.step s as t → (∀ a ∈ as, a ≠ .enter) →
      as.countP works ≤ 2 * s.frames.length + 3) ∧
    (∀ t, s.step .waitForData = some t → ∀ i < s.frames.length, ∀ as u, Runs.Run State.step t as u →
      Kept u i) ∧
    ∀ i c, s.frames[i]? = some c → c.serve.served = true → ¬s.pc.holds i → ∀ garbage,
      ∃ t, s.step (.acquire i garbage) = some t := by
  have sound := reachable_sound reached
  have within := reachable_within reached
  refine ⟨waits_or_works sound within, ?_, ?_, fun i c here => due_acquires sound here⟩
  · intro as t run others
    have counted := Runs.run_ranked (fun _ => True) (· ≠ .enter) works passLeft (fun _ _ _ _ _ _ => trivial)
      (fun _ _ _ _ other step => (passLeft_step other step).2)
      (fun _ _ _ _ other step => (passLeft_step other step).1) run others trivial
    have most := passLeft_le within
    omega
  · intro t step i inside as u run
    exact run_kept (step_sound sound step) (received_kept step inside) run

def passOnce : List (Action Nat) := [.getServe, .fill 7, .sendData, .enter, .lock, .locked]

theorem nobody_passed_over_once :
    ∃ s t u : State Nat, Runs.Reachable State.step Starts s ∧ s.step .waitForData = some t ∧
      Runs.Run State.step t [.leave, .unlock 0] u ∧ Kept u 0 := by
  have one : (Runs.execute State.step Snapshot.empty passOnce).map (fun s => s.frames.length) = some 1 := rfl
  have all : ((Runs.execute State.step Snapshot.empty passOnce).bind fun s =>
      (s.step .waitForData).bind fun t => Runs.execute State.step t [.unlock 0, .leave]).isSome = true := rfl
  obtain ⟨u, all⟩ := Option.isSome_iff_exists.mp all
  obtain ⟨s, first, all⟩ := Option.bind_eq_some_iff.mp all
  obtain ⟨t, received, rest⟩ := Option.bind_eq_some_iff.mp all
  rw [first, Option.map_some, Option.some.injEq] at one
  have reached : Runs.Reachable State.step Starts s :=
    ⟨Snapshot.empty, _, Snapshot.empty_starts, Runs.run_of_execute first⟩
  have after := Runs.run_of_execute rest
  exact ⟨s, t, u, reached, received, after, (nobody_passed_over reached).2.2.1 t received 0 (by omega) _ u after⟩

end Rounds
