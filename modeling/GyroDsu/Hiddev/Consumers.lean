import GyroDsu.Hiddev.ServeFrame

/-
The locks between Execute and the consumers, whatever is to be said of a consumer's history:
who holds the mutex of a Serve, and when the received frame is one that is due.
-/
namespace ServeFrame
open Pipe Serves

variable {T : Type}

/-- A consumer's part in the protocol, with `H` for what is said of its history, given
    whether a frame is due. -/
structure Attends (s : State T) (H : Prop → List (View T) → Prop) (i : Nat) (c : Consumer T) : Prop where
  serve : c.serve.Sound
  locked : c.serve.locked ↔ s.pc.holds i
  holding : c.serve.consumed → c.seen.head? = some s.view
  history : H (Due s i c) c.seen

def Consumers (s : State T) (H : Prop → List (View T) → Prop) : Prop :=
  ∀ i c, s.frames[i]? = some c → Attends s H i c

structure Lenient (H : Prop → List (View T) → Prop) : Prop where
  weaken : ∀ {due due' : Prop} {seen : List (View T)}, (due' → due) → H due seen → H due' seen

theorem set_cases {A : Type} {l : List A} {i j : Nat} {x y : A} (here : (l.set i x)[j]? = some y) :
    (j = i ∧ y = x) ∨ (j ≠ i ∧ l[j]? = some y) := by
  by_cases same : j = i
  · subst same
    rw [List.getElem?_set_self'] at here
    cases old : l[j]? with
    | none => rw [old] at here; cases here
    | some z =>
      rw [old] at here
      exact Or.inl ⟨rfl, (Option.some.inj here).symm⟩
  · rw [List.getElem?_set_ne (Ne.symm same)] at here
    exact Or.inr ⟨same, here⟩

variable {H : Prop → List (View T) → Prop}

theorem attends_elsewhere (lenient : Lenient H) {s t : State T} {i : Nat} {c : Consumer T}
    (h : Attends s H i c) (view : t.view = s.view) (holds : t.pc.holds i ↔ s.pc.holds i)
    (due : Due t i c → Due s i c) : Attends t H i c := by
  refine ⟨h.serve, ?_, ?_, lenient.weaken due h.history⟩
  · rw [holds]
    exact h.locked
  · rw [view]
    exact h.holding

theorem pc_consumers (lenient : Lenient H) {s : State T} (h : Consumers s H) (pc : Pc)
    (holds : ∀ i c, s.frames[i]? = some c → (pc.holds i ↔ s.pc.holds i))
    (due : ∀ left, pc ≠ .unlocking left) : Consumers { s with pc := pc } H := by
  intro i c here
  refine attends_elsewhere lenient (h i c here) rfl (holds i c here) ?_
  rintro (served | ⟨left, at_left, _⟩)
  · exact Or.inl served
  · exact absurd at_left (due left)

theorem set_consumers (lenient : Lenient H) {s : State T} (h : Consumers s H) (pc : Pc) (i : Nat)
    (new : Consumer T) (holds : ∀ j, j ≠ i → (pc.holds j ↔ s.pc.holds j))
    (due : ∀ j left, j ≠ i → pc = .unlocking left → j ∈ left →
      ∃ left', s.pc = .unlocking left' ∧ j ∈ left')
    (attends : Attends { s with frames := s.frames.set i new, pc := pc } H i new) :
    Consumers { s with frames := s.frames.set i new, pc := pc } H := by
  intro j c here
  rcases set_cases here with ⟨rfl, rfl⟩ | ⟨other, here⟩
  · exact attends
  · refine attends_elsewhere lenient (h j c here) rfl (holds j other) ?_
    rintro (served | ⟨left, at_left, member⟩)
    · exact Or.inl served
    · exact Or.inr (due j left other at_left member)

theorem not_owned (serve : Serve) (free : serve.owner = none) : ¬serve.consumed ∧ ¬serve.locked := by
  constructor <;>
  · rintro ⟨lock, owned⟩
    rw [free] at owned
    cases owned

theorem getServe_consumers (lenient : Lenient H) (empty : H False []) {s : State T} (h : Consumers s H)
    (idle : s.pc = .idle) : Consumers { s with frames := s.frames ++ [⟨{}, []⟩] } H := by
  intro i c here
  rw [List.getElem?_append] at here
  split at here
  · exact attends_elsewhere lenient (h i c here) rfl Iff.rfl id
  · obtain rfl : c = ⟨{}, []⟩ := List.mem_singleton.mp (List.mem_of_getElem? here)
    have free := not_owned {} rfl
    refine ⟨trivial, iff_of_false free.2 ?_, fun held => absurd held free.1, lenient.weaken ?_ empty⟩
    · rw [idle]
      exact id
    · rintro (served | ⟨left, at_left, _⟩)
      · cases served
      · rw [idle] at at_left
        cases at_left

theorem acquire_consumers (lenient : Lenient H) {s : State T} (h : Consumers s H)
    (acquired : ∀ seen, H True seen → H False (s.view :: seen)) {i : Nat} {garbage : Bool}
    {c : Consumer T} {serve : Serve} (here : s.frames[i]? = some c)
    (got : c.serve.getConsumeLock garbage = some serve) :
    Consumers { s with frames := s.frames.set i ⟨serve, s.view :: c.seen⟩ } H := by
  obtain ⟨free, served, rfl⟩ := getConsumeLock_cases got
  have attends := h i c here
  have not_held : ¬s.pc.holds i := by
    rw [← attends.locked]
    exact (not_owned _ free).2
  apply set_consumers lenient h s.pc i _ (fun _ _ => Iff.rfl)
    (fun j left _ at_left member => ⟨left, at_left, member⟩)
  refine ⟨⟨rfl, rfl⟩, iff_of_false ?_ not_held, fun _ => rfl, lenient.weaken ?_ (acquired _ ?_)⟩
  · rintro ⟨lock, owned⟩
    cases owned
  · rintro (again | ⟨left, at_left, member⟩)
    · cases again
    · simp only at at_left
      rw [at_left] at not_held
      exact absurd member not_held
  · exact lenient.weaken (fun _ => Or.inl served) attends.history

theorem release_consumers (lenient : Lenient H) {s : State T} (h : Consumers s H) {i : Nat}
    {c : Consumer T} {serve : Serve} (here : s.frames[i]? = some c)
    (done : c.serve.releaseConsumeLock = some serve) :
    Consumers { s with frames := s.frames.set i { c with serve := serve } } H := by
  have attends := h i c here
  obtain ⟨⟨lock, owned⟩, rfl⟩ := releaseConsumeLock_cases attends.serve done
  have not_held : ¬s.pc.holds i := by
    rw [← attends.locked]
    rintro ⟨lock', owned'⟩
    rw [owned] at owned'
    cases owned'
  apply set_consumers lenient h s.pc i _ (fun _ _ => Iff.rfl)
    (fun j left _ at_left member => ⟨left, at_left, member⟩)
  have free := not_owned ⟨false, none⟩ rfl
  refine ⟨trivial, iff_of_false free.2 not_held, fun held => absurd held free.1,
    lenient.weaken ?_ attends.history⟩
  rintro (again | ⟨left, at_left, member⟩)
  · cases again
  · simp only at at_left
    rw [at_left] at not_held
    exact absurd member not_held

theorem lock_consumers (lenient : Lenient H) {s : State T} (h : Consumers s H) {next : Nat}
    {c : Consumer T} {serve : Serve} (at_next : s.pc = .locking next) (here : s.frames[next]? = some c)
    (got : c.serve.getServeLock = some serve) :
    Consumers { s with
      frames := s.frames.set next { c with serve := serve }
      pc := .locking (next + 1) } H := by
  obtain ⟨_, rfl⟩ := getServeLock_cases got
  have attends := h next c here
  apply set_consumers lenient h (.locking (next + 1)) next
  · intro j other
    rw [at_next]
    simp only [Pc.holds]
    omega
  · intro j left _ at_left
    cases at_left
  · refine ⟨rfl, iff_of_true ⟨_, rfl⟩ (Nat.lt_succ_self next), ?_, lenient.weaken ?_ attends.history⟩
    · rintro ⟨lock, owned⟩
      cases owned
    · rintro (served | ⟨left, at_left, _⟩)
      · exact Or.inl served
      · cases at_left

theorem grow_consumers {s : State T} (h : Consumers s H) :
    Consumers { s with frames := s.frames.map fun c => { c with serve := c.serve.relocate } } H := by
  have same : s.frames.map (fun c => { c with serve := c.serve.relocate }) = s.frames := by
    have each : ∀ c ∈ s.frames, { c with serve := c.serve.relocate } = id c := by
      intro c member
      obtain ⟨i, here⟩ := List.mem_iff_getElem?.mp member
      rw [relocate_sound (h i c here).serve]
      rfl
    rw [List.map_congr_left each, List.map_id]
  rw [same]
  exact h

theorem unlock_consumers (lenient : Lenient H) {s : State T} (h : Consumers s H) {i : Nat}
    {left : List Nat} {c : Consumer T} {serve : Serve} (at_left : s.pc = .unlocking left) (at_i : i ∈ left)
    (here : s.frames[i]? = some c) (done : c.serve.releaseServeLock = some serve) :
    Consumers { s with
      frames := s.frames.set i { c with serve := serve }
      pc := .unlocking (left.filter (· ≠ i)) } H := by
  have attends := h i c here
  obtain ⟨_, rfl⟩ := releaseServeLock_cases attends.serve done
  apply set_consumers lenient h (.unlocking (left.filter (· ≠ i))) i
  · intro j other
    rw [at_left]
    simp [Pc.holds, other]
  · intro j left' _ same member
    obtain rfl := Pc.unlocking.inj same
    exact ⟨left, at_left, (List.mem_filter.mp member).1⟩
  · have free := not_owned ⟨true, none⟩ rfl
    refine ⟨trivial, iff_of_false free.2 (by simp [Pc.holds]), fun held => absurd held free.1, ?_⟩
    exact lenient.weaken (fun _ => Or.inr ⟨left, at_left, at_i⟩) attends.history

/-- Every consumer's mutex is with Execute when it receives, so none is reading, and to each
    the received frame is due. -/
theorem take_consumers (lenient : Lenient H) {H' : Prop → List (View T) → Prop} (lenient' : Lenient H')
    {s t : State T} (h : Consumers s H) (taken : ∀ seen, H False seen → H' True seen)
    (step : s.step .waitForData = some t) : Consumers t H' := by
  cases step_cases step with
  | waitForData all_locked =>
    intro i c here
    have attends := h i c here
    obtain ⟨lock, owned⟩ := attends.locked.mpr (by rw [all_locked]; trivial)
    refine ⟨attends.serve, iff_of_true ⟨lock, owned⟩ ?_, ?_, ?_⟩
    · exact List.mem_range.mpr (List.getElem?_eq_some_iff.mp here).1
    · rintro ⟨lock', owned'⟩
      rw [owned] at owned'
      cases owned'
    · exact lenient'.weaken (fun _ => trivial) (taken _ (lenient.weaken False.elim attends.history))

theorem enter_consumers (lenient : Lenient H) {s : State T} (h : Consumers s H) (idle : s.pc = .idle) :
    Consumers { s with pc := .locking 0 } H := by
  apply pc_consumers lenient h
  · intro i c _
    rw [idle]
    simp [Pc.holds]
  · intro left same
    cases same

theorem quiet_consumers (lenient : Lenient H) (empty : H False []) {s t : State T} {a : Action T}
    (acquired : ∀ seen, H True seen → H False (s.view :: seen)) (h : Consumers s H) (quiet : a.quiet)
    (step : s.step a = some t) : Consumers t H := by
  cases step_cases step with
  | fill | sendData | waitForData => cases quiet
  | getServe idle => exact getServe_consumers lenient empty h idle
  | acquire i garbage c serve here got => exact acquire_consumers lenient h acquired here got
  | release i c serve here done => exact release_consumers lenient h here done
  | enter idle => exact enter_consumers lenient h idle
  | lock next c serve at_next here got => exact lock_consumers lenient h at_next here got
  | grow => exact grow_consumers h
  | locked all =>
    apply pc_consumers lenient h
    · intro i c here
      rw [all]
      exact iff_of_true trivial (List.getElem?_eq_some_iff.mp here).1
    · intro left same
      cases same
  | unlock i left c serve at_left at_i here done => exact unlock_consumers lenient h at_left at_i here done
  | leave none_left =>
    apply pc_consumers lenient h
    · intro i c _
      rw [none_left]
      simp [Pc.holds]
    · intro left same
      cases same

theorem pipe_consumers {H' : Prop → List (View T) → Prop} {s t : State T} (h : Consumers s H)
    (frames : t.frames = s.frames) (pc : t.pc = s.pc) (view : t.view = s.view)
    (grown : ∀ due seen, H due seen → H' due seen) : Consumers t H' := by
  intro i c here
  rw [frames] at here
  obtain ⟨serve, locked, holding, history⟩ := h i c here
  refine ⟨serve, by rw [pc]; exact locked, by rw [view]; exact holding, ?_⟩
  rw [Due, pc]
  exact grown _ _ history

/-- While a consumer holds its lock Execute does not receive: it would own this mutex too. -/
theorem held_not_waiting {s : State T} (h : Consumers s H) {i : Nat} {c : Consumer T}
    (here : s.frames[i]? = some c) (held : c.serve.consumed) : s.pc ≠ .waiting := by
  intro waiting
  obtain ⟨lock, owned⟩ := held
  obtain ⟨lock', owned'⟩ := (h i c here).locked.mpr (by rw [waiting]; trivial)
  rw [owned] at owned'
  cases owned'

end ServeFrame
