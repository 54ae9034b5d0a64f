import GyroDsu.Hiddev.Registry
import Mathlib.Data.List.Nodup

/-
StopServe looks for its Serve under the shared lock and erases at the position it found
under the exclusive one. Between the two the position may come to denote another Serve,
or none.
-/
namespace StopServe
open Registry Runs

def Clear (found : Found) : Prop := ∀ position ∈ found.passed, found.position < position

instance (found : Found) : Decidable (Clear found) :=
  inferInstanceAs (Decidable (∀ position ∈ found.passed, found.position < position))

def Unpassed (s : State) : Action → Prop
  | .erase call => ∀ found ∈ s.stops[call]?, Clear found
  | _ => True

instance (s : State) : (a : Action) → Decidable (Unpassed s a)
  | .erase call => inferInstanceAs (Decidable (∀ found ∈ s.stops[call]?, Clear found))
  | .getServe | .notifyServe | .search _ | .start | .shouldContinue | .evaluate | .wait
  | .enter | .leave | .setStop | .flushPipes | .join => .isTrue trivial

/-- A StopServe removes its own Serve and nothing else, inside the vector, and whoever has
    not been stopped is registered. -/
structure Exact (move : Move State Action) : Prop where
  inside : ∀ call found, move.action = .erase call → move.before.stops[call]? = some found →
    found.position < move.before.frames.length
  own : ∀ call found, move.action = .erase call → move.before.stops[call]? = some found →
    found.serve ∈ move.before.frames ∧
      move.after.frames = move.before.frames.filter (· != found.serve)
  others : ∀ serve, serve < move.after.made → serve ∉ move.after.stopped →
    serve ∈ move.after.frames

def Placed (frames : List Nat) (found : Found) : Prop :=
  (Clear found ∧ frames[found.position]? = some found.serve) ∨
    (¬Clear found ∧ ∀ j : Nat, frames[j]? = some found.serve → j < found.position)

structure Sound (s : State) : Prop where
  nodup : s.frames.Nodup
  made : ∀ serve ∈ s.frames, serve < s.made
  found : ∀ found ∈ s.stops, found.serve < s.made ∧ Placed s.frames found
  stopped : ∀ serve ∈ s.stopped, serve < s.made

def Complete (s : State) : Prop := ∀ serve, serve ∈ s.frames ↔ serve < s.made ∧ serve ∉ s.stopped

theorem index_unique {l : List Nat} (nodup : l.Nodup) {i j x : Nat} (first : l[i]? = some x)
    (second : l[j]? = some x) : i = j := by
  obtain ⟨inside, rfl⟩ := List.getElem?_eq_some_iff.mp first
  obtain ⟨inside', same⟩ := List.getElem?_eq_some_iff.mp second
  exact ((List.Nodup.getElem_inj_iff nodup).mp same).symm

theorem clear_pass {found : Found} {position : Nat} :
    Clear (found.pass position) ↔ found.position < position ∧ Clear found := by
  simp [Clear, Found.pass]

theorem placed_erase {frames : List Nat} {found : Found} (nodup : frames.Nodup) (position : Nat)
    (h : Placed frames found) : Placed (frames.eraseIdx position) (found.pass position) := by
  have kept : (found.pass position).position = found.position := rfl
  have kept' : (found.pass position).serve = found.serve := rfl
  unfold Placed
  rw [clear_pass, kept, kept']
  rcases h with ⟨clear, here⟩ | ⟨passed, before⟩
  · by_cases behind : found.position < position
    · left
      rw [List.getElem?_eraseIdx_of_lt behind]
      exact ⟨⟨behind, clear⟩, here⟩
    · right
      refine ⟨fun both => behind both.1, fun j at_j => ?_⟩
      rw [List.getElem?_eraseIdx] at at_j
      split at at_j
      · omega
      · have := index_unique nodup here at_j
        omega
  · right
    refine ⟨fun both => passed both.2, fun j at_j => ?_⟩
    rw [List.getElem?_eraseIdx] at at_j
    split at at_j
    · exact before j at_j
    · have := before (j + 1) at_j
      omega

theorem placed_append {frames : List Nat} {found : Found} {new : Nat} (other : found.serve ≠ new)
    (h : Placed frames found) : Placed (frames ++ [new]) found := by
  have old : ∀ j : Nat, (frames ++ [new])[j]? = some found.serve ↔ frames[j]? = some found.serve := by
    intro j
    rw [List.getElem?_append]
    split
    · rfl
    · rename_i outside
      rw [(List.getElem?_eq_none_iff (l := frames)).mpr (Nat.le_of_not_lt outside)]
      simp only [reduceCtorEq, iff_false]
      intro at_new
      exact other (List.mem_singleton.mp (List.mem_of_getElem? at_new))
  unfold Placed
  simp only [old]
  exact h

inductive Change (s t : State) : Action → Prop where
  | aside (a : Action) (quiet : ∀ call, a ≠ .erase call) (frames : t.frames = s.frames)
      (made : t.made = s.made) (stops : t.stops = s.stops) (stopped : t.stopped = s.stopped) :
      Change s t a
  | added (frames : t.frames = s.frames ++ [s.made]) (made : t.made = s.made + 1)
      (stops : t.stops = s.stops) (stopped : t.stopped = s.stopped) : Change s t .getServe
  | found (serve : Nat) (registered : serve ∈ s.frames) (frames : t.frames = s.frames)
      (made : t.made = s.made) (stops : t.stops = ⟨serve, s.frames.idxOf serve, []⟩ :: s.stops)
      (stopped : t.stopped = s.stopped) : Change s t (.search serve)
  | erased (call : Nat) (found : Found) (here : s.stops[call]? = some found)
      (frames : t.frames = s.frames.eraseIdx found.position) (made : t.made = s.made)
      (stops : t.stops = (s.stops.eraseIdx call).map (Found.pass found.position))
      (stopped : t.stopped = found.serve :: s.stopped) : Change s t (.erase call)

theorem step_change {s t : State} {a : Action} (step : s.step a = some t) : Change s t a := by
  cases step_cases step with
  | getServe => exact .added rfl rfl rfl rfl
  | found serve _ registered => exact .found serve registered rfl rfl rfl rfl
  | erase call found _ here => exact .erased call found here rfl rfl rfl rfl
  | _ => exact .aside _ (fun call same => by cases same) rfl rfl rfl rfl

theorem step_sound {s t : State} {a : Action} (h : Sound s) (step : s.step a = some t) : Sound t := by
  cases step_change step with
  | aside _ quiet frames made stops stopped =>
    constructor
    · rw [frames]
      exact h.nodup
    · rw [frames, made]
      exact h.made
    · rw [frames, made, stops]
      exact h.found
    · rw [made, stopped]
      exact h.stopped
  | added frames made stops stopped =>
    constructor
    · rw [frames, List.nodup_append]
      refine ⟨h.nodup, List.nodup_singleton _, fun old member new same => ?_⟩
      obtain rfl := List.mem_singleton.mp same
      exact Nat.ne_of_lt (h.made old member)
    · intro serve member
      rw [frames, List.mem_append] at member
      rw [made]
      rcases member with old | new
      · exact Nat.lt_succ_of_lt (h.made serve old)
      · obtain rfl := List.mem_singleton.mp new
        exact Nat.lt_succ_self _
    · intro found member
      rw [stops] at member
      obtain ⟨known, placed⟩ := h.found found member
      rw [frames, made]
      exact ⟨Nat.lt_succ_of_lt known, placed_append (Nat.ne_of_lt known) placed⟩
    · intro serve member
      rw [stopped] at member
      rw [made]
      exact Nat.lt_succ_of_lt (h.stopped serve member)
  | found serve registered frames made stops stopped =>
    constructor
    · rw [frames]
      exact h.nodup
    · rw [frames, made]
      exact h.made
    · intro found member
      rw [stops] at member
      rw [frames, made]
      rcases List.mem_cons.mp member with rfl | old
      · refine ⟨h.made serve registered, Or.inl ⟨fun position none_yet => ?_, ?_⟩⟩
        · cases none_yet
        · exact List.getElem?_idxOf registered
      · exact h.found found old
    · rw [made, stopped]
      exact h.stopped
  | erased call found here frames made stops stopped =>
    constructor
    · rw [frames]
      exact h.nodup.eraseIdx _
    · intro serve member
      rw [frames] at member
      rw [made]
      exact h.made serve (List.mem_of_mem_eraseIdx member)
    · intro other member
      rw [stops] at member
      obtain ⟨old, still_there, rfl⟩ := List.mem_map.mp member
      obtain ⟨known, placed⟩ := h.found old (List.mem_of_mem_eraseIdx still_there)
      rw [frames, made]
      exact ⟨known, placed_erase h.nodup found.position placed⟩
    · intro serve member
      rw [stopped] at member
      rw [made]
      rcases List.mem_cons.mp member with rfl | before
      · exact (h.found found (List.mem_of_getElem? here)).1
      · exact h.stopped serve before

theorem erase_own {frames : List Nat} {position serve : Nat} (nodup : frames.Nodup)
    (here : frames[position]? = some serve) :
    frames.eraseIdx position = frames.filter (· != serve) := by
  rw [← nodup.erase_eq_filter, List.erase_eq_eraseIdx_of_idxOf]
  obtain ⟨inside, rfl⟩ := List.getElem?_eq_some_iff.mp here
  exact nodup.idxOf_getElem position inside

/-- A StopServe that nobody has passed still has its Serve where it found it. -/
theorem clear_here {s : State} (h : Sound s) {call : Nat} {found : Found}
    (here : s.stops[call]? = some found) (clear : Clear found) :
    s.frames[found.position]? = some found.serve := by
  rcases (h.found found (List.mem_of_getElem? here)).2 with ⟨_, placed⟩ | ⟨passed, _⟩
  · exact placed
  · exact absurd clear passed

theorem step_complete {s t : State} {a : Action} (h : Sound s) (complete : Complete s)
    (step : s.step a = some t) (unpassed : Unpassed s a) : Complete t := by
  intro serve
  have before := complete serve
  cases step_change step with
  | aside _ quiet frames made stops stopped => rwa [frames, made, stopped]
  | added frames made stops stopped =>
    have fresh : s.made ∉ s.stopped := fun member => Nat.lt_irrefl _ (h.stopped _ member)
    rw [frames, made, stopped, List.mem_append, List.mem_singleton, before]
    constructor
    · intro either
      rcases either with ⟨known, stays⟩ | rfl
      · exact ⟨Nat.lt_succ_of_lt known, stays⟩
      · exact ⟨Nat.lt_succ_self _, fresh⟩
    · intro both
      rcases Nat.lt_succ_iff_lt_or_eq.mp both.1 with known | rfl
      · exact Or.inl ⟨known, both.2⟩
      · exact Or.inr rfl
  | found serve registered frames made stops stopped => rwa [frames, made, stopped]
  | erased call found here frames made stops stopped =>
    rw [frames, made, stopped, erase_own h.nodup (clear_here h here (unpassed found here)),
      List.mem_filter, before, List.mem_cons, bne_iff_ne]
    tauto

theorem unpassed_exact {s t : State} {a : Action} (h : Sound s) (complete : Complete s)
    (step : s.step a = some t) (unpassed : Unpassed s a) : Exact ⟨s, a, t⟩ := by
  have complete' := step_complete h complete step unpassed
  constructor
  · intro call found same here
    simp only at same here
    subst same
    exact (List.getElem?_eq_some_iff.mp (clear_here h here (unpassed found here))).1
  · intro call found same here
    simp only at same here
    subst same
    have placed := clear_here h here (unpassed found here)
    refine ⟨List.mem_of_getElem? placed, ?_⟩
    cases step_change step with
    | aside _ quiet => exact absurd rfl (quiet call)
    | erased _ found' here' frames =>
      obtain rfl : found' = found := Option.some.inj (here'.symm.trans here)
      exact frames.trans (erase_own h.nodup placed)
  · intro serve known stays
    exact (complete' serve).mpr ⟨known, stays⟩

/-- An erase at a position that has come to denote something else leaves the Serve in. -/
theorem exact_clear {s t : State} {call : Nat} {found : Found} (h : Sound s)
    (step : s.step (.erase call) = some t) (here : s.stops[call]? = some found)
    (exact_move : Exact ⟨s, .erase call, t⟩) : Clear found := by
  obtain ⟨member, removed⟩ := exact_move.own call found rfl here
  rcases (h.found found (List.mem_of_getElem? here)).2 with ⟨clear, _⟩ | ⟨_, before⟩
  · exact clear
  · obtain ⟨j, at_j⟩ := List.mem_iff_getElem?.mp member
    cases step_change step with
    | aside _ quiet => exact absurd rfl (quiet call)
    | erased _ found' here' frames =>
      obtain rfl : found' = found := Option.some.inj (here'.symm.trans here)
      have left : found'.serve ∈ t.frames := by
        rw [frames]
        apply List.mem_of_getElem?
        rw [List.getElem?_eraseIdx_of_lt (before j at_j)]
        exact at_j
      have gone : t.frames = s.frames.filter (· != found'.serve) := removed
      rw [gone, List.mem_filter] at left
      simp at left

theorem exact_unpassed {s t : State} {a : Action} (h : Sound s) (step : s.step a = some t)
    (exact_move : Exact ⟨s, a, t⟩) : Unpassed s a := by
  cases a with
  | erase call =>
    intro found here
    exact exact_clear h step here exact_move
  | _ => trivial

theorem construct_sound : Sound construct := by
  constructor
  · exact List.nodup_nil
  · intro serve member
    cases member
  · intro found member
    cases member
  · intro serve member
    cases member

/-- In every run, StopServe removes exactly its own Serve each time if and only if no other
    call ever erases at or before the position it has found. -/
theorem stopServe_exact_iff {moves : List (Move State Action)} {t : State}
    (path : Path State.step construct moves t) :
    (∀ move ∈ moves, Exact move) ↔ ∀ move ∈ moves, Unpassed move.before move.action := by
  have complete : Complete construct := by
    intro serve
    simp [construct]
  refine path_iff Sound Complete Unpassed Exact ?_ ?_ ?_ path construct_sound complete
  · intro u a v h step
    exact step_sound h step
  · intro u a v h complete step unpassed
    exact ⟨unpassed_exact h complete step unpassed, step_complete h complete step unpassed⟩
  · intro u a v h _ step exact_move
    exact exact_unpassed h step exact_move

def inTurn : List Action := [.getServe, .getServe, .search 0, .search 1, .erase 0, .erase 0]

theorem stopServe_exact_inTurn :
    ∃ moves t, Path State.step construct moves t ∧ t.frames = [] ∧ ∀ move ∈ moves, Exact move := by
  have path : Path State.step construct _ _ := path_of_record inTurn Path.nil rfl
  exact ⟨_, _, path, rfl, (stopServe_exact_iff path).mpr (by decide)⟩

/-- Of three consumers the first two leave at once: the second one's position has come to
    denote the third, which is removed. -/
def atOnce : List Action :=
  [.getServe, .getServe, .getServe, .search 0, .search 1, .erase 1, .erase 0]

theorem other_serve_removed :
    ∃ moves t, Path State.step construct moves t ∧ t.frames = [1] ∧ t.stopped = [1, 0] ∧
      ¬∀ move ∈ moves, Exact move := by
  have path : Path State.step construct _ _ := path_of_record atOnce Path.nil rfl
  refine ⟨_, _, path, rfl, rfl, fun all => ?_⟩
  have registered := (all _ List.mem_cons_self).others 2 (by decide) (by decide)
  exact absurd registered (by decide)

end StopServe
