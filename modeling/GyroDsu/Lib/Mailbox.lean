import GyroDsu.Lib.Thinning
import Mathlib.Data.List.Basic

/-!
A mailbox for one value: a value that is sent replaces one that has not been taken.
The log of what has happened has the newest event first.
-/
namespace Mailbox
variable {T : Type}

inductive Event (T : Type) where
  | sent (value : T)
  | received (value : T)
  | refused
  | asked (taken : Bool)

inductive Step : Option T → Event T → Option T → Prop where
  | send (pending : Option T) (value : T) : Step pending (.sent value) (some value)
  | receive (value : T) : Step (some value) (.received value) none
  | refuse : Step none .refused none
  | ask (pending : Option T) : Step pending (.asked pending.isNone) pending

/-- What a mailbox that starts empty can do, with the value pending at the end. -/
inductive Trace : List (Event T) → Option T → Prop where
  | empty : Trace [] none
  | next {log : List (Event T)} {e : Event T} {pending pending' : Option T} (before : Trace log pending)
      (last : Step pending e pending') : Trace (e :: log) pending'

def sent : List (Event T) → List T
  | [] => []
  | .sent value :: log => sent log ++ [value]
  | _ :: log => sent log

def received : List (Event T) → List T
  | [] => []
  | .received value :: log => received log ++ [value]
  | _ :: log => received log

/-- For each value received, which of the values sent it was: the newest by then. -/
def indices : List (Event T) → List Nat
  | [] => []
  | .received _ :: log => indices log ++ [(sent log).length - 1]
  | _ :: log => indices log

def Waiting (log : List (Event T)) (value : T) : Prop :=
  ∃ newer older, log = newer ++ .sent value :: older ∧
    ∀ e ∈ newer, (∀ v, e ≠ .sent v) ∧ ∀ v, e ≠ .received v

def Settled (log : List (Event T)) : Prop :=
  sent log = [] ∨ ∃ newer value older, log = newer ++ .received value :: older ∧
    (∀ e ∈ newer, ∀ v, e ≠ .sent v) ∧ (sent older).getLast? = some value

def latest : List (Event T) → Option T
  | [] => none
  | .sent value :: _ => some value
  | .received _ :: _ => none
  | _ :: log => latest log

theorem trace_latest {log : List (Event T)} {pending : Option T} (trace : Trace log pending) :
    pending = latest log := by
  induction trace with
  | empty => rfl
  | next before last ih =>
    cases last with
    | send pending value => rfl
    | receive value => rfl
    | refuse => exact ih
    | ask pending => exact ih

theorem waiting_iff (log : List (Event T)) (value : T) : Waiting log value ↔ latest log = some value := by
  constructor
  · rintro ⟨newer, older, rfl, quiet⟩
    induction newer with
    | nil => rfl
    | cons e newer ih =>
      have later := ih fun other member => quiet other (List.mem_cons_of_mem _ member)
      have here := quiet e List.mem_cons_self
      cases e with
      | sent v => exact absurd rfl (here.1 v)
      | received v => exact absurd rfl (here.2 v)
      | refused => exact later
      | asked taken => exact later
  · intro newest
    induction log with
    | nil => cases newest
    | cons e log ih =>
      cases e with
      | sent v =>
        obtain rfl : v = value := Option.some.inj newest
        exact ⟨[], log, rfl, by simp⟩
      | received v => cases newest
      | refused =>
        obtain ⟨newer, older, rfl, quiet⟩ := ih newest
        exact ⟨.refused :: newer, older, rfl, List.forall_mem_cons.mpr ⟨by simp, quiet⟩⟩
      | asked taken =>
        obtain ⟨newer, older, rfl, quiet⟩ := ih newest
        exact ⟨.asked taken :: newer, older, rfl, List.forall_mem_cons.mpr ⟨by simp, quiet⟩⟩

theorem trace_waiting {log : List (Event T)} {pending : Option T} (trace : Trace log pending) (value : T) :
    pending = some value ↔ Waiting log value := by
  rw [waiting_iff, trace_latest trace]

theorem trace_last {log : List (Event T)} {pending : Option T} (trace : Trace log pending) {value : T}
    (waits : pending = some value) : (sent log).getLast? = some value := by
  induction trace with
  | empty => cases waits
  | next before last ih =>
    cases last with
    | send pending v =>
      obtain rfl : v = value := Option.some.inj waits
      exact List.getLast?_concat
    | receive v => cases waits
    | refuse => cases waits
    | ask pending => exact ih waits

theorem settled_cons {e : Event T} {log : List (Event T)} (other : ∀ v, e ≠ .sent v)
    (settled : Settled log) : Settled (e :: log) := by
  rcases settled with none_sent | ⟨newer, value, older, rfl, quiet, last⟩
  · left
    cases e with
    | sent v => exact absurd rfl (other v)
    | received v => exact none_sent
    | refused => exact none_sent
    | asked taken => exact none_sent
  · exact Or.inr ⟨e :: newer, value, older, rfl, List.forall_mem_cons.mpr ⟨other, quiet⟩, last⟩

theorem settled_latest {log : List (Event T)} (settled : Settled log) : latest log = none := by
  rcases settled with none_sent | ⟨newer, value, older, rfl, quiet, _⟩
  · induction log with
    | nil => rfl
    | cons e log ih =>
      cases e with
      | sent v => simp [sent] at none_sent
      | received v => rfl
      | refused => exact ih none_sent
      | asked taken => exact ih none_sent
  · induction newer with
    | nil => rfl
    | cons e newer ih =>
      have later := ih fun other member => quiet other (List.mem_cons_of_mem _ member)
      cases e with
      | sent v => exact absurd rfl (quiet _ List.mem_cons_self v)
      | received v => rfl
      | refused => exact later
      | asked taken => exact later

/-- Nothing is pending exactly when there is nothing left to receive. -/
theorem trace_settled {log : List (Event T)} {pending : Option T} (trace : Trace log pending) :
    pending = none ↔ Settled log := by
  constructor
  · intro empty
    induction trace with
    | empty => exact Or.inl rfl
    | next before last ih =>
      cases last with
      | send pending value => cases empty
      | receive value => exact Or.inr ⟨[], value, _, rfl, by simp, trace_last before rfl⟩
      | refuse => exact settled_cons (by simp) (ih rfl)
      | ask pending => exact settled_cons (by simp) (ih empty)
  · intro settled
    rw [trace_latest trace, settled_latest settled]

structure Ordered (log : List (Event T)) (pending : Option T) : Prop where
  within : ∀ i ∈ indices log, i < (sent log).length
  behind : pending ≠ none → ∀ i ∈ indices log, i + 1 < (sent log).length
  increasing : (indices log).Pairwise (· < ·)
  values : (indices log).map (fun i => (sent log)[i]?) = (received log).map some

theorem ordered_send {log : List (Event T)} {pending : Option T} (ordered : Ordered log pending) (value : T) :
    Ordered (.sent value :: log) (some value) := by
  have longer : (sent log ++ [value]).length = (sent log).length + 1 := by simp
  refine ⟨?_, ?_, ordered.increasing, ?_⟩
  · intro i member
    have inside := ordered.within i member
    simp only [sent, longer]
    omega
  · intro _ i member
    have inside := ordered.within i member
    simp only [sent, longer]
    omega
  · simp only [indices, received, sent]
    rw [← ordered.values]
    exact List.map_congr_left fun i member => List.getElem?_append_left (ordered.within i member)

theorem ordered_receive {log : List (Event T)} {value : T} (ordered : Ordered log (some value))
    (newest : (sent log).getLast? = some value) : Ordered (.received value :: log) none := by
  have some_sent : 0 < (sent log).length := by
    apply List.length_pos_iff.mpr
    intro none_sent
    rw [none_sent] at newest
    cases newest
  have earlier : ∀ i ∈ indices log, i + 1 < (sent log).length := ordered.behind (by simp)
  refine ⟨?_, by simp, ?_, ?_⟩
  · intro i member
    simp only [sent]
    rcases List.mem_append.mp member with old | new
    · exact ordered.within i old
    · rw [List.mem_singleton.mp new]
      omega
  · rw [indices, List.pairwise_append]
    refine ⟨ordered.increasing, List.pairwise_singleton _ _, ?_⟩
    intro i old j new
    have bound := earlier i old
    rw [List.mem_singleton.mp new]
    omega
  · rw [List.getLast?_eq_getElem?] at newest
    simp only [indices, received, sent, List.map_append, List.map_singleton, newest, ordered.values]

theorem trace_ordered {log : List (Event T)} {pending : Option T} (trace : Trace log pending) :
    Ordered log pending := by
  induction trace with
  | empty => exact ⟨by simp [indices], by simp [indices], List.Pairwise.nil, rfl⟩
  | next before last ih =>
    cases last with
    | send pending value => exact ordered_send ih value
    | receive value => exact ordered_receive ih (trace_last before rfl)
    | refuse => exact ⟨ih.within, ih.behind, ih.increasing, ih.values⟩
    | ask pending => exact ⟨ih.within, ih.behind, ih.increasing, ih.values⟩

/-- With what is still in it, a mailbox lets the last value through and some of the others. -/
theorem trace_thinned {log : List (Event T)} {pending : Option T} (trace : Trace log pending) :
    Thinning.Thinned (received log ++ pending.toList) (sent log) := by
  induction trace with
  | empty => exact Thinning.thinned_refl []
  | next before last ih =>
    cases last with
    | send pending value =>
      exact Thinning.thinned_concat ((List.sublist_append_left _ _).trans ih.sublist) value
    | receive value =>
      rw [received, Option.toList_none, List.append_nil]
      exact ih
    | refuse => exact ih
    | ask pending => exact ih

end Mailbox
