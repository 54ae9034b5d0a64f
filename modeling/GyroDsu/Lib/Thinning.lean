import Mathlib.Data.List.Basic

/-!
What comes out of stages that may skip a value once a newer one is there: some of the
values, in their order, and the last one in any case.
-/
namespace Thinning
variable {T U : Type}

structure Thinned (xs ys : List T) : Prop where
  sublist : xs.Sublist ys
  last : xs.getLast? = ys.getLast?

theorem thinned_refl (xs : List T) : Thinned xs xs := ⟨List.Sublist.refl xs, rfl⟩

theorem thinned_map (f : T → U) {xs ys : List T} (h : Thinned xs ys) : Thinned (xs.map f) (ys.map f) := by
  constructor
  · exact h.sublist.map f
  · rw [List.getLast?_map, List.getLast?_map, h.last]

theorem thinned_concat {xs ys : List T} (sublist : xs.Sublist ys) (value : T) :
    Thinned (xs ++ [value]) (ys ++ [value]) := by
  constructor
  · exact sublist.append (List.Sublist.refl _)
  · rw [List.getLast?_concat, List.getLast?_concat]

theorem picked_sublist {values : List T} {picks : List (Nat × T)}
    (increasing : (picks.map Prod.fst).Pairwise (· < ·)) (known : ∀ p ∈ picks, values[p.1]? = some p.2) :
    (picks.map Prod.snd).Sublist values := by
  suffices behind : ∀ k, (∀ p ∈ picks, k ≤ p.1) → (picks.map Prod.snd).Sublist (values.drop k) from
    behind 0 fun _ _ => Nat.zero_le _
  induction picks with
  | nil => exact fun _ _ => List.nil_sublist _
  | cons p picks ih =>
    intro k later
    obtain ⟨first, rest⟩ := List.pairwise_cons.mp increasing
    obtain ⟨inside, here⟩ := List.getElem?_eq_some_iff.mp (known p List.mem_cons_self)
    have picked := ih rest (fun q member => known q (List.mem_cons_of_mem _ member)) (p.1 + 1)
      fun q member => first q.1 (List.mem_map_of_mem member)
    have from_here : (values.drop p.1).Sublist (values.drop k) :=
      List.drop_sublist_drop_left values (later p List.mem_cons_self)
    rw [List.drop_eq_getElem_cons inside, here] at from_here
    exact (picked.cons_cons p.2).trans from_here

end Thinning
