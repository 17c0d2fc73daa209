import Mathlib.Algebra.Ring.Nat

/-!
Contract: lists with one entry replaced.

Owns: what a count and a sum over a list become when one entry is replaced.

Does not own: what the entries stand for.
-/

namespace GradientMerge

namespace Replacement

variable {α : Type} {entries : List α} {index : Nat} {old : α}

theorem sum_map_set
    (measure : α → Nat)
    (here : entries[index]? = some old)
    (new : α) :
    ((entries.set index new).map measure).sum + measure old =
      (entries.map measure).sum + measure new := by
  induction entries generalizing index with
  | nil => cases here
  | cons entry entries inductionHypothesis =>
    cases index with
    | zero =>
      simp only [List.getElem?_cons_zero, Option.some.injEq] at here
      subst here
      simp only [List.set_cons_zero, List.map_cons, List.sum_cons]
      omega
    | succ index =>
      have behind : entries[index]? = some old := by simpa using here
      have rest := inductionHypothesis behind
      simp only [List.set_cons_succ, List.map_cons, List.sum_cons]
      omega

theorem countP_set
    (property : α → Bool)
    (here : entries[index]? = some old)
    (new : α) :
    (entries.set index new).countP property + (property old).toNat =
      entries.countP property + (property new).toNat := by
  have counted (list : List α) :
      list.countP property = (list.map fun entry => (property entry).toNat).sum := by
    induction list with
    | nil => rfl
    | cons entry list inductionHypothesis =>
      rw [List.countP_cons, inductionHypothesis, List.map_cons, List.sum_cons, Nat.add_comm]
      cases property entry with
      | false => rfl
      | true => rfl
  rw [counted, counted]
  exact sum_map_set _ here new

theorem set_of_getElem? (here : entries[index]? = some old) : entries.set index old = entries := by
  obtain ⟨inside, isOld⟩ := List.getElem?_eq_some_iff.1 here
  rw [← isOld, List.set_getElem_self]

/-- What holds for every entry and for the new one holds for every entry of the list with it. -/
theorem getElem?_set_cases
    {new entry : α}
    {place : Nat}
    (there : (entries.set index new)[place]? = some entry) :
    place = index ∧ entry = new ∨ place ≠ index ∧ entries[place]? = some entry := by
  by_cases same : index = place
  · subst same
    by_cases inside : index < entries.length
    · rw [List.getElem?_set_self inside] at there
      exact .inl ⟨rfl, (Option.some.inj there).symm⟩
    · rw [List.getElem?_eq_none (by simpa using inside)] at there
      cases there
  · rw [List.getElem?_set_ne same] at there
    exact .inr ⟨fun equal => same equal.symm, there⟩

end Replacement

end GradientMerge
