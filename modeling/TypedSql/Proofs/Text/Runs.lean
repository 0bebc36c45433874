import Mathlib.Data.List.TakeWhile

/-!
# Runs

A run of a list is taken up to the first element that does not belong to it. Once it is known
where a run ends, taking and dropping it give the two parts.
-/

namespace TypedSql

namespace Runs

variable {α : Type} {p : α → Bool} {xs ys : List α}

theorem takeWhile_append (hx : ∀ a ∈ xs, p a = true) (hy : ∀ a ∈ ys.head?, p a = false) :
    (xs ++ ys).takeWhile p = xs := by
  rw [List.takeWhile_append_of_pos hx]
  cases ys with
  | nil => simp
  | cons y ys => simp [hy y rfl]

theorem dropWhile_append (hx : ∀ a ∈ xs, p a = true) (hy : ∀ a ∈ ys.head?, p a = false) :
    (xs ++ ys).dropWhile p = ys := by
  rw [List.dropWhile_append_of_pos hx]
  cases ys with
  | nil => rfl
  | cons y ys => simp [hy y rfl]

/-- A run does not reach behind an element that does not belong to it. -/
theorem takeWhile_append_cons {a : α} (ha : p a = false) :
    (xs ++ a :: ys).takeWhile p = xs.takeWhile p := by
  rw [List.takeWhile_append]
  split
  · rename_i h
    rw [List.takeWhile_cons_of_neg (by simp [ha]), List.append_nil]
    exact ((List.takeWhile_prefix p).eq_of_length h).symm
  · rfl

theorem dropWhile_append_cons {a : α} (ha : p a = false) :
    (xs ++ a :: ys).dropWhile p = xs.dropWhile p ++ a :: ys := by
  rw [List.dropWhile_append]
  split
  · rename_i h
    rw [List.isEmpty_iff] at h
    rw [h, List.dropWhile_cons_of_neg (by simp [ha]), List.nil_append]
  · rfl

/-- Every list is a run and what is behind it. -/
theorem exists_eq_append (p : α → Bool) (xs : List α) :
    ∃ run rest, xs = run ++ rest ∧ (∀ a ∈ run, p a = true) ∧ ∀ a ∈ rest.head?, p a = false := by
  refine ⟨xs.takeWhile p, xs.dropWhile p, List.takeWhile_append_dropWhile.symm,
    fun a ha => List.mem_takeWhile_imp ha, ?_⟩
  intro a ha
  have h := List.head?_dropWhile_not p xs
  rw [Option.mem_def.mp ha] at h
  exact h

/-- There is one way to cut a list behind a run. -/
theorem append_inj {xs' ys' : List α} (hx : ∀ a ∈ xs, p a = true)
    (hy : ∀ a ∈ ys.head?, p a = false) (hx' : ∀ a ∈ xs', p a = true)
    (hy' : ∀ a ∈ ys'.head?, p a = false) (h : xs ++ ys = xs' ++ ys') : xs = xs' ∧ ys = ys' := by
  constructor
  · rw [← takeWhile_append hx hy, h, takeWhile_append hx' hy']
  · rw [← dropWhile_append hx hy, h, dropWhile_append hx' hy']

/-- What is of one run does not reach behind it. -/
theorem prefix_append_iff {zs : List α} (hx : ∀ a ∈ xs, p a = true)
    (hy : ∀ a ∈ ys.head?, p a = false) (hz : ∀ a ∈ zs, p a = true) :
    zs <+: xs ++ ys ↔ zs <+: xs := by
  constructor
  · rintro ⟨rest, h⟩
    have htake := congrArg (List.takeWhile p) h
    rw [takeWhile_append hx hy, List.takeWhile_append_of_pos hz] at htake
    exact ⟨_, htake⟩
  · rintro ⟨rest, rfl⟩
    exact ⟨rest ++ ys, (List.append_assoc ..).symm⟩

/-- A run that ends with none of its own elements is empty. -/
theorem eq_nil_of_getLast? (hx : ∀ a ∈ xs, p a = true) (hlast : ∀ a ∈ xs.getLast?, p a = false) :
    xs = [] := by
  cases h : xs.getLast? with
  | none => exact List.getLast?_eq_none_iff.mp h
  | some a =>
    have htrue := hx a (List.mem_of_getLast? h)
    rw [hlast a h] at htrue
    contradiction

end Runs

end TypedSql
