import Mathlib.Data.Fintype.Card
import Mathlib.Data.List.Nodup
import Mathlib.Data.List.Perm.Subperm
import Mathlib.Data.Set.Finite.List
import Mathlib.Logic.Function.Basic
import Mathlib.Logic.Relation
import Mathlib.Order.WellFounded

/-! # Acyclic relations

A relation is acyclic when no path leads from an element back to it. One more edge
closes a cycle exactly when a path led back from its end to its start. -/

namespace Relational

open Relation (TransGen ReflTransGen)

variable {α : Type} {r : α → α → Prop} {a b : α}

def Acyclic (r : α → α → Prop) : Prop := ∀ a, ¬ TransGen r a a

/-- The relation with the edge from `a` to `b` added. -/
def addEdge (r : α → α → Prop) (a b : α) : α → α → Prop := fun x y => r x y ∨ x = a ∧ y = b

theorem transGen_addEdge {x y : α} (h : TransGen (addEdge r a b) x y) :
    TransGen r x y ∨ ReflTransGen r x a ∧ ReflTransGen r b y := by
  induction h with
  | single h =>
    rcases h with h | ⟨rfl, rfl⟩
    · exact .inl (.single h)
    · exact .inr ⟨.refl, .refl⟩
  | tail _ h ih =>
    rcases h with h | ⟨rfl, rfl⟩
    · exact ih.imp (fun hx => hx.tail h) fun ⟨hx, hy⟩ => ⟨hx, hy.tail h⟩
    · rcases ih with hx | ⟨hx, -⟩
      · exact .inr ⟨hx.to_reflTransGen, .refl⟩
      · exact .inr ⟨hx, .refl⟩

/-- **One more edge.** -/
theorem acyclic_addEdge (h : Acyclic r) : Acyclic (addEdge r a b) ↔ ¬ ReflTransGen r b a := by
  constructor
  · intro hacyclic hback
    have hback : ReflTransGen (addEdge r a b) b a := ReflTransGen.mono (fun _ _ => .inl) _ _ hback
    exact hacyclic a (TransGen.head' (.inr ⟨rfl, rfl⟩) hback)
  · intro hopen x hx
    rcases transGen_addEdge hx with hx | ⟨hxa, hbx⟩
    · exact h x hx
    · exact hopen (hbx.trans hxa)

variable {r' : α → α → Prop}

theorem Acyclic.mono (h : Acyclic r) (hsub : ∀ x y, r' x y → r x y) : Acyclic r' :=
  fun x hx => h x (TransGen.mono hsub _ _ hx)

theorem acyclic_congr (h : ∀ x y, r x y ↔ r' x y) : Acyclic r ↔ Acyclic r' := by
  rw [show r = r' from funext fun x => funext fun y => propext (h x y)]

end Relational

/-! # Topological sorting

Kahn's algorithm. An element is ready once everything it depends on has been listed; a ready element is listed, and each
element that depends on it has one dependency fewer to wait for. When all elements have been listed, each is listed once
and after what it depends on (`topological_spec`). A sort of the ready elements, whatever it is, makes the order
deterministic. -/

namespace Relational

open Relation (TransGen)

variable {α : Type} [DecidableEq α]

/-- Each of the elements has one dependency fewer to wait for. Those that have none left become ready. -/
def release (waiting : α → ℕ) (ready : List α) : List α → (α → ℕ) × List α
  | [] => (waiting, ready)
  | x :: xs =>
    release (Function.update waiting x (waiting x - 1)) (if waiting x - 1 = 0 then ready ++ [x] else ready) xs

/-- Rounds of the sort: the elements listed. -/
def kahn (sort : List α → List α) (forward : α → List α) : ℕ → (α → ℕ) → List α → List α → List α
  | 0, _, _, order => order
  | _ + 1, _, [], order => order
  | rounds + 1, waiting, x :: ready, order =>
    kahn sort forward rounds (release waiting ready (sort (forward x))).1
      (sort (release waiting ready (sort (forward x))).2) (order ++ [x])

/-- The elements that depend on another. -/
def dependentsOf (nodes : List α) (deps : α → List α) (x : α) : List α := nodes.filter fun n => x ∈ deps n

/-- What the sort lists, from the elements that depend on nothing. -/
def kahnOrder (sort : List α → List α) (nodes : List α) (deps : α → List α) : List α :=
  kahn sort (dependentsOf nodes deps) nodes.length (fun n => (deps n).length)
    (sort (nodes.filter fun n => (deps n).length = 0)) []

/-- A topological order of the elements, if all they depend on is among them and they are in no cycle. -/
def topological (sort : List α → List α) (nodes : List α) (deps : α → List α) : Option (List α) :=
  if nodes.any fun n => (deps n).any fun d => d ∉ nodes then none
  else if (kahnOrder sort nodes deps).length = nodes.length then some (kahnOrder sort nodes deps) else none

variable {sort : List α → List α} {nodes ready order : List α} {deps : α → List α} {waiting : α → ℕ} {x n : α}

variable {xs : List α}

theorem release_waiting (hnodup : xs.Nodup) :
    (release waiting ready xs).1 n = if n ∈ xs then waiting n - 1 else waiting n := by
  induction xs generalizing waiting ready with
  | nil => simp [release]
  | cons y ys ih =>
    rw [List.nodup_cons] at hnodup
    rw [release, ih hnodup.2]
    by_cases hy : n = y
    · subst hy
      simp [hnodup.1]
    · simp [hy]

theorem release_ready (hnodup : xs.Nodup) :
    (release waiting ready xs).2 = ready ++ xs.filter fun y => waiting y - 1 = 0 := by
  induction xs generalizing waiting ready with
  | nil => simp [release]
  | cons y ys ih =>
    rw [List.nodup_cons] at hnodup
    have hrest : ys.filter (fun z => Function.update waiting y (waiting y - 1) z - 1 = 0) =
        ys.filter fun z => waiting z - 1 = 0 := by
      apply List.filter_congr
      intro z hz
      rw [Function.update_of_ne]
      rintro rfl
      exact hnodup.1 hz
    rw [release, ih hnodup.2, hrest, List.filter_cons]
    split <;> simp_all

/-- The elements are listed after what they depend on. -/
def Ordered (deps : α → List α) (order : List α) : Prop :=
  ∀ before y after, order = before ++ y :: after → ∀ d ∈ deps y, d ∈ before

omit [DecidableEq α] in
theorem Ordered.snoc (h : Ordered deps order) (hx : ∀ d ∈ deps x, d ∈ order) : Ordered deps (order ++ [x]) := by
  intro before y after hsplit d hd
  rcases List.eq_nil_or_concat' after with rfl | ⟨after', z, rfl⟩
  · obtain ⟨rfl, hlast⟩ := List.append_inj' hsplit rfl
    obtain rfl := List.head_eq_of_cons_eq hlast
    exact hx d hd
  · have hassoc : before ++ y :: (after' ++ [z]) = (before ++ y :: after') ++ [z] := by simp
    rw [hassoc] at hsplit
    exact h before y after' (List.append_inj' hsplit rfl).1 d hd

/-- The sort between two rounds. -/
structure Sorting (nodes : List α) (deps : α → List α) (waiting : α → ℕ) (ready order : List α) : Prop where
  distinct : (order ++ ready).Nodup
  known : ∀ n ∈ order ++ ready, n ∈ nodes
  ordered : Ordered deps order
  counted : ∀ n ∈ nodes, waiting n = ((deps n).filter (· ∉ order)).length
  ready_iff : ∀ n ∈ nodes, n ∈ order ++ ready ↔ waiting n = 0

theorem Sorting.listed (h : Sorting nodes deps waiting (x :: ready) order) : ∀ d ∈ deps x, d ∈ order := by
  have hx : x ∈ order ++ x :: ready := by simp
  have hzero := (h.ready_iff x (h.known x hx)).mp hx
  rw [h.counted x (h.known x hx), List.length_eq_zero_iff, List.filter_eq_nil_iff] at hzero
  intro d hd
  simpa using hzero d hd

theorem Sorting.waits (h : Sorting nodes deps waiting (x :: ready) order) (hn : n ∈ nodes) (hx : x ∈ deps n) :
    0 < waiting n ∧ n ∉ order ++ x :: ready := by
  have hpos : 0 < waiting n := by
    rw [h.counted n hn]
    apply List.length_pos_of_mem (a := x)
    rw [List.mem_filter]
    have hfresh : x ∉ order := fun hxo => (List.nodup_append.mp h.distinct).2.2 x hxo x List.mem_cons_self rfl
    exact ⟨hx, by simpa using hfresh⟩
  refine ⟨hpos, fun hmem => ?_⟩
  have := (h.ready_iff n hn).mp hmem
  omega

theorem length_filter_snoc {l : List α} (hnodup : l.Nodup) (hx : x ∉ order) :
    (l.filter (· ∉ order ++ [x])).length = (l.filter (· ∉ order)).length - if x ∈ l then 1 else 0 := by
  have hsplit : l.filter (· ∉ order ++ [x]) = (l.filter (· ∉ order)).erase x := by
    rw [(hnodup.filter _).erase_eq_filter, List.filter_filter]
    apply List.filter_congr
    intro y _
    simp [not_or, bne, beq_eq_decide, and_comm]
  rw [hsplit, List.length_erase]
  have hmem : x ∈ l.filter (· ∉ order) ↔ x ∈ l := by simp [hx]
  simp only [hmem]
  split <;> rfl

variable (hsort : ∀ l : List α, (sort l).Perm l) (hnodes : nodes.Nodup) (hdeps : ∀ n ∈ nodes, (deps n).Nodup)

include hsort hnodes hdeps

theorem Sorting.round (h : Sorting nodes deps waiting (x :: ready) order) :
    Sorting nodes deps (release waiting ready (sort (dependentsOf nodes deps x))).1
      (sort (release waiting ready (sort (dependentsOf nodes deps x))).2) (order ++ [x]) := by
  have hperm := hsort (dependentsOf nodes deps x)
  have hforward : (sort (dependentsOf nodes deps x)).Nodup := hperm.nodup_iff.mpr (hnodes.filter _)
  have hmem : ∀ n, n ∈ sort (dependentsOf nodes deps x) ↔ n ∈ nodes ∧ x ∈ deps n := by
    intro n
    rw [hperm.mem_iff]
    unfold dependentsOf
    rw [List.mem_filter, decide_eq_true_eq]
  have hfresh : x ∉ order := fun hxo => (List.nodup_append.mp h.distinct).2.2 x hxo x List.mem_cons_self rfl
  have hnew : ∀ n, n ∈ (release waiting ready (sort (dependentsOf nodes deps x))).2 ↔
      n ∈ ready ∨ (n ∈ nodes ∧ x ∈ deps n) ∧ waiting n - 1 = 0 := by
    intro n
    rw [release_ready hforward, List.mem_append, List.mem_filter, hmem, decide_eq_true_eq]
  have hlist : ∀ n, n ∈ order ++ [x] ++ sort (release waiting ready (sort (dependentsOf nodes deps x))).2 ↔
      n ∈ order ++ x :: ready ∨ (n ∈ nodes ∧ x ∈ deps n) ∧ waiting n - 1 = 0 := by
    intro n
    rw [List.mem_append, (hsort _).mem_iff, hnew]
    simp [or_assoc]
  have hcount : ∀ n ∈ nodes, (release waiting ready (sort (dependentsOf nodes deps x))).1 n =
      ((deps n).filter (· ∉ order ++ [x])).length := by
    intro n hn
    rw [release_waiting hforward, length_filter_snoc (hdeps n hn) hfresh, ← h.counted n hn]
    simp only [hmem, hn, true_and]
    split <;> rfl
  refine ⟨?_, ?_, h.ordered.snoc h.listed, hcount, ?_⟩
  · -- what becomes ready was waiting, so it was neither listed nor ready
    have hsorted := (hsort (release waiting ready (sort (dependentsOf nodes deps x))).2).append_left (order ++ [x])
    rw [hsorted.nodup_iff, release_ready hforward, ← List.append_assoc, List.append_assoc order, List.singleton_append,
      List.nodup_append]
    refine ⟨h.distinct, hforward.filter _, ?_⟩
    rintro a ha b hb rfl
    obtain ⟨hn, hx⟩ := (hmem a).mp (List.mem_of_mem_filter hb)
    exact (h.waits hn hx).2 ha
  · intro n hn
    rcases (hlist n).mp hn with hn | hn
    · exact h.known n hn
    · exact hn.1.1
  · intro n hn
    rw [hlist, h.ready_iff n hn, release_waiting hforward]
    simp only [hmem, hn, true_and]
    by_cases hx : x ∈ deps n
    · have := (h.waits hn hx).1
      rw [if_pos hx]
      constructor
      · rintro (h0 | ⟨-, h0⟩)
        · omega
        · exact h0
      · exact fun h0 => .inr ⟨hx, h0⟩
    · rw [if_neg hx]
      simp [hx]

theorem Sorting.kahn {rounds : ℕ} (h : Sorting nodes deps waiting ready order)
    (hrounds : nodes.length ≤ rounds + order.length) :
    ∃ waiting', Sorting nodes deps waiting' [] (Relational.kahn sort (dependentsOf nodes deps) rounds waiting ready order) := by
  induction rounds generalizing waiting ready order with
  | zero =>
    have hlen : (order ++ ready).length ≤ nodes.length := (h.distinct.subperm fun n hn => h.known n hn).length_le
    rw [List.length_append] at hlen
    have hnone : ready = [] := List.length_eq_zero_iff.mp (by omega)
    subst hnone
    exact ⟨waiting, h⟩
  | succ rounds ih =>
    cases ready with
    | nil => exact ⟨waiting, h⟩
    | cons x ready =>
      rw [Relational.kahn]
      apply ih (h.round hsort hnodes hdeps)
      rw [List.length_append, List.length_singleton]
      omega

omit hdeps in
theorem Sorting.init : Sorting nodes deps (fun n => (deps n).length)
    (sort (nodes.filter fun n => (deps n).length = 0)) [] where
  distinct := by
    rw [List.nil_append, (hsort _).nodup_iff]
    exact hnodes.filter _
  known n hn := by
    rw [List.nil_append, (hsort _).mem_iff] at hn
    exact List.mem_of_mem_filter hn
  ordered := by
    intro before y after h
    simp at h
  counted n _ := by simp
  ready_iff n hn := by
    rw [List.nil_append, (hsort _).mem_iff, List.mem_filter, decide_eq_true_eq]
    exact and_iff_right hn

theorem kahnOrder_spec : (kahnOrder sort nodes deps).Nodup ∧ (∀ n ∈ kahnOrder sort nodes deps, n ∈ nodes) ∧
    Ordered deps (kahnOrder sort nodes deps) ∧
    ∀ n ∈ nodes, n ∉ kahnOrder sort nodes deps → ∃ d ∈ deps n, d ∉ kahnOrder sort nodes deps := by
  obtain ⟨waiting, hend⟩ := (Sorting.init hsort hnodes).kahn hsort hnodes hdeps (Nat.le_add_right _ _)
  have hdistinct := hend.distinct
  have hknown := hend.known
  have hready := hend.ready_iff
  rw [List.append_nil] at hdistinct hknown hready
  refine ⟨hdistinct, hknown, hend.ordered, fun n hn hnew => ?_⟩
  have hwaits : waiting n ≠ 0 := fun hzero => hnew ((hready n hn).mpr hzero)
  rw [hend.counted n hn, ne_eq, List.length_eq_zero_iff, List.eq_nil_iff_forall_not_mem] at hwaits
  simp only [List.mem_filter, decide_eq_true_eq, not_forall, not_not] at hwaits
  obtain ⟨d, hd, hdnew⟩ := hwaits
  exact ⟨d, hd, hdnew⟩

/-- **A topological order** lists every element once, after what it depends on. -/
theorem topological_spec (h : topological sort nodes deps = some order) :
    order.Nodup ∧ (∀ n, n ∈ order ↔ n ∈ nodes) ∧ Ordered deps order ∧ ∀ n ∈ nodes, ∀ d ∈ deps n, d ∈ nodes := by
  obtain ⟨hdistinct, hknown, hordered, -⟩ := kahnOrder_spec hsort hnodes hdeps
  unfold topological at h
  split at h
  · cases h
  · rename_i hclosed
    split at h
    · rename_i hlength
      obtain rfl := Option.some.inj h
      have hperm := (hdistinct.subperm fun n hn => hknown n hn).perm_of_length_le hlength.symm.le
      refine ⟨hdistinct, fun n => hperm.mem_iff, hordered, ?_⟩
      intro n hn d hd
      by_contra hunknown
      apply hclosed
      rw [List.any_eq_true]
      exact ⟨n, hn, List.any_eq_true.mpr ⟨d, hd, by simpa using hunknown⟩⟩
    · cases h

/-- **Without cycles there is a topological order.** -/
theorem topological_isSome (hclosed : ∀ n ∈ nodes, ∀ d ∈ deps n, d ∈ nodes)
    (hacyclic : Acyclic fun a b => a ∈ nodes ∧ b ∈ deps a) : (topological sort nodes deps).isSome := by
  obtain ⟨hdistinct, hknown, -, hwaits⟩ := kahnOrder_spec hsort hnodes hdeps
  have hall : ∀ n ∈ nodes, n ∈ kahnOrder sort nodes deps := by
    -- otherwise a first element that is not listed waits for another one that is not listed
    by_contra hmissing
    simp only [not_forall] at hmissing
    obtain ⟨n, hn, hnew⟩ := hmissing
    have : Finite {x // x ∈ nodes} := (List.finite_toSet nodes).to_subtype
    let Below (b a : {x // x ∈ nodes}) : Prop := TransGen (fun a b => a ∈ nodes ∧ b ∈ deps a) a.val b.val
    have : IsTrans {x // x ∈ nodes} Below := ⟨fun _ _ _ hab hbc => TransGen.trans hbc hab⟩
    have : Std.Irrefl Below := ⟨fun a ha => hacyclic a.val ha⟩
    have hwf : WellFounded Below := Finite.wellFounded_of_trans_of_irrefl Below
    obtain ⟨m, hm, hfirst⟩ := hwf.has_min {x | x.val ∉ kahnOrder sort nodes deps} ⟨⟨n, hn⟩, hnew⟩
    obtain ⟨d, hd, hdnew⟩ := hwaits m.val m.property hm
    exact hfirst ⟨d, hclosed m.val m.property d hd⟩ hdnew (.single ⟨m.property, hd⟩)
  have hlength : (kahnOrder sort nodes deps).length = nodes.length :=
    le_antisymm (hdistinct.subperm fun n hn => hknown n hn).length_le (hnodes.subperm fun n hn => hall n hn).length_le
  have hopen : (nodes.any fun n => (deps n).any fun d => d ∉ nodes) = false := by
    rw [List.any_eq_false]
    intro n hn hany
    obtain ⟨d, hd, hunknown⟩ := List.any_eq_true.mp hany
    exact absurd (hclosed n hn d hd) (by simpa using hunknown)
  unfold topological
  rw [hopen, if_neg Bool.false_ne_true, if_pos hlength]
  rfl

end Relational
