import Mathlib.Data.List.Basic
import Mathlib.Data.List.Nodup
import Mathlib.Data.List.Perm.Basic
import Mathlib.Data.List.Perm.Subperm
import Mathlib.Logic.Relation

/-! # Walks

A log of steps through a labelled transition system is a *walk*: each label leads
on from the state the one before it led to. -/

namespace Relational

variable {σ ε : Type} {R : σ → ε → σ → Prop}

/-- The labels lead from one state to another, one step of `R` each. -/
def Walk (R : σ → ε → σ → Prop) : σ → List ε → σ → Prop
  | s, [], s' => s = s'
  | s, e :: l, s' => ∃ s₁, R s e s₁ ∧ Walk R s₁ l s'

namespace Walk

variable {s s' : σ}

@[simp] theorem nil : Walk R s [] s' ↔ s = s' := Iff.rfl

variable {l : List ε} {e : ε}

@[simp] theorem cons : Walk R s (e :: l) s' ↔ ∃ s₁, R s e s₁ ∧ Walk R s₁ l s' := Iff.rfl

variable {l₁ l₂ : List ε}

theorem append : Walk R s (l₁ ++ l₂) s' ↔ ∃ s₁, Walk R s l₁ s₁ ∧ Walk R s₁ l₂ s' := by
  induction l₁ generalizing s with
  | nil => simp
  | cons e l₁ ih =>
    simp only [List.cons_append, cons, ih]
    constructor
    · rintro ⟨s₁, hr, s₂, h₁, h₂⟩
      exact ⟨s₂, ⟨s₁, hr, h₁⟩, h₂⟩
    · rintro ⟨s₂, ⟨s₁, hr, h₁⟩, h₂⟩
      exact ⟨s₁, hr, s₂, h₁, h₂⟩

theorem snoc {s₁ : σ} (h : Walk R s l s₁) (he : R s₁ e s') : Walk R s (l ++ [e]) s' :=
  append.mpr ⟨s₁, h, s', he, rfl⟩

theorem middle : Walk R s (l₁ ++ e :: l₂) s' ↔ ∃ s₁ s₂, Walk R s l₁ s₁ ∧ R s₁ e s₂ ∧ Walk R s₂ l₂ s' := by
  rw [append]
  constructor
  · rintro ⟨s₁, h₁, s₂, hr, h₂⟩
    exact ⟨s₁, s₂, h₁, hr, h₂⟩
  · rintro ⟨s₁, s₂, h₁, hr, h₂⟩
    exact ⟨s₁, h₁, s₂, hr, h₂⟩

theorem invariant {P : σ → Prop} (h : Walk R s l s') (hs : P s)
    (hstep : ∀ s e s', e ∈ l → P s → R s e s' → P s') : P s' := by
  induction l generalizing s with
  | nil =>
    cases h
    exact hs
  | cons e l ih =>
    obtain ⟨s₁, hr, h⟩ := h
    exact ih h (hstep s e s₁ List.mem_cons_self hs hr) fun s e s' he =>
      hstep s e s' (List.mem_cons_of_mem _ he)

end Walk

end Relational

/-! # What some nodes lead to

A worklist from some roots: what is taken from the queue is skipped if it was seen or is no node, and is else marked as
seen and its successors queued. With a round for each root and each edge, what is seen in the end are the nodes the roots
lead to, the roots among them (`mem_reachable_iff`). -/

namespace Relational

open Relation (ReflTransGen)

variable {α : Type} [DecidableEq α]

/-- Rounds of the search: the nodes seen. -/
def flood (nodes : List α) (succ : α → List α) : ℕ → List α → List α → List α
  | 0, _, seen => seen
  | _ + 1, [], seen => seen
  | rounds + 1, x :: queue, seen =>
    if x ∈ seen ∨ x ∉ nodes then flood nodes succ rounds queue seen
    else flood nodes succ rounds (queue ++ succ x) (seen ++ [x])

def reachable (nodes : List α) (succ : α → List α) (roots : List α) : List α :=
  flood nodes succ (roots.length + (nodes.flatMap succ).length) roots []

variable {nodes roots queue seen : List α} {succ : α → List α} {x y : α}

/-- An edge of the graph starts at a node of it. -/
def Edge (nodes : List α) (succ : α → List α) (a b : α) : Prop := a ∈ nodes ∧ b ∈ succ a

/-- The search between two rounds. -/
structure Flooding (nodes : List α) (succ : α → List α) (roots queue seen : List α) : Prop where
  reached : ∀ y ∈ seen ++ queue, ∃ root ∈ roots, ReflTransGen (Edge nodes succ) root y
  known : ∀ y ∈ seen, y ∈ nodes
  started : ∀ y ∈ roots, y ∈ nodes → y ∈ seen ++ queue
  closed : ∀ x ∈ seen, ∀ y ∈ succ x, y ∈ nodes → y ∈ seen ++ queue

section
omit [DecidableEq α]

theorem Flooding.init : Flooding nodes succ roots roots [] where
  reached y hy := ⟨y, by simpa using hy, .refl⟩
  known := by simp
  started y hy _ := by simpa using hy
  closed := by simp

theorem Flooding.skip (h : Flooding nodes succ roots (x :: queue) seen) (hx : x ∈ seen ∨ x ∉ nodes) :
    Flooding nodes succ roots queue seen := by
  have keep : ∀ y, y ∈ nodes → y ∈ seen ++ x :: queue → y ∈ seen ++ queue := by
    intro y hy hmem
    rcases List.mem_append.mp hmem with hmem | hmem
    · exact List.mem_append_left _ hmem
    · rcases List.mem_cons.mp hmem with rfl | hmem
      · exact List.mem_append_left _ (hx.resolve_right fun hno => hno hy)
      · exact List.mem_append_right _ hmem
  refine ⟨?_, h.known, fun y hy hn => keep y hn (h.started y hy hn), fun z hz y hy hn => keep y hn (h.closed z hz y hy hn)⟩
  intro y hy
  apply h.reached
  rcases List.mem_append.mp hy with hy | hy
  · exact List.mem_append_left _ hy
  · exact List.mem_append_right _ (List.mem_cons_of_mem _ hy)

theorem Flooding.visit (h : Flooding nodes succ roots (x :: queue) seen) (hx : x ∈ nodes) :
    Flooding nodes succ roots (queue ++ succ x) (seen ++ [x]) := by
  have keep : ∀ y, y ∈ seen ++ x :: queue → y ∈ seen ++ [x] ++ (queue ++ succ x) := by
    intro y hy
    simp only [List.mem_append, List.mem_cons, List.not_mem_nil, or_false] at hy ⊢
    tauto
  refine ⟨?_, ?_, fun y hy hn => keep y (h.started y hy hn), ?_⟩
  · intro y hy
    have hcases : y ∈ seen ++ x :: queue ∨ y ∈ succ x := by
      simp only [List.mem_append, List.mem_cons, List.not_mem_nil, or_false] at hy ⊢
      tauto
    rcases hcases with hold | hnew
    · exact h.reached y hold
    · obtain ⟨root, hroot, hpath⟩ := h.reached x (by simp)
      exact ⟨root, hroot, hpath.tail ⟨hx, hnew⟩⟩
  · intro y hy
    rcases List.mem_append.mp hy with hy | hy
    · exact h.known y hy
    · rwa [List.mem_singleton.mp hy]
  · intro z hz y hy hn
    rcases List.mem_append.mp hz with hz | hz
    · exact keep y (h.closed z hz y hy hn)
    · rw [List.mem_singleton.mp hz] at hy
      exact List.mem_append_right _ (List.mem_append_right _ hy)

end

/-- The edges from the nodes that have not been seen. -/
def pending (nodes : List α) (succ : α → List α) (seen : List α) : ℕ :=
  ((nodes.filter (· ∉ seen)).flatMap succ).length

theorem pending_visit (hnodes : nodes.Nodup) (hx : x ∈ nodes) (hnew : x ∉ seen) :
    pending nodes succ seen = (succ x).length + pending nodes succ (seen ++ [x]) := by
  have hrest : nodes.filter (· ∉ seen ++ [x]) = (nodes.filter (· ∉ seen)).erase x := by
    rw [(hnodes.filter _).erase_eq_filter, List.filter_filter]
    apply List.filter_congr
    intro y _
    simp [not_or, bne, beq_eq_decide, and_comm]
  have hmem : x ∈ nodes.filter (· ∉ seen) := List.mem_filter.mpr ⟨hx, by simpa using hnew⟩
  unfold pending
  rw [hrest, ((List.perm_cons_erase hmem).flatMap_right succ).length_eq, List.flatMap_cons, List.length_append]

theorem Flooding.flood {rounds : ℕ} (hnodes : nodes.Nodup) (h : Flooding nodes succ roots queue seen)
    (hrounds : queue.length + pending nodes succ seen ≤ rounds) :
    Flooding nodes succ roots [] (Relational.flood nodes succ rounds queue seen) := by
  induction rounds generalizing queue seen with
  | zero =>
    have hnone : queue = [] := List.length_eq_zero_iff.mp (by omega)
    subst hnone
    exact h
  | succ rounds ih =>
    cases queue with
    | nil => exact h
    | cons x queue =>
      rw [List.length_cons] at hrounds
      unfold Relational.flood
      split
      · rename_i hskip
        apply ih (h.skip hskip)
        omega
      · rename_i hvisit
        rw [not_or, not_not] at hvisit
        apply ih (h.visit hvisit.2)
        rw [pending_visit hnodes hvisit.2 hvisit.1] at hrounds
        rw [List.length_append]
        omega

/-- **What the roots lead to.** -/
theorem mem_reachable_iff (hnodes : nodes.Nodup) :
    y ∈ reachable nodes succ roots ↔ y ∈ nodes ∧ ∃ root ∈ roots, ReflTransGen (Edge nodes succ) root y := by
  have hinit : Flooding nodes succ roots roots [] := .init
  have hend : Flooding nodes succ roots [] (reachable nodes succ roots) := by
    apply hinit.flood hnodes
    simp [pending]
  constructor
  · intro hy
    exact ⟨hend.known y hy, hend.reached y (List.mem_append_left _ hy)⟩
  · rintro ⟨hy, root, hroot, hpath⟩
    induction hpath with
    | refl => simpa using hend.started _ hroot hy
    | tail _ hedge ih => simpa using hend.closed _ (ih hedge.1) _ hedge.2 hy

end Relational

/-! # Closures by breadth-first search

A worklist search from some elements: what is taken from the queue is expanded, and a
successor that was not seen before is marked as seen and queued. The search is given a
number of rounds; with a round for each start and each element to see, it has seen exactly
what the starts lead to in one or more steps. -/

namespace Relational

open Relation (TransGen ReflTransGen)

variable {α : Type} [DecidableEq α]

/-- Mark and queue the successors that have not been seen: the seen elements and the queue
    after. -/
def enqueue (seen queue : List α) : List α → List α × List α
  | [] => (seen, queue)
  | y :: ys => if y ∈ seen then enqueue seen queue ys else enqueue (seen ++ [y]) (queue ++ [y]) ys

/-- Rounds of the search: the elements seen. -/
def search (succ : α → List α) : ℕ → List α → List α → List α
  | 0, _, seen => seen
  | _ + 1, [], seen => seen
  | fuel + 1, x :: queue, seen =>
    search succ fuel (enqueue seen queue (succ x)).2 (enqueue seen queue (succ x)).1

variable {seen queue ys : List α} {x y : α}

/-- **What `enqueue` does**: the same new elements go to both lists, and each successor has
    been seen in the end. -/
theorem enqueue_spec (seen queue ys : List α) :
    ∃ new, enqueue seen queue ys = (seen ++ new, queue ++ new) ∧ new ⊆ ys ∧
      (∀ y ∈ ys, y ∈ seen ++ new) ∧ (seen.Nodup → (seen ++ new).Nodup) := by
  induction ys generalizing seen queue with
  | nil => exact ⟨[], by simp [enqueue], by simp, by simp, by simp⟩
  | cons y ys ih =>
    by_cases hy : y ∈ seen
    · obtain ⟨new, heq, hsub, hseen, hnodup⟩ := ih seen queue
      refine ⟨new, ?_, fun z hz => List.mem_cons_of_mem _ (hsub hz), ?_, hnodup⟩
      · rw [enqueue, if_pos hy, heq]
      · intro z hz
        rcases List.mem_cons.mp hz with rfl | hz
        · exact List.mem_append_left _ hy
        · exact hseen z hz
    · obtain ⟨new, heq, hsub, hseen, hnodup⟩ := ih (seen ++ [y]) (queue ++ [y])
      have hassoc : ∀ l : List α, l ++ [y] ++ new = l ++ y :: new := by simp
      refine ⟨y :: new, ?_, ?_, ?_, ?_⟩
      · rw [enqueue, if_neg hy, heq, hassoc, hassoc]
      · intro z hz
        rcases List.mem_cons.mp hz with rfl | hz
        · exact List.mem_cons_self
        · exact List.mem_cons_of_mem _ (hsub hz)
      · intro z hz
        rcases List.mem_cons.mp hz with rfl | hz
        · simp
        · have := hseen z hz
          rwa [hassoc] at this
      · intro hseen
        have hgrown : (seen ++ [y]).Nodup := by
          rw [List.nodup_append]
          refine ⟨hseen, List.nodup_singleton y, ?_⟩
          intro a ha b hb hab
          rw [List.mem_singleton] at hb
          exact hy (hb ▸ hab ▸ ha)
        have := hnodup hgrown
        rwa [hassoc] at this

/-- A step of the searched relation. -/
def Succ (succ : α → List α) (a b : α) : Prop := b ∈ succ a

variable {succ : α → List α} {starts : List α}

/-- The search between two rounds. -/
structure Searching (succ : α → List α) (starts queue seen : List α) : Prop where
  reached : ∀ y ∈ seen, ∃ start ∈ starts, TransGen (Succ succ) start y
  queued : ∀ y ∈ queue, y ∈ starts ∨ y ∈ seen
  expanded : ∀ y, y ∈ starts ∨ y ∈ seen → y ∈ queue ∨ ∀ z ∈ succ y, z ∈ seen
  distinct : seen.Nodup

omit [DecidableEq α] in
theorem Searching.init : Searching succ starts starts [] where
  reached := by simp
  queued _ hy := .inl hy
  expanded y hy := .inl (hy.resolve_right (by simp))
  distinct := List.nodup_nil

theorem Searching.round (h : Searching succ starts (x :: queue) seen) :
    Searching succ starts (enqueue seen queue (succ x)).2 (enqueue seen queue (succ x)).1 := by
  obtain ⟨new, heq, hsub, hseen, hnodup⟩ := enqueue_spec seen queue (succ x)
  rw [heq]
  have hx : ∃ start ∈ starts, ReflTransGen (Succ succ) start x := by
    rcases h.queued x List.mem_cons_self with hx | hx
    · exact ⟨x, hx, .refl⟩
    · obtain ⟨start, hstart, hpath⟩ := h.reached x hx
      exact ⟨start, hstart, hpath.to_reflTransGen⟩
  refine ⟨?_, ?_, ?_, hnodup h.distinct⟩
  · intro y hy
    rcases List.mem_append.mp hy with hy | hy
    · exact h.reached y hy
    · obtain ⟨start, hstart, hpath⟩ := hx
      exact ⟨start, hstart, TransGen.tail' hpath (hsub hy)⟩
  · intro y hy
    rcases List.mem_append.mp hy with hy | hy
    · exact (h.queued y (List.mem_cons_of_mem _ hy)).imp_right (List.mem_append_left _)
    · exact .inr (List.mem_append_right _ hy)
  · intro y hy
    have keep : y ∈ starts ∨ y ∈ seen → y ∈ queue ++ new ∨ ∀ z ∈ succ y, z ∈ seen ++ new := by
      intro hy
      rcases h.expanded y hy with hq | hz
      · rcases List.mem_cons.mp hq with rfl | hq
        · exact .inr hseen
        · exact .inl (List.mem_append_left _ hq)
      · exact .inr fun z hsucc => List.mem_append_left _ (hz z hsucc)
    rcases hy with hy | hy
    · exact keep (.inl hy)
    · rcases List.mem_append.mp hy with hy | hy
      · exact keep (.inr hy)
      · exact .inl (List.mem_append_right _ hy)

omit [DecidableEq α] in
theorem Searching.closed (h : Searching succ starts [] seen) :
    y ∈ seen ↔ ∃ start ∈ starts, TransGen (Succ succ) start y := by
  refine ⟨h.reached y, ?_⟩
  rintro ⟨start, hstart, hy⟩
  have step : ∀ a b, (a ∈ starts ∨ a ∈ seen) → Succ succ a b → b ∈ seen := by
    intro a b ha hab
    rcases h.expanded a ha with hq | hz
    · cases hq
    · exact hz b hab
  induction hy with
  | single hab => exact step _ _ (.inl hstart) hab
  | tail _ hab ih => exact step _ _ (.inr ih) hab

/-- **The search is exact** when it has a round for each element it may still take from
    the queue. -/
theorem mem_search_iff (all : List α) (hall : ∀ a b, b ∈ succ a → b ∈ all)
    {fuel : ℕ} (h : Searching succ starts queue seen) (hsub : seen ⊆ all)
    (hfuel : queue.length + all.length ≤ fuel + seen.length) :
    y ∈ search succ fuel queue seen ↔ ∃ start ∈ starts, TransGen (Succ succ) start y := by
  induction fuel generalizing queue seen with
  | zero =>
    have hlen : seen.length ≤ all.length := (h.distinct.subperm hsub).length_le
    have hqueue : queue = [] := List.length_eq_zero_iff.mp (by omega)
    subst hqueue
    exact h.closed
  | succ fuel ih =>
    cases queue with
    | nil => exact h.closed
    | cons x queue =>
      have hround := h.round
      obtain ⟨new, heq, hnew, -, -⟩ := enqueue_spec seen queue (succ x)
      rw [search]
      rw [heq] at hround ⊢
      refine ih hround ?_ ?_
      · intro z hz
        rcases List.mem_append.mp hz with hz | hz
        · exact hsub hz
        · exact hall x z (hnew hz)
      · simp only [List.length_append, List.length_cons] at hfuel ⊢
        omega

end Relational
