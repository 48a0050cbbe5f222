import MissionControl.Python.Dict
import Mathlib.Data.Finset.Card
import Mathlib.Data.Finset.Filter
import Mathlib.Data.List.Perm.Subperm
import Mathlib.Logic.Relation

/-! # Shortest paths by breadth-first search

A worklist search that keeps, for each element it finds, the path by which it found it. What a path is made of is a
parameter: how a path starts at an element, and how a step with a label makes it longer. With a round for each start and
each element, what is found in the end is what the starts lead to, each with a path that no other path is shorter than
(`trails_spec`). -/

namespace Relational

open Python (Dict)
open Relation (ReflTransGen)

variable {α β P : Type} [DecidableEq α]

/-- One step from an element with a path: an element that was not found before is found, and queued. -/
def offer (extend : P → β → α → P) (p : P) (s : Dict α P × List α) (step : β × α) : Dict α P × List α :=
  if step.2 ∈ s.1.keys then s else (s.1.set step.2 (extend p step.1 step.2), s.2 ++ [step.2])

/-- Rounds of the search: the elements found, with their paths. -/
def trails (succ : α → List (β × α)) (extend : P → β → α → P) : ℕ → List α → Dict α P → Dict α P
  | 0, _, found => found
  | _ + 1, [], found => found
  | rounds + 1, x :: queue, found =>
    match found.get? x with
    | none => trails succ extend rounds queue found
    | some p =>
      let s := (succ x).foldl (offer extend p) (found, queue)
      trails succ extend rounds s.2 s.1

/-- The paths from some starts. -/
inductive IsTrail (succ : α → List (β × α)) (start : α → P) (extend : P → β → α → P) (starts : List α) : α → P → Prop
  | start {c : α} (hc : c ∈ starts) : IsTrail succ start extend starts c (start c)
  | step {x y : α} {b : β} {p : P} (h : IsTrail succ start extend starts x p) (hstep : (b, y) ∈ succ x) :
    IsTrail succ start extend starts y (extend p b y)

/-- A step with some label. -/
def Steps (succ : α → List (β × α)) (a b : α) : Prop := ∃ label, (label, b) ∈ succ a

variable {succ : α → List (β × α)} {start : α → P} {extend : P → β → α → P} {starts : List α} {x y : α} {p q : P}
  {found found' : Dict α P} {queue : List α}

omit [DecidableEq α] in
theorem exists_isTrail : (∃ p, IsTrail succ start extend starts x p) ↔ ∃ c ∈ starts, ReflTransGen (Steps succ) c x := by
  constructor
  · rintro ⟨p, h⟩
    induction h with
    | start hc => exact ⟨_, hc, .refl⟩
    | step _ hstep ih =>
      obtain ⟨c, hc, hpath⟩ := ih
      exact ⟨c, hc, hpath.tail ⟨_, hstep⟩⟩
  · rintro ⟨c, hc, hpath⟩
    induction hpath with
    | refl => exact ⟨_, .start hc⟩
    | tail _ hstep ih =>
      obtain ⟨p, hp⟩ := ih
      obtain ⟨b, hb⟩ := hstep
      exact ⟨_, hp.step hb⟩

/-- What is offered to a search from an element with a path. -/
structure Offered (extend : P → β → α → P) (p : P) (steps : List (β × α)) (found found' : Dict α P) (new : List α) :
    Prop where
  old : ∀ z q, found.get? z = some q → found'.get? z = some q
  fresh : ∀ z ∈ new, z ∉ found.keys ∧ ∃ b, (b, z) ∈ steps ∧ found'.get? z = some (extend p b z)
  only : ∀ z q, found'.get? z = some q → found.get? z = some q ∨ z ∈ new
  all : ∀ b z, (b, z) ∈ steps → z ∈ found'.keys
  size : found'.size = found.size + new.length

theorem mem_keys_of_get? (h : found.get? x = some p) : x ∈ found.keys := Dict.mem_keys.mpr ⟨p, h⟩

theorem size_set_of_not_mem (h : x ∉ found.keys) (p : P) : (found.set x p).size = found.size + 1 := by
  unfold Dict.set
  rw [dif_neg h]
  show (found.entries ++ [(x, p)]).length = _
  rw [List.length_append]
  rfl

/-- **What the steps from an element do.** -/
theorem foldl_offer (extend : P → β → α → P) (p : P) (steps : List (β × α)) (found : Dict α P) (queue : List α) :
    ∃ found' new, steps.foldl (offer extend p) (found, queue) = (found', queue ++ new) ∧
      Offered extend p steps found found' new := by
  induction steps generalizing found queue with
  | nil => exact ⟨found, [], by simp, ⟨fun _ _ h => h, by simp, fun _ _ h => .inl h, by simp, rfl⟩⟩
  | cons step steps ih =>
    obtain ⟨b, y⟩ := step
    by_cases hy : y ∈ found.keys
    · obtain ⟨found', new, heq, hoffered⟩ := ih found queue
      refine ⟨found', new, ?_, ?_⟩
      · rw [List.foldl_cons, offer, if_pos hy, heq]
      · refine ⟨hoffered.old, ?_, hoffered.only, ?_, hoffered.size⟩
        · intro z hz
          obtain ⟨hnew, b', hb', hget⟩ := hoffered.fresh z hz
          exact ⟨hnew, b', List.mem_cons_of_mem _ hb', hget⟩
        · intro b' z hz
          rcases List.mem_cons.mp hz with heq | hz
          · obtain ⟨-, rfl⟩ := Prod.mk.inj heq
            obtain ⟨q, hq⟩ := Dict.mem_keys.mp hy
            exact mem_keys_of_get? (hoffered.old _ q hq)
          · exact hoffered.all b' z hz
    · obtain ⟨found', new, heq, hoffered⟩ := ih (found.set y (extend p b y)) (queue ++ [y])
      have hold : ∀ z q, found.get? z = some q → (found.set y (extend p b y)).get? z = some q := by
        intro z q hq
        rw [Dict.get?_set, if_neg, hq]
        rintro rfl
        exact hy (mem_keys_of_get? hq)
      have hput : (found.set y (extend p b y)).get? y = some (extend p b y) := by rw [Dict.get?_set, if_pos rfl]
      refine ⟨found', y :: new, ?_, ?_⟩
      · rw [List.foldl_cons, offer, if_neg hy, heq, List.append_assoc]
        rfl
      · refine ⟨fun z q hq => hoffered.old z q (hold z q hq), ?_, ?_, ?_, ?_⟩
        · intro z hz
          rcases List.mem_cons.mp hz with rfl | hz
          · exact ⟨hy, b, List.mem_cons_self, hoffered.old _ _ hput⟩
          · obtain ⟨hnew, b', hb', hget⟩ := hoffered.fresh z hz
            refine ⟨?_, b', List.mem_cons_of_mem _ hb', hget⟩
            intro hmem
            obtain ⟨q, hq⟩ := Dict.mem_keys.mp hmem
            exact hnew (mem_keys_of_get? (hold z q hq))
        · intro z q hq
          rcases hoffered.only z q hq with hset | hz
          · rw [Dict.get?_set] at hset
            split at hset
            · rename_i heq
              exact .inr (heq ▸ List.mem_cons_self)
            · exact .inl hset
          · exact .inr (List.mem_cons_of_mem _ hz)
        · intro b' z hz
          rcases List.mem_cons.mp hz with heq | hz
          · obtain ⟨-, rfl⟩ := Prod.mk.inj heq
            exact mem_keys_of_get? (hoffered.old _ _ hput)
          · exact hoffered.all b' z hz
        · rw [hoffered.size, size_set_of_not_mem hy, List.length_cons]
          omega

/-- How long a path is: each step adds the same. -/
structure Measure (start : α → P) (extend : P → β → α → P) (size : P → ℕ) (base unit : ℕ) : Prop where
  start : ∀ c, size (start c) = base
  extend : ∀ p b y, size (extend p b y) = size p + unit

variable {size : P → ℕ} {base unit : ℕ}

/-- The search between two rounds. -/
structure Trailing (succ : α → List (β × α)) (start : α → P) (extend : P → β → α → P) (starts : List α) (size : P → ℕ)
    (unit : ℕ) (queue : List α) (found : Dict α P) : Prop where
  trail : ∀ x p, found.get? x = some p → IsTrail succ start extend starts x p
  started : ∀ c ∈ starts, found.get? c = some (start c)
  queued : ∀ x ∈ queue, x ∈ found.keys
  /-- The queue is in the order of the lengths. -/
  sorted : queue.Pairwise fun x y => ∀ p q, found.get? x = some p → found.get? y = some q → size p ≤ size q
  /-- Nothing found is more than one step longer than what is queued. -/
  near : ∀ x ∈ queue, ∀ p, found.get? x = some p → ∀ y q, found.get? y = some q → size q ≤ size p + unit
  done : ∀ x p, found.get? x = some p → x ∈ queue ∨
    ∀ b y, (b, y) ∈ succ x → ∃ q, found.get? y = some q ∧ size q ≤ size p + unit

theorem Trailing.init (hsize : Measure start extend size base unit) :
    Trailing succ start extend starts size unit starts (Dict.ofList (starts.map fun c => (c, start c))) := by
  have hget : ∀ x p, (Dict.ofList (starts.map fun c => (c, start c))).get? x = some p ↔ x ∈ starts ∧ start x = p := by
    intro x p
    show (Dict.updateList Dict.empty _).get? x = some p ↔ _
    rw [Dict.get?_updateList_map]
    split
    · rename_i h
      simp [h]
    · rename_i h
      simp [h]
  have hbase : ∀ x p, (Dict.ofList (starts.map fun c => (c, start c))).get? x = some p → size p = base := by
    intro x p hp
    obtain ⟨-, rfl⟩ := (hget x p).mp hp
    exact hsize.start x
  constructor
  · intro x p hp
    obtain ⟨hx, rfl⟩ := (hget x p).mp hp
    exact .start hx
  · exact fun c hc => (hget c _).mpr ⟨hc, rfl⟩
  · exact fun x hx => mem_keys_of_get? ((hget x _).mpr ⟨hx, rfl⟩)
  · apply List.pairwise_of_forall
    intro x y p q hp hq
    exact Nat.le_of_eq ((hbase x p hp).trans (hbase y q hq).symm)
  · intro x _ p hp y q hq
    rw [hbase x p hp, hbase y q hq]
    exact Nat.le_add_right _ _
  · intro x p hp
    exact .inl ((hget x p).mp hp).1

theorem Trailing.round {new : List α} (hsize : Measure start extend size base unit)
    (h : Trailing succ start extend starts size unit (x :: queue) found) (hp : found.get? x = some p)
    (hoffered : Offered extend p (succ x) found found' new) :
    Trailing succ start extend starts size unit (queue ++ new) found' := by
  have hback : ∀ z q, z ∈ found.keys → found'.get? z = some q → found.get? z = some q := by
    intro z q hz hq
    obtain ⟨q', hq'⟩ := Dict.mem_keys.mp hz
    obtain rfl : q' = q := Option.some.inj ((hoffered.old z q' hq').symm.trans hq)
    exact hq'
  have hcases : ∀ z q, found'.get? z = some q → found.get? z = some q ∨ z ∈ new ∧ size q = size p + unit := by
    intro z q hq
    refine (hoffered.only z q hq).imp_right fun hz => ⟨hz, ?_⟩
    obtain ⟨-, b, -, hget⟩ := hoffered.fresh z hz
    rw [hq] at hget
    rw [Option.some.inj hget, hsize.extend]
  have hall : ∀ z q, found'.get? z = some q → size q ≤ size p + unit := by
    intro z q hq
    rcases hcases z q hq with hold | ⟨-, heq⟩
    · exact h.near x List.mem_cons_self p hp z q hold
    · exact Nat.le_of_eq heq
  have hlater : ∀ z ∈ queue, ∀ q, found.get? z = some q → size p ≤ size q := by
    intro z hz q hq
    exact (List.pairwise_cons.mp h.sorted).1 z hz p q hp hq
  constructor
  · intro z q hq
    rcases hoffered.only z q hq with hold | hz
    · exact h.trail z q hold
    · obtain ⟨-, b, hb, hget⟩ := hoffered.fresh z hz
      rw [hq] at hget
      rw [Option.some.inj hget]
      exact (h.trail x p hp).step hb
  · exact fun c hc => hoffered.old c _ (h.started c hc)
  · intro z hz
    rcases List.mem_append.mp hz with hz | hz
    · obtain ⟨q, hq⟩ := Dict.mem_keys.mp (h.queued z (List.mem_cons_of_mem _ hz))
      exact mem_keys_of_get? (hoffered.old z q hq)
    · obtain ⟨-, b, -, hget⟩ := hoffered.fresh z hz
      exact mem_keys_of_get? hget
  · rw [List.pairwise_append]
    have hnew : ∀ z ∈ new, ∀ q, found'.get? z = some q → size q = size p + unit := by
      intro z hz q hq
      rcases hcases z q hq with hold | ⟨-, heq⟩
      · exact absurd (mem_keys_of_get? hold) (hoffered.fresh z hz).1
      · exact heq
    refine ⟨?_, ?_, ?_⟩
    · refine (List.pairwise_cons.mp h.sorted).2.imp_of_mem ?_
      intro a b ha hb hle q r hq hr
      exact hle q r (hback a q (h.queued a (List.mem_cons_of_mem _ ha)) hq)
        (hback b r (h.queued b (List.mem_cons_of_mem _ hb)) hr)
    · refine List.pairwise_iff_forall_sublist.mpr ?_
      intro a b hsub q r hq hr
      have ha : a ∈ new := hsub.subset List.mem_cons_self
      have hb : b ∈ new := hsub.subset (List.mem_cons_of_mem _ List.mem_cons_self)
      exact Nat.le_of_eq ((hnew a ha q hq).trans (hnew b hb r hr).symm)
    · intro a _ b hb q r hq hr
      rw [hnew b hb r hr]
      exact hall a q hq
  · intro z hz q hq y r hr
    have hle : size p ≤ size q := by
      rcases List.mem_append.mp hz with hz | hz
      · exact hlater z hz q (hback z q (h.queued z (List.mem_cons_of_mem _ hz)) hq)
      · rcases hcases z q hq with hold | ⟨-, heq⟩
        · exact absurd (mem_keys_of_get? hold) (hoffered.fresh z hz).1
        · omega
    have := hall y r hr
    omega
  · intro z q hq
    rcases hoffered.only z q hq with hold | hz
    · rcases h.done z q hold with hqueued | hdone
      · rcases List.mem_cons.mp hqueued with rfl | hqueued
        · -- the element just taken: all its steps were offered
          obtain rfl : p = q := Option.some.inj (hp.symm.trans hold)
          right
          intro b y hy
          obtain ⟨r, hr⟩ := Dict.mem_keys.mp (hoffered.all b y hy)
          exact ⟨r, hr, hall y r hr⟩
        · exact .inl (List.mem_append_left _ hqueued)
      · right
        intro b y hy
        obtain ⟨r, hr, hle⟩ := hdone b y hy
        exact ⟨r, hoffered.old y r hr, hle⟩
    · exact .inl (List.mem_append_right _ hz)

theorem Trailing.shortest (hsize : Measure start extend size base unit)
    (h : Trailing succ start extend starts size unit [] found) (hq : IsTrail succ start extend starts x q) : ∃ p, found.get? x = some p ∧ size p ≤ size q := by
  induction hq with
  | start hc => exact ⟨_, h.started _ hc, Nat.le_refl _⟩
  | step _ hstep ih =>
    obtain ⟨p, hp, hle⟩ := ih
    rcases h.done _ p hp with hnone | hdone
    · cases hnone
    · obtain ⟨r, hr, hle'⟩ := hdone _ _ hstep
      refine ⟨r, hr, ?_⟩
      rw [hsize.extend]
      omega

variable {rounds : ℕ}

theorem Trailing.trails (hsize : Measure start extend size base unit) (all : List α)
    (hall : ∀ a b y, (b, y) ∈ succ a → y ∈ all) (h : Trailing succ start extend starts size unit queue found)
    (hsub : found.keys ⊆ all) (hrounds : queue.length + all.length ≤ rounds + found.size) :
    Trailing succ start extend starts size unit [] (Relational.trails succ extend rounds queue found) := by
  induction rounds generalizing queue found with
  | zero =>
    have hlen : found.keys.length ≤ all.length := (found.nodup_keys.subperm hsub).length_le
    rw [Dict.length_keys] at hlen
    have hqueue : queue = [] := List.length_eq_zero_iff.mp (by omega)
    subst hqueue
    exact h
  | succ rounds ih =>
    cases queue with
    | nil => exact h
    | cons x queue =>
      obtain ⟨p, hp⟩ := Dict.mem_keys.mp (h.queued x List.mem_cons_self)
      obtain ⟨found', new, heq, hoffered⟩ := foldl_offer extend p (succ x) found queue
      unfold Relational.trails
      simp only [hp, heq]
      apply ih (h.round hsize hp hoffered)
      · intro z hz
        obtain ⟨q, hq⟩ := Dict.mem_keys.mp hz
        rcases hoffered.only z q hq with hold | hnew
        · exact hsub (mem_keys_of_get? hold)
        · obtain ⟨-, b, hb, -⟩ := hoffered.fresh z hnew
          exact hall x b z hb
      · have hcount := hoffered.size
        rw [List.length_cons] at hrounds
        rw [List.length_append]
        omega

/-- **The search is exact, and its paths are shortest**, when it has a round for each start and each element. -/
theorem trails_spec (hsize : Measure start extend size base unit) (all : List α)
    (hall : ∀ a b y, (b, y) ∈ succ a → y ∈ all) (hstarts : starts ⊆ all)
    (hrounds : starts.length + all.length ≤ rounds) (x : α) :
    let found := trails succ extend rounds starts (Dict.ofList (starts.map fun c => (c, start c)))
    (x ∈ found.keys ↔ ∃ c ∈ starts, ReflTransGen (Steps succ) c x) ∧ ∀ p, found.get? x = some p →
        IsTrail succ start extend starts x p ∧ ∀ q, IsTrail succ start extend starts x q → size p ≤ size q := by
  have hinit : Trailing succ start extend starts size unit starts (Dict.ofList (starts.map fun c => (c, start c))) :=
    .init hsize
  have hend : Trailing succ start extend starts size unit []
      (trails succ extend rounds starts (Dict.ofList (starts.map fun c => (c, start c)))) := by
    apply hinit.trails hsize all hall
    · intro z hz
      obtain ⟨q, hq⟩ := Dict.mem_keys.mp hz
      have : (Dict.updateList Dict.empty (starts.map fun c => (c, start c))).get? z = some q := hq
      rw [Dict.get?_updateList_map] at this
      split at this
      · rename_i hmem
        exact hstarts hmem
      · cases this
    · omega
  refine ⟨?_, ?_⟩
  · refine Iff.trans ?_ (exists_isTrail : (∃ p, IsTrail succ start extend starts x p) ↔ _)
    rw [Dict.mem_keys]
    constructor
    · rintro ⟨p, hp⟩
      exact ⟨p, hend.trail x p hp⟩
    · rintro ⟨q, hq⟩
      obtain ⟨p, hp, -⟩ := hend.shortest hsize hq
      exact ⟨p, hp⟩
  · intro p hp
    refine ⟨hend.trail x p hp, ?_⟩
    intro q hq
    obtain ⟨p', hp', hle⟩ := hend.shortest hsize hq
    obtain rfl : p = p' := Option.some.inj (hp.symm.trans hp')
    exact hle

end Relational

/-! # Chains of links

Each element may name the one that comes after it, and a lookup may name one that comes before. The chain through an
element is found by going back as far as the lookup leads and following the links from there.

Where links only go up a rank the chain is always found and passes through its element (`chainThrough_total`). **All
elements of a chain have the same chain** where no two elements name the same next one (`chainThrough_of_mem`), and two
that do cannot both agree with it (`eq_of_chainThrough_eq`). -/

namespace Relational

open Relation (ReflTransGen)

variable {α : Type}

/-- The links from an element on, nothing where the rounds do not suffice. -/
def follow (next : α → Option α) : ℕ → α → Option (List α)
  | 0, _ => none
  | rounds + 1, x =>
    match next x with
    | none => some [x]
    | some y => (follow next rounds y).map (x :: ·)

/-- As far back as a lookup leads, nothing where the rounds do not suffice. -/
def furthest (prev : α → Option α) : ℕ → α → Option α
  | 0, _ => none
  | rounds + 1, x =>
    match prev x with
    | none => some x
    | some y => furthest prev rounds y

/-- The chain through an element. -/
def chainThrough (prev next : α → Option α) (rounds : ℕ) (x : α) : Option (List α) :=
  (furthest prev rounds x).bind (follow next rounds)

/-- One names the other as the next. -/
def Link (next : α → Option α) (x y : α) : Prop := next x = some y

/-- Links go up a rank, and the lookup finds one of the elements that name another. -/
structure Linked (prev next : α → Option α) (rank : α → ℕ) (all : List α) : Prop where
  up : ∀ x y, next x = some y → rank x < rank y
  mem : ∀ x y, next x = some y → x ∈ all ∧ y ∈ all
  sound : ∀ s x, prev s = some x → next x = some s
  complete : ∀ x s, next x = some s → ∃ y, prev s = some y

variable {prev next : α → Option α} {rank : α → ℕ} {all l : List α} {rounds : ℕ} {x y s m o : α}

theorem Linked.rank_le (h : Linked prev next rank all) (hpath : ReflTransGen (Link next) x y) : rank x ≤ rank y := by
  induction hpath with
  | refl => exact Nat.le_refl _
  | tail _ hlink ih =>
    have := h.up _ _ hlink
    omega

theorem mem_follow (h : follow next rounds x = some l) : y ∈ l ↔ ReflTransGen (Link next) x y := by
  induction rounds generalizing x l with
  | zero => cases h
  | succ rounds ih =>
    unfold follow at h
    cases hnext : next x with
    | none =>
      rw [hnext] at h
      obtain rfl := Option.some.inj h
      rw [List.mem_singleton]
      constructor
      · rintro rfl
        exact .refl
      · intro hpath
        rcases hpath.cases_head with rfl | ⟨z, hlink, -⟩
        · rfl
        · rw [Link, hnext] at hlink
          cases hlink
    | some z =>
      rw [hnext] at h
      obtain ⟨l', hl', rfl⟩ := Option.map_eq_some_iff.mp h
      rw [List.mem_cons, ih hl']
      constructor
      · rintro (rfl | hpath)
        · exact .refl
        · exact hpath.head hnext
      · intro hpath
        rcases hpath.cases_head with rfl | ⟨z', hlink, hpath⟩
        · exact .inl rfl
        · obtain rfl : z = z' := Option.some.inj (hnext.symm.trans hlink)
          exact .inr hpath

theorem furthest_spec (h : Linked prev next rank all) (ho : furthest prev rounds x = some o) :
    ReflTransGen (Link next) o x ∧ prev o = none := by
  induction rounds generalizing x with
  | zero => cases ho
  | succ rounds ih =>
    unfold furthest at ho
    cases hprev : prev x with
    | none =>
      rw [hprev] at ho
      obtain rfl := Option.some.inj ho
      exact ⟨.refl, hprev⟩
    | some y =>
      rw [hprev] at ho
      obtain ⟨hpath, hnone⟩ := ih ho
      exact ⟨hpath.tail (h.sound x y hprev), hnone⟩

section
variable [DecidableEq α]

theorem Linked.above_lt (h : Linked prev next rank all) (hnext : next x = some y) :
    (all.toFinset.filter (rank y < rank ·)).card < (all.toFinset.filter (rank x < rank ·)).card := by
  have hup := h.up x y hnext
  apply Finset.card_lt_card
  rw [Finset.ssubset_iff_of_subset]
  · refine ⟨y, ?_, ?_⟩
    · simpa [hup] using (h.mem x y hnext).2
    · simp
  · intro z hz
    rw [Finset.mem_filter] at hz ⊢
    exact ⟨hz.1, by omega⟩

theorem Linked.below_lt (h : Linked prev next rank all) (hnext : next x = some y) :
    (all.toFinset.filter (rank · < rank x)).card < (all.toFinset.filter (rank · < rank y)).card := by
  have hup := h.up x y hnext
  apply Finset.card_lt_card
  rw [Finset.ssubset_iff_of_subset]
  · refine ⟨x, ?_, ?_⟩
    · simpa [hup] using (h.mem x y hnext).1
    · simp
  · intro z hz
    rw [Finset.mem_filter] at hz ⊢
    exact ⟨hz.1, by omega⟩

theorem Linked.follow_isSome (h : Linked prev next rank all)
    (hrounds : (all.toFinset.filter (rank x < rank ·)).card < rounds) : ∃ l, follow next rounds x = some l := by
  induction rounds generalizing x with
  | zero => omega
  | succ rounds ih =>
    unfold follow
    cases hnext : next x with
    | none => exact ⟨_, rfl⟩
    | some y =>
      have hlt := h.above_lt hnext
      obtain ⟨l, hl⟩ := ih (x := y) (by omega)
      exact ⟨x :: l, by simp only [hl, Option.map_some]⟩

theorem Linked.furthest_isSome (h : Linked prev next rank all)
    (hrounds : (all.toFinset.filter (rank · < rank x)).card < rounds) : ∃ o, furthest prev rounds x = some o := by
  induction rounds generalizing x with
  | zero => omega
  | succ rounds ih =>
    unfold furthest
    cases hprev : prev x with
    | none => exact ⟨_, rfl⟩
    | some y =>
      have hlt := h.below_lt (h.sound x y hprev)
      exact ih (by omega)

theorem card_filter_le (p : α → Prop) [DecidablePred p] : (all.toFinset.filter p).card ≤ all.length :=
  (Finset.card_filter_le _ _).trans (List.toFinset_card_le _)

/-- **The chain through an element is found, and passes through it.** -/
theorem chainThrough_total (h : Linked prev next rank all) (hrounds : all.length < rounds) (x : α) :
    ∃ o l, furthest prev rounds x = some o ∧ follow next rounds o = some l ∧ chainThrough prev next rounds x = some l ∧
      x ∈ l := by
  obtain ⟨o, ho⟩ := h.furthest_isSome (x := x) ((card_filter_le _).trans_lt hrounds)
  obtain ⟨l, hl⟩ := h.follow_isSome (x := o) ((card_filter_le _).trans_lt hrounds)
  refine ⟨o, l, ho, hl, ?_, (mem_follow hl).mpr (furthest_spec h ho).1⟩
  unfold chainThrough
  rw [ho]
  exact hl

/-- **The elements of a chain have the same chain**, where no two elements name the same next one. -/
theorem chainThrough_of_mem (h : Linked prev next rank all) (hrounds : all.length < rounds)
    (hinj : ∀ x y s, next x = some s → next y = some s → x = y) (hl : chainThrough prev next rounds x = some l)
    (hm : m ∈ l) : chainThrough prev next rounds m = some l := by
  obtain ⟨o, l', ho, hl', hchain, -⟩ := chainThrough_total h hrounds x
  obtain rfl : l = l' := Option.some.inj (hl.symm.trans hchain)
  obtain ⟨o', l'', ho', hl'', hchain', -⟩ := chainThrough_total h hrounds m
  have hpath : ReflTransGen (Link next) o m := (mem_follow hl').mp hm
  have hpath' := (furthest_spec h ho').1
  have hfirst : ∀ a b, prev b = none → ReflTransGen (Link next) a b → a = b := by
    intro a b hnone hab
    rcases hab.cases_tail with rfl | ⟨z, -, hlink⟩
    · rfl
    · obtain ⟨y, hy⟩ := h.complete z b hlink
      rw [hnone] at hy
      cases hy
  have hunique : Relator.RightUnique (Function.swap (Link next)) := fun a b c hab hac => hinj b c a hab hac
  have hsame : o = o' := by
    rcases ReflTransGen.total_of_right_unique hunique hpath.swap hpath'.swap with hoo | hoo
    · exact (hfirst _ _ (furthest_spec h ho).2 hoo.swap).symm
    · exact hfirst _ _ (furthest_spec h ho').2 hoo.swap
  subst hsame
  obtain rfl : l = l'' := Option.some.inj (hl'.symm.trans hl'')
  exact hchain'

theorem eq_of_chainThrough_eq (h : Linked prev next rank all) (hrounds : all.length < rounds) (hx : next x = some s)
    (hy : next y = some s) (hsame : chainThrough prev next rounds x = chainThrough prev next rounds y) : x = y := by
  obtain ⟨o, l, ho, hl, hchain, hmem⟩ := chainThrough_total h hrounds x
  obtain ⟨o', l', -, -, hchain', hmem'⟩ := chainThrough_total h hrounds y
  obtain rfl : l = l' := Option.some.inj (hchain.symm.trans (hsame.trans hchain'))
  have hunique : Relator.RightUnique (Link next) := fun a b c hab hac => Option.some.inj (hab.symm.trans hac)
  have hcases : ∀ a b, next a = some s → next b = some s → ReflTransGen (Link next) a b → a = b := by
    intro a b ha hb hab
    rcases hab.cases_head with rfl | ⟨z, hlink, hpath⟩
    · rfl
    · obtain rfl : s = z := Option.some.inj (ha.symm.trans hlink)
      have hle := h.rank_le hpath
      have hlt := h.up b s hb
      omega
  rcases ReflTransGen.total_of_right_unique hunique ((mem_follow hl).mp hmem) ((mem_follow hl).mp hmem') with hxy | hyx
  · exact hcases x y hx hy hxy
  · exact (hcases y x hy hx hyx).symm

end

end Relational
