import MissionControl.Events.Log

/-! # Event streams lose nothing

The transaction that has allocated a sequence of a run keeps every other from doing so until it
ends. So sequences become visible in the order they were allocated in, and a reader that goes on
after the last one it has seen misses none. -/

namespace Events

open Relational (Table)

variable {δ : Type} {backend : Backend} {s s' : State δ} {t t' : Txn δ} {run_id : String}
  {rows rows' : List (Row δ)} {row : Row δ}

/-! ## Rows of a run -/

/-- The number of rows of a run. -/
def count (run_id : String) (rows : List (Row δ)) : Nat := (ofRun run_id rows).length

/-- The sequences of a run, in the order of the rows. -/
def sequences (run_id : String) (rows : List (Row δ)) : List Nat := (ofRun run_id rows).map (·.sequence)

theorem ofRun_append : ofRun run_id (rows ++ rows') = ofRun run_id rows ++ ofRun run_id rows' :=
  List.filter_append ..

@[simp] theorem ofRun_nil : ofRun run_id ([] : List (Row δ)) = [] := rfl

@[simp] theorem count_append : count run_id (rows ++ rows') = count run_id rows + count run_id rows' := by
  unfold count
  rw [ofRun_append, List.length_append]

@[simp] theorem sequences_append :
    sequences run_id (rows ++ rows') = sequences run_id rows ++ sequences run_id rows' := by
  unfold sequences
  rw [ofRun_append, List.map_append]

theorem count_self (h : row.run_id = run_id) : count run_id [row] = 1 := by
  simp [count, ofRun, h]

theorem count_other (h : row.run_id ≠ run_id) : count run_id [row] = 0 := by
  simp [count, ofRun, h]

theorem sequences_self (h : row.run_id = run_id) : sequences run_id [row] = [row.sequence] := by
  simp [sequences, ofRun, h]

theorem sequences_other (h : row.run_id ≠ run_id) : sequences run_id [row] = [] := by
  simp [sequences, ofRun, h]

theorem foldl_max (n : Nat) (l : List (Row δ)) (start : Nat) (h : l.map (·.sequence) = List.range' start n) :
    l.foldl (fun n row => max n (row.sequence + 1)) start = start + n := by
  induction l generalizing start n with
  | nil =>
    have hn : n = 0 := by simpa using congrArg List.length h.symm
    rw [hn]
    rfl
  | cons row l ih =>
    cases n with
    | zero => cases h
    | succ n =>
      rw [List.map_cons, List.range'_succ, List.cons.injEq] at h
      obtain ⟨hrow, hl⟩ := h
      show l.foldl _ (max start (row.sequence + 1)) = _
      rw [hrow, max_eq_right (Nat.le_succ start), ih n (start + 1) hl]
      omega

theorem maxSequence_eq (h : sequences run_id rows = List.range (count run_id rows)) :
    maxSequence run_id rows = count run_id rows := by
  rw [List.range_eq_range'] at h
  unfold maxSequence
  rw [foldl_max _ _ 0 h, Nat.zero_add]

/-! ## Allocation -/

/-- The transaction keeps others from allocating in the run. -/
def Txn.Holds (backend : Backend) (t : Txn δ) (run_id : String) : Prop :=
  backend = .sqlite ∨ (t.counters run_id).isSome = true

/-- One if the transaction has allocated a sequence of the run that it has not used yet. -/
def Phase.unused (phase : Phase) (run_id : String) : Nat :=
  match phase with
  | .allocated run _ => if run = run_id then 1 else 0
  | _ => 0

/-- What holds of an open transaction, over the committed rows: it goes on where they end, in
    the runs that it holds. -/
structure Txn.Regular (backend : Backend) (rows : List (Row δ)) (t : Txn δ) : Prop where
  pending : ∀ run_id, sequences run_id t.rows = List.range' (count run_id rows) (count run_id t.rows)
  allocated : ∀ run_id n, t.phase = .allocated run_id n → n = count run_id rows + count run_id t.rows
  held : ∀ run_id, 0 < count run_id t.rows + t.phase.unused run_id → t.Holds backend run_id
  own : backend = .postgres → ∀ run_id n, t.counters run_id = some n →
    n = count run_id rows + count run_id t.rows + t.phase.unused run_id

/-- **What every reachable state keeps.** -/
structure Ordered (backend : Backend) (s : State δ) : Prop where
  committed : ∀ run_id, sequences run_id s.rows = List.range (count run_id s.rows)
  regular : ∀ t ∈ s.txns, t.Regular backend s.rows
  exclusive : ∀ t ∈ s.txns, ∀ t' ∈ s.txns, ∀ run_id, t.Holds backend run_id → t'.Holds backend run_id → t = t'
  counter : backend = .postgres → ∀ run_id, (s.counters run_id).getD 0 = count run_id s.rows

theorem Ordered.init : Ordered backend ({} : State δ) := by
  refine ⟨fun _ => rfl, ?_, ?_, fun _ _ => rfl⟩
  · intro t ht
    exact absurd ht (Table.not_mem_empty t)
  · intro t ht
    exact absurd ht (Table.not_mem_empty t)

theorem Txn.Regular.of_not_holds (h : t.Regular backend rows) (hfree : ¬ t.Holds backend run_id) :
    count run_id t.rows = 0 ∧ t.phase.unused run_id = 0 := by
  have hnone : ¬ 0 < count run_id t.rows + t.phase.unused run_id := fun hpos => hfree (h.held run_id hpos)
  omega

/-- No other transaction holds the run. -/
def Alone (backend : Backend) (s : State δ) (t : Txn δ) (run_id : String) : Prop :=
  ∀ t' ∈ s.txns, t'.id ≠ t.id → ¬ t'.Holds backend run_id

theorem Ordered.alone (h : Ordered backend s) (ht : t ∈ s.txns) (hheld : t.Holds backend run_id) :
    Alone backend s t run_id := by
  intro t' ht' hne hheld'
  exact hne (congrArg Txn.id (h.exclusive t' ht' t ht run_id hheld' hheld))

theorem alone_of_not_locked (h : s.locked t run_id = false) : Alone .postgres s t run_id := by
  intro t' ht' hne hheld
  unfold State.locked at h
  rw [List.any_eq_false] at h
  have hother : t' ∈ s.others t := List.mem_filter.mpr ⟨ht', by simpa using hne⟩
  rcases hheld with hsqlite | hsome
  · cases hsqlite
  · exact h t' hother hsome

theorem Ordered.going (h : Ordered backend s) (ht : t.Regular backend s.rows)
    (halone : ∀ run_id, t.Holds backend run_id → Alone backend s t run_id) : Ordered backend (s.going t) := by
  refine ⟨h.committed, ?_, ?_, h.counter⟩
  · intro t' ht'
    rcases Table.mem_put.mp ht' with rfl | ⟨ht', -⟩
    · exact ht
    · exact h.regular t' ht'
  · intro t' ht' t'' ht'' run_id hheld' hheld''
    rcases Table.mem_put.mp ht' with rfl | ⟨hold', hne'⟩
    · rcases Table.mem_put.mp ht'' with rfl | ⟨hold'', hne''⟩
      · rfl
      · exact absurd hheld'' (halone run_id hheld' t'' hold'' hne'')
    · rcases Table.mem_put.mp ht'' with rfl | ⟨hold'', hne''⟩
      · exact absurd hheld' (halone run_id hheld'' t' hold' hne')
      · exact h.exclusive t' hold' t'' hold'' run_id hheld' hheld''

theorem Ordered.ended (h : Ordered backend s) (t : Txn δ) : Ordered backend (s.ended t) := by
  refine ⟨h.committed, ?_, ?_, h.counter⟩
  · intro t' ht'
    exact h.regular t' (Table.mem_delete.mp ht').1
  · intro t' ht' t'' ht''
    exact h.exclusive t' (Table.mem_delete.mp ht').1 t'' (Table.mem_delete.mp ht'').1

/-! ## One step -/

theorem Ordered.begin (h : Ordered backend s) {id : Nat} (hidle : backend = .sqlite → s.txns.rows = []) :
    Ordered backend (s.going { id := id }) := by
  refine h.going ⟨?_, ?_, ?_, ?_⟩ ?_
  · intro run_id
    rfl
  · intro run_id n hphase
    cases hphase
  · intro run_id hpos
    exact absurd hpos (Nat.lt_irrefl 0)
  · intro _ run_id n hcounter
    cases hcounter
  · intro run_id hheld t' ht'
    rcases hheld with hsqlite | hsome
    · have hnone : t' ∈ s.txns.rows := ht'
      rw [hidle hsqlite] at hnone
      cases hnone
    · cases hsome

variable {n : Nat}

theorem Ordered.counter_eq (h : Ordered .postgres s) (ht : t ∈ s.txns) (hunused : t.phase.unused run_id = 0)
    (hn : s.counter t run_id = some n) : n = count run_id s.rows + count run_id t.rows := by
  unfold State.counter at hn
  cases hown : t.counters run_id with
  | some m =>
    rw [hown] at hn
    cases hn
    rw [(h.regular t ht).own rfl run_id _ hown, hunused, Nat.add_zero]
  | none =>
    rw [hown] at hn
    have hcounter : s.counters run_id = some n := hn
    have hfree : ¬ t.Holds .postgres run_id := by
      rintro (hsqlite | hsome)
      · cases hsqlite
      · rw [hown] at hsome
        cases hsome
    have hcount := h.counter rfl run_id
    rw [hcounter] at hcount
    rw [((h.regular t ht).of_not_holds hfree).1, Nat.add_zero]
    exact hcount

variable {run : String}

theorem holds_counting {phase : Phase}
    (h : Txn.Holds .postgres { t with counters := t.counting run_id n, phase := phase } run) :
    run = run_id ∨ t.Holds .postgres run := by
  by_cases hrun : run = run_id
  · exact .inl hrun
  · refine .inr ?_
    rcases h with hsqlite | hsome
    · exact .inl hsqlite
    · refine .inr ?_
      have hsome' : (Function.update t.counters run_id (some n) run).isSome = true := hsome
      rwa [Function.update_of_ne hrun] at hsome'

theorem holds_counting_mono {phase : Phase} (h : t.Holds .postgres run) :
    Txn.Holds .postgres { t with counters := t.counting run_id n, phase := phase } run := by
  rcases h with hsqlite | hsome
  · exact .inl hsqlite
  · refine .inr ?_
    show (Function.update t.counters run_id (some n) run).isSome = true
    by_cases hrun : run = run_id
    · rw [hrun, Function.update_self]
      rfl
    · rwa [Function.update_of_ne hrun]

theorem Ordered.counting (h : Ordered .postgres s) (ht : t ∈ s.txns) {phase : Phase}
    (hidle : ∀ run, t.phase.unused run = 0) (hlocked : s.locked t run_id = false)
    (hn : n = count run_id s.rows + count run_id t.rows + phase.unused run_id)
    (hphase : ∀ run m, phase = .allocated run m → run = run_id ∧ m = count run_id s.rows + count run_id t.rows)
    (hothers : ∀ run, run ≠ run_id → phase.unused run = 0) :
    Ordered .postgres (s.going { t with counters := t.counting run_id n, phase := phase }) := by
  have hregular := h.regular t ht
  refine h.going ⟨hregular.pending, ?_, ?_, ?_⟩ ?_
  · intro run m hm
    obtain ⟨rfl, rfl⟩ := hphase run m hm
    rfl
  · intro run hpos
    by_cases hrun : run = run_id
    · refine .inr ?_
      show (Function.update t.counters run_id (some n) run).isSome = true
      rw [hrun, Function.update_self]
      rfl
    · refine holds_counting_mono (hregular.held run ?_)
      have hpos' : 0 < count run t.rows + phase.unused run := hpos
      rw [hothers run hrun] at hpos'
      rw [hidle run]
      exact hpos'
  · intro _ run m hm
    show m = count run s.rows + count run t.rows + phase.unused run
    have hm' : Function.update t.counters run_id (some n) run = some m := hm
    by_cases hrun : run = run_id
    · rw [hrun, Function.update_self, Option.some.injEq] at hm'
      rw [hrun, ← hm']
      exact hn
    · rw [Function.update_of_ne hrun] at hm'
      rw [hregular.own rfl run m hm', hidle run, hothers run hrun]
  · intro run hheld
    rcases holds_counting hheld with rfl | hheld
    · exact alone_of_not_locked hlocked
    · exact fun t' ht' hne => h.alone ht hheld t' ht' hne

theorem Ordered.phase (h : Ordered backend s) (ht : t ∈ s.txns) {phase : Phase}
    (hidle : ∀ run, t.phase.unused run = 0)
    (hphase : ∀ run m, phase = .allocated run m → m = count run s.rows + count run t.rows)
    (hunused : backend = .postgres → ∀ run, phase.unused run = 0) :
    Ordered backend (s.going { t with phase := phase }) := by
  have hregular := h.regular t ht
  refine h.going ⟨hregular.pending, ?_, ?_, ?_⟩ fun run hheld t' ht' hne => h.alone ht hheld t' ht' hne
  · intro run m hm
    exact hphase run m hm
  · intro run hpos
    cases backend with
    | sqlite => exact .inl rfl
    | postgres =>
      refine hregular.held run ?_
      have hpos' : 0 < count run t.rows + phase.unused run := hpos
      rw [hunused rfl run] at hpos'
      rw [hidle run]
      exact hpos'
  · intro hpostgres run m hm
    show m = count run s.rows + count run t.rows + phase.unused run
    rw [hunused hpostgres run, hregular.own hpostgres run m hm, hidle run]

theorem Phase.unused_allocated (n : Nat) : (Phase.allocated run_id n).unused run_id = 1 := if_pos rfl

theorem Phase.unused_other (h : run ≠ run_id) (n : Nat) :
    (Phase.allocated run_id n).unused run = 0 := if_neg (Ne.symm h)

theorem Ordered.ensure (h : Ordered .postgres s) (ht : t ∈ s.txns) (hready : t.phase = .ready)
    (hstep : s.ensure t run_id = some s') : Ordered .postgres s' := by
  have hidle : ∀ run, t.phase.unused run = 0 := fun run => by rw [hready]; rfl
  unfold State.ensure at hstep
  split at hstep
  · cases hstep
    refine h.phase ht hidle (fun run m hm => by cases hm) fun _ run => rfl
  · rename_i hnone
    split at hstep
    · cases hstep
    · rename_i hlocked
      cases hstep
      rw [Bool.not_eq_true] at hlocked
      rw [State.counter, Option.isSome_or, Bool.or_eq_true, not_or] at hnone
      have hfree : ¬ t.Holds .postgres run_id := by
        rintro (hsqlite | hsome)
        · cases hsqlite
        · exact hnone.1 hsome
      refine h.counting ht hidle hlocked ?_ (fun run m hm => by cases hm) fun run _ => rfl
      -- no counter, no event
      have hcount := h.counter rfl run_id
      rw [Option.not_isSome_iff_eq_none.mp hnone.2] at hcount
      rw [((h.regular t ht).of_not_holds hfree).1, ← hcount]
      rfl

theorem Ordered.increment (h : Ordered .postgres s) (ht : t ∈ s.txns) (hphase : t.phase = .ensured run_id)
    (hstep : s.increment t run_id = some s') : Ordered .postgres s' := by
  have hidle : ∀ run, t.phase.unused run = 0 := fun run => by rw [hphase]; rfl
  unfold State.increment at hstep
  split at hstep
  · cases hstep
  · rename_i hlocked
    rw [Bool.not_eq_true] at hlocked
    split at hstep
    · rename_i n hn
      cases hstep
      have hnext := h.counter_eq ht (hidle run_id) hn
      refine h.counting ht hidle hlocked ?_ ?_ fun run hrun => Phase.unused_other hrun n
      · rw [Phase.unused_allocated, hnext]
      · intro run m hm
        cases hm
        exact ⟨rfl, hnext⟩
    · cases hstep
      exact h.ended t

theorem Ordered.together (h : Ordered backend s) (ht : t ∈ s.txns) (run_id : String) :
    sequences run_id (s.rows ++ t.rows) = List.range (count run_id (s.rows ++ t.rows)) := by
  rw [sequences_append, count_append, h.committed, (h.regular t ht).pending, List.range_eq_range',
    List.range_eq_range', ← List.range'_append_1, Nat.zero_add]

theorem Ordered.next_sequence (h : Ordered backend s) (ht : t ∈ s.txns)
    (hstep : s.next_sequence backend t run_id = some s') : Ordered backend s' := by
  unfold State.next_sequence at hstep
  cases backend with
  | postgres =>
    dsimp only at hstep
    split at hstep
    · rename_i hphase
      exact h.increment ht hphase hstep
    · cases hstep
  | sqlite =>
    dsimp only at hstep
    split at hstep
    · rename_i hready
      cases hstep
      refine h.phase ht (fun run => by rw [hready]; rfl) (fun run m hm => ?_)
        fun hpostgres => by cases hpostgres
      cases hm
      rw [maxSequence_eq (h.together ht _), count_append]
    · cases hstep

theorem Ordered.insert (h : Ordered backend s) (ht : t ∈ s.txns) {event_id : String} {n : Nat} {data : δ}
    (hphase : t.phase = .allocated run_id n)
    (hstep : s.insert t ⟨event_id, run_id, n, data⟩ = some s') : Ordered backend s' := by
  unfold State.insert at hstep
  split at hstep
  · cases hstep
    exact h.ended t
  · split at hstep
    · cases hstep
    · cases hstep
      have hregular := h.regular t ht
      have hn := hregular.allocated run_id n hphase
      have hunused : ∀ run, count run (t.rows ++ [⟨event_id, run_id, n, data⟩]) =
          count run t.rows + t.phase.unused run := by
        intro run
        rw [count_append, hphase]
        by_cases hrun : run = run_id
        · subst hrun
          rw [Phase.unused_allocated, count_self (show Row.run_id ⟨event_id, run, n, data⟩ = run from rfl)]
        · rw [Phase.unused_other hrun, count_other (Ne.symm hrun)]
      refine h.going ⟨?_, ?_, ?_, ?_⟩ fun run hheld t' ht' hne => h.alone ht hheld t' ht' hne
      · intro run
        show sequences run (t.rows ++ [_]) = List.range' _ (count run (t.rows ++ [_]))
        rw [hunused, sequences_append, hregular.pending, hphase]
        by_cases hrun : run = run_id
        · subst hrun
          rw [Phase.unused_allocated, sequences_self (show Row.run_id ⟨event_id, run, n, data⟩ = run from rfl),
            List.range'_concat, hn, Nat.one_mul]
        · rw [Phase.unused_other hrun, sequences_other (Ne.symm hrun), List.append_nil, Nat.add_zero]
      · intro run m hm
        cases hm
      · intro run hpos
        refine hregular.held run ?_
        rw [← hunused]
        exact hpos
      · intro hpostgres run m hm
        show m = count run s.rows + count run (t.rows ++ [_]) + 0
        rw [hunused, hregular.own hpostgres run m hm, Nat.add_zero, Nat.add_assoc]

/-- **A commit**: the rows of the transaction come after those committed before. -/
theorem Ordered.commit (h : Ordered backend s) (ht : t ∈ s.txns) (hready : t.phase = .ready) :
    Ordered backend (s.commit t) := by
  have hregular := h.regular t ht
  refine ⟨h.together ht, ?_, ?_, ?_⟩
  · intro t' ht'
    obtain ⟨ht', hne⟩ := Table.mem_delete.mp ht'
    have hregular' := h.regular t' ht'
    -- of a run the transaction has rows of, no other has any
    have hapart : ∀ run, count run t.rows = 0 ∨ count run t'.rows = 0 ∧ t'.phase.unused run = 0 ∧
        ¬ t'.Holds backend run := by
      intro run
      rcases Nat.eq_zero_or_pos (count run t.rows) with hnone | hpos
      · exact .inl hnone
      · have hfree := h.alone ht (hregular.held run (Nat.add_pos_left hpos _)) t' ht' hne
        obtain ⟨hrows, hphase⟩ := hregular'.of_not_holds hfree
        exact .inr ⟨hrows, hphase, hfree⟩
    refine ⟨?_, ?_, hregular'.held, ?_⟩
    · intro run
      show _ = List.range' (count run (s.rows ++ t.rows)) _
      rw [count_append]
      rcases hapart run with hnone | ⟨hrows, -, -⟩
      · rw [hnone, Nat.add_zero]
        exact hregular'.pending run
      · rw [hregular'.pending run, hrows]
        rfl
    · intro run n hphase
      show n = count run (s.rows ++ t.rows) + _
      rw [count_append]
      rcases hapart run with hnone | ⟨-, hunused, -⟩
      · rw [hnone, Nat.add_zero]
        exact hregular'.allocated run n hphase
      · rw [hphase, Phase.unused_allocated] at hunused
        cases hunused
    · intro hpostgres run n hcounter
      show n = count run (s.rows ++ t.rows) + _ + _
      rw [count_append]
      rcases hapart run with hnone | ⟨-, -, hfree⟩
      · rw [hnone, Nat.add_zero]
        exact hregular'.own hpostgres run n hcounter
      · exact absurd (.inr (by rw [hcounter]; rfl)) hfree
  · intro t' ht' t'' ht''
    exact h.exclusive t' (Table.mem_delete.mp ht').1 t'' (Table.mem_delete.mp ht'').1
  · intro hpostgres run
    subst hpostgres
    show (s.counter t run).getD 0 = count run (s.rows ++ t.rows)
    rw [count_append]
    cases hcounter : s.counter t run with
    | some n =>
      exact h.counter_eq ht (by rw [hready]; rfl) hcounter
    | none =>
      rw [State.counter, Option.or_eq_none_iff] at hcounter
      have hfree : ¬ t.Holds .postgres run := by
        rintro (hsqlite | hsome)
        · cases hsqlite
        · rw [hcounter.1] at hsome
          cases hsome
      have hcount := h.counter rfl run
      rw [hcounter.2] at hcount
      rw [(hregular.of_not_holds hfree).1, Nat.add_zero]
      exact hcount

theorem of_within {id : Nat} {act : Txn δ → Option (State δ)} (h : s.within id act = some s') :
    ∃ t ∈ s.txns, act t = some s' := by
  obtain ⟨t, ht, hact⟩ := Option.bind_eq_some_iff.mp h
  exact ⟨t, Table.mem_of_find? ht, hact⟩

theorem rows_insert {event_id : String} {data : δ} (h : s.insert t ⟨event_id, run_id, n, data⟩ = some s') :
    s'.rows = s.rows ∧ s'.readers = s.readers := by
  unfold State.insert at h
  split at h
  · cases h
    exact ⟨rfl, rfl⟩
  · split at h
    · cases h
    · cases h
      exact ⟨rfl, rfl⟩

theorem rows_next_sequence (h : s.next_sequence backend t run_id = some s') :
    s'.rows = s.rows ∧ s'.readers = s.readers := by
  unfold State.next_sequence State.increment at h
  repeat' split at h
  all_goals cases h
  all_goals exact ⟨rfl, rfl⟩

theorem rows_ensure (h : s.ensure t run_id = some s') : s'.rows = s.rows ∧ s'.readers = s.readers := by
  unfold State.ensure at h
  repeat' split at h
  all_goals cases h
  all_goals exact ⟨rfl, rfl⟩

/-- Whether it is the reader that reads. -/
def isRead (j : Nat) : Event δ → Bool
  | .read reader _ => reader == j
  | _ => false

variable {e : Event δ}

/-- **What a step does to the rows and the readers**: it commits rows, or lets a reader read, or
    follows a run, or none of these. -/
theorem step_cases (h : step backend s e = some s') :
    (∃ more, s'.rows = s.rows ++ more ∧ s'.readers = s.readers ∧ ∀ j, isRead j e = false) ∨
    (∃ run_id, e = .follow run_id ∧ s'.rows = s.rows ∧ s'.readers = s.readers ++ [{ run_id := run_id }]) ∨
    (∃ j limit r, e = .read j limit ∧ s.readers[j]? = some r ∧ s'.rows = s.rows ∧
      s'.readers = s.readers.set j (r.read s.rows limit)) := by
  have hsame (hrows : s'.rows = s.rows ∧ s'.readers = s.readers) (hread : ∀ j, isRead j e = false) :
      ∃ more, s'.rows = s.rows ++ more ∧ s'.readers = s.readers ∧ ∀ j, isRead j e = false :=
    ⟨[], by rw [hrows.1, List.append_nil], hrows.2, hread⟩
  cases e with
  | begin id =>
    simp only [step] at h
    split at h
    · cases h
    · cases h
      exact .inl (hsame ⟨rfl, rfl⟩ fun _ => rfl)
  | ensure id run_id =>
    obtain ⟨t, -, h⟩ := of_within h
    split at h
    · exact .inl (hsame (rows_ensure h) fun _ => rfl)
    · cases h
  | next_sequence id run_id =>
    obtain ⟨t, -, h⟩ := of_within h
    exact .inl (hsame (rows_next_sequence h) fun _ => rfl)
  | insert id event_id data =>
    obtain ⟨t, -, h⟩ := of_within h
    split at h
    · exact .inl (hsame (rows_insert h) fun _ => rfl)
    · cases h
  | commit id =>
    obtain ⟨t, -, h⟩ := of_within h
    split at h
    · cases h
      exact .inl ⟨t.rows, rfl, rfl, fun _ => rfl⟩
    · cases h
  | rollback id =>
    obtain ⟨t, -, h⟩ := of_within h
    cases h
    exact .inl (hsame ⟨rfl, rfl⟩ fun _ => rfl)
  | follow run_id =>
    cases h
    exact .inr (.inl ⟨run_id, rfl, rfl, rfl⟩)
  | read j limit =>
    obtain ⟨r, hr, rfl⟩ := Option.map_eq_some_iff.mp h
    exact .inr (.inr ⟨j, limit, r, rfl, hr, rfl, rfl⟩)

theorem Ordered.step (h : Ordered backend s) (hstep : step backend s e = some s') : Ordered backend s' := by
  cases e with
  | begin id =>
    simp only [Events.step] at hstep
    split at hstep
    · cases hstep
    · rename_i hfree
      cases hstep
      rw [not_or] at hfree
      exact h.begin fun hsqlite => not_not.mp fun hne => hfree.2 ⟨hsqlite, hne⟩
  | ensure id run_id =>
    obtain ⟨t, ht, hact⟩ := of_within hstep
    split at hact
    · rename_i hready
      obtain ⟨rfl, hready⟩ := hready
      exact h.ensure ht hready hact
    · cases hact
  | next_sequence id run_id =>
    obtain ⟨t, ht, hstep⟩ := of_within hstep
    exact h.next_sequence ht hstep
  | insert id event_id data =>
    obtain ⟨t, ht, hstep⟩ := of_within hstep
    split at hstep
    · rename_i hphase
      exact h.insert ht hphase hstep
    · cases hstep
  | commit id =>
    obtain ⟨t, ht, hstep⟩ := of_within hstep
    split at hstep
    · rename_i hready
      cases hstep
      exact h.commit ht hready
    · cases hstep
  | rollback id =>
    obtain ⟨t, -, hstep⟩ := of_within hstep
    cases hstep
    exact h.ended t
  | follow run_id =>
    cases hstep
    exact ⟨h.committed, h.regular, h.exclusive, h.counter⟩
  | read j limit =>
    obtain ⟨r, -, rfl⟩ := Option.map_eq_some_iff.mp hstep
    exact ⟨h.committed, h.regular, h.exclusive, h.counter⟩

/-! ## Readers -/

/-- The reader has received the first events of its run, and knows how many. -/
structure Reader.Caught (rows : List (Row δ)) (r : Reader δ) : Prop where
  after : r.after_sequence = (r.received.length : Int) - 1
  received : r.received <+: ofRun r.run_id rows

theorem one_le_bounded_limit (limit : Int) : 1 ≤ bounded_limit limit := by
  unfold bounded_limit
  omega

theorem filter_after {l : List (Row δ)} {start : Nat} (h : l.map (·.sequence) = List.range' start l.length) :
    l.filter (fun row => ((start + n : Nat) : Int) - 1 < row.sequence) = l.drop n := by
  induction l generalizing start n with
  | nil => simp
  | cons row l ih =>
    rw [List.map_cons, List.length_cons, List.range'_succ, List.cons.injEq] at h
    obtain ⟨hrow, hl⟩ := h
    cases n with
    | zero =>
      rw [List.drop_zero, List.filter_eq_self]
      intro row' hrow'
      have hmem : row'.sequence ∈ (row :: l).map (·.sequence) := List.mem_map_of_mem hrow'
      rw [List.map_cons, hrow, hl, ← List.range'_succ, List.mem_range'_1] at hmem
      simp only [decide_eq_true_eq]
      omega
    | succ n =>
      rw [List.drop_succ_cons, List.filter_cons_of_neg]
      · have hshift : start + (n + 1) = start + 1 + n := by omega
        rw [hshift]
        exact ih hl
      · simp only [decide_eq_true_eq]
        omega

/-- **What a reader is given**: the next events, as many as it has asked for. -/
theorem list_events_eq {rows : List (Row δ)} (h : sequences run_id rows = List.range (count run_id rows))
    (n : Nat) (limit : Int) : list_events_for_run rows run_id ((n : Int) - 1) limit =
      ((ofRun run_id rows).drop n).take (bounded_limit limit) := by
  unfold list_events_for_run
  rw [List.range_eq_range'] at h
  have hdrop := filter_after (n := n) h
  rw [Nat.zero_add] at hdrop
  rw [hdrop, List.mergeSort_of_pairwise]
  refine List.Pairwise.sublist (List.drop_sublist n _) ?_
  have hsorted : (sequences run_id rows).Pairwise (· < ·) := by
    rw [h]
    exact List.pairwise_lt_range'
  refine (List.pairwise_map.mp hsorted).imp fun hlt => ?_
  simp only [decide_eq_true_eq]
  exact le_of_lt hlt

variable {r : Reader δ}

theorem Reader.Caught.read (h : r.Caught rows)
    (hrows : sequences r.run_id rows = List.range (count r.run_id rows)) (limit : Int) :
    (r.read rows limit).Caught rows ∧ (r.read rows limit).received =
      (ofRun r.run_id rows).take (r.received.length + bounded_limit limit) := by
  have htake : r.received = (ofRun r.run_id rows).take r.received.length := List.prefix_iff_eq_take.mp h.received
  have hevents := list_events_eq hrows r.received.length limit
  rw [← h.after] at hevents
  have hreceived : (r.read rows limit).received =
      (ofRun r.run_id rows).take (r.received.length + bounded_limit limit) := by
    show r.received ++ list_events_for_run rows r.run_id r.after_sequence limit = _
    rw [hevents, List.take_add]
    exact congrArg (· ++ _) htake
  refine ⟨⟨?_, ?_⟩, hreceived⟩
  · show ((list_events_for_run rows r.run_id r.after_sequence limit).getLast?.map _).getD _ =
      ((r.received ++ list_events_for_run rows r.run_id r.after_sequence limit).length : Int) - 1
    generalize hnew : list_events_for_run rows r.run_id r.after_sequence limit = events
    rcases List.eq_nil_or_concat events with rfl | ⟨events, row, rfl⟩
    · rw [List.append_nil]
      exact h.after
    · -- the last row is that of the last sequence that has been received
      have hall : (r.received ++ events.concat row).map (·.sequence) =
          List.range (r.received ++ events.concat row).length := by
        rw [← hnew]
        show (r.read rows limit).received.map _ = List.range (r.read rows limit).received.length
        rw [hreceived, List.map_take, List.length_take]
        show (sequences r.run_id rows).take _ = _
        rw [hrows, List.take_range]
        rfl
      rw [List.concat_eq_append, ← List.append_assoc, List.map_append, List.length_append,
        List.length_singleton, List.range_succ] at hall
      have hlast := List.append_inj_right' hall rfl
      rw [List.map_singleton, List.singleton_inj] at hlast
      simp only [List.concat_eq_append, List.getLast?_concat, Option.map_some, Option.getD_some, hlast,
        List.length_append, List.length_singleton]
      omega
  · rw [hreceived]
    exact List.take_prefix _ _

theorem Reader.Caught.append (h : r.Caught rows) (more : List (Row δ)) : r.Caught (rows ++ more) := by
  refine ⟨h.after, h.received.trans ?_⟩
  rw [ofRun_append]
  exact List.prefix_append _ _

/-- **No event is lost**: the sequences of a run are gapless, in the order in which they were
    committed, and each reader has received the first of them, each once, in order. -/
structure Lossless (s : State δ) : Prop where
  gapless : ∀ run_id, sequences run_id s.rows = List.range (count run_id s.rows)
  received : ∀ r ∈ s.readers, r.Caught s.rows

theorem Lossless.init : Lossless ({} : State δ) := by
  refine ⟨fun _ => rfl, fun r hr => ?_⟩
  cases hr

theorem Lossless.step (h : Lossless s) (hordered : Ordered backend s') (hstep : step backend s e = some s') :
    Lossless s' := by
  refine ⟨hordered.committed, fun r hr => ?_⟩
  rcases step_cases hstep with ⟨more, hrows, hreaders, -⟩ | ⟨run_id, -, hrows, hreaders⟩ |
    ⟨j, limit, r₀, -, hr₀, hrows, hreaders⟩
  · rw [hreaders] at hr
    rw [hrows]
    exact (h.received r hr).append more
  · rw [hreaders] at hr
    rw [hrows]
    rcases List.mem_append.mp hr with hr | hr
    · exact h.received r hr
    · rw [List.mem_singleton] at hr
      subst hr
      exact ⟨rfl, List.nil_prefix⟩
  · rw [hreaders] at hr
    rw [hrows]
    rcases List.mem_or_eq_of_mem_set hr with hr | rfl
    · exact h.received r hr
    · exact ((h.received r₀ (List.mem_of_getElem? hr₀)).read (h.gapless _) limit).1

/-! ## Runs -/

variable {events more : List (Event δ)} {j : Nat}

theorem run_lossless (hrun : Transition.run (step backend) {} events = some s) :
    Ordered backend s ∧ Lossless s :=
  Transition.run_invariant (P := fun s => Ordered backend s ∧ Lossless s) ⟨Ordered.init, Lossless.init⟩
    (fun _ _ _ h hstep => ⟨h.1.step hstep, h.2.step (h.1.step hstep) hstep⟩) hrun

/-- **Catching up by one step**: a reader keeps what it has received, and receives one more event,
    at least, when it reads and there is one. -/
theorem caught_step (h : Lossless s) (hstep : step backend s e = some s') (hr : s.readers[j]? = some r) :
    (∃ more, s'.rows = s.rows ++ more) ∧ ∃ r', s'.readers[j]? = some r' ∧ r'.run_id = r.run_id ∧
      min (r.received.length + if isRead j e then 1 else 0) (count r.run_id s.rows) ≤ r'.received.length := by
  have hcaught := h.received r (List.mem_of_getElem? hr)
  have hle : r.received.length ≤ count r.run_id s.rows := hcaught.received.length_le
  rcases step_cases hstep with ⟨more, hrows, hreaders, hread⟩ | ⟨run_id, rfl, hrows, hreaders⟩ |
    ⟨i, limit, r₀, rfl, hr₀, hrows, hreaders⟩
  · refine ⟨⟨more, hrows⟩, r, by rw [hreaders]; exact hr, rfl, ?_⟩
    rw [hread j]
    exact min_le_left _ _
  · refine ⟨⟨[], by rw [hrows, List.append_nil]⟩, r, ?_, rfl, ?_⟩
    · rw [hreaders]
      exact List.getElem?_append_left (List.getElem?_eq_some_iff.mp hr).1 |>.trans hr
    · exact min_le_left _ _
  · refine ⟨⟨[], by rw [hrows, List.append_nil]⟩, ?_⟩
    rw [hreaders]
    by_cases hij : i = j
    · subst hij
      rw [hr] at hr₀
      cases hr₀
      refine ⟨r.read s.rows limit, List.getElem?_set_self (List.getElem?_eq_some_iff.mp hr).1, rfl, ?_⟩
      have hreceived := (hcaught.read (h.gapless _) limit).2
      have hlimit := one_le_bounded_limit limit
      rw [hreceived, List.length_take, if_pos (by simp [isRead])]
      show _ ≤ min _ (count r.run_id s.rows)
      omega
    · refine ⟨r, (List.getElem?_set_ne hij).trans hr, rfl, ?_⟩
      rw [if_neg (by simpa [isRead] using hij), Nat.add_zero]
      exact min_le_left _ _

theorem catches_up (hordered : Ordered backend s) (h : Lossless s)
    (hrun : Transition.run (step backend) s more = some s') (hr : s.readers[j]? = some r)
    (hn : n ≤ count r.run_id s.rows) (hreads : n ≤ r.received.length + more.countP (isRead j)) :
    ∃ r', s'.readers[j]? = some r' ∧ r'.run_id = r.run_id ∧ n ≤ r'.received.length ∧
      ∃ later, s'.rows = s.rows ++ later := by
  induction more generalizing s r with
  | nil =>
    cases hrun
    exact ⟨r, hr, rfl, by simpa using hreads, [], by simp⟩
  | cons e more ih =>
    obtain ⟨s₁, hstep, hrest⟩ := Option.bind_eq_some_iff.mp hrun
    have hordered₁ := hordered.step hstep
    obtain ⟨⟨rows, hrows⟩, r₁, hr₁, hid, hmin⟩ := caught_step h hstep hr
    have hn₁ : n ≤ count r₁.run_id s₁.rows := by
      rw [hid, hrows, count_append]
      exact le_trans hn (Nat.le_add_right _ _)
    have hreads₁ : n ≤ r₁.received.length + more.countP (isRead j) := by
      rw [List.countP_cons] at hreads
      omega
    obtain ⟨r', hr', hid', hlen, later, hlater⟩ :=
      ih hordered₁ (h.step hordered₁ hstep) hrest hr₁ hn₁ hreads₁
    refine ⟨r', hr', hid'.trans hid, hlen, rows ++ later, ?_⟩
    rw [hlater, hrows, List.append_assoc]

/-- **Event streams lose nothing.** In every reachable state, on either database, the sequences of
    a run are gapless and in the order of their commits, and each reader has received the first
    events of its run, each once, in order. And a reader that goes on to read as often as there
    are events it has not received yet receives them all. -/
theorem events_delivered (hrun : Transition.run (step backend) {} events = some s) :
    Lossless s ∧ ∀ more s' j r, Transition.run (step backend) s more = some s' →
      s.readers[j]? = some r → count r.run_id s.rows ≤ r.received.length + more.countP (isRead j) →
        ∃ r', s'.readers[j]? = some r' ∧ r'.run_id = r.run_id ∧ ofRun r.run_id s.rows <+: r'.received := by
  obtain ⟨hordered, hlossless⟩ := run_lossless hrun
  refine ⟨hlossless, fun more s' j r hmore hr hreads => ?_⟩
  obtain ⟨r', hr', hid, hlen, later, hlater⟩ := catches_up hordered hlossless hmore hr le_rfl hreads
  refine ⟨r', hr', hid, ?_⟩
  have hrun' : Transition.run (step backend) {} (events ++ more) = some s' := by
    rw [Transition.run_append, hrun]
    exact hmore
  have hcaught := (run_lossless hrun').2.received r' (List.mem_of_getElem? hr')
  have hprefix : ofRun r.run_id s.rows <+: ofRun r'.run_id s'.rows := by
    rw [hid, hlater, ofRun_append]
    exact List.prefix_append _ _
  exact List.prefix_of_prefix_length_le hprefix hcaught.received hlen

/-- **The allocators agree**: on PostgreSQL the counter of a run gives what SQLite takes from its rows, in every
    reachable state, and within a transaction too, of which one at most has locked the counter. -/
theorem allocators_agree (hrun : Transition.run (step .postgres) {} events = some s) :
    (∀ run_id, (s.counters run_id).getD 0 = maxSequence run_id s.rows) ∧
    (∀ t ∈ s.txns, ∀ run_id n, t.phase = .allocated run_id n → n = maxSequence run_id (s.rows ++ t.rows)) ∧
    ∀ t ∈ s.txns, ∀ t' ∈ s.txns, ∀ run_id, (t.counters run_id).isSome = true → (t'.counters run_id).isSome = true →
      t = t' := by
  obtain ⟨hordered, -⟩ := run_lossless hrun
  refine ⟨fun run_id => ?_, fun t ht run_id n hphase => ?_, fun t ht t' ht' run_id hlocks hlocks' => ?_⟩
  · rw [hordered.counter rfl, maxSequence_eq (hordered.committed run_id)]
  · rw [maxSequence_eq (hordered.together ht run_id), count_append]
    exact (hordered.regular t ht).allocated run_id n hphase
  · exact hordered.exclusive t ht t' ht' run_id (.inr hlocks) (.inr hlocks')

/-- Two transactions record events of a run, and a reader reads between and after them. -/
def twoWriters : List (Event String) :=
  [.follow "run", .begin 0, .begin 1, .ensure 0 "run", .next_sequence 0 "run", .insert 0 "a" "first",
    .read 0 10, .commit 0, .ensure 1 "run", .next_sequence 1 "run", .read 0 10, .insert 1 "b" "second",
    .commit 1]

theorem events_delivered_twoWriters :
    ∃ s, Transition.run (step .postgres) {} twoWriters = some s ∧ Lossless s ∧ s.rows.length = 2 := by
  cases hrun : Transition.run (step .postgres) {} twoWriters with
  | none => exact absurd (congrArg Option.isSome hrun) (by decide)
  | some s =>
    refine ⟨s, rfl, (events_delivered hrun).1, ?_⟩
    have hrows : (Transition.run (step .postgres) {} twoWriters).map (·.rows.length) = some 2 := by decide
    rw [hrun] at hrows
    exact Option.some.inj hrows

theorem allocators_agree_twoWriters :
    ∃ s, Transition.run (step .postgres) {} twoWriters = some s ∧ (s.counters "run").getD 0 = maxSequence "run" s.rows := by
  cases hrun : Transition.run (step .postgres) {} twoWriters with
  | none => exact absurd (congrArg Option.isSome hrun) (by decide)
  | some s => exact ⟨s, rfl, (allocators_agree hrun).1 "run"⟩

end Events
