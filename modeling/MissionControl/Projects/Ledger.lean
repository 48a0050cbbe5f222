import MissionControl.Projects.Phases

/-! # The ledger of an artifact

What the revisions of one artifact share, and how far each of them has come: the head, the metadata, the rows of the
versions, and a phase for each revision.

* **The history stays orderly** while no head is updated between another revision's update and its reading the head
  again (`Orderly.advance`).
* **Once it is, a version is lost**, for good (`Orderly.lost`, `Lost.advance`). -/

namespace Projects

/-- What the revisions of an artifact share, and the phase of each. -/
structure Ledger where
  head : Option (ℕ × Content)
  metadata : Metadata
  row : ℕ → Option VersionRow
  phase : ℕ → Phase

/-- What each revision wrote: the version it made of the head, with its content, and the metadata it set. -/
structure Deeds where
  made : ℕ → ℕ → Content → Prop
  described : ℕ → Metadata → Prop

/-- What the row of a version holds of the content. -/
def VersionRow.content (row : VersionRow) : Content :=
  ⟨row.content_hash, row.content_location, row.semantic_fingerprint⟩

/-- **The row holds what the revision wrote** that made the version. -/
def Deeds.Wrote (d : Deeds) (v : ℕ) (row : VersionRow) : Prop :=
  ∃ i, d.made i v row.content ∧ d.described i row.metadata

/-- Whatever was written before still was. -/
structure Deeds.Within (d d' : Deeds) : Prop where
  made : ∀ i v c, d.made i v c → d'.made i v c
  described : ∀ i metadata, d.described i metadata → d'.described i metadata

theorem Deeds.Wrote.within {d d' : Deeds} {v : ℕ} {row : VersionRow} (h : d.Wrote v row) (hd : d.Within d') :
    d'.Wrote v row := by
  obtain ⟨i, hmade, hdescribed⟩ := h
  exact ⟨i, hd.made _ _ _ hmade, hd.described _ _ hdescribed⟩

namespace Phase

/-- The head is updated and not read again. -/
def Open : Phase → Prop
  | updated => True
  | described _ => True
  | _ => False

/-- Nothing is written yet, or everything is. -/
def Settled : Phase → Prop
  | reading => True
  | recorded => True
  | _ => False

/-- The row of version `v` is still due, where the head is at `n`. -/
def Due (n v : ℕ) : Phase → Prop
  | updated => v = n
  | described _ => v = n
  | reread _ record => v = record.artifact.version
  | _ => False

/-- Version `v` is not what was read again. -/
def Unread (v : ℕ) : Phase → Prop
  | reread _ record => record.artifact.version ≠ v
  | _ => True

variable {phase : Phase}

theorem Open.due (h : phase.Open) (n : ℕ) : phase.Due n n := by
  cases phase with
  | updated => rfl
  | described => rfl
  | _ => exact h.elim

variable {n : ℕ}

theorem Open.of_due {v : ℕ} (h : phase.Open) (hdue : phase.Due n v) : v = n := by
  cases phase with
  | updated => exact hdue
  | described => exact hdue
  | _ => exact h.elim

theorem Due.of_not_open {n' v : ℕ} (hdue : phase.Due n v) (h : ¬ phase.Open) : phase.Due n' v := by
  cases phase with
  | updated => exact absurd trivial h
  | described => exact absurd trivial h
  | _ => exact hdue

/-- What revision `i` wrote until this phase is what the head has, or what it read again. -/
def Tells (d : Deeds) (n : ℕ) (c : Content) (current : Metadata) (i : ℕ) : Phase → Prop
  | updated => d.made i n c
  | described metadata => d.made i n c ∧ d.described i metadata ∧ current = metadata
  | reread _ record => d.made i record.artifact.version (contentOf record.artifact) ∧ d.described i record.metadata
  | _ => True

variable {current : Metadata} {c : Content}

theorem Tells.within {d d' : Deeds} {i : ℕ} (h : phase.Tells d n c current i) (hd : d.Within d') :
    phase.Tells d' n c current i := by
  cases phase with
  | updated => exact hd.made _ _ _ h
  | described => exact ⟨hd.made _ _ _ h.1, hd.described _ _ h.2.1, h.2.2⟩
  | reread => exact ⟨hd.made _ _ _ h.1, hd.described _ _ h.2⟩
  | _ => trivial

theorem Tells.of_not_open {d : Deeds} {n' : ℕ} {c' : Content} {current' : Metadata} {i : ℕ}
    (h : phase.Tells d n c current i) (hopen : ¬ phase.Open) : phase.Tells d n' c' current' i := by
  cases phase with
  | updated => exact absurd trivial hopen
  | described => exact absurd trivial hopen
  | _ => exact h

theorem settled_iff (n : ℕ) : phase.Settled ↔ ∀ v, ¬ phase.Due n v := by
  cases phase with
  | reading => exact iff_of_true trivial fun v h => h
  | recorded => exact iff_of_true trivial fun v h => h
  | updated => exact iff_of_false (fun h => h) fun h => h n rfl
  | described => exact iff_of_false (fun h => h) fun h => h n rfl
  | reread metadata record => exact iff_of_false (fun h => h) fun h => h _ rfl

end Phase

namespace Ledger

/-- **What a call of revision `i` does to the ledger.** -/
inductive Advance (d : Deeds) (i : ℕ) (x : Ledger) : Ledger → Prop
  | idle : Advance d i x x
  | update {n : ℕ} {c c' : Content} (hphase : x.phase i = .reading) (hhead : x.head = some (n, c))
      (hmade : d.made i (n + 1) c') :
      Advance d i x { x with head := some (n + 1, c'), phase := Function.update x.phase i .updated }
  | describe {metadata : Metadata} (hphase : x.phase i = .updated) (hdescribed : d.described i metadata) :
      Advance d i x { x with metadata, phase := Function.update x.phase i (.described metadata) }
  | reread {metadata : Metadata} {record : ArtifactRecord} (hphase : x.phase i = .described metadata)
      (hhead : x.head = some (record.artifact.version, contentOf record.artifact))
      (hmetadata : record.metadata = x.metadata) :
      Advance d i x { x with phase := Function.update x.phase i (.reread metadata record) }
  | record {metadata : Metadata} {change : VersionChange} (hphase : x.phase i = .reread metadata change.artifact)
      (hrow : x.row change.row.version = none) :
      Advance d i x
        { x with
          row := Function.update x.row change.row.version (some change.row)
          phase := Function.update x.phase i .recorded }

/-- **The history is complete**: the rows are those of the versions up to the head; those there were at first are as
    they were, and each other one holds what the revision wrote that made the version. -/
def Complete (first : ℕ → Option VersionRow) (n₀ : ℕ) (d : Deeds) (x : Ledger) : Prop :=
  ∃ n c, x.head = some (n, c) ∧ (∀ v, (x.row v).isSome ↔ 1 ≤ v ∧ v ≤ n) ∧ (∀ v ≤ n₀, x.row v = first v) ∧
    ∀ v row, n₀ < v → x.row v = some row → d.Wrote v row

/-- **The history is orderly**: each version up to the head has its row, or one revision from which it is due, and what
    that revision would record is what it wrote. -/
structure Orderly (first : ℕ → Option VersionRow) (n₀ : ℕ) (d : Deeds) (n : ℕ) (c : Content) (x : Ledger) : Prop where
  head : x.head = some (n, c)
  above : n₀ ≤ n
  kept : ∀ v ≤ n₀, x.row v = first v
  covered : ∀ v, n₀ < v → v ≤ n → x.row v = none → ∃ i, (x.phase i).Due n v
  due : ∀ i v, (x.phase i).Due n v → n₀ < v ∧ v ≤ n ∧ x.row v = none
  once : ∀ i j v, (x.phase i).Due n v → (x.phase j).Due n v → i = j
  tells : ∀ i, (x.phase i).Tells d n c x.metadata i
  wrote : ∀ v row, n₀ < v → x.row v = some row → v ≤ n ∧ d.Wrote v row

variable {first : ℕ → Option VersionRow} {n₀ n : ℕ} {d d' : Deeds} {c : Content} {x x' : Ledger} {i : ℕ}

theorem Orderly.within (h : Orderly first n₀ d n c x) (hd : d.Within d') : Orderly first n₀ d' n c x where
  head := h.head
  above := h.above
  kept := h.kept
  covered := h.covered
  due := h.due
  once := h.once
  tells j := (h.tells j).within hd
  wrote v row hv hrow := ⟨(h.wrote v row hv hrow).1, (h.wrote v row hv hrow).2.within hd⟩

theorem Orderly.open_once (h : Orderly first n₀ d n c x) {j : ℕ} (hi : (x.phase i).Open) (hj : (x.phase j).Open) :
    i = j :=
  h.once i j n (hi.due n) (hj.due n)

/-! ## What keeps the history orderly -/

/-- The head is updated, where no other revision is between its update and its reading the head again. -/
theorem Orderly.update {c' : Content} (h : Orderly first n₀ d n c x) (hphase : x.phase i = .reading)
    (hmade : d.made i (n + 1) c') (hopen : ∀ j, ¬ (x.phase j).Open) : Orderly first n₀ d (n + 1) c'
      { x with head := some (n + 1, c'), phase := Function.update x.phase i .updated } where
  head := rfl
  above := Nat.le_succ_of_le h.above
  kept := h.kept
  covered v hv hle hrow := by
    rcases Nat.lt_or_ge n v with hn | hn
    · refine ⟨i, ?_⟩
      simp only [Function.update_self]
      show v = n + 1
      omega
    · obtain ⟨j, hj⟩ := h.covered v hv hn hrow
      have hji : j ≠ i := by
        rintro rfl
        rw [hphase] at hj
        exact hj
      refine ⟨j, ?_⟩
      simp only [Function.update_of_ne hji]
      exact hj.of_not_open (hopen j)
  due := by
    refine (Function.forall_update_iff x.phase fun _ phase =>
      ∀ v, phase.Due (n + 1) v → n₀ < v ∧ v ≤ n + 1 ∧ x.row v = none).mpr ⟨?_, fun j _ v hj => ?_⟩
    · rintro v rfl
      have hlt : n₀ < n + 1 := Nat.lt_succ_of_le h.above
      refine ⟨hlt, le_rfl, Option.eq_none_iff_forall_ne_some.mpr fun row hrow => ?_⟩
      -- no row is above the head
      have hle := (h.wrote (n + 1) row hlt hrow).1
      omega
    · obtain ⟨hv, hle, hrow⟩ := h.due j v (hj.of_not_open (hopen j))
      exact ⟨hv, Nat.le_succ_of_le hle, hrow⟩
  once := by
    -- what is due from the others is not above the old head
    have hother : ∀ j v, (x.phase j).Due (n + 1) v → v ≠ n + 1 := fun j v hj heq => by
      have hle := (h.due j v (hj.of_not_open (hopen j))).2.1
      omega
    intro j k v hj hk
    dsimp only at hj hk
    by_cases hji : j = i
    · by_cases hki : k = i
      · rw [hji, hki]
      · rw [hji, Function.update_self] at hj
        rw [Function.update_of_ne hki] at hk
        exact absurd hj (hother k v hk)
    · rw [Function.update_of_ne hji] at hj
      by_cases hki : k = i
      · rw [hki, Function.update_self] at hk
        exact absurd hk (hother j v hj)
      · rw [Function.update_of_ne hki] at hk
        exact h.once j k v (hj.of_not_open (hopen j)) (hk.of_not_open (hopen k))
  tells := (Function.forall_update_iff x.phase fun j phase => phase.Tells d (n + 1) c' x.metadata j).mpr
    ⟨hmade, fun j _ => (h.tells j).of_not_open (hopen j)⟩
  wrote v row hv hrow := ⟨Nat.le_succ_of_le (h.wrote v row hv hrow).1, (h.wrote v row hv hrow).2⟩

variable {next : Phase}

theorem Orderly.rephase {metadata : Metadata} (h : Orderly first n₀ d n c x) (hopen : (x.phase i).Open)
    (hnext : ∀ v, next.Due n v ↔ v = n) (htells : next.Tells d n c metadata i) : Orderly first n₀ d n c
      { x with metadata, phase := Function.update x.phase i next } := by
  have hdue : ∀ j v, (Function.update x.phase i next j).Due n v ↔ (x.phase j).Due n v := by
    refine (Function.forall_update_iff x.phase fun j phase => ∀ v, phase.Due n v ↔ (x.phase j).Due n v).mpr
      ⟨fun v => (hnext v).trans ⟨?_, hopen.of_due⟩, fun j _ v => Iff.rfl⟩
    rintro rfl
    exact hopen.due v
  exact {
    head := h.head
    above := h.above
    kept := h.kept
    covered := fun v hv hle hrow => by
      obtain ⟨j, hj⟩ := h.covered v hv hle hrow
      exact ⟨j, (hdue j v).mpr hj⟩
    due := fun j v hj => h.due j v ((hdue j v).mp hj)
    once := fun j k v hj hk => h.once j k v ((hdue j v).mp hj) ((hdue k v).mp hk)
    tells := (Function.forall_update_iff x.phase fun j phase => phase.Tells d n c metadata j).mpr
      ⟨htells, fun j hji => (h.tells j).of_not_open fun hj => hji (h.open_once hj hopen)⟩
    wrote := h.wrote }

/-- The row that is due is recorded. -/
theorem Orderly.record {metadata : Metadata} {change : VersionChange} (h : Orderly first n₀ d n c x)
    (hphase : x.phase i = .reread metadata change.artifact) : Orderly first n₀ d n c
      { x with
        row := Function.update x.row change.row.version (some change.row)
        phase := Function.update x.phase i .recorded } := by
  have hi : (x.phase i).Due n change.row.version := by
    rw [hphase]
    exact rfl
  obtain ⟨hv, hle, -⟩ := h.due i _ hi
  -- nothing is due from the revision any more, and from the others what was
  have hdue : ∀ j v, (Function.update x.phase i .recorded j).Due n v → j ≠ i ∧ (x.phase j).Due n v :=
    (Function.forall_update_iff x.phase fun j phase => ∀ v, phase.Due n v → j ≠ i ∧ (x.phase j).Due n v).mpr
      ⟨fun v hj => hj.elim, fun j hji v hj => ⟨hji, hj⟩⟩
  exact {
    head := h.head
    above := h.above
    kept := fun v hle => by
      have hne : v ≠ change.row.version := by omega
      simp only [Function.update_of_ne hne]
      exact h.kept v hle
    covered := fun v hv hle hrow => by
      dsimp only at hrow
      have hne : v ≠ change.row.version := by
        rintro rfl
        rw [Function.update_self] at hrow
        cases hrow
      rw [Function.update_of_ne hne] at hrow
      obtain ⟨j, hj⟩ := h.covered v hv hle hrow
      have hji : j ≠ i := by
        rintro rfl
        rw [hphase] at hj
        exact hne hj
      refine ⟨j, ?_⟩
      simp only [Function.update_of_ne hji]
      exact hj
    due := fun j v hj => by
      obtain ⟨hji, hj⟩ := hdue j v hj
      obtain ⟨hv, hle, hrow⟩ := h.due j v hj
      refine ⟨hv, hle, ?_⟩
      have hne : v ≠ change.row.version := by
        rintro rfl
        exact hji (h.once j i _ hj hi)
      simp only [Function.update_of_ne hne]
      exact hrow
    once := fun j k v hj hk => h.once j k v (hdue j v hj).2 (hdue k v hk).2
    tells := (Function.forall_update_iff x.phase fun j phase => phase.Tells d n c x.metadata j).mpr
      ⟨trivial, fun j _ => h.tells j⟩
    wrote := fun v row hv hrow => by
      dsimp only at hrow
      by_cases hne : v = change.row.version
      · subst hne
        rw [Function.update_self] at hrow
        cases hrow
        have htells := h.tells i
        rw [hphase] at htells
        exact ⟨hle, i, htells⟩
      · rw [Function.update_of_ne hne] at hrow
        exact h.wrote v row hv hrow }

/-- **What keeps the history orderly**: where the head changes, no other revision is between its update and its reading
    the head again. -/
theorem Orderly.advance (h : Orderly first n₀ d n c x) (hadvance : Advance d i x x')
    (hopen : x'.head ≠ x.head → ∀ j, ¬ (x.phase j).Open) : ∃ n' c', Orderly first n₀ d n' c' x' := by
  cases hadvance with
  | idle => exact ⟨n, c, h⟩
  | @update m c₁ c' hphase hhead hmade =>
    have hsame := hhead.symm.trans h.head
    cases hsame
    refine ⟨n + 1, c', h.update hphase hmade (hopen ?_)⟩
    rw [h.head]
    simp
  | @describe metadata hphase hdescribed =>
    have htells := h.tells i
    rw [hphase] at htells
    refine ⟨n, c, h.rephase ?_ (fun v => Iff.rfl) ⟨htells, hdescribed, rfl⟩⟩
    rw [hphase]
    trivial
  | @reread metadata record hphase hhead hmetadata =>
    have htells := h.tells i
    rw [hphase] at htells
    have hsame := hhead.symm.trans h.head
    simp only [Option.some.injEq, Prod.mk.injEq] at hsame
    obtain ⟨rfl, rfl⟩ := hsame
    refine ⟨_, _, h.rephase ?_ (fun v => Iff.rfl) ⟨htells.1, ?_⟩⟩
    · rw [hphase]
      trivial
    · rw [hmetadata, htells.2.2]
      exact htells.2.1
  | record hphase hrow => exact ⟨n, c, h.record hphase⟩

/-- **An orderly history is complete** exactly when every revision is settled. -/
theorem Orderly.complete_iff (h : Orderly first n₀ d n c x) (hfirst : ∀ v, (first v).isSome ↔ 1 ≤ v ∧ v ≤ n₀) :
    x.Complete first n₀ d ↔ ∀ i, (x.phase i).Settled := by
  constructor
  · rintro ⟨n', c', hhead, hrows, -⟩ i
    cases h.head.symm.trans hhead
    refine (Phase.settled_iff n).mpr fun v hv => ?_
    obtain ⟨hlt, hle, hrow⟩ := h.due i v hv
    have hsome := (hrows v).mpr ⟨by omega, hle⟩
    rw [hrow] at hsome
    cases hsome
  · intro hsettled
    refine ⟨n, c, h.head, fun v => ?_, h.kept, fun v row hv hrow => (h.wrote v row hv hrow).2⟩
    rcases Nat.lt_or_ge n₀ v with hv | hv
    · constructor
      · intro hsome
        obtain ⟨row, hrow⟩ := Option.isSome_iff_exists.mp hsome
        exact ⟨by omega, (h.wrote v row hv hrow).1⟩
      · rintro ⟨-, hle⟩
        by_contra hnone
        obtain ⟨i, hi⟩ := h.covered v hv hle (Option.not_isSome_iff_eq_none.mp hnone)
        exact (Phase.settled_iff n).mp (hsettled i) v hi
    · rw [h.kept v hv, hfirst]
      have hle := h.above
      omega

/-! ## What is lost -/

/-- **A version is lost**: it is below the head, it has no row, and no revision has read it. -/
def Lost (x : Ledger) : Prop :=
  ∃ v n c, 1 ≤ v ∧ v < n ∧ x.head = some (n, c) ∧ x.row v = none ∧ ∀ i, (x.phase i).Unread v

theorem unread_update {v : ℕ} {phase : ℕ → Phase} (h : ∀ j, (phase j).Unread v) (hnext : next.Unread v) :
    ∀ j, (Function.update phase i next j).Unread v :=
  (Function.forall_update_iff phase fun _ phase => phase.Unread v).mpr ⟨hnext, fun j _ => h j⟩

/-- **A head updated too early**: another revision has updated it and not read it again. -/
theorem Orderly.lost (h : Orderly first n₀ d n c x) (hadvance : Advance d i x x') (hhead : x'.head ≠ x.head) {j : ℕ}
    (hj : (x.phase j).Open) : x'.Lost := by
  cases hadvance with
  | @update m c₁ c' hphase hm hmade =>
    cases hm.symm.trans h.head
    obtain ⟨hlt, -, hrow⟩ := h.due j n (hj.due n)
    refine ⟨n, n + 1, c', by omega, by omega, rfl, hrow, unread_update (fun k => ?_) trivial⟩
    -- otherwise the version is due twice
    cases hk : x.phase k with
    | reread metadata record =>
      rintro rfl
      have hdue : (x.phase k).Due record.artifact.version record.artifact.version := by
        rw [hk]
        rfl
      rw [← h.once k j _ hdue (hj.due _), hk] at hj
      exact hj
    | _ => trivial
  | _ => exact absurd rfl hhead

/-- **What is lost stays lost.** -/
theorem Lost.advance (h : x.Lost) (hadvance : Advance d i x x') : x'.Lost := by
  obtain ⟨v, n, c, hv, hlt, hhead, hrow, hread⟩ := h
  cases hadvance with
  | idle => exact ⟨v, n, c, hv, hlt, hhead, hrow, hread⟩
  | @update m c₁ c' hphase hm hmade =>
    cases hm.symm.trans hhead
    exact ⟨v, n + 1, c', hv, by omega, rfl, hrow, unread_update hread trivial⟩
  | describe hphase hdescribed => exact ⟨v, n, c, hv, hlt, hhead, hrow, unread_update hread trivial⟩
  | @reread metadata record hphase hm hmetadata =>
    -- the head it reads is above the version
    have hsame := hm.symm.trans hhead
    simp only [Option.some.injEq, Prod.mk.injEq] at hsame
    have hne : record.artifact.version ≠ v := by omega
    exact ⟨v, n, c, hv, hlt, hhead, hrow, unread_update hread hne⟩
  | @record metadata change hphase hnone =>
    have hread' := hread i
    rw [hphase] at hread'
    have hne : v ≠ change.row.version := Ne.symm hread'
    refine ⟨v, n, c, hv, hlt, hhead, ?_, unread_update hread trivial⟩
    simp only [Function.update_of_ne hne]
    exact hrow

theorem Lost.not_complete (h : x.Lost) : ¬ x.Complete first n₀ d := by
  obtain ⟨v, n, c, hv, hlt, hhead, hrow, -⟩ := h
  rintro ⟨n', c', hhead', hrows, -⟩
  cases hhead.symm.trans hhead'
  have hsome := (hrows v).mpr ⟨hv, by omega⟩
  rw [hrow] at hsome
  cases hsome

end Ledger

end Projects
