import MissionControl.Memory.Guarantees
import MissionControl.Memory.Resolution

/-! # Conversations of one project

A write looks at the active record of its subject whichever thread that is from. A conversation is so isolated from another
thread exactly when the two do not meet at an active record (`conversation_isolated_iff`). -/

namespace Memory

open Canonical Transition

/-! ## What a write does, as a function of the active records -/

variable {records F P : List MemoryRecord} {w : Write} {fresh : Fresh} {a r : MemoryRecord}

section

variable [JsonHash]

/-- The record has what the write says already. -/
def MemoryRecord.Repeats (r : MemoryRecord) (w : Write) : Prop :=
  r.content_hash = w.content_hash ∧ r.authority = w.authority

instance (r : MemoryRecord) (w : Write) : Decidable (r.Repeats w) := inferInstanceAs (Decidable (_ ∧ _))

/-- The record has more authority than the write. -/
def MemoryRecord.Outranks (r : MemoryRecord) (w : Write) : Prop := authority_rank w.authority < authority_rank r.authority

instance (r : MemoryRecord) (w : Write) : Decidable (r.Outranks w) := inferInstanceAs (Decidable (_ < _))

/-- An active record that gives way to the write. -/
def MemoryRecord.Yields (r : MemoryRecord) (w : Write) : Prop :=
  r.status = .ACTIVE ∧ r.subject = w.subject ∧ ¬ r.Outranks w ∧ ¬ r.Repeats w

instance (r : MemoryRecord) (w : Write) : Decidable (r.Yields w) := inferInstanceAs (Decidable (_ ∧ _ ∧ _ ∧ _))

/-- A record after the write. -/
def Write.retire (w : Write) (r : MemoryRecord) : MemoryRecord := if r.Yields w then { r with status := .SUPERSEDED } else r

/-- The row a write adds, by the active records of its subject. -/
def Write.added (w : Write) (fresh : Fresh) : List MemoryRecord → List MemoryRecord
  | [] => [w.record fresh .ACTIVE none]
  | top :: _ =>
    if top.Repeats w then []
    else if top.Outranks w then [w.record fresh .QUARANTINED none]
    else [w.record fresh .ACTIVE (some top.memory_id)]

theorem retire_of_not (h : ¬ r.Yields w) : w.retire r = r := if_neg h

theorem map_retire_of_none (h : ∀ r ∈ records, ¬ r.Yields w) : records.map w.retire = records := by
  conv_rhs => rw [← List.map_id records]
  exact List.map_congr_left fun r hr => retire_of_not (h r hr)

theorem decide_write_one (w : Write) (top : MemoryRecord) : decide_write w.authority w.content_hash [top] =
    if top.Repeats w then ⟨.DUPLICATE, some top.memory_id, some "identical content already active"⟩
    else if top.Outranks w then ⟨.QUARANTINED, none, some (w.authority.value ++ " cannot override active " ++
      top.authority.value ++ " memory " ++ top.memory_id)⟩
    else ⟨.ACTIVE, some top.memory_id, none⟩ := by
  unfold decide_write
  rw [List.insertionSort_cons, List.insertionSort_nil, List.orderedInsert_nil]
  dsimp only
  by_cases hrepeats : top.Repeats w
  · rw [if_pos hrepeats]
    exact if_pos hrepeats
  · rw [if_neg hrepeats]
    refine (if_neg hrepeats).trans ?_
    by_cases houtranks : top.Outranks w
    · rw [if_pos houtranks]
      exact if_pos houtranks
    · rw [if_neg houtranks]
      refine (if_neg houtranks).trans ?_
      have hrank : authority_rank top.authority ≤ authority_rank w.authority := Nat.le_of_not_lt houtranks
      rw [List.filter_cons_of_pos (by simpa using hrank)]
      rfl

/-- **A write retires what gives way to it, and adds at most one row.** -/
theorem applyWrite_eq (hids : Ids records) (hone : OneActive records) (w : Write) (fresh : Fresh) :
    (applyWrite records w fresh).2 =
      records.map w.retire ++ w.added fresh (_active_for_subject records w.subject) := by
  unfold applyWrite
  rcases active_cases hids hone w.subject with ⟨hactive, hnone⟩ | ⟨top, htop, hstatus, hsubject, hactive⟩
  · rw [hactive, map_retire_of_none fun r hr hyields => hnone r hr hyields.1 hyields.2.1]
    rfl
  · have honly : ∀ r ∈ records, r.Yields w → r = top := fun r hr hyields =>
      hone r hr top htop hyields.1 hstatus (hyields.2.1.trans hsubject.symm)
    rw [hactive]
    dsimp only
    rw [decide_write_one]
    unfold Write.added
    dsimp only
    by_cases hrepeats : top.Repeats w
    · rw [if_pos hrepeats, if_pos hrepeats, List.append_nil, map_retire_of_none]
      intro r hr hyields
      exact hyields.2.2.2 (honly r hr hyields ▸ hrepeats)
    · rw [if_neg hrepeats, if_neg hrepeats]
      by_cases houtranks : top.Outranks w
      · rw [if_pos houtranks, if_pos houtranks, map_retire_of_none]
        intro r hr hyields
        exact hyields.2.2.1 (honly r hr hyields ▸ houtranks)
      · rw [if_neg houtranks, if_neg houtranks]
        show setStatus records .SUPERSEDED top.memory_id ++ _ = _
        congr 1
        apply List.map_congr_left
        intro r hr
        by_cases hid : r.memory_id = top.memory_id
        · obtain rfl := hids.eq hr htop hid
          rw [if_pos rfl]
          exact (if_pos ⟨hstatus, hsubject, houtranks, hrepeats⟩).symm
        · rw [if_neg hid]
          exact (retire_of_not fun hyields => hid (by rw [honly r hr hyields])).symm

/-! ## Calls in the threads of a project -/

/-- A call of `write_memory`, with what its transaction is given. -/
structure WriteCall where
  write : Write
  fresh : Fresh

/-- The records after a call: a refused one leaves them. -/
def WriteCall.after (projects : List String) (records : List MemoryRecord) (c : WriteCall) : List MemoryRecord :=
  recordsOr records (write_memory projects records c.write c.fresh)

/-- The records after calls, one after another. -/
def afterAll (projects : List String) (records : List MemoryRecord) (calls : List WriteCall) : List MemoryRecord :=
  calls.foldl (WriteCall.after projects) records

/-- `uuid4` gives each of the calls an identifier of its own. -/
structure Issued (records : List MemoryRecord) (calls : List WriteCall) : Prop where
  distinct : (calls.map (·.fresh.memory_id)).Nodup
  unused : ∀ c ∈ calls, ∀ r ∈ records, r.memory_id ≠ c.fresh.memory_id

/-- The write is made in a thread of the project. -/
def Write.In (w : Write) (project_id thread_id : String) : Prop :=
  w.project_id = some project_id ∧ w.thread_id = some thread_id

instance (w : Write) (project_id thread_id : String) : Decidable (w.In project_id thread_id) :=
  inferInstanceAs (Decidable (_ ∧ _))

/-- The calls but for those made in a thread. -/
def without (project_id thread_id : String) (calls : List WriteCall) : List WriteCall :=
  calls.filter fun c => ¬ c.write.In project_id thread_id

/-- A record of the conversation of a thread. -/
def MemoryRecord.OfConversation (r : MemoryRecord) (project_id thread_id : String) : Prop :=
  r.scope = .M3_CONVERSATION ∧ r.project_id = some project_id ∧ r.thread_id = some thread_id

instance (r : MemoryRecord) (project_id thread_id : String) : Decidable (r.OfConversation project_id thread_id) :=
  inferInstanceAs (Decidable (_ ∧ _ ∧ _))

/-- What a resolution says about some of the records. -/
structure Seen where
  winner : Option MemoryRecord
  shadowed : List String
  stale : List String

/-- What a resolution says about the conversation of a thread: nothing when it raises. -/
def seen (records : List MemoryRecord) (project_id thread_id : String) : Option Resolution → Seen
  | none => ⟨none, [], []⟩
  | some result =>
    let owned := fun id => records.any fun r => r.memory_id = id ∧ r.OfConversation project_id thread_id
    ⟨result.winner.filter fun r => r.OfConversation project_id thread_id, result.shadowed.filter owned,
      result.stale.filter owned⟩

/-- The conversation of a thread is the same in two tables, and so is what any resolution says about it. -/
structure SameConversation (project_id thread_id : String) (F P : List MemoryRecord) : Prop where
  records : F.filter (fun r => r.OfConversation project_id thread_id) =
    P.filter fun r => r.OfConversation project_id thread_id
  resolved : ∀ tenant_id subject_key now,
    seen F project_id thread_id (resolve_memory F tenant_id project_id subject_key now) =
      seen P project_id thread_id (resolve_memory P tenant_id project_id subject_key now)

/-- **The conversation of a thread is isolated** from another thread: however far the calls have come, it is as if the other
    thread had made none of them. -/
def Isolated (projects : List String) (records : List MemoryRecord) (project_id mine other : String)
    (calls : List WriteCall) : Prop :=
  ∀ done rest, calls = done ++ rest → SameConversation project_id mine (afterAll projects records done)
    (afterAll projects records (without project_id other done))

/-- The active record of the subject is one record in both tables, or one in each outranks the write, or repeats it. -/
def SameStand (w : Write) (F P : List MemoryRecord) : Prop :=
  (_active_for_subject F w.subject).map (·.memory_id) = (_active_for_subject P w.subject).map (·.memory_id) ∨
  ((∃ f ∈ _active_for_subject F w.subject, f.Outranks w) ∧ ∃ p ∈ _active_for_subject P w.subject, p.Outranks w) ∨
  ((∃ f ∈ _active_for_subject F w.subject, f.Repeats w) ∧ ∃ p ∈ _active_for_subject P w.subject, p.Repeats w)

/-- **The two threads do not meet** at a call that is not refused, made in tables with and without the other thread. -/
structure Unmoved (projects : List String) (project_id mine other : String) (F P : List MemoryRecord) (c : WriteCall) : Prop where
  /-- No record of the conversation gives way to a write of the other thread. -/
  spared : checkWrite projects c.write = .ok () → c.write.In project_id other →
    ∀ a ∈ F, a.OfConversation project_id mine → ¬ a.Yields c.write
  /-- A write of the conversation stands to the active record as it does without the other thread. -/
  alone : checkWrite projects c.write = .ok () → c.write.scope = .M3_CONVERSATION → c.write.In project_id mine →
    SameStand c.write F P

/-! ## What the tables have in common -/

variable {project_id mine other : String} {projects : List String} {c : WriteCall} {rest : List WriteCall}
  {active : List MemoryRecord}

/-- The records that are compared: those of the conversation, and those outside the project. -/
def MemoryRecord.Counts (r : MemoryRecord) (project_id mine : String) : Prop :=
  r.OfConversation project_id mine ∨ r.project_id ≠ some project_id

instance (r : MemoryRecord) (project_id mine : String) : Decidable (r.Counts project_id mine) :=
  inferInstanceAs (Decidable (_ ∨ _))

theorem retire_eq (w : Write) (r : MemoryRecord) : w.retire r = { r with status := (w.retire r).status } := by
  unfold Write.retire
  split <;> rfl

theorem retire_counts : (w.retire r).Counts project_id mine ↔ r.Counts project_id mine := by
  rw [retire_eq]
  exact Iff.rfl

theorem retire_ofConversation : (w.retire r).OfConversation project_id mine ↔ r.OfConversation project_id mine := by
  rw [retire_eq]
  exact Iff.rfl

theorem not_yields_of_retire (h : w.retire r = r) : ¬ r.Yields w := by
  intro hyields
  have hstatus : (w.retire r).status = .SUPERSEDED := by
    unfold Write.retire
    rw [if_pos hyields]
  rw [h, hyields.1] at hstatus
  cases hstatus

theorem mem_added (h : r ∈ w.added fresh active) : ∃ status supersedes, r = w.record fresh status supersedes := by
  unfold Write.added at h
  split at h
  · exact ⟨_, _, List.mem_singleton.mp h⟩
  · split at h
    · cases h
    · split at h
      · exact ⟨_, _, List.mem_singleton.mp h⟩
      · exact ⟨_, _, List.mem_singleton.mp h⟩

theorem filter_counts_retire : (records.map w.retire).filter (fun r => r.Counts project_id mine) =
    (records.filter fun r => r.Counts project_id mine).map w.retire := by
  rw [List.filter_map]
  congr 1
  apply List.filter_congr
  intro r _
  exact decide_eq_decide.mpr retire_counts

theorem filter_conversation_retire : (records.map w.retire).filter (fun r => r.OfConversation project_id mine) =
    (records.filter fun r => r.OfConversation project_id mine).map w.retire := by
  rw [List.filter_map]
  congr 1
  apply List.filter_congr
  intro r _
  exact decide_eq_decide.mpr retire_ofConversation

/-- Two tables, one without the calls of the other thread, before some more calls. -/
structure Beside (project_id mine : String) (rest : List WriteCall) (F P : List MemoryRecord) : Prop where
  ids : Ids F
  ids' : Ids P
  one : OneActive F
  one' : OneActive P
  issued : Issued F rest
  issued' : Issued P rest
  /-- A record that is in both has one content. -/
  shared : ∀ f ∈ F, ∀ p ∈ P, f.memory_id = p.memory_id → f.content_hash = p.content_hash ∧ f.authority = p.authority
  counted : F.filter (fun r => r.Counts project_id mine) = P.filter fun r => r.Counts project_id mine

/-- A write adds the same row to both tables exactly when it finds the same. -/
theorem added_eq_iff (h : Beside project_id mine rest F P) :
    w.added fresh (_active_for_subject F w.subject) = w.added fresh (_active_for_subject P w.subject) ↔ SameStand w F P := by
  unfold SameStand
  rcases active_cases h.ids h.one w.subject with ⟨hactive, -⟩ | ⟨f, hf, -, -, hactive⟩
  · rcases active_cases h.ids' h.one' w.subject with ⟨hactive', -⟩ | ⟨p, hp, -, -, hactive'⟩
    · rw [hactive, hactive']
      simp
    · rw [hactive, hactive']
      unfold Write.added
      dsimp only
      by_cases hrepeats : p.Repeats w
      · simp [hrepeats]
      · by_cases houtranks : p.Outranks w
        · simp [hrepeats, houtranks, Write.record]
        · simp [hrepeats, houtranks, Write.record]
  · rcases active_cases h.ids' h.one' w.subject with ⟨hactive', -⟩ | ⟨p, hp, -, -, hactive'⟩
    · rw [hactive, hactive']
      unfold Write.added
      dsimp only
      by_cases hrepeats : f.Repeats w
      · simp [hrepeats]
      · by_cases houtranks : f.Outranks w
        · simp [hrepeats, houtranks, Write.record]
        · simp [hrepeats, houtranks, Write.record]
    · have hsame : f.memory_id = p.memory_id → (f.Repeats w ↔ p.Repeats w) ∧ (f.Outranks w ↔ p.Outranks w) := by
        intro hid
        obtain ⟨hhash, hauthority⟩ := h.shared f hf p hp hid
        unfold MemoryRecord.Repeats MemoryRecord.Outranks
        rw [hhash, hauthority]
        exact ⟨Iff.rfl, Iff.rfl⟩
      have hlower : ∀ r : MemoryRecord, r.Outranks w → ¬ r.Repeats w := by
        rintro r hrank ⟨-, hauthority⟩
        unfold MemoryRecord.Outranks at hrank
        rw [hauthority] at hrank
        exact lt_irrefl _ hrank
      rw [hactive, hactive']
      unfold Write.added
      dsimp only
      by_cases hid : f.memory_id = p.memory_id
      · -- one record stands to the write in one way
        obtain ⟨hrepeats, houtranks⟩ := hsame hid
        simp [hid, hrepeats, houtranks]
      · by_cases hrepeats : f.Repeats w
        · have houtranks : ¬ f.Outranks w := fun h => hlower f h hrepeats
          by_cases hrepeats' : p.Repeats w
          · simp [hrepeats, hrepeats']
          · by_cases houtranks' : p.Outranks w <;> simp [hid, hrepeats, houtranks, hrepeats', houtranks']
        · by_cases hrepeats' : p.Repeats w
          · have houtranks' : ¬ p.Outranks w := fun h => hlower p h hrepeats'
            by_cases houtranks : f.Outranks w <;> simp [hid, hrepeats, houtranks, hrepeats', houtranks']
          · by_cases houtranks : f.Outranks w <;> by_cases houtranks' : p.Outranks w <;>
              simp [hid, hrepeats, houtranks, hrepeats', houtranks', Write.record]

/-! ## One call -/

theorem after_refused {error : MemoryError} (h : checkWrite projects c.write = .error error) : c.after projects records = records := by
  unfold WriteCall.after write_memory
  rw [h]
  rfl

theorem after_accepted (h : checkWrite projects c.write = .ok ()) :
    c.after projects records = (applyWrite records c.write c.fresh).2 := by
  unfold WriteCall.after write_memory
  rw [h]
  rfl

omit [JsonHash] in
theorem Issued.head (h : Issued records (c :: rest)) : ∀ r ∈ records, r.memory_id ≠ c.fresh.memory_id :=
  h.unused c List.mem_cons_self

omit [JsonHash] in
theorem Issued.tail (h : Issued records (c :: rest)) : Issued records rest :=
  ⟨(List.nodup_cons.mp h.distinct).2, fun c' hc' => h.unused c' (List.mem_cons_of_mem _ hc')⟩

theorem mem_applied (hids : Ids records) (hone : OneActive records) (hr : r ∈ (applyWrite records w fresh).2) :
    (∃ x ∈ records, r.memory_id = x.memory_id ∧ r.content_hash = x.content_hash ∧ r.authority = x.authority) ∨
      ∃ status supersedes, r = w.record fresh status supersedes := by
  rw [applyWrite_eq hids hone, List.mem_append] at hr
  rcases hr with hr | hr
  · obtain ⟨x, hx, rfl⟩ := List.mem_map.mp hr
    rw [retire_eq]
    exact .inl ⟨x, hx, rfl, rfl, rfl⟩
  · exact .inr (mem_added hr)

theorem Issued.applied (hids : Ids records) (hone : OneActive records) (h : Issued records (c :: rest)) :
    Issued (applyWrite records c.write c.fresh).2 rest := by
  refine ⟨h.tail.distinct, fun c' hc' r hr => ?_⟩
  rcases mem_applied hids hone hr with ⟨x, hx, hid, -⟩ | ⟨_, _, rfl⟩
  · rw [hid]
    exact h.tail.unused c' hc' x hx
  · intro heq
    apply (List.nodup_cons.mp h.distinct).1
    exact List.mem_map.mpr ⟨c', hc', heq.symm⟩

theorem Beside.apart (h : Beside project_id mine (c :: rest) F P) (hthread : mine ≠ other)
    (hin : c.write.In project_id other) (hspared : ∀ a ∈ F, a.OfConversation project_id mine → ¬ a.Yields c.write) :
    Beside project_id mine rest (applyWrite F c.write c.fresh).2 P where
  ids := (applyWrite_change h.ids h.one c.write c.fresh).ids h.ids h.issued.head
  ids' := h.ids'
  one := (applyWrite_change h.ids h.one c.write c.fresh).oneActive h.one
  one' := h.one'
  issued := h.issued.applied h.ids h.one
  issued' := h.issued'.tail
  shared f hf p hp hid := by
    rcases mem_applied h.ids h.one hf with ⟨x, hx, hxid, hhash, hauthority⟩ | ⟨_, _, rfl⟩
    · rw [hhash, hauthority]
      exact h.shared x hx p hp (hxid.symm.trans hid)
    · exact absurd hid.symm (h.issued'.head p hp)
  counted := by
    have hnone : (c.write.added c.fresh (_active_for_subject F c.write.subject)).filter
        (fun r => r.Counts project_id mine) = [] := by
      apply List.filter_eq_nil_iff.mpr
      intro r hr
      obtain ⟨_, _, rfl⟩ := mem_added hr
      rw [decide_eq_true_eq]
      rintro (⟨-, -, hmine⟩ | hproject)
      · exact hthread (Option.some.inj (hmine.symm.trans hin.2))
      · exact hproject hin.1
    rw [applyWrite_eq h.ids h.one, List.filter_append, hnone, List.append_nil, filter_counts_retire, map_retire_of_none,
      h.counted]
    intro r hr hyields
    obtain ⟨hmem, hcounts⟩ := List.mem_filter.mp hr
    rcases of_decide_eq_true hcounts with hmine | hproject
    · exact hspared r hmem hmine hyields
    · -- the write is about a subject of the project
      exact hproject ((congrArg Subject.project_id hyields.2.1).trans hin.1)

theorem Beside.both (h : Beside project_id mine (c :: rest) F P)
    (hadded : (c.write.added c.fresh (_active_for_subject F c.write.subject)).filter (fun r => r.Counts project_id mine) =
      (c.write.added c.fresh (_active_for_subject P c.write.subject)).filter fun r => r.Counts project_id mine) :
    Beside project_id mine rest (applyWrite F c.write c.fresh).2 (applyWrite P c.write c.fresh).2 where
  ids := (applyWrite_change h.ids h.one c.write c.fresh).ids h.ids h.issued.head
  ids' := (applyWrite_change h.ids' h.one' c.write c.fresh).ids h.ids' h.issued'.head
  one := (applyWrite_change h.ids h.one c.write c.fresh).oneActive h.one
  one' := (applyWrite_change h.ids' h.one' c.write c.fresh).oneActive h.one'
  issued := h.issued.applied h.ids h.one
  issued' := h.issued'.applied h.ids' h.one'
  shared f hf p hp hid := by
    rcases mem_applied h.ids h.one hf with ⟨x, hx, hxid, hhash, hauthority⟩ | ⟨_, _, rfl⟩
    · rcases mem_applied h.ids' h.one' hp with ⟨y, hy, hyid, hhash', hauthority'⟩ | ⟨_, _, rfl⟩
      · rw [hhash, hauthority, hhash', hauthority']
        exact h.shared x hx y hy (hxid.symm.trans (hid.trans hyid))
      · exact absurd (hxid.symm.trans hid) (h.issued.head x hx)
    · rcases mem_applied h.ids' h.one' hp with ⟨y, hy, hyid, -⟩ | ⟨_, _, rfl⟩
      · exact absurd (hyid.symm.trans hid.symm) (h.issued'.head y hy)
      · exact ⟨rfl, rfl⟩
  counted := by
    rw [applyWrite_eq h.ids h.one, applyWrite_eq h.ids' h.one', List.filter_append, List.filter_append, filter_counts_retire,
      filter_counts_retire, h.counted, hadded]

omit [JsonHash] in
theorem Beside.active_outside (h : Beside project_id mine rest F P) (hproject : w.project_id ≠ some project_id) :
    _active_for_subject F w.subject = _active_for_subject P w.subject := by
  have hcounted : ∀ records : List MemoryRecord, _active_for_subject records w.subject =
      _active_for_subject (records.filter fun r => r.Counts project_id mine) w.subject := by
    intro records
    unfold _active_for_subject
    rw [List.filter_filter]
    apply List.filter_congr
    intro r _
    rw [← Bool.decide_and, decide_eq_decide]
    refine (and_iff_left_of_imp fun hsubject => ?_).symm
    have hsame : r.project_id = w.project_id := congrArg Subject.project_id hsubject.1
    exact .inr fun heq => hproject (hsame.symm.trans heq)
  rw [hcounted F, hcounted P, h.counted]

omit [JsonHash] in
theorem Beside.conversation (h : Beside project_id mine rest F P) : F.filter (fun r => r.OfConversation project_id mine) =
    P.filter fun r => r.OfConversation project_id mine := by
  have hcounted : ∀ records : List MemoryRecord, records.filter (fun r => r.OfConversation project_id mine) =
      (records.filter fun r => r.Counts project_id mine).filter fun r => r.OfConversation project_id mine := by
    intro records
    rw [List.filter_filter]
    apply List.filter_congr
    intro r _
    rw [← Bool.decide_and, decide_eq_decide]
    exact (and_iff_left_of_imp .inl).symm
  rw [hcounted F, hcounted P, h.counted]

/-- **A call in which the threads do not meet** keeps the tables beside each other. -/
theorem Beside.step (h : Beside project_id mine (c :: rest) F P) (hthread : mine ≠ other)
    (hunmoved : Unmoved projects project_id mine other F P c) :
    Beside project_id mine rest (c.after projects F) (if c.write.In project_id other then P else c.after projects P) := by
  cases hcheck : checkWrite projects c.write with
  | error error =>
    rw [after_refused hcheck, after_refused hcheck, ite_self]
    exact ⟨h.ids, h.ids', h.one, h.one', h.issued.tail, h.issued'.tail, h.shared, h.counted⟩
  | ok u =>
    rw [after_accepted hcheck, after_accepted hcheck]
    by_cases hin : c.write.In project_id other
    · rw [if_pos hin]
      exact h.apart hthread hin (hunmoved.spared hcheck hin)
    · rw [if_neg hin]
      apply h.both
      by_cases hproject : c.write.project_id = some project_id
      · by_cases hmine : c.write.scope = .M3_CONVERSATION ∧ c.write.In project_id mine
        · -- a write of the conversation finds the same in both tables
          rw [(added_eq_iff h).mpr (hunmoved.alone hcheck hmine.1 hmine.2)]
        · -- another write of the project adds nothing that is counted
          have hnone : ∀ active, (c.write.added c.fresh active).filter (fun r => r.Counts project_id mine) = [] := by
            intro active
            apply List.filter_eq_nil_iff.mpr
            intro r hr
            obtain ⟨_, _, rfl⟩ := mem_added hr
            rw [decide_eq_true_eq]
            rintro (⟨hscope, -, hthread'⟩ | houtside)
            · exact hmine ⟨hscope, hproject, hthread'⟩
            · exact houtside hproject
          rw [hnone, hnone]
      · rw [h.active_outside hproject]

/-- **A call after which the conversation is the same** is one in which the threads did not meet. -/
theorem Beside.unmoved (h : Beside project_id mine (c :: rest) F P) (hthread : mine ≠ other)
    (hsame : (c.after projects F).filter (fun r => r.OfConversation project_id mine) =
      (if c.write.In project_id other then P else c.after projects P).filter fun r => r.OfConversation project_id mine) :
    Unmoved projects project_id mine other F P c := by
  constructor
  · intro hcheck hin a ha hmine
    rw [if_pos hin, after_accepted hcheck, applyWrite_eq h.ids h.one, List.filter_append, filter_conversation_retire,
      ← h.conversation] at hsame
    have hlength := congrArg List.length hsame
    rw [List.length_append, List.length_map] at hlength
    have hnone : (c.write.added c.fresh (_active_for_subject F c.write.subject)).filter
        (fun r => r.OfConversation project_id mine) = [] := List.eq_nil_of_length_eq_zero (by omega)
    rw [hnone, List.append_nil] at hsame
    have hfixed : ∀ r ∈ F.filter (fun r => r.OfConversation project_id mine), c.write.retire r = r := by
      intro r hr
      apply List.map_inj_left.mp _ r hr
      rw [hsame, List.map_id']
    exact not_yields_of_retire (hfixed a (List.mem_filter.mpr ⟨ha, decide_eq_true hmine⟩))
  · intro hcheck hscope hin
    have hnot : ¬ c.write.In project_id other := fun hother => hthread (Option.some.inj (hin.2.symm.trans hother.2))
    rw [if_neg hnot, after_accepted hcheck, after_accepted hcheck, applyWrite_eq h.ids h.one, applyWrite_eq h.ids' h.one',
      List.filter_append, List.filter_append, filter_conversation_retire, filter_conversation_retire, h.conversation] at hsame
    have hadded := List.append_cancel_left hsame
    have hown : ∀ active, (c.write.added c.fresh active).filter (fun r => r.OfConversation project_id mine) =
        c.write.added c.fresh active := by
      intro active
      apply List.filter_eq_self.mpr
      intro r hr
      obtain ⟨_, _, rfl⟩ := mem_added hr
      exact decide_eq_true ⟨hscope, hin.1, hin.2⟩
    rw [hown, hown] at hadded
    exact (added_eq_iff h).mp hadded

/-! ## What is seen of the conversation -/

variable {tenant_id subject_key : String} {now : Int}

section
omit [JsonHash]

theorem seen_nothing (hids : Ids records) (hnone : ∀ r ∈ records, r.OfConversation project_id mine → r.status = .ACTIVE →
    r.subject ≠ ⟨tenant_id, some project_id, subject_key⟩) :
    seen records project_id mine (resolve_memory records tenant_id project_id subject_key now) = ⟨none, [], []⟩ := by
  have hselected : ∀ r ∈ selected records tenant_id project_id subject_key, r.status = .ACTIVE →
      ¬ r.OfConversation project_id mine := by
    intro r hr hactive hmine
    obtain ⟨hmem, hrow⟩ := List.mem_filter.mp hr
    obtain ⟨htenant, hkey, -⟩ := of_decide_eq_true hrow
    apply hnone r hmem hmine hactive
    unfold MemoryRecord.subject
    rw [htenant, hkey, hmine.2.1]
  cases hresult : resolve_memory records tenant_id project_id subject_key now with
  | none => rfl
  | some result =>
    obtain ⟨hwinner, hlisted⟩ := resolve_active hresult
    have hids' : ∀ ids : List String, ids ⊆ result.shadowed ++ result.stale →
        ids.filter (fun id => records.any fun r => r.memory_id = id ∧ r.OfConversation project_id mine) = [] := by
      intro ids hsub
      apply List.filter_eq_nil_iff.mpr
      intro id hid howned
      obtain ⟨r, hr, hown⟩ := List.any_eq_true.mp howned
      obtain ⟨hrid, hmine⟩ := of_decide_eq_true hown
      obtain ⟨x, hx, hactive, hxid⟩ := hlisted id (hsub hid)
      -- the record it is the identifier of
      obtain rfl := hids.eq hr (List.mem_filter.mp hx).1 (hrid.trans hxid.symm)
      exact hselected r hx hactive hmine
    unfold seen
    dsimp only
    rw [hids' _ (List.subset_append_left _ _), hids' _ (List.subset_append_right _ _)]
    congr 1
    cases hw : result.winner with
    | none => rfl
    | some w =>
      obtain ⟨hmem, hactive⟩ := hwinner w hw
      rw [Option.filter_some, if_neg]
      rw [decide_eq_true_eq]
      exact hselected w hmem hactive

theorem selected_active (hone : OneActive records) (ha : a ∈ records) (hmine : a.OfConversation project_id mine)
    (hactive : a.status = .ACTIVE) (hsubject : a.subject = ⟨tenant_id, some project_id, subject_key⟩) :
    (selected records tenant_id project_id subject_key).filter (fun r => r.status = .ACTIVE) =
      (selected (records.filter fun r => r.Counts project_id mine) tenant_id project_id subject_key).filter
        fun r => r.status = .ACTIVE := by
  unfold selected
  rw [List.filter_filter, List.filter_filter, List.filter_filter]
  apply List.filter_congr
  intro r hr
  rw [← Bool.decide_and, ← Bool.decide_and, decide_eq_decide]
  constructor
  · rintro ⟨hstatus, htenant, hkey, hproject⟩
    refine ⟨⟨hstatus, htenant, hkey, hproject⟩, ?_⟩
    rcases hproject with hproject | hproject
    · -- it is the one active record of the subject
      have hrsubject : r.subject = a.subject := by
        rw [hsubject]
        unfold MemoryRecord.subject
        rw [htenant, hkey, hproject]
      rw [hone r hr a ha hstatus hactive hrsubject]
      exact .inl hmine
    · refine .inr fun heq => ?_
      rw [hproject] at heq
      cases heq
  · rintro ⟨hrow, -⟩
    exact hrow

/-- **Tables beside each other show one conversation.** -/
theorem Beside.same (h : Beside project_id mine rest F P) : SameConversation project_id mine F P where
  records := h.conversation
  resolved := by
    intro tenant_id subject_key now
    by_cases hex : ∃ a ∈ F, a.OfConversation project_id mine ∧ a.status = .ACTIVE ∧
        a.subject = ⟨tenant_id, some project_id, subject_key⟩
    · obtain ⟨a, ha, hmine, hactive, hsubject⟩ := hex
      have hcounted : a ∈ P.filter fun r => r.Counts project_id mine := by
        rw [← h.counted]
        exact List.mem_filter.mpr ⟨ha, decide_eq_true (.inl hmine)⟩
      have hresolved : resolve_memory F tenant_id project_id subject_key now =
          resolve_memory P tenant_id project_id subject_key now := by
        apply resolve_congr
        rw [selected_active h.one ha hmine hactive hsubject,
          selected_active h.one' (List.mem_filter.mp hcounted).1 hmine hactive hsubject, h.counted]
      have howned : ∀ (records : List MemoryRecord) id,
          (records.any fun r => r.memory_id = id ∧ r.OfConversation project_id mine) =
            (records.filter fun r => r.OfConversation project_id mine).any fun r => r.memory_id = id := by
        intro records id
        rw [List.any_filter]
        congr 1
        funext r
        rw [Bool.and_comm, Bool.decide_and]
      unfold seen
      simp only [hresolved, howned, h.conversation]
    · have hnone : ∀ r ∈ F, r.OfConversation project_id mine → r.status = .ACTIVE →
          r.subject ≠ ⟨tenant_id, some project_id, subject_key⟩ := fun r hr hmine hactive hsubject =>
        hex ⟨r, hr, hmine, hactive, hsubject⟩
      rw [seen_nothing h.ids hnone, seen_nothing h.ids']
      intro r hr hmine
      have hin : r ∈ F.filter fun r => r.OfConversation project_id mine := by
        rw [h.conversation]
        exact List.mem_filter.mpr ⟨hr, decide_eq_true hmine⟩
      exact hnone r (List.mem_filter.mp hin).1 hmine

end

/-! ## Whole runs -/

variable {calls : List WriteCall} {s : Ledger} {events : List Event}

/-- **The two threads never meet** in the calls. -/
def NeverMeet (projects : List String) (records : List MemoryRecord) (project_id mine other : String)
    (calls : List WriteCall) : Prop :=
  ∀ done c rest, calls = done ++ c :: rest → Unmoved projects project_id mine other (afterAll projects records done)
    (afterAll projects records (without project_id other done)) c

theorem afterAll_without_cons (c : WriteCall) (done : List WriteCall) :
    afterAll projects P (without project_id other (c :: done)) =
      afterAll projects (if c.write.In project_id other then P else c.after projects P) (without project_id other done) := by
  unfold without
  by_cases hin : c.write.In project_id other
  · rw [List.filter_cons_of_neg (by simpa using hin), if_pos hin]
  · rw [List.filter_cons_of_pos (by simpa using hin), if_neg hin]
    rfl

/-- Tables beside each other show one conversation to the end exactly when the threads never meet from there. -/
theorem Beside.isolated_iff (h : Beside project_id mine calls F P) (hthread : mine ≠ other) :
    (∀ done rest, calls = done ++ rest → SameConversation project_id mine (afterAll projects F done)
      (afterAll projects P (without project_id other done))) ↔
    ∀ done c rest, calls = done ++ c :: rest → Unmoved projects project_id mine other (afterAll projects F done)
      (afterAll projects P (without project_id other done)) c := by
  induction calls generalizing F P with
  | nil =>
    constructor
    · intro _ done c rest hsplit
      simp at hsplit
    · intro _ done rest hsplit
      obtain ⟨rfl, -⟩ := List.append_eq_nil_iff.mp hsplit.symm
      exact h.same
  | cons c calls ih =>
    constructor
    · intro hsame
      have hfirst := (hsame [c] calls rfl).records
      rw [afterAll_without_cons] at hfirst
      have hunmoved : Unmoved projects project_id mine other F P c := h.unmoved hthread hfirst
      have hrest := (ih (h.step hthread hunmoved)).mp fun done rest hsplit => by
        have := hsame (c :: done) rest (by rw [hsplit]; rfl)
        rwa [afterAll_without_cons] at this
      intro done c' rest hsplit
      cases done with
      | nil =>
        obtain ⟨rfl, -⟩ := List.cons.inj hsplit
        exact hunmoved
      | cons c₁ done =>
        obtain ⟨rfl, hsplit'⟩ := List.cons.inj hsplit
        rw [afterAll_without_cons]
        exact hrest done c' rest hsplit'
    · intro hunmoved
      have hrest := (ih (h.step hthread (hunmoved [] c calls rfl))).mpr fun done c' rest hsplit => by
        have := hunmoved (c :: done) c' rest (by rw [hsplit]; rfl)
        rwa [afterAll_without_cons] at this
      intro done rest hsplit
      cases done with
      | nil => exact h.same
      | cons c₁ done =>
        obtain ⟨rfl, hsplit'⟩ := List.cons.inj hsplit
        rw [afterAll_without_cons]
        exact hrest done rest hsplit'

/-- **A conversation is isolated exactly from the threads it never meets.** -/
theorem conversation_isolated_iff (h : run step {} events = some s) (hthread : mine ≠ other)
    (hissued : Issued s.records calls) : Isolated s.projects s.records project_id mine other calls ↔
      NeverMeet s.projects s.records project_id mine other calls := by
  have hkept := (run_logged h).kept
  have hbeside : Beside project_id mine calls s.records s.records :=
    ⟨hkept.ids, hkept.ids, hkept.one, hkept.one, hissued, hissued, fun f hf p hp hid => by rw [hkept.ids.eq hf hp hid]; simp,
      rfl⟩
  exact hbeside.isolated_iff hthread

end

/-! ## Two conversations about one subject -/

section Examples

/-- A hash that tells bodies of one text apart. -/
abbrev textHash : JsonHash :=
  ⟨fun | .dict [_, _, (_, .dict [(_, .str text)])] => text
       | _ => ""⟩
attribute [local instance] textHash

/-- A message kept for the conversation of a thread of the project `p`. -/
def remark (thread_id text : String) : Write where
  tenant_id := "t"
  actor := "a"
  scope := .M3_CONVERSATION
  authority := .WORKING_CONTEXT
  subject_key := "tone"
  body := [("value", .str text)]
  project_id := some "p"
  thread_id := some thread_id

/-- Both threads speak about the tone. -/
def remarks : List WriteCall := [⟨remark "A" "formal", ⟨"1", ""⟩⟩, ⟨remark "B" "casual", ⟨"2", ""⟩⟩]

/-- The ledger of a project. -/
def started : Option Ledger := run step {} [.create "t" "p" "a" "" ⟨"0", ""⟩]

theorem remarks_issued {s : Ledger} (h : started = some s) : Issued s.records remarks := by
  obtain rfl := Option.some.inj h
  exact ⟨by decide, by decide⟩

/-- **The second thread supersedes what the first remembers.** -/
theorem tone_superseded : ∃ s, started = some s ∧ Issued s.records remarks ∧
    ¬ Isolated s.projects s.records "p" "A" "B" remarks := by
  refine ⟨_, rfl, remarks_issued rfl, fun hisolated => ?_⟩
  have hstatus := congrArg (List.map (·.status)) (hisolated remarks [] rfl).records
  exact absurd hstatus (by decide +kernel)

/-- The two remarks. -/
theorem tone_isolated_iff : ∃ s, started = some s ∧
    (Isolated s.projects s.records "p" "A" "B" remarks ↔ NeverMeet s.projects s.records "p" "A" "B" remarks) :=
  ⟨_, rfl, conversation_isolated_iff (show started = some _ from rfl) (by decide) (remarks_issued rfl)⟩

end Examples

end Memory
