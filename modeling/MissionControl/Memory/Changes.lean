import MissionControl.Memory.Ledger

/-! # What the operations do to the records

Every operation retires some records, or adds one. From that follows what all of them keep:
the records stay, with their content, and no subject has two active ones. -/

namespace Memory

open Canonical

variable {records before after : List MemoryRecord} {a b r : MemoryRecord} {w : Write} {fresh : Fresh}

/-- No subject has two active records. -/
def OneActive (records : List MemoryRecord) : Prop :=
  ∀ a ∈ records, ∀ b ∈ records, a.status = .ACTIVE → b.status = .ACTIVE → a.subject = b.subject → a = b

def Ids (records : List MemoryRecord) : Prop := (records.map (·.memory_id)).Nodup

theorem Ids.eq (h : Ids records) (ha : a ∈ records) (hb : b ∈ records)
    (hid : a.memory_id = b.memory_id) : a = b :=
  List.inj_on_of_nodup_map h ha hb hid

/-- The records are still there, with another status at most; what was retired is, and what
    was not active is not. -/
def Carries (before after : List MemoryRecord) : Prop :=
  ∀ x ∈ before, ∃ y ∈ after, y = { x with status := y.status } ∧ (x.Retired → y.Retired) ∧
    (x.status ≠ .ACTIVE → y.status ≠ .ACTIVE)

theorem Carries.refl (records : List MemoryRecord) : Carries records records :=
  fun x hx => ⟨x, hx, rfl, id, id⟩

theorem Carries.trans {between : List MemoryRecord} (h : Carries before between)
    (h' : Carries between after) : Carries before after := by
  intro x hx
  obtain ⟨y, hy, hxy, hretired, hactive⟩ := h x hx
  obtain ⟨z, hz, hyz, hretired', hactive'⟩ := h' y hy
  refine ⟨z, hz, ?_, fun hr => hretired' (hretired hr), fun hn => hactive' (hactive hn)⟩
  rw [hyz, hxy]

theorem Carries.append (records added : List MemoryRecord) : Carries records (records ++ added) :=
  fun x hx => ⟨x, List.mem_append_left _ hx, rfl, id, id⟩

/-! ## Retiring records -/

/-- A function on rows that sets the status of some of them to a retired one. -/
def Retires (f : MemoryRecord → MemoryRecord) : Prop :=
  ∀ r, f r = r ∨ ∃ status, (status = .INVALIDATED ∨ status = .SUPERSEDED) ∧
    f r = { r with status := status }

theorem retires_setStatus (memory_id : String) :
    Retires fun r => if r.memory_id = memory_id then { r with status := .SUPERSEDED } else r := by
  intro r
  dsimp only
  split
  · exact .inr ⟨_, .inr rfl, rfl⟩
  · exact .inl rfl

variable {f : MemoryRecord → MemoryRecord}

theorem Retires.memory_id (h : Retires f) (r : MemoryRecord) : (f r).memory_id = r.memory_id := by
  rcases h r with heq | ⟨_, _, heq⟩ <;> rw [heq]

theorem Retires.active (h : Retires f) (hactive : (f r).status = .ACTIVE) : f r = r := by
  rcases h r with heq | ⟨status, rfl | rfl, heq⟩
  · exact heq
  · rw [heq] at hactive
    cases hactive
  · rw [heq] at hactive
    cases hactive

theorem Retires.ids (h : Retires f) (hids : Ids records) : Ids (records.map f) := by
  unfold Ids
  have heq : (·.memory_id) ∘ f = fun r : MemoryRecord => r.memory_id := funext h.memory_id
  rw [List.map_map, heq]
  exact hids

theorem Retires.oneActive (h : Retires f) (hone : OneActive records) : OneActive (records.map f) := by
  intro a ha b hb hactive hactive' hsubject
  obtain ⟨x, hx, rfl⟩ := List.mem_map.mp ha
  obtain ⟨y, hy, rfl⟩ := List.mem_map.mp hb
  have hfx := h.active hactive
  have hfy := h.active hactive'
  rw [hfx] at hactive hsubject ⊢
  rw [hfy] at hactive' hsubject ⊢
  exact hone x hx y hy hactive hactive' hsubject

theorem Retires.carries (h : Retires f) (records : List MemoryRecord) : Carries records (records.map f) := by
  intro x hx
  refine ⟨f x, List.mem_map_of_mem hx, ?_⟩
  rcases h x with heq | ⟨status, hstatus, heq⟩
  · rw [heq]
    exact ⟨rfl, id, id⟩
  · rw [heq]
    refine ⟨rfl, fun _ => hstatus, fun _ hactive => ?_⟩
    rcases hstatus with rfl | rfl <;> cases hactive

/-! ## Adding a record -/

theorem ids_append (hids : Ids records) (hnew : ∀ x ∈ records, x.memory_id ≠ r.memory_id) :
    Ids (records ++ [r]) := by
  unfold Ids
  rw [List.map_append, List.nodup_append]
  refine ⟨hids, List.nodup_singleton _, fun i hi j hj => ?_⟩
  obtain ⟨x, hx, rfl⟩ := List.mem_map.mp hi
  rw [List.map_singleton, List.mem_singleton] at hj
  rw [hj]
  exact hnew x hx

theorem oneActive_append (hone : OneActive records)
    (hfirst : r.status = .ACTIVE → ∀ x ∈ records, x.status = .ACTIVE → x.subject ≠ r.subject) :
    OneActive (records ++ [r]) := by
  intro a ha b hb hactive hactive' hsubject
  rw [List.mem_append, List.mem_singleton] at ha hb
  rcases ha with ha | rfl
  · rcases hb with hb | rfl
    · exact hone a ha b hb hactive hactive' hsubject
    · exact absurd hsubject (hfirst hactive' a ha hactive)
  · rcases hb with hb | rfl
    · exact absurd hsubject.symm (hfirst hactive b hb hactive')
    · rfl

/-! ## Writing -/

variable {projects : List String}

theorem checkWrite_ok (hplaced : validate_placement w.scope w.authority w.project_id w.thread_id = .ok ())
    (hknown : ∀ q, w.project_id = some q → q ∈ projects) (hsources : w.source_refs ≠ []) :
    checkWrite projects w = .ok () := by
  have hcanon : ¬ (w.scope = .M1_BRAND_CANON ∧ w.source_refs = []) := fun h => hsources h.2
  cases hproject : w.project_id with
  | none =>
    rw [hproject] at hplaced
    simp [checkWrite, hplaced, hcanon, hproject]
  | some project_id =>
    rw [hproject] at hplaced
    simp [checkWrite, hplaced, hcanon, hproject, hknown project_id hproject]

theorem of_checkWrite (h : checkWrite projects w = .ok ()) :
    validate_placement w.scope w.authority w.project_id w.thread_id = .ok () ∧
      ∀ q, w.project_id = some q → q ∈ projects := by
  unfold checkWrite at h
  cases hplaced : validate_placement w.scope w.authority w.project_id w.thread_id with
  | error e =>
    rw [hplaced] at h
    cases h
  | ok u =>
    refine ⟨rfl, fun q hq => ?_⟩
    rw [hplaced, hq] at h
    by_contra hunknown
    by_cases hcanon : w.scope = .M1_BRAND_CANON ∧ w.source_refs = []
    · rw [if_pos hcanon] at h
      cases h
    · rw [if_neg hcanon] at h
      dsimp only at h
      rw [if_pos hunknown] at h
      cases h

theorem mem_active {subject : Subject} :
    a ∈ _active_for_subject records subject ↔ a ∈ records ∧ a.subject = subject ∧ a.status = .ACTIVE := by
  simp [_active_for_subject]

theorem active_cases (hids : Ids records) (hone : OneActive records) (subject : Subject) :
    (_active_for_subject records subject = [] ∧ ∀ a ∈ records, a.status = .ACTIVE → a.subject ≠ subject) ∨
    ∃ top ∈ records, top.status = .ACTIVE ∧ top.subject = subject ∧
      _active_for_subject records subject = [top] := by
  have hnodup : (_active_for_subject records subject).Nodup := (hids.of_map _).filter _
  rcases hactive : _active_for_subject records subject with - | ⟨top, rest⟩
  · refine .inl ⟨rfl, fun a ha hstatus hsubject => ?_⟩
    have hmem : a ∈ _active_for_subject records subject := mem_active.mpr ⟨ha, hsubject, hstatus⟩
    rw [hactive] at hmem
    cases hmem
  · have htop : top ∈ _active_for_subject records subject := by
      rw [hactive]
      exact List.mem_cons_self
    obtain ⟨hmem, hsubject, hstatus⟩ := mem_active.mp htop
    refine .inr ⟨top, hmem, hstatus, hsubject, ?_⟩
    rw [hactive] at hnodup
    cases rest with
    | nil => rfl
    | cons next rest =>
      -- a second one would be the same
      have hnext : next ∈ _active_for_subject records subject := by
        rw [hactive]
        exact List.mem_cons_of_mem _ List.mem_cons_self
      obtain ⟨hmem', hsubject', hstatus'⟩ := mem_active.mp hnext
      have heq := hone top hmem next hmem' hstatus hstatus' (hsubject.trans hsubject'.symm)
      rw [heq] at hnodup
      exact absurd hnodup (by simp)

/-- **What a write does**, as the active record of its subject decides. -/
inductive WriteChange [JsonHash] (records : List MemoryRecord) (w : Write) (fresh : Fresh) :
    List MemoryRecord → Prop
  | repeated {top : MemoryRecord} (htop : top ∈ records) (hactive : top.status = .ACTIVE)
      (hsubject : top.subject = w.subject) (hwithstands : top.Withstands w.authority w.content_hash) :
      WriteChange records w fresh records
  | quarantined {top : MemoryRecord} (htop : top ∈ records) (hactive : top.status = .ACTIVE)
      (hsubject : top.subject = w.subject) (hwithstands : top.Withstands w.authority w.content_hash) :
      WriteChange records w fresh (records ++ [w.record fresh .QUARANTINED none])
  | superseded {top : MemoryRecord} (htop : top ∈ records) (hactive : top.status = .ACTIVE)
      (hsubject : top.subject = w.subject) (hyields : ¬ top.Withstands w.authority w.content_hash)
      (hrank : authority_rank top.authority ≤ authority_rank w.authority) :
      WriteChange records w fresh (setStatus records .SUPERSEDED top.memory_id ++
        [w.record fresh .ACTIVE (some top.memory_id)])
  | first (hnone : ∀ a ∈ records, a.status = .ACTIVE → a.subject ≠ w.subject) :
      WriteChange records w fresh (records ++ [w.record fresh .ACTIVE none])

section

variable [JsonHash]

theorem applyWrite_change (hids : Ids records) (hone : OneActive records) (w : Write) (fresh : Fresh) :
    WriteChange records w fresh (applyWrite records w fresh).2 := by
  unfold applyWrite
  rcases active_cases hids hone w.subject with ⟨hactive, hnone⟩ | ⟨top, htop, hstatus, hsubject, hactive⟩
  · rw [hactive]
    exact .first hnone
  · rw [hactive]
    dsimp only
    rcases decide_write_singleton w.authority w.content_hash top with
      ⟨hwithstands, ⟨hdecision, -⟩ | ⟨hdecision, hsupersedes⟩⟩ | ⟨hyields, hrank, hdecision⟩
    · rw [hdecision]
      exact .repeated htop hstatus hsubject hwithstands
    · rw [hdecision, hsupersedes]
      exact .quarantined htop hstatus hsubject hwithstands
    · rw [hdecision]
      exact .superseded htop hstatus hsubject hyields hrank

theorem WriteChange.ids (h : WriteChange records w fresh after) (hids : Ids records)
    (hnew : ∀ x ∈ records, x.memory_id ≠ fresh.memory_id) : Ids after := by
  cases h with
  | repeated htop hactive hsubject hwithstands => exact hids
  | quarantined htop hactive hsubject hwithstands => exact ids_append hids hnew
  | superseded htop hactive hsubject hyields hrank =>
    apply ids_append ((retires_setStatus _).ids hids)
    intro x hx
    obtain ⟨y, hy, rfl⟩ := List.mem_map.mp hx
    rw [(retires_setStatus _).memory_id]
    exact hnew y hy
  | first hnone => exact ids_append hids hnew

omit [JsonHash] in
theorem none_active_setStatus (hone : OneActive records) {top : MemoryRecord} (htop : top ∈ records)
    (hactive : top.status = .ACTIVE) :
    ∀ x ∈ setStatus records .SUPERSEDED top.memory_id, x.status = .ACTIVE → x.subject ≠ top.subject := by
  intro x hx hstatus hsubject
  obtain ⟨y, hy, rfl⟩ := List.mem_map.mp hx
  have heq := (retires_setStatus top.memory_id).active hstatus
  rw [heq] at hstatus hsubject
  have hy' := hone y hy top htop hstatus hactive hsubject
  rw [hy', if_pos rfl] at heq
  rw [← heq] at hactive
  cases hactive

theorem WriteChange.oneActive (h : WriteChange records w fresh after) (hone : OneActive records) :
    OneActive after := by
  cases h with
  | repeated htop hactive hsubject hwithstands => exact hone
  | quarantined htop hactive hsubject hwithstands =>
    apply oneActive_append hone
    intro hstatus
    cases hstatus
  | superseded htop hactive hsubject hyields hrank =>
    apply oneActive_append ((retires_setStatus _).oneActive hone)
    intro _ x hx hstatus
    show x.subject ≠ w.subject
    rw [← hsubject]
    exact none_active_setStatus hone htop hactive x hx hstatus
  | first hnone => exact oneActive_append hone fun _ => hnone

theorem WriteChange.carries (h : WriteChange records w fresh after) : Carries records after := by
  cases h with
  | repeated htop hactive hsubject hwithstands => exact .refl _
  | quarantined htop hactive hsubject hwithstands => exact .append _ _
  | superseded htop hactive hsubject hyields hrank =>
    exact ((retires_setStatus _).carries records).trans (.append _ _)
  | first hnone => exact .append _ _

theorem WriteChange.origin (h : WriteChange records w fresh after) (hr : r ∈ after) :
    (∃ x ∈ records, r = { x with status := r.status }) ∨
      ∃ status supersedes, r = w.record fresh status supersedes := by
  cases h with
  | repeated htop hactive hsubject hwithstands => exact .inl ⟨r, hr, rfl⟩
  | quarantined htop hactive hsubject hwithstands =>
    rcases List.mem_append.mp hr with hr | hr
    · exact .inl ⟨r, hr, rfl⟩
    · exact .inr ⟨_, _, List.mem_singleton.mp hr⟩
  | superseded htop hactive hsubject hyields hrank =>
    rcases List.mem_append.mp hr with hr | hr
    · obtain ⟨y, hy, rfl⟩ := List.mem_map.mp hr
      refine .inl ⟨y, hy, ?_⟩
      split <;> rfl
    · exact .inr ⟨_, _, List.mem_singleton.mp hr⟩
  | first hnone =>
    rcases List.mem_append.mp hr with hr | hr
    · exact .inl ⟨r, hr, rfl⟩
    · exact .inr ⟨_, _, List.mem_singleton.mp hr⟩

/-- **A write never lowers the authority** a subject is known with. -/
theorem WriteChange.ranked (h : WriteChange records w fresh after) (hids : Ids records) (ha : a ∈ records) :
    a ∈ after ∨ ∃ b ∈ after, b.status = .ACTIVE ∧ b.subject = a.subject ∧
      authority_rank a.authority ≤ authority_rank b.authority := by
  cases h with
  | repeated htop hactive hsubject hwithstands => exact .inl ha
  | quarantined htop hactive hsubject hwithstands => exact .inl (List.mem_append_left _ ha)
  | @superseded top htop htopactive hsubject hyields hrank =>
    by_cases hid : a.memory_id = top.memory_id
    · have heq := hids.eq ha htop hid
      refine .inr ⟨_, List.mem_append_right _ List.mem_cons_self, rfl, ?_, ?_⟩
      · rw [heq]
        exact hsubject.symm
      · rw [heq]
        exact hrank
    · refine .inl (List.mem_append_left _ (List.mem_map.mpr ⟨a, ha, ?_⟩))
      rw [if_neg hid]
  | first hnone => exact .inl (List.mem_append_left _ ha)

/-- **A write leaves its subject with an active record.** -/
theorem WriteChange.active (h : WriteChange records w fresh after) :
    ∃ b ∈ after, b.status = .ACTIVE ∧ b.subject = w.subject := by
  cases h with
  | repeated htop hactive hsubject hwithstands => exact ⟨_, htop, hactive, hsubject⟩
  | quarantined htop hactive hsubject hwithstands =>
    exact ⟨_, List.mem_append_left _ htop, hactive, hsubject⟩
  | superseded htop hactive hsubject hyields hrank =>
    exact ⟨_, List.mem_append_right _ List.mem_cons_self, rfl, rfl⟩
  | first hnone => exact ⟨_, List.mem_append_right _ List.mem_cons_self, rfl, rfl⟩

theorem WriteChange.inactive (h : WriteChange records w fresh after) (hids : Ids records)
    (hone : OneActive records) (hnew : ∀ x ∈ records, x.memory_id ≠ fresh.memory_id)
    (ha : a ∈ records) (hsubject : a.subject = w.subject)
    (hyields : ¬ a.Withstands w.authority w.content_hash) (hr : r ∈ after)
    (hid : r.memory_id = a.memory_id) : r.status ≠ .ACTIVE := by
  intro hstatus
  have hold : r ∈ records → a.status = .ACTIVE := fun hmem => by
    rwa [← hids.eq hmem ha hid]
  cases h with
  | repeated htop hactive htopsubject hwithstands =>
    have heq := hone a ha _ htop (hold hr) hactive (hsubject.trans htopsubject.symm)
    exact hyields (by rwa [heq])
  | quarantined htop hactive htopsubject hwithstands =>
    rcases List.mem_append.mp hr with hr | hr
    · have heq := hone a ha _ htop (hold hr) hactive (hsubject.trans htopsubject.symm)
      exact hyields (by rwa [heq])
    · rw [List.mem_singleton.mp hr] at hstatus
      cases hstatus
  | superseded htop hactive htopsubject htopyields hrank =>
    rcases List.mem_append.mp hr with hr | hr
    · apply none_active_setStatus hone htop hactive r hr hstatus
      obtain ⟨y, hy, rfl⟩ := List.mem_map.mp hr
      rw [(retires_setStatus _).active hstatus] at hid ⊢
      rw [hids.eq hy ha hid, hsubject, htopsubject]
    · rw [List.mem_singleton.mp hr] at hid
      exact hnew a ha hid.symm
  | first hnone =>
    rcases List.mem_append.mp hr with hr | hr
    · exact hnone a ha (hold hr) hsubject
    · rw [List.mem_singleton.mp hr] at hid
      exact hnew a ha hid.symm

/-- **A write adds an active record** exactly when no active record of its subject
    withstands it. -/
theorem WriteChange.adds_active_iff (h : WriteChange records w fresh after) (hone : OneActive records)
    (hnew : ∀ x ∈ records, x.memory_id ≠ fresh.memory_id) : (∃ r ∈ after, r ∉ records ∧ r.status = .ACTIVE) ↔
      ∀ x ∈ records, x.status = .ACTIVE → x.subject = w.subject →
        ¬ x.Withstands w.authority w.content_hash := by
  have hrow : ∀ status supersedes, w.record fresh status supersedes ∉ records :=
    fun _ _ hmem => hnew _ hmem rfl
  cases h with
  | repeated htop hactive hsubject hwithstands =>
    constructor
    · rintro ⟨r, hr, hnot, -⟩
      exact absurd hr hnot
    · intro hall
      exact absurd hwithstands (hall _ htop hactive hsubject)
  | quarantined htop hactive hsubject hwithstands =>
    constructor
    · rintro ⟨r, hr, hnot, hstatus⟩
      rcases List.mem_append.mp hr with hr | hr
      · exact absurd hr hnot
      · rw [List.mem_singleton.mp hr] at hstatus
        cases hstatus
    · intro hall
      exact absurd hwithstands (hall _ htop hactive hsubject)
  | superseded htop hactive hsubject hyields hrank =>
    constructor
    · intro _ x hx hstatus hx'
      rwa [hone x hx _ htop hstatus hactive (hx'.trans hsubject.symm)]
    · intro _
      exact ⟨_, List.mem_append_right _ List.mem_cons_self, hrow _ _, rfl⟩
  | first hnone =>
    constructor
    · intro _ x hx hstatus hx'
      exact absurd hx' (hnone x hx hstatus)
    · intro _
      exact ⟨_, List.mem_append_right _ List.mem_cons_self, hrow _ _, rfl⟩

end

end Memory
