import MissionControl.Memory.Safety

/-! # Which runs of the ledger do what it is for

Whatever the order of the transactions, a subject has one active record, its authority is
not lowered, and a promotion leaves it with an active record. Only that what was retired
stays so depends on the run: a promotion does not look at the status of what it promotes. -/

namespace Memory

open Canonical Transition

/-- The entry invalidates an active record of the subject. -/
def Entry.Invalidates (e : Entry) (subject : Subject) : Prop :=
  ∃ a ∈ e.before, a.status = .ACTIVE ∧ a.subject = subject ∧ e.act = .invalidate a.memory_id

/-- The subject has an active record. -/
def HasActive (records : List MemoryRecord) (subject : Subject) : Prop :=
  ∃ r ∈ records, r.status = .ACTIVE ∧ r.subject = subject

/-- The operation adds an active record. -/
def Entry.Activates (e : Entry) : Prop := ∃ r ∈ e.after, r ∉ e.before ∧ r.status = .ACTIVE

/-- **What the ledger is for.** The subject of a record does not depend on its scope or
    thread, so one active record a subject is one a thread as well. -/
structure Upheld (log : List Entry) : Prop where
  one : ∀ e ∈ log, OneActive e.after
  /-- An active record gives way to an invalidation, or to as much authority. -/
  ranked : ∀ e ∈ log, ∀ a ∈ e.before, a.status = .ACTIVE → a ∈ e.after ∨
    e.act = .invalidate a.memory_id ∨ ∃ b ∈ e.after, b.status = .ACTIVE ∧ b.subject = a.subject ∧
      authority_rank a.authority ≤ authority_rank b.authority
  /-- What a promotion makes active was not retired, then or before. -/
  sourced : ∀ (i j : Nat) (d e : Entry) (p : Promotion), i ≤ j → log[i]? = some d → log[j]? = some e → e.act = .promote p →
    e.Activates → ∀ m ∈ d.before, m.memory_id = p.record.memory_id → ¬ m.Retired
  /-- From the write of a promotion on, its subject has an active record, until that is
      invalidated. -/
  promoted : ∀ (i j : Nat) (d e : Entry) (p : Promotion), i ≤ j → log[i]? = some d → d.act = .promote p → log[j]? = some e →
    HasActive e.after p.record.subject ∨
      ∃ (k : Nat) (c : Entry), i < k ∧ k ≤ j ∧ log[k]? = some c ∧ c.Invalidates p.record.subject

section

variable [JsonHash] {s s' : Ledger} {events : List Event}

/-- The condition: when a promotion writes, what it promotes is not retired, or an active
    record of the subject withstands it. -/
def Lively (log : List Entry) : Prop :=
  ∀ e ∈ log, ∀ p, e.act = .promote p →
    (∀ m ∈ e.before, m.memory_id = p.record.memory_id → ¬ m.Retired) ∨
      ∃ x ∈ e.before, x.status = .ACTIVE ∧ x.subject = p.record.subject ∧
        x.Withstands p.to_authority p.write.content_hash

/-- What every reachable state keeps of its log. -/
structure Logged (s : Ledger) : Prop where
  kept : Kept s
  ok : ∀ e ∈ s.log, e.Ok
  carries : ∀ e ∈ s.log, Carries e.before s.records
  ordered : ∀ (i j : Nat) (d e : Entry), i ≤ j → s.log[i]? = some d → s.log[j]? = some e → Carries d.before e.before
  alive : ∀ (i : Nat) (d : Entry) (p : Promotion), s.log[i]? = some d → d.act = .promote p → HasActive s.records p.record.subject ∨
    ∃ (k : Nat) (c : Entry), i < k ∧ s.log[k]? = some c ∧ c.Invalidates p.record.subject
  promoted : ∀ (i j : Nat) (d e : Entry) (p : Promotion), i ≤ j → s.log[i]? = some d → d.act = .promote p → s.log[j]? = some e →
    HasActive e.after p.record.subject ∨
      ∃ (k : Nat) (c : Entry), i < k ∧ k ≤ j ∧ s.log[k]? = some c ∧ c.Invalidates p.record.subject

theorem Logged.init : Logged {} :=
  ⟨⟨List.nodup_nil, by simp [OneActive], by simp, by simp, by simp, by simp, by simp⟩,
    by simp, by simp, by simp, by simp, by simp⟩

theorem Entry.Ok.hasActive {e : Entry} (h : e.Ok) {subject : Subject}
    (hactive : HasActive e.before subject) : HasActive e.after subject ∨ e.Invalidates subject := by
  obtain ⟨a, ha, hstatus, rfl⟩ := hactive
  rcases h.ranked a ha hstatus with hafter | hinvalidate | ⟨b, hb, hstatus', hsubject, -⟩
  · exact .inl ⟨a, hafter, hstatus, rfl⟩
  · exact .inr ⟨a, ha, hstatus, rfl, hinvalidate⟩
  · exact .inl ⟨b, hb, hstatus', hsubject⟩

theorem step_logged (h : Logged s) {e : Event} (hstep : step s e = some s') : Logged s' := by
  obtain ⟨hkept, ⟨hlog, hrecords⟩ | ⟨act, hlog, hok⟩⟩ := step_kept h.kept hstep
  · refine ⟨hkept, ?_, ?_, ?_, ?_, ?_⟩
    · rw [hlog]
      exact h.ok
    · rw [hlog, hrecords]
      exact h.carries
    · rw [hlog]
      exact h.ordered
    · rw [hlog, hrecords]
      exact h.alive
    · rw [hlog]
      exact h.promoted
  · -- one entry was logged; of two entries, the later may be the new one
    have hold : ∀ {i : Nat} {d : Entry}, s.log[i]? = some d → s'.log[i]? = some d := by
      intro i d hd
      rw [hlog, List.getElem?_append_left (List.getElem?_eq_some_iff.mp hd).1]
      exact hd
    have halive : ∀ (i : Nat) (d : Entry) (p : Promotion), s'.log[i]? = some d → d.act = .promote p →
        HasActive s'.records p.record.subject ∨
          ∃ (k : Nat) (c : Entry), i < k ∧ k ≤ s.log.length ∧ s'.log[k]? = some c ∧ c.Invalidates p.record.subject := by
      intro i d p hd hp
      have hnew : s'.log[s.log.length]? = some ⟨act, s.records, s'.records⟩ := by
        rw [hlog, List.getElem?_concat_length]
      rw [hlog] at hd
      rcases getElem?_concat hd with hd | ⟨rfl, rfl⟩
      · have hi : i < s.log.length := (List.getElem?_eq_some_iff.mp hd).1
        rcases h.alive i d p hd hp with hactive | ⟨k, c, hk, hc, hinvalidates⟩
        · refine (hok.hasActive hactive).imp_right fun hinvalidates => ?_
          exact ⟨s.log.length, _, hi, le_refl _, hnew, hinvalidates⟩
        · have hklt : k < s.log.length := (List.getElem?_eq_some_iff.mp hc).1
          exact .inr ⟨k, c, hk, le_of_lt hklt, hold hc, hinvalidates⟩
      · obtain ⟨fresh, -, hchange⟩ := hok.promoted p hp
        exact .inl hchange.active
    refine ⟨hkept, ?_, ?_, ?_, ?_, ?_⟩
    · intro e he
      rw [hlog, List.mem_append, List.mem_singleton] at he
      rcases he with he | rfl
      · exact h.ok e he
      · exact hok
    · intro e he
      rw [hlog, List.mem_append, List.mem_singleton] at he
      rcases he with he | rfl
      · exact (h.carries e he).trans hok.carries
      · exact hok.carries
    · intro i j d e hij hd he
      rw [hlog] at hd he
      rcases getElem?_concat he with he | ⟨rfl, rfl⟩
      · rcases getElem?_concat hd with hd | ⟨rfl, rfl⟩
        · exact h.ordered i j d e hij hd he
        · have hj : j < s.log.length := (List.getElem?_eq_some_iff.mp he).1
          omega
      · rcases getElem?_concat hd with hd | ⟨-, rfl⟩
        · exact h.carries d (List.mem_of_getElem? hd)
        · exact .refl _
    · intro i d p hd hp
      refine (halive i d p hd hp).imp_right ?_
      rintro ⟨k, c, hk, -, hc, hinvalidates⟩
      exact ⟨k, c, hk, hc, hinvalidates⟩
    · intro i j d e p hij hd hp he
      have hlast := halive i d p hd hp
      rw [hlog] at hd he
      rcases getElem?_concat he with he | ⟨rfl, rfl⟩
      · rcases getElem?_concat hd with hd | ⟨rfl, rfl⟩
        · refine (h.promoted i j d e p hij hd hp he).imp_right ?_
          rintro ⟨k, c, hik, hkj, hc, hinvalidates⟩
          exact ⟨k, c, hik, hkj, hold hc, hinvalidates⟩
        · have hj : j < s.log.length := (List.getElem?_eq_some_iff.mp he).1
          omega
      · exact hlast

theorem run_logged (h : run step {} events = some s) : Logged s :=
  run_invariant Logged.init (fun _ _ _ hm he => step_logged hm he) h

/-- **Every reachable ledger is sound**, and no promotion that was let through is refused when it is written. -/
theorem ledger_kept (h : run step {} events = some s) :
    Kept s ∧ ∀ p ∈ s.promotions, checkWrite s.projects p.write = .ok () :=
  have hkept := (run_logged h).kept
  ⟨hkept, fun _ hp => hkept.promotion_checked hp⟩

/-- **The ledger does what it is for exactly in the lively runs.** -/
theorem upheld_iff (h : run step {} events = some s) : Upheld s.log ↔ Lively s.log := by
  have hlogged := run_logged h
  constructor
  · intro hupheld e he p hp
    by_cases hretired : ∃ m ∈ e.before, m.memory_id = p.record.memory_id ∧ m.Retired
    · right
      by_contra hnone
      obtain ⟨fresh, hnew, hchange⟩ := (hlogged.ok e he).promoted p hp
      have hactivates : e.Activates := by
        apply (hchange.adds_active_iff (hlogged.ok e he).before hnew).mpr
        intro x hx hstatus hsubject hwithstands
        exact hnone ⟨x, hx, hstatus, hsubject, hwithstands⟩
      obtain ⟨j, hj⟩ := List.getElem?_of_mem he
      obtain ⟨m, hm, hid, hmretired⟩ := hretired
      exact hupheld.sourced j j e e p (le_refl j) hj hj hp hactivates m hm hid hmretired
    · left
      intro m hm hid hmretired
      exact hretired ⟨m, hm, hid, hmretired⟩
  · intro hlively
    refine ⟨fun e he => (hlogged.ok e he).after, fun e he => (hlogged.ok e he).ranked, ?_,
      hlogged.promoted⟩
    intro i j d e p hij hd he hp hactivates m hm hid hmretired
    have hmem := List.mem_of_getElem? he
    obtain ⟨fresh, hnew, hchange⟩ := (hlogged.ok e hmem).promoted p hp
    rcases hlively e hmem p hp with hsource | ⟨x, hx, hstatus, hsubject, hwithstands⟩
    · -- the record is still in the table when the promotion writes, and still retired
      have hcarries := hlogged.ordered i j d e hij hd he
      obtain ⟨y, hy, hym, hkept, -⟩ := hcarries m hm
      have hyid : y.memory_id = m.memory_id := by rw [hym]
      exact hsource y hy (hyid.trans hid) (hkept hmretired)
    · have hyields := (hchange.adds_active_iff (hlogged.ok e hmem).before hnew).mp hactivates
      exact hyields x hx hstatus hsubject hwithstands

end

/-! ## A run that brings a record back -/

section Examples

/-- A hash that tells nothing apart. -/
abbrev plainHash : JsonHash := ⟨fun _ => ""⟩
attribute [local instance] plainHash

/-- A piece of evidence of the project `p`. -/
def evidence : Write where
  tenant_id := "t"
  actor := "a"
  scope := .M4_EVIDENCE
  authority := .WORKING_CONTEXT
  subject_key := "price"
  body := [("value", .int 5)]
  project_id := some "p"

/-- The evidence is written and promoted. -/
def promoting : List Event :=
  [.create "t" "p" "a" "" ⟨"0", ""⟩, .write evidence ⟨"1", ""⟩,
    .read "mem-1" .VERIFIED_EVIDENCE "a" (some "p"), .promote 0 ⟨"2", ""⟩, .settle 0]

/-- The evidence is invalidated, and promoted all the same. -/
def resurrecting : List Event :=
  [.create "t" "p" "a" "" ⟨"0", ""⟩, .write evidence ⟨"1", ""⟩, .invalidate "mem-1" (some "p"),
    .read "mem-1" .VERIFIED_EVIDENCE "a" (some "p"), .promote 0 ⟨"2", ""⟩]

theorem upheld_iff_promoting :
    ∃ s, run step {} promoting = some s ∧ (Upheld s.log ↔ Lively s.log) := by
  have hrun : (run step {} promoting).isSome = true := by decide +kernel
  obtain ⟨s, hs⟩ := Option.isSome_iff_exists.mp hrun
  exact ⟨s, hs, upheld_iff hs⟩

theorem ledger_kept_promoting : ∃ s, run step {} promoting = some s ∧ Kept s := by
  have hrun : (run step {} promoting).isSome = true := by decide +kernel
  obtain ⟨s, hs⟩ := Option.isSome_iff_exists.mp hrun
  exact ⟨s, hs, (ledger_kept hs).1⟩

/-- The entry is a promotion that makes a retired record active. -/
def Entry.resurrects (e : Entry) : Bool :=
  match e.act with
  | .promote p =>
    e.after.any (fun r => r.status == .ACTIVE && e.before.all fun x => x.memory_id != r.memory_id) &&
      e.before.any fun m => m.memory_id == p.record.memory_id &&
        (m.status == .INVALIDATED || m.status == .SUPERSEDED)
  | _ => false

theorem not_upheld_of_resurrects {log : List Entry} {e : Entry} (he : e ∈ log)
    (h : e.resurrects = true) : ¬ Upheld log := by
  intro hupheld
  unfold Entry.resurrects at h
  split at h
  · rename_i p hp
    rw [Bool.and_eq_true, List.any_eq_true, List.any_eq_true] at h
    obtain ⟨⟨r, hr, hactive⟩, m, hm, hretired⟩ := h
    rw [Bool.and_eq_true, List.all_eq_true, beq_iff_eq] at hactive
    rw [Bool.and_eq_true, Bool.or_eq_true, beq_iff_eq, beq_iff_eq, beq_iff_eq] at hretired
    have hactivates : e.Activates := by
      refine ⟨r, hr, fun hmem => ?_, hactive.1⟩
      simpa using hactive.2 r hmem
    obtain ⟨j, hj⟩ := List.getElem?_of_mem he
    exact hupheld.sourced j j e e p (le_refl j) hj hj hp hactivates m hm hretired.1 hretired.2
  · cases h

/-- **An invalidated record is active again**, under a new name and with more authority. -/
theorem invalidated_record_promoted :
    ∃ s, run step {} resurrecting = some s ∧ ¬ Upheld s.log := by
  have hrun : (run step {} resurrecting).any fun s => s.log.any Entry.resurrects := by
    decide +kernel
  obtain ⟨s, hs, hany⟩ := (Option.any_eq_true _ _).mp hrun
  obtain ⟨e, he, hresurrects⟩ := List.any_eq_true.mp hany
  exact ⟨s, hs, not_upheld_of_resurrects he hresurrects⟩

end Examples

end Memory
