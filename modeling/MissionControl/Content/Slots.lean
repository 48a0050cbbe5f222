import MissionControl.Content.Jobs

/-! # Calendar slots

A schedule that is given a slot fills it where it is open, and writes its job in either case. That the slot is open was
asked before, in a transaction of its own.

* **A slot has one holder** (`HoldsSlot.unique`), as its row has one.
* **A job that names a slot is of the holder** as long as each schedule that adds a job on a slot finds the slot open, or
  its own (`slots_exclusive_iff`): the write itself does not ask. -/

namespace Content

open Canonical (Sha256)
open Interleaving
open Projects (given)
open Relational (Table)

/-! ## Holding a slot -/

variable {s s' : OpsState} {slot_id item_id item_id' : String}

/-- The item holds the slot. -/
def HoldsSlot (s : OpsState) (slot_id item_id : String) : Prop :=
  ∃ slot ∈ s.slots, slot.slot_id = slot_id ∧ slot.state = .filled ∧ slot.content_item_id = some item_id

def OpenSlot (s : OpsState) (slot_id : String) : Prop := ∃ slot ∈ s.slots, slot.slot_id = slot_id ∧ slot.state = .open_

/-- A job that names a slot is of an item that holds the slot. -/
def JobsHoldSlots (s : OpsState) : Prop :=
  ∀ j ∈ s.jobs, ∀ slot_id ∈ given j.slot_id, ∃ item_id ∈ j.content_item_id, HoldsSlot s slot_id item_id

instance : Decidable (HoldsSlot s slot_id item_id) := inferInstanceAs (Decidable (∃ slot ∈ s.slots.rows, _))

instance : Decidable (JobsHoldSlots s) :=
  inferInstanceAs (Decidable (∀ j ∈ s.jobs.table.rows, ∀ slot_id ∈ given j.slot_id, ∃ item_id ∈ j.content_item_id,
    HoldsSlot s slot_id item_id))

/-- **Slots are exclusive.** -/
structure Exclusive (s : OpsState) : Prop where
  holder : ∀ slot_id item_id item_id', HoldsSlot s slot_id item_id → HoldsSlot s slot_id item_id' → item_id = item_id'
  jobs : JobsHoldSlots s

theorem HoldsSlot.unique (h : HoldsSlot s slot_id item_id) (h' : HoldsSlot s slot_id item_id') : item_id = item_id' := by
  obtain ⟨slot, hslot, hid, -, hitem⟩ := h
  obtain ⟨slot', hslot', hid', -, hitem'⟩ := h'
  have hsame : slot = slot' := Table.eq_of_key hslot hslot' (hid.trans hid'.symm)
  rw [hsame] at hitem
  exact Option.some.inj (hitem.symm.trans hitem')

theorem exclusive_iff : Exclusive s ↔ JobsHoldSlots s :=
  ⟨Exclusive.jobs, fun h => ⟨fun _ _ _ => HoldsSlot.unique, h⟩⟩

theorem holdsSlot_congr (h : s'.slots = s.slots) : HoldsSlot s' slot_id item_id ↔ HoldsSlot s slot_id item_id := by
  unfold HoldsSlot
  rw [h]

/-- A slot once it has been taken. -/
def ScheduleSlot.taken (slot : ScheduleSlot) (item_id : String) : ScheduleSlot :=
  if slot.state = .open_ then { slot with state := .filled, content_item_id := some item_id } else slot

theorem ScheduleSlot.slot_id_taken (item_id : String) (slot : ScheduleSlot) :
    (slot.taken item_id).slot_id = slot.slot_id := by
  unfold taken
  split <;> rfl

theorem mem_fillSlot {filled : String} {slot : ScheduleSlot} : slot ∈ (s.fillSlot item_id (some filled)).slots ↔
    (∃ slot₀ ∈ s.slots, slot₀.slot_id = filled ∧ slot₀.taken item_id = slot) ∨
      slot ∈ s.slots ∧ slot.slot_id ≠ filled :=
  Table.mem_update (ScheduleSlot.slot_id_taken item_id)

theorem holdsSlot_fillSlot {filled : Option String} : HoldsSlot (s.fillSlot item_id filled) slot_id item_id' ↔
    HoldsSlot s slot_id item_id' ∨ slot_id ∈ filled ∧ OpenSlot s slot_id ∧ item_id' = item_id := by
  cases filled with
  | none =>
    show HoldsSlot s slot_id item_id' ↔ _
    simp
  | some filled =>
    constructor
    · rintro ⟨slot, hslot, hid, hstate, hitem⟩
      rcases mem_fillSlot.mp hslot with ⟨slot₀, hslot₀, hid₀, htaken⟩ | ⟨hkept, -⟩
      · unfold ScheduleSlot.taken at htaken
        split at htaken
        · -- the slot was open, and is the item's now
          rename_i hopen
          subst htaken
          refine .inr ⟨congrArg some (hid₀.symm.trans hid), ⟨slot₀, hslot₀, hid, hopen⟩, ?_⟩
          exact (Option.some.inj hitem).symm
        · subst htaken
          exact .inl ⟨slot₀, hslot₀, hid, hstate, hitem⟩
      · exact .inl ⟨slot, hkept, hid, hstate, hitem⟩
    · rintro (⟨slot, hslot, hid, hstate, hitem⟩ | ⟨hfilled, ⟨slot, hslot, hid, hopen⟩, rfl⟩)
      · refine ⟨slot, mem_fillSlot.mpr ?_, hid, hstate, hitem⟩
        by_cases hkey : slot.slot_id = filled
        · refine .inl ⟨slot, hslot, hkey, if_neg ?_⟩
          rw [hstate]
          simp
        · exact .inr ⟨hslot, hkey⟩
      · cases hfilled
        refine ⟨{ slot with state := .filled, content_item_id := some item_id' }, ?_, hid, rfl, rfl⟩
        exact mem_fillSlot.mpr (.inl ⟨slot, hslot, hid, if_pos hopen⟩)

/-! ## Scheduling -/

/-- The calls of `schedule_content_item`. -/
def Scheduling : OpsCall → Prop
  | .get_content_item _ | .item_body _ | .get_slot _ => True
  | .schedule_item item_id item slot_id job => SchedulesJob item_id item slot_id job
  | _ => False

/-- If the step is a `schedule_content_item` that succeeds on a slot, the slot is open, or the item's own, or there is a
    job under the key already. -/
def TakesSlot [Sha256] [IsoTime] (m : OpsStage) : Action OpsCalls OpsState OpsOutcome → Prop
  | .call _ (.schedule_item item_id item slot_id job) o =>
    ∀ x, opsExec (.schedule_item item_id item slot_id job) o m.world = .ok x → ∀ k ∈ slot_id,
      OpenSlot m.world k ∨ HoldsSlot m.world k item_id ∨ ∃ j ∈ m.world.jobs, j.idempotency_key = job.idempotency_key
  | _ => True

section

variable [Sha256] [IsoTime] {o : OpsOutcome}

omit [Sha256] in
theorem only_scheduling (r : ScheduleRequest) : (schedule_content_item r).Only Scheduling := by
  refine Program.Only.bind (only_scoped_item trivial) fun item => ?_
  refine (only_time (fun _ => trivial) r).bind fun time => ?_
  dsimp only
  split
  · trivial
  · refine Program.Only.bind (Program.only_perform trivial) fun body => ?_
    refine only_assertTransition fun _ _ => ?_
    refine only_isoText.bind fun due_at => ?_
    exact Program.only_perform ⟨r, due_at, rfl, rfl, rfl⟩

/-- **A schedule keeps slots exclusive** exactly if it takes its slot, or adds no job. -/
theorem exclusive_schedule_iff {item : ContentItem} {slot : Option String} {job : NewJob} {x : ScheduledJob × OpsState}
    (hc : SchedulesJob item_id item slot job) (h : Exclusive s)
    (hexec : opsExec (.schedule_item item_id item slot job) o s = .ok x) :
    (∀ k ∈ slot, OpenSlot s k ∨ HoldsSlot s k item_id ∨ ∃ j ∈ s.jobs, j.idempotency_key = job.idempotency_key) ↔
      Exclusive x.2 := by
  obtain ⟨-, hslots, hcases⟩ := schedule_spec hexec
  obtain ⟨r, due_at, rfl, rfl, rfl⟩ := hc
  have hholds : ∀ {k item_id}, HoldsSlot x.2 k item_id ↔
      HoldsSlot s k item_id ∨ k ∈ given r.slot_id ∧ OpenSlot s k ∧ item_id = r.item_id :=
    (holdsSlot_congr hslots).trans holdsSlot_fillSlot
  have hold : ∀ j ∈ s.jobs, ∀ k ∈ given j.slot_id, ∃ item_id ∈ j.content_item_id, HoldsSlot x.2 k item_id := by
    intro j hj k hk
    obtain ⟨item_id, hitem, hheld⟩ := h.jobs j hj k hk
    exact ⟨item_id, hitem, hholds.mpr (.inl hheld)⟩
  rw [exclusive_iff]
  rcases hcases with ⟨hkey, hjobs⟩ | ⟨hkey, hrow, hmem⟩
  · -- there is a job under the key
    obtain ⟨hfound, hfoundKey⟩ := JobTable.byKey_eq_some.mp hkey
    apply iff_of_true
    · exact fun k _ => .inr (.inr ⟨x.1, hfound, hfoundKey⟩)
    · intro j hj
      rw [hjobs] at hj
      exact hold j hj
  · constructor
    · intro htakes j hj k hk
      rcases (hmem j).mp hj with hj | rfl
      · exact hold j hj k hk
      · rw [hrow] at hk ⊢
        refine ⟨r.item_id, rfl, hholds.mpr ?_⟩
        rcases htakes k hk with hopen | hheld | ⟨j, hj, hjkey⟩
        · exact .inr ⟨hk, hopen, rfl⟩
        · exact .inl hheld
        · exact absurd hjkey (JobTable.byKey_eq_none.mp hkey j hj)
    · intro hjobs k hk
      have hnames : k ∈ given x.1.slot_id := by
        rw [hrow]
        exact hk
      obtain ⟨item_id, hitem, hheld⟩ := hjobs x.1 ((hmem x.1).mpr (.inr rfl)) k hnames
      rw [hrow] at hitem
      cases hitem
      rcases hholds.mp hheld with hheld | ⟨-, hopen, -⟩
      · exact .inr (.inl hheld)
      · exact .inl hopen

variable {c : OpsCall}

theorem after_scheduling (hc : Scheduling c)
    (hreads : ∀ item_id item slot_id job, c ≠ .schedule_item item_id item slot_id job) : opsExec.after c o s = s := by
  cases hexec : opsExec c o s with
  | error e => exact Exec.after_of_error hexec
  | ok x =>
    rw [Exec.after_of_ok hexec]
    have hrun := run_of_exec hexec
    cases c with
    | schedule_item item_id item slot_id job => exact absurd rfl (hreads _ _ _ _)
    | get_content_item | item_body | get_slot =>
      cases hrun
      rfl
    | _ => exact hc.elim

theorem takesSlot_of_ne {m : OpsStage} {i : ℕ}
    (hreads : ∀ item_id item slot_id job, c ≠ .schedule_item item_id item slot_id job) :
    TakesSlot m (.call i c o) := by
  cases c with
  | schedule_item => exact absurd rfl (hreads _ _ _ _)
  | _ => trivial

variable {w : OpsState} {steps : List (OpsStage × Action OpsCalls OpsState OpsOutcome)} {p : Pool OpsCalls OpsState}

/-- **Slots.** In every interleaving of `schedule_content_item` calls slots stay exclusive, if and only if each call that
    succeeds on a slot finds it open, or its own item's, or adds no job. -/
theorem slots_exclusive_iff (hw : Exclusive w) (run : Run scheduling w steps p) :
    (∀ m ∈ visited steps p, Exclusive m.world) ↔ Meets TakesSlot steps := by
  have honly : Meets (fun _ a => a.Calls Scheduling) steps := by
    refine (run.only fun q hq => ?_).1
    obtain ⟨r, rfl⟩ := hq
    exact (only_scheduling r).void
  refine run.always_iff (P := fun m => Exclusive m.world) hw (fun _ _ => trivial) ?_ ?_ honly
  · intro m i c o hc h
    show TakesSlot m (.call i c o) ↔ Exclusive (opsExec.after c o m.world)
    by_cases hreads : ∀ item_id item slot_id job, c ≠ .schedule_item item_id item slot_id job
    · rw [after_scheduling hc hreads]
      exact iff_of_true (takesSlot_of_ne hreads) h
    · push Not at hreads
      obtain ⟨item_id, item, slot_id, job, rfl⟩ := hreads
      rcases hexec : opsExec (.schedule_item item_id item slot_id job) o m.world with e | x
      · rw [Exec.after_of_error hexec]
        refine iff_of_true (fun x hx => ?_) h
        exact nomatch hexec.symm.trans hx
      · rw [Exec.after_of_ok hexec, ← exclusive_schedule_iff hc h hexec]
        constructor
        · exact fun htakes => htakes x hexec
        · intro htakes y hy
          cases hexec.symm.trans hy
          exact htakes
  · intro m w' h henv
    cases henv
    exact ⟨trivial, h⟩

end

/-! ## Two items and a slot -/

attribute [local instance] Canonical.mixHash morningTime

def anItem (item_id : String) : ItemRow := ⟨{ readyItem with content_item_id := item_id }, {}⟩

def slotAtNine : ScheduleSlot where
  slot_id := "slot-1"
  calendar_id := "cal-1"
  tenant_id := "t"
  project_id := "p"
  content_item_id := none
  channel := "web"
  scheduled_for := hourText 9
  state := .open_

def twoItems : OpsState := stocked [anItem "cnt-1", anItem "cnt-2"] [slotAtNine]

def onSlot (item_id : String) : ScheduleRequest where
  project_id := "p"
  item_id
  actor := "u"
  slot_id := some "slot-1"

/-- Both items are scheduled on the slot, the workers taking their turns. -/
def onOneSlot (turns : List (Fin 2)) : List (Move OpsCalls OpsState OpsOutcome) :=
  ["cnt-1", "cnt-2"].map (fun item_id => .start (schedule_content_item (onSlot item_id)).void) ++
    turns.map fun i => .call i { smoothly with fresh := fun _ => ⟨[i.castLE (by decide)]⟩ }

theorem allowed_onOneSlot (turns : List (Fin 2)) : ∀ x ∈ onOneSlot turns, x.Allowed scheduling := by
  intro x hx
  rcases List.mem_append.mp hx with hx | hx
  · obtain ⟨item_id, -, rfl⟩ := List.mem_map.mp hx
    exact ⟨_, rfl⟩
  · obtain ⟨i, -, rfl⟩ := List.mem_map.mp hx
    trivial

theorem exclusive_stocked {items : List ItemRow} {slots : List ScheduleSlot} : Exclusive (stocked items slots) :=
  exclusive_iff.mpr fun _ hj => nomatch hj

/-- **Two items have a job on one slot**: both find it open before either fills it. -/
theorem slot_has_two_jobs : ∃ w steps p, Exclusive w ∧ Run scheduling w steps p ∧
    ¬ ∀ m ∈ visited steps p, Exclusive m.world := by
  refine ⟨twoItems, _, _, exclusive_stocked, play_run (allowed_onOneSlot [0, 0, 0, 1, 1, 1, 0, 1]), fun h => ?_⟩
  have hjobs := (h _ (stage_mem_visited _ _)).jobs
  exact absurd hjobs (by decide +kernel)

/-- One after the other, the second of them does not get the slot. -/
theorem slots_exclusive_iff_in_turn :
    (∀ m ∈ visited (play scheduling (Pool.init twoItems) (onOneSlot [0, 0, 0, 0, 1, 1, 1, 1])).1
        (play scheduling (Pool.init twoItems) (onOneSlot [0, 0, 0, 0, 1, 1, 1, 1])).2, Exclusive m.world) ↔
      Meets TakesSlot (play scheduling (Pool.init twoItems) (onOneSlot [0, 0, 0, 0, 1, 1, 1, 1])).1 :=
  slots_exclusive_iff exclusive_stocked (play_run (allowed_onOneSlot _))

end Content
