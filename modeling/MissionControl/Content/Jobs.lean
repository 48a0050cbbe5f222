import MissionControl.Content.Proper
import MissionControl.Projects.Restore
import MissionControl.Reliability.Audit

/-! # What scheduling an item leaves

A publish job has a key made of its item, the item's version and its time, and `schedule_content_item` writes a job only
where there is none under the key: otherwise it returns the job there is, whatever has become of it.

* **Keys are told apart** by item, version and time, as an identifier has no colon (`publishKey_inj`).
* **Tidy tables** (`Tidy`): every publish job has the key of its item, its version and its time, and a live one is of
  the item's current version. All operations keep them so (`tidy_of_run`).
* **When scheduling leaves a live job**: exactly when the key is free, or its job is live (`schedule_leaves_live_iff`). -/

namespace Content

open Canonical (Sha256 Value)
open Interleaving
open Relational (Table)

/-! ## Keys -/

/-- An identifier as `content_item_id` has them. -/
def NoColon (text : String) : Prop := ':' ∉ text.toList

theorem colon_notMem_digits (n : ℕ) : ':' ∉ Encoding.digits n := by
  intro h
  have hdigit := Encoding.isDigit_of_mem_digits h
  revert hdigit
  decide

variable {version : ℕ} {item_id : String}

variable {due_at : String}

/-- **The key of a publish job** tells the item, the version and the time. -/
theorem publishKey_inj {item_id' due_at' : String} {version' : ℕ} (hid : NoColon item_id)
    (hid' : NoColon item_id') (h : publishKey item_id version due_at = publishKey item_id' version' due_at') :
    item_id = item_id' ∧ version = version' ∧ due_at = due_at' := by
  have hlist : item_id.toList ++ ':' :: ('v' :: (Encoding.digits version ++ ':' :: due_at.toList)) =
      item_id'.toList ++ ':' :: ('v' :: (Encoding.digits version' ++ ':' :: due_at'.toList)) := by
    have hkeys := congrArg String.toList h
    simpa [publishKey, String.toList_append, Encoding.digits] using hkeys
  obtain ⟨hitem, hrest⟩ := Encoding.terminated_inj hid hid' hlist
  obtain ⟨-, hrest⟩ := List.cons.inj hrest
  obtain ⟨hversion, hdue⟩ := Encoding.terminated_inj (colon_notMem_digits _) (colon_notMem_digits _) hrest
  exact ⟨String.toList_injective hitem, Encoding.digits_inj hversion, String.toList_injective hdue⟩

theorem noColon_itemId (h : Hex) : NoColon (itemId h) := by
  have hdigit : ∀ d : Fin 16, hexDigits.getD d '0' ≠ ':' := by decide
  intro hmem
  have hsplit : ':' ∈ "cnt-".toList ∨ ':' ∈ h.digits.map fun d : Fin 16 => hexDigits.getD d '0' := by
    simpa [itemId, Hex.text, String.toList_append] using hmem
  rcases hsplit with hcnt | hhex
  · revert hcnt
    decide
  · obtain ⟨d, -, hd⟩ := List.mem_map.mp hhex
    exact hdigit d hd

/-! ## Tidy tables -/

/-- The job publishes a version of an item, under the key of the two and its time. -/
structure Publishes (j : ScheduledJob) (item_id : String) (version : ℕ) : Prop where
  job_kind : j.job_kind = .PUBLISH
  content_item_id : j.content_item_id = some item_id
  payload_version : j.payload.version = some version
  idempotency_key : j.idempotency_key = publishKey item_id version j.due_at

structure Tidy (s : OpsState) : Prop where
  ids : ∀ r ∈ s.items, NoColon r.content_item_id
  /-- A job is a publish job of an item, or it is another kind of job, under another kind of key. -/
  keys : ∀ j ∈ s.jobs, (∃ item_id version, NoColon item_id ∧ Publishes j item_id version) ∨
    j.job_kind ≠ .PUBLISH ∧ ∀ item_id version due_at, j.idempotency_key ≠ publishKey item_id version due_at
  /-- A live publish job is of the version its item has. -/
  current : ∀ j ∈ s.jobs, j.job_kind = .PUBLISH → j.Live → ∃ r ∈ s.items,
    j.content_item_id = some r.content_item_id ∧ j.payload.version = some r.item.version

theorem Publishes.step {j j' : ScheduledJob} (h : Publishes j item_id version) {Takes : String → Prop}
    (hstep : JobStep Takes j j') : Publishes j' item_id version where
  job_kind := hstep.job_kind.trans h.job_kind
  content_item_id := hstep.content_item_id.trans h.content_item_id
  payload_version := (congrArg JobPayload.version hstep.payload).trans h.payload_version
  idempotency_key := by rw [hstep.idempotency_key, h.idempotency_key, hstep.due_at]

theorem publishes_row (r : ScheduleRequest) (item : ContentItem) (due_at job_id : String) :
    Publishes ((publishJob r item due_at).row job_id) r.item_id item.version :=
  ⟨rfl, rfl, rfl, rfl⟩

theorem ne_publishKey {text : String} (h : text.toList.head? ≠ some 'p') :
    text ≠ publishKey item_id version due_at := by
  rintro rfl
  apply h
  simp [publishKey, String.toList_append]

theorem head_refreshKey (project_id item_id : String) (item : ContentItem) (due_at : String) :
    (refreshJob project_id item_id item due_at).idempotency_key.toList.head? ≠ some 'p' := by
  simp [refreshJob, toString, String.toList_append]

theorem head_journeyKey [IsoTime] (journey : Journey) (index : ℕ) (step : JourneyStep) (item : ContentItem) :
    (OpsState.journeyJob journey index step item).idempotency_key.toList.head? ≠ some 'p' := by
  simp [OpsState.journeyJob, toString, String.toList_append]

section

variable [Sha256] [IsoTime] {c : OpsCall} {o : OpsOutcome} {s : OpsState}

variable {item : ContentItem} {item_id : String}

variable {x : ScheduledJob × OpsState} {slot_id : Option String} {job : NewJob}

/-- **What a schedule that went through did**: the item was as it had been read, and the job is the one there was under
    the key, or a new one. -/
theorem schedule_spec (h : opsExec (.schedule_item item_id item slot_id job) o s = .ok x) :
    s.Unmoved item_id item ∧ x.2.slots = (s.fillSlot item_id slot_id).slots ∧
      (s.jobs.byKey job.idempotency_key = some x.1 ∧ x.2.jobs = s.jobs ∨
        s.jobs.byKey job.idempotency_key = none ∧ x.1 = job.row (OpsState.jobId (o.fresh 0)) ∧
          ∀ j, j ∈ x.2.jobs ↔ j ∈ s.jobs ∨ j = x.1) := by
  have hrun := run_of_exec h
  simp only [OpsCall.run, OpsState.schedule_item] at hrun
  split at hrun
  · rename_i hunmoved
    have hjobs : ((s.updateItem item_id (·.moved .SCHEDULED) fun _ => rfl).fillSlot item_id slot_id).jobs = s.jobs :=
      OpsState.jobs_fillSlot
    have hslots : ((s.updateItem item_id (·.moved .SCHEDULED) fun _ => rfl).fillSlot item_id slot_id).slots =
        (s.fillSlot item_id slot_id).slots := by cases slot_id <;> rfl
    rcases OpsState.insert_job_spec hrun with ⟨hkey, hsame⟩ | ⟨hkey, hrow, -, hslots', hmem⟩
    · rw [hjobs] at hkey
      rw [hsame]
      exact ⟨hunmoved, hslots, .inl ⟨hkey, hjobs⟩⟩
    · rw [hjobs] at hkey
      refine ⟨hunmoved, hslots'.trans hslots, .inr ⟨hkey, hrow, fun j => ?_⟩⟩
      rw [hmem, hjobs]
  · cases hrun

theorem revise_cancels {body : ContentBody} {new_state : ContentState} {x : Unit × OpsState}
    (h : opsExec (.revise_item item_id item body new_state) o s = .ok x) {j : ScheduledJob} (hj : j ∈ x.2.jobs)
    (hitem : j.content_item_id = some item_id) : ¬ j.Live := by
  have hrun := run_of_exec h
  simp only [OpsCall.run, OpsState.revise_item] at hrun
  split at hrun
  · cases hrun
    obtain ⟨j₀, -, rfl⟩ := List.mem_map.mp hj
    unfold OpsState.cancelJob at hitem ⊢
    split
    · simp [ScheduledJob.Live]
    · rename_i hkept
      rw [if_neg hkept] at hitem
      exact fun hlive => hkept ⟨hitem, hlive⟩
  · cases hrun

omit [Sha256] [IsoTime] in
theorem version_of_edits {r r' : ItemRow} (h : Edits s c r r') : r'.item.version = r.item.version ∨
    ∃ item body new_state, c = .revise_item r.content_item_id item body new_state := by
  cases h with
  | revises => exact .inr ⟨_, _, _, rfl⟩
  | _ => exact .inl rfl

/-- **A proper call keeps tables tidy.** -/
theorem tidy_after (hc : Proper c) (h : Tidy s) : Tidy (opsExec.after c o s) := by
  cases hexec : opsExec c o s with
  | error e =>
    rw [Exec.after_of_error hexec]
    exact h
  | ok x =>
    have hafter : opsExec.after c o s = x.2 := Exec.after_of_ok hexec
    have hjobs := jobs_after (o := o) (s := s) hc
    constructor
    · intro r' hr'
      rcases item_before hr' with ⟨r, hr, hid, -⟩ | ⟨rfl, -⟩
      · rw [hid]
        exact h.ids r hr
      · obtain ⟨⟨fresh, hfresh⟩, -⟩ := hc
        rw [hfresh]
        exact noColon_itemId fresh
    · intro j' hj'
      rcases hjobs.before j' hj' with ⟨j, hj, hstep⟩ | ⟨n, job_id, hn, rfl⟩
      · rcases h.keys j hj with ⟨item_id, version, hid, hpublishes⟩ | ⟨hkind, hkey⟩
        · exact .inl ⟨item_id, version, hid, hpublishes.step hstep⟩
        · refine .inr ⟨?_, ?_⟩
          · rw [hstep.job_kind]
            exact hkind
          · rw [hstep.idempotency_key]
            exact hkey
      · cases c with
        | schedule_item item_id item slot_id job =>
          obtain ⟨⟨r₀, hr₀, -⟩, -⟩ := schedule_spec hexec
          obtain ⟨-, r, due_at, rfl, -, hjob⟩ := hc
          obtain rfl : n = publishJob r item due_at := hn.trans hjob
          refine .inl ⟨r.item_id, item.version, ?_, publishes_row r item due_at job_id⟩
          rw [← Table.key_of_find? hr₀]
          exact h.ids r₀ (Table.mem_of_find? hr₀)
        | insert_job job =>
          obtain ⟨project_id, item_id, item, due_at, hjob⟩ := hc
          obtain rfl : n = refreshJob project_id item_id item due_at := hn.trans hjob
          refine .inr ⟨by simp [NewJob.row, refreshJob], fun _ _ _ => ?_⟩
          exact ne_publishKey (head_refreshKey project_id item_id item due_at)
        | insert_journey journey =>
          obtain ⟨index, step, item, rfl⟩ := hn
          refine .inr ⟨by simp [NewJob.row, OpsState.journeyJob], fun _ _ _ => ?_⟩
          exact ne_publishKey (head_journeyKey journey index step item)
        | _ => exact hn.elim
    · intro j' hj' hkind hlive
      rcases hjobs.before j' hj' with ⟨j, hj, hstep⟩ | ⟨n, job_id, hn, rfl⟩
      · rw [hstep.job_kind] at hkind
        obtain ⟨r, hr, hitem, hversion⟩ := h.current j hj hkind (hstep.live hlive)
        obtain ⟨r', hr', hid, hedits⟩ := item_after (c := c) (o := o) hr
        have hitem' : j'.content_item_id = some r.content_item_id := hstep.content_item_id.trans hitem
        refine ⟨r', hr', hid ▸ hitem', ?_⟩
        rcases version_of_edits hedits with hsame | ⟨item, body, new_state, rfl⟩
        · rw [hsame, hstep.payload]
          exact hversion
        · -- the edit has cancelled the job
          exact absurd hlive (revise_cancels hexec (hafter ▸ hj') hitem')
      · cases c with
        | schedule_item item_id item slot_id job =>
          obtain ⟨⟨r₀, hr₀, -, hversion⟩, -⟩ := schedule_spec hexec
          obtain ⟨-, r, due_at, rfl, -, hjob⟩ := hc
          obtain rfl : n = publishJob r item due_at := hn.trans hjob
          obtain ⟨r', hr', hid, hedits⟩ := item_after (c := .schedule_item r.item_id item slot_id job) (o := o)
            (Table.mem_of_find? hr₀)
          refine ⟨r', hr', ?_, ?_⟩
          · rw [hid, Table.key_of_find? hr₀]
            rfl
          · rcases version_of_edits hedits with hsame | ⟨_, _, _, hrevise⟩
            · rw [hsame, hversion]
              rfl
            · cases hrevise
        | insert_job job =>
          obtain ⟨project_id, item_id, item, due_at, hjob⟩ := hc
          obtain rfl : n = refreshJob project_id item_id item due_at := hn.trans hjob
          simp [NewJob.row, refreshJob] at hkind
        | insert_journey journey =>
          obtain ⟨index, step, item, rfl⟩ := hn
          simp [NewJob.row, OpsState.journeyJob] at hkind
        | _ => exact hn.elim

/-! ## Scheduling -/

/-- There is a live publish job of the item at the time. -/
def HasLiveJob (s : OpsState) (item_id due_at : String) : Prop :=
  ∃ j ∈ s.jobs, j.job_kind = .PUBLISH ∧ j.content_item_id = some item_id ∧ j.due_at = due_at ∧ j.Live

/-- If the step is a `schedule_content_item` that succeeds, it leaves a live publish job of the item at the time. -/
def LeavesLiveJob (m : OpsStage) : Action OpsCalls OpsState OpsOutcome → Prop
  | .call _ (.schedule_item item_id item slot_id job) o =>
    ∀ x, opsExec (.schedule_item item_id item slot_id job) o m.world = .ok x → HasLiveJob x.2 item_id job.due_at
  | _ => True

/-- If the step is a `schedule_content_item` that succeeds, the job that has its key already is live. -/
def FindsLiveJob (m : OpsStage) : Action OpsCalls OpsState OpsOutcome → Prop
  | .call _ (.schedule_item item_id item slot_id job) o =>
    ∀ x, opsExec (.schedule_item item_id item slot_id job) o m.world = .ok x →
      ∀ j ∈ m.world.jobs, j.idempotency_key = job.idempotency_key → j.Live
  | _ => True

/-- The live job after a schedule is the one under the key. -/
theorem hasLiveJob_iff (hc : Proper (.schedule_item item_id item slot_id job)) (h : Tidy s)
    (hexec : opsExec (.schedule_item item_id item slot_id job) o s = .ok x) : HasLiveJob x.2 item_id job.due_at ↔
      ∀ j ∈ s.jobs, j.idempotency_key = job.idempotency_key → j.Live := by
  obtain ⟨⟨r₀, hr₀, -, hversion⟩, -, hcases⟩ := schedule_spec hexec
  obtain ⟨-, r, due_at, rfl, -, rfl⟩ := hc
  have hid : NoColon r.item_id := Table.key_of_find? hr₀ ▸ h.ids r₀ (Table.mem_of_find? hr₀)
  rcases hcases with ⟨hkey, hjobs⟩ | ⟨hkey, hrow, hmem⟩
  · obtain ⟨hfound, hfoundKey⟩ := JobTable.byKey_eq_some.mp hkey
    have honly : ∀ j ∈ s.jobs, j.idempotency_key = (publishJob r item due_at).idempotency_key → j = x.1 := by
      intro j hj hjkey
      exact List.inj_on_of_nodup_map s.jobs.keys hj hfound (hjkey.trans hfoundKey.symm)
    constructor
    · rintro ⟨j, hj, hkind, hitem, hdue, hlive⟩ j₀ hj₀ hkey₀
      rw [hjobs] at hj
      -- a live job of the item is of its version, so it is the job under the key
      rcases h.keys j hj with ⟨item_id, version, -, hpublishes⟩ | ⟨hne, -⟩
      · obtain ⟨r₁, hr₁, hitem₁, hversion₁⟩ := h.current j hj hkind hlive
        obtain rfl : r.item_id = item_id := Option.some.inj (hitem.symm.trans hpublishes.content_item_id)
        have hr₁id : r₁.content_item_id = r.item_id := Option.some.inj (hitem₁.symm.trans hitem)
        have hsame : r₁ = r₀ := eq_row hr₁ hr₀ hr₁id
        have hcurrent : version = item.version := by
          rw [hsame, hversion] at hversion₁
          exact Option.some.inj (hpublishes.payload_version.symm.trans hversion₁)
        have hjkey : j.idempotency_key = (publishJob r item due_at).idempotency_key := by
          rw [hpublishes.idempotency_key, hcurrent, hdue]
          rfl
        rw [honly j₀ hj₀ hkey₀, ← honly j hj hjkey]
        exact hlive
      · exact absurd hkind hne
    · intro hlive
      have hfoundLive := hlive x.1 hfound hfoundKey
      rcases h.keys x.1 hfound with ⟨item_id, version, hid', hpublishes⟩ | ⟨-, hne⟩
      · have hkeys := hpublishes.idempotency_key.symm.trans hfoundKey
        obtain ⟨rfl, -, hdue⟩ := publishKey_inj hid' hid hkeys
        exact ⟨x.1, hjobs ▸ hfound, hpublishes.job_kind, hpublishes.content_item_id, hdue, hfoundLive⟩
      · exact absurd hfoundKey (hne _ _ _)
  · constructor
    · intro _ j hj hjkey
      exact absurd hjkey (JobTable.byKey_eq_none.mp hkey j hj)
    · intro _
      have hpublishes : Publishes x.1 r.item_id item.version := hrow ▸ publishes_row r item due_at _
      refine ⟨x.1, (hmem x.1).mpr (.inr rfl), hpublishes.job_kind, hpublishes.content_item_id, ?_, ?_⟩
      · rw [hrow]
        rfl
      · rw [hrow]
        exact .inl rfl

section

variable [Json] {hash_payload : List (String × Agency.ArtifactStatus) → String} {fuel : ℕ} {w : OpsState}
  {steps : List (OpsStage × Action OpsCalls OpsState OpsOutcome)} {p : Pool OpsCalls OpsState}

theorem proper_of_run (run : Run (operations hash_payload fuel) w steps p) :
    Meets (fun _ a => a.Calls Proper) steps := by
  refine (run.only fun q hq => ?_).1
  obtain ⟨op, rfl⟩ := hq
  exact only_proper hash_payload fuel op

/-- **Every run keeps tables tidy.** -/
theorem tidy_of_run (hw : Tidy w) (run : Run (operations hash_payload fuel) w steps p) {m : OpsStage}
    (hm : m ∈ visited steps p) : Tidy m.world := by
  refine run.steps_of_meets (P := fun m => Tidy m.world) (C := fun _ a => a.Calls Proper) hw ?_ ?_
    (proper_of_run run) hm
  · exact fun m i c o h hc => tidy_after hc h
  · intro m w' h henv
    have hjobs : w'.jobs = m.world.jobs := henv.jobs
    have hitems : w'.items = m.world.items := henv.items
    refine ⟨?_, ?_, ?_⟩
    · rw [hitems]
      exact h.ids
    · rw [hjobs]
      exact h.keys
    · rw [hjobs, hitems]
      exact h.current

/-- **Scheduling.** In every run of the operations every `schedule_content_item` that succeeds leaves a live publish job
    of the item at the time that was asked for, if and only if each of them finds its key free, or finds a live job
    under it. -/
theorem schedule_leaves_live_iff (hw : Tidy w) (run : Run (operations hash_payload fuel) w steps p) :
    Meets LeavesLiveJob steps ↔ Meets FindsLiveJob steps := by
  refine forall_congr' fun x => forall_congr' fun hx => ?_
  obtain ⟨m, a⟩ := x
  cases a with
  | call i c o =>
    have hproper : Proper c := proper_of_run run _ hx
    have htidy : Tidy m.world := tidy_of_run hw run (List.mem_append_left _ (List.mem_map_of_mem hx))
    cases c with
    | schedule_item item_id item slot_id job =>
      exact forall_congr' fun x => forall_congr' fun hexec => hasLiveJob_iff hproper htidy hexec
    | _ => exact Iff.rfl
  | start q => exact Iff.rfl
  | env w' => exact Iff.rfl

end

end

/-! ## A time that is asked for again -/

/-- The hours of one morning, as texts. -/
def hourText (hour : ℕ) : String := "2026-10-01T0" ++ Nat.repr hour ++ ":00:00+00:00"

/-- The moments of that morning, to compute with. -/
@[reducible] def morningTime : IsoTime where
  parse_ts text :=
    match (List.range 10).find? fun hour => hourText hour = text with
    | some hour => .ok ⟨(1790812800 + 3600 * hour) * 1000000, some 0⟩
    | none => .error ("Invalid isoformat string: " ++ text)
  isoformat moment := hourText ((moment.moment / 1000000 - 1790812800) / 3600).toNat

/-- A line of its own, so deep, or none where the JSON is compact. -/
def jsonLine (pretty : Bool) (depth : ℕ) : String :=
  if pretty then String.ofList ('\n' :: List.replicate (2 * depth) ' ') else ""

/-- `"key": ` -/
def jsonKey (pretty : Bool) (key : String) : String := "\"" ++ key ++ "\":" ++ if pretty then " " else ""

mutual

/-- The JSON of a value whose keys are sorted and whose texts need no escapes. Floats and byte strings are left out. -/
def jsonText (pretty : Bool) (depth : ℕ) : Value → String
  | .none | .float _ | .bytes _ => "null"
  | .bool b => if b then "true" else "false"
  | .int n => toString n
  | .str text => "\"" ++ text ++ "\""
  | .list [] => "[]"
  | .list (v :: items) =>
    "[" ++ jsonLine pretty (depth + 1) ++ jsonText pretty (depth + 1) v ++ jsonItems pretty (depth + 1) items ++
      jsonLine pretty depth ++ "]"
  | .dict [] => "\x7b\x7d"
  | .dict ((key, v) :: items) =>
    "\x7b" ++ jsonLine pretty (depth + 1) ++ jsonKey pretty key ++ jsonText pretty (depth + 1) v ++
      jsonPairs pretty (depth + 1) items ++ jsonLine pretty depth ++ "\x7d"

def jsonItems (pretty : Bool) (depth : ℕ) : List Value → String
  | [] => ""
  | v :: items => "," ++ jsonLine pretty depth ++ jsonText pretty depth v ++ jsonItems pretty depth items

def jsonPairs (pretty : Bool) (depth : ℕ) : List (String × Value) → String
  | [] => ""
  | (key, v) :: items =>
    "," ++ jsonLine pretty depth ++ jsonKey pretty key ++ jsonText pretty depth v ++ jsonPairs pretty depth items

end

/-- JSON to compute with. -/
@[reducible] def plainJson : Json where
  dumps v := jsonText true 0 v.normal
  canonical_json v := (jsonText false 0 v.normal).toUTF8.toList

attribute [local instance] Canonical.mixHash morningTime plainJson

/-- Nothing raises, and the outside has no objections. -/
def smoothly : OpsOutcome where
  artifact := Projects.calmly
  trust := Reliability.calm
  fault := false
  fresh _ := ⟨[0, 1]⟩
  atom := none
  workspace := true
  rights := ⟨true, none⟩
  mode := .LIVE
  provider := .ok ⟨"mock", .LIVE⟩
  problems := []
  published := .uncertain "TimeoutError"
  observed := none

/-- An item that is ready, of its first version. -/
def readyItem : ContentItem where
  content_item_id := "cnt-1"
  tenant_id := "t"
  project_id := "p"
  campaign_id := none
  atom_id := none
  artifact_id := none
  kind := .ARTICLE
  channel := "web"
  title := "First"
  state := .READY
  version := 1
  claim_refs := []
  rights_ref := none
  approved_version := some 1
  approval_ref := some "content-approval:cnt-1:v1:u"
  evidence_fresh_until := none
  created_by := "u"

/-- The tables with some items, and open slots. -/
def stocked (items : List ItemRow) (slots : List ScheduleSlot) : OpsState where
  office := Projects.noArtifacts
  items := items.foldl Table.put .empty
  slots := slots.foldl Table.put .empty
  jobs := .empty
  attempts := .empty
  trust := Reliability.oneProject

def oneItem : OpsState := stocked [⟨readyItem, {}⟩] []

def atNine : ScheduleRequest where
  project_id := "p"
  item_id := "cnt-1"
  actor := "u"
  scheduled_for := some (hourText 9)

def offSchedule : TransitionRequest where
  project_id := "p"
  item_id := "cnt-1"
  target := .READY
  actor := "u"

/-- A line of a schedule: an operation starts, or a worker makes its next call. -/
def line : Operation ⊕ ℕ × OpsOutcome → Move OpsCalls OpsState OpsOutcome
  | .inl op => .start (op.program (fun _ => "h") 9)
  | .inr (i, o) => .call i o

/-- A worker makes some calls. -/
def turns (i n : ℕ) : List (Operation ⊕ ℕ × OpsOutcome) := List.replicate n (.inr (i, smoothly))

theorem allowed_line {lines : List (Operation ⊕ ℕ × OpsOutcome)} :
    ∀ x ∈ lines.map line, x.Allowed (operations (fun _ => "h") 9) := by
  intro x hx
  obtain ⟨op | ⟨i, o⟩, -, rfl⟩ := List.mem_map.mp hx
  · exact ⟨op, rfl⟩
  · trivial

/-- What the lines lead to. -/
def plays (w : OpsState) (lines : List (Operation ⊕ ℕ × OpsOutcome)) :
    List (OpsStage × Action OpsCalls OpsState OpsOutcome) × Pool OpsCalls OpsState :=
  play (operations (fun _ => "h") 9) (Pool.init w) (lines.map line)

theorem run_plays (w : OpsState) (lines : List (Operation ⊕ ℕ × OpsOutcome)) :
    Run (operations (fun _ => "h") 9) w (plays w lines).1 (plays w lines).2 :=
  play_run allowed_line

/-- An item is scheduled, taken off the schedule, and scheduled for the same time. -/
def scheduledAgain : List (Operation ⊕ ℕ × OpsOutcome) :=
  .inl (.schedule atNine) :: turns 0 3 ++ .inl (.transition offSchedule) :: turns 1 4 ++
    .inl (.schedule atNine) :: turns 2 3

theorem tidy_stocked {items : List ItemRow} {slots : List ScheduleSlot}
    (h : ∀ r ∈ (stocked items slots).items, NoColon r.content_item_id) : Tidy (stocked items slots) where
  ids := h
  keys _ hj := nomatch hj
  current _ hj := nomatch hj

/-- `LeavesLiveJob`, to compute with. -/
def leavesLiveJob (m : OpsStage) : Action OpsCalls OpsState OpsOutcome → Bool
  | .call _ (.schedule_item item_id item slot_id job) o =>
    match opsExec (.schedule_item item_id item slot_id job) o m.world with
    | .ok x => x.2.jobs.table.rows.any fun j =>
      j.job_kind = .PUBLISH ∧ j.content_item_id = some item_id ∧ j.due_at = job.due_at ∧ j.Live
    | .error _ => true
  | _ => true

theorem leavesLiveJob_of {m : OpsStage} {a : Action OpsCalls OpsState OpsOutcome} (h : LeavesLiveJob m a) :
    leavesLiveJob m a = true := by
  unfold leavesLiveJob
  split
  · split
    · rename_i x hexec
      obtain ⟨j, hj, hlive⟩ := h x hexec
      exact List.any_eq_true.mpr ⟨j, hj, decide_eq_true hlive⟩
    · rfl
  · rfl

theorem tidy_oneItem : Tidy oneItem := by
  refine tidy_stocked fun r hr => ?_
  obtain rfl : r = ⟨readyItem, {}⟩ := List.mem_singleton.mp hr
  unfold NoColon
  decide

/-- **A cancelled job stands in for the one that is asked for.** -/
theorem rescheduled_without_job : ∃ w steps p, Tidy w ∧ Run (operations (fun _ => "h") 9) w steps p ∧
    ¬ Meets LeavesLiveJob steps := by
  refine ⟨oneItem, _, _, tidy_oneItem, run_plays oneItem scheduledAgain, fun hmeets => ?_⟩
  have hfails : (plays oneItem scheduledAgain).1.all (fun x => leavesLiveJob x.1 x.2) = false := by decide +kernel
  have hleaves := List.all_eq_true.mpr fun x hx => leavesLiveJob_of (hmeets x hx)
  exact Bool.noConfusion (hfails.symm.trans hleaves)

/-- A schedule that finds its key free. -/
theorem schedule_leaves_live_iff_once :
    Meets LeavesLiveJob (plays oneItem (.inl (.schedule atNine) :: turns 0 3)).1 ↔
      Meets FindsLiveJob (plays oneItem (.inl (.schedule atNine) :: turns 0 3)).1 :=
  schedule_leaves_live_iff tidy_oneItem (run_plays oneItem _)

end Content
