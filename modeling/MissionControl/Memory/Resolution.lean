import MissionControl.Memory.Safety
import MissionControl.Python.Iso

/-! # Resolving a subject

What is known of a subject: the active record of highest authority that is still fresh, with every alternative that it
shadows or that is stale. -/

namespace Memory

open Python

/-- `_fresh(record, now)`, with `now` in microseconds of UTC. A text that names no moment raises. -/
def _fresh (r : MemoryRecord) (now : Int) : Option Bool :=
  match r.fresh_until with
  | none => some true
  | some text =>
    if text = "" then some true
    else match parseDatetime text.toList with
      | some (time, some offset) => some (decide (now ≤ time - offset))
      -- not a time, or a local time, which compares with no moment
      | _ => none

/-- What `resolve` returns. -/
structure Resolution where
  winner : Option MemoryRecord
  authority : Option MemoryAuthority
  shadowed : List String
  stale : List String
  resolved : Bool

/-- Authority first; at equal authority, project-scoped memory beats tenant-wide agency memory; then the newest record. -/
def MemoryRecord.Leads (a b : MemoryRecord) : Prop :=
  authority_rank b.authority < authority_rank a.authority ∨ authority_rank b.authority = authority_rank a.authority ∧
    (b.project_id.isSome < a.project_id.isSome ∨
      b.project_id.isSome = a.project_id.isSome ∧ b.created_at ≤ a.created_at)

instance (a b : MemoryRecord) : Decidable (a.Leads b) := by
  unfold MemoryRecord.Leads
  infer_instance

/-- `resolve(records, now=now)` -/
def resolve (records : List MemoryRecord) (now : Int) : Option Resolution := do
  let candidates := records.filter fun r => r.status = .ACTIVE
  let marked ← candidates.mapM fun r => (_fresh r now).map fun fresh => (r, fresh)
  let fresh := ((marked.filter (·.2)).map (·.1)).insertionSort MemoryRecord.Leads
  let winner := fresh.head?
  return {
    winner := winner
    authority := winner.map (·.authority)
    shadowed := ((fresh.drop 1).filter fun r => winner.any fun w => r.content_hash != w.content_hash).map (·.memory_id)
    stale := (marked.filter fun mark => !mark.2).map (·.1.memory_id)
    resolved := winner.isSome }

/-- The rows `resolve_memory` selects. -/
def selected (records : List MemoryRecord) (tenant_id project_id subject_key : String) : List MemoryRecord :=
  records.filter fun r => r.tenant_id = tenant_id ∧ r.subject_key = subject_key ∧
    (r.project_id = some project_id ∨ r.project_id = none)

/-- Project memory first; agency memory (M0) only fills a gap, never overrides. -/
def resolve_memory (records : List MemoryRecord) (tenant_id project_id subject_key : String) (now : Int) : Option Resolution :=
  resolve (selected records tenant_id project_id subject_key) now

variable {records : List MemoryRecord} {now : Int} {result : Resolution}

theorem mem_of_marked {marked : List (MemoryRecord × Bool)} {candidates : List MemoryRecord}
    (h : candidates.mapM (fun r => (_fresh r now).map fun fresh => (r, fresh)) = some marked) :
    marked.map (·.1) = candidates := by
  induction candidates generalizing marked with
  | nil =>
    obtain rfl := Option.some.inj h
    rfl
  | cons r rest ih =>
    rw [List.mapM_cons] at h
    cases hfresh : _fresh r now with
    | none =>
      rw [hfresh] at h
      cases h
    | some fresh =>
      rw [hfresh] at h
      cases hrest : rest.mapM (fun r => (_fresh r now).map fun fresh => (r, fresh)) with
      | none =>
        rw [hrest] at h
        cases h
      | some marked' =>
        rw [hrest] at h
        obtain rfl := Option.some.inj h
        rw [List.map_cons, ih hrest]

/-- **A resolution names active records only.** -/
theorem resolve_active (h : resolve records now = some result) :
    (∀ w, result.winner = some w → w ∈ records ∧ w.status = .ACTIVE) ∧
    (∀ id ∈ result.shadowed ++ result.stale, ∃ r ∈ records, r.status = .ACTIVE ∧ r.memory_id = id) := by
  unfold resolve at h
  cases hmarked : (records.filter fun r => r.status = .ACTIVE).mapM
      (fun r => (_fresh r now).map fun fresh => (r, fresh)) with
  | none =>
    dsimp only at h
    rw [hmarked] at h
    cases h
  | some marked =>
    dsimp only at h
    rw [hmarked] at h
    obtain rfl := Option.some.inj h
    have hcandidate : ∀ mark ∈ marked, mark.1 ∈ records ∧ mark.1.status = .ACTIVE := by
      intro mark hmark
      have hin : mark.1 ∈ marked.map (·.1) := List.mem_map_of_mem hmark
      rw [mem_of_marked hmarked, List.mem_filter, decide_eq_true_eq] at hin
      exact hin
    have hfresh : ∀ r ∈ ((marked.filter (·.2)).map (·.1)).insertionSort MemoryRecord.Leads,
        r ∈ records ∧ r.status = .ACTIVE := by
      intro r hr
      rw [List.mem_insertionSort] at hr
      obtain ⟨mark, hmark, rfl⟩ := List.mem_map.mp hr
      exact hcandidate mark (List.mem_filter.mp hmark).1
    constructor
    · intro w hw
      exact hfresh w (List.mem_of_head? hw)
    · intro id hid
      rcases List.mem_append.mp hid with hid | hid
      · obtain ⟨r, hr, rfl⟩ := List.mem_map.mp hid
        obtain ⟨hin, hactive⟩ := hfresh r (List.mem_of_mem_drop (List.mem_filter.mp hr).1)
        exact ⟨r, hin, hactive, rfl⟩
      · obtain ⟨mark, hmark, rfl⟩ := List.mem_map.mp hid
        obtain ⟨hin, hactive⟩ := hcandidate mark (List.mem_filter.mp hmark).1
        exact ⟨mark.1, hin, hactive, rfl⟩

theorem resolve_congr {records' : List MemoryRecord}
    (h : records.filter (fun r => r.status = .ACTIVE) = records'.filter fun r => r.status = .ACTIVE) :
    resolve records now = resolve records' now := by
  unfold resolve
  rw [h]

end Memory
