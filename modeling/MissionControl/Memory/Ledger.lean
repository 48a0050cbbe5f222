import MissionControl.Memory.Records

/-! # The memory ledger

The operations on the table of records. Each is a transaction; a promotion takes three: it
reads the record, writes it again with more authority, and retires the one it read. -/

namespace Memory

open Canonical Python

/-- `sha256_bytes(canonical_json(payload))` -/
class JsonHash where
  sha256_json : Value → String

/-- What a transaction is given from outside: `uuid4().hex` and the time. -/
structure Fresh where
  uuid : String
  now : String

def Fresh.memory_id (fresh : Fresh) : String := "mem-" ++ fresh.uuid

/-- The arguments of `write_memory`. -/
structure Write where
  tenant_id : String
  actor : String
  scope : MemoryScope
  authority : MemoryAuthority
  subject_key : String
  body : Body
  project_id : Option String := none
  thread_id : Option String := none
  source_refs : List String := []
  fresh_until : Option String := none

def Write.subject (w : Write) : Subject := ⟨w.tenant_id, w.project_id, w.subject_key⟩

/-- What `write_memory` returns. -/
structure Written where
  memory : MemoryRecord
  status : Decision
  reason : Option String

def _active_for_subject (records : List MemoryRecord) (subject : Subject) : List MemoryRecord :=
  records.filter fun r => r.subject = subject ∧ r.status = .ACTIVE

/-- `UPDATE memory_records SET status = ? WHERE memory_id = ?` -/
def setStatus (records : List MemoryRecord) (status : MemoryStatus) (memory_id : String) :
    List MemoryRecord :=
  records.map fun r => if r.memory_id = memory_id then { r with status := status } else r

section

variable [JsonHash]

def Write.content_hash (w : Write) : String :=
  JsonHash.sha256_json (.dict [("scope", .str w.scope.value), ("subject", .str w.subject_key),
    ("body", .dict w.body)])

/-- The row a write inserts. -/
def Write.record (w : Write) (fresh : Fresh) (status : MemoryStatus) (supersedes : Option String) :
    MemoryRecord where
  memory_id := fresh.memory_id
  tenant_id := w.tenant_id
  project_id := w.project_id
  thread_id := w.thread_id
  scope := w.scope
  authority := w.authority
  subject_key := w.subject_key
  body := w.body
  source_refs := sortedSet w.source_refs
  fresh_until := w.fresh_until
  status := status
  supersedes := supersedes
  content_hash := w.content_hash
  created_by := w.actor
  created_at := fresh.now

/-- What `write_memory` checks before its transaction. -/
def checkWrite (projects : List String) (w : Write) : Except MemoryError Unit := do
  validate_placement w.scope w.authority w.project_id w.thread_id
  if w.scope = .M1_BRAND_CANON ∧ w.source_refs = [] then
    throw (.policy "brand canon must cite its approved source (e.g. the brand_core version ref)")
  match w.project_id with
  | some project_id => if project_id ∉ projects then throw (.notFound project_id)
  | none => return ()

/-- The transaction of `write_memory`. -/
def applyWrite (records : List MemoryRecord) (w : Write) (fresh : Fresh) :
    Written × List MemoryRecord :=
  let active := _active_for_subject records w.subject
  let decision := decide_write w.authority w.content_hash active
  match decision.status, decision.supersedes with
  | .DUPLICATE, _ =>
    -- the record is among the active ones, which are not empty
    let existing := (active.find? fun r => decision.supersedes == some r.memory_id).getD
      (w.record fresh .ACTIVE none)
    (⟨existing, .DUPLICATE, decision.reason⟩, records)
  | .QUARANTINED, _ =>
    let row := w.record fresh .QUARANTINED decision.supersedes
    (⟨row, .QUARANTINED, decision.reason⟩, records ++ [row])
  | .ACTIVE, some superseded =>
    let row := w.record fresh .ACTIVE (some superseded)
    (⟨row, .ACTIVE, decision.reason⟩, setStatus records .SUPERSEDED superseded ++ [row])
  | .ACTIVE, none =>
    let row := w.record fresh .ACTIVE none
    (⟨row, .ACTIVE, decision.reason⟩, records ++ [row])

def write_memory (projects : List String) (records : List MemoryRecord) (w : Write) (fresh : Fresh) :
    Except MemoryError (Written × List MemoryRecord) :=
  match checkWrite projects w with
  | .error e => .error e
  | .ok () => .ok (applyWrite records w fresh)

/-- `_insert_memory_namespace`: the first record of a project. -/
def charter (tenant_id project_id actor description : String) (fresh : Fresh) : MemoryRecord :=
  let body := [("namespace", Value.str ("memory://" ++ tenant_id ++ "/" ++ project_id)),
    ("charter", .str description)]
  { memory_id := fresh.memory_id
    tenant_id := tenant_id
    project_id := some project_id
    thread_id := none
    scope := .M2_PROJECT
    authority := .WORKING_CONTEXT
    subject_key := "project.charter"
    body := body
    source_refs := []
    fresh_until := none
    status := .ACTIVE
    supersedes := none
    content_hash := JsonHash.sha256_json (.dict body)
    created_by := actor
    created_at := fresh.now }

end

/-- How far a promotion has come. -/
inductive Stage where
  | read
  | written
  | done
  | failed
  deriving DecidableEq, Repr

/-- A call of `promote_memory` that has read its record. -/
structure Promotion where
  record : MemoryRecord
  to_authority : MemoryAuthority
  actor : String
  stage : Stage

/-- The write of a promotion. -/
def Promotion.write (p : Promotion) : Write where
  tenant_id := p.record.tenant_id
  actor := p.actor
  scope := p.record.scope
  authority := p.to_authority
  subject_key := p.record.subject_key
  body := (p.record.body.set "promoted_from" (.str p.record.memory_id)).set "promoted_by" (.str p.actor)
  project_id := p.record.project_id
  thread_id := p.record.thread_id
  source_refs := p.record.source_refs ++ ["memory:" ++ p.record.memory_id]
  fresh_until := p.record.fresh_until

/-- The first transaction of `promote_memory`, and the checks of what it read. -/
def beginPromotion (records : List MemoryRecord) (memory_id : String) (to_authority : MemoryAuthority)
    (actor : String) (project_id : Option String) : Except MemoryError Promotion :=
  match records.find? (·.memory_id == memory_id) with
  | none => .error (.notFound "memory record not found")
  | some record =>
    if record.project_id ≠ project_id then
      .error (.notFound "memory record not found in this project")
    else
      match can_promote record.scope record.authority to_authority with
      | .error e => .error e
      | .ok () => .ok ⟨record, to_authority, actor, .read⟩

/-- The last transaction of `promote_memory`, for a record that was read as in use. -/
def settlePromotion (records : List MemoryRecord) (p : Promotion) : List MemoryRecord :=
  if p.record.status = .QUARANTINED ∨ p.record.status = .ACTIVE then
    records.map fun r =>
      if r.memory_id = p.record.memory_id ∧ r.status ≠ .SUPERSEDED then
        { r with status := .SUPERSEDED } else r
  else records

def invalidate_memory (records : List MemoryRecord) (memory_id : String) (project_id : Option String) :
    Except MemoryError (List MemoryRecord) :=
  let found := fun r : MemoryRecord => r.memory_id = memory_id ∧ r.project_id = project_id
  if (records.filter found).length = 1 then
    .ok (records.map fun r => if found r then { r with status := .INVALIDATED } else r)
  else .error (.notFound "memory record not found in this scope")

/-! ## Runs -/

/-- An operation that was made on the records. -/
inductive Act where
  | create (project_id : String)
  | write (w : Write)
  | promote (p : Promotion)
  | settle (p : Promotion)
  | invalidate (memory_id : String)

/-- An operation with the records before and after it. -/
structure Entry where
  act : Act
  before : List MemoryRecord
  after : List MemoryRecord

structure Ledger where
  projects : List String := []
  records : List MemoryRecord := []
  promotions : List Promotion := []
  /-- The operations so far, oldest first. -/
  log : List Entry := []

def Ledger.did (s : Ledger) (act : Act) (records : List MemoryRecord) : Ledger :=
  { s with records := records, log := s.log ++ [⟨act, s.records, records⟩] }

/-- The records after an operation: an error rolls it back. -/
def recordsOr (records : List MemoryRecord) :
    Except MemoryError (Written × List MemoryRecord) → List MemoryRecord
  | .ok (_, records) => records
  | .error _ => records

/-- The stage a write leaves a promotion at. -/
def stageOf : Except MemoryError (Written × List MemoryRecord) → Stage
  | .ok _ => .written
  | .error _ => .failed

inductive Event where
  | create (tenant_id project_id actor description : String) (fresh : Fresh)
  | write (w : Write) (fresh : Fresh)
  | read (memory_id : String) (to_authority : MemoryAuthority) (actor : String)
    (project_id : Option String)
  | promote (i : Nat) (fresh : Fresh)
  | settle (i : Nat)
  | invalidate (memory_id : String) (project_id : Option String)

/-- `uuid4` has not given the identifier before. -/
def Ledger.unused (s : Ledger) (fresh : Fresh) : Prop :=
  ∀ r ∈ s.records, r.memory_id ≠ fresh.memory_id

instance (s : Ledger) (fresh : Fresh) : Decidable (s.unused fresh) :=
  inferInstanceAs (Decidable (∀ _ ∈ _, _))

/-- One transaction of a call. -/
def step [JsonHash] (s : Ledger) : Event → Option Ledger
  | .create tenant_id project_id actor description fresh =>
    if s.unused fresh ∧ project_id ∉ s.projects then
      some ({ s with projects := s.projects ++ [project_id] }.did (.create project_id)
        (s.records ++ [charter tenant_id project_id actor description fresh]))
    else none
  | .write w fresh =>
    if s.unused fresh then
      some (s.did (.write w) (recordsOr s.records (write_memory s.projects s.records w fresh)))
    else none
  | .read memory_id to_authority actor project_id =>
    match beginPromotion s.records memory_id to_authority actor project_id with
    | .ok p => some { s with promotions := s.promotions ++ [p] }
    | .error _ => some s
  | .promote i fresh =>
    match s.promotions[i]? with
    | some p =>
      if s.unused fresh ∧ p.stage = .read then
        let result := write_memory s.projects s.records p.write fresh
        some ({ s with promotions := s.promotions.set i { p with stage := stageOf result } }.did
          (.promote p) (recordsOr s.records result))
      else none
    | none => none
  | .settle i =>
    match s.promotions[i]? with
    | some p =>
      if p.stage = .written then
        some ({ s with promotions := s.promotions.set i { p with stage := .done } }.did
          (.settle p) (settlePromotion s.records p))
      else none
    | none => none
  | .invalidate memory_id project_id =>
    match invalidate_memory s.records memory_id project_id with
    | .ok records => some (s.did (.invalidate memory_id) records)
    | .error _ => some s

end Memory
