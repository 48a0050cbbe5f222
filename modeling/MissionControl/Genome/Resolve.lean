import MissionControl.Genome.Changes

/-! # Resolving layers

Layers are applied in scope order, from the brand down to an asset. A value of a layer is taken unless a constraint of
an earlier layer locks its key or finds fault with it (`takes`), and a constraint is taken unless an earlier one has its
identifier (`adopt`). What is left is judged once more as a whole (`evaluate_constraints`).

A key is visited once for each layer, so what a layer leaves under a key is its value where that was taken, and else
what was there (`get?_settle_of_taken`, `get?_settle_of_not_taken`). -/

namespace Genome

open Python (Dict Double Json matchesClass)

/-! ## Layers -/

inductive Scope where
  | BRAND | PROJECT | PAGE | COMPONENT | ASSET
deriving DecidableEq

def Scope.value : Scope → String
  | BRAND => "brand"
  | PROJECT => "project"
  | PAGE => "page"
  | COMPONENT => "component"
  | ASSET => "asset"

/-- `SCOPE_ORDER.index(scope)` -/
def Scope.order : Scope → ℕ
  | BRAND => 0
  | PROJECT => 1
  | PAGE => 2
  | COMPONENT => 3
  | ASSET => 4

inductive VersionStatus where
  | DRAFT | EXPERIMENTAL | IN_REVIEW | APPROVED | REJECTED | SUPERSEDED
deriving DecidableEq

def VersionStatus.value : VersionStatus → String
  | DRAFT => "DRAFT"
  | EXPERIMENTAL => "EXPERIMENTAL"
  | IN_REVIEW => "IN_REVIEW"
  | APPROVED => "APPROVED"
  | REJECTED => "REJECTED"
  | SUPERSEDED => "SUPERSEDED"

structure GenomeLayer where
  scope : Scope
  scope_ref : String
  status : VersionStatus
  document : GenomeDocument
  named : 1 ≤ scope_ref.length ∧ scope_ref.length ≤ 300

inductive ConflictReason where
  | SCOPE_ORDER | UNAPPROVED_OVERRIDE | IMMUTABLE_OVERRIDE | CONSTRAINT_VIOLATION
deriving DecidableEq

structure GenomeConflict where
  key : String
  reason : ConflictReason
  scope_ref : String
  detail : String := ""
  constraint_id : Option String := none
deriving DecidableEq

structure ConstraintFinding where
  constraint_id : String
  key : String
  kind : ConstraintKind
  severity : Severity
  passed : Bool
  detail : String
  declared_by : String
deriving DecidableEq

/-! ## Checking a value -/

/-- What the checks take from elsewhere: the contrast of two colours, computed in floating point, and how a value is
    shown in a message. -/
structure Host where
  wcag_contrast_ratio : String → String → Double
  repr : Json → String

/-- `isinstance(value, str) and _HEX.match(value)`. The `$` also matches before a newline that ends the text. -/
def isHex (text : String) : Bool :=
  match text.toList with
  | '#' :: cs => matchesClass (fun c => c.isDigit || ('a' ≤ c && c ≤ 'f')) 6 6 cs
  | _ => false

/-- The text of a value that is a colour. -/
def colour? : Value → Option String
  | .str s => if isHex s then some s else none
  | _ => none

/-- `values.get(key)` where it is a colour. -/
def colourAt (values : Dict String Value) (key : String) : Option String := (values.get? key).bind colour?

variable (host : Host)

/-- Nothing when the value satisfies the constraint, else a reason, which is not empty. -/
def _check_value (c : GenomeConstraint) (value : Value) (values : Dict String Value) : Option String :=
  match c.kind with
  | .ALLOWED_VALUES =>
    match value with
    | .list items =>
      let outside := items.filter fun x => !Json.elem (.str x) c.values
      if outside = [] then none else some (host.repr (.list (outside.map Json.str)) ++ " not in allowed values")
    | value =>
      if Json.elem value.json c.values then none
      else some (host.repr value.json ++ " not in allowed values " ++ host.repr (.list c.values))
  | .RANGE =>
    if !value.json.isNumeric then some (host.repr value.json ++ " is not numeric")
    else if (c.param "min").le value.json && value.json.le (c.param "max") then none
    else some (host.repr value.json ++ " outside [" ++ host.repr (c.param "min") ++ ", " ++
      host.repr (c.param "max") ++ "]")
  | .HEX_COLOR =>
    if (colour? value).isSome then none else some (host.repr value.json ++ " is not a #rrggbb colour")
  | .MIN_CONTRAST =>
    match colour? value, colourAt values (c.against?.getD "") with
    | some text, some other =>
      let ratio := host.wcag_contrast_ratio text other
      if (c.param "ratio").le (.float ratio) then none
      else some ("contrast " ++ host.repr (.float ratio) ++ ":1 against " ++ c.against?.getD "" ++ " is below " ++
        host.repr (c.param "ratio") ++ ":1")
    | _, _ => none
  | _ => none

/-- `values.get(key) is not None` -/
def present (values : Dict String Value) (key : String) : Bool :=
  match values.get? key with
  | none => false
  | some v => decide (v ≠ .null)

/-- What `evaluate_constraints` finds wrong with a constraint. -/
def findingReason (values : Dict String Value) (c : GenomeConstraint) : Option String :=
  if c.kind = .IMMUTABLE then none
  else if c.kind = .REQUIRED ∨ present values c.key = false then
    if present values c.key then none else some "no value resolved for a constrained key"
  else if c.kind = .MIN_CONTRAST ∧
      ¬((colourAt values c.key).isSome ∧ (colourAt values (c.against?.getD "")).isSome) then
    some ("contrast pair " ++ c.key ++ "/" ++ c.against?.getD "" ++ " is not two colours")
  else
    match values.get? c.key with
    | some v => _check_value host c v values
    | none => none

/-- Constraints in the order of their identifiers. -/
def byIdentifier (constraints : List GenomeConstraint) : List GenomeConstraint :=
  constraints.insertionSort fun c c' => c.constraint_id ≤ c'.constraint_id

def finding (values : Dict String Value) (owner : Dict String String) (c : GenomeConstraint) : ConstraintFinding where
  constraint_id := c.constraint_id
  key := c.key
  kind := c.kind
  severity := c.severity
  passed := (findingReason host values c).isNone
  detail :=
    if c.kind = .IMMUTABLE then "locked for descendant scopes" else (findingReason host values c).getD "satisfied"
  declared_by := (owner.get? c.constraint_id).getD ""

def evaluate_constraints (values : Dict String Value) (constraints : List GenomeConstraint)
    (owner : Dict String String) : List ConstraintFinding :=
  (byIdentifier constraints).map (finding host values owner)

/-! ## Applying a layer -/

/-- The constraint that locks a key. -/
def locked? (inherited : Dict String GenomeConstraint) (key : String) : Option GenomeConstraint :=
  (inherited.entries.map Prod.snd).find? fun c => c.key = key ∧ c.kind = .IMMUTABLE

/-- The first constraint on a key that finds fault with a value, and what it says. -/
def violated? (inherited : Dict String GenomeConstraint) (values : Dict String Value) (key : String) (value : Value) :
    Option (GenomeConstraint × String) :=
  (byIdentifier (inherited.entries.map Prod.snd)).findSome? fun c =>
    if c.key = key then (_check_value host c value (values.set key value)).map fun reason => (c, reason) else none

/-- What is resolved so far. -/
structure Resolving where
  values : Dict String Value := .empty
  sources : Dict String String := .empty
  constraints : Dict String GenomeConstraint := .empty
  owner : Dict String String := .empty
  conflicts : List GenomeConflict := []
  applied : List String := []
  last : Option ℕ := none
  previewed : Option String := none

/-- The lock that a value would break. -/
def broken? (inherited : Dict String GenomeConstraint) (values : Dict String Value) (key : String) (value : Value) :
    Option GenomeConstraint :=
  match locked? inherited key, values.get? key with
  | some c, some old => if old.eq value then none else some c
  | _, _ => none

/-- One turn of the loop over the values of a layer. -/
def visit (inherited : Dict String GenomeConstraint) (scope_ref : String) (st : Resolving) (entry : String × Value) :
    Resolving :=
  match broken? inherited st.values entry.1 entry.2 with
  | some c =>
    { st with
      conflicts := st.conflicts ++ [{
        key := entry.1, reason := .IMMUTABLE_OVERRIDE, scope_ref, constraint_id := some c.constraint_id,
        detail := "locked by " ++ (st.owner.get? c.constraint_id).getD "" }] }
  | none =>
    match violated? host inherited st.values entry.1 entry.2 with
    | some (c, reason) =>
      { st with
        conflicts := st.conflicts ++ [{
          key := entry.1, reason := .CONSTRAINT_VIOLATION, scope_ref, constraint_id := some c.constraint_id,
          detail := reason }] }
    | none => { st with values := st.values.set entry.1 entry.2, sources := st.sources.set entry.1 scope_ref }

/-- One turn of the loop over the constraints of a layer. -/
def adopt (scope_ref : String) (st : Resolving) (c : GenomeConstraint) : Resolving :=
  match st.constraints.get? c.constraint_id with
  | some c' =>
    if c'.eq c then st
    else
      { st with
        conflicts := st.conflicts ++ [{
          key := c.key, reason := .CONSTRAINT_VIOLATION, scope_ref, constraint_id := some c.constraint_id,
          detail := "cannot redefine constraint declared by " ++ (st.owner.get? c.constraint_id).getD "" }] }
  | none =>
    { st with constraints := st.constraints.set c.constraint_id c, owner := st.owner.set c.constraint_id scope_ref }

/-- One turn of the loop over the layers. -/
def applyLayer (preview_ref : Option String) (st : Resolving) (layer : GenomeLayer) : Resolving :=
  if st.last.any fun last => layer.scope.order < last then
    { st with
      conflicts := st.conflicts ++ [{
        key := "*", reason := .SCOPE_ORDER, scope_ref := layer.scope_ref,
        detail := layer.scope.value ++ " layer after a narrower scope" }] }
  else
    let st := { st with last := some layer.scope.order }
    let is_preview := preview_ref = some layer.scope_ref ∧ layer.status ≠ .APPROVED
    if layer.status ≠ .APPROVED ∧ ¬is_preview then
      { st with
        conflicts := st.conflicts ++ layer.document.flatten.keys.map fun key => {
          key, reason := .UNAPPROVED_OVERRIDE, scope_ref := layer.scope_ref,
          detail := layer.status.value ++ " layers are not authoritative" } }
    else
      let st := { st with
        previewed := if is_preview then some layer.scope_ref else st.previewed
        applied := st.applied ++ [layer.scope_ref] }
      let st := layer.document.flatten.entries.foldl (visit host st.constraints layer.scope_ref) st
      layer.document.constraints.foldl (adopt layer.scope_ref) st

/-! ## The resolution -/

structure Resolution where
  values : Dict String Value
  sources : Dict String String
  constraints : List GenomeConstraint
  constraint_owner : Dict String String
  conflicts : List GenomeConflict
  findings : List ConstraintFinding
  applied_scopes : List String
  preview_scope : Option String
  authoritative : Bool

/-- `dict(sorted(d.items()))` -/
def sortItems {ν : Type} (d : Dict String ν) : Dict String ν where
  entries := d.entries.insertionSort fun a b => a.1 ≤ b.1
  nodup := ((List.perm_insertionSort _ _).map _).nodup_iff.mpr d.nodup

/-- The layers, one after another. -/
def resolving (preview_ref : Option String) (layers : List GenomeLayer) : Resolving :=
  layers.foldl (applyLayer host preview_ref) {}

/-- What `resolve` makes of the layers it went through. -/
def Resolving.finish (st : Resolving) : Resolution :=
  let ordered := byIdentifier (st.constraints.entries.map Prod.snd)
  { values := sortItems st.values
    sources := sortItems st.sources
    constraints := ordered
    constraint_owner := sortItems st.owner
    conflicts := st.conflicts
    findings := evaluate_constraints host st.values ordered st.owner
    applied_scopes := st.applied
    preview_scope := st.previewed
    authoritative := st.previewed.isNone }

def resolve (layers : List GenomeLayer) (preview_ref : Option String := none) : Resolution :=
  (resolving host preview_ref layers).finish host

/-! ## What a layer leaves -/

/-- A value is taken: it breaks no lock, and no constraint on its key finds fault with it. -/
def takes (inherited : Dict String GenomeConstraint) (values : Dict String Value) (entry : String × Value) : Bool :=
  (broken? inherited values entry.1 entry.2).isNone && (violated? host inherited values entry.1 entry.2).isNone

/-- The values that a layer's entries leave. -/
def settle (inherited : Dict String GenomeConstraint) (values : Dict String Value) (entries : List (String × Value)) :
    Dict String Value :=
  entries.foldl (fun values entry => if takes host inherited values entry then values.set entry.1 entry.2 else values)
    values

variable {host} {inherited : Dict String GenomeConstraint} {values : Dict String Value}
  {entries before after : List (String × Value)} {k id : String} {v : Value} {c : GenomeConstraint} {st st' : Resolving}
  {scope_ref : String} {entry : String × Value}

theorem settle_append : settle host inherited values (before ++ after) =
    settle host inherited (settle host inherited values before) after :=
  List.foldl_append

theorem get?_settle_of_not_mem (h : k ∉ entries.map Prod.fst) :
    (settle host inherited values entries).get? k = values.get? k := by
  induction entries generalizing values with
  | nil => rfl
  | cons entry entries ih =>
    rw [List.map_cons, List.mem_cons, not_or] at h
    show (settle host inherited (if takes host inherited values entry then _ else _) entries).get? k = _
    rw [ih h.2]
    split
    · rw [Dict.get?_set, if_neg h.1]
    · rfl

/-- A layer names a key and its value is taken when its turn comes. -/
def Taken (host : Host) (inherited : Dict String GenomeConstraint) (values : Dict String Value)
    (entries : List (String × Value)) (k : String) (v : Value) : Prop :=
  ∃ before after, entries = before ++ (k, v) :: after ∧
    takes host inherited (settle host inherited values before) (k, v) = true

theorem not_mem_of_nodup (hnodup : (entries.map Prod.fst).Nodup) (h : entries = before ++ (k, v) :: after) :
    k ∉ before.map Prod.fst ∧ k ∉ after.map Prod.fst := by
  rw [h, List.map_append, List.map_cons, List.nodup_append] at hnodup
  obtain ⟨-, htail, hdisjoint⟩ := hnodup
  rw [List.nodup_cons] at htail
  exact ⟨fun hmem => hdisjoint k hmem k List.mem_cons_self rfl, htail.1⟩

/-- **A value that was taken is there.** -/
theorem get?_settle_of_taken (hnodup : (entries.map Prod.fst).Nodup)
    (h : Taken host inherited values entries k v) : (settle host inherited values entries).get? k = some v := by
  obtain ⟨before, after, heq, htakes⟩ := h
  have hafter := (not_mem_of_nodup hnodup heq).2
  rw [heq, settle_append]
  show (settle host inherited (if takes host inherited _ (k, v) then _ else _) after).get? k = _
  rw [if_pos htakes, get?_settle_of_not_mem hafter, Dict.get?_set, if_pos rfl]

/-- **Where no value was taken, what was there stays.** -/
theorem get?_settle_of_not_taken (hnodup : (entries.map Prod.fst).Nodup)
    (h : ∀ v, ¬Taken host inherited values entries k v) :
    (settle host inherited values entries).get? k = values.get? k := by
  by_cases hmem : k ∈ entries.map Prod.fst
  · obtain ⟨⟨k', v⟩, hentry, rfl⟩ := List.mem_map.mp hmem
    obtain ⟨before, after, heq⟩ := List.append_of_mem hentry
    obtain ⟨hbefore, hafter⟩ := not_mem_of_nodup hnodup heq
    have htakes : takes host inherited (settle host inherited values before) (k', v) = false := by
      by_contra htrue
      exact h v ⟨before, after, heq, by simpa using htrue⟩
    rw [heq, settle_append]
    show (settle host inherited (if takes host inherited _ (k', v) then _ else _) after).get? k' = _
    rw [htakes, if_neg Bool.false_ne_true, get?_settle_of_not_mem hafter, get?_settle_of_not_mem hbefore]
  · exact get?_settle_of_not_mem hmem

/-! ## What one turn changes -/

theorem visit_values : (visit host inherited scope_ref st entry).values =
    if takes host inherited st.values entry then st.values.set entry.1 entry.2 else st.values := by
  unfold visit takes
  cases broken? inherited st.values entry.1 entry.2 with
  | some c => rfl
  | none =>
    cases violated? host inherited st.values entry.1 entry.2 with
    | some found => rfl
    | none => rfl

/-- Going through the values of a layer leaves all but values, sources and conflicts. -/
structure SameRules (st st' : Resolving) : Prop where
  constraints : st'.constraints = st.constraints
  owner : st'.owner = st.owner
  applied : st'.applied = st.applied
  last : st'.last = st.last
  previewed : st'.previewed = st.previewed

variable {st'' : Resolving}

theorem SameRules.trans (h : SameRules st st') (h' : SameRules st' st'') : SameRules st st'' :=
  ⟨h'.constraints.trans h.constraints, h'.owner.trans h.owner, h'.applied.trans h.applied, h'.last.trans h.last,
    h'.previewed.trans h.previewed⟩

theorem visit_sameRules : SameRules st (visit host inherited scope_ref st entry) := by
  unfold visit
  split
  · exact ⟨rfl, rfl, rfl, rfl, rfl⟩
  · split
    · exact ⟨rfl, rfl, rfl, rfl, rfl⟩
    · exact ⟨rfl, rfl, rfl, rfl, rfl⟩

theorem foldl_visit_sameRules : SameRules st (entries.foldl (visit host inherited scope_ref) st) := by
  induction entries generalizing st with
  | nil => exact ⟨rfl, rfl, rfl, rfl, rfl⟩
  | cons entry entries ih => exact visit_sameRules.trans ih

theorem foldl_visit_values : (entries.foldl (visit host inherited scope_ref) st).values =
    settle host inherited st.values entries := by
  induction entries generalizing st with
  | nil => rfl
  | cons entry entries ih =>
    show (entries.foldl (visit host inherited scope_ref) (visit host inherited scope_ref st entry)).values = _
    rw [ih, visit_values]
    rfl

/-- Constraints are only added, and stay with their owners. -/
structure Keeps (st st' : Resolving) : Prop where
  constraints : ∀ id c, st.constraints.get? id = some c → st'.constraints.get? id = some c
  owner : ∀ id c, st.constraints.get? id = some c → st'.owner.get? id = st.owner.get? id

theorem Keeps.refl (st : Resolving) : Keeps st st := ⟨fun _ _ h => h, fun _ _ _ => rfl⟩

theorem Keeps.trans (h : Keeps st st') (h' : Keeps st' st'') : Keeps st st'' where
  constraints id c hc := h'.constraints id c (h.constraints id c hc)
  owner id c hc := (h'.owner id c (h.constraints id c hc)).trans (h.owner id c hc)

theorem adopt_keeps : Keeps st (adopt scope_ref st c) := by
  unfold adopt
  split
  · split
    · exact Keeps.refl st
    · exact ⟨fun _ _ h => h, fun _ _ _ => rfl⟩
  · rename_i hnone
    constructor
    · intro id c' hc'
      have hne : id ≠ c.constraint_id := by
        rintro rfl
        rw [hnone] at hc'
        cases hc'
      show (st.constraints.set c.constraint_id c).get? id = some c'
      rw [Dict.get?_set, if_neg hne]
      exact hc'
    · intro id c' hc'
      have hne : id ≠ c.constraint_id := by
        rintro rfl
        rw [hnone] at hc'
        cases hc'
      show (st.owner.set c.constraint_id scope_ref).get? id = _
      rw [Dict.get?_set, if_neg hne]

theorem adopt_values : (adopt scope_ref st c).values = st.values ∧ (adopt scope_ref st c).last = st.last := by
  unfold adopt
  split
  · split
    · exact ⟨rfl, rfl⟩
    · exact ⟨rfl, rfl⟩
  · exact ⟨rfl, rfl⟩

theorem adopt_keyed (h : Keyed st.constraints) : Keyed (adopt scope_ref st c).constraints := by
  unfold adopt
  split
  · split
    · exact h
    · exact h
  · exact h.set c

variable {constraints : List GenomeConstraint}

theorem foldl_adopt_keeps : Keeps st (constraints.foldl (adopt scope_ref) st) := by
  induction constraints generalizing st with
  | nil => exact Keeps.refl st
  | cons c constraints ih => exact adopt_keeps.trans ih

theorem foldl_adopt_values : (constraints.foldl (adopt scope_ref) st).values = st.values ∧
    (constraints.foldl (adopt scope_ref) st).last = st.last := by
  induction constraints generalizing st with
  | nil => exact ⟨rfl, rfl⟩
  | cons c constraints ih =>
    have h : (adopt scope_ref st c).values = st.values ∧ (adopt scope_ref st c).last = st.last := adopt_values
    have h' : (constraints.foldl (adopt scope_ref) (adopt scope_ref st c)).values = (adopt scope_ref st c).values ∧
        (constraints.foldl (adopt scope_ref) (adopt scope_ref st c)).last = (adopt scope_ref st c).last := ih
    exact ⟨h'.1.trans h.1, h'.2.trans h.2⟩

theorem foldl_adopt_keyed (h : Keyed st.constraints) : Keyed (constraints.foldl (adopt scope_ref) st).constraints := by
  induction constraints generalizing st with
  | nil => exact h
  | cons c constraints ih => exact ih (adopt_keyed h)

end Genome
