import MissionControl.Projects.Artifacts

/-! # Restoring a version

To restore a version is to revise the artifact with the content and the metadata of the version's row. A revision
patches: a hash or a location that is not given stays what it is, and a metadata key that the patch does not have
stays as well.

* **What a revision leaves** in the head (`revise_spec`).
* **When a restore reproduces its version**, exactly (`restore_reproduces_iff`). -/

namespace Projects

open Agency (Artifact ArtifactStatus Call KernelCalls KernelState Revision Outcome)
open Canonical (Value)
open Interleaving
open Interleaving.Program (Only only_perform)
open Relational (Table)

/-! ## The content of an artifact in the registry -/

/-- What a revision rewrites of an artifact, besides its version and status. -/
structure Content where
  content_hash : Option String
  content_location : Option String
  semantic_fingerprint : Option String

def contentOf (a : Artifact) : Content := ⟨a.content_hash, a.content_location, a.semantic_fingerprint⟩

/-- The content of an artifact in the registry. -/
def content (s : KernelState) (artifact_id : String) : Option Content :=
  (s.artifacts.find? artifact_id).map contentOf

/-- The calls that revise no artifact. -/
def Spares : Call → Prop
  | .revise .. => False
  | _ => True

/-- What a function that looks at neither the status nor the time of the last change shows of an artifact. -/
def StatusBlind {γ : Type} (g : Artifact → γ) : Prop :=
  ∀ a status now, g { a with status := status, updated_at := now } = g a

theorem shown_setStatuses {γ : Type} {g : Artifact → γ} (hg : StatusBlind g) (affected : List (String × ArtifactStatus))
    (now : Agency.Instant) (engagement_id : String) (s : KernelState) (d : String) :
    ((affected.foldl (KernelState.setStatus · now engagement_id) s).artifacts.find? d).map g =
      (s.artifacts.find? d).map g := by
  induction affected generalizing s with
  | nil => rfl
  | cons x affected ih =>
    rw [List.foldl_cons, ih]
    unfold KernelState.setStatus
    rw [Table.find?_update]
    split
    · rw [Option.map_map]
      refine congrArg (Option.map · _) (funext fun a => ?_)
      show g (if a.engagement_id = engagement_id then { a with status := x.2, updated_at := now } else a) = g a
      split
      · exact hg a x.2 now
      · rfl
    · rfl

variable {c : Call}

theorem shown_after {γ : Type} {g : Artifact → γ} (hg : StatusBlind g) (hc : Spares c) (o : Outcome)
    (s : KernelState) (d : String) :
    ((Agency.exec.after c o s).artifacts.find? d).map g = (s.artifacts.find? d).map g := by
  cases hexec : Agency.exec c o s with
  | error e => rw [Exec.after_of_error hexec]
  | ok x =>
    obtain ⟨a, s'⟩ := x
    rw [Exec.after_of_ok hexec]
    unfold Agency.exec at hexec
    split at hexec
    · cases hexec
    · cases c with
      | revise => exact hc.elim
      | insert_dependency dep =>
        simp only [Call.run] at hexec
        cases hinsert : s.insertDependency dep with
        | error e =>
          rw [hinsert] at hexec
          cases hexec
        | ok s₁ =>
          rw [hinsert] at hexec
          cases hexec
          rw [(Agency.mem_insertDependency hinsert).1]
      | set_statuses affected now engagement_id =>
        cases hexec
        exact shown_setStatuses hg affected now engagement_id s d
      | _ =>
        cases hexec
        rfl

theorem content_after (hc : Spares c) (o : Outcome) (s : KernelState) (d : String) :
    content (Agency.exec.after c o s) d = content s d :=
  shown_after (fun _ _ _ => rfl) hc o s d

variable {hash_payload : List (String × ArtifactStatus) → String} {fuel : ℕ}

theorem spares_of_reads (hc : c.Reads) : Spares c := by
  cases c with
  | revise => exact hc.elim
  | _ => trivial

theorem spares_propagate (artifact_id : String) :
    (Agency.propagate_artifact_change hash_payload fuel artifact_id).Only Spares := by
  refine Only.bind (only_perform trivial) fun source => ?_
  cases source with
  | none => trivial
  | some source =>
    refine Only.bind ((Agency.only_propagateFrom ..).mono fun _ => spares_of_reads) fun severity => ?_
    refine Only.bind (only_perform trivial) fun now => ?_
    refine Only.bind (only_perform trivial) fun _ => ?_
    split
    · trivial
    · exact Only.bind (only_perform trivial) fun _ => trivial

variable {s s' : KernelState} {α : Type}

theorem content_of_solo {p : Agency.Kernel α} {l : List (OwnCall KernelCalls KernelState Outcome)}
    {r : Except Agency.KernelError α} (hp : p.Only Spares) (h : Solo Agency.exec p s l r s') (d : String) :
    content s' d = content s d :=
  h.invariant (P := fun s' => content s' d = content s d)
    (fun _ o s₁ hc hs₁ => (content_after hc o s₁ d).trans hs₁) hp rfl

/-- The content a revision leaves. -/
def Content.revised (before : Content) (r : Revision) : Content where
  content_hash := r.content_hash.or before.content_hash
  content_location := r.content_location.or before.content_location
  semantic_fingerprint := r.semantic_fingerprint.or before.semantic_fingerprint

theorem kernel_step {f : c.Resp → Agency.Kernel α} {l : List (OwnCall KernelCalls KernelState Outcome)} {a : α}
    (h : Solo Agency.exec ((Agency.ask c).bind f) s l (.ok a) s') :
    ∃ (x : c.Resp) (s₁ : KernelState) (now : Agency.Instant) (l' : List (OwnCall KernelCalls KernelState Outcome)),
      c.run now s = .ok (x, s₁) ∧ Solo Agency.exec (f x) s₁ l' (.ok a) s' := by
  obtain ⟨o, l', -, ⟨x, s₁, hexec, hrest⟩ | ⟨e, -, -, he, -⟩⟩ := h.of_ask
  · unfold Agency.exec at hexec
    split at hexec
    · cases hexec
    · exact ⟨x, s₁, o.now, l', hexec, hrest⟩
  · cases he

variable {artifact_id : String} {r : Revision}

theorem content_of_revise {a : Artifact} {base_version : ℕ} {now now' : Agency.Instant} {x : Unit}
    (ha : s.artifacts.find? artifact_id = some a)
    (h : (Call.revise artifact_id base_version r.content_hash r.semantic_fingerprint r.content_location now).run now' s =
      .ok (x, s')) : content s' artifact_id = some ((contentOf a).revised r) := by
  have hrun := Agency.revise_of_run h
  unfold KernelState.revise at hrun
  rw [ha] at hrun
  dsimp only at hrun
  split at hrun
  · cases hrun
    unfold content
    rw [Table.find?_update, if_pos rfl, ha]
    rfl
  · cases hrun

variable {x : Artifact × List (String × ArtifactStatus)}

/-- **What a revision leaves in the registry.** -/
theorem record_artifact_revision_spec {l : List (OwnCall KernelCalls KernelState Outcome)}
    (h : Solo Agency.exec (Agency.record_artifact_revision hash_payload fuel r) s l (.ok x) s') :
    ∃ a, s.artifacts.find? r.artifact_id = some a ∧ content s' r.artifact_id = some ((contentOf a).revised r) := by
  obtain ⟨found, s₁, now₁, l₁, hget, hrest⟩ := kernel_step h
  cases hget
  cases ha : s.artifacts.find? r.artifact_id with
  | none =>
    rw [ha] at hrest
    exact nomatch hrest.of_raise.2.1
  | some a =>
    refine ⟨a, rfl, ?_⟩
    rw [ha] at hrest
    dsimp only at hrest
    split at hrest
    · exact nomatch hrest.of_raise.2.1
    obtain ⟨now, s₂, now₂, l₂, hnow, hrest⟩ := kernel_step hrest
    cases hnow
    obtain ⟨u, s₃, now₃, l₃, hrevise, hrest⟩ := kernel_step hrest
    have hcontent := content_of_revise ha hrevise
    obtain ⟨updated, s₄, now₄, l₄, hget, hrest⟩ := kernel_step hrest
    cases hget
    cases hupdated : s₃.artifacts.find? r.artifact_id with
    | none =>
      rw [hupdated] at hrest
      exact nomatch hrest.of_raise.2.1
    | some updated =>
      rw [hupdated] at hrest
      dsimp only at hrest
      -- what follows concerns other columns and other tables
      refine (content_of_solo ?_ hrest r.artifact_id).trans hcontent
      refine (spares_propagate _).bind fun affected => ?_
      refine Only.bind (only_perform trivial) fun _ => ?_
      exact Only.bind (only_perform trivial) fun _ => trivial

/-! ## The head of a project artifact -/

variable {w w' : ArtifactState} {l : List (OwnCall ArtifactCalls ArtifactState ArtifactOutcome)}

/-- The calls that are not the kernel's. -/
def ArtifactCall.Plain : ArtifactCall → Prop
  | .revision _ => False
  | _ => True

theorem artifact_step {c : ArtifactCall} {f : c.Resp → ArtifactProgram α} {a : α}
    (h : Solo artifactExec ((perform c).bind f) w l (.ok a) w') (hc : c.Plain) :
    ∃ (o : ArtifactOutcome) (x : c.Resp) (w₁ : ArtifactState)
      (l' : List (OwnCall ArtifactCalls ArtifactState ArtifactOutcome)),
      c.run o w = .ok (x, w₁) ∧ Solo artifactExec (f x) w₁ l' (.ok a) w' := by
  obtain ⟨o, l', -, ⟨x, w₁, hexec, hrest⟩ | ⟨e, -, -, he, -⟩⟩ := h.of_ask
  · refine ⟨o, x, w₁, l', ?_, hrest⟩
    cases c with
    | revision c => exact hc.elim
    | _ =>
      simp only [artifactExec] at hexec
      split at hexec
      · cases hexec
      · exact hexec
  · cases he

theorem registry_spec
    (h : Solo artifactExec (withKernel (Agency.Staling.record_artifact_revision hash_payload fuel r)) w l (.ok x) w') :
    ∃ a, w.office.kernel.artifacts.find? r.artifact_id = some a ∧
      content w'.office.kernel r.artifact_id = some ((contentOf a).revised r) ∧
      w'.office.metadata = w.office.metadata ∧ w'.v2 = w.v2 := by
  obtain ⟨l', hsolo, hput⟩ := Solo.of_inside kernelCalls_carries h
  obtain ⟨l'', hkernel⟩ := Agency.Staling.record_artifact_revision_refines fuel r hsolo
  obtain ⟨a, ha, hcontent⟩ := record_artifact_revision_spec hkernel
  refine ⟨a, ha, hcontent, Agency.Staling.metadata_of_solo hsolo, ?_⟩
  rw [hput]

/-- The metadata a revision leaves. -/
def revisedV2 (before : Dict) (r : ProjectRevision) : Dict := withLocation (overlay before r.v2_patch) r.storage_uri

variable {project_id : String}

theorem of_scoped_artifact {record : ArtifactRecord}
    (h : Solo artifactExec (_scoped_artifact artifact_id project_id) w l (.ok record) w') :
    w' = w ∧ w.get_artifact artifact_id = some record := by
  obtain ⟨o, found, w₁, l₁, hget, hrest⟩ := artifact_step h trivial
  cases hget
  cases hfound : w.get_artifact artifact_id with
  | none =>
    rw [hfound] at hrest
    exact nomatch hrest.of_raise.2.1
  | some found =>
    rw [hfound] at hrest
    dsimp only at hrest
    split at hrest
    · exact nomatch hrest.of_raise.2.1
    · obtain ⟨-, hr, rfl⟩ := hrest.of_ret
      cases hr
      exact ⟨rfl, rfl⟩

/-- **What a revision without a new text leaves in the head.** -/
theorem revise_spec {r : ProjectRevision} {revised : Revised} (htext : r.content_text = none)
    (h : Solo artifactExec (revise_project_artifact hash_payload fuel r) w l (.ok revised) w') :
    ∃ source head, w.get_artifact r.artifact_id = some source ∧ w'.get_artifact r.artifact_id = some head ∧
      contentOf head.artifact =
        (contentOf source.artifact).revised (registryRevision r r.content_hash r.storage_uri) ∧
      head.metadata.v2 = revisedV2 source.metadata.v2 r := by
  unfold revise_project_artifact at h
  rcases h.of_bind with ⟨e, -, he⟩ | ⟨source, w₁, l₁, l₂, -, hscoped, hrest⟩
  · cases he
  obtain ⟨rfl, hsource⟩ := of_scoped_artifact hscoped
  have hstored : revisedContent r source.artifact.tenant_id = .ret (r.content_hash, r.storage_uri) := by
    unfold revisedContent
    rw [htext]
    rfl
  rw [hstored] at hrest
  dsimp only [Program.bind_eq_bind, Program.ret_bind] at hrest
  rcases hrest.of_bind with ⟨e, -, he⟩ | ⟨revision, w₂, l₃, l₄, -, hregistry, hrest⟩
  · cases he
  obtain ⟨a, ha, hcontent, -, -⟩ := registry_spec hregistry
  obtain ⟨o, u, w₃, l₅, hset, hrest⟩ := artifact_step hrest trivial
  cases hset
  obtain ⟨o', found, w₄, l₆, hget, hrest⟩ := artifact_step hrest trivial
  cases hget
  -- the artifact is there, with the content of the registry and the metadata just written
  obtain ⟨b, hb, hbcontent⟩ := Option.map_eq_some_iff.mp hcontent
  have hhead : (w₂.set_metadata r.artifact_id { source.metadata with v2 := revisedV2 source.metadata.v2 r }).get_artifact
      r.artifact_id = some ⟨b, { source.metadata with v2 := revisedV2 source.metadata.v2 r }⟩ := by
    unfold ArtifactState.get_artifact ArtifactState.set_metadata
    dsimp only [registryRevision] at hb ⊢
    rw [hb, Option.map_some, Function.update_self, Function.update_self]
  have hsourceArtifact : source.artifact = a := by
    obtain ⟨a', ha', hrecord⟩ := Option.map_eq_some_iff.mp hsource
    have hsame : a' = a := Option.some.inj (ha'.symm.trans ha)
    rw [← hrecord, hsame]
  unfold revisedV2 at hhead
  rw [hhead] at hrest
  dsimp only at hrest
  obtain ⟨o'', requests, w₅, l₇, hrecord, hrest⟩ := artifact_step hrest trivial
  simp only [ArtifactCall.run, recordChange] at hrecord
  split at hrecord
  · cases hrecord
    obtain ⟨-, -, rfl⟩ := hrest.of_ret
    refine ⟨source, _, hsource, hhead, ?_, rfl⟩
    rw [hsourceArtifact]
    exact hbcontent
  · cases hrecord

/-! ## Patched metadata -/

variable {key : String}

theorem get_put {d : Dict} {key' : String} {value : Value} :
    Dict.get (d.put (key, value)) key' = if key = key' then some value else d.get key' := by
  unfold Dict.get
  rw [Table.find?_put]
  split <;> rfl

theorem get_foldl_put (rows : List (String × Value)) (hrows : (rows.map Prod.fst).Nodup) (d : Dict) (key : String) :
    Dict.get (rows.foldl Table.put d) key = ((rows.find? (·.1 = key)).map Prod.snd).or (d.get key) := by
  induction rows generalizing d with
  | nil => rfl
  | cons row rows ih =>
    obtain ⟨hnew, hrest⟩ := List.nodup_cons.mp hrows
    rw [List.foldl_cons, ih hrest]
    by_cases hkey : row.1 = key
    · -- the key occurs once
      have hnone : rows.find? (·.1 = key) = none := by
        rw [List.find?_eq_none]
        intro row' hmem hkey'
        apply hnew
        rw [hkey, ← of_decide_eq_true hkey']
        exact List.mem_map_of_mem hmem
      rw [hnone, List.find?_cons_of_pos (by simpa using hkey)]
      show Dict.get (d.put (row.1, row.2)) key = some row.2
      rw [get_put, if_pos hkey]
    · rw [List.find?_cons_of_neg (by simpa using hkey)]
      congr 1
      show Dict.get (d.put (row.1, row.2)) key = d.get key
      rw [get_put, if_neg hkey]

variable {v2 : Dict}

/-- **An overlay** takes the patch's value for each *v2* key the patch has. -/
theorem get_overlay {patch : Dict} : Dict.get (overlay v2 patch) key =
    if key ∈ _V2_KEYS then (patch.get key).or (v2.get key) else v2.get key := by
  have hnodup : ((patch.rows.filter (·.1 ∈ _V2_KEYS)).map Prod.fst).Nodup :=
    patch.nodup.sublist (List.filter_sublist.map _)
  unfold overlay
  rw [get_foldl_put _ hnodup, List.find?_filter]
  split
  · rename_i hkey
    have hsame : (fun row : String × Value => decide (decide (row.1 ∈ _V2_KEYS) = true ∧ decide (row.1 = key) = true)) =
        fun row => decide (row.1 = key) := by
      funext row
      by_cases hrow : row.1 = key
      · simp [hrow, hkey]
      · simp [hrow]
    rw [hsame]
    rfl
  · rename_i hkey
    have hnone : patch.rows.find? (fun row =>
        decide (decide (row.1 ∈ _V2_KEYS) = true ∧ decide (row.1 = key) = true)) = none := by
      rw [List.find?_eq_none]
      intro row _ hrow
      obtain ⟨hmem, hrow⟩ := of_decide_eq_true hrow
      rw [of_decide_eq_true hrow] at hmem
      exact hkey (of_decide_eq_true hmem)
    rw [hnone]
    rfl

theorem get_withLocation {location : Option String} : Dict.get (withLocation v2 location) key =
      if key = "storage_uri" ∧ (given location).isSome then (given location).map .str else v2.get key := by
  unfold withLocation
  cases given location with
  | none => simp
  | some location =>
    dsimp only
    unfold Dict.setText
    rw [get_put]
    by_cases hkey : "storage_uri" = key
    · rw [if_pos hkey, if_pos ⟨hkey.symm, rfl⟩]
      rfl
    · rw [if_neg hkey, if_neg fun h => hkey h.1.symm]

/-! ## When a restore reproduces -/

/-- **The head is the version again**: its content hash, its content location and its *v2* metadata. -/
def Reproduces (target : VersionRow) (head : ArtifactRecord) : Prop :=
  head.artifact.content_hash = target.content_hash ∧ head.artifact.content_location = target.content_location ∧
    ∀ key, head.metadata.v2.get key = target.metadata.v2.get key

/-- **Nothing of the head outlives the version**: where the version has no hash or no location the head has none, a
    *v2* key the head has the version has too, a key that is no *v2* key is the same in both, and the version's
    `storage_uri` is its location. -/
structure Restorable (target : VersionRow) (source : ArtifactRecord) : Prop where
  content_hash : target.content_hash = none → source.artifact.content_hash = none
  content_location : target.content_location = none → source.artifact.content_location = none
  v2 : ∀ key ∈ _V2_KEYS, target.metadata.v2.get key = none → source.metadata.v2.get key = none
  other : ∀ key, key ∉ _V2_KEYS → source.metadata.v2.get key = target.metadata.v2.get key
  storage_uri : ∀ uri, given target.content_location = some uri → target.metadata.v2.get "storage_uri" = some (.str uri)

theorem or_eq_iff {x y : Option α} : x.or y = x ↔ (x = none → y = none) := by
  cases x with
  | none => simp
  | some a => simp

variable {target : VersionRow}

/-- The patched metadata is the version's, exactly when nothing of the head outlives it. -/
theorem get_restored_iff {actor : String} {expected : Int} :
    (∀ key, Dict.get (revisedV2 v2 (restoring project_id artifact_id actor expected target)) key =
        target.metadata.v2.get key) ↔
      (∀ key ∈ _V2_KEYS, target.metadata.v2.get key = none → v2.get key = none) ∧
        (∀ key, key ∉ _V2_KEYS → v2.get key = target.metadata.v2.get key) ∧
        ∀ uri, given target.content_location = some uri → target.metadata.v2.get "storage_uri" = some (.str uri) := by
  have hget : ∀ key, Dict.get (revisedV2 v2 (restoring project_id artifact_id actor expected target)) key =
      if key = "storage_uri" ∧ (given target.content_location).isSome then (given target.content_location).map .str
      else if key ∈ _V2_KEYS then (target.metadata.v2.get key).or (v2.get key) else v2.get key := by
    intro key
    unfold revisedV2
    rw [get_withLocation, get_overlay]
    rfl
  have huri : "storage_uri" ∈ _V2_KEYS := by decide
  constructor
  · intro h
    refine ⟨fun key hkey hnone => ?_, fun key hkey => ?_, fun uri hlocation => ?_⟩
    · have hsame := h key
      rw [hget] at hsame
      split at hsame
      · rename_i hlocation
        obtain ⟨uri, hgiven⟩ := Option.isSome_iff_exists.mp hlocation.2
        rw [hgiven, hnone] at hsame
        cases hsame
      · exact or_eq_iff.mp hsame hnone
    · have hsame := h key
      have hne : key ≠ "storage_uri" := fun heq => hkey (heq ▸ huri)
      rw [hget, if_neg fun hk => hne hk.1, if_neg hkey] at hsame
      exact hsame
    · have hsame := h "storage_uri"
      rw [hget, hlocation, if_pos ⟨rfl, rfl⟩] at hsame
      exact hsame.symm
  · rintro ⟨hv2, hother, hlocation⟩ key
    rw [hget]
    split
    · rename_i hkey
      obtain ⟨uri, hgiven⟩ := Option.isSome_iff_exists.mp hkey.2
      rw [hkey.1, hgiven, hlocation uri hgiven]
      rfl
    · split
      · rename_i hkey
        exact or_eq_iff.mpr (hv2 key hkey)
      · rename_i hkey
        exact hother key hkey

/-- **A restore reproduces its version** if and only if nothing of the head outlives the version. -/
theorem restore_reproduces_iff {project_id artifact_id actor : String} {version : ℕ} {expected_version : Int}
    {revised : Revised} (h : Solo artifactExec
      (restore_artifact_version hash_payload fuel project_id artifact_id version actor expected_version) w l
      (.ok revised) w') :
    ∃ target source head, w.versions.find? (artifact_id, version) = some target ∧
      w.get_artifact artifact_id = some source ∧ w'.get_artifact artifact_id = some head ∧
      (Reproduces target head ↔ Restorable target source) := by
  obtain ⟨o, found, w₁, l₁, hfind, hrest⟩ := artifact_step h trivial
  cases hfind
  cases hrow : w.versions.find? (artifact_id, version) with
  | none =>
    rw [hrow] at hrest
    exact nomatch hrest.of_raise.2.1
  | some target =>
    rw [hrow] at hrest
    obtain ⟨source, head, hsource, hhead, hcontent, hv2⟩ := revise_spec rfl hrest
    have hhash : head.artifact.content_hash = target.content_hash.or source.artifact.content_hash :=
      congrArg Content.content_hash hcontent
    have hlocation : head.artifact.content_location = target.content_location.or source.artifact.content_location :=
      congrArg Content.content_location hcontent
    refine ⟨target, source, head, rfl, hsource, hhead, ?_⟩
    unfold Reproduces
    rw [hhash, hlocation, hv2, get_restored_iff, or_eq_iff, or_eq_iff]
    constructor
    · rintro ⟨h₁, h₂, h₃, h₄, h₅⟩
      exact ⟨h₁, h₂, h₃, h₄, h₅⟩
    · rintro ⟨h₁, h₂, h₃, h₄, h₅⟩
      exact ⟨h₁, h₂, h₃, h₄, h₅⟩

/-! ## A key added later -/

/-- Nothing raises, and the storage answers one object. -/
def calmly : ArtifactOutcome where
  revision := ⟨0, false, "x"⟩
  fault := false
  stored := ⟨"h", "local://t/p/h"⟩
  workspace := true
  refused := none
  fresh _ := "x"

/-- No artifacts. -/
def noArtifacts : ArtifactState where
  office := ⟨⟨.empty, .empty⟩, fun _ => {}, .empty, .empty⟩
  v2 _ := .empty
  versions := .empty
  edit_requests := []

def brief : NewArtifact where
  tenant_id := "t"
  project_id := "p"
  actor := "u"
  artifact_key := "brief"
  artifact_type := "strategy_brief"
  content_hash := some "h1"
  storage_uri := some "local://t/p/h1"

/-- A revision that gives the artifact a language. -/
def translated : ProjectRevision where
  project_id := "p"
  artifact_id := "art-p-brief"
  actor := "u"
  expected_version := 1
  content_hash := some "h2"
  storage_uri := some "local://t/p/h2"
  v2_patch := Table.empty.put ("language", .str "en")

/-- How a program ends in calm circumstances, and the tables after it. -/
abbrev calmRun {α : Type} (p : ArtifactProgram α) (w : ArtifactState) : Except ProjectError α × ArtifactState :=
  runAlone artifactExec calmly p [] w

def afterCreate : ArtifactState := (calmRun (create_project_artifact 9 brief) noArtifacts).2

def afterTranslation : ArtifactState :=
  (calmRun (revise_project_artifact (fun _ => "h") 9 translated) afterCreate).2

/-- The restore of version `version` after the translation. -/
def restored (version : ℕ) : Except ProjectError Revised × ArtifactState :=
  calmRun (restore_artifact_version (fun _ => "h") 9 "p" "art-p-brief" version "u" 2) afterTranslation

theorem exists_ok {ε : Type} {r : Except ε α} (h : r.isOk = true) : ∃ a, r = .ok a := by
  cases r with
  | ok a => exact ⟨a, rfl⟩
  | error e => cases h

theorem solo_calmRun {p : ArtifactProgram α} {w : ArtifactState} (h : (calmRun p w).1.isOk = true) :
    ∃ l a, Solo artifactExec p w l (.ok a) (calmRun p w).2 := by
  obtain ⟨a, ha⟩ := exists_ok h
  refine ⟨soloCalls artifactExec calmly p [] w, a, ?_⟩
  rw [← ha]
  exact solo_runAlone _ _ _ _ _

theorem not_reproduces {head : ArtifactRecord} (htarget : (target.metadata.v2.get key).isSome = false)
    (hhead : (head.metadata.v2.get key).isSome = true) : ¬ Reproduces target head := by
  intro h
  rw [h.2.2 key, htarget] at hhead
  cases hhead

/-- The restore of the version that is the head. -/
theorem restore_reproduces_iff_head : ∃ l revised w', Solo artifactExec
      (restore_artifact_version (fun _ => "h") 9 "p" "art-p-brief" 2 "u" 2) afterTranslation l (.ok revised) w' ∧
    ∃ target source head, afterTranslation.versions.find? ("art-p-brief", 2) = some target ∧
      afterTranslation.get_artifact "art-p-brief" = some source ∧ w'.get_artifact "art-p-brief" = some head ∧
      (Reproduces target head ↔ Restorable target source) := by
  obtain ⟨l, revised, h⟩ := solo_calmRun (show (restored 2).1.isOk = true by decide +kernel)
  exact ⟨l, revised, _, h, restore_reproduces_iff h⟩

/-- **The language outlives the restore**: an artifact is created, revised with a language, and restored to its first
    version, which had none. -/
theorem restore_keeps_language : ∃ l₁ l₂ l₃ created revised restored w₁ w₂ w₃ target head,
    Solo artifactExec (create_project_artifact 9 brief) noArtifacts l₁ (.ok created) w₁ ∧
    Solo artifactExec (revise_project_artifact (fun _ => "h") 9 translated) w₁ l₂ (.ok revised) w₂ ∧
    w₂.versions.find? ("art-p-brief", 1) = some target ∧
    Solo artifactExec (restore_artifact_version (fun _ => "h") 9 "p" "art-p-brief" 1 "u" 2) w₂ l₃ (.ok restored) w₃ ∧
    w₃.get_artifact "art-p-brief" = some head ∧ ¬ Reproduces target head := by
  obtain ⟨l₁, created, h₁⟩ := solo_calmRun
    (show (calmRun (create_project_artifact 9 brief) noArtifacts).1.isOk = true by decide +kernel)
  obtain ⟨l₂, revised, h₂⟩ := solo_calmRun
    (show (calmRun (revise_project_artifact (fun _ => "h") 9 translated) afterCreate).1.isOk = true by decide +kernel)
  obtain ⟨l₃, again, h₃⟩ := solo_calmRun (show (restored 1).1.isOk = true by decide +kernel)
  obtain ⟨target, htarget, hnone⟩ := (Option.any_eq_true _ _).mp (show (afterTranslation.versions.find? ("art-p-brief", 1)).any
    (fun row => (row.metadata.v2.get "language").isSome = false) = true by decide +kernel)
  obtain ⟨head, hhead, hsome⟩ := (Option.any_eq_true _ _).mp (show ((restored 1).2.get_artifact "art-p-brief").any
    (fun record => (record.metadata.v2.get "language").isSome) = true by decide +kernel)
  exact ⟨l₁, l₂, l₃, created, revised, again, _, _, _, target, head, h₁, h₂, htarget, h₃, hhead,
    not_reproduces (of_decide_eq_true hnone) hsome⟩

end Projects
