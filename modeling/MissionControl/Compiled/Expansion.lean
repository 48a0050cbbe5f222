import MissionControl.Compiled.Backchain

/-! # What an expansion adds

Expanding an artifact adds the nodes of the artifacts it demands: itself and, through the inputs of the producing roles,
whatever does not exist yet. It changes nothing else, and what it adds fits together (`accepted_spec`). -/

namespace Compiled

open Python (mem_sortedSet)

/-! ## The roles -/

/-- The producer of an artifact consumes another. -/
def Consumes (a c : ArtifactType) : Prop := ∃ producer, producer_for a = some producer ∧ c ∈ producer.consumes

/-- How far an artifact is from the research. -/
def rank : ArtifactType → Nat
  | .research_brief | .market_analysis | .knowledge_capsule => 0
  | .positioning_statement | .business_model_spec | .offer_definition => 1
  | .brand_platform | .naming_candidate | .identity_guidelines | .brand_core | .brand_guidelines_doc | .product_spec => 2
  | .creative_concept | .asset_prompt_set | .media_asset => 3
  | .copy_variant | .design_brief | .design_token_set | .design_system_spec | .website_lockup_spec => 4
  | .campaign_package | .implementation_plan | .app_build_spec | .automation_spec => 5
  | .media_plan | .measurement_plan | .qa_report => 6
  | .release_record => 7

theorem producer_isSome (a : ArtifactType) : (producer_for a).isSome = true := by
  have hall : ∀ a ∈ ArtifactType.all, (producer_for a).isSome = true := by decide
  exact hall a a.mem_all

theorem rank_lt {a c : ArtifactType} (h : Consumes a c) : rank c < rank a := by
  have hall : ∀ a ∈ ArtifactType.all, ∀ producer, producer_for a = some producer →
      ∀ c ∈ producer.consumes, rank c < rank a := by
    have hdecided : ∀ a ∈ ArtifactType.all, ∀ c ∈ ((producer_for a).map (·.consumes)).getD [], rank c < rank a := by decide
    intro a ha producer hproducer c hc
    apply hdecided a ha
    rw [hproducer]
    exact hc
  obtain ⟨producer, hproducer, hc⟩ := h
  exact hall a a.mem_all producer hproducer c hc

theorem rank_lt_fullDepth (a : ArtifactType) : rank a < fullDepth := by
  cases a <;> decide

/-- What an artifact demands: itself unless it exists, and through the inputs of the producing roles whatever does not
    exist. -/
inductive Demands (given : Given) (a : ArtifactType) : ArtifactType → Prop
  | self (h : given.existing_artifacts.lookup a.value = none) : Demands given a a
  | input {x c : ArtifactType} (hx : Demands given a x) (hc : Consumes x c)
      (h : given.existing_artifacts.lookup c.value = none) : Demands given a c

/-- The node an artifact is there by. -/
def inputId (given : Given) (a : ArtifactType) : String :=
  match given.existing_artifacts.lookup a.value with
  | some _ => "ref:" ++ a.value
  | none => "accept:" ++ a.value

variable {given : Given} {a c x y : ArtifactType}

theorem Demands.rank_le (h : Demands given a x) : rank x ≤ rank a := by
  induction h with
  | self _ => exact le_refl _
  | input _ hc _ ih => exact (rank_lt hc).le.trans ih

theorem demands_iff (h : given.existing_artifacts.lookup a.value = none) :
    Demands given a x ↔ x = a ∨ ∃ c, Consumes a c ∧ Demands given c x := by
  constructor
  · intro hx
    induction hx with
    | self _ => exact .inl rfl
    | @input y c _ hc hmissing ih =>
      rcases ih with rfl | ⟨d, hd, hy⟩
      · exact .inr ⟨c, hc, .self hmissing⟩
      · exact .inr ⟨d, hd, .input hy hc hmissing⟩
  · rintro (rfl | ⟨c, hc, hx⟩)
    · exact .self h
    · induction hx with
      | self hmissing => exact .input (.self h) hc hmissing
      | input _ hd hmissing ih => exact .input ih hd hmissing

/-! ## Identifiers -/

/-- The part of an identifier before the first colon. -/
def kindOf (id : String) : List Char := id.toList.takeWhile (· != ':')

theorem kindOf_ref (text : String) : kindOf ("ref:" ++ text) = "ref".toList := by simp [kindOf]
theorem kindOf_blocker (text : String) : kindOf ("blocker:" ++ text) = "blocker".toList := by simp [kindOf]
theorem kindOf_work (text : String) : kindOf ("work:" ++ text) = "work".toList := by simp [kindOf]
theorem kindOf_evidence (text : String) : kindOf ("evidence:" ++ text) = "evidence".toList := by simp [kindOf]
theorem kindOf_validate (text : String) : kindOf ("validate:" ++ text) = "validate".toList := by simp [kindOf]
theorem kindOf_decision (text : String) : kindOf ("decision:" ++ text) = "decision".toList := by simp [kindOf]
theorem kindOf_accept (text : String) : kindOf ("accept:" ++ text) = "accept".toList := by simp [kindOf]

theorem ne_of_kindOf {a b : String} (h : kindOf a ≠ kindOf b) : a ≠ b := fun hab => h (congrArg kindOf hab)

/-! ## Adding a node -/

/-- The same node, but for what it satisfies and its domains. -/
def Alike (n' n : BackchainNode) : Prop := ∃ satisfies domains, n' = { n with satisfies := satisfies, domains := domains }

theorem Alike.refl (n : BackchainNode) : Alike n n := ⟨n.satisfies, n.domains, rfl⟩

theorem Alike.trans {n₁ n₂ n₃ : BackchainNode} (h : Alike n₁ n₂) (h' : Alike n₂ n₃) : Alike n₁ n₃ := by
  obtain ⟨s, d, rfl⟩ := h
  obtain ⟨s', d', rfl⟩ := h'
  exact ⟨s, d, rfl⟩

namespace Builder

variable {b b' : Builder} {node n n' : BackchainNode} {id : String}

theorem mem_ids : id ∈ b.ids ↔ ∃ n ∈ b.nodes, n.id = id := List.mem_map

theorem ids_add : (b.add node).ids = if node.id ∈ b.ids then b.ids else b.ids ++ [node.id] := by
  unfold add
  split
  · show (b.nodes.map _).map _ = _
    rw [List.map_map]
    apply List.map_congr_left
    intro n _
    show (if n.id = node.id then _ else n).id = n.id
    split <;> rfl
  · show (b.nodes ++ [stored node]).map _ = _
    rw [List.map_append]
    rfl

theorem mem_ids_add : id ∈ (b.add node).ids ↔ id ∈ b.ids ∨ id = node.id := by
  rw [ids_add]
  split
  · rename_i h
    exact ⟨.inl, fun hid => hid.elim (fun hid => hid) fun heq => heq ▸ h⟩
  · simp

theorem nodup_add (h : b.ids.Nodup) : (b.add node).ids.Nodup := by
  rw [ids_add]
  split
  · exact h
  · rename_i hnew
    rw [← List.concat_eq_append]
    exact h.concat hnew

theorem add_keeps (h : n ∈ b.nodes) : ∃ n' ∈ (b.add node).nodes, Alike n' n := by
  unfold add
  split
  · refine ⟨_, List.mem_map_of_mem h, ?_⟩
    split
    · exact ⟨_, _, rfl⟩
    · exact .refl n
  · exact ⟨n, List.mem_append_left _ h, .refl n⟩

theorem mem_add (h : n' ∈ (b.add node).nodes) :
    (∃ n ∈ b.nodes, Alike n' n) ∨ node.id ∉ b.ids ∧ n' = stored node := by
  unfold add at h
  split at h
  · obtain ⟨n, hn, rfl⟩ := List.mem_map.mp h
    refine .inl ⟨n, hn, ?_⟩
    split
    · exact ⟨_, _, rfl⟩
    · exact .refl n
  · rename_i hnew
    rcases List.mem_append.mp h with h | h
    · exact .inl ⟨n', h, .refl n'⟩
    · exact .inr ⟨hnew, List.mem_singleton.mp h⟩

theorem stored_mem_add (h : node.id ∉ b.ids) : stored node ∈ (b.add node).nodes := by
  unfold add
  rw [if_neg h]
  exact List.mem_append_right _ List.mem_cons_self

/-- Add several nodes. -/
def addAll (b : Builder) (nodes : List BackchainNode) : Builder := nodes.foldl add b

variable {nodes : List BackchainNode}

theorem mem_ids_addAll : id ∈ (b.addAll nodes).ids ↔ id ∈ b.ids ∨ id ∈ nodes.map (·.id) := by
  unfold addAll
  induction nodes generalizing b with
  | nil => simp
  | cons node nodes ih =>
    rw [List.foldl_cons, ih, mem_ids_add, List.map_cons, List.mem_cons, or_assoc]

theorem nodup_addAll (h : b.ids.Nodup) : (b.addAll nodes).ids.Nodup := by
  unfold addAll
  induction nodes generalizing b with
  | nil => exact h
  | cons node nodes ih => exact ih (nodup_add h)

theorem addAll_keeps (h : n ∈ b.nodes) : ∃ n' ∈ (b.addAll nodes).nodes, Alike n' n := by
  unfold addAll
  induction nodes generalizing b n with
  | nil => exact ⟨n, h, .refl n⟩
  | cons node nodes ih =>
    obtain ⟨n', hn', halike⟩ : ∃ n' ∈ (b.add node).nodes, Alike n' n := add_keeps h
    obtain ⟨n'', hn'', halike'⟩ := ih hn'
    exact ⟨n'', hn'', halike'.trans halike⟩

theorem mem_addAll (h : n' ∈ (b.addAll nodes).nodes) :
    (∃ n ∈ b.nodes, Alike n' n) ∨ ∃ node ∈ nodes, node.id ∉ b.ids ∧ Alike n' (stored node) := by
  unfold addAll at h
  induction nodes generalizing b with
  | nil => exact .inl ⟨n', h, .refl n'⟩
  | cons node nodes ih =>
    rcases ih h with ⟨n, hn, halike⟩ | ⟨other, hother, hnew, halike⟩
    · rcases mem_add hn with ⟨old, hold, halike'⟩ | ⟨hnew, rfl⟩
      · exact .inl ⟨old, hold, halike.trans halike'⟩
      · exact .inr ⟨node, List.mem_cons_self, hnew, halike⟩
    · exact .inr ⟨other, List.mem_cons_of_mem _ hother, fun hid => hnew (mem_ids_add.mpr (.inl hid)), halike⟩

theorem stored_mem_addAll (hnodes : (nodes.map (·.id)).Nodup) (h : node ∈ nodes) (hnew : node.id ∉ b.ids) :
    ∃ n' ∈ (b.addAll nodes).nodes, Alike n' (stored node) := by
  unfold addAll
  induction nodes generalizing b with
  | nil => cases h
  | cons first nodes ih =>
    rw [List.map_cons, List.nodup_cons] at hnodes
    rcases List.mem_cons.mp h with rfl | h
    · show ∃ n' ∈ ((b.add node).addAll nodes).nodes, _
      exact addAll_keeps (stored_mem_add hnew)
    · apply ih hnodes.2 h
      rw [mem_ids_add, not_or]
      refine ⟨hnew, fun heq => hnodes.1 ?_⟩
      rw [← heq]
      exact List.mem_map_of_mem h

/-- Each node comes after those it depends on. -/
def Layered (b : Builder) : Prop :=
  ∀ before n after, b.nodes = before ++ n :: after → ∀ d ∈ n.hard_dependencies, d ∈ before.map (·.id)

theorem Layered.add (h : b.Layered) (hdeps : ∀ d ∈ node.hard_dependencies, d ∈ b.ids) : (b.add node).Layered := by
  intro before n after hsplit d hd
  unfold Builder.add at hsplit
  split at hsplit
  · obtain ⟨before', rest, hnodes, rfl, hrest⟩ := List.map_eq_append_iff.mp hsplit
    obtain ⟨m, after', rfl, rfl, -⟩ := List.map_eq_cons_iff.mp hrest
    have hm : d ∈ m.hard_dependencies := by
      split at hd
      · exact hd
      · exact hd
    have hids : (before'.map fun n => if n.id = node.id then merged n node.satisfies node.domains else n).map (·.id) =
        before'.map (·.id) := by
      rw [List.map_map]
      apply List.map_congr_left
      intro n _
      show (if n.id = node.id then _ else n).id = n.id
      split <;> rfl
    rw [hids]
    exact h before' m after' hnodes d hm
  · rcases List.eq_nil_or_concat' after with rfl | ⟨after', z, rfl⟩
    · obtain ⟨rfl, hlast⟩ := List.append_inj' hsplit rfl
      obtain rfl := List.head_eq_of_cons_eq hlast
      exact hdeps d (mem_sortedSet.mp hd)
    · have hassoc : before ++ n :: (after' ++ [z]) = (before ++ n :: after') ++ [z] := by simp
      rw [hassoc] at hsplit
      exact h before n after' (List.append_inj' hsplit rfl).1 d hd

/-- Nodes that can be added one after another: each depends on what is there by then. -/
def Stacked : (String → Prop) → List BackchainNode → Prop
  | _, [] => True
  | there, node :: nodes => (∀ d ∈ node.hard_dependencies, there d) ∧ Stacked (fun d => there d ∨ d = node.id) nodes

theorem Stacked.mono {there there' : String → Prop} (h : Stacked there nodes) (hthere : ∀ d, there d → there' d) :
    Stacked there' nodes := by
  induction nodes generalizing there there' with
  | nil => trivial
  | cons node nodes ih =>
    exact ⟨fun d hd => hthere d (h.1 d hd), ih h.2 fun d hd => hd.imp_left (hthere d)⟩

theorem Layered.addAll (h : b.Layered) (hnodes : Stacked (· ∈ b.ids) nodes) : (b.addAll nodes).Layered := by
  unfold Builder.addAll
  induction nodes generalizing b with
  | nil => exact h
  | cons node nodes ih =>
    apply ih (h.add hnodes.1)
    exact hnodes.2.mono fun d hd => mem_ids_add.mpr hd

end Builder

/-! ## Producing an artifact -/

/-- What the validation of an artifact depends on: the work, and evidence where the role wants some. -/
def validateDeps (a : ArtifactType) (producer : RoleContract) : List String :=
  if producer.min_evidence ≠ 0 then ["work:" ++ a.value, "evidence:" ++ a.value] else ["work:" ++ a.value]

/-- What the acceptance of an artifact depends on: the validation, and the decision over a material choice. -/
def acceptDeps (a : ArtifactType) : List String :=
  match MATERIAL_DECISIONS a with
  | some kind => ["validate:" ++ a.value, "decision:" ++ kind.value]
  | none => ["validate:" ++ a.value]

/-- The nodes `produce` adds, in order. -/
def producedNodes (given : Given) (a : ArtifactType) (producer : RoleContract) (satisfies : String)
    (domains : List String) (live : Bool) (inputs : List String) (research_upstream : Bool) : List BackchainNode :=
  [productionNode a producer inputs domains] ++
  (if producer.min_evidence ≠ 0 then [evidenceNode given a producer.min_evidence domains research_upstream] else []) ++
  [validateNode a (validateDeps a producer) domains live] ++
  (match MATERIAL_DECISIONS a with
    | some kind => [decisionNode given kind ("work:" ++ a.value) ("accept:" ++ a.value) domains]
    | none => []) ++
  [acceptNode a producer satisfies (acceptDeps a) domains]

theorem produce_eq {producer : RoleContract} {satisfies : String} {domains : List String} {live : Bool}
    {inputs : List String} {b : Builder} : ∃ research_upstream, produce given a producer satisfies domains live inputs b =
      b.addAll (producedNodes given a producer satisfies domains live inputs research_upstream) := by
  refine ⟨RESEARCH_ARTIFACTS.contains a || RESEARCH_ARTIFACTS.any fun r =>
    ((b.add (productionNode a producer inputs domains)).raw_ancestors ("work:" ++ a.value)).contains ("work:" ++ r.value), ?_⟩
  unfold produce producedNodes validateDeps acceptDeps Builder.addAll
  by_cases hmin : producer.min_evidence = 0
  · cases MATERIAL_DECISIONS a <;>
      simp only [hmin, ne_eq, not_true_eq_false, if_false, List.append_nil, List.cons_append, List.nil_append,
        List.foldl_cons, List.foldl_nil]
  · cases MATERIAL_DECISIONS a <;>
      simp only [hmin, ne_eq, not_false_eq_true, if_true, List.append_nil, List.cons_append, List.nil_append,
        List.foldl_cons, List.foldl_nil]

section

variable {producer : RoleContract} {satisfies : String} {domains inputs : List String} {live upstream : Bool}
  {node : BackchainNode} {b b' b'' : Builder}

theorem mem_producedNodes : node ∈ producedNodes given a producer satisfies domains live inputs upstream ↔
    node = productionNode a producer inputs domains ∨
    (producer.min_evidence ≠ 0 ∧ node = evidenceNode given a producer.min_evidence domains upstream) ∨
    node = validateNode a (validateDeps a producer) domains live ∨ (∃ kind, MATERIAL_DECISIONS a = some kind ∧
      node = decisionNode given kind ("work:" ++ a.value) ("accept:" ++ a.value) domains) ∨
    node = acceptNode a producer satisfies (acceptDeps a) domains := by
  unfold producedNodes
  rw [List.mem_append, List.mem_append, List.mem_append, List.mem_append, List.mem_singleton, List.mem_singleton,
    List.mem_singleton, or_assoc, or_assoc, or_assoc]
  refine or_congr Iff.rfl (or_congr ?_ (or_congr Iff.rfl (or_congr ?_ Iff.rfl)))
  · split
    · rename_i h
      simp [h]
    · rename_i h
      simp [h]
  · cases MATERIAL_DECISIONS a with
    | some kind => simp
    | none => simp

theorem producedNodes_nodup :
    ((producedNodes given a producer satisfies domains live inputs upstream).map (·.id)).Nodup := by
  apply List.Nodup.of_map kindOf
  have hkinds : ∀ kind : DecisionKind, [kindOf ("work:" ++ a.value), kindOf ("evidence:" ++ a.value),
      kindOf ("validate:" ++ a.value), kindOf ("decision:" ++ kind.value), kindOf ("accept:" ++ a.value)].Nodup := by
    intro kind
    rw [kindOf_work, kindOf_evidence, kindOf_validate, kindOf_decision, kindOf_accept]
    decide
  refine (hkinds ((MATERIAL_DECISIONS a).getD .SCOPE)).sublist ?_
  unfold producedNodes
  rw [List.map_map]
  split <;> cases MATERIAL_DECISIONS a <;>
    simp [productionNode, evidenceNode, validateNode, decisionNode, acceptNode]

/-! ## What an expansion keeps -/

/-- What is known of a node that an expansion adds: `made` are the artifacts it is for, and `obliged` the obligations of
    their validation. -/
structure NodeFacts (made : ArtifactType → Prop) (obliged : ArtifactType → List String) (n : BackchainNode) : Prop where
  work : n.type = .EXECUTABLE_WORK → ∃ x, made x ∧ n.id = "work:" ++ x.value ∧ n.artifact_type = some x.value
  leaf : n.hard_dependencies = [] → n.resolution ≠ .DERIVED
  carries : n.validation_obligations ≠ [] → ∃ x : ArtifactType, n.id = "validate:" ++ x.value
  obligations : ∀ x : ArtifactType, n.id = "validate:" ++ x.value → made x ∧ n.validation_obligations = obliged x
  inner : kindOf n.id ≠ "deliverable".toList ∧ kindOf n.id ≠ "external".toList

variable {made made' : ArtifactType → Prop} {obliged : ArtifactType → List String} {n n' : BackchainNode}

theorem NodeFacts.alike (h : NodeFacts made obliged n) (halike : Alike n' n) : NodeFacts made obliged n' := by
  obtain ⟨s, d, rfl⟩ := halike
  exact ⟨h.work, h.leaf, h.carries, h.obligations, h.inner⟩

theorem NodeFacts.mono (h : NodeFacts made obliged n) (hmade : ∀ x, made x → made' x) : NodeFacts made' obliged n where
  work htype := by
    obtain ⟨x, hx, hid, hartifact⟩ := h.work htype
    exact ⟨x, hmade x hx, hid, hartifact⟩
  leaf := h.leaf
  carries := h.carries
  obligations x hx := ⟨hmade x (h.obligations x hx).1, (h.obligations x hx).2⟩
  inner := h.inner

variable {id : String}

theorem not_validate (h : kindOf id ≠ "validate".toList) (x : ArtifactType) : id ≠ "validate:" ++ x.value :=
  fun heq => h (heq ▸ kindOf_validate _)

theorem validate_inj (h : "validate:" ++ x.value = "validate:" ++ y.value) : x = y :=
  ArtifactType.value_inj ((String.append_right_inj _).mp h)

theorem accept_inj (h : "accept:" ++ x.value = "accept:" ++ y.value) : x = y :=
  ArtifactType.value_inj ((String.append_right_inj _).mp h)

theorem work_inj (h : "work:" ++ x.value = "work:" ++ y.value) : x = y :=
  ArtifactType.value_inj ((String.append_right_inj _).mp h)

theorem nodeFacts_plain (htype : n.type ≠ .EXECUTABLE_WORK) (hleaf : n.hard_dependencies = [] → n.resolution ≠ .DERIVED)
    (hobligations : n.validation_obligations = [])
    (hkind : kindOf n.id ≠ "validate".toList ∧ kindOf n.id ≠ "deliverable".toList ∧ kindOf n.id ≠ "external".toList) :
    NodeFacts made obliged n where
  work h := absurd h htype
  leaf := hleaf
  carries h := absurd hobligations h
  obligations x hx := absurd hx (not_validate hkind.1 x)
  inner := hkind.2

theorem validate_obligations {deps : List String} :
    (Builder.stored (validateNode a deps domains live)).validation_obligations = obligations_for a domains false live := by
  dsimp only [Builder.stored, validateNode]

theorem producedNodes_facts (h : node ∈ producedNodes given a producer satisfies domains live inputs upstream) :
    NodeFacts (· = a) (fun x => obligations_for x domains false live) (Builder.stored node) := by
  rcases mem_producedNodes.mp h with rfl | ⟨-, rfl⟩ | rfl | ⟨kind, -, rfl⟩ | rfl
  · have hkind : kindOf (Builder.stored (productionNode a producer inputs domains)).id = "work".toList := kindOf_work _
    refine ⟨fun _ => ⟨a, rfl, rfl, rfl⟩, fun _ => Resolution.noConfusion, fun hne => absurd rfl hne, ?_, ?_⟩
    · intro x hx
      exact absurd hx (not_validate (by rw [hkind]; decide) x)
    · rw [hkind]
      decide
  · have hkind : kindOf (Builder.stored (evidenceNode given a producer.min_evidence domains upstream)).id =
        "evidence".toList := kindOf_evidence _
    apply nodeFacts_plain NodeType.noConfusion _ rfl
    · rw [hkind]
      decide
    · intro _
      show (if _ then _ else _) ≠ _
      split
      · exact Resolution.noConfusion
      · split <;> exact Resolution.noConfusion
  · refine ⟨NodeType.noConfusion, ?_, fun _ => ⟨a, rfl⟩, ?_, ?_⟩
    · intro hnone
      have hdeps : validateDeps a producer = [] := Python.sortedSet_eq_nil.mp hnone
      unfold validateDeps at hdeps
      split at hdeps <;> cases hdeps
    · intro x hx
      have hsame : x = a := (validate_inj hx).symm
      refine ⟨hsame, ?_⟩
      rw [hsame, validate_obligations]
    · have hkind : ∀ deps, kindOf (Builder.stored (validateNode a deps domains live)).id = "validate".toList :=
        fun _ => kindOf_validate _
      rw [hkind]
      decide
  · have hkind : kindOf (Builder.stored (decisionNode given kind ("work:" ++ a.value) ("accept:" ++ a.value) domains)).id =
        "decision".toList := kindOf_decision _
    apply nodeFacts_plain NodeType.noConfusion _ rfl
    · rw [hkind]
      decide
    · intro _
      show (if _ then _ else _) ≠ _
      split <;> exact Resolution.noConfusion
  · have hkind : ∀ deps, kindOf (Builder.stored (acceptNode a producer satisfies deps domains)).id = "accept".toList :=
      fun _ => kindOf_accept _
    apply nodeFacts_plain NodeType.noConfusion _ rfl
    · rw [hkind]
      decide
    · intro hnone
      have hdeps : acceptDeps a = [] := Python.sortedSet_eq_nil.mp hnone
      unfold acceptDeps at hdeps
      split at hdeps <;> cases hdeps

/-- A builder with more nodes: what was there stays, and the artifacts `made` are accepted too. -/
structure Keeps (made : ArtifactType → Prop) (b b' : Builder) : Prop where
  kept : ∀ n ∈ b.nodes, ∃ n' ∈ b'.nodes, Alike n' n
  accepts : ∀ x : ArtifactType, "accept:" ++ x.value ∈ b'.ids ↔ "accept:" ++ x.value ∈ b.ids ∨ made x

/-- What is new is for the artifacts `made`. -/
structure Extends (made : ArtifactType → Prop) (obliged : ArtifactType → List String) (b b' : Builder) : Prop
    extends Keeps made b b' where
  fresh : ∀ n' ∈ b'.nodes, (∃ n ∈ b.nodes, Alike n' n) ∨ n'.id ∉ b.ids ∧ NodeFacts made obliged n'

theorem Alike.id_eq (h : Alike n' n) : n'.id = n.id := by
  obtain ⟨s, d, rfl⟩ := h
  rfl

theorem Alike.hard_dependencies_eq (h : Alike n' n) : n'.hard_dependencies = n.hard_dependencies := by
  obtain ⟨s, d, rfl⟩ := h
  rfl

theorem Alike.obligations_eq (h : Alike n' n) : n'.validation_obligations = n.validation_obligations := by
  obtain ⟨s, d, rfl⟩ := h
  rfl

theorem Keeps.ids (h : Keeps made b b') (hid : id ∈ b.ids) : id ∈ b'.ids := by
  obtain ⟨n, hn, rfl⟩ := Builder.mem_ids.mp hid
  obtain ⟨n', hn', halike⟩ := h.kept n hn
  exact Builder.mem_ids.mpr ⟨n', hn', halike.id_eq⟩

theorem Keeps.mono (h : Keeps made b b') (hmade : ∀ x, made x → made' x)
    (hthere : ∀ x, made' x → ¬ made x → "accept:" ++ x.value ∈ b.ids) : Keeps made' b b' where
  kept := h.kept
  accepts x := by
    rw [h.accepts]
    constructor
    · exact Or.imp_right (hmade x)
    · rintro (hx | hx)
      · exact .inl hx
      · by_cases hmx : made x
        · exact .inr hmx
        · exact .inl (hthere x hx hmx)

theorem Keeps.trans (h : Keeps made b b') (h' : Keeps made' b' b'') : Keeps (fun x => made x ∨ made' x) b b'' where
  kept n hn := by
    obtain ⟨n', hn', halike⟩ := h.kept n hn
    obtain ⟨n'', hn'', halike'⟩ := h'.kept n' hn'
    exact ⟨n'', hn'', halike'.trans halike⟩
  accepts x := by
    rw [h'.accepts, h.accepts, or_assoc]

theorem Extends.mono (h : Extends made obliged b b') (hmade : ∀ x, made x → made' x)
    (hthere : ∀ x, made' x → ¬ made x → "accept:" ++ x.value ∈ b.ids) : Extends made' obliged b b' where
  toKeeps := h.toKeeps.mono hmade hthere
  fresh n' hn' := (h.fresh n' hn').imp_right fun ⟨hnew, hfacts⟩ => ⟨hnew, hfacts.mono hmade⟩

theorem Extends.trans (h : Extends made obliged b b') (h' : Extends made' obliged b' b'') :
    Extends (fun x => made x ∨ made' x) obliged b b'' where
  toKeeps := h.toKeeps.trans h'.toKeeps
  fresh n'' hn'' := by
    rcases h'.fresh n'' hn'' with ⟨n', hn', halike'⟩ | ⟨hnew, hfacts⟩
    · rcases h.fresh n' hn' with ⟨n, hn, halike⟩ | ⟨hnew, hfacts⟩
      · exact .inl ⟨n, hn, halike'.trans halike⟩
      · exact .inr ⟨by rwa [halike'.id_eq], (hfacts.alike halike').mono fun x hx => .inl hx⟩
    · exact .inr ⟨fun hid => hnew (h.ids hid), hfacts.mono fun x hx => .inr hx⟩

theorem keeps_add (hkind : kindOf node.id ≠ "accept".toList) : Keeps (fun _ => False) b (b.add node) where
  kept n hn := Builder.add_keeps hn
  accepts x := by
    have hne : "accept:" ++ x.value ≠ node.id := fun heq => hkind (heq ▸ kindOf_accept _)
    rw [Builder.mem_ids_add, or_iff_left hne, or_false]

theorem extends_add (hfacts : NodeFacts (fun _ => False) obliged (Builder.stored node))
    (hkind : kindOf node.id ≠ "accept".toList) : Extends (fun _ => False) obliged b (b.add node) where
  toKeeps := keeps_add hkind
  fresh n' hn' := (Builder.mem_add hn').imp_right fun ⟨hnew, heq⟩ => by
    rw [heq]
    exact ⟨hnew, hfacts⟩

theorem extends_add_again (h : node.id ∈ b.ids) : Extends (fun _ => False) obliged b (b.add node) where
  kept n hn := Builder.add_keeps hn
  fresh n' hn' := .inl ((Builder.mem_add hn').resolve_right fun hnew => hnew.1 h)
  accepts x := by
    rw [Builder.ids_add, if_pos h, or_false]

theorem extends_refl : Extends (fun _ => False) obliged b b where
  kept n hn := ⟨n, hn, .refl n⟩
  fresh n hn := .inl ⟨n, hn, .refl n⟩
  accepts x := by rw [or_false]

/-- A node has another among its hard dependencies. -/
def Builder.DependsOn (b : Builder) (id d : String) : Prop := ∃ n ∈ b.nodes, n.id = id ∧ d ∈ n.hard_dependencies

variable {d : String}

theorem Keeps.dependsOn (h : Keeps made b b') (hdep : b.DependsOn id d) : b'.DependsOn id d := by
  obtain ⟨n, hn, rfl, hd⟩ := hdep
  obtain ⟨n', hn', halike⟩ := h.kept n hn
  exact ⟨n', hn', halike.id_eq, halike.hard_dependencies_eq ▸ hd⟩

/-- The nodes of an artifact, from its acceptance to the inputs of the work. -/
structure Chain (given : Given) (b : Builder) (x : ArtifactType) : Prop where
  validated : b.DependsOn ("accept:" ++ x.value) ("validate:" ++ x.value)
  worked : b.DependsOn ("validate:" ++ x.value) ("work:" ++ x.value)
  work : ∃ n ∈ b.nodes, n.id = "work:" ++ x.value ∧ n.type = .EXECUTABLE_WORK ∧ n.artifact_type = some x.value
  inputs : ∀ c, Consumes x c → b.DependsOn ("work:" ++ x.value) (inputId given c)

theorem Chain.extends (h : Chain given b x) (hext : Keeps made b b') : Chain given b' x where
  validated := hext.dependsOn h.validated
  worked := hext.dependsOn h.worked
  work := by
    obtain ⟨n, hn, hid, htype, hartifact⟩ := h.work
    obtain ⟨n', hn', s, d, rfl⟩ := hext.kept n hn
    exact ⟨_, hn', hid, htype, hartifact⟩
  inputs c hc := hext.dependsOn (h.inputs c hc)

/-- The nodes fit together: none is there twice, each comes after those it depends on, and an accepted artifact has all its
    nodes. -/
structure Sound (given : Given) (b : Builder) : Prop where
  distinct : b.ids.Nodup
  layered : b.Layered
  closed : ∀ n ∈ b.nodes, ∀ d ∈ n.hard_dependencies, d ∈ b.ids
  produced : ∀ x : ArtifactType, "work:" ++ x.value ∈ b.ids ∨ "validate:" ++ x.value ∈ b.ids →
    "accept:" ++ x.value ∈ b.ids
  chain : ∀ x : ArtifactType, "accept:" ++ x.value ∈ b.ids →
    given.existing_artifacts.lookup x.value = none ∧ Chain given b x

theorem Sound.add (h : Sound given b) (hext : Keeps (fun _ => False) b (b.add node))
    (hdeps : ∀ d ∈ node.hard_dependencies, d ∈ b.ids)
    (hkind : kindOf node.id ≠ "work".toList ∧ kindOf node.id ≠ "validate".toList ∨ node.id ∈ b.ids) :
    Sound given (b.add node) where
  distinct := Builder.nodup_add h.distinct
  layered := h.layered.add hdeps
  closed n' hn' d hd := by
    rcases Builder.mem_add hn' with ⟨n, hn, halike⟩ | ⟨-, rfl⟩
    · exact hext.ids (h.closed n hn d (halike.hard_dependencies_eq ▸ hd))
    · exact hext.ids (hdeps d (mem_sortedSet.mp hd))
  produced x hx := by
    have hold : "work:" ++ x.value ∈ b.ids ∨ "validate:" ++ x.value ∈ b.ids := by
      rcases hkind with ⟨hwork, hvalidate⟩ | hagain
      · refine hx.imp (fun hid => ?_) fun hid => ?_
        · exact (Builder.mem_ids_add.mp hid).resolve_right fun heq => hwork (heq ▸ kindOf_work _)
        · exact (Builder.mem_ids_add.mp hid).resolve_right fun heq => hvalidate (heq ▸ kindOf_validate _)
      · rwa [Builder.ids_add, if_pos hagain] at hx
    exact hext.ids (h.produced x hold)
  chain x hx := by
    have hold := ((hext.accepts x).mp hx).resolve_right fun hno => hno
    exact ⟨(h.chain x hold).1, (h.chain x hold).2.extends hext⟩

theorem Sound.demanded (h : Sound given b) (ha : "accept:" ++ a.value ∈ b.ids) (hx : Demands given a x) :
    "accept:" ++ x.value ∈ b.ids := by
  induction hx with
  | self _ => exact ha
  | @input y c _ hc hmissing ih =>
    obtain ⟨n, hn, -, hd⟩ := (h.chain y ih).2.inputs c hc
    have hid : inputId given c = "accept:" ++ c.value := by
      unfold inputId
      rw [hmissing]
    exact hid ▸ h.closed n hn _ hd

theorem dependsOn_addAll {nodes : List BackchainNode} (hnodes : (nodes.map (·.id)).Nodup) (h : node ∈ nodes)
    (hnew : node.id ∉ b.ids) (hd : d ∈ node.hard_dependencies) : (b.addAll nodes).DependsOn node.id d := by
  obtain ⟨n', hn', halike⟩ := Builder.stored_mem_addAll hnodes h hnew
  refine ⟨n', hn', halike.id_eq, ?_⟩
  rw [halike.hard_dependencies_eq]
  exact mem_sortedSet.mpr hd

theorem producedNodes_ids {x : ArtifactType}
    (h : node ∈ producedNodes given a producer satisfies domains live inputs upstream) :
    ("accept:" ++ x.value = node.id → x = a) ∧ ("work:" ++ x.value = node.id → x = a) ∧
      ("validate:" ++ x.value = node.id → x = a) := by
  have hkinds : ∀ {t : String}, kindOf node.id = t.toList → (t = "accept" → node.id = "accept:" ++ a.value) →
      (t = "work" → node.id = "work:" ++ a.value) → (t = "validate" → node.id = "validate:" ++ a.value) →
      ("accept:" ++ x.value = node.id → x = a) ∧ ("work:" ++ x.value = node.id → x = a) ∧
        ("validate:" ++ x.value = node.id → x = a) := by
    intro t ht haccept hwork hvalidate
    refine ⟨fun hx => ?_, fun hx => ?_, fun hx => ?_⟩
    · rw [← hx, kindOf_accept] at ht
      exact accept_inj (hx.trans (haccept (String.toList_inj.mp ht.symm)))
    · rw [← hx, kindOf_work] at ht
      exact work_inj (hx.trans (hwork (String.toList_inj.mp ht.symm)))
    · rw [← hx, kindOf_validate] at ht
      exact validate_inj (hx.trans (hvalidate (String.toList_inj.mp ht.symm)))
  rcases mem_producedNodes.mp h with rfl | ⟨-, rfl⟩ | rfl | ⟨kind, -, rfl⟩ | rfl
  · exact hkinds (kindOf_work _) (absurd · (by decide)) (fun _ => rfl) (absurd · (by decide))
  · exact hkinds (kindOf_evidence _) (absurd · (by decide)) (absurd · (by decide)) (absurd · (by decide))
  · exact hkinds (kindOf_validate _) (absurd · (by decide)) (absurd · (by decide)) (fun _ => rfl)
  · exact hkinds (kindOf_decision _) (absurd · (by decide)) (absurd · (by decide)) (absurd · (by decide))
  · exact hkinds (kindOf_accept _) (fun _ => rfl) (absurd · (by decide)) (absurd · (by decide))

theorem producedNodes_deps (h : node ∈ producedNodes given a producer satisfies domains live inputs upstream)
    (hd : d ∈ node.hard_dependencies) :
    d ∈ inputs ∨ d ∈ (producedNodes given a producer satisfies domains live inputs upstream).map (·.id) := by
  have hthere : ∀ m ∈ producedNodes given a producer satisfies domains live inputs upstream, m.id = d →
      d ∈ inputs ∨ d ∈ (producedNodes given a producer satisfies domains live inputs upstream).map (·.id) :=
    fun m hm heq => .inr (heq ▸ List.mem_map_of_mem hm)
  rcases mem_producedNodes.mp h with rfl | ⟨-, rfl⟩ | rfl | ⟨kind, hkind, rfl⟩ | rfl
  · exact .inl hd
  · cases hd
  · have hwork := hthere _ (mem_producedNodes.mpr (.inl rfl))
    change d ∈ validateDeps a producer at hd
    unfold validateDeps at hd
    split at hd
    · rename_i hmin
      rcases List.mem_cons.mp hd with rfl | hd
      · exact hwork rfl
      · rw [List.mem_singleton.mp hd] at hthere ⊢
        exact hthere _ (mem_producedNodes.mpr (.inr (.inl ⟨hmin, rfl⟩))) rfl
    · exact hwork (List.mem_singleton.mp hd).symm
  · exact hthere _ (mem_producedNodes.mpr (.inl rfl)) (List.mem_singleton.mp hd).symm
  · have hvalidate := hthere _ (mem_producedNodes.mpr (.inr (.inr (.inl rfl))))
    change d ∈ acceptDeps a at hd
    unfold acceptDeps at hd
    split at hd
    · rename_i kind hkind
      rcases List.mem_cons.mp hd with rfl | hd
      · exact hvalidate rfl
      · rw [List.mem_singleton.mp hd] at hthere ⊢
        exact hthere _ (mem_producedNodes.mpr (.inr (.inr (.inr (.inl ⟨kind, hkind, rfl⟩))))) rfl
    · exact hvalidate (List.mem_singleton.mp hd).symm

theorem producedNodes_stacked {there : String → Prop} (hinputs : ∀ d ∈ inputs, there d) :
    Builder.Stacked there (producedNodes given a producer satisfies domains live inputs upstream) := by
  have hrest : Builder.Stacked (fun d => there d ∨ d = "work:" ++ a.value)
      (producedNodes given a producer satisfies domains live inputs upstream).tail := by
    unfold producedNodes validateDeps acceptDeps
    by_cases hmin : producer.min_evidence = 0 <;> cases MATERIAL_DECISIONS a <;>
      simp [hmin, Builder.Stacked, evidenceNode, validateNode, decisionNode, acceptNode]
  exact ⟨hinputs, hrest⟩

/-- **Producing an artifact** whose inputs are there adds its nodes and no others. -/
theorem produce_spec (satisfies : String) (domains : List String) (live : Bool) (h : Sound given b) (hmissing : given.existing_artifacts.lookup a.value = none)
    (hproducer : producer_for a = some producer) (hnew : "accept:" ++ a.value ∉ b.ids)
    (hinputs : ∀ d ∈ inputs, d ∈ b.ids) (hall : ∀ c ∈ producer.consumes, inputId given c ∈ inputs) :
    Sound given (produce given a producer satisfies domains live inputs b) ∧
      Extends (· = a) (fun x => obligations_for x domains false live) b
        (produce given a producer satisfies domains live inputs b) := by
  obtain ⟨upstream, heq⟩ : ∃ upstream, produce given a producer satisfies domains live inputs b =
    b.addAll (producedNodes given a producer satisfies domains live inputs upstream) := produce_eq
  rw [heq]
  have hwork : productionNode a producer inputs domains ∈
      producedNodes given a producer satisfies domains live inputs upstream := mem_producedNodes.mpr (.inl rfl)
  have hext : Extends (· = a) (fun x => obligations_for x domains false live) b
      (b.addAll (producedNodes given a producer satisfies domains live inputs upstream)) := by
    refine ⟨⟨fun n hn => Builder.addAll_keeps hn, fun x => ?_⟩, fun n' hn' => ?_⟩
    rotate_left
    · rcases Builder.mem_addAll hn' with hold | ⟨m, hm, hfresh, halike⟩
      · exact .inl hold
      · exact .inr ⟨halike.id_eq ▸ hfresh, (producedNodes_facts hm).alike halike⟩
    · rw [Builder.mem_ids_addAll]
      refine or_congr Iff.rfl ⟨fun hx => ?_, ?_⟩
      · obtain ⟨m, hm, hid⟩ := List.mem_map.mp hx
        exact (producedNodes_ids hm).1 hid.symm
      · rintro rfl
        exact List.mem_map.mpr ⟨_, mem_producedNodes.mpr (.inr (.inr (.inr (.inr rfl)))), rfl⟩
  have haccept := (hext.accepts a).mpr (.inr rfl)
  have hfresh : "work:" ++ a.value ∉ b.ids ∧ "validate:" ++ a.value ∉ b.ids :=
    ⟨fun hid => hnew (h.produced a (.inl hid)), fun hid => hnew (h.produced a (.inr hid))⟩
  refine ⟨⟨Builder.nodup_addAll h.distinct, h.layered.addAll (producedNodes_stacked hinputs), ?_, ?_, ?_⟩, hext⟩
  · intro n' hn' d hd
    rcases Builder.mem_addAll hn' with ⟨n, hn, halike⟩ | ⟨m, hm, -, halike⟩
    · exact hext.ids (h.closed n hn d (halike.hard_dependencies_eq ▸ hd))
    · rw [halike.hard_dependencies_eq] at hd
      rw [Builder.mem_ids_addAll]
      exact (producedNodes_deps hm (mem_sortedSet.mp hd)).imp_left (hinputs d)
  · intro x hx
    have hcases : ("work:" ++ x.value ∈ b.ids ∨ "validate:" ++ x.value ∈ b.ids) ∨ x = a := by
      rw [Builder.mem_ids_addAll, Builder.mem_ids_addAll] at hx
      rcases hx with (hx | hx) | (hx | hx)
      · exact .inl (.inl hx)
      · obtain ⟨m, hm, hid⟩ := List.mem_map.mp hx
        exact .inr ((producedNodes_ids hm).2.1 hid.symm)
      · exact .inl (.inr hx)
      · obtain ⟨m, hm, hid⟩ := List.mem_map.mp hx
        exact .inr ((producedNodes_ids hm).2.2 hid.symm)
    rcases hcases with hold | rfl
    · exact hext.ids (h.produced x hold)
    · exact haccept
  · intro x hx
    rcases (hext.accepts x).mp hx with hold | rfl
    · exact ⟨(h.chain x hold).1, (h.chain x hold).2.extends hext.toKeeps⟩
    · refine ⟨hmissing, ?_, ?_, ?_, ?_⟩
      · refine dependsOn_addAll producedNodes_nodup (mem_producedNodes.mpr (.inr (.inr (.inr (.inr rfl))))) hnew ?_
        show _ ∈ acceptDeps x
        unfold acceptDeps
        split
        · exact List.mem_cons_self
        · exact List.mem_cons_self
      · refine dependsOn_addAll producedNodes_nodup (mem_producedNodes.mpr (.inr (.inr (.inl rfl)))) hfresh.2 ?_
        show _ ∈ validateDeps x producer
        unfold validateDeps
        split
        · exact List.mem_cons_self
        · exact List.mem_cons_self
      · obtain ⟨n', hn', s, d, rfl⟩ := Builder.stored_mem_addAll producedNodes_nodup hwork hfresh.1
        exact ⟨_, hn', rfl, rfl, rfl⟩
      · rintro c ⟨other, hother, hc⟩
        rw [hproducer] at hother
        obtain rfl := Option.some.inj hother
        exact dependsOn_addAll producedNodes_nodup hwork hfresh.1 (hall c hc)

/-! ## Expanding an artifact -/

theorem Demands.root_missing (h : Demands given a x) : given.existing_artifacts.lookup a.value = none := by
  induction h with
  | self h => exact h
  | input _ _ _ ih => exact ih

/-- What one expansion comes to: the node the artifact is there by, and a builder that has it. -/
def Expands (given : Given) (a : ArtifactType) (domains : List String) (live : Bool) (b : Builder)
    (result : Option (String × Builder)) : Prop :=
  ∃ b', result = some (inputId given a, b') ∧ Sound given b' ∧
    Extends (Demands given a) (fun x => obligations_for x domains false live) b b' ∧ inputId given a ∈ b'.ids

theorem inputs_spec {step : ArtifactType → Builder → Option (String × Builder)} {cs : List ArtifactType}
    (hstep : ∀ c ∈ cs, ∀ b, Sound given b → Expands given c domains live b (step c b)) (hb : Sound given b)
    (acc : List String) : ∃ b', cs.foldlM (fun (found : List String × Builder) c =>
        (step c found.2).map fun result => (found.1 ++ [result.1], result.2)) (acc, b) =
          some (acc ++ cs.map (inputId given), b') ∧ Sound given b' ∧
      Extends (fun x => ∃ c ∈ cs, Demands given c x) (fun x => obligations_for x domains false live) b b' ∧
      ∀ c ∈ cs, inputId given c ∈ b'.ids := by
  induction cs generalizing acc b with
  | nil =>
    refine ⟨b, by simp, hb, ?_, by simp⟩
    exact extends_refl.mono (fun x hx => hx.elim) fun x hx _ => by simp at hx
  | cons c cs ih =>
    obtain ⟨b₁, hfirst, hb₁, hext₁, hin₁⟩ := hstep c List.mem_cons_self b hb
    obtain ⟨b₂, hrest, hb₂, hext₂, hin₂⟩ :=
      ih (fun c hc => hstep c (List.mem_cons_of_mem _ hc)) hb₁ (acc ++ [inputId given c])
    refine ⟨b₂, ?_, hb₂, ?_, ?_⟩
    · rw [List.foldlM_cons]
      show ((step c b).map _).bind _ = _
      rw [hfirst]
      show cs.foldlM _ _ = _
      rw [hrest, List.map_cons, List.append_assoc, List.singleton_append]
    · apply (hext₁.trans hext₂).mono
      · rintro x (hx | ⟨d, hd, hx⟩)
        · exact ⟨c, List.mem_cons_self, hx⟩
        · exact ⟨d, List.mem_cons_of_mem _ hd, hx⟩
      · rintro x ⟨d, hd, hx⟩ hno
        rcases List.mem_cons.mp hd with rfl | hd
        · exact absurd (.inl hx) hno
        · exact absurd (.inr ⟨d, hd, hx⟩) hno
    · intro d hd
      rcases List.mem_cons.mp hd with rfl | hd
      · exact hext₂.ids hin₁
      · exact hin₂ d hd

theorem mem_inputsOf : c ∈ inputsOf producer ↔ c ∈ producer.consumes := List.mem_insertionSort _

/-- **Expanding an artifact** adds the nodes of what it demands and no others. It never runs into itself. -/
theorem accepted_spec {depth : Nat} {expanding : List ArtifactType} (hb : Sound given b) (hdepth : rank a < depth)
    (hexpanding : ∀ e ∈ expanding, rank a < rank e) :
    Expands given a domains live b (accepted given depth expanding a satisfies domains live b) := by
  induction depth generalizing expanding a satisfies b with
  | zero => exact absurd hdepth (Nat.not_lt_zero _)
  | succ depth ih =>
    unfold accepted
    cases hlookup : given.existing_artifacts.lookup a.value with
    | some content_hash =>
      have hid : inputId given a = "ref:" ++ a.value := by
        unfold inputId
        rw [hlookup]
      have hkind : kindOf (refNode a content_hash satisfies domains).id = "ref".toList := kindOf_ref _
      have hext : Extends (fun _ => False) (fun x => obligations_for x domains false live) b
          (b.add (refNode a content_hash satisfies domains)) := by
        apply extends_add
        · apply nodeFacts_plain NodeType.noConfusion (fun _ => Resolution.noConfusion) rfl
          have hstored : kindOf (Builder.stored (refNode a content_hash satisfies domains)).id = "ref".toList := hkind
          rw [hstored]
          decide
        · rw [hkind]
          decide
      refine ⟨_, by rw [hid], hb.add hext.toKeeps (fun d hd => by cases hd) (.inl (by rw [hkind]; decide)), ?_, ?_⟩
      · apply hext.mono (fun x hx => hx.elim)
        intro x hx
        rw [hx.root_missing] at hlookup
        cases hlookup
      · rw [hid]
        exact Builder.mem_ids_add.mpr (.inr rfl)
    | none =>
      have hid : inputId given a = "accept:" ++ a.value := by
        unfold inputId
        rw [hlookup]
      obtain ⟨producer, hproducer⟩ := Option.isSome_iff_exists.mp (producer_isSome a)
      rw [hproducer]
      dsimp only
      split
      · rename_i hthere
        have hext : Extends (fun _ => False) (fun x => obligations_for x domains false live) b
            (b.add (acceptNode a producer satisfies [] domains)) := extends_add_again hthere
        refine ⟨_, by rw [hid], hb.add hext.toKeeps (fun d hd => by cases hd) (.inr hthere), ?_, ?_⟩
        · exact hext.mono (fun x hx => hx.elim) fun x hx _ => hb.demanded hthere hx
        · rw [hid]
          exact hext.ids hthere
      · rename_i hnew
        have hself : a ∉ expanding := fun hmem => absurd (hexpanding a hmem) (lt_irrefl _)
        rw [if_neg hself]
        have hconsumes : ∀ c ∈ inputsOf producer, rank c < rank a := fun c hc =>
          rank_lt ⟨producer, hproducer, mem_inputsOf.mp hc⟩
        have hstep : ∀ c ∈ inputsOf producer, ∀ b, Sound given b → Expands given c domains live b
            (accepted given depth (a :: expanding) c ("work:" ++ a.value) domains live b) := by
          intro c hc b hb
          have hlt := hconsumes c hc
          apply ih hb (by omega)
          intro e he
          rcases List.mem_cons.mp he with rfl | he
          · exact hlt
          · exact hlt.trans (hexpanding e he)
        obtain ⟨b₁, hinputs, hb₁, hext₁, hin₁⟩ := inputs_spec hstep hb []
        -- the inputs are not made from the artifact, so it is still to be produced
        have hstill : "accept:" ++ a.value ∉ b₁.ids := by
          rw [hext₁.accepts]
          rintro (hthere | ⟨c, hc, hx⟩)
          · exact hnew hthere
          · have := hx.rank_le
            have := hconsumes c hc
            omega
        have hthere : ∀ d ∈ (inputsOf producer).map (inputId given), d ∈ b₁.ids := by
          intro d hd
          obtain ⟨c, hc, rfl⟩ := List.mem_map.mp hd
          exact hin₁ c hc
        obtain ⟨hsound, hproduced⟩ := produce_spec satisfies domains live hb₁ hlookup hproducer hstill hthere
          fun c hc => List.mem_map_of_mem (mem_inputsOf.mpr hc)
        refine ⟨_, ?_, hsound, ?_, ?_⟩
        · show Option.bind (List.foldlM _ _ _) _ = _
          rw [hinputs, hid]
          rfl
        · apply (hext₁.trans hproduced).mono
          · rintro x (⟨c, hc, hx⟩ | rfl)
            · exact (demands_iff hlookup).mpr (.inr ⟨c, ⟨producer, hproducer, mem_inputsOf.mp hc⟩, hx⟩)
            · exact .self hlookup
          · intro x hx hno
            rcases (demands_iff hlookup).mp hx with rfl | ⟨c, ⟨other, hother, hc⟩, hx⟩
            · exact absurd (.inr rfl) hno
            · rw [hproducer] at hother
              obtain rfl := Option.some.inj hother
              exact absurd (.inl ⟨c, mem_inputsOf.mpr hc, hx⟩) hno
        · rw [hid]
          exact (hproduced.accepts a).mpr (.inr rfl)

end

end Compiled
