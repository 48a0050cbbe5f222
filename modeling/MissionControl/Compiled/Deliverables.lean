import MissionControl.Compiled.Expansion

/-! # Expanding deliverables

The deliverables are expanded one after another into one builder. After each of them the nodes fit together, the accepted
artifacts are those some deliverable so far needs, and the validation of an artifact has the obligations of the first
deliverable that needs it (`BuiltFor`). -/

namespace Compiled

open Python (sorted mem_sortedSet)

/-! ## What a deliverable needs -/

/-- What the node of a deliverable is made from: its output, and the release record before a consequential launch. -/
def wanted (spec : DeliverableSpec) : List ArtifactType :=
  (ArtifactType.of spec.output_contract).toList ++
    match spec.external_action with
    | some action => if action ∈ SPEND_ACTIONS then [] else [.release_record]
    | none => []

/-- A deliverable needs an artifact that does not exist, through inputs that do not exist. -/
def Needs (given : Given) (spec : DeliverableSpec) (x : ArtifactType) : Prop := ∃ a ∈ wanted spec, Demands given a x

/-- The obligations the validation of an artifact has when it is expanded for a deliverable. -/
def obligedBy (spec : DeliverableSpec) (x : ArtifactType) : List String :=
  obligations_for x (sorted spec.domains) false spec.live_service

variable {given : Given} {spec s : DeliverableSpec} {specs : List DeliverableSpec} {b b' : Builder} {a x : ArtifactType}

theorem accepted_full (a : ArtifactType) (satisfies : String) (domains : List String) (live : Bool) (hb : Sound given b) :
    Expands given a domains live b (accepted given fullDepth [] a satisfies domains live b) :=
  accepted_spec hb (rank_lt_fullDepth a) (by simp)

theorem blocker_extends {code subject satisfies : String} {obliged : ArtifactType → List String} :
    Extends (fun _ => False) obliged b (b.add (blockerNode code subject satisfies)) := by
  have hkind : kindOf (blockerNode code subject satisfies).id = "blocker".toList := by
    show kindOf ("blocker:" ++ code ++ ":" ++ subject) = _
    rw [String.append_assoc, String.append_assoc]
    exact kindOf_blocker _
  apply extends_add
  · apply nodeFacts_plain NodeType.noConfusion (fun _ => Resolution.noConfusion) rfl
    have hstored : kindOf (Builder.stored (blockerNode code subject satisfies)).id = "blocker".toList := hkind
    rw [hstored]
    decide
  · rw [hkind]
    decide

theorem outputNode_spec (spec : DeliverableSpec) (hb : Sound given b) : ∃ dep b',
    outputNode given spec (sorted spec.domains) b = some (dep, b') ∧ Sound given b' ∧
    Extends (fun x => ∃ a, ArtifactType.of spec.output_contract = some a ∧ Demands given a x) (obligedBy spec) b b' ∧
    dep ∈ b'.ids ∧ ∀ a, ArtifactType.of spec.output_contract = some a → dep = inputId given a := by
  unfold outputNode
  cases hof : ArtifactType.of spec.output_contract with
  | none =>
    have hext : Extends (fun _ => False) (obligedBy spec) b
        (b.add (blockerNode "ARTIFACT_TYPE_UNMODELED" spec.output_contract (rootId spec))) := blocker_extends
    have hkind : ∀ text, kindOf ("blocker:ARTIFACT_TYPE_UNMODELED:" ++ text) = "blocker".toList := by simp [kindOf]
    have hid : (blockerNode "ARTIFACT_TYPE_UNMODELED" spec.output_contract (rootId spec)).id =
        "blocker:ARTIFACT_TYPE_UNMODELED:" ++ spec.output_contract := rfl
    refine ⟨_, _, rfl, ?_, ?_, ?_, by simp⟩
    · apply hb.add hext.toKeeps (fun d hd => by cases hd)
      rw [hid, hkind]
      exact .inl (by decide)
    · exact hext.mono (fun x hx => hx.elim) fun x hx _ => by simp at hx
    · rw [Builder.mem_ids_add, hid]
      exact .inr rfl
  | some a =>
    obtain ⟨b', heq, hb', hext, hin⟩ :=
      accepted_full a (rootId spec) (sorted spec.domains) spec.live_service hb
    refine ⟨_, b', heq, hb', ?_, hin, fun a' ha' => by rw [Option.some.inj ha']⟩
    apply hext.mono (fun x hx => ⟨a, rfl, hx⟩)
    rintro x ⟨a', ha', hx⟩ hno
    exact absurd (Option.some.inj ha' ▸ hx) hno

/-- The nodes of a deliverable itself, on top of what it is made from. -/
def topped (spec : DeliverableSpec) (deps : List String) (b : Builder) : Builder :=
  match spec.external_action with
  | none => b.add (rootNode spec deps (sorted spec.domains))
  | some action =>
    (b.add (externalNode spec action deps (sorted spec.domains))).add
      (rootNode spec [externalId spec action] (sorted spec.domains))

/-- **A deliverable is expanded** into what it needs, and topped with its own nodes. -/
theorem deliverable_spec (spec : DeliverableSpec) (hb : Sound given b) : ∃ b' deps,
    deliverable given spec b = some (topped spec deps b') ∧ Sound given b' ∧
      Extends (Needs given spec) (obligedBy spec) b b' ∧ deps ≠ [] ∧ (∀ d ∈ deps, d ∈ b'.ids) ∧
      ∀ a ∈ wanted spec, inputId given a ∈ deps := by
  obtain ⟨dep, b₁, houtput, hb₁, hext₁, hin₁, hdep⟩ := outputNode_spec spec hb
  have hneeds : ∀ x, (∃ a, ArtifactType.of spec.output_contract = some a ∧ Demands given a x) → Needs given spec x := by
    rintro x ⟨a, ha, hx⟩
    exact ⟨a, List.mem_append_left _ (by simp [ha]), hx⟩
  unfold deliverable topped
  cases haction : spec.external_action with
  | none =>
    have hwanted : wanted spec = (ArtifactType.of spec.output_contract).toList := by
      unfold wanted
      rw [haction, List.append_nil]
    refine ⟨b₁, [dep], ?_, hb₁, ?_, by simp, by simpa using hin₁, ?_⟩
    · show Option.bind (outputNode given spec (sorted spec.domains) b) _ = _
      rw [houtput]
      rfl
    · refine hext₁.mono hneeds fun x ⟨a, ha, hx⟩ hno => ?_
      rw [hwanted, Option.mem_toList] at ha
      exact absurd ⟨a, ha, hx⟩ hno
    · intro a ha
      rw [hwanted, Option.mem_toList] at ha
      rw [hdep a ha]
      exact List.mem_cons_self
  | some action =>
    by_cases hspend : action ∈ SPEND_ACTIONS
    · have hwanted : wanted spec = (ArtifactType.of spec.output_contract).toList := by
        unfold wanted
        simp only [haction, hspend, if_true, List.append_nil]
      refine ⟨b₁, [dep], ?_, hb₁, ?_, by simp, by simpa using hin₁, ?_⟩
      · show Option.bind (outputNode given spec (sorted spec.domains) b) _ = _
        rw [houtput]
        show Option.bind (external_node given spec action dep (sorted spec.domains) b₁) _ = _
        unfold external_node
        rw [if_pos hspend]
        rfl
      · refine hext₁.mono hneeds fun x ⟨a, ha, hx⟩ hno => ?_
        rw [hwanted, Option.mem_toList] at ha
        exact absurd ⟨a, ha, hx⟩ hno
      · intro a ha
        rw [hwanted, Option.mem_toList] at ha
        rw [hdep a ha]
        exact List.mem_cons_self
    · have hwanted : wanted spec = (ArtifactType.of spec.output_contract).toList ++ [.release_record] := by
        unfold wanted
        simp only [haction, hspend, if_false]
      obtain ⟨b₂, hrelease, hb₂, hext₂, hin₂⟩ :=
        accepted_full .release_record (externalId spec action) (sorted spec.domains) spec.live_service hb₁
      refine ⟨b₂, [dep, inputId given .release_record], ?_, hb₂, ?_, by simp, ?_, ?_⟩
      · show Option.bind (outputNode given spec (sorted spec.domains) b) _ = _
        rw [houtput]
        show Option.bind (external_node given spec action dep (sorted spec.domains) b₁) _ = _
        unfold external_node
        rw [if_neg hspend, hrelease]
        rfl
      · apply (hext₁.trans hext₂).mono
        · rintro x (hx | hx)
          · exact hneeds x hx
          · exact ⟨.release_record, by rw [hwanted]; exact List.mem_append_right _ List.mem_cons_self, hx⟩
        · rintro x ⟨a, ha, hx⟩ hno
          rw [hwanted, List.mem_append, Option.mem_toList, List.mem_singleton] at ha
          rcases ha with ha | rfl
          · exact absurd (.inl ⟨a, ha, hx⟩) hno
          · exact absurd (.inr hx) hno
      · intro d hd
        rcases List.mem_cons.mp hd with rfl | hd
        · exact hext₂.ids hin₁
        · rw [List.mem_singleton.mp hd]
          exact hin₂
      · intro a ha
        rw [hwanted, List.mem_append, Option.mem_toList, List.mem_singleton] at ha
        rcases ha with ha | rfl
        · rw [hdep a ha]
          exact List.mem_cons_self
        · exact List.mem_cons_of_mem _ List.mem_cons_self

/-! ## All deliverables -/

/-- The nodes of a deliverable depend on what it is made from, through the external action if it has one. -/
structure Rooted (given : Given) (b : Builder) (spec : DeliverableSpec) : Prop where
  there : rootId spec ∈ b.ids
  made : ∀ a ∈ wanted spec, spec.external_action = none → b.DependsOn (rootId spec) (inputId given a)
  acts : ∀ action, spec.external_action = some action →
    b.DependsOn (rootId spec) (externalId spec action) ∧
    (∀ a ∈ wanted spec, b.DependsOn (externalId spec action) (inputId given a)) ∧
    ∃ n ∈ b.nodes, n.id = externalId spec action ∧
      n.validation_obligations = obligations_for .release_record (sorted spec.domains) true spec.live_service

theorem Rooted.keeps {made : ArtifactType → Prop} (h : Rooted given b spec) (hkeeps : Keeps made b b') :
    Rooted given b' spec where
  there := hkeeps.ids h.there
  made a ha hnone := hkeeps.dependsOn (h.made a ha hnone)
  acts action haction := by
    obtain ⟨hroot, hmade, n, hn, hid, hobligations⟩ := h.acts action haction
    obtain ⟨n', hn', s, d, rfl⟩ := hkeeps.kept n hn
    exact ⟨hkeeps.dependsOn hroot, fun a ha => hkeeps.dependsOn (hmade a ha), _, hn', hid, hobligations⟩

/-- The first of the deliverables that needs an artifact. -/
def FirstNeeding (given : Given) (specs : List DeliverableSpec) (x : ArtifactType) (s : DeliverableSpec) : Prop :=
  ∃ before after, specs = before ++ s :: after ∧ Needs given s x ∧ ∀ t ∈ before, ¬ Needs given t x

/-- What is known of a node after some deliverables. -/
structure KnownNode (given : Given) (specs : List DeliverableSpec) (n : BackchainNode) : Prop where
  work : n.type = .EXECUTABLE_WORK → ∃ x : ArtifactType, n.id = "work:" ++ x.value ∧ n.artifact_type = some x.value
  leaf : n.hard_dependencies = [] → n.resolution ≠ .DERIVED
  obligations : ∀ x : ArtifactType, n.id = "validate:" ++ x.value →
    ∃ s, FirstNeeding given specs x s ∧ n.validation_obligations = obligedBy s x
  carries : n.validation_obligations ≠ [] → (∃ x : ArtifactType, n.id = "validate:" ++ x.value) ∨
    ∃ s ∈ specs, ∃ action, s.external_action = some action ∧ n.id = externalId s action
  outer : (kindOf n.id = "deliverable".toList → ∃ s ∈ specs, n.id = rootId s) ∧
    (kindOf n.id = "external".toList → ∃ s ∈ specs, ∃ action, s.external_action = some action ∧ n.id = externalId s action)

/-- The builder after some deliverables. -/
structure BuiltFor (given : Given) (specs : List DeliverableSpec) (b : Builder) : Prop where
  sound : Sound given b
  accepts : ∀ x : ArtifactType, "accept:" ++ x.value ∈ b.ids ↔ ∃ s ∈ specs, Needs given s x
  known : ∀ n ∈ b.nodes, KnownNode given specs n
  rooted : ∀ s ∈ specs, Rooted given b s

theorem builtFor_nil : BuiltFor given [] {} where
  sound := ⟨List.nodup_nil, fun before n after h => by simp at h, by simp, by simp [Builder.ids], by simp [Builder.ids]⟩
  accepts x := by simp [Builder.ids]
  known n hn := by cases hn
  rooted s hs := by cases hs

/-! ## One more deliverable -/

theorem kindOf_root : kindOf (rootId spec) = "deliverable".toList := by simp [kindOf, rootId]

variable {action : ExternalAction}

theorem kindOf_external : kindOf (externalId spec action) = "external".toList := by
  simp [kindOf, externalId]

theorem rootId_inj (h : rootId s = rootId spec) : s.id = spec.id := (String.append_right_inj _).mp h

theorem externalId_inj {action' : ExternalAction} (h : externalId s action = externalId spec action') :
    s.id = spec.id := by
  have hplain : ∀ action : ExternalAction, ∀ c ∈ action.value.toList, (c != ':') = true := by
    intro action
    cases action <;> simp [ExternalAction.value]
  have hid : ∀ (action : ExternalAction) (id : String), (action.value ++ (":" ++ id)).toList.dropWhile (· != ':') =
      ':' :: id.toList := by
    intro action id
    rw [String.toList_append, List.dropWhile_append_of_pos (hplain action)]
    simp
  unfold externalId at h
  rw [String.append_assoc, String.append_assoc, String.append_assoc, String.append_assoc,
    String.append_right_inj] at h
  have hrest := hid action s.id
  rw [h, hid action' spec.id] at hrest
  exact String.toList_inj.mp (List.cons.inj hrest).2.symm

variable {n n' : BackchainNode}

theorem KnownNode.alike (h : KnownNode given specs n) (halike : Alike n' n) : KnownNode given specs n' := by
  obtain ⟨s, d, rfl⟩ := halike
  exact ⟨h.work, h.leaf, h.obligations, h.carries, h.outer⟩

theorem FirstNeeding.snoc (h : FirstNeeding given specs x s) : FirstNeeding given (specs ++ [spec]) x s := by
  obtain ⟨before, after, rfl, hneeds, hfirst⟩ := h
  exact ⟨before, after ++ [spec], by simp, hneeds, hfirst⟩

theorem KnownNode.snoc (h : KnownNode given specs n) : KnownNode given (specs ++ [spec]) n where
  work := h.work
  leaf := h.leaf
  obligations x hx := by
    obtain ⟨s, hs, hobligations⟩ := h.obligations x hx
    exact ⟨s, hs.snoc, hobligations⟩
  carries hne := (h.carries hne).imp_right fun ⟨s, hs, hrest⟩ => ⟨s, List.mem_append_left _ hs, hrest⟩
  outer := ⟨fun hkind => by
      obtain ⟨s, hs, hid⟩ := h.outer.1 hkind
      exact ⟨s, List.mem_append_left _ hs, hid⟩, fun hkind => by
      obtain ⟨s, hs, hrest⟩ := h.outer.2 hkind
      exact ⟨s, List.mem_append_left _ hs, hrest⟩⟩

theorem BuiltFor.fresh_known (h : BuiltFor given specs b) (hfacts : NodeFacts (Needs given spec) (obligedBy spec) n)
    (hnew : n.id ∉ b.ids) : KnownNode given (specs ++ [spec]) n where
  work htype := by
    obtain ⟨x, -, hid, hartifact⟩ := hfacts.work htype
    exact ⟨x, hid, hartifact⟩
  leaf := hfacts.leaf
  obligations x hx := by
    obtain ⟨hneeds, hobligations⟩ := hfacts.obligations x hx
    refine ⟨spec, ⟨specs, [], rfl, hneeds, fun t ht htx => hnew ?_⟩, hobligations⟩
    -- the artifact is accepted already, so its validation was there
    obtain ⟨-, hchain⟩ := h.sound.chain x ((h.accepts x).mpr ⟨t, ht, htx⟩)
    obtain ⟨m, hm, hid, hd⟩ := hchain.validated
    rw [hx]
    exact h.sound.closed m hm _ hd
  carries hne := .inl (hfacts.carries hne)
  outer := ⟨fun hkind => absurd hkind hfacts.inner.1, fun hkind => absurd hkind hfacts.inner.2⟩

variable {deps : List String}

theorem external_obligations {domains : List String} :
    (Builder.stored (externalNode spec action deps domains)).validation_obligations =
      obligations_for .release_record domains true spec.live_service := by
  dsimp only [Builder.stored, externalNode]

theorem external_known (haction : spec.external_action = some action) :
    KnownNode given (specs ++ [spec]) (Builder.stored (externalNode spec action deps (sorted spec.domains))) where
  work := NodeType.noConfusion
  leaf _ := Resolution.noConfusion
  obligations x hx := absurd hx (not_validate (by
    have hkind : kindOf (externalId spec action) ≠ "validate".toList := by
      rw [kindOf_external]
      decide
    exact hkind) x)
  carries _ := .inr ⟨spec, List.mem_append_right _ List.mem_cons_self, action, haction, rfl⟩
  outer := ⟨fun hkind => by
      have hkind' : kindOf (externalId spec action) = "deliverable".toList := hkind
      rw [kindOf_external] at hkind'
      exact absurd hkind' (by decide),
    fun _ => ⟨spec, List.mem_append_right _ List.mem_cons_self, action, haction, rfl⟩⟩

theorem root_known (hdeps : deps ≠ []) :
    KnownNode given (specs ++ [spec]) (Builder.stored (rootNode spec deps (sorted spec.domains))) where
  work := NodeType.noConfusion
  leaf hnone := absurd (Python.sortedSet_eq_nil.mp hnone) hdeps
  obligations x hx := absurd hx (not_validate (by
    have hkind : kindOf (rootId spec) ≠ "validate".toList := by
      rw [kindOf_root]
      decide
    exact hkind) x)
  carries hne := absurd rfl hne
  outer := ⟨fun _ => ⟨spec, List.mem_append_right _ List.mem_cons_self, rfl⟩, fun hkind => by
      have hkind' : kindOf (rootId spec) = "external".toList := hkind
      rw [kindOf_root] at hkind'
      exact absurd hkind' (by decide)⟩

theorem BuiltFor.extends_known (h : BuiltFor given specs b) (hext : Extends (Needs given spec) (obligedBy spec) b b')
    (hn : n ∈ b'.nodes) : KnownNode given (specs ++ [spec]) n := by
  rcases hext.fresh n hn with ⟨old, hold, halike⟩ | ⟨hnew, hfacts⟩
  · exact (h.known old hold).snoc.alike halike
  · exact h.fresh_known hfacts hnew

theorem BuiltFor.untopped (h : BuiltFor given specs b) (hext : Extends (Needs given spec) (obligedBy spec) b b')
    (hid : spec.id ∉ specs.map (·.id)) : rootId spec ∉ b'.ids ∧ ∀ action, externalId spec action ∉ b'.ids := by
  have hother : ∀ s ∈ specs, s.id ≠ spec.id := fun s hs heq => hid (heq ▸ List.mem_map_of_mem hs)
  constructor
  · intro hin
    obtain ⟨n, hn, hnid⟩ := Builder.mem_ids.mp hin
    have hkind : kindOf n.id = "deliverable".toList := hnid ▸ kindOf_root
    rcases hext.fresh n hn with ⟨old, hold, halike⟩ | ⟨-, hfacts⟩
    · obtain ⟨s, hs, hsid⟩ := ((h.known old hold).alike halike).outer.1 hkind
      exact hother s hs (rootId_inj (hsid.symm.trans hnid))
    · exact hfacts.inner.1 hkind
  · intro action hin
    obtain ⟨n, hn, hnid⟩ := Builder.mem_ids.mp hin
    have hkind : kindOf n.id = "external".toList := hnid ▸ kindOf_external
    rcases hext.fresh n hn with ⟨old, hold, halike⟩ | ⟨-, hfacts⟩
    · obtain ⟨s, hs, action', -, hsid⟩ := ((h.known old hold).alike halike).outer.2 hkind
      exact hother s hs (externalId_inj (hsid.symm.trans hnid))
    · exact hfacts.inner.2 hkind

theorem dependsOn_add {node : BackchainNode} (hnew : node.id ∉ b.ids) {d : String} (hd : d ∈ node.hard_dependencies) :
    (b.add node).DependsOn node.id d :=
  ⟨_, Builder.stored_mem_add hnew, rfl, mem_sortedSet.mpr hd⟩

/-- **Topping a deliverable** keeps what is there, and roots what the deliverable is made from. -/
theorem topped_spec (specs : List DeliverableSpec) (hb : Sound given b) (hroot : rootId spec ∉ b.ids)
    (hexternal : ∀ action, externalId spec action ∉ b.ids) (hdeps : deps ≠ []) (hin : ∀ d ∈ deps, d ∈ b.ids)
    (hwanted : ∀ a ∈ wanted spec, inputId given a ∈ deps) :
    Sound given (topped spec deps b) ∧ Keeps (fun _ => False) b (topped spec deps b) ∧
      Rooted given (topped spec deps b) spec ∧
      ∀ n ∈ (topped spec deps b).nodes, (∃ m ∈ b.nodes, Alike n m) ∨ KnownNode given (specs ++ [spec]) n := by
  have hkeepsRoot : ∀ (b : Builder) (ds : List String), Keeps (fun _ => False) b
      (b.add (rootNode spec ds (sorted spec.domains))) := by
    intro b ds
    apply keeps_add
    show kindOf (rootId spec) ≠ _
    rw [kindOf_root]
    decide
  have hsoundRoot : ∀ (b : Builder) (ds : List String), Sound given b → (∀ d ∈ ds, d ∈ b.ids) →
      Sound given (b.add (rootNode spec ds (sorted spec.domains))) := by
    intro b ds hb hds
    apply hb.add (hkeepsRoot b ds) hds
    show kindOf (rootId spec) ≠ _ ∧ kindOf (rootId spec) ≠ _ ∨ _
    rw [kindOf_root]
    exact .inl (by decide)
  unfold topped
  cases haction : spec.external_action with
  | none =>
    refine ⟨hsoundRoot b deps hb hin, hkeepsRoot b deps, ⟨?_, ?_, ?_⟩, ?_⟩
    · exact Builder.mem_ids_add.mpr (.inr rfl)
    · intro a ha _
      exact dependsOn_add hroot (hwanted a ha)
    · intro action hsome
      rw [haction] at hsome
      cases hsome
    · intro n hn
      exact (Builder.mem_add hn).imp_right fun ⟨_, heq⟩ => heq ▸ root_known hdeps
  | some action =>
    have hkeeps : Keeps (fun _ => False) b (b.add (externalNode spec action deps (sorted spec.domains))) := by
      apply keeps_add
      show kindOf (externalId spec action) ≠ _
      rw [kindOf_external]
      decide
    have hsound : Sound given (b.add (externalNode spec action deps (sorted spec.domains))) := by
      apply hb.add hkeeps hin
      show kindOf (externalId spec action) ≠ _ ∧ kindOf (externalId spec action) ≠ _ ∨ _
      rw [kindOf_external]
      exact .inl (by decide)
    have hthere : externalId spec action ∈ (b.add (externalNode spec action deps (sorted spec.domains))).ids :=
      Builder.mem_ids_add.mpr (.inr rfl)
    have hstill : rootId spec ∉ (b.add (externalNode spec action deps (sorted spec.domains))).ids := by
      rw [Builder.mem_ids_add, not_or]
      refine ⟨hroot, ne_of_kindOf ?_⟩
      show kindOf (rootId spec) ≠ kindOf (externalId spec action)
      rw [kindOf_root, kindOf_external]
      decide
    have hlast := hkeepsRoot (b.add (externalNode spec action deps (sorted spec.domains))) [externalId spec action]
    refine ⟨hsoundRoot _ _ hsound (by simpa using hthere), ?_, ⟨?_, ?_, ?_⟩, ?_⟩
    · exact (hkeeps.trans hlast).mono (fun x hx => hx.elim (fun h => h) fun h => h) fun x hx => hx.elim
    · exact Builder.mem_ids_add.mpr (.inr rfl)
    · intro a _ hnone
      rw [haction] at hnone
      cases hnone
    · intro other hsome
      rw [haction] at hsome
      obtain rfl := Option.some.inj hsome
      refine ⟨dependsOn_add hstill List.mem_cons_self, fun a ha => ?_, ?_⟩
      · exact hlast.dependsOn (dependsOn_add (hexternal action) (hwanted a ha))
      · obtain ⟨n, hn, halike⟩ := hlast.kept _ (Builder.stored_mem_add (hexternal action))
        exact ⟨n, hn, halike.id_eq, halike.obligations_eq.trans external_obligations⟩
    · intro n hn
      rcases Builder.mem_add hn with ⟨m, hm, halike⟩ | ⟨-, rfl⟩
      · rcases Builder.mem_add hm with ⟨m', hm', halike'⟩ | ⟨-, rfl⟩
        · exact .inl ⟨m', hm', halike.trans halike'⟩
        · exact .inr ((external_known haction).alike halike)
      · exact .inr (root_known (by simp))

/-- **One more deliverable.** -/
theorem BuiltFor.snoc (h : BuiltFor given specs b) (hid : spec.id ∉ specs.map (·.id)) :
    ∃ b', deliverable given spec b = some b' ∧ BuiltFor given (specs ++ [spec]) b' := by
  obtain ⟨b₁, deps, heq, hb₁, hext, hdeps, hin, hwanted⟩ := deliverable_spec spec h.sound
  obtain ⟨hroot, hexternal⟩ := h.untopped hext hid
  obtain ⟨hsound, hkeeps, hrooted, hnodes⟩ := topped_spec specs hb₁ hroot hexternal hdeps hin hwanted
  refine ⟨_, heq, hsound, ?_, ?_, ?_⟩
  · intro x
    rw [hkeeps.accepts, or_false, hext.accepts, h.accepts]
    simp [or_and_right, exists_or]
  · intro n hn
    rcases hnodes n hn with ⟨m, hm, halike⟩ | hknown
    · exact (h.extends_known hext hm).alike halike
    · exact hknown
  · intro s hs
    rcases List.mem_append.mp hs with hs | hs
    · exact ((h.rooted s hs).keeps hext.toKeeps).keeps hkeeps
    · rw [List.mem_singleton.mp hs]
      exact hrooted

/-- **All deliverables** can be expanded, whatever is given. -/
theorem expand_spec (given : Given) (hids : (specs.map (·.id)).Nodup) :
    ∃ b, expand given specs = some b ∧ BuiltFor given specs b := by
  have hrun : ∀ (done todo : List DeliverableSpec) (b : Builder), ((done ++ todo).map (·.id)).Nodup →
      BuiltFor given done b → ∃ b', todo.foldlM (fun b spec => deliverable given spec b) b = some b' ∧
        BuiltFor given (done ++ todo) b' := by
    intro done todo
    induction todo generalizing done with
    | nil =>
      intro b _ hb
      exact ⟨b, rfl, by rwa [List.append_nil]⟩
    | cons spec todo ih =>
      intro b hnodup hb
      have hnew : spec.id ∉ done.map (·.id) := by
        rw [List.map_append, List.nodup_append] at hnodup
        exact fun hin => hnodup.2.2 _ hin _ (by simp) rfl
      obtain ⟨b₁, hfirst, hb₁⟩ := hb.snoc hnew
      have hsplit : done ++ spec :: todo = done ++ [spec] ++ todo := by simp
      rw [hsplit] at hnodup ⊢
      obtain ⟨b₂, hrest, hb₂⟩ := ih (done ++ [spec]) b₁ hnodup hb₁
      refine ⟨b₂, ?_, hb₂⟩
      rw [List.foldlM_cons]
      show Option.bind (deliverable given spec b) _ = _
      rw [hfirst]
      exact hrest
  exact hrun [] specs {} hids builtFor_nil

end Compiled
