import MissionControl.Compiled.Minimality

/-! # Shared nodes

A node is shared by all deliverables that lead to it, and has the obligations of the first that needed it. Adding
deliverables so keeps the obligations of another exactly when whoever comes first is under the same profiles
(`obligations_kept_iff`). -/

namespace Compiled

open Python (sorted mem_sortedSet mem_sorted)
open Relation (ReflTransGen TransGen)
open Relational

/-! ## Obligations that depend on the deliverable -/

/-- The obligations of an artifact that do not depend on domains. -/
def fixedObligations (a : ArtifactType) : List String :=
  BASE_OBLIGATIONS.map (·.value) ++
  (match ROLE_REGISTRY.find? (a ∈ ·.produces) with
    | some producer => if producer.min_evidence ≠ 0 then ["EVIDENCE_FLOOR:" ++ toString producer.min_evidence] else []
    | none => [])

variable {a : ArtifactType} {domains domains' : List String} {live live' : Bool} {o : String}

theorem mem_obligations_iff : o ∈ obligations_for a domains false live ↔ o ∈ fixedObligations a ∨
    ∃ profile ∈ VALIDATION_PROFILES, profile.applies a domains live = true ∧ "PROFILE:" ++ profile.profile_id = o := by
  rw [mem_obligations_for]
  unfold obligationItems fixedObligations applicable_profiles
  simp only [Bool.false_eq_true, if_false, List.append_nil, List.mem_append, exists_or, List.mem_map, List.mem_filter,
    Prod.mk.injEq]
  refine or_congr (or_congr ?_ ?_) ?_
  · constructor
    · rintro ⟨stage, s, hs, -, rfl⟩
      exact ⟨s, hs, rfl⟩
    · rintro ⟨s, hs, rfl⟩
      exact ⟨s.order, s, hs, rfl, rfl⟩
  · cases ROLE_REGISTRY.find? (a ∈ ·.produces) with
    | none => simp
    | some producer =>
      dsimp only
      split <;> simp
  · constructor
    · rintro ⟨stage, profile, ⟨hprofile, happlies⟩, -, heq⟩
      exact ⟨profile, hprofile, happlies, heq⟩
    · rintro ⟨profile, hprofile, happlies, heq⟩
      exact ⟨profile.stage.order, profile, ⟨hprofile, happlies⟩, rfl, heq⟩

/-- What a deliverable brings an artifact under, another brings it under too: the profiles that look at the domains and at
    the live service. -/
structure ProfilesCovered (a : ArtifactType) (domains : List String) (live : Bool) (domains' : List String)
    (live' : Bool) : Prop where
  app_store : a ∈ [ArtifactType.app_build_spec, .release_record] → "MOBILE_APP" ∈ domains → "MOBILE_APP" ∈ domains'
  video_rights : a ∈ [ArtifactType.asset_prompt_set, .campaign_package, .release_record] →
    (∃ d ∈ domains, d ∈ _MEDIA_DOMAINS) → ∃ d ∈ domains', d ∈ _MEDIA_DOMAINS
  live_operation : a ∈ [ArtifactType.release_record, .app_build_spec] → live = true → live' = true

theorem profile_not_fixed (text : String) : "PROFILE:" ++ text ∉ fixedObligations a := by
  have hhead : ("PROFILE:" ++ text).toList.take 5 = "PROFI".toList := by simp
  intro h
  unfold fixedObligations at h
  rcases List.mem_append.mp h with h | h
  · obtain ⟨stage, hstage, heq⟩ := List.mem_map.mp h
    have hbase : ∀ stage ∈ BASE_OBLIGATIONS, stage.value.toList.take 5 ≠ "PROFI".toList := by decide
    exact hbase stage hstage (heq ▸ hhead)
  · have hfloor : ∀ n : String, ("EVIDENCE_FLOOR:" ++ n).toList.take 5 = "EVIDE".toList := by simp
    split at h
    · split at h
      · rw [List.mem_singleton.mp h, hfloor] at hhead
        exact absurd hhead (by decide)
      · cases h
    · cases h

theorem profile_mem_iff {profile : ValidationProfile} (hprofile : profile ∈ VALIDATION_PROFILES) :
    "PROFILE:" ++ profile.profile_id ∈ obligations_for a domains false live ↔ profile.applies a domains live = true := by
  rw [mem_obligations_iff, or_iff_right (profile_not_fixed _)]
  constructor
  · rintro ⟨other, hother, happlies, heq⟩
    have hids : (VALIDATION_PROFILES.map (·.profile_id)).Nodup := by decide
    have hsame : other = profile :=
      List.inj_on_of_nodup_map hids hother hprofile ((String.append_right_inj _).mp heq)
    rwa [← hsame]
  · exact fun happlies => ⟨profile, hprofile, happlies, rfl⟩

theorem profiles_mono_iff : (∀ profile ∈ VALIDATION_PROFILES, profile.applies a domains live = true →
    profile.applies a domains' live' = true) ↔ ProfilesCovered a domains live domains' live' := by
  simp only [VALIDATION_PROFILES, List.forall_mem_cons, imp_self, true_and, List.not_mem_nil, false_imp_iff,
    Bool.and_eq_true, List.any_eq_true, List.contains_eq_mem, decide_eq_true_eq]
  constructor
  · rintro ⟨happ, hvideo, hlive, -⟩
    exact ⟨fun ha hd => (happ ⟨hd, ha⟩).1, fun ha hd => (hvideo ⟨hd, ha⟩).1, fun ha hl => (hlive ⟨hl, ha⟩).1⟩
  · rintro ⟨happ, hvideo, hlive⟩
    exact ⟨fun ⟨hd, ha⟩ => ⟨happ ha hd, ha⟩, fun ⟨hd, ha⟩ => ⟨hvideo ha hd, ha⟩, fun ⟨hl, ha⟩ => ⟨hlive ha hl, ha⟩,
      fun _ => trivial⟩

/-- **The obligations are kept when the profiles are covered**, and only then. -/
theorem obligations_subset_iff : (∀ o ∈ obligations_for a domains false live, o ∈ obligations_for a domains' false live') ↔
    ProfilesCovered a domains live domains' live' := by
  rw [← profiles_mono_iff]
  constructor
  · intro h profile hprofile happlies
    exact (profile_mem_iff hprofile).mp (h _ ((profile_mem_iff hprofile).mpr happlies))
  · intro h o ho
    rcases mem_obligations_iff.mp ho with hfixed | ⟨profile, hprofile, happlies, rfl⟩
    · exact mem_obligations_iff.mpr (.inl hfixed)
    · exact (profile_mem_iff hprofile).mpr (h profile hprofile happlies)

/-! ## The first to need an artifact -/

/-- The first of the deliverables, by identifier, that needs an artifact. -/
structure Leading (given : Given) (deliverables : List DeliverableSpec) (x : ArtifactType) (s : DeliverableSpec) : Prop where
  listed : s ∈ deliverables
  needs : Needs given s x
  first : ∀ t ∈ deliverables, Needs given t x → s.id ≤ t.id

variable {given : Given} {deliverables specs : List DeliverableSpec} {d s t : DeliverableSpec} {b : Builder}
  {x : ArtifactType}

theorem FirstNeeding.leading (h : FirstNeeding given (sortedSpecs deliverables) x s) : Leading given deliverables x s := by
  obtain ⟨before, after, hsplit, hneeds, hfirst⟩ := h
  have hsorted : (sortedSpecs deliverables).Pairwise fun a b => a.id ≤ b.id :=
    List.pairwise_insertionSort (fun a b : DeliverableSpec => a.id ≤ b.id) deliverables
  rw [hsplit] at hsorted
  have hmem : ∀ t, t ∈ deliverables ↔ t ∈ before ++ s :: after := by
    intro t
    rw [← hsplit, mem_sortedSpecs]
  refine ⟨(hmem s).mpr (by simp), hneeds, fun t ht htx => ?_⟩
  rcases List.mem_append.mp ((hmem t).mp ht) with hbefore | hafter
  · exact absurd htx (hfirst t hbefore)
  · rcases List.mem_cons.mp hafter with rfl | hlater
    · exact le_refl _
    · exact (List.pairwise_cons.mp (List.pairwise_append.mp hsorted).2.1).1 t hlater

theorem Leading.unique (hids : (deliverables.map (·.id)).Nodup) (hs : Leading given deliverables x s)
    (ht : Leading given deliverables x t) : s = t :=
  List.inj_on_of_nodup_map hids hs.listed ht.listed (le_antisymm (hs.first t ht.listed ht.needs) (ht.first s hs.listed hs.needs))

/-! ## The nodes that carry obligations -/

variable [Fingerprint] {one all : Backchain} {graph : CausalWorkGraph}

/-- A node with its obligations in the graph compiled from a builder. -/
structure Obliges (graph : CausalWorkGraph) (id : String) (obligations : List String) : Prop where
  there : ∃ node ∈ graph.nodes, node.id = id
  carried : ∀ node ∈ graph.nodes, node.id = id → node.validation_obligations = obligations

theorem finalize_obligations (raw : BackchainNode) :
    (_finalize raw).validation_obligations = raw.validation_obligations := rfl

/-- **The validation of an artifact** has the obligations of the first deliverable that needs the artifact. -/
theorem validation_obliges (h : BuiltFor given specs b)
    (hnodes : graph.nodes = keptNodes (b.nodes.map _finalize) (specs.map rootId)) (ht : t ∈ specs) (hneeds : Needs given t x) :
    ∃ s, FirstNeeding given specs x s ∧ Obliges graph ("validate:" ++ x.value) (obligedBy s x) := by
  obtain ⟨hlives, hchain⟩ := h.lives ht hneeds
  have hvalidated := hlives.dependsOn hchain.validated
  obtain ⟨m, hm, -, hd⟩ := hchain.validated
  obtain ⟨raw, hraw, hid⟩ := Builder.mem_ids.mp (h.sound.closed m hm _ hd)
  obtain ⟨s, hs, hobligations⟩ := (h.known raw hraw).obligations x hid
  refine ⟨s, hs, ⟨_finalize raw, ?_, hid⟩, fun node hnode hnodeid => ?_⟩
  · rw [hnodes]
    apply (mem_compiled h).mpr
    refine ⟨raw, hraw, rfl, ?_⟩
    rw [hid]
    exact hvalidated
  · rw [hnodes] at hnode
    obtain ⟨other, hother, rfl, -⟩ := (mem_compiled h).mp hnode
    have hsame : other = raw := List.inj_on_of_nodup_map h.sound.distinct hother hraw (hnodeid.trans hid.symm)
    rw [finalize_obligations, hsame, hobligations]

theorem external_obliges (h : BuiltFor given specs b)
    (hnodes : graph.nodes = keptNodes (b.nodes.map _finalize) (specs.map rootId)) (hs : s ∈ specs) {action : ExternalAction}
    (haction : s.external_action = some action) :
    Obliges graph (externalId s action) (obligations_for .release_record (sorted s.domains) true s.live_service) := by
  obtain ⟨hacts, -, raw, hraw, hid, hobligations⟩ := (h.rooted s hs).acts action haction
  have hroot : Lives b (specs.map rootId) (rootId s) := ⟨rootId s, List.mem_map_of_mem hs, .refl⟩
  refine ⟨⟨_finalize raw, ?_, hid⟩, fun node hnode hnodeid => ?_⟩
  · rw [hnodes]
    apply (mem_compiled h).mpr
    refine ⟨raw, hraw, rfl, ?_⟩
    rw [hid]
    exact hroot.dependsOn hacts
  · rw [hnodes] at hnode
    obtain ⟨other, hother, rfl, -⟩ := (mem_compiled h).mp hnode
    have hsame : other = raw := List.inj_on_of_nodup_map h.sound.distinct hother hraw (hnodeid.trans hid.symm)
    rw [finalize_obligations, hsame, hobligations]

theorem carries_of_compiled (h : BuiltFor given specs b)
    (hnodes : graph.nodes = keptNodes (b.nodes.map _finalize) (specs.map rootId)) {node : BackchainNode}
    (hnode : node ∈ graph.nodes) (ho : o ∈ node.validation_obligations) :
    (∃ x : ArtifactType, node.id = "validate:" ++ x.value ∧ ∃ s, FirstNeeding given specs x s) ∨
      ∃ s ∈ specs, ∃ action, s.external_action = some action ∧ node.id = externalId s action := by
  rw [hnodes] at hnode
  obtain ⟨raw, hraw, rfl, -⟩ := (mem_compiled h).mp hnode
  rw [finalize_obligations] at ho
  rcases (h.known raw hraw).carries (List.ne_nil_of_mem ho) with ⟨x, hid⟩ | hexternal
  · obtain ⟨s, hs, -⟩ := (h.known raw hraw).obligations x hid
    exact .inl ⟨x, hid, s, hs⟩
  · exact .inr hexternal

theorem ancestor_of_lives (h : BuiltFor given specs b)
    (hnodes : graph.nodes = keptNodes (b.nodes.map _finalize) (specs.map rootId)) {root id : String}
    (hroot : root ∈ specs.map rootId) (hpath : TransGen b.DependsOn root id) : id ∈ graph.ancestors root := by
  rw [CausalWorkGraph.mem_ancestors]
  have hstep : ∀ u v, ReflTransGen b.DependsOn root u → b.DependsOn u v → Succ graph.dependencies u v := by
    rintro u v hu ⟨raw, hraw, rfl, hd⟩
    have hnode : _finalize raw ∈ graph.nodes := by
      rw [hnodes]
      exact (mem_compiled h).mpr ⟨raw, hraw, rfl, root, hroot, hu⟩
    have hfound : graph.node? raw.id = some (_finalize raw) := CausalWorkGraph.node?_of_mem hnode
    unfold Succ CausalWorkGraph.dependencies
    rw [hfound]
    exact mem_sortedSet.mpr hd
  induction hpath with
  | single hd => exact .single (hstep _ _ .refl hd)
  | tail hpath hd ih => exact ih.tail (hstep _ _ hpath.to_reflTransGen hd)

/-! ## Adding deliverables -/

/-- What the ancestry of a root obliges to in one graph, its nodes are obliged to in another. -/
def ObligationsKept (one all : CausalWorkGraph) (root : String) : Prop :=
  ∀ node ∈ one.nodes, node.id = root ∨ node.id ∈ one.ancestors root → ∀ o ∈ node.validation_obligations,
    ∃ node' ∈ all.nodes, node'.id = node.id ∧ o ∈ node'.validation_obligations

omit [Fingerprint] in
theorem sorted_covered (d s : DeliverableSpec) :
    (∀ o ∈ obligedBy d x, o ∈ obligedBy s x) ↔ ProfilesCovered x d.domains d.live_service s.domains s.live_service := by
  unfold obligedBy
  rw [obligations_subset_iff]
  constructor
  · rintro ⟨happ, hvideo, hlive⟩
    simp only [mem_sorted] at happ hvideo
    exact ⟨happ, hvideo, hlive⟩
  · rintro ⟨happ, hvideo, hlive⟩
    refine ⟨?_, ?_, hlive⟩
    · simpa only [mem_sorted] using happ
    · simpa only [mem_sorted] using hvideo

omit [Fingerprint] in
theorem FirstNeeding.of_single (h : FirstNeeding given [d] x s) : s = d ∧ Needs given d x := by
  obtain ⟨before, after, hsplit, hneeds, -⟩ := h
  have hs : s ∈ [d] := by
    rw [hsplit]
    simp
  obtain rfl := List.mem_singleton.mp hs
  exact ⟨rfl, hneeds⟩

theorem covered_of_kept (hd : d ∈ deliverables) (hone : compile_backchain [d] given = .ok one)
    (hall : compile_backchain deliverables given = .ok all) (hkept : ObligationsKept one.graph all.graph (rootId d))
    (hneeds : Needs given d x) (hs : Leading given deliverables x s) :
    ProfilesCovered x d.domains d.live_service s.domains s.live_service := by
  obtain ⟨-, b₁, hbuilt₁, -, hnodes₁⟩ := compile_backchain_ok hone
  obtain ⟨hids, b, hbuilt, -, hnodes⟩ := compile_backchain_ok hall
  have hsingle : sortedSpecs [d] = [d] := rfl
  rw [hsingle] at hbuilt₁ hnodes₁
  obtain ⟨s₁, hs₁, ⟨node, hnode, hid⟩, hcarried₁⟩ := validation_obliges hbuilt₁ hnodes₁ List.mem_cons_self hneeds
  obtain rfl := hs₁.of_single.1
  obtain ⟨s', hs', -, hcarried⟩ := validation_obliges hbuilt hnodes (mem_sortedSpecs.mpr hd) hneeds
  have hperm : (sortedSpecs deliverables).Perm deliverables := List.perm_insertionSort _ _
  obtain rfl := Leading.unique ((hperm.map _).nodup_iff.mp hids) hs'.leading hs
  have hancestor : node.id ∈ one.graph.ancestors (rootId s₁) := by
    obtain ⟨⟨root, hroot, hpath⟩, hchain⟩ := hbuilt₁.lives List.mem_cons_self hneeds
    rw [List.map_singleton, List.mem_singleton] at hroot
    subst hroot
    rw [hid]
    exact ancestor_of_lives hbuilt₁ hnodes₁ List.mem_cons_self (TransGen.tail' hpath hchain.validated)
  apply (sorted_covered s₁ s').mp
  intro o ho
  rw [← hcarried₁ node hnode hid] at ho
  obtain ⟨node', hnode', hid', ho'⟩ := hkept node hnode (.inr hancestor) o ho
  rwa [hcarried node' hnode' (hid'.trans hid)] at ho'

theorem kept_of_covered (hd : d ∈ deliverables) (hone : compile_backchain [d] given = .ok one)
    (hall : compile_backchain deliverables given = .ok all)
    (hcovered : ∀ x, Needs given d x → ∀ s, Leading given deliverables x s →
      ProfilesCovered x d.domains d.live_service s.domains s.live_service) :
    ObligationsKept one.graph all.graph (rootId d) := by
  obtain ⟨-, b₁, hbuilt₁, -, hnodes₁⟩ := compile_backchain_ok hone
  obtain ⟨-, b, hbuilt, -, hnodes⟩ := compile_backchain_ok hall
  have hsingle : sortedSpecs [d] = [d] := rfl
  rw [hsingle] at hbuilt₁ hnodes₁
  intro node hnode _ o ho
  rcases carries_of_compiled hbuilt₁ hnodes₁ hnode ho with ⟨x, hid, s₁, hs₁⟩ | ⟨s₁, hs₁, action, haction, hid⟩
  · obtain ⟨rfl, hneeds⟩ := hs₁.of_single
    obtain ⟨s', hs', -, hcarried₁⟩ := validation_obliges hbuilt₁ hnodes₁ List.mem_cons_self hneeds
    obtain rfl := hs'.of_single.1
    obtain ⟨s, hs, ⟨node', hnode', hid'⟩, hcarried⟩ := validation_obliges hbuilt hnodes (mem_sortedSpecs.mpr hd) hneeds
    refine ⟨node', hnode', hid'.trans hid.symm, ?_⟩
    rw [hcarried node' hnode' hid']
    apply (sorted_covered s' s).mpr (hcovered x hneeds s hs.leading)
    rwa [← hcarried₁ node hnode hid]
  · obtain rfl := List.mem_singleton.mp hs₁
    obtain ⟨-, hcarried₁⟩ := external_obliges hbuilt₁ hnodes₁ List.mem_cons_self haction
    obtain ⟨⟨node', hnode', hid'⟩, hcarried⟩ := external_obliges hbuilt hnodes (mem_sortedSpecs.mpr hd) haction
    refine ⟨node', hnode', hid'.trans hid.symm, ?_⟩
    rw [hcarried node' hnode' hid']
    rwa [hcarried₁ node hnode hid] at ho

/-- **Adding deliverables keeps the obligations** of one of them if and only if, for each artifact it needs, the first
    deliverable that needs the artifact is under every profile it is under itself. -/
theorem obligations_kept_iff (hd : d ∈ deliverables) (hone : compile_backchain [d] given = .ok one)
    (hall : compile_backchain deliverables given = .ok all) :
    ObligationsKept one.graph all.graph (rootId d) ↔
      ∀ x, Needs given d x → ∀ s, Leading given deliverables x s →
        ProfilesCovered x d.domains d.live_service s.domains s.live_service :=
  ⟨fun hkept _ hneeds _ hs => covered_of_kept hd hone hall hkept hneeds hs, kept_of_covered hd hone hall⟩

/-- One application for the web, and for a phone. -/
def webSpec : DeliverableSpec where
  id := "app-1"
  requested_outcome := "The application on the web"
  output_contract := "app_build_spec"

def phoneSpec : DeliverableSpec where
  id := "app-2"
  requested_outcome := "The application on a phone"
  output_contract := "app_build_spec"
  domains := ["MOBILE_APP"]

omit [Fingerprint] in
/-- **The application for the web is expanded first**, and the application for a phone loses the app store. -/
theorem phone_unkept : ∃ one all, @compile_backchain plainFingerprint [phoneSpec] {} = .ok one ∧
    @compile_backchain plainFingerprint [webSpec, phoneSpec] {} = .ok all ∧
      ¬ ObligationsKept one.graph all.graph (rootId phoneSpec) := by
  let _ := plainFingerprint
  obtain ⟨one, hone⟩ : ∃ one, compile_backchain [phoneSpec] {} = .ok one :=
    compile_backchain_returns (by simp) (by simp)
  obtain ⟨all, hall⟩ : ∃ all, compile_backchain [webSpec, phoneSpec] {} = .ok all :=
    compile_backchain_returns (by simp) (by decide)
  refine ⟨one, all, hone, hall, fun hkept => ?_⟩
  have hneeds : ∀ s ∈ [webSpec, phoneSpec], Needs {} s .app_build_spec := by
    intro s hs
    refine ⟨.app_build_spec, ?_, .self rfl⟩
    rcases List.mem_cons.mp hs with rfl | hs
    · decide
    · rw [List.mem_singleton.mp hs]
      decide
  have hfirst : Leading {} [webSpec, phoneSpec] .app_build_spec webSpec := by
    refine ⟨List.mem_cons_self, hneeds _ List.mem_cons_self, fun t ht _ => ?_⟩
    rcases List.mem_cons.mp ht with rfl | ht
    · exact le_refl _
    · rw [List.mem_singleton.mp ht]
      decide
  have hcovered := covered_of_kept (List.mem_cons_of_mem _ List.mem_cons_self) hone hall hkept
    (hneeds _ (List.mem_cons_of_mem _ List.mem_cons_self)) hfirst
  exact absurd (hcovered.app_store (by decide) (by decide)) (by decide)

omit [Fingerprint] in
/-- The two applications. -/
theorem phone_kept_iff : ∃ one all, @compile_backchain plainFingerprint [phoneSpec] {} = .ok one ∧
    @compile_backchain plainFingerprint [webSpec, phoneSpec] {} = .ok all ∧
      (ObligationsKept one.graph all.graph (rootId phoneSpec) ↔
        ∀ x, Needs {} phoneSpec x → ∀ s, Leading {} [webSpec, phoneSpec] x s →
          ProfilesCovered x phoneSpec.domains phoneSpec.live_service s.domains s.live_service) := by
  let _ := plainFingerprint
  obtain ⟨one, hone⟩ : ∃ one, compile_backchain [phoneSpec] {} = .ok one :=
    compile_backchain_returns (by simp) (by simp)
  obtain ⟨all, hall⟩ : ∃ all, compile_backchain [webSpec, phoneSpec] {} = .ok all :=
    compile_backchain_returns (by simp) (by decide)
  exact ⟨one, all, hone, hall, obligations_kept_iff (List.mem_cons_of_mem _ List.mem_cons_self) hone hall⟩

end Compiled
