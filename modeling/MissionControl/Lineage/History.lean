import MissionControl.Lineage.Impact
import MissionControl.Lineage.Supersession

/-! # The history of a node

The supersession chain through a node: as far back as a lookup of predecessors leads, and from there along the links.
In every graph that calls build, links lead to nodes written later, so the chain is found and passes through its node
(`history_spec`). **The nodes of a chain share it** exactly where no two nodes were closed for the same one
(`sameChain_iff`), which is so in every run that records a decision only where at most one version of its scope is
current (`Apart.run`). -/

namespace Lineage

open Relational
open Python (Dict)

namespace Graph

variable {τ : Type} (g : Graph τ)

/-- `{n.superseded_by: n.node_id for n in self.all_nodes.values() if n.superseded_by}` -/
def older : Dict String String :=
  .ofList (g.all_nodes.filterMap fun n => (truthy n.superseded_by).map fun s => (s, n.node_id))

/-- What a node was closed for. -/
def newer (node_id : String) : Option String :=
  (g.all_nodes.find? (·.node_id == node_id)).bind fun n => truthy n.superseded_by

/-- The supersession chain through a node, oldest first: nothing where a loop does not end. -/
def history (node_id : String) : Option (List String) :=
  chainThrough g.older.get? g.newer (g.all_nodes.length + 1) node_id

/-- The nodes of a chain have the same chain. -/
def SameChain : Prop := ∀ n ∈ g.all_nodes, ∀ chain, g.history n.node_id = some chain →
  ∀ id ∈ chain, g.history id = some chain

/-- No two nodes were closed for the same one. -/
def Apart : Prop := ∀ n ∈ g.all_nodes, ∀ m ∈ g.all_nodes, ∀ s, n.superseded_by = some s → m.superseded_by = some s →
  n.node_id = m.node_id

end Graph

variable {τ : Type} [LinearOrder τ] {out : Outside τ} {w w' : World τ} {brand_id : String} {as_of : Option τ}

/-! ## Links lead to later nodes -/

/-- Where a node stands among the nodes in the order in which they were written. -/
def World.place (w : World τ) (node_id : String) : ℕ := (w.nodes.map (·.node_id)).idxOf node_id

structure Ranked (w : World τ) : Prop where
  nodup : (w.nodes.map (·.node_id)).Nodup
  named : ∀ n ∈ w.nodes, n.node_id ≠ ""
  links : ∀ n ∈ w.nodes, ∀ s, n.superseded_by = some s →
    ∃ m ∈ w.nodes, m.node_id = s ∧ m.brand_id = n.brand_id ∧ w.place n.node_id < w.place s

variable {news : List (NodeRow τ)} {closed : List String} {target : String}

omit [LinearOrder τ] in
theorem Rewrites.ids (h : Rewrites w w' brand_id news closed target) :
    w'.nodes.map (·.node_id) = w.nodes.map (·.node_id) ++ news.map (·.node_id) := by
  obtain ⟨stamp, hnodes⟩ := h.nodes
  rw [hnodes, List.map_map, ← List.map_append]
  apply List.map_congr_left
  intro n _
  exact closing_node_id

variable {id : String}

section
omit [LinearOrder τ]

theorem not_mem_of_has_node (h : w.has_node id = false) : id ∉ w.nodes.map (·.node_id) := by
  rintro hmem
  obtain ⟨n, hn, rfl⟩ := List.mem_map.mp hmem
  unfold World.has_node at h
  rw [List.any_eq_false] at h
  exact h n hn (by simp)

theorem Rewrites.place_old (h : Rewrites w w' brand_id news closed target) (hid : id ∈ w.nodes.map (·.node_id)) :
    w'.place id = w.place id := by
  unfold World.place
  rw [h.ids]
  exact List.idxOf_append_of_mem hid

theorem Rewrites.place_new (h : Rewrites w w' brand_id news closed target) (hid : id ∈ news.map (·.node_id)) :
    w.nodes.length ≤ w'.place id := by
  obtain ⟨n, hn, rfl⟩ := List.mem_map.mp hid
  unfold World.place
  rw [h.ids, List.idxOf_append_of_notMem (not_mem_of_has_node (h.fresh n hn)), List.length_map]
  exact Nat.le_add_right _ _

theorem place_lt (hid : id ∈ w.nodes.map (·.node_id)) : w.place id < w.nodes.length := by
  unfold World.place
  rw [← List.length_map (·.node_id)]
  exact List.idxOf_lt_length_of_mem hid

theorem Rewrites.mem (h : Rewrites w w' brand_id news closed target) (hranked : Ranked w) {n' : NodeRow τ}
    (hn' : n' ∈ w'.nodes) :
    (∃ n ∈ w.nodes, n'.node_id = n.node_id ∧ n'.brand_id = n.brand_id ∧ n.node_id ∈ closed ∧ n.brand_id = brand_id ∧
      n'.superseded_by = some target) ∨ n' ∈ w.nodes ∨ n' ∈ news := by
  obtain ⟨stamp, hnodes⟩ := h.nodes
  rw [hnodes] at hn'
  obtain ⟨n, hn, rfl⟩ := List.mem_map.mp hn'
  by_cases hclosed : n.node_id ∈ closed ∧ n.Current
  · left
    obtain ⟨m, hm, hid, hbrand, -⟩ := h.closes _ hclosed.1
    have hold : n ∈ w.nodes := by
      rcases List.mem_append.mp hn with hold | hnew
      · exact hold
      · exact absurd (List.mem_map.mpr ⟨m, hm, hid⟩) (not_mem_of_has_node (h.fresh n hnew))
    obtain rfl : m = n := List.inj_on_of_nodup_map hranked.nodup hm hold hid
    refine ⟨m, hold, closing_node_id, closing_brand_id, hclosed.1, hbrand, ?_⟩
    rw [closing_of_mem hclosed.1 hclosed.2]
    rfl
  · right
    unfold closing
    rw [if_neg hclosed]
    exact List.mem_append.mp hn

theorem Rewrites.exists_row (h : Rewrites w w' brand_id news closed target) {n : NodeRow τ} (hn : n ∈ w.nodes ++ news) :
    ∃ n' ∈ w'.nodes, n'.node_id = n.node_id ∧ n'.brand_id = n.brand_id := by
  obtain ⟨stamp, hnodes⟩ := h.nodes
  refine ⟨closing closed target stamp n, ?_, closing_node_id, closing_brand_id⟩
  rw [hnodes]
  exact List.mem_map_of_mem hn

theorem Ranked.rewrites (hranked : Ranked w) (h : Rewrites w w' brand_id news closed target) : Ranked w' := by
  constructor
  · rw [h.ids, List.nodup_append]
    refine ⟨hranked.nodup, h.distinct, ?_⟩
    rintro id hid id' hid' rfl
    obtain ⟨n, hn, rfl⟩ := List.mem_map.mp hid'
    exact not_mem_of_has_node (h.fresh n hn) hid
  · intro n' hn'
    rcases h.mem hranked hn' with ⟨n, hn, hid, -⟩ | hold | hnew
    · rw [hid]
      exact hranked.named n hn
    · exact hranked.named n' hold
    · exact (h.opened n' hnew).2.2.1
  · intro n' hn' s hs
    rcases h.mem hranked hn' with ⟨n, hn, hid, hbrand, hclosed, hof, htarget⟩ | hold | hnew
    · -- closed by the call, for a node it added
      obtain rfl : target = s := Option.some.inj (htarget.symm.trans hs)
      have hnews := h.target (List.ne_nil_of_mem hclosed)
      obtain ⟨m, hm, hmid⟩ := List.mem_map.mp hnews
      obtain ⟨m', hm', hmid', hmbrand⟩ := h.exists_row (List.mem_append_right _ hm)
      refine ⟨m', hm', hmid'.trans hmid, ?_, ?_⟩
      · rw [hmbrand, (h.opened m hm).2.2.2, hbrand, hof]
      · have hmem : n.node_id ∈ w.nodes.map (·.node_id) := List.mem_map_of_mem hn
        rw [hid, h.place_old hmem]
        exact (place_lt hmem).trans_le (h.place_new hnews)
    · obtain ⟨m, hm, hmid, hbrand, hlt⟩ := hranked.links n' hold s hs
      obtain ⟨m', hm', hmid', hmbrand⟩ := h.exists_row (List.mem_append_left _ hm)
      refine ⟨m', hm', hmid'.trans hmid, hmbrand.trans hbrand, ?_⟩
      rw [h.place_old (List.mem_map_of_mem hold), h.place_old (hmid ▸ List.mem_map_of_mem hm)]
      exact hlt
    · rw [(h.opened n' hnew).1] at hs
      cases hs

end

/-- No two nodes of the tables were closed for the same one. -/
def World.Apart (w : World τ) : Prop := ∀ n ∈ w.nodes, ∀ m ∈ w.nodes, ∀ s, n.superseded_by = some s →
  m.superseded_by = some s → n.node_id = m.node_id

omit [LinearOrder τ] in
theorem World.Apart.rewrites (hapart : w.Apart) (hranked : Ranked w) (h : Rewrites w w' brand_id news closed target)
    (hone : ∀ a ∈ closed, ∀ b ∈ closed, a = b) : w'.Apart := by
  -- nothing was closed for a node that is new
  have hfresh : ∀ n ∈ w.nodes, closed ≠ [] → n.superseded_by ≠ some target := by
    intro n hn hne hs
    obtain ⟨m, hm, hmid, -⟩ := hranked.links n hn target hs
    obtain ⟨m', hm', hmid'⟩ := List.mem_map.mp (h.target hne)
    exact not_mem_of_has_node (h.fresh m' hm') (hmid' ▸ hmid ▸ List.mem_map_of_mem hm)
  intro n' hn' m' hm' s hns hms
  rcases h.mem hranked hn' with ⟨n, hn, hid, -, hclosed, -, htarget⟩ | hold | hnew
  · obtain rfl : target = s := Option.some.inj (htarget.symm.trans hns)
    rcases h.mem hranked hm' with ⟨m, hm, hid', -, hclosed', -, -⟩ | hold' | hnew'
    · rw [hid, hid']
      exact hone _ hclosed _ hclosed'
    · exact absurd hms (hfresh m' hold' (List.ne_nil_of_mem hclosed))
    · rw [(h.opened m' hnew').1] at hms
      cases hms
  · rcases h.mem hranked hm' with ⟨m, hm, -, -, hclosed', -, htarget'⟩ | hold' | hnew'
    · obtain rfl : target = s := Option.some.inj (htarget'.symm.trans hms)
      exact absurd hns (hfresh n' hold (List.ne_nil_of_mem hclosed'))
    · exact hapart n' hold m' hold' s hns hms
    · rw [(h.opened m' hnew').1] at hms
      cases hms
  · rw [(h.opened n' hnew).1] at hns
    cases hns

/-! ## The chain through a node -/

omit [LinearOrder τ] in
theorem truthy_eq_some {s : Option String} {t : String} : truthy s = some t ↔ s = some t ∧ t ≠ "" := by
  unfold truthy
  rw [Option.filter_eq_some_iff, decide_eq_true_eq]

theorem mem_all_nodes {n : Node τ} : n ∈ (w.graph brand_id as_of).all_nodes ↔
    ∃ row ∈ w.nodes, row.brand_id = brand_id ∧ row.toNode = n := by
  show n ∈ (w.load_graph brand_id).1.map (·.toNode) ↔ _
  simp only [List.mem_map, mem_load_nodes, and_assoc]

theorem Ranked.eq_of_node_id (h : Ranked w) {n m : Node τ} (hn : n ∈ (w.graph brand_id as_of).all_nodes)
    (hm : m ∈ (w.graph brand_id as_of).all_nodes) (hid : n.node_id = m.node_id) : n = m := by
  obtain ⟨row, hrow, -, rfl⟩ := mem_all_nodes.mp hn
  obtain ⟨row', hrow', -, rfl⟩ := mem_all_nodes.mp hm
  rw [List.inj_on_of_nodup_map h.nodup hrow hrow' hid]

theorem Ranked.newer_eq_some (h : Ranked w) {s : String} : (w.graph brand_id as_of).newer id = some s ↔
    ∃ n ∈ (w.graph brand_id as_of).all_nodes, n.node_id = id ∧ n.superseded_by = some s := by
  unfold Graph.newer
  constructor
  · intro hs
    obtain ⟨n, hfind, htruthy⟩ := Option.bind_eq_some_iff.mp hs
    exact ⟨n, List.mem_of_find?_eq_some hfind, by simpa using List.find?_some hfind, (truthy_eq_some.mp htruthy).1⟩
  · rintro ⟨n, hn, rfl, hs⟩
    cases hfind : (w.graph brand_id as_of).all_nodes.find? (·.node_id == n.node_id) with
    | none =>
      have hnone := List.find?_eq_none.mp hfind n hn
      simp at hnone
    | some m =>
      have hmid : m.node_id = n.node_id := by simpa using List.find?_some hfind
      obtain rfl : m = n := h.eq_of_node_id (List.mem_of_find?_eq_some hfind) hn hmid
      obtain ⟨row, hrow, -, rfl⟩ := mem_all_nodes.mp hn
      obtain ⟨row', hrow', rfl, -⟩ := h.links row hrow s hs
      exact truthy_eq_some.mpr ⟨hs, h.named row' hrow'⟩

omit [LinearOrder τ] in
theorem older_eq_some {g : Graph τ} {s : String} (h : g.older.get? s = some id) :
    ∃ n ∈ g.all_nodes, n.node_id = id ∧ n.superseded_by = some s := by
  rcases Dict.mem_of_get?_updateList h with hmem | hnone
  · obtain ⟨n, hn, hentry⟩ := List.mem_filterMap.mp hmem
    obtain ⟨s', htruthy, heq⟩ := Option.map_eq_some_iff.mp hentry
    obtain ⟨rfl, rfl⟩ := Prod.mk.inj heq
    exact ⟨n, hn, rfl, (truthy_eq_some.mp htruthy).1⟩
  · cases hnone

theorem Ranked.linked (h : Ranked w) (brand_id : String) (as_of : Option τ) :
    Linked (w.graph brand_id as_of).older.get? (w.graph brand_id as_of).newer w.place
      ((w.graph brand_id as_of).all_nodes.map (·.node_id)) where
  up x y hxy := by
    obtain ⟨n, hn, rfl, hs⟩ := h.newer_eq_some.mp hxy
    obtain ⟨row, hrow, -, rfl⟩ := mem_all_nodes.mp hn
    obtain ⟨-, -, -, -, hlt⟩ := h.links row hrow y hs
    exact hlt
  mem x y hxy := by
    obtain ⟨n, hn, rfl, hs⟩ := h.newer_eq_some.mp hxy
    refine ⟨List.mem_map_of_mem hn, ?_⟩
    obtain ⟨row, hrow, hbrand, rfl⟩ := mem_all_nodes.mp hn
    obtain ⟨m, hm, rfl, hmbrand, -⟩ := h.links row hrow y hs
    exact List.mem_map.mpr ⟨m.toNode, mem_all_nodes.mpr ⟨m, hm, hmbrand.trans hbrand, rfl⟩, rfl⟩
  sound s x hsx := h.newer_eq_some.mpr (older_eq_some hsx)
  complete x s hxs := by
    obtain ⟨n, hn, rfl, hs⟩ := h.newer_eq_some.mp hxs
    apply Dict.mem_keys.mp
    apply Dict.mem_keys_updateList
    left
    obtain ⟨row, hrow, -, rfl⟩ := mem_all_nodes.mp hn
    obtain ⟨row', hrow', rfl, -⟩ := h.links row hrow s hs
    have htruthy : truthy row.superseded_by = some row'.node_id := truthy_eq_some.mpr ⟨hs, h.named row' hrow'⟩
    refine List.mem_map.mpr ⟨(row'.node_id, row.node_id), List.mem_filterMap.mpr ⟨row.toNode, hn, ?_⟩, rfl⟩
    rw [htruthy]
    rfl

omit [LinearOrder τ] in
theorem rounds_suffice {g : Graph τ} : (g.all_nodes.map (·.node_id)).length < g.all_nodes.length + 1 := by
  rw [List.length_map]
  exact Nat.lt_succ_self _

/-- **History ends, and passes through its node.** -/
theorem history_spec (h : Ranked w) (id : String) :
    ∃ chain, (w.graph brand_id as_of).history id = some chain ∧ id ∈ chain := by
  obtain ⟨-, chain, -, -, hchain, hmem⟩ := chainThrough_total (h.linked brand_id as_of) rounds_suffice id
  exact ⟨chain, hchain, hmem⟩

/-- **The nodes of a chain share it** exactly where no two nodes were closed for the same one. -/
theorem sameChain_iff (h : Ranked w) : (w.graph brand_id as_of).SameChain ↔ (w.graph brand_id as_of).Apart := by
  have hlinked := h.linked brand_id as_of
  constructor
  · intro hsame n hn m hm s hns hms
    have hx : (w.graph brand_id as_of).newer n.node_id = some s := h.newer_eq_some.mpr ⟨n, hn, rfl, hns⟩
    have hy : (w.graph brand_id as_of).newer m.node_id = some s := h.newer_eq_some.mpr ⟨m, hm, rfl, hms⟩
    -- both chains go on with the node they were closed for
    have hnext : ∀ a ∈ (w.graph brand_id as_of).all_nodes, (w.graph brand_id as_of).newer a.node_id = some s →
        (w.graph brand_id as_of).history s = (w.graph brand_id as_of).history a.node_id := by
      intro a ha has
      obtain ⟨o, chain, -, hfollow, hchain, hmem⟩ := chainThrough_total hlinked rounds_suffice a.node_id
      have hs : s ∈ chain := (mem_follow hfollow).mpr (((mem_follow hfollow).mp hmem).tail has)
      exact (hsame a ha chain hchain s hs).trans hchain.symm
    exact eq_of_chainThrough_eq hlinked rounds_suffice hx hy ((hnext n hn hx).symm.trans (hnext m hm hy))
  · intro hapart n _ chain hchain id hid
    refine chainThrough_of_mem hlinked rounds_suffice ?_ hchain hid
    intro x y s hx hy
    obtain ⟨a, ha, rfl, has⟩ := h.newer_eq_some.mp hx
    obtain ⟨b, hb, rfl, hbs⟩ := h.newer_eq_some.mp hy
    exact hapart a ha b hb s has hbs

/-! ## Every run -/

section
variable [Canonical.Sha256]

theorem after_rewrites (call : Call) : ∃ brand_id news closed target,
    Rewrites w (w.after out call) brand_id news closed target ∧
      (w.Single call → ∀ a ∈ closed, ∀ b ∈ closed, a = b) := by
  unfold World.after
  cases hr : call.run out w with
  | ok x => exact call_rewrites call x.1 x.2 hr
  | error e => exact ⟨"", [], [], "", Rewrites.same out "" rfl, by simp⟩

theorem ranked_run (out : Outside τ) (calls : List Call) : Ranked (World.run out calls) := by
  induction calls using List.reverseRecOn with
  | nil => exact ⟨List.nodup_nil, by simp [World.run, World.empty], by simp [World.run, World.empty]⟩
  | append_singleton calls call ih =>
    rw [World.run, List.foldl_append]
    obtain ⟨brand_id, news, closed, target, h, -⟩ : ∃ brand_id news closed target,
        Rewrites (World.run out calls) ((World.run out calls).after out call) brand_id news closed target ∧ _ :=
      after_rewrites call
    exact ih.rewrites h

/-- Every decision of a run is recorded where at most one version of its scope is current. -/
def SingleRun (out : Outside τ) (calls : List Call) : Prop :=
  ∀ before call after, calls = before ++ call :: after → (World.run out before).Single call

theorem apart_run {calls : List Call} (h : SingleRun out calls) : (World.run out calls).Apart := by
  induction calls using List.reverseRecOn with
  | nil =>
    intro n hn
    cases hn
  | append_singleton calls call ih =>
    rw [World.run, List.foldl_append]
    obtain ⟨brand_id, news, closed, target, hrewrites, hone⟩ : ∃ brand_id news closed target,
        Rewrites (World.run out calls) ((World.run out calls).after out call) brand_id news closed target ∧ _ :=
      after_rewrites call
    refine (ih ?_).rewrites (ranked_run out calls) hrewrites (hone (h calls call [] rfl))
    rintro before call' after rfl
    exact h before call' (after ++ [call]) (by simp)

/-- **Impact, provenance and history.** Of every view, impact is exact and dual to what is upstream. Of every graph that
    calls build, history ends and passes through its node, and the nodes of a chain share it exactly where no two nodes
    were closed for the same one: so in every run whose decisions are each recorded where at most one version of the
    scope is current. -/
theorem impact_history_exact (out : Outside τ) :
    (∀ (nodes : List (Node τ)) (edges : List (Edge τ)) (as_of : Option τ),
      (∀ changed, (Graph.of nodes edges as_of).Exact changed) ∧
        ∀ n c, n ∈ ((Graph.of nodes edges as_of).impact [c]).affected.map (·.node_id) ↔
          c ∈ (Graph.of nodes edges as_of).upstream n) ∧
    ∀ (calls : List Call) (brand_id : String) (as_of : Option τ),
      (∀ n ∈ ((World.run out calls).graph brand_id as_of).all_nodes,
        ∃ chain, ((World.run out calls).graph brand_id as_of).history n.node_id = some chain ∧ n.node_id ∈ chain) ∧
      (((World.run out calls).graph brand_id as_of).SameChain ↔ ((World.run out calls).graph brand_id as_of).Apart) ∧
      (SingleRun out calls → ((World.run out calls).graph brand_id as_of).SameChain) := by
  constructor
  · intro nodes edges as_of
    exact ⟨Graph.impact_exact Graph.closed_of, fun n c => Graph.dual Graph.closed_of⟩
  · intro calls brand_id as_of
    have hranked := ranked_run out calls
    refine ⟨fun n _ => history_spec hranked n.node_id, sameChain_iff hranked, ?_⟩
    intro hsingle
    apply (sameChain_iff hranked).mpr
    intro n hn m hm s hns hms
    obtain ⟨row, hrow, -, rfl⟩ := mem_all_nodes.mp hn
    obtain ⟨row', hrow', -, rfl⟩ := mem_all_nodes.mp hm
    exact apart_run hsingle row hrow row' hrow' s hns hms

end

/-! ## Two versions closed for one -/

@[reducible] def noHash : Canonical.Sha256 := ⟨fun _ => ""⟩

/-- A version that a user adds. -/
def addVersion : Call :=
  .add_node ⟨"t", "owner", fun _ => .ok ()⟩ "b" .GENOME_VERSION "draft"
    [("scope", .str "page"), ("scope_ref", .str "home")] none

def homeVersion : VersionRow := ⟨"v1", "t", "b", "page", "home", 1, "hash", none, none⟩

def homeApproval : ApprovalRow := ⟨"a1", none, none, none, none⟩

/-- The node of the `k`-th version added. -/
def addedVersion (k : ℕ) : NodeRow ℕ :=
  newNode halfClock ⟨[], [], k, k⟩ "t" "b" .GENOME_VERSION "draft" [("scope", .str "page"), ("scope_ref", .str "home")]
    "" "owner"

def twoVersions : World ℕ := ⟨[addedVersion 0, addedVersion 1], [], 2, 2⟩

theorem run_addVersion : @World.run ℕ _ noHash halfClock [addVersion, addVersion] = twoVersions := by
  with_unfolding_all rfl

theorem load_twoVersions : twoVersions.load_graph "b" = (twoVersions.nodes, []) := by
  have hnodes : twoVersions.nodes.filter (·.brand_id == "b") = twoVersions.nodes := rfl
  show (ordered _ _ _, ordered _ _ []) = _
  rw [hnodes]
  congr 1
  · apply List.mergeSort_of_pairwise
    decide +kernel
  · exact List.mergeSort_nil

theorem graph_twoVersions : twoVersions.graph "b" none =
    ⟨none, [(addedVersion 0).toNode, (addedVersion 1).toNode], [(addedVersion 0).toNode, (addedVersion 1).toNode],
      [], []⟩ := by
  unfold World.graph
  rw [load_twoVersions]
  rfl

theorem record_twoVersions :
    (@World.after ℕ _ halfClock noHash twoVersions (.record_genome_decision homeVersion homeApproval)).nodes.map
      (fun n => (n.node_id, n.brand_id, n.superseded_by)) =
    [("node-0", "b", some "node-2"), ("node-1", "b", some "node-2"), ("node-2", "b", none), ("node-3", "b", none)] := by
  have hread : graph_locked homeVersion.brand_id twoVersions = .ok (twoVersions.graph "b" none, twoVersions) := rfl
  unfold World.after Call.run record_genome_decision
  simp only [bind, StateT.bind, Except.bind]
  rw [hread, graph_twoVersions]
  decide +kernel

/-- **Two versions that a user added are closed for the one recorded.** It is in the chain of the first, and its own
    chain starts with the second. -/
theorem two_closed_for_one : ¬∀ (calls : List Call) (brand_id : String) (as_of : Option ℕ),
    ((@World.run ℕ _ noHash halfClock calls).graph brand_id as_of).SameChain := by
  intro h
  let calls : List Call := [addVersion, addVersion, .record_genome_decision homeVersion homeApproval]
  have hranked : Ranked (@World.run ℕ _ noHash halfClock calls) := @ranked_run ℕ _ noHash halfClock calls
  have hapart := (sameChain_iff hranked).mp (h calls "b" none)
  have hrun : @World.run ℕ _ noHash halfClock calls =
      @World.after ℕ _ halfClock noHash twoVersions (.record_genome_decision homeVersion homeApproval) := by
    rw [← run_addVersion]
    rfl
  have hrow : ∀ id s, (id, "b", s) ∈ (@World.run ℕ _ noHash halfClock calls).nodes.map
      (fun n => (n.node_id, n.brand_id, n.superseded_by)) →
      ∃ n ∈ ((@World.run ℕ _ noHash halfClock calls).graph "b" none).all_nodes,
        n.node_id = id ∧ n.superseded_by = s := by
    intro id s hmem
    obtain ⟨row, hrow, heq⟩ := List.mem_map.mp hmem
    obtain ⟨hid, hrest⟩ := Prod.mk.inj heq
    obtain ⟨hbrand, hs⟩ := Prod.mk.inj hrest
    exact ⟨row.toNode, mem_all_nodes.mpr ⟨row, hrow, hbrand, rfl⟩, hid, hs⟩
  rw [hrun] at hrow hapart
  rw [record_twoVersions] at hrow
  obtain ⟨n, hn, hnid, hns⟩ := hrow "node-0" (some "node-2") (by decide)
  obtain ⟨m, hm, hmid, hms⟩ := hrow "node-1" (some "node-2") (by decide)
  have heq := hapart n hn m hm "node-2" hns hms
  rw [hnid, hmid] at heq
  exact absurd heq (by decide)

end Lineage
