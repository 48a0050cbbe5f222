import MissionControl.Actions.Risk

/-! # Worse facts, higher risk

Two actions of the same operation, environment and requested class, one at least as bad as
the other in every risk dimension. The classes the facts earn only grow, but for one rule: a
recoverable deletion earns R2, and earns R5 instead once it is not recoverable. A requested
class counts as long as it is above everything earned. So the effective rank never falls, and
the controls that can be lost are the ones of these two classes. -/

namespace Actions

/-- `f'` is at least `f` in every risk dimension. -/
structure RiskFacts.AtLeast (f f' : RiskFacts) : Prop where
  operation : f'.operation = f.operation
  environment : f'.environment = f.environment
  requested_class : f'.requested_class = f.requested_class
  data_class : f.data_class.rank ≤ f'.data_class.rank
  cost_minor : f.cost_minor ≤ f'.cost_minor
  reversibility : f.reversibility.rank ≤ f'.reversibility.rank
  audience : f.audience.rank ≤ f'.audience.rank
  external : f.external = true → f'.external = true
  notifies : f.notifies = true → f'.notifies = true
  blast_radius : f.blast_radius ≤ f'.blast_radius
  scopes : f.scopes ⊆ f'.scopes
  dependents : f.dependents ≤ f'.dependents

/-- The requested class counts: it is above everything the facts earn. -/
def RiskFacts.Raises (facts : RiskFacts) (c : RiskClass) : Prop :=
  facts.requested_class = some c ∧ ∀ d, facts.Earns d → d.rank < c.rank

variable {f f' : RiskFacts} {c : RiskClass}

/-! ## The classes and controls of an assessment -/

theorem earns_some (facts : RiskFacts) : ∃ c, facts.Earns c := by
  cases hop : facts.operation with
  | READ => exact ⟨.R0, hop⟩
  | CREATE_LOCAL => exact ⟨.R1, hop⟩
  | WRITE_DRAFT => exact ⟨.R2, .inl (.inl hop)⟩
  | PUBLISH => exact ⟨.R3, .inl (.inl (.inl hop))⟩
  | COMMUNICATE => exact ⟨.R3, .inl (.inl (.inr hop))⟩
  | SPEND => exact ⟨.R4, .inl hop⟩
  | DELETE =>
    by_cases hrec : facts.Recoverable
    · exact ⟨.R2, .inr ⟨hop, hrec⟩⟩
    · exact ⟨.R5, .inl (.inr ⟨hop, hrec⟩)⟩
  | TRANSFER => exact ⟨.R5, .inl (.inl hop)⟩
  | PERMISSION_CHANGE => exact ⟨.R6, .inl (.inl hop)⟩
  | POLICY_CHANGE => exact ⟨.R6, .inl (.inr hop)⟩

variable {facts : RiskFacts}

theorem mem_requestRule :
    c ∈ addedClasses (requestRule facts (addedClasses (factRules facts))) ↔ facts.Raises c := by
  unfold RiskFacts.Raises
  cases hreq : facts.requested_class with
  | none => simp [requestRule, hreq, addedClasses]
  | some r =>
    rw [mem_requestRule_some hreq]
    simp only [mem_addedClasses_factRules, Option.some.injEq]
    constructor
    · rintro ⟨⟨-, habove⟩, rfl⟩
      exact ⟨rfl, habove⟩
    · rintro ⟨rfl, habove⟩
      exact ⟨⟨fun h => absurd (habove _ h) (lt_irrefl _), habove⟩, rfl⟩

theorem addedClasses_classRules (facts : RiskFacts) : addedClasses (classRules facts) =
      addedClasses (factRules facts) ++ addedClasses (requestRule facts (addedClasses (factRules facts))) := by
  obtain ⟨d, hd⟩ := earns_some facts
  have hne : addedClasses (factRules facts) ≠ [] := List.ne_nil_of_mem (mem_addedClasses_factRules.mpr hd)
  unfold classRules
  rw [addedClasses_append, addedClasses_append, fallbackRule_of_ne (List.append_ne_nil_of_left_ne_nil hne _)]
  exact List.append_nil _

/-- **The classes of an assessment**: what the facts earn, and the requested class when it is
    above all of it. -/
theorem mem_assess_classes : c ∈ (assess facts).classes ↔ facts.Earns c ∨ facts.Raises c := by
  rw [assess_classes, List.mem_filter, and_iff_right (RiskClass.mem_all c), decide_eq_true_eq,
    addedClasses_classRules, List.mem_append, mem_addedClasses_factRules, mem_requestRule]

theorem addedControls_classRules (facts : RiskFacts) :
    addedControls (classRules facts) = addedControls (factRules facts) := by
  obtain ⟨d, hd⟩ := earns_some facts
  have hne : addedClasses (factRules facts) ≠ [] := List.ne_nil_of_mem (mem_addedClasses_factRules.mpr hd)
  unfold classRules
  dsimp only
  rw [addedClasses_append, fallbackRule_of_ne (List.append_ne_nil_of_left_ne_nil hne _), List.append_nil,
    addedControls_append, addedControls_requestRule, List.append_nil]

/-- **The controls of an assessment**: those the facts need, the gate of the live environment,
    and those of every class. -/
theorem mem_assess_controls {k : Control} :
    k ∈ (assess facts).controls ↔ (facts.Needs k ∨ facts.environment = .LIVE ∧ k = .LIVE_GATE) ∨
      ∃ c, (facts.Earns c ∨ facts.Raises c) ∧ k ∈ CLASS_CONTROLS c := by
  rw [assess_controls, List.mem_filter, and_iff_right (Control.mem_all k), decide_eq_true_eq, List.mem_flatMap,
    addedControls_append, List.mem_append, addedControls_classRules, mem_addedControls_factRules,
    mem_addedControls_liveRule]
  simp only [mem_assess_classes]

theorem effectiveClass_filter {p : RiskClass → Bool} (h : p c = true) :
    ∃ top, effectiveClass (RiskClass.all.filter p) = top ∧ p top = true ∧ ∀ d, p d = true → d.rank ≤ top.rank := by
  have hsorted : (RiskClass.all.filter p).Pairwise fun a b => a.rank < b.rank := by
    refine List.Pairwise.filter p ?_
    decide
  have hmem : ∀ d, p d = true → d ∈ RiskClass.all.filter p :=
    fun d hd => List.mem_filter.mpr ⟨RiskClass.mem_all d, hd⟩
  cases hlast : (RiskClass.all.filter p).getLast? with
  | none =>
    have hc := hmem c h
    rw [List.getLast?_eq_none_iff.mp hlast] at hc
    cases hc
  | some top =>
    refine ⟨top, by rw [effectiveClass, hlast, Option.getD_some],
      (List.mem_filter.mp (List.mem_of_getLast? hlast)).2, fun d hd => ?_⟩
    obtain ⟨init, hinit⟩ := List.getLast?_eq_some_iff.mp hlast
    have hd := hmem d hd
    rw [hinit] at hd hsorted
    rcases List.mem_append.mp hd with hd | hd
    · exact le_of_lt ((List.pairwise_append.mp hsorted).2.2 d hd top (List.mem_singleton.mpr rfl))
    · rw [List.mem_singleton.mp hd]

/-- **The effective class** is one of the classes, and none is above it. -/
theorem effective_spec (facts : RiskFacts) :
    ∃ top, (assess facts).effective = top ∧ (facts.Earns top ∨ facts.Raises top) ∧
      ∀ d, facts.Earns d ∨ facts.Raises d → d.rank ≤ top.rank := by
  have hmem : ∀ d, facts.Earns d ∨ facts.Raises d ↔ decide (d ∈ addedClasses (classRules facts)) = true := by
    intro d
    rw [← mem_assess_classes, assess_classes, List.mem_filter, and_iff_right (RiskClass.mem_all d)]
  obtain ⟨c, hc⟩ := earns_some facts
  obtain ⟨top, heq, htop, hmax⟩ :=
    effectiveClass_filter (p := fun c => decide (c ∈ addedClasses (classRules facts))) ((hmem c).mp (.inl hc))
  rw [assess_effective, assess_classes]
  exact ⟨top, heq, (hmem top).mpr htop, fun d hd => hmax d ((hmem d).mp hd)⟩

/-! ## Monotonicity -/

/-- A deletion of what could be restored has become one of what could not. -/
def LosesRecovery (f f' : RiskFacts) : Prop :=
  f.operation = .DELETE ∧ f.Recoverable ∧ ¬ f'.Recoverable

/-- The requested class counted, and no longer does: the facts now earn a higher one. -/
def Outgrows (f f' : RiskFacts) (c : RiskClass) : Prop :=
  f.Raises c ∧ ∃ d, f'.Earns d ∧ c.rank < d.rank

theorem irreversible_of_rank {r : Reversibility} (h : Reversibility.IRREVERSIBLE.rank ≤ r.rank) : r = .IRREVERSIBLE := by
  cases r with
  | REVERSIBLE => exact absurd h (by decide)
  | COMPENSATABLE => exact absurd h (by decide)
  | IRREVERSIBLE => rfl

theorem governance_mono {scopes scopes' : List String} (h : scopes ⊆ scopes') (hne : _governance scopes ≠ []) :
    _governance scopes' ≠ [] := by
  obtain ⟨s, hs⟩ := List.exists_mem_of_ne_nil _ hne
  unfold _governance at hs ⊢
  rw [List.mem_insertionSort, List.mem_filter] at hs
  exact List.ne_nil_of_mem (List.mem_insertionSort _ |>.mpr (List.mem_filter.mpr ⟨h hs.1, hs.2⟩))

namespace RiskFacts.AtLeast

variable (h : f.AtLeast f')
include h

theorem irreversible (hrev : f.reversibility = .IRREVERSIBLE) : f'.reversibility = .IRREVERSIBLE := by
  apply irreversible_of_rank
  rw [← hrev]
  exact h.reversibility

theorem not_recoverable (hrec : ¬ f.Recoverable) : ¬ f'.Recoverable := by
  intro hrec'
  refine hrec ⟨fun hrev => hrec'.1 (h.irreversible hrev), fun hdata => hrec'.2 (hdata.trans h.data_class)⟩

/-- **One class.** Worse facts earn what the facts earned; a deletion that cannot be restored
    any more earns R5 in place of R2. -/
theorem earns (hc : f.Earns c) : f'.Earns c ∨ c = .R2 ∧ LosesRecovery f f' ∧ f'.Earns .R5 := by
  have hop := h.operation
  cases c with
  | R0 => exact .inl (hop.trans hc)
  | R1 => exact .inl (hop.trans hc)
  | R2 =>
    rcases hc with (hwrite | ⟨hext, hread⟩) | ⟨hdel, hrec⟩
    · exact .inl (.inl (.inl (hop.trans hwrite)))
    · exact .inl (.inl (.inr ⟨h.external hext, hop ▸ hread⟩))
    · by_cases hrec' : f'.Recoverable
      · exact .inl (.inr ⟨hop.trans hdel, hrec'⟩)
      · exact .inr ⟨rfl, ⟨hdel, hrec, hrec'⟩, .inl (.inr ⟨hop.trans hdel, hrec'⟩)⟩
  | R3 =>
    rcases hc with ((hpub | hcom) | ⟨haud, hread⟩) | hnot
    · exact .inl (.inl (.inl (.inl (hop.trans hpub))))
    · exact .inl (.inl (.inl (.inr (hop.trans hcom))))
    · exact .inl (.inl (.inr ⟨haud.trans h.audience, hop ▸ hread⟩))
    · exact .inl (.inr (h.notifies hnot))
  | R4 =>
    rcases hc with hspend | hcost
    · exact .inl (.inl (hop.trans hspend))
    · exact .inl (.inr (lt_of_lt_of_le hcost h.cost_minor))
  | R5 =>
    rcases hc with (htransfer | ⟨hdel, hrec⟩) | ⟨hblast, hread⟩
    · exact .inl (.inl (.inl (hop.trans htransfer)))
    · exact .inl (.inl (.inr ⟨hop.trans hdel, h.not_recoverable hrec⟩))
    · exact .inl (.inr ⟨lt_of_lt_of_le hblast h.blast_radius, hop ▸ hread⟩)
  | R6 =>
    rcases hc with (hperm | hpol) | hgov
    · exact .inl (.inl (.inl (hop.trans hperm)))
    · exact .inl (.inl (.inr (hop.trans hpol)))
    · exact .inl (.inr (governance_mono h.scopes hgov))

theorem needs {k : Control} (hk : f.Needs k) : f'.Needs k := by
  have hop := h.operation
  cases k with
  | DATA_ACCESS_CHECK => exact ⟨hop.trans hk.1, hk.2.trans h.data_class⟩
  | RECOVERY_ANALYSIS => exact ⟨h.irreversible hk.1, hop ▸ hk.2⟩
  | DEPENDENCY_IMPACT_REVIEW => exact ⟨lt_of_lt_of_le hk.1 h.dependents, hop ▸ hk.2⟩
  | _ => exact hk.elim

/-- **The requested class** still counts, or is earned, or is outgrown. -/
theorem raises (hc : f.Raises c) : f'.Earns c ∨ f'.Raises c ∨ Outgrows f f' c := by
  by_cases habove : ∀ d, f'.Earns d → d.rank < c.rank
  · exact .inr (.inl ⟨h.requested_class.trans hc.1, habove⟩)
  · push Not at habove
    obtain ⟨d, hd, hle⟩ := habove
    rcases Nat.lt_or_ge c.rank d.rank with hlt | hge
    · exact .inr (.inr ⟨hc, d, hd, hlt⟩)
    · rw [RiskClass.rank_inj (Nat.le_antisymm hle hge)]
      exact .inl hd

end RiskFacts.AtLeast

/-- **Worse facts never lower the effective class, and keep every control** but those of two
    classes that gave way to a higher one: R2 of a recoverable deletion that is recoverable no
    more, and a requested class that the facts have outgrown. -/
theorem assess_monotone (f f' : RiskFacts) (h : f.AtLeast f') :
    (assess f).effective.rank ≤ (assess f').effective.rank ∧
      ∀ k ∈ (assess f).controls, k ∈ (assess f').controls ∨
        (LosesRecovery f f' ∧ k ∈ CLASS_CONTROLS .R2) ∨ ∃ c, Outgrows f f' c ∧ k ∈ CLASS_CONTROLS c := by
  constructor
  · obtain ⟨c, hc, hmem, -⟩ := effective_spec f
    obtain ⟨top, htop, -, hmax⟩ := effective_spec f'
    rw [hc, htop]
    rcases hmem with hearned | hraised
    · rcases h.earns hearned with hearned | ⟨rfl, -, hR5⟩
      · exact hmax c (.inl hearned)
      · exact le_trans (by decide) (hmax _ (.inl hR5))
    · rcases h.raises hraised with hearned | hraised | ⟨-, d, hd, hlt⟩
      · exact hmax c (.inl hearned)
      · exact hmax c (.inr hraised)
      · exact (le_of_lt hlt).trans (hmax d (.inl hd))
  · intro k hk
    rcases mem_assess_controls.mp hk with (hneeds | hlive) | ⟨c, hearned | hraised, hck⟩
    · exact .inl (mem_assess_controls.mpr (.inl (.inl (h.needs hneeds))))
    · exact .inl (mem_assess_controls.mpr (.inl (.inr ⟨h.environment.trans hlive.1, hlive.2⟩)))
    · rcases h.earns hearned with hearned | ⟨rfl, hlost, -⟩
      · exact .inl (mem_assess_controls.mpr (.inr ⟨c, .inl hearned, hck⟩))
      · exact .inr (.inl ⟨hlost, hck⟩)
    · rcases h.raises hraised with hearned | hraised | hout
      · exact .inl (mem_assess_controls.mpr (.inr ⟨c, .inl hearned, hck⟩))
      · exact .inl (mem_assess_controls.mpr (.inr ⟨c, .inr hraised, hck⟩))
      · exact .inr (.inr ⟨c, hout, hck⟩)

/-- Delete one internal item that can be restored. -/
def deletion : RiskFacts where
  operation := .DELETE
  environment := .SANDBOX
  data_class := .INTERNAL
  cost_minor := 0
  currency := none
  reversibility := .REVERSIBLE
  audience := .NONE
  external := false
  notifies := false
  blast_radius := 1
  scopes := []
  dependents := 0
  requested_class := none

/-- The same deletion, for good. -/
def deletionForGood : RiskFacts := { deletion with reversibility := .IRREVERSIBLE }

theorem deletion_atLeast : deletion.AtLeast deletionForGood := by
  constructor <;> simp [deletion, deletionForGood, Reversibility.rank]

theorem assess_monotone_deletion :
    (assess deletion).effective.rank ≤ (assess deletionForGood).effective.rank ∧
      ∀ k ∈ (assess deletion).controls, k ∈ (assess deletionForGood).controls ∨
        (LosesRecovery deletion deletionForGood ∧ k ∈ CLASS_CONTROLS .R2) ∨
          ∃ c, Outgrows deletion deletionForGood c ∧ k ∈ CLASS_CONTROLS c :=
  assess_monotone deletion deletionForGood deletion_atLeast

/-- Deleting for good no longer asks for a read-back. -/
theorem controls_not_monotone :
    ¬ ∀ f f' : RiskFacts, f.AtLeast f' → (assess f).effective.rank ≤ (assess f').effective.rank ∧
      ∀ k ∈ (assess f).controls, k ∈ (assess f').controls := by
  intro hall
  have hkept := (hall deletion deletionForGood deletion_atLeast).2 .READ_BACK
  have hbefore : .READ_BACK ∈ (assess deletion).controls := by decide
  have hafter : .READ_BACK ∉ (assess deletionForGood).controls := by decide
  exact hafter (hkept hbefore)

end Actions
