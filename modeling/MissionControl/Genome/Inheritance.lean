import MissionControl.Genome.Resolve

/-! # What a layer may do to its ancestors

A further layer leaves the constraints before it and their owners as they are (`applyLayer_keeps`). Of the values it
leaves those under a lock, up to the equality the language has, and of the constraints that were satisfied those that
look at one key whose value is checked. Three ways are open to break what was inherited: a value equal to a locked one
that is another value, a value no check looks at (`None` under a required key, a text that is no colour under a
contrast), and the other colour of a contrast pair, which no check of the pair's constraint sees.

**A further layer protects what it inherits** exactly where it is skipped for its scope or takes none of the three
(`resolve_protects_iff`). -/

namespace Genome

open Python (Dict)

variable {host : Host} {inherited : Dict String GenomeConstraint} {values values' : Dict String Value}
  {entries before after : List (String × Value)} {k : String} {v : Value} {c : GenomeConstraint} {st st' : Resolving}
  {scope_ref : String}

/-! ## What a finding rests on -/

/-- The other key of a contrast pair. -/
def GenomeConstraint.pairKey (c : GenomeConstraint) : String := c.against?.getD ""

theorem check_value_congr (h : c.kind = .MIN_CONTRAST → colourAt values c.pairKey = colourAt values' c.pairKey) :
    _check_value host c v values = _check_value host c v values' := by
  unfold _check_value
  split
  case h_4 hkind =>
    have hpair : colourAt values (c.against?.getD "") = colourAt values' (c.against?.getD "") := h hkind
    rw [hpair]
  all_goals rfl

/-- What it takes to satisfy a constraint that is no lock. -/
structure Satisfied (host : Host) (values : Dict String Value) (c : GenomeConstraint) (v : Value) : Prop where
  here : values.get? c.key = some v
  given : v ≠ .null
  pair : c.kind = .MIN_CONTRAST → (colour? v).isSome ∧ (colourAt values c.pairKey).isSome
  check : _check_value host c v values = none

theorem present_eq_true {key : String} : present values key = true ↔ ∃ v, values.get? key = some v ∧ v ≠ .null := by
  unfold present
  cases values.get? key with
  | none => simp
  | some v => simp

theorem findingReason_eq_none (hkind : c.kind ≠ .IMMUTABLE) :
    findingReason host values c = none ↔ ∃ v, Satisfied host values c v := by
  unfold findingReason
  rw [if_neg hkind]
  by_cases hpresent : present values c.key = true
  · obtain ⟨v, hv, hgiven⟩ := present_eq_true.mp hpresent
    have hcolour : colourAt values c.key = colour? v := by
      unfold colourAt
      rw [hv]
      rfl
    by_cases hrequired : c.kind = .REQUIRED
    · rw [if_pos (.inl hrequired), if_pos hpresent]
      refine iff_of_true rfl ⟨v, hv, hgiven, ?_, ?_⟩
      · rw [hrequired]
        intro h
        cases h
      · unfold _check_value
        rw [hrequired]
    · rw [if_neg (by simp [hrequired, hpresent]), hcolour]
      split
      · rename_i hpair
        refine iff_of_false (by simp) ?_
        rintro ⟨v', hsat⟩
        obtain rfl : v = v' := Option.some.inj (hv.symm.trans hsat.here)
        exact hpair.2 (hsat.pair hpair.1)
      · rename_i hpair
        rw [hv]
        constructor
        · intro hcheck
          refine ⟨v, hv, hgiven, ?_, hcheck⟩
          intro hcontrast
          by_contra hnot
          exact hpair ⟨hcontrast, hnot⟩
        · rintro ⟨v', hsat⟩
          obtain rfl : v = v' := Option.some.inj (hv.symm.trans hsat.here)
          exact hsat.check
  · rw [if_pos (.inr (Bool.not_eq_true _ ▸ hpresent)), if_neg hpresent]
    refine iff_of_false (by simp) ?_
    rintro ⟨v, hsat⟩
    exact hpresent (present_eq_true.mpr ⟨v, hsat.here, hsat.given⟩)

theorem findingReason_congr (hkey : values.get? c.key = values'.get? c.key)
    (hpair : c.kind = .MIN_CONTRAST → colourAt values c.pairKey = colourAt values' c.pairKey)
    (h : findingReason host values c = none) : findingReason host values' c = none := by
  by_cases hkind : c.kind = .IMMUTABLE
  · unfold findingReason
    rw [if_pos hkind]
  · obtain ⟨v, hsat⟩ := (findingReason_eq_none hkind).mp h
    refine (findingReason_eq_none hkind).mpr ⟨v, hkey ▸ hsat.here, hsat.given, ?_, ?_⟩
    · intro hcontrast
      rw [← hpair hcontrast]
      exact hsat.pair hcontrast
    · rw [← check_value_congr hpair]
      exact hsat.check

/-! ## One value after another -/

theorem colourAt_set :
    colourAt (values.set k v) c.pairKey = if c.pairKey = k then colour? v else colourAt values c.pairKey := by
  unfold colourAt
  rw [Dict.get?_set]
  split <;> rfl

/-- **The constraints on its key find no fault with a value that is taken.** -/
theorem check_of_takes (hinherited : inherited.get? c.constraint_id = some c)
    (h : takes host inherited values (c.key, v) = true) :
    _check_value host c v (values.set c.key v) = none := by
  unfold takes at h
  rw [Bool.and_eq_true] at h
  have hnone : violated? host inherited values c.key v = none := Option.isNone_iff_eq_none.mp h.2
  unfold violated? at hnone
  have hmem : c ∈ byIdentifier (inherited.entries.map Prod.snd) := by
    unfold byIdentifier
    rw [List.mem_insertionSort]
    exact List.mem_map.mpr ⟨(c.constraint_id, c), Dict.get?_eq_some.mp hinherited, rfl⟩
  have hc := List.findSome?_eq_none_iff.mp hnone c hmem
  rw [if_pos rfl, Option.map_eq_none_iff] at hc
  exact hc

variable {entry : String × Value}

theorem taken_cons : Taken host inherited values (entry :: entries) k v ↔
    entry = (k, v) ∧ takes host inherited values (k, v) = true ∨
      Taken host inherited (settle host inherited values [entry]) entries k v := by
  constructor
  · rintro ⟨before, after, heq, htakes⟩
    cases before with
    | nil =>
      obtain ⟨rfl, rfl⟩ := List.cons.inj heq
      exact .inl ⟨rfl, htakes⟩
    | cons first before =>
      obtain ⟨rfl, rfl⟩ := List.cons.inj heq
      exact .inr ⟨before, after, rfl, htakes⟩
  · rintro (⟨rfl, htakes⟩ | ⟨before, after, rfl, htakes⟩)
    · exact ⟨[], entries, rfl, htakes⟩
    · exact ⟨entry :: before, after, rfl, htakes⟩

/-- What the values of a layer may do about a constraint that was satisfied. -/
structure Respects (host : Host) (inherited : Dict String GenomeConstraint) (values : Dict String Value)
    (entries : List (String × Value)) (c : GenomeConstraint) : Prop where
  /-- A value taken under its key is given and, of a contrast, a colour. -/
  key : ∀ v, Taken host inherited values entries c.key v →
    v ≠ .null ∧ (c.kind = .MIN_CONTRAST → (colour? v).isSome)
  /-- A value taken as the other of a contrast pair is a colour, and there is contrast enough at its turn unless the
      first colour is still to change. -/
  pair : c.kind = .MIN_CONTRAST → ∀ before v after, entries = before ++ (c.pairKey, v) :: after →
    takes host inherited (settle host inherited values before) (c.pairKey, v) = true →
      (colour? v).isSome ∧
        (findingReason host ((settle host inherited values before).set c.pairKey v) c = none ∨
          ∃ w, Taken host inherited ((settle host inherited values before).set c.pairKey v) after c.key w)

theorem Respects.tail (h : Respects host inherited values (entry :: entries) c) :
    Respects host inherited (settle host inherited values [entry]) entries c := by
  constructor
  · intro v htaken
    exact h.key v (taken_cons.mpr (.inr htaken))
  · rintro hkind before v after rfl htakes
    exact h.pair hkind (entry :: before) v after rfl htakes

/-- While the values of a layer are gone through: the constraint is satisfied, or its value is still to change. -/
structure Holding (host : Host) (inherited : Dict String GenomeConstraint) (values : Dict String Value)
    (entries : List (String × Value)) (c : GenomeConstraint) : Prop where
  pair : c.kind = .MIN_CONTRAST → (colourAt values c.pairKey).isSome
  finding : findingReason host values c = none ∨ ∃ w, Taken host inherited values entries c.key w

theorem Holding.step (hinherited : inherited.get? c.constraint_id = some c) (hkind : c.kind ≠ .IMMUTABLE)
    (hrespects : Respects host inherited values (entry :: entries) c)
    (h : Holding host inherited values (entry :: entries) c) :
    Holding host inherited (settle host inherited values [entry]) entries c := by
  obtain ⟨key, v⟩ := entry
  have hsettle : settle host inherited values [(key, v)] =
      if takes host inherited values (key, v) then values.set key v else values := rfl
  by_cases htakes : takes host inherited values (key, v) = true
  · rw [if_pos htakes] at hsettle
    rw [hsettle]
    by_cases hkey : key = c.key
    · -- the constraint's own value: it was checked with it in place
      subst hkey
      obtain ⟨hgiven, hcolour⟩ := hrespects.key v ⟨[], entries, rfl, htakes⟩
      have hpair : c.kind = .MIN_CONTRAST → (colourAt (values.set c.key v) c.pairKey).isSome := by
        intro hcontrast
        rw [colourAt_set]
        split
        · exact hcolour hcontrast
        · exact h.pair hcontrast
      refine ⟨hpair, .inl ((findingReason_eq_none hkind).mpr ⟨v, ?_, hgiven, ?_, check_of_takes hinherited htakes⟩)⟩
      · rw [Dict.get?_set, if_pos rfl]
      · exact fun hcontrast => ⟨hcolour hcontrast, hpair hcontrast⟩
    · have hget : (values.set key v).get? c.key = values.get? c.key := by rw [Dict.get?_set, if_neg (Ne.symm hkey)]
      by_cases hother : c.kind = .MIN_CONTRAST ∧ key = c.pairKey
      · -- the other colour of the pair
        obtain ⟨hcontrast, rfl⟩ := hother
        obtain ⟨hcolour, hfinding⟩ := hrespects.pair hcontrast [] v entries rfl htakes
        refine ⟨fun _ => ?_, hfinding⟩
        rw [colourAt_set, if_pos rfl]
        exact hcolour
      · have hpair : c.kind = .MIN_CONTRAST → colourAt values c.pairKey = colourAt (values.set key v) c.pairKey := by
          intro hcontrast
          rw [colourAt_set, if_neg fun heq => hother ⟨hcontrast, heq.symm⟩]
        constructor
        · intro hcontrast
          rw [← hpair hcontrast]
          exact h.pair hcontrast
        · rcases h.finding with hnone | ⟨w, htaken⟩
          · exact .inl (findingReason_congr hget.symm hpair hnone)
          · rcases taken_cons.mp htaken with ⟨heq, -⟩ | hlater
            · exact absurd (Prod.mk.inj heq).1 hkey
            · exact .inr ⟨w, hsettle ▸ hlater⟩
  · rw [if_neg htakes] at hsettle
    rw [hsettle]
    refine ⟨h.pair, h.finding.imp_right ?_⟩
    rintro ⟨w, htaken⟩
    rcases taken_cons.mp htaken with ⟨heq, htakes'⟩ | hlater
    · exact absurd (heq ▸ htakes') htakes
    · exact ⟨w, hsettle ▸ hlater⟩

/-- **A constraint that was satisfied stays satisfied** under values that respect it. -/
theorem Respects.satisfied (hinherited : inherited.get? c.constraint_id = some c) (hkind : c.kind ≠ .IMMUTABLE)
    (hrespects : Respects host inherited values entries c) (h : Holding host inherited values entries c) :
    findingReason host (settle host inherited values entries) c = none := by
  induction entries generalizing values with
  | nil =>
    rcases h.finding with hnone | ⟨w, before, after, heq, -⟩
    · exact hnone
    · cases before with
      | nil => cases heq
      | cons first before => cases heq
  | cons entry entries ih => exact ih hrespects.tail (h.step hinherited hkind hrespects)

theorem respects_of_satisfied (hnodup : (entries.map Prod.fst).Nodup) (hkind : c.kind ≠ .IMMUTABLE)
    (h : findingReason host (settle host inherited values entries) c = none) :
    Respects host inherited values entries c := by
  obtain ⟨u, hsat⟩ := (findingReason_eq_none hkind).mp h
  constructor
  · intro v htaken
    obtain rfl : v = u := Option.some.inj ((get?_settle_of_taken hnodup htaken).symm.trans hsat.here)
    exact ⟨hsat.given, fun hcontrast => (hsat.pair hcontrast).1⟩
  · intro hcontrast before v after heq htakes
    have hpair : (settle host inherited values entries).get? c.pairKey = some v :=
      get?_settle_of_taken hnodup ⟨before, after, heq, htakes⟩
    have hcolour : colourAt (settle host inherited values entries) c.pairKey = colour? v := by
      unfold colourAt
      rw [hpair]
      rfl
    refine ⟨hcolour ▸ (hsat.pair hcontrast).2, ?_⟩
    by_cases hlater : ∃ w, Taken host inherited ((settle host inherited values before).set c.pairKey v) after c.key w
    · exact .inr hlater
    · left
      have hafter := not_mem_of_nodup hnodup heq
      have hrest : settle host inherited values entries =
          settle host inherited ((settle host inherited values before).set c.pairKey v) after := by
        rw [heq, settle_append]
        show settle host inherited (if takes host inherited _ _ then _ else _) after = _
        rw [if_pos htakes]
      have hnodup' : (after.map Prod.fst).Nodup := by
        rw [heq, List.map_append, List.map_cons, List.nodup_append] at hnodup
        exact (List.nodup_cons.mp hnodup.2.1).2
      apply findingReason_congr _ _ h
      · rw [hrest]
        exact get?_settle_of_not_taken hnodup' fun w hw => hlater ⟨w, hw⟩
      · intro _
        rw [hcolour, colourAt_set, if_pos rfl]

/-! ## One layer after another -/

variable {preview_ref : Option String} {layer x : GenomeLayer} {layers : List GenomeLayer}

/-- A layer that is applied when its turn comes in scope order. -/
def Admitted (preview_ref : Option String) (layer : GenomeLayer) : Prop :=
  layer.status = .APPROVED ∨ preview_ref = some layer.scope_ref

theorem Admitted.passes (h : Admitted preview_ref layer) :
    ¬(layer.status ≠ .APPROVED ∧ ¬(preview_ref = some layer.scope_ref ∧ layer.status ≠ .APPROVED)) := by
  rintro ⟨hstatus, hpreview⟩
  rcases h with happroved | hnamed
  · exact hstatus happroved
  · exact hpreview ⟨hnamed, hstatus⟩

/-- What a layer does, whatever it is. -/
structure Applied (host : Host) (preview_ref : Option String) (st : Resolving) (layer : GenomeLayer) (st' : Resolving) :
    Prop where
  keeps : Keeps st st'
  keyed : Keyed st.constraints → Keyed st'.constraints
  last : ∀ n, st'.last.any (n < ·) = (st.last.any (n < ·) || decide (n < layer.scope.order))
  /-- A layer after a narrower scope leaves the values. -/
  skipped : st.last.any (layer.scope.order < ·) = true → st'.values = st.values
  taken : st.last.any (layer.scope.order < ·) = false → Admitted preview_ref layer →
    st'.values = settle host st.constraints st.values layer.document.flatten.entries

theorem applyLayer_spec : Applied host preview_ref st layer (applyLayer host preview_ref st layer) := by
  unfold applyLayer
  by_cases hnarrower : st.last.any (fun last => layer.scope.order < last) = true
  · rw [if_pos hnarrower]
    refine ⟨⟨fun _ _ h => h, fun _ _ _ => rfl⟩, id, ?_, fun _ => rfl, fun h => ?_⟩
    · intro n
      show st.last.any (n < ·) = _
      cases hlast : st.last with
      | none =>
        rw [hlast] at hnarrower
        cases hnarrower
      | some last =>
        rw [hlast] at hnarrower
        have hlt : layer.scope.order < last := by simpa using hnarrower
        rw [Option.any_some, Bool.eq_iff_iff, Bool.or_eq_true, decide_eq_true_eq, decide_eq_true_eq]
        omega
    · rw [hnarrower] at h
      cases h
  · rw [if_neg hnarrower]
    have hlast : ∀ n, decide (n < layer.scope.order) = (st.last.any (n < ·) || decide (n < layer.scope.order)) := by
      intro n
      cases hlast : st.last with
      | none => rfl
      | some last =>
        rw [hlast] at hnarrower
        have hle : last ≤ layer.scope.order := by simpa using hnarrower
        rw [Option.any_some, Bool.eq_iff_iff, Bool.or_eq_true, decide_eq_true_eq, decide_eq_true_eq]
        omega
    by_cases hadmitted : Admitted preview_ref layer
    · simp only [if_neg hadmitted.passes]
      constructor
      · refine Keeps.trans ?_ foldl_adopt_keeps
        constructor
        · intro id c hc
          rw [foldl_visit_sameRules.constraints]
          exact hc
        · intro id c _
          rw [foldl_visit_sameRules.owner]
      · intro hkeyed
        apply foldl_adopt_keyed
        rw [foldl_visit_sameRules.constraints]
        exact hkeyed
      · intro n
        rw [foldl_adopt_values.2, foldl_visit_sameRules.last]
        exact hlast n
      · intro h
        exact absurd h hnarrower
      · intro _ _
        rw [foldl_adopt_values.1, foldl_visit_values]
    · have hrefused : layer.status ≠ .APPROVED ∧
          ¬(preview_ref = some layer.scope_ref ∧ layer.status ≠ .APPROVED) := by
        unfold Admitted at hadmitted
        rw [not_or] at hadmitted
        exact ⟨hadmitted.1, fun h => hadmitted.2 h.1⟩
      simp only [if_pos hrefused]
      exact ⟨⟨fun _ _ h => h, fun _ _ _ => rfl⟩, id, hlast, fun h => absurd h hnarrower, fun _ h => absurd h hadmitted⟩

theorem resolving_append : resolving host preview_ref (layers ++ [x]) =
    applyLayer host preview_ref (resolving host preview_ref layers) x := by
  unfold resolving
  rw [List.foldl_append]
  rfl

theorem resolving_keyed (preview_ref : Option String) (layers : List GenomeLayer) :
    Keyed (resolving host preview_ref layers).constraints := by
  induction layers using List.reverseRecOn with
  | nil =>
    intro id c hc
    cases hc
  | append_singleton layers x ih =>
    rw [resolving_append]
    exact applyLayer_spec.keyed ih

theorem resolving_last {n : ℕ} : (resolving host preview_ref layers).last.any (n < ·) = true ↔
    ∃ l ∈ layers, n < l.scope.order := by
  induction layers using List.reverseRecOn with
  | nil => exact iff_of_false (by simp [resolving]) (by simp)
  | append_singleton layers x ih =>
    rw [resolving_append, applyLayer_spec.last, Bool.or_eq_true, ih, decide_eq_true_eq]
    constructor
    · rintro (⟨l, hmem, hlt⟩ | hlt)
      · exact ⟨l, List.mem_append_left _ hmem, hlt⟩
      · exact ⟨x, List.mem_append_right _ (List.mem_singleton_self x), hlt⟩
    · rintro ⟨l, hmem, hlt⟩
      rcases List.mem_append.mp hmem with hmem | hmem
      · exact .inl ⟨l, hmem, hlt⟩
      · rw [List.mem_singleton.mp hmem] at hlt
        exact .inr hlt

/-! ## What a resolution shows -/

theorem get?_sortItems {ν : Type} (d : Dict String ν) (key : String) : (sortItems d).get? key = d.get? key := by
  ext v
  rw [Dict.get?_eq_some, Dict.get?_eq_some]
  exact List.mem_insertionSort _

theorem mem_byIdentifier {constraints : List GenomeConstraint} : c ∈ byIdentifier constraints ↔ c ∈ constraints :=
  List.mem_insertionSort _

theorem mem_finish_constraints (hkeyed : Keyed st.constraints) :
    c ∈ (st.finish host).constraints ↔ st.constraints.get? c.constraint_id = some c :=
  mem_byIdentifier.trans hkeyed.mem_entries

theorem mem_finish_findings (hkeyed : Keyed st.constraints) {f : ConstraintFinding} :
    f ∈ (st.finish host).findings ↔
      ∃ c, st.constraints.get? c.constraint_id = some c ∧ finding host st.values st.owner c = f := by
  show f ∈ evaluate_constraints host st.values (st.finish host).constraints st.owner ↔ _
  unfold evaluate_constraints
  rw [List.mem_map]
  apply exists_congr
  intro c
  rw [mem_byIdentifier, mem_finish_constraints hkeyed]

theorem finding_passed {owner : Dict String String} :
    (finding host values owner c).passed = true ↔ findingReason host values c = none :=
  Option.isNone_iff_eq_none

/-! ## What was inherited -/

/-- A resolution protects what an earlier one held. -/
structure Protected (earlier later : Resolution) : Prop where
  constraints : ∀ c ∈ earlier.constraints, c ∈ later.constraints ∧
    later.constraint_owner.get? c.constraint_id = earlier.constraint_owner.get? c.constraint_id
  locked : ∀ c ∈ earlier.constraints, c.kind = .IMMUTABLE → ∀ v, earlier.values.get? c.key = some v →
    later.values.get? c.key = some v
  findings : ∀ f ∈ earlier.findings, f.passed = true → ∀ f' ∈ later.findings, f'.constraint_id = f.constraint_id →
    f'.passed = true

/-- What the values of a layer may do after what is resolved so far. -/
structure Careful (host : Host) (st : Resolving) (layer : GenomeLayer) : Prop where
  /-- A value taken under a lock is the value that is there. -/
  locked : ∀ c ∈ st.constraints.entries.map Prod.snd, c.kind = .IMMUTABLE → ∀ u v, st.values.get? c.key = some u →
    Taken host st.constraints st.values layer.document.flatten.entries c.key v → v = u
  respects : ∀ c ∈ st.constraints.entries.map Prod.snd, c.kind ≠ .IMMUTABLE → findingReason host st.values c = none →
    Respects host st.constraints st.values layer.document.flatten.entries c

theorem protected_of_keeps (hkeyed : Keyed st.constraints) (hkeyed' : Keyed st'.constraints) (hkeeps : Keeps st st')
    (hlocked : ∀ c, st.constraints.get? c.constraint_id = some c → c.kind = .IMMUTABLE → ∀ v,
      st.values.get? c.key = some v → st'.values.get? c.key = some v)
    (hfindings : ∀ c, st.constraints.get? c.constraint_id = some c → c.kind ≠ .IMMUTABLE →
      findingReason host st.values c = none → findingReason host st'.values c = none) :
    Protected (st.finish host) (st'.finish host) := by
  constructor
  · intro c hc
    have hget := (mem_finish_constraints hkeyed).mp hc
    refine ⟨(mem_finish_constraints hkeyed').mpr (hkeeps.constraints _ c hget), ?_⟩
    show (sortItems st'.owner).get? _ = (sortItems st.owner).get? _
    rw [get?_sortItems, get?_sortItems]
    exact hkeeps.owner _ c hget
  · intro c hc hkind v hv
    have hv : (sortItems st.values).get? c.key = some v := hv
    rw [get?_sortItems] at hv
    show (sortItems st'.values).get? c.key = some v
    rw [get?_sortItems]
    exact hlocked c ((mem_finish_constraints hkeyed).mp hc) hkind v hv
  · intro f hf hpassed f' hf' hsame
    obtain ⟨c, hc, rfl⟩ := (mem_finish_findings hkeyed).mp hf
    obtain ⟨c', hc', rfl⟩ := (mem_finish_findings hkeyed').mp hf'
    have hid : c'.constraint_id = c.constraint_id := hsame
    rw [hid, hkeeps.constraints _ c hc] at hc'
    obtain rfl := Option.some.inj hc'
    apply finding_passed.mpr
    by_cases hkind : c.kind = .IMMUTABLE
    · unfold findingReason
      rw [if_pos hkind]
    · exact hfindings c hc hkind (finding_passed.mp hpassed)

/-- **A further layer protects what it inherits** exactly where it comes after a narrower scope, and is skipped, or
    takes neither another value under a lock nor a value that breaks a constraint that was satisfied. -/
theorem resolve_protects_iff (hadmitted : Admitted preview_ref x) :
    Protected (resolve host layers preview_ref) (resolve host (layers ++ [x]) preview_ref) ↔
      ((∀ l ∈ layers, l.scope.order ≤ x.scope.order) → Careful host (resolving host preview_ref layers) x) := by
  have hkeyed : Keyed (resolving host preview_ref layers).constraints := resolving_keyed preview_ref layers
  unfold resolve
  rw [resolving_append]
  generalize hst : resolving host preview_ref layers = st at hkeyed ⊢
  have hspec : Applied host preview_ref st x (applyLayer host preview_ref st x) := applyLayer_spec
  have hkeyed' := hspec.keyed hkeyed
  have hordered : st.last.any (x.scope.order < ·) = false ↔ ∀ l ∈ layers, l.scope.order ≤ x.scope.order := by
    rw [← hst, ← Bool.not_eq_true, resolving_last]
    simp only [not_exists, not_and, not_lt]
  rw [← hordered]
  constructor
  · intro hprotected hlast
    have hvalues := hspec.taken hlast hadmitted
    have hnodup := x.document.flatten.nodup
    constructor
    · intro c hc hkind u v hu htaken
      have hget := hkeyed.mem_entries.mp hc
      have hshown : (sortItems st.values).get? c.key = some u := by rw [get?_sortItems, hu]
      have hkept : (sortItems (applyLayer host preview_ref st x).values).get? c.key = some u :=
        hprotected.locked c ((mem_finish_constraints hkeyed).mpr hget) hkind u hshown
      rw [get?_sortItems, hvalues, get?_settle_of_taken hnodup htaken] at hkept
      exact Option.some.inj hkept
    · intro c hc hkind hnone
      have hget := hkeyed.mem_entries.mp hc
      apply respects_of_satisfied hnodup hkind
      rw [← hvalues]
      apply finding_passed.mp
      exact hprotected.findings _ ((mem_finish_findings hkeyed).mpr ⟨c, hget, rfl⟩) (finding_passed.mpr hnone) _
        ((mem_finish_findings hkeyed').mpr ⟨c, hspec.keeps.constraints _ c hget, rfl⟩) rfl
  · intro hcareful
    apply protected_of_keeps hkeyed hkeyed' hspec.keeps
    · intro c hget hkind v hv
      by_cases hlast : st.last.any (x.scope.order < ·) = true
      · rw [hspec.skipped hlast]
        exact hv
      · have hlast : st.last.any (x.scope.order < ·) = false := Bool.not_eq_true _ ▸ hlast
        rw [hspec.taken hlast hadmitted]
        by_cases htaken : ∃ w, Taken host st.constraints st.values x.document.flatten.entries c.key w
        · obtain ⟨w, htaken⟩ := htaken
          rw [get?_settle_of_taken x.document.flatten.nodup htaken]
          exact congrArg some ((hcareful hlast).locked c (hkeyed.mem_entries.mpr hget) hkind v w hv htaken)
        · rw [get?_settle_of_not_taken x.document.flatten.nodup fun w hw => htaken ⟨w, hw⟩]
          exact hv
    · intro c hget hkind hnone
      by_cases hlast : st.last.any (x.scope.order < ·) = true
      · rw [hspec.skipped hlast]
        exact hnone
      · have hlast : st.last.any (x.scope.order < ·) = false := Bool.not_eq_true _ ▸ hlast
        rw [hspec.taken hlast hadmitted]
        apply Respects.satisfied hget hkind ((hcareful hlast).respects c (hkeyed.mem_entries.mpr hget) hkind hnone)
        obtain ⟨v, hsat⟩ := (findingReason_eq_none hkind).mp hnone
        exact ⟨fun hcontrast => (hsat.pair hcontrast).2, .inl hnone⟩

theorem careful_of_not_mem (h : ∀ c ∈ st.constraints.entries.map Prod.snd,
    c.key ∉ layer.document.flatten.keys ∧ c.pairKey ∉ layer.document.flatten.keys) : Careful host st layer := by
  have hnamed : ∀ {key v before after},
      layer.document.flatten.entries = before ++ (key, v) :: after → key ∈ layer.document.flatten.keys := by
    intro key v before after heq
    apply List.mem_map.mpr
    exact ⟨(key, v), by rw [heq]; simp, rfl⟩
  constructor
  · rintro c hc - u v - ⟨before, after, heq, -⟩
    exact absurd (hnamed heq) (h c hc).1
  · intro c hc _ _
    constructor
    · rintro v ⟨before, after, heq, -⟩
      exact absurd (hnamed heq) (h c hc).1
    · intro _ before v after heq
      exact absurd (hnamed heq) (h c hc).2

/-! ## Black on white -/

/-- A document of one chromosome. -/
def visual (entries : Dict String Value) (constraints : List GenomeConstraint)
    (checked : DocumentFields.check { chromosomes := .ofList [(.VISUAL, entries)], constraints } = .ok ()) :
    GenomeDocument :=
  { chromosomes := .ofList [(.VISUAL, entries)], constraints, checked }

def readable : GenomeConstraint where
  constraint_id := "readable"
  key := "visual.text"
  kind := .MIN_CONTRAST
  params := .ofList [("against", .str "visual.paper"), ("ratio", .int 4)]
  checked := by decide

/-- Black text on white paper, which must be readable. -/
def brand : GenomeLayer where
  scope := .BRAND
  scope_ref := "brand"
  status := .APPROVED
  document := visual (.ofList [("paper", .str "#ffffff"), ("text", .str "#000000")]) [readable] (by decide)
  named := by decide

def project (entries : Dict String Value)
    (checked : DocumentFields.check { chromosomes := .ofList [(.VISUAL, entries)], constraints := [] } = .ok ()) :
    GenomeLayer where
  scope := .PROJECT
  scope_ref := "project"
  status := .APPROVED
  document := visual entries [] checked
  named := by decide

/-- The contrast of black and white, and of either with itself. -/
def blackAndWhite : Host where
  wcag_contrast_ratio a b := if a = b then .finite 1 else .finite 21
  repr _ := ""

/-- A project that says something else of its logo. -/
theorem resolve_protects_iff_logo : Protected (resolve blackAndWhite [brand])
    (resolve blackAndWhite ([brand] ++ [project (.ofList [("logo", .str "round")]) (by decide)])) :=
  (resolve_protects_iff (.inl rfl)).mpr fun _ => careful_of_not_mem (by decide)

/-- **The paper turned black under black text**: no constraint is on the paper. -/
theorem paper_turned_black : ¬∀ host preview_ref layers x, (∀ l ∈ layers, l.status = .APPROVED) →
    Admitted preview_ref x →
      Protected (resolve host layers preview_ref) (resolve host (layers ++ [x]) preview_ref) := by
  intro h
  have hprotected := h blackAndWhite none [brand] (project (.ofList [("paper", .str "#000000")]) (by decide))
    (by decide) (.inl rfl)
  have hall : ∀ f ∈ (resolve blackAndWhite [brand]).findings, f.passed = true := by decide
  have hsome : ∃ f' ∈ (resolve blackAndWhite
      ([brand] ++ [project (.ofList [("paper", .str "#000000")]) (by decide)])).findings,
      ∃ f ∈ (resolve blackAndWhite [brand]).findings, f'.constraint_id = f.constraint_id ∧ f'.passed = false := by
    decide
  obtain ⟨f', hf', f, hf, hid, hfailed⟩ := hsome
  have hpassed := hprotected.findings f hf (hall f hf) f' hf' hid
  rw [hfailed] at hpassed
  cases hpassed

end Genome
