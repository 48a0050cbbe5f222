import MissionControl.Compiled.Methods
import MissionControl.Compiled.Cells
import MissionControl.Relational.Cover

/-! # The method router

The methods for a set of needs: those that apply are chosen by greedy set cover, what is superfluous is pruned, a tie is
decided by a duel of two stacks, and of two methods in conflict the costlier is banned before another pass. What comes out
is a conflict-free, irredundant cover of the needs that are not reported unresolved (`select_methods_stack`). -/

namespace Compiled

open Python (sorted sortedSet mem_sorted mem_sortedSet)
open Relational

def MACRO_NEED : String := "macro:structured_cycle"

def MAX_ROUTER_PASSES : Nat := 3

def MAX_SHADOW_STACKS : Nat := 2

structure ExcludedMethod where
  method_id : String
  reason : String
  deriving DecidableEq

structure ShadowDuel where
  candidates : List String
  winner : String
  rule : String
  deriving DecidableEq

/-- The class refuses a certificate that names no need. -/
structure MinimalityCertificate where
  method_id : String
  necessary_for : List String
  downstream_effect_if_removed : String
  deriving DecidableEq

/-- With a measurement-plan prerequisite, later methods may assume data. -/
def _effective (signature : ProblemSignature) (prereq : Bool) : ProblemSignature :=
  if prereq then { signature with measurement_available := some true } else signature

/-! ## Screening -/

/-- Why a method that serves some need is excluded, if it is. -/
def exclusion (signature : ProblemSignature) (banned : List String) (method : MethodSpec) : Option (Option String) := do
  if banned.contains method.method_id then some (some "CONFLICT_RESOLUTION")
  else if method.slot = .MACRO ∧
      (method.family :: method.secondary_families).all (fun family => !signature.problem_families.contains family) then
    -- A lifecycle methodology frames only the problem families it belongs to.
    some (some "MACRO_FAMILY_MISMATCH")
  else if ← any_holds signature method.contraindications then some (some "CONTRAINDICATED")
  else if ← all_hold signature method.applicability_predicates then some none
  else some (some "NOT_APPLICABLE")

/-- The loop of `_screen`. -/
def screenAll (signature : ProblemSignature) (needs banned : List String) :
    List MethodSpec → Option (List MethodSpec × List ExcludedMethod)
  | [] => some ([], [])
  | method :: methods =>
    if method.expected_outputs.any needs.contains then do
      let excludedFor ← exclusion signature banned method
      let (usable, excluded) ← screenAll signature needs banned methods
      match excludedFor with
      | some reason => some (usable, ⟨method.method_id, reason⟩ :: excluded)
      | none => some (method :: usable, excluded)
    else screenAll signature needs banned methods

def _screen (catalog : MethodCatalog) (signature : ProblemSignature) (needs banned : List String) :
    Option (List MethodSpec × List ExcludedMethod) :=
  screenAll signature needs banned (catalog.methods.insertionSort (·.method_id ≤ ·.method_id))

/-- A method that applies to a problem and that nothing in the problem speaks against. -/
def MethodSpec.Fits (method : MethodSpec) (signature : ProblemSignature) : Prop :=
  all_hold signature method.applicability_predicates = some true ∧
    any_holds signature method.contraindications = some false

variable {catalog : MethodCatalog} {signature : ProblemSignature} {needs banned : List String} {method : MethodSpec}
  {methods usable : List MethodSpec} {excluded : List ExcludedMethod}

theorem exclusion_none (h : exclusion signature banned method = some none) : method.Fits signature := by
  unfold exclusion at h
  split at h
  · cases h
  · split at h
    · cases h
    · obtain ⟨contraindicated, hcontra, h⟩ := Option.bind_eq_some_iff.mp h
      cases contraindicated with
      | true => cases h
      | false =>
        obtain ⟨applicable, happlies, h⟩ := Option.bind_eq_some_iff.mp h
        cases applicable with
        | true => exact ⟨happlies, hcontra⟩
        | false => cases h

theorem screenAll_fits (h : screenAll signature needs banned methods = some (usable, excluded)) :
    ∀ m ∈ usable, m ∈ methods ∧ m.Fits signature := by
  induction methods generalizing usable excluded with
  | nil =>
    simp only [screenAll, Option.some.injEq, Prod.mk.injEq] at h
    rw [← h.1]
    simp
  | cons method methods ih =>
    unfold screenAll at h
    split at h
    · obtain ⟨excludedFor, hexclusion, h⟩ := Option.bind_eq_some_iff.mp h
      obtain ⟨⟨usable', excluded'⟩, hrest, h⟩ := Option.bind_eq_some_iff.mp h
      have hih := ih hrest
      cases excludedFor with
      | some reason =>
        simp only [Option.some.injEq, Prod.mk.injEq] at h
        intro m hm
        rw [← h.1] at hm
        exact ⟨List.mem_cons_of_mem _ (hih m hm).1, (hih m hm).2⟩
      | none =>
        simp only [Option.some.injEq, Prod.mk.injEq] at h
        intro m hm
        rw [← h.1] at hm
        rcases List.mem_cons.mp hm with rfl | hm
        · exact ⟨List.mem_cons_self, exclusion_none hexclusion⟩
        · exact ⟨List.mem_cons_of_mem _ (hih m hm).1, (hih m hm).2⟩
    · intro m hm
      exact ⟨List.mem_cons_of_mem _ (ih h m hm).1, (ih h m hm).2⟩

theorem screen_fits (h : _screen catalog signature needs banned = some (usable, excluded)) :
    ∀ m ∈ usable, m ∈ catalog.methods ∧ m.Fits signature := by
  intro m hm
  obtain ⟨hmem, hfits⟩ := screenAll_fits h m hm
  exact ⟨(List.mem_insertionSort _).mp hmem, hfits⟩

/-! ## The greedy cover -/

/-- `_key(method, gain)`, as an order of pairs of a gain and a method. -/
def KeyLE (a b : Nat × MethodSpec) : Prop :=
  b.1 < a.1 ∨ a.1 = b.1 ∧ (a.2.effort < b.2.effort ∨ a.2.effort = b.2.effort ∧
    (a.2.slot.index < b.2.slot.index ∨ a.2.slot.index = b.2.slot.index ∧ a.2.method_id ≤ b.2.method_id))

instance : DecidableRel KeyLE := fun _ _ => inferInstanceAs (Decidable (_ ∨ _))

/-- The methods not yet chosen that gain something, with what they gain, the best first. -/
def scored (usable : List MethodSpec) (uncovered chosen : List String) : List (Nat × MethodSpec) :=
  (((usable.filter fun m => !chosen.contains m.method_id).map fun m =>
    ((m.expected_outputs.dedup.filter uncovered.contains).length, m)).filter fun gm => 0 < gm.1).insertionSort KeyLE

/-- The methods that gain as much as the best, with the same effort. -/
def tiedWith (best : Nat × MethodSpec) (scored : List (Nat × MethodSpec)) : List MethodSpec :=
  (scored.filter fun gm => gm.1 = best.1 ∧ gm.2.effort = best.2.effort).map (·.2)

/-- The method to choose: at the first tie, the one that is forced if it is among those tied. -/
def pickOf (force : Option String) (first_tie : Option (String × String)) (best : MethodSpec) (tied : List MethodSpec) :
    MethodSpec :=
  if 1 < tied.length ∧ first_tie = none then (force.bind fun id => tied.find? (·.method_id == id)).getD best else best

def firstTie (first_tie : Option (String × String)) : List MethodSpec → Option (String × String)
  | a :: b :: _ => first_tie.or (some (a.method_id, b.method_id))
  | _ => first_tie

/-- The loop of `_greedy`. Each turn chooses a usable method that was not chosen before, so it ends after as many turns as
    there are usable methods. -/
def greedyLoop (usable : List MethodSpec) (force : Option String) :
    Nat → List String → List String → Option (String × String) → List String × Option (String × String)
  | 0, _, chosen, first_tie => (chosen, first_tie)
  | turns + 1, uncovered, chosen, first_tie =>
    if uncovered = [] then (chosen, first_tie)
    else
      match scored usable uncovered chosen with
      | [] => (chosen, first_tie)
      | best :: rest =>
        let tied := tiedWith best (best :: rest)
        let pick := pickOf force first_tie best.2 tied
        greedyLoop usable force turns (uncovered.filter (· ∉ pick.expected_outputs)) (chosen ++ [pick.method_id])
          (firstTie first_tie tied)

/-- Set cover: the chosen identifiers, and the first tie. -/
def _greedy (usable : List MethodSpec) (needs : List String) (force : Option String) :
    List String × Option (String × String) :=
  greedyLoop usable force usable.length needs [] none

variable {uncovered chosen : List String} {force : Option String} {first_tie : Option (String × String)}

theorem mem_scored {gm : Nat × MethodSpec} : gm ∈ scored usable uncovered chosen ↔
    gm.2 ∈ usable ∧ gm.2.method_id ∉ chosen ∧ gm.1 = (gm.2.expected_outputs.dedup.filter uncovered.contains).length ∧
      0 < gm.1 := by
  unfold scored
  rw [List.mem_insertionSort, List.mem_filter, List.mem_map]
  constructor
  · rintro ⟨⟨m, hm, rfl⟩, hgain⟩
    obtain ⟨husable, hchosen⟩ := List.mem_filter.mp hm
    exact ⟨husable, by simpa using hchosen, rfl, by simpa using hgain⟩
  · rintro ⟨husable, hchosen, hgain, hpos⟩
    refine ⟨⟨gm.2, List.mem_filter.mpr ⟨husable, by simpa using hchosen⟩, ?_⟩, by simpa using hpos⟩
    rw [← hgain]

theorem pickOf_mem (force : Option String) (first_tie : Option (String × String)) (best : Nat × MethodSpec)
    (rest : List (Nat × MethodSpec)) :
    ∃ gm ∈ best :: rest, gm.2 = pickOf force first_tie best.2 (tiedWith best (best :: rest)) := by
  unfold pickOf
  split
  · cases hforced : force.bind fun id => (tiedWith best (best :: rest)).find? (·.method_id == id) with
    | none => exact ⟨best, List.mem_cons_self, rfl⟩
    | some pick =>
      obtain ⟨id, -, hfind⟩ := Option.bind_eq_some_iff.mp hforced
      obtain ⟨gm, hgm, hpick⟩ := List.mem_map.mp (List.mem_of_find?_eq_some hfind)
      exact ⟨gm, List.mem_of_mem_filter hgm, hpick⟩
  · exact ⟨best, List.mem_cons_self, rfl⟩

theorem pick_usable (force : Option String) (first_tie : Option (String × String)) {best : Nat × MethodSpec}
    {rest : List (Nat × MethodSpec)} (h : scored usable uncovered chosen = best :: rest) :
    pickOf force first_tie best.2 (tiedWith best (best :: rest)) ∈ usable ∧
      (pickOf force first_tie best.2 (tiedWith best (best :: rest))).method_id ∉ chosen := by
  obtain ⟨gm, hgm, hpick⟩ := pickOf_mem force first_tie best rest
  rw [← hpick]
  obtain ⟨husable, hchosen, -⟩ := mem_scored.mp (h ▸ hgm)
  exact ⟨husable, hchosen⟩

theorem greedyLoop_usable {turns : Nat} (hchosen : ∀ id ∈ chosen, ∃ m ∈ usable, m.method_id = id) :
    ∀ id ∈ (greedyLoop usable force turns uncovered chosen first_tie).1, ∃ m ∈ usable, m.method_id = id := by
  induction turns generalizing uncovered chosen first_tie with
  | zero => exact hchosen
  | succ turns ih =>
    unfold greedyLoop
    split
    · exact hchosen
    · split
      · exact hchosen
      · rename_i best rest hscored
        apply ih
        intro id hid
        rcases List.mem_append.mp hid with hid | hid
        · exact hchosen id hid
        · exact ⟨_, (pick_usable force first_tie hscored).1, (List.mem_singleton.mp hid).symm⟩

theorem greedy_usable : ∀ id ∈ (_greedy usable needs force).1, ∃ m ∈ usable, m.method_id = id :=
  greedyLoop_usable (by simp)

/-! ## Pruning, duels and conflicts -/

/-- Counterfactually remove each method; keep only those some need requires. -/
def _prune (chosen : List String) (catalog : MethodCatalog) (needs : List String) : List String :=
  prune catalog.expected_outputs needs chosen

structure StackScore where
  uncovered : Nat
  effort : Nat
  size : Nat
  ids : List String

def _stack_score (chosen : List String) (catalog : MethodCatalog) (needs : List String) : StackScore where
  uncovered := (needs.dedup.filter fun need => !chosen.any fun m => (catalog.expected_outputs m).contains need).length
  effort := (chosen.map catalog.effort).sum
  size := chosen.length
  ids := sorted chosen

/-- The first of two scores is not the worse one: fewest uncovered needs, lowest effort, fewest methods, lexical. -/
def StackScore.LE (a b : StackScore) : Prop :=
  a.uncovered < b.uncovered ∨ a.uncovered = b.uncovered ∧ (a.effort < b.effort ∨ a.effort = b.effort ∧
    (a.size < b.size ∨ a.size = b.size ∧ ¬ b.ids < a.ids))

instance : DecidableRel StackScore.LE := fun _ _ => inferInstanceAs (Decidable (_ ∨ _))

/-- Of two methods in conflict, the one that takes more effort, and with equal effort the one whose identifier comes
    later. -/
def costlier (catalog : MethodCatalog) (a b : String) : String :=
  if catalog.effort a < catalog.effort b ∨ catalog.effort a = catalog.effort b ∧ a < b then b else a

/-- The losers of the conflicts among the chosen. -/
def _conflicts (chosen : List String) (catalog : MethodCatalog) : List String :=
  sortedSet (chosen.flatMap fun id => ((catalog.conflicts_with id).filter chosen.contains).map (costlier catalog id))

/-- No two of the chosen are in conflict. -/
def ConflictFree (catalog : MethodCatalog) (chosen : List String) : Prop :=
  ∀ a ∈ chosen, ∀ b ∈ chosen, b ∉ catalog.conflicts_with a

variable {a b : String}

theorem costlier_eq_or : costlier catalog a b = a ∨ costlier catalog a b = b := by
  unfold costlier
  split
  · exact .inr rfl
  · exact .inl rfl

theorem costlier_mem_conflicts (ha : a ∈ chosen) (hb : b ∈ chosen) (h : b ∈ catalog.conflicts_with a) :
    costlier catalog a b ∈ _conflicts chosen catalog := by
  unfold _conflicts
  rw [mem_sortedSet, List.mem_flatMap]
  exact ⟨a, ha, List.mem_map_of_mem (List.mem_filter.mpr ⟨h, by simpa using hb⟩)⟩

theorem conflictFree_of_conflicts (h : _conflicts chosen catalog = []) : ConflictFree catalog chosen := by
  intro a ha b hb hconflict
  have hmem := costlier_mem_conflicts ha hb hconflict
  rw [h] at hmem
  cases hmem

theorem conflictFree_without_losers : ConflictFree catalog (chosen.filter (· ∉ _conflicts chosen catalog)) := by
  intro a ha b hb hconflict
  obtain ⟨ha, hawins⟩ := List.mem_filter.mp ha
  obtain ⟨hb, hbwins⟩ := List.mem_filter.mp hb
  have hmem := costlier_mem_conflicts ha hb hconflict
  rcases (costlier_eq_or : costlier catalog a b = a ∨ costlier catalog a b = b) with h | h
  · rw [h] at hmem
    simp [hmem] at hawins
  · rw [h] at hmem
    simp [hmem] at hbwins

/-! ## Selecting -/

/-- What a pass of the router leads to. -/
structure RouterPass where
  primary : List String
  excluded : List ExcludedMethod
  duels : List ShadowDuel

section

variable [Fingerprint]

/-- One pass, before its conflicts are looked at. Planning only: the alternative at the first exact tie is compiled, and
    both stacks are judged by the same acceptance contract. -/
def routerPass (catalog : MethodCatalog) (signature : ProblemSignature) (needs banned : List String) :
    Option RouterPass := do
  let (usable, excluded) ← _screen catalog signature needs banned
  let (first, tie) := _greedy usable needs none
  let primary := _prune first catalog needs
  match if 2 ≤ MAX_SHADOW_STACKS then tie else none with
  | none => some ⟨primary, excluded, []⟩
  | some (_, rival) =>
    let alternative := _prune (_greedy usable needs (some rival)).1 catalog needs
    if sorted alternative = sorted primary then some ⟨primary, excluded, []⟩
    else
      let winner := if (_stack_score primary catalog needs).LE (_stack_score alternative catalog needs) then primary
        else alternative
      some ⟨winner, excluded,
        [{ candidates := [semantic_hash (texts (sorted primary)), semantic_hash (texts (sorted alternative))]
           winner := semantic_hash (texts (sorted winner))
           rule := "fewest_uncovered_needs,lowest_effort,fewest_methods,lexical" }]⟩

/-- The passes of the router, with the number of those that may follow this one: the outcome, and whether its conflicts
    were not resolved by a ban. -/
def routerPasses (catalog : MethodCatalog) (signature : ProblemSignature) (needs : List String) :
    Nat → List String → Option (RouterPass × Bool)
  | more, banned => do
    let pass ← routerPass catalog signature needs banned
    let losers := _conflicts pass.primary catalog
    if losers = [] then some (pass, false)
    else
      match more with
      | 0 => some ({ pass with primary := pass.primary.filter (· ∉ losers) }, true)
      | more + 1 => routerPasses catalog signature needs more (banned ++ losers)

structure Selection where
  methods : List String
  certificates : List MinimalityCertificate
  excluded : List ExcludedMethod
  duels : List ShadowDuel
  unresolved : List String
  needs : List (String × Slot)

/-- What removing a method would lead to. -/
def removalEffect (unique : List String) : String :=
  "Uncovered needs: " ++ String.intercalate ", " unique ++ "; dependents lose these inputs."

/-- The needs to serve. That for a lifecycle methodology is optional: it is dropped when none fits. -/
def framedNeeds (catalog : MethodCatalog) (effective : ProblemSignature) (needs : List (String × Slot)) :
    Option (List (String × Slot)) := do
  if MACRO_NEED ∈ needs.map (·.1) then
    let (usable, _) ← _screen catalog effective (needs.map (·.1)) []
    if usable.any (·.expected_outputs.contains MACRO_NEED) then some needs
    else some (needs.filter (·.1 ≠ MACRO_NEED))
  else some needs

def select_methods (signature : ProblemSignature) (needs : List (String × Slot)) (catalog : MethodCatalog)
    (prereq : Bool) : Option Selection := do
  let effective := _effective signature prereq
  let needs ← framedNeeds catalog effective needs
  let need_set := needs.map (·.1)
  let (pass, conflicting) ← routerPasses catalog effective need_set (MAX_ROUTER_PASSES - 1) []
  let primary := pass.primary
  some
    { methods := primary
      certificates := (sorted primary).map fun id =>
        let unique := sortedSet (neededFor catalog.expected_outputs need_set primary id)
        ⟨id, unique, removalEffect unique⟩
      excluded := pass.excluded
      duels := pass.duels
      unresolved := (if conflicting then ["METHOD_CONFLICT_UNRESOLVED"] else []) ++
        (sortedSet (need_set.filter fun need => !primary.any fun m => (catalog.expected_outputs m).contains need)).map
          ("NO_APPLICABLE_METHOD:" ++ ·)
      needs := needs }

end

/-- A stack of methods that fit the problem, each of them there for some need. -/
structure SoundStack (catalog : MethodCatalog) (signature : ProblemSignature) (needs chosen : List String) : Prop where
  fits : ∀ id ∈ chosen, ∃ method ∈ catalog.methods, method.method_id = id ∧ method.Fits signature
  irredundant : Irredundant catalog.expected_outputs needs chosen

theorem SoundStack.filter (h : SoundStack catalog signature needs chosen) (p : String → Bool) :
    SoundStack catalog signature needs (chosen.filter p) where
  fits id hid := h.fits id (List.mem_of_mem_filter hid)
  irredundant := h.irredundant.filter p

theorem soundStack_prune (h : _screen catalog signature needs banned = some (usable, excluded)) (force : Option String) :
    SoundStack catalog signature needs (_prune (_greedy usable needs force).1 catalog needs) where
  fits id hid := by
    obtain ⟨method, hmethod, heq⟩ := greedy_usable id (prune_subset id hid)
    obtain ⟨hmem, hfits⟩ := screen_fits h method hmethod
    exact ⟨method, hmem, heq, hfits⟩
  irredundant := prune_irredundant

theorem mem_report {x : String} {l : List String} {conflicting : Bool} :
    "NO_APPLICABLE_METHOD:" ++ x ∈ (if conflicting then ["METHOD_CONFLICT_UNRESOLVED"] else []) ++
      l.map ("NO_APPLICABLE_METHOD:" ++ ·) ↔ x ∈ l := by
  have hother : "NO_APPLICABLE_METHOD:" ++ x ∉ (if conflicting then ["METHOD_CONFLICT_UNRESOLVED"] else []) := by
    intro h
    split at h
    · have hchars := congrArg String.toList (List.mem_singleton.mp h)
      simp at hchars
    · cases h
  rw [List.mem_append, or_iff_right hother, List.mem_map]
  constructor
  · rintro ⟨y, hy, heq⟩
    rwa [← (String.append_right_inj _).mp heq]
  · exact fun hx => ⟨x, hx, rfl⟩

theorem mem_unserved {need : String} : need ∈ sortedSet (needs.filter fun need =>
    !chosen.any fun m => (catalog.expected_outputs m).contains need) ↔
      need ∈ needs ∧ ¬ Covered catalog.expected_outputs chosen need := by
  unfold Covered
  simp

section

variable [Fingerprint] {pass : RouterPass} {conflicting : Bool} {more : Nat}

theorem routerPass_sound (h : routerPass catalog signature needs banned = some pass) :
    SoundStack catalog signature needs pass.primary := by
  unfold routerPass at h
  obtain ⟨⟨usable, excluded⟩, hscreen, h⟩ := Option.bind_eq_some_iff.mp h
  dsimp only at h
  split at h
  · obtain rfl := Option.some.inj h
    exact soundStack_prune hscreen none
  · split at h
    · obtain rfl := Option.some.inj h
      exact soundStack_prune hscreen none
    · -- the duel is won by one of two stacks made in the same way
      obtain rfl := Option.some.inj h
      show SoundStack catalog signature needs (ite _ _ _)
      split
      · exact soundStack_prune hscreen none
      · exact soundStack_prune hscreen _

theorem routerPasses_sound (h : routerPasses catalog signature needs more banned = some (pass, conflicting)) :
    SoundStack catalog signature needs pass.primary ∧ ConflictFree catalog pass.primary := by
  induction more generalizing banned with
  | zero =>
    unfold routerPasses at h
    obtain ⟨first, hpass, h⟩ := Option.bind_eq_some_iff.mp h
    dsimp only at h
    split at h
    · rename_i hnone
      simp only [Option.some.injEq, Prod.mk.injEq] at h
      rw [← h.1]
      exact ⟨routerPass_sound hpass, conflictFree_of_conflicts hnone⟩
    · simp only [Option.some.injEq, Prod.mk.injEq] at h
      rw [← h.1]
      exact ⟨(routerPass_sound hpass).filter _, conflictFree_without_losers⟩
  | succ more ih =>
    unfold routerPasses at h
    obtain ⟨first, hpass, h⟩ := Option.bind_eq_some_iff.mp h
    dsimp only at h
    split at h
    · rename_i hnone
      simp only [Option.some.injEq, Prod.mk.injEq] at h
      rw [← h.1]
      exact ⟨routerPass_sound hpass, conflictFree_of_conflicts hnone⟩
    · exact ih h

/-- A usable method covers the need for a lifecycle methodology. -/
def Framed (catalog : MethodCatalog) (effective : ProblemSignature) (needs : List String) : Prop :=
  ∃ usable excluded, _screen catalog effective needs [] = some (usable, excluded) ∧
    ∃ method ∈ usable, MACRO_NEED ∈ method.expected_outputs

/-- A need is reported as one no method serves. -/
def Selection.Reports (selection : Selection) (need : String) : Prop :=
  "NO_APPLICABLE_METHOD:" ++ need ∈ selection.unresolved

/-- What a stack of methods promises for a problem and the needs it was selected for. -/
structure StackContract (catalog : MethodCatalog) (effective : ProblemSignature) (needs : List String)
    (selection : Selection) : Prop where
  /-- No two methods are in conflict. -/
  conflict_free : ConflictFree catalog selection.methods
  /-- Every method applies and nothing speaks against it. -/
  fits : ∀ id ∈ selection.methods, ∃ method ∈ catalog.methods, method.method_id = id ∧ method.Fits effective
  /-- Every method has a certificate that names needs, just those it serves and no other method does. -/
  certified : ∀ id ∈ selection.methods, ∃ certificate ∈ selection.certificates,
    certificate.method_id = id ∧ certificate.necessary_for ≠ [] ∧ ∀ need ∈ certificate.necessary_for,
      need ∈ needs ∧ need ∈ catalog.expected_outputs id ∧
        ∀ other ∈ selection.methods, other ≠ id → need ∉ catalog.expected_outputs other
  /-- A need is reported exactly when no method serves it. -/
  reported : ∀ need ∈ needs, need ≠ MACRO_NEED ∨ Framed catalog effective needs →
    (selection.Reports need ↔ ¬ Covered catalog.expected_outputs selection.methods need)
  /-- The need for a lifecycle methodology is dropped without a report when no usable method serves it. -/
  dropped : ¬ Framed catalog effective needs → ¬ selection.Reports MACRO_NEED

variable {all_needs kept : List (String × Slot)} {prereq : Bool} {selection : Selection}

omit [Fingerprint] in
theorem mem_framedNeeds {need : String} (h : framedNeeds catalog signature all_needs = some kept) :
    need ∈ kept.map (·.1) ↔
      need ∈ all_needs.map (·.1) ∧ (need ≠ MACRO_NEED ∨ Framed catalog signature (all_needs.map (·.1))) := by
  unfold framedNeeds at h
  split at h
  · obtain ⟨⟨usable, excluded⟩, hscreen, h⟩ := Option.bind_eq_some_iff.mp h
    dsimp only at h
    split at h
    · rename_i hframes
      obtain rfl := Option.some.inj h
      have hframed : Framed catalog signature (all_needs.map (·.1)) := by
        obtain ⟨method, hmethod, hserves⟩ := List.any_eq_true.mp hframes
        exact ⟨usable, excluded, hscreen, method, hmethod, by simpa using hserves⟩
      exact (and_iff_left (.inr hframed)).symm
    · rename_i hunframed
      obtain rfl := Option.some.inj h
      have hnot : ¬ Framed catalog signature (all_needs.map (·.1)) := by
        rintro ⟨usable', excluded', hscreen', method, hmethod, hserves⟩
        rw [hscreen] at hscreen'
        obtain ⟨rfl, -⟩ := Prod.mk.injEq .. ▸ Option.some.inj hscreen'
        exact hunframed (List.any_eq_true.mpr ⟨method, hmethod, by simpa using hserves⟩)
      simp only [or_iff_left hnot, List.mem_map, List.mem_filter, decide_eq_true_eq, Prod.exists, exists_eq_right,
        ne_eq, exists_and_right]
  · rename_i hno
    obtain rfl := Option.some.inj h
    refine ⟨fun hneed => ⟨hneed, .inl ?_⟩, And.left⟩
    rintro rfl
    exact hno hneed

/-- **A stack of methods is a conflict-free, irredundant cover** of the needs that are not reported unresolved. -/
theorem select_methods_stack (h : select_methods signature all_needs catalog prereq = some selection) :
    StackContract catalog (_effective signature prereq) (all_needs.map (·.1)) selection := by
  unfold select_methods at h
  obtain ⟨kept, hkept, h⟩ := Option.bind_eq_some_iff.mp h
  obtain ⟨⟨pass, conflicting⟩, hpasses, h⟩ := Option.bind_eq_some_iff.mp h
  obtain rfl := Option.some.inj h
  obtain ⟨hsound, hfree⟩ := routerPasses_sound hpasses
  refine ⟨hfree, hsound.fits, ?_, ?_, ?_⟩
  · intro id hid
    refine ⟨_, List.mem_map_of_mem (mem_sorted.mpr hid), rfl, ?_, ?_⟩
    · rw [ne_eq, Python.sortedSet_eq_nil]
      exact hsound.irredundant id hid
    · intro need hneed
      obtain ⟨hin, hserves, hothers⟩ := mem_neededFor.mp (mem_sortedSet.mp hneed)
      exact ⟨((mem_framedNeeds hkept).mp hin).1, hserves, hothers⟩
  · intro need hneed hcounts
    have hin := (mem_framedNeeds hkept).mpr ⟨hneed, hcounts⟩
    show _ ∈ _ ↔ _
    rw [mem_report, mem_unserved, and_iff_right hin]
  · intro hunframed hreported
    -- the need was dropped, so it is not among those that are looked at
    have hin := (mem_unserved.mp (mem_report.mp hreported)).1
    rcases ((mem_framedNeeds hkept).mp hin).2 with hne | hframed
    · exact hne rfl
    · exact hunframed hframed

end

/-! ## A stack with a prerequisite -/

/-- A method that wants measurements. -/
def controlChart : MethodSpec where
  method_id := "control_chart"
  family := "PROCESS_VARIATION"
  slot := .CONTROL
  applicability_predicates := ["measurement_available==true"]
  expected_outputs := ["control:process_behaviour"]
  effort := 2

def chartCatalog : MethodCatalog := ⟨[controlChart], by decide⟩

/-- Variation was observed, and there are no measurements yet. -/
def unmeasured : ProblemSignature where
  objective := "Steady the process"
  problem_families := ["PROCESS_VARIATION"]
  observations := ["variation_observed"]

def chartNeeds : List (String × Slot) := [("control:process_behaviour", .CONTROL), (MACRO_NEED, .MACRO)]

theorem chart_selection : ∃ selection, @select_methods plainFingerprint unmeasured chartNeeds chartCatalog true = some selection ∧
    selection.methods = [controlChart.method_id] ∧ selection.unresolved = [] := by
  have h : (@select_methods plainFingerprint unmeasured chartNeeds chartCatalog true).map
      (fun selection => (selection.methods, selection.unresolved)) = some ([controlChart.method_id], []) := by decide
  obtain ⟨selection, hselection, heq⟩ := Option.map_eq_some_iff.mp h
  exact ⟨selection, hselection, congrArg Prod.fst heq, congrArg Prod.snd heq⟩

/-- **The prerequisite is assumed, and the methodology is optional.** A method is selected that does not apply to the
    problem as it is, and a need no method serves is not reported. -/
theorem chart_gaps : ∃ selection, @select_methods plainFingerprint unmeasured chartNeeds chartCatalog true = some selection ∧
    controlChart.method_id ∈ selection.methods ∧ ¬ controlChart.Fits unmeasured ∧ MACRO_NEED ∈ chartNeeds.map (·.1) ∧
      ¬ Covered chartCatalog.expected_outputs selection.methods MACRO_NEED ∧ ¬ selection.Reports MACRO_NEED := by
  obtain ⟨selection, hselection, hmethods, hunresolved⟩ := chart_selection
  refine ⟨selection, hselection, ?_, ?_, ?_, ?_, ?_⟩
  · rw [hmethods]
    exact List.mem_singleton.mpr rfl
  · rintro ⟨happlies, -⟩
    exact absurd happlies (by decide)
  · decide
  · rintro ⟨id, hid, hserves⟩
    rw [hmethods, List.mem_singleton] at hid
    rw [hid] at hserves
    exact absurd hserves (by decide)
  · intro hreported
    unfold Selection.Reports at hreported
    rw [hunresolved] at hreported
    cases hreported

/-- The stack keeps what is promised once the measurements are assumed. -/
theorem chart_stack : ∃ selection, @select_methods plainFingerprint unmeasured chartNeeds chartCatalog true = some selection ∧
    StackContract chartCatalog (_effective unmeasured true) (chartNeeds.map (·.1)) selection := by
  obtain ⟨selection, hselection, -⟩ := chart_selection
  exact ⟨selection, hselection, letI := plainFingerprint; select_methods_stack hselection⟩

end Compiled
