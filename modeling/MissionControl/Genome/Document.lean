import Mathlib.Data.List.Perm.Subperm
import MissionControl.Python.Text
import MissionControl.Python.Dict
import MissionControl.Python.Json

/-! # Genome documents

A document holds the values of a scope by chromosome and key, and the constraints it adds. Flattened, a key is
`chromosome.key`, and a document is built again from its flat values (`document_from_flat`): what it then says is what
the flat values say (`get?_of_document_from_flat`), and it is refused exactly where a key or a value is not one of a
document or there are too many (`document_from_flat_eq_ok`). -/

namespace Genome

open Python (Dict Double Json checkEach raiseIf split)

def GENOME_SCHEMA : String := "amc-vnexus-genome/v1"

def MAX_KEYS_PER_CHROMOSOME : ℕ := 200

def MAX_CONSTRAINTS : ℕ := 200

/-! ## Errors -/

/-- What a refusal says: a text, a text with a value quoted in it, or a text with a list after it. -/
inductive GenomeError where
  | plain (text : String)
  | quoting (before value after : String)
  | listing (before : String) (items : List String)
deriving DecidableEq

/-- The message, given how texts are quoted. -/
def GenomeError.message (repr : String → String) : GenomeError → String
  | plain text => text
  | quoting before value after => before ++ repr value ++ after
  | listing before items => before ++ "[" ++ ", ".intercalate (items.map repr) ++ "]"

/-! ## Values -/

/-- `Union[str, int, float, bool, None]` or a list of texts. -/
inductive Value where
  | null
  | bool (b : Bool)
  | int (i : ℤ)
  | float (x : Double)
  | str (s : String)
  | list (items : List String)
deriving DecidableEq

def Value.json : Value → Json
  | null => .null
  | bool b => .bool b
  | int i => .int i
  | float x => .float x
  | str s => .str s
  | list items => .list (items.map Json.str)

/-- `a == b` -/
def Value.eq (a b : Value) : Bool := Json.eq a.json b.json

/-! ## Chromosomes and keys -/

inductive Chromosome where
  | STRATEGY | VISUAL | VERBAL | EXPERIENCE | PRODUCTION
deriving DecidableEq

def Chromosome.value : Chromosome → String
  | STRATEGY => "strategy"
  | VISUAL => "visual"
  | VERBAL => "verbal"
  | EXPERIENCE => "experience"
  | PRODUCTION => "production"

/-- All of them, sorted by value. -/
def Chromosome.all : List Chromosome := [.EXPERIENCE, .PRODUCTION, .STRATEGY, .VERBAL, .VISUAL]

/-- `Chromosome(value)`, nothing where it raises. -/
def Chromosome.of? (value : String) : Option Chromosome := Chromosome.all.find? fun c => c.value = value

/-- `text.partition(".")`: what is before the first dot and what is after it. -/
def partitionDot (text : String) : String × String :=
  (String.ofList (text.toList.takeWhile (· != '.')), String.ofList (text.toList.dropWhile (· != '.')).tail)

def isKeyLetter (c : Char) : Bool := ('a' ≤ c && c ≤ 'z') || ('0' ≤ c && c ≤ '9') || c == '_'

/-- `[a-z][a-z0-9_]*(\.[a-z0-9_]+){0,5}` -/
def isKeyText (text : List Char) : Bool :=
  match split '.' text with
  | (c :: cs) :: parts =>
    'a' ≤ c && c ≤ 'z' && cs.all isKeyLetter && parts.length ≤ 5 && parts.all fun part => !part.isEmpty && part.all isKeyLetter
  | _ => false

/-- `_KEY.match(key)`. The `$` also matches before a newline that ends the key. -/
def isKey (key : String) : Bool :=
  isKeyText key.toList || (key.toList.getLast? == some '\n' && isKeyText key.toList.dropLast)

/-! ## Constraints -/

inductive ConstraintKind where
  | IMMUTABLE | REQUIRED | ALLOWED_VALUES | RANGE | HEX_COLOR | MIN_CONTRAST
deriving DecidableEq

def ConstraintKind.value : ConstraintKind → String
  | IMMUTABLE => "IMMUTABLE"
  | REQUIRED => "REQUIRED"
  | ALLOWED_VALUES => "ALLOWED_VALUES"
  | RANGE => "RANGE"
  | HEX_COLOR => "HEX_COLOR"
  | MIN_CONTRAST => "MIN_CONTRAST"

inductive Severity where
  | INFO | WARNING | ERROR | BLOCKING
deriving DecidableEq

structure ConstraintFields where
  constraint_id : String
  key : String
  kind : ConstraintKind
  params : Dict String Json := .empty
  severity : Severity := .BLOCKING
  rationale : String := ""

/-- `^[a-z0-9][a-z0-9_.-]{0,79}$`, where the `$` is the end of the text. -/
def isConstraintId (text : String) : Bool :=
  match text.toList with
  | [] => false
  | c :: cs =>
    isKeyLetter c && c != '_' && cs.length ≤ 79 && cs.all fun d => isKeyLetter d || d == '.' || d == '-'

/-- `_key` of a constraint. -/
def constraintKeyOk (key : String) : Bool :=
  (Chromosome.of? (partitionDot key).1).isSome && isKey (partitionDot key).2

/-- `p.get("values")` where it is a list. -/
def ConstraintFields.values (c : ConstraintFields) : List Json :=
  match c.params.get? "values" with
  | some (.list items) => items
  | _ => []

/-- `p.get(name)`, nothing read as `None`. -/
def ConstraintFields.param (c : ConstraintFields) (name : String) : Json := (c.params.get? name).getD .null

/-- `p.get("against")` where it is a text. -/
def ConstraintFields.against? (c : ConstraintFields) : Option String :=
  match c.params.get? "against" with
  | some (.str key) => some key
  | _ => none

/-- `_params` -/
def ConstraintFields.paramsCheck (c : ConstraintFields) : Except GenomeError Unit :=
  match c.kind with
  | .ALLOWED_VALUES =>
    -- a list that is there and empty is refused with one that is not there
    raiseIf (c.values = [] ∨ 100 < c.values.length)
      (.plain "ALLOWED_VALUES needs params.values: a non-empty list (<= 100)")
  | .RANGE =>
    raiseIf (¬((c.param "min").isNumeric ∧ (c.param "max").isNumeric) ∨ (c.param "max").lt (c.param "min"))
      (.plain "RANGE needs numeric params.min <= params.max")
  | .MIN_CONTRAST =>
    raiseIf (c.against?.isNone ∨ ¬((Json.int 1).le (c.param "ratio") ∧ (c.param "ratio").le (.int 21)))
      (.plain "MIN_CONTRAST needs params.against (a key) and params.ratio in [1, 21]")
  | kind => raiseIf (c.params.entries ≠ []) (.plain (kind.value ++ " takes no params"))

def ConstraintFields.check (c : ConstraintFields) : Except GenomeError Unit := do
  raiseIf (¬isConstraintId c.constraint_id)
    (.plain "String should match pattern \x27^[a-z0-9][a-z0-9_.-]\x7b0,79\x7d$\x27")
  raiseIf (¬constraintKeyOk c.key) (.quoting "constraint key " c.key " must be \x27<chromosome>.<key>\x27")
  raiseIf (500 < c.rationale.length) (.plain "String should have at most 500 characters")
  c.paramsCheck

/-- A constraint its checks accept. -/
structure GenomeConstraint extends ConstraintFields where
  checked : toConstraintFields.check = .ok ()

/-- `a == b`, field by field -/
def GenomeConstraint.eq (a b : GenomeConstraint) : Bool :=
  a.constraint_id == b.constraint_id && a.key == b.key && decide (a.kind = b.kind) &&
    Json.eq (.dict a.params.entries) (.dict b.params.entries) && decide (a.severity = b.severity) &&
    a.rationale == b.rationale

/-! ## Documents -/

inductive ProvenanceKind where
  | USER_SUPPLIED | IMPORTED | INFERRED | DEFAULTED | UNRESOLVED
deriving DecidableEq

structure GenomeProvenance where
  key : String
  kind : ProvenanceKind
  source_ref : String := ""
  note : String := ""
  short : source_ref.length ≤ 300 ∧ note.length ≤ 300

structure DocumentFields where
  schema_version : String := GENOME_SCHEMA
  chromosomes : Dict Chromosome (Dict String Value) := .empty
  constraints : List GenomeConstraint := []
  provenance : List GenomeProvenance := []

/-- `chromosome.key` -/
def qualified (c : Chromosome) (key : String) : String := c.value ++ "." ++ key

/-- One turn of the inner loop of `_values`. -/
def entryCheck (c : Chromosome) (entry : String × Value) : Except GenomeError Unit := do
  raiseIf (¬isKey entry.1) (.plain (qualified c entry.1 ++ ": keys are lower-case dotted identifiers"))
  match entry.2 with
  | .float x => raiseIf (x = .nan) (.plain (qualified c entry.1 ++ ": NaN is not a value"))
  | .str s => raiseIf (2000 < s.length) (.plain (qualified c entry.1 ++ ": value longer than 2000 characters"))
  | .list items =>
    raiseIf (50 < items.length ∨ ¬items.all fun x => x.length ≤ 300)
      (.plain (qualified c entry.1 ++ ": lists hold <= 50 strings of <= 300 characters"))
  | _ => .ok ()

/-- One turn of the outer loop of `_values`. -/
def chromosomeCheck (entry : Chromosome × Dict String Value) : Except GenomeError Unit := do
  raiseIf (MAX_KEYS_PER_CHROMOSOME < entry.2.size) (.plain (entry.1.value ++ ": more than 200 keys"))
  checkEach (entryCheck entry.1) entry.2.entries

def DocumentFields.check (d : DocumentFields) : Except GenomeError Unit := do
  raiseIf (d.schema_version ≠ GENOME_SCHEMA) (.quoting "unsupported genome schema " d.schema_version "")
  checkEach chromosomeCheck d.chromosomes.entries
  raiseIf (MAX_CONSTRAINTS < d.constraints.length) (.plain "more than 200 constraints")
  raiseIf (¬(d.constraints.map (·.constraint_id)).Nodup) (.plain "constraint ids must be unique within a document")

/-- A document its checks accept. -/
structure GenomeDocument extends DocumentFields where
  checked : toDocumentFields.check = .ok ()

/-- `GenomeDocument(...)` -/
def GenomeDocument.of (d : DocumentFields) : Except GenomeError GenomeDocument :=
  match h : d.check with
  | .ok () => .ok { d with checked := h }
  | .error e => .error e

/-- The entries of a chromosome, sorted by key, under their flat keys. -/
def flatEntries (chromosomes : Dict Chromosome (Dict String Value)) (c : Chromosome) : List (String × Value) :=
  match chromosomes.get? c with
  | none => []
  | some entries =>
    (entries.entries.insertionSort fun a b => a.1 ≤ b.1).map fun entry => (qualified c entry.1, entry.2)

def DocumentFields.flatten (d : DocumentFields) : Dict String Value :=
  .ofList (Chromosome.all.flatMap (flatEntries d.chromosomes))

/-- One turn of the loop of `document_from_flat`. -/
def addFlat (chromosomes : Dict Chromosome (Dict String Value)) (entry : String × Value) :
    Except GenomeError (Dict Chromosome (Dict String Value)) :=
  let (head, rest) := partitionDot entry.1
  match Chromosome.of? head with
  | none => .error (.quoting "" head " is not a valid Chromosome")
  | some c => .ok (chromosomes.set c (((chromosomes.get? c).getD .empty).set rest entry.2))

def document_from_flat (values : Dict String Value) (constraints : List GenomeConstraint)
    (provenance : List GenomeProvenance) : Except GenomeError GenomeDocument := do
  let chromosomes ← values.entries.foldlM addFlat .empty
  GenomeDocument.of { chromosomes, constraints, provenance }

/-! ## Flat keys -/

variable {c c' : Chromosome} {key k k' : String} {v : Value}

theorem Chromosome.mem_all (c : Chromosome) : c ∈ Chromosome.all := by
  cases c <;> simp [Chromosome.all]

theorem Chromosome.value_inj (h : c.value = c'.value) : c = c' := by
  cases c <;> cases c' <;> first | rfl | simp [Chromosome.value] at h

theorem Chromosome.of?_eq_some {value : String} : Chromosome.of? value = some c ↔ value = c.value := by
  unfold Chromosome.of?
  constructor
  · intro h
    exact (of_decide_eq_true (by simpa using List.find?_some h) : c.value = value).symm
  · rintro rfl
    cases h : Chromosome.all.find? fun c' => c'.value = c.value with
    | none =>
      have := List.find?_eq_none.mp h c c.mem_all
      simp at this
    | some c' =>
      have hvalue : c'.value = c.value := by simpa using List.find?_some h
      rw [Chromosome.value_inj hvalue]

theorem Chromosome.dotless (c : Chromosome) : ∀ d ∈ c.value.toList, (d != '.') = true := by
  cases c <;> simp [Chromosome.value]

theorem partitionDot_qualified (c : Chromosome) (k : String) : partitionDot (qualified c k) = (c.value, k) := by
  have hlist : (qualified c k).toList = c.value.toList ++ '.' :: k.toList := by
    simp [qualified]
  unfold partitionDot
  rw [hlist, List.takeWhile_append_of_pos c.dotless, List.dropWhile_append_of_pos c.dotless]
  simp

theorem qualified_inj (h : qualified c k = qualified c' k') : c = c' ∧ k = k' := by
  have hparts := partitionDot_qualified c k
  rw [h, partitionDot_qualified] at hparts
  exact ⟨Chromosome.value_inj (Prod.mk.inj hparts).1.symm, (Prod.mk.inj hparts).2.symm⟩

theorem eq_of_partitionDot {head : String} (h : partitionDot key = (head, k)) (hne : k ≠ "") : key = head ++ "." ++ k := by
  obtain ⟨rfl, rfl⟩ := Prod.mk.inj h
  apply String.toList_inj.mp
  have hjoin := List.takeWhile_append_dropWhile (p := (· != '.')) (l := key.toList)
  cases hdrop : key.toList.dropWhile (· != '.') with
  | nil => simp [hdrop] at hne
  | cons d rest =>
    have hd : d = '.' := by
      have := List.head_dropWhile_not (p := (· != '.')) (l := key.toList) (by simp [hdrop])
      simpa [hdrop] using this
    rw [hdrop, hd] at hjoin
    simpa using hjoin.symm

theorem eq_qualified (h : partitionDot key = (c.value, k)) (hne : k ≠ "") : key = qualified c k :=
  eq_of_partitionDot h hne

theorem isKey_empty : isKey "" = false := rfl

theorem ne_of_isKey (h : isKey k = true) : k ≠ "" := by
  rintro rfl
  rw [isKey_empty] at h
  cases h

/-! ## From flat values to chromosomes -/

/-- What a document holds under a chromosome and a key. -/
def valueAt (chromosomes : Dict Chromosome (Dict String Value)) (c : Chromosome) (k : String) : Option Value :=
  (chromosomes.get? c).bind (·.get? k)

variable {chromosomes chromosomes' : Dict Chromosome (Dict String Value)} {entry : String × Value}
  {entries : List (String × Value)}

theorem addFlat_spec (h : addFlat chromosomes entry = .ok chromosomes') : ∃ c, (partitionDot entry.1).1 = c.value ∧
    ∀ c' k, valueAt chromosomes' c' k =
      if c' = c ∧ k = (partitionDot entry.1).2 then some entry.2 else valueAt chromosomes c' k := by
  unfold addFlat at h
  dsimp only at h
  split at h
  · cases h
  · rename_i c hc
    cases h
    refine ⟨c, Chromosome.of?_eq_some.mp hc, ?_⟩
    intro c' k
    unfold valueAt
    rw [Dict.get?_set]
    by_cases hcc : c' = c
    · subst hcc
      simp only [↓reduceIte, true_and, Option.bind_some, Dict.get?_set]
      split
      · rfl
      · cases chromosomes.get? c' with
        | none => rfl
        | some entries => rfl
    · simp [hcc]

theorem addFlat_ok (h : (Chromosome.of? (partitionDot entry.1).1).isSome) :
    ∃ chromosomes', addFlat chromosomes entry = .ok chromosomes' := by
  obtain ⟨c, hc⟩ := Option.isSome_iff_exists.mp h
  unfold addFlat
  simp only [hc]
  exact ⟨_, rfl⟩

theorem foldlM_addFlat_cons (h : (entry :: entries).foldlM addFlat chromosomes = .ok chromosomes') :
    ∃ mid, addFlat chromosomes entry = .ok mid ∧ entries.foldlM addFlat mid = .ok chromosomes' := by
  rw [List.foldlM_cons] at h
  cases hfirst : addFlat chromosomes entry with
  | error e =>
    rw [hfirst] at h
    cases h
  | ok mid =>
    rw [hfirst] at h
    exact ⟨mid, rfl, h⟩

theorem foldlM_addFlat_of_not_mem (h : entries.foldlM addFlat chromosomes = .ok chromosomes')
    (hnot : ∀ entry ∈ entries, partitionDot entry.1 ≠ (c.value, k)) :
    valueAt chromosomes' c k = valueAt chromosomes c k := by
  induction entries generalizing chromosomes with
  | nil =>
    cases h
    rfl
  | cons entry entries ih =>
    obtain ⟨mid, hfirst, hrest⟩ := foldlM_addFlat_cons h
    rw [List.forall_mem_cons] at hnot
    obtain ⟨c₀, hc₀, hmid⟩ := addFlat_spec hfirst
    rw [ih hrest hnot.2, hmid, if_neg]
    rintro ⟨rfl, rfl⟩
    exact hnot.1 (Prod.ext hc₀ rfl)

theorem foldlM_addFlat_sound (h : entries.foldlM addFlat chromosomes = .ok chromosomes')
    (hv : valueAt chromosomes' c k = some v) :
    valueAt chromosomes c k = some v ∨ ∃ key, (key, v) ∈ entries ∧ partitionDot key = (c.value, k) := by
  induction entries generalizing chromosomes with
  | nil =>
    cases h
    exact .inl hv
  | cons entry entries ih =>
    obtain ⟨mid, hfirst, hrest⟩ := foldlM_addFlat_cons h
    rcases ih hrest with hmid | ⟨key, hmem, hkey⟩
    · obtain ⟨c₀, hc₀, hspec⟩ := addFlat_spec hfirst
      rw [hspec] at hmid
      split at hmid
      · rename_i heq
        obtain ⟨rfl, rfl⟩ := heq
        obtain rfl := Option.some.inj hmid
        exact .inr ⟨entry.1, List.mem_cons_self, Prod.ext hc₀ rfl⟩
      · exact .inl hmid
    · exact .inr ⟨key, List.mem_cons_of_mem _ hmem, hkey⟩

theorem foldlM_addFlat_complete (hnodup : (entries.map Prod.fst).Nodup)
    (h : entries.foldlM addFlat chromosomes = .ok chromosomes') (hmem : (qualified c k, v) ∈ entries) (hne : k ≠ "") :
    valueAt chromosomes' c k = some v := by
  induction entries generalizing chromosomes with
  | nil => cases hmem
  | cons entry entries ih =>
    obtain ⟨mid, hfirst, hrest⟩ := foldlM_addFlat_cons h
    rw [List.map_cons, List.nodup_cons] at hnodup
    rcases List.mem_cons.mp hmem with rfl | hmem
    · obtain ⟨c₀, hc₀, hspec⟩ := addFlat_spec hfirst
      rw [partitionDot_qualified] at hc₀ hspec
      obtain rfl := Chromosome.value_inj hc₀
      rw [foldlM_addFlat_of_not_mem hrest, hspec, if_pos ⟨rfl, rfl⟩]
      -- another entry with these parts would have the same key
      intro entry hentry hparts
      apply hnodup.1
      rw [← eq_qualified hparts hne]
      exact List.mem_map.mpr ⟨entry, hentry, rfl⟩
    · exact ih hnodup.2 hrest hmem

theorem foldlM_addFlat_isSome (h : entries.foldlM addFlat chromosomes = .ok chromosomes')
    (hv : (valueAt chromosomes c k).isSome) : (valueAt chromosomes' c k).isSome := by
  induction entries generalizing chromosomes with
  | nil =>
    cases h
    exact hv
  | cons entry entries ih =>
    obtain ⟨mid, hfirst, hrest⟩ := foldlM_addFlat_cons h
    obtain ⟨c₀, -, hspec⟩ := addFlat_spec hfirst
    apply ih hrest
    rw [hspec]
    split
    · rfl
    · exact hv

theorem foldlM_addFlat_parts (h : entries.foldlM addFlat chromosomes = .ok chromosomes') (hmem : (key, v) ∈ entries) :
    ∃ c, (partitionDot key).1 = c.value ∧ (valueAt chromosomes' c (partitionDot key).2).isSome := by
  induction entries generalizing chromosomes with
  | nil => cases hmem
  | cons entry entries ih =>
    obtain ⟨mid, hfirst, hrest⟩ := foldlM_addFlat_cons h
    rcases List.mem_cons.mp hmem with rfl | hmem
    · obtain ⟨c, hc, hspec⟩ := addFlat_spec hfirst
      refine ⟨c, hc, foldlM_addFlat_isSome hrest ?_⟩
      rw [hspec, if_pos ⟨rfl, rfl⟩]
      rfl
    · exact ih hrest hmem

theorem foldlM_addFlat_ok (h : ∀ entry ∈ entries, (Chromosome.of? (partitionDot entry.1).1).isSome)
    (chromosomes : Dict Chromosome (Dict String Value)) :
    ∃ chromosomes', entries.foldlM addFlat chromosomes = .ok chromosomes' := by
  induction entries generalizing chromosomes with
  | nil => exact ⟨chromosomes, rfl⟩
  | cons entry entries ih =>
    rw [List.forall_mem_cons] at h
    obtain ⟨mid, hmid⟩ : ∃ mid, addFlat chromosomes entry = .ok mid := addFlat_ok h.1
    obtain ⟨chromosomes', hrest⟩ := ih h.2 mid
    refine ⟨chromosomes', ?_⟩
    rw [List.foldlM_cons, hmid]
    exact hrest

/-! ## What the checks accept -/

/-- A value of a document. -/
def ValueOk : Value → Prop
  | .float x => x ≠ .nan
  | .str s => s.length ≤ 2000
  | .list items => items.length ≤ 50 ∧ ∀ x ∈ items, x.length ≤ 300
  | _ => True

theorem entryCheck_eq_ok : entryCheck c entry = .ok () ↔ isKey entry.1 = true ∧ ValueOk entry.2 := by
  obtain ⟨key, v⟩ := entry
  unfold entryCheck
  rw [Python.bind_unit_eq_ok, Python.raiseIf_eq_ok, not_not]
  apply and_congr_right
  intro _
  cases v with
  | null => simp [ValueOk]
  | bool b => simp [ValueOk]
  | int i => simp [ValueOk]
  | float x => simp [ValueOk]
  | str s => simp [ValueOk]
  | list items => simp [ValueOk]

theorem chromosomeCheck_eq_ok {entries : Dict String Value} : chromosomeCheck (c, entries) = .ok () ↔
    entries.size ≤ MAX_KEYS_PER_CHROMOSOME ∧ ∀ k v, entries.get? k = some v → isKey k = true ∧ ValueOk v := by
  unfold chromosomeCheck
  rw [Python.bind_unit_eq_ok, Python.raiseIf_eq_ok, Python.checkEach_eq_ok, not_lt]
  apply and_congr_right
  intro _
  constructor
  · intro h k v hv
    exact entryCheck_eq_ok.mp (h (k, v) (Dict.get?_eq_some.mp hv))
  · rintro h ⟨k, v⟩ hmem
    exact entryCheck_eq_ok.mpr (h k v (Dict.get?_eq_some.mpr hmem))

/-- What the checks of a document come to. -/
structure Accepted (d : DocumentFields) : Prop where
  schema : d.schema_version = GENOME_SCHEMA
  keys : ∀ c entries, d.chromosomes.get? c = some entries → entries.size ≤ MAX_KEYS_PER_CHROMOSOME
  values : ∀ c k v, valueAt d.chromosomes c k = some v → isKey k = true ∧ ValueOk v
  constraints : d.constraints.length ≤ MAX_CONSTRAINTS
  ids : (d.constraints.map (·.constraint_id)).Nodup

variable {d : DocumentFields}

theorem check_eq_ok : d.check = .ok () ↔ Accepted d := by
  have hchromosomes : (∀ entry ∈ d.chromosomes.entries, chromosomeCheck entry = .ok ()) ↔
      (∀ c entries, d.chromosomes.get? c = some entries → entries.size ≤ MAX_KEYS_PER_CHROMOSOME) ∧
        ∀ c k v, valueAt d.chromosomes c k = some v → isKey k = true ∧ ValueOk v := by
    constructor
    · intro h
      constructor
      · intro c entries hc
        exact (chromosomeCheck_eq_ok.mp (h (c, entries) (Dict.get?_eq_some.mp hc))).1
      · intro c k v hv
        obtain ⟨entries, hc, hk⟩ := Option.bind_eq_some_iff.mp hv
        exact (chromosomeCheck_eq_ok.mp (h (c, entries) (Dict.get?_eq_some.mp hc))).2 k v hk
    · rintro ⟨hkeys, hvalues⟩ ⟨c, entries⟩ hmem
      have hc := Dict.get?_eq_some.mpr hmem
      refine chromosomeCheck_eq_ok.mpr ⟨hkeys c entries hc, ?_⟩
      intro k v hk
      exact hvalues c k v (Option.bind_eq_some_iff.mpr ⟨entries, hc, hk⟩)
  unfold DocumentFields.check
  rw [Python.bind_unit_eq_ok, Python.bind_unit_eq_ok, Python.bind_unit_eq_ok, Python.raiseIf_eq_ok,
    Python.checkEach_eq_ok, Python.raiseIf_eq_ok, Python.raiseIf_eq_ok, hchromosomes, not_not, not_lt, not_not]
  constructor
  · rintro ⟨hschema, ⟨hkeys, hvalues⟩, hconstraints, hids⟩
    exact ⟨hschema, hkeys, hvalues, hconstraints, hids⟩
  · rintro ⟨hschema, hkeys, hvalues, hconstraints, hids⟩
    exact ⟨hschema, ⟨hkeys, hvalues⟩, hconstraints, hids⟩

theorem GenomeDocument.accepted (doc : GenomeDocument) : Accepted doc.toDocumentFields := check_eq_ok.mp doc.checked

theorem GenomeDocument.of_eq_ok {doc : GenomeDocument} :
    GenomeDocument.of d = .ok doc ↔ doc.toDocumentFields = d := by
  unfold GenomeDocument.of
  constructor
  · intro h
    split at h
    · cases h
      rfl
    · cases h
  · rintro rfl
    split
    · rfl
    · rename_i e he
      rw [doc.checked] at he
      cases he

theorem GenomeDocument.of_ok (h : Accepted d) : ∃ doc, GenomeDocument.of d = .ok doc :=
  ⟨{ d with checked := check_eq_ok.mpr h }, GenomeDocument.of_eq_ok.mpr rfl⟩

/-! ## What a flattened document holds -/

theorem mem_flatEntries : (key, v) ∈ flatEntries chromosomes c ↔
    ∃ k, key = qualified c k ∧ valueAt chromosomes c k = some v := by
  unfold flatEntries valueAt
  cases chromosomes.get? c with
  | none => simp
  | some entries =>
    simp only [List.mem_map, List.mem_insertionSort, Option.bind_some, Prod.mk.injEq]
    constructor
    · rintro ⟨⟨k, v⟩, hmem, rfl, rfl⟩
      exact ⟨k, rfl, Dict.get?_eq_some.mpr hmem⟩
    · rintro ⟨k, rfl, hk⟩
      exact ⟨(k, v), Dict.get?_eq_some.mp hk, rfl, rfl⟩

theorem nodup_flatEntries (chromosomes : Dict Chromosome (Dict String Value)) (c : Chromosome) :
    ((flatEntries chromosomes c).map Prod.fst).Nodup := by
  unfold flatEntries
  cases chromosomes.get? c with
  | none => exact List.nodup_nil
  | some entries =>
    have hsorted : ((entries.entries.insertionSort fun a b => a.1 ≤ b.1).map Prod.fst).Nodup :=
      ((List.perm_insertionSort _ _).map _).nodup_iff.mpr entries.nodup
    show (((entries.entries.insertionSort fun a b => a.1 ≤ b.1).map fun entry =>
      (qualified c entry.1, entry.2)).map Prod.fst).Nodup
    rw [List.map_map, show (Prod.fst ∘ fun entry : String × Value => (qualified c entry.1, entry.2)) =
      qualified c ∘ Prod.fst from rfl, ← List.map_map]
    exact hsorted.map fun k k' hkk => (qualified_inj hkk).2

theorem nodup_flattened (chromosomes : Dict Chromosome (Dict String Value)) :
    ((Chromosome.all.flatMap (flatEntries chromosomes)).map Prod.fst).Nodup := by
  rw [List.map_flatMap, List.nodup_flatMap]
  constructor
  · intro c _
    exact nodup_flatEntries chromosomes c
  · have hall : Chromosome.all.Nodup := by decide
    apply hall.imp
    intro c c' hne key hc hc'
    obtain ⟨⟨key, v⟩, hmem, rfl⟩ := List.mem_map.mp hc
    obtain ⟨⟨key', v'⟩, hmem', hkey⟩ := List.mem_map.mp hc'
    obtain ⟨k, rfl, -⟩ := mem_flatEntries.mp hmem
    obtain ⟨k', rfl, -⟩ := mem_flatEntries.mp hmem'
    exact hne (qualified_inj hkey).1.symm

/-- **A flattened document** holds each value under its chromosome and key. -/
theorem get?_flatten : d.flatten.get? key = some v ↔
    ∃ c k, key = qualified c k ∧ valueAt d.chromosomes c k = some v := by
  unfold DocumentFields.flatten
  rw [Dict.get?_ofList (nodup_flattened _), List.mem_flatMap]
  constructor
  · rintro ⟨c, -, hmem⟩
    obtain ⟨k, hkey, hv⟩ := mem_flatEntries.mp hmem
    exact ⟨c, k, hkey, hv⟩
  · rintro ⟨c, k, hkey, hv⟩
    exact ⟨c, c.mem_all, mem_flatEntries.mpr ⟨k, hkey, hv⟩⟩

@[simp] theorem get?_flatten_qualified : d.flatten.get? (qualified c k) = valueAt d.chromosomes c k := by
  apply Option.ext
  intro v
  rw [get?_flatten]
  constructor
  · rintro ⟨c', k', hkey, hv⟩
    obtain ⟨rfl, rfl⟩ := qualified_inj hkey
    exact hv
  · intro hv
    exact ⟨c, k, rfl, hv⟩

/-! ## Documents from flat values -/

/-- What can be held under a flat key. -/
def FlatOk (key : String) (v : Value) : Prop := ∃ c k, key = qualified c k ∧ isKey k = true ∧ ValueOk v

/-- The keys of a chromosome. -/
def keysOf (c : Chromosome) (values : Dict String Value) : List String :=
  values.keys.filter fun key => (partitionDot key).1 = c.value

variable {values values' : Dict String Value} {constraints : List GenomeConstraint} {provenance : List GenomeProvenance}
  {doc : GenomeDocument}

theorem flatOk_of_flatten (doc : GenomeDocument) (h : doc.flatten.get? key = some v) : FlatOk key v := by
  obtain ⟨c, k, hkey, hv⟩ := get?_flatten.mp h
  exact ⟨c, k, hkey, doc.accepted.values c k v hv⟩

theorem document_from_flat_eq_ok (h : document_from_flat values constraints provenance = .ok doc) :
    values.entries.foldlM addFlat .empty = .ok doc.chromosomes ∧ doc.constraints = constraints ∧
      doc.provenance = provenance := by
  unfold document_from_flat at h
  cases hfold : values.entries.foldlM addFlat .empty with
  | error e =>
    rw [hfold] at h
    cases h
  | ok chromosomes =>
    rw [hfold] at h
    have heq := GenomeDocument.of_eq_ok.mp h
    rw [heq]
    exact ⟨rfl, rfl, rfl⟩

/-- **A document built from flat values** holds them. -/
theorem get?_of_document_from_flat (h : document_from_flat values constraints provenance = .ok doc) (key : String) :
    doc.flatten.get? key = values.get? key := by
  obtain ⟨hfold, -, -⟩ := document_from_flat_eq_ok h
  apply Option.ext
  intro v
  rw [get?_flatten]
  constructor
  · rintro ⟨c, k, rfl, hv⟩
    have hkey := (doc.accepted.values c k v hv).1
    rcases foldlM_addFlat_sound hfold hv with hempty | ⟨key, hmem, hparts⟩
    · cases hempty
    · rw [← eq_qualified hparts (ne_of_isKey hkey)]
      exact Dict.get?_eq_some.mpr hmem
  · intro hv
    have hmem := Dict.get?_eq_some.mp hv
    obtain ⟨c, hc, hsome⟩ := foldlM_addFlat_parts hfold hmem
    obtain ⟨v', hv'⟩ := Option.isSome_iff_exists.mp hsome
    have hne := ne_of_isKey (doc.accepted.values c _ v' hv').1
    have hkey : key = qualified c (partitionDot key).2 := eq_qualified (Prod.ext hc rfl) hne
    refine ⟨c, (partitionDot key).2, hkey, ?_⟩
    apply foldlM_addFlat_complete values.nodup hfold _ hne
    rw [← hkey]
    exact hmem

/-- What can be held, in a number of keys that can be held. -/
structure Fits (values : Dict String Value) : Prop where
  flat : ∀ key v, values.get? key = some v → FlatOk key v
  few : ∀ c, (keysOf c values).length ≤ MAX_KEYS_PER_CHROMOSOME

theorem size_chromosome (hheld : ∀ c k v, valueAt chromosomes c k = some v ↔ values.get? (qualified c k) = some v)
    (hkeys : ∀ key v, values.get? key = some v → ∃ c k, key = qualified c k) {entries : Dict String Value}
    (hc : chromosomes.get? c = some entries) : entries.size = (keysOf c values).length := by
  have hat : ∀ k, valueAt chromosomes c k = entries.get? k := by
    intro k
    unfold valueAt
    rw [hc]
    rfl
  have hperm : (entries.keys.map (qualified c)).Perm (keysOf c values) := by
    have hnodup : (entries.keys.map (qualified c)).Nodup :=
      entries.nodup_keys.map fun k k' hkk => (qualified_inj hkk).2
    have hnodup' : (keysOf c values).Nodup := values.nodup_keys.filter _
    refine (List.perm_ext_iff_of_nodup hnodup hnodup').mpr ?_
    intro key
    unfold keysOf
    rw [List.mem_map, List.mem_filter, decide_eq_true_eq]
    constructor
    · rintro ⟨k, hk, rfl⟩
      obtain ⟨v, hv⟩ := Dict.mem_keys.mp hk
      refine ⟨Dict.mem_keys.mpr ⟨v, (hheld c k v).mp (by rw [hat, hv])⟩, ?_⟩
      rw [partitionDot_qualified]
    · rintro ⟨hmem, hhead⟩
      obtain ⟨v, hv⟩ := Dict.mem_keys.mp hmem
      obtain ⟨c', k, rfl⟩ := hkeys key v hv
      rw [partitionDot_qualified] at hhead
      obtain rfl := Chromosome.value_inj hhead
      exact ⟨k, Dict.mem_keys.mpr ⟨v, by rw [← hat]; exact (hheld c' k v).mpr hv⟩, rfl⟩
  rw [← Dict.length_keys, ← List.length_map (qualified c)]
  exact hperm.length_eq

theorem Fits.mono (hle : ∀ k v, values.get? k = some v → values'.get? k = some v) (h : Fits values') : Fits values := by
  constructor
  · intro key v hv
    exact h.flat key v (hle key v hv)
  · intro c
    have hsub : keysOf c values ⊆ keysOf c values' := by
      intro key hkey
      obtain ⟨hmem, hhead⟩ := List.mem_filter.mp hkey
      obtain ⟨v, hv⟩ := Dict.mem_keys.mp hmem
      exact List.mem_filter.mpr ⟨Dict.mem_keys.mpr ⟨v, hle key v hv⟩, hhead⟩
    have hnodup : (keysOf c values).Nodup := values.nodup_keys.filter _
    exact (List.subperm_of_subset hnodup hsub).length_le.trans (h.few c)

theorem Fits.congr (hget : ∀ k, values.get? k = values'.get? k) (h : Fits values') : Fits values :=
  h.mono fun k v hv => by rwa [← hget]

/-- **A flattened document fits.** -/
theorem fits_flatten (doc : GenomeDocument) : Fits doc.flatten := by
  have hflat : ∀ key v, doc.flatten.get? key = some v → FlatOk key v := fun key v => flatOk_of_flatten doc
  refine ⟨hflat, ?_⟩
  intro c
  cases hc : doc.chromosomes.get? c with
  | none =>
    -- a key of the chromosome would be held there
    have hnil : keysOf c doc.flatten = [] := by
      apply List.eq_nil_iff_forall_not_mem.mpr
      intro key hmem
      obtain ⟨hkey, hhead⟩ := List.mem_filter.mp hmem
      obtain ⟨v, hv⟩ := Dict.mem_keys.mp hkey
      obtain ⟨c', k, rfl, -⟩ := hflat key v hv
      rw [partitionDot_qualified, decide_eq_true_eq] at hhead
      obtain rfl := Chromosome.value_inj hhead
      rw [get?_flatten_qualified, valueAt, hc] at hv
      cases hv
    rw [hnil]
    exact Nat.zero_le _
  | some entries =>
    have hsize : entries.size = (keysOf c doc.flatten).length := by
      apply size_chromosome _ _ hc
      · intro c k v
        rw [get?_flatten_qualified]
      · intro key v hv
        obtain ⟨c, k, hkey, -⟩ := hflat key v hv
        exact ⟨c, k, hkey⟩
    rw [← hsize]
    exact doc.accepted.keys c entries hc

theorem fits_of_document_from_flat (h : document_from_flat values constraints provenance = .ok doc) : Fits values :=
  (fits_flatten doc).congr fun k => (get?_of_document_from_flat h k).symm

/-- **Flat values that fit make a document.** -/
theorem document_from_flat_ok (h : Fits values) (hfew : constraints.length ≤ MAX_CONSTRAINTS)
    (hids : (constraints.map (·.constraint_id)).Nodup) :
    ∃ doc, document_from_flat values constraints provenance = .ok doc := by
  have hheads : ∀ entry ∈ values.entries, (Chromosome.of? (partitionDot entry.1).1).isSome := by
    rintro ⟨key, v⟩ hmem
    obtain ⟨c, k, rfl, -⟩ := h.flat key v (Dict.get?_eq_some.mpr hmem)
    rw [partitionDot_qualified, Chromosome.of?_eq_some.mpr rfl]
    rfl
  obtain ⟨chromosomes, hfold⟩ := foldlM_addFlat_ok hheads .empty
  have hheld : ∀ c k v, valueAt chromosomes c k = some v ↔ values.get? (qualified c k) = some v := by
    intro c k v
    constructor
    · intro hv
      rcases foldlM_addFlat_sound hfold hv with hempty | ⟨key, hmem, hparts⟩
      · cases hempty
      · have hget := Dict.get?_eq_some.mpr hmem
        obtain ⟨c', k', rfl, -⟩ := h.flat key v hget
        rw [partitionDot_qualified] at hparts
        obtain ⟨hc, rfl⟩ := Prod.mk.inj hparts
        obtain rfl := Chromosome.value_inj hc
        exact hget
    · intro hv
      obtain ⟨c', k', hkey, hisKey, -⟩ := h.flat _ v hv
      obtain ⟨rfl, rfl⟩ := qualified_inj hkey
      exact foldlM_addFlat_complete values.nodup hfold (Dict.get?_eq_some.mp hv) (ne_of_isKey hisKey)
  have haccepted : Accepted { chromosomes, constraints, provenance } := by
    constructor
    · rfl
    · intro c entries hc
      rw [size_chromosome hheld _ hc]
      · exact h.few c
      · intro key v hv
        obtain ⟨c, k, hkey, -⟩ := h.flat key v hv
        exact ⟨c, k, hkey⟩
    · intro c k v hv
      obtain ⟨c', k', hkey, hok⟩ := h.flat _ v ((hheld c k v).mp hv)
      obtain ⟨rfl, rfl⟩ := qualified_inj hkey
      exact hok
    · exact hfew
    · exact hids
  obtain ⟨doc, hdoc⟩ := GenomeDocument.of_ok haccepted
  refine ⟨doc, ?_⟩
  unfold document_from_flat
  rw [hfold]
  exact hdoc

/-- **When flat values make a document.** -/
theorem document_from_flat_isOk : (∃ doc, document_from_flat values constraints provenance = .ok doc) ↔
    Fits values ∧ constraints.length ≤ MAX_CONSTRAINTS ∧ (constraints.map (·.constraint_id)).Nodup := by
  constructor
  · rintro ⟨doc, h⟩
    obtain ⟨-, hconstraints, -⟩ := document_from_flat_eq_ok h
    have haccepted := doc.accepted
    exact ⟨fits_of_document_from_flat h, hconstraints ▸ haccepted.constraints, hconstraints ▸ haccepted.ids⟩
  · rintro ⟨hfits, hfew, hids⟩
    exact document_from_flat_ok hfits hfew hids

/-- **Documents and flat values**: the flat values of a document make a document that holds the same, and flat values make
    one exactly if they fit, which then flattens to them. -/
theorem flat_round_trip :
    (∀ doc : GenomeDocument, ∃ doc', document_from_flat doc.flatten doc.constraints doc.provenance = .ok doc' ∧
      doc'.constraints = doc.constraints ∧ doc'.provenance = doc.provenance ∧
        ∀ c k, valueAt doc'.chromosomes c k = valueAt doc.chromosomes c k) ∧
    ∀ values constraints provenance, ((∃ doc, document_from_flat values constraints provenance = .ok doc) ↔
      Fits values ∧ constraints.length ≤ MAX_CONSTRAINTS ∧ (constraints.map (·.constraint_id)).Nodup) ∧
        ∀ doc, document_from_flat values constraints provenance = .ok doc →
          ∀ key, doc.flatten.get? key = values.get? key := by
  constructor
  · intro doc
    have haccepted := doc.accepted
    obtain ⟨doc', h⟩ := document_from_flat_ok (fits_flatten doc) haccepted.constraints haccepted.ids
    obtain ⟨-, hconstraints, hprovenance⟩ := document_from_flat_eq_ok h
    refine ⟨doc', h, hconstraints, hprovenance, fun c k => ?_⟩
    rw [← get?_flatten_qualified, ← get?_flatten_qualified, get?_of_document_from_flat h]
  · intro values constraints provenance
    exact ⟨document_from_flat_isOk, fun doc h => get?_of_document_from_flat h⟩

end Genome
