import Mathlib.Data.List.Dedup
import Mathlib.Data.List.DropRight
import Mathlib.Data.List.Sort
import Mathlib.Logic.Basic

/-! # Text, as the standard library handles it -/

namespace Python

/-- The characters `str.strip` removes. -/
def isSpace (c : Char) : Bool :=
  let n := c.toNat
  (0x09 ≤ n && n ≤ 0x0D) || (0x1C ≤ n && n ≤ 0x20) || n = 0x85 || n = 0xA0 || n = 0x1680 ||
    (0x2000 ≤ n && n ≤ 0x200A) || n = 0x2028 || n = 0x2029 || n = 0x202F || n = 0x205F || n = 0x3000

/-- `text.strip()` -/
def strip (text : String) : String :=
  String.ofList ((text.toList.dropWhile isSpace).rdropWhile isSpace)

/-- `not text.strip()` -/
def blank (text : String) : Bool := text.toList.all isSpace

/-- The ASCII letters `str.lower` makes of a character, among whatever else: besides
    `A` to `Z`, the Kelvin sign becomes a `k`, and a dotted capital I an `i` that a
    combining dot follows. -/
def lowerLetters (c : Char) : List Char :=
  if c.toNat = 0x212A then ['k']
  else if c.toNat = 0x0130 then ['i', Char.ofNat 0x0307]
  else [c.toLower]

/-- `re.match(r"^[…]{lo,hi}$", text)` for a class of characters. Without `re.MULTILINE`
    a `$` matches at the end of the text, and also before a newline that ends it. -/
def matchesClass (p : Char → Bool) (lo hi : Nat) (text : List Char) : Bool :=
  let whole (cs : List Char) := cs.all p && decide (lo ≤ cs.length ∧ cs.length ≤ hi)
  whole text || (text.getLast? == some '\n' && whole text.dropLast)

theorem matchesClass_iff {p : Char → Bool} {lo hi : Nat} {text : List Char} : matchesClass p lo hi text = true ↔
      ∃ cs e, text = cs ++ e ∧ (∀ c ∈ cs, p c = true) ∧ lo ≤ cs.length ∧ cs.length ≤ hi ∧
        (e = [] ∨ e = ['\n']) := by
  simp only [matchesClass, Bool.or_eq_true, Bool.and_eq_true, List.all_eq_true, decide_eq_true_eq, beq_iff_eq]
  constructor
  · rintro (⟨hp, hlo, hhi⟩ | ⟨hlast, hp, hlo, hhi⟩)
    · exact ⟨text, [], (List.append_nil _).symm, hp, hlo, hhi, .inl rfl⟩
    · refine ⟨text.dropLast, ['\n'], ?_, hp, hlo, hhi, .inr rfl⟩
      exact (List.dropLast_append_getLast? _ hlast).symm
  · rintro ⟨cs, e, rfl, hp, hlo, hhi, rfl | rfl⟩
    · rw [List.append_nil]
      exact .inl ⟨hp, hlo, hhi⟩
    · refine .inr ⟨List.getLast?_concat, ?_⟩
      rw [List.dropLast_concat]
      exact ⟨hp, hlo, hhi⟩

/-- `text.split(sep)` for a separator of one character. -/
def split (sep : Char) : List Char → List (List Char)
  | [] => [[]]
  | c :: text =>
    if c = sep then [] :: split sep text
    else
      match split sep text with
      | [] => [[c]]
      | word :: words => (c :: word) :: words

/-- The maximal runs of characters that satisfy `p`. -/
def runs (p : Char → Bool) (text : List Char) : List (List Char) :=
  (text.splitBy fun a b => p a == p b).filter (·.all p)

/-! ## Sorting -/

/-- `sorted(texts)` -/
def sorted (texts : List String) : List String := texts.insertionSort (· ≤ ·)

/-- `sorted(set(texts))` -/
def sortedSet (texts : List String) : List String := sorted texts.dedup

variable {texts : List String}

variable {t : String}

@[simp] theorem mem_sortedSet : t ∈ sortedSet texts ↔ t ∈ texts := by
  unfold sortedSet sorted
  rw [List.mem_insertionSort, List.mem_dedup]

variable {b a : List String}

theorem sorted_perm (h : a.Perm b) : sorted a = sorted b := by
  have hsorted : ∀ l : List String, (sorted l).Pairwise (· ≤ ·) := List.pairwise_insertionSort _
  refine List.Perm.eq_of_pairwise ?_ (hsorted a) (hsorted b) ?_
  · intro x y _ _ hxy hyx
    exact String.le_antisymm hxy hyx
  · exact (List.perm_insertionSort _ a).trans (h.trans (List.perm_insertionSort _ b).symm)

theorem sortedSet_congr (h : ∀ x, x ∈ a ↔ x ∈ b) : sortedSet a = sortedSet b := by
  apply sorted_perm
  rw [List.perm_ext_iff_of_nodup a.nodup_dedup b.nodup_dedup]
  simpa using h

@[simp] theorem mem_sorted : t ∈ sorted texts ↔ t ∈ texts := by
  unfold sorted
  rw [List.mem_insertionSort]

/-- **Sorting is stable.** What compares equal keeps its order. -/
theorem filter_insertionSort {α : Type*} {r : α → α → Prop} [DecidableRel r] [Std.Total r] [IsTrans α r]
    {p : α → Bool} (hp : ∀ a b, p a = true → p b = true → r a b) (l : List α) :
    (l.insertionSort r).filter p = l.filter p := by
  have hpairs : (l.filter p).Pairwise r := by
    apply List.pairwise_of_forall_mem_list
    intro a ha b hb
    exact hp a b (List.mem_filter.mp ha).2 (List.mem_filter.mp hb).2
  have hsub : (l.filter p).Sublist (l.insertionSort r) := List.sublist_insertionSort hpairs List.filter_sublist
  have hsub' : (l.filter p).Sublist ((l.insertionSort r).filter p) := by
    have := hsub.filter p
    simpa [List.filter_filter] using this
  refine (hsub'.eq_of_length ?_).symm
  exact ((List.perm_insertionSort r l).filter p).length_eq.symm

theorem sortedSet_eq_nil : sortedSet texts = [] ↔ texts = [] := by
  rw [List.eq_nil_iff_forall_not_mem, List.eq_nil_iff_forall_not_mem]
  simp

end Python

/-! # Checks that raise

A function that checks its input raises at the first thing wrong and goes on otherwise. -/

namespace Python

variable {ε : Type*} {α : Type} {c : Prop} [Decidable c] {e : ε}

/-- `if c: raise e` -/
def raiseIf (c : Prop) [Decidable c] (e : ε) : Except ε Unit := if c then .error e else .ok ()

@[simp] theorem raiseIf_eq_ok {u : Unit} : raiseIf c e = .ok u ↔ ¬c := by
  unfold raiseIf
  split <;> simp_all

@[simp] theorem bind_unit_eq_ok {first : Except ε Unit} {rest : Unit → Except ε α} {a : α} :
    (first >>= rest) = .ok a ↔ first = .ok () ∧ rest () = .ok a := by
  cases first with
  | error e =>
    constructor
    · intro h
      cases h
    · rintro ⟨h, -⟩
      cases h
  | ok u =>
    constructor
    · intro h
      exact ⟨rfl, h⟩
    · rintro ⟨-, h⟩
      exact h

/-- `for x in items: check(x)` -/
def checkEach {τ : Type*} (check : τ → Except ε Unit) : List τ → Except ε Unit
  | [] => .ok ()
  | x :: items => do
    check x
    checkEach check items

@[simp] theorem checkEach_eq_ok {τ : Type*} {check : τ → Except ε Unit} {items : List τ} :
    checkEach check items = .ok () ↔ ∀ x ∈ items, check x = .ok () := by
  induction items with
  | nil => simp [checkEach]
  | cons x items ih => rw [checkEach, bind_unit_eq_ok, ih, List.forall_mem_cons]

end Python
