import MissionControl.Canonical.Injectivity

/-! # The TypeScript twin

`packages/canonical` encodes the same protocol for JavaScript values. A value
there is not the value here: a number does not say whether it was an integer, a
string is its UTF-16 units, a mapping lists its entries in its own order. `python`
is the value of the other runtime with the same data, and the main result is that
both write the same bytes for it. -/

namespace Canonical

open Encoding

/-! ## Values -/

/-- A `number`. A finite one is kept as its shortest decimal, which is what
    `toExponential` and `toString` print; it is integral when that decimal is. -/
inductive TsNumber where
  | nan
  | infinite (negative : Bool)
  | finite (f : PyFloat)

/-- A key of a `Map`, where any value may stand. -/
inductive TsKey where
  | string (units : List UInt16)
  | other

/-- What `encode` may be handed. A plain object and a `Map` are both their
    entries, in the order the runtime enumerates them. -/
inductive TsValue where
  | null
  | boolean (b : Bool)
  | number (x : TsNumber)
  | bigint (n : Int)
  | string (units : List UInt16)
  | bytes (b : List UInt8)
  | canonicalFloat (x : TsNumber)
  | array (items : List TsValue)
  | mapping (entries : List (TsKey × TsValue))
  | unsupported (type : String)

namespace TsValue

@[induction_eliminator]
theorem induct {motive : TsValue → Prop} (null : motive .null)
    (boolean : ∀ b, motive (.boolean b)) (number : ∀ x, motive (.number x))
    (bigint : ∀ n, motive (.bigint n)) (string : ∀ u, motive (.string u))
    (bytes : ∀ b, motive (.bytes b)) (canonicalFloat : ∀ x, motive (.canonicalFloat x))
    (array : ∀ items, (∀ v ∈ items, motive v) → motive (.array items))
    (mapping : ∀ entries, (∀ kv ∈ entries, motive kv.2) → motive (.mapping entries))
    (unsupported : ∀ type, motive (.unsupported type)) : ∀ v, motive v :=
  @TsValue.rec motive (fun items => ∀ v ∈ items, motive v)
    (fun entries => ∀ kv ∈ entries, motive kv.2) (fun kv => motive kv.2)
    null boolean number bigint string bytes canonicalFloat (fun items h => array items h)
    (fun entries h => mapping entries h) unsupported
    (by simp)
    (fun v items hv h w hw => by
      rcases List.mem_cons.mp hw with rfl | hw
      · exact hv
      · exact h w hw)
    (by simp)
    (fun kv entries hkv h w hw => by
      rcases List.mem_cons.mp hw with rfl | hw
      · exact hkv
      · exact h w hw)
    (fun _ _ h => h)

end TsValue

/-! ## Numbers -/

def MAX_SAFE_INTEGER : Nat := 2 ^ 53 - 1

namespace TsNumber

def isFinite : TsNumber → Bool
  | .finite _ => true
  | _ => false

def isInteger : TsNumber → Bool
  | .finite f => decide (0 ≤ f.exponent)
  | _ => false

def isSafeInteger : TsNumber → Bool
  | .finite f =>
    decide (0 ≤ f.exponent ∧ f.coefficient * 10 ^ f.exponent.toNat ≤ MAX_SAFE_INTEGER)
  | _ => false

end TsNumber

/-- `value.toExponential()`: one digit before the point and a signed exponent. -/
def toExponential (f : PyFloat) : List Char :=
  let ds := digits f.coefficient
  let exponent : Int := f.exponent + (ds.length - 1)
  (if f.negative ∧ f.coefficient ≠ 0 then ['-'] else []) ++
    (if ds.length = 1 then ds else ds.take 1 ++ '.' :: ds.drop 1) ++
    'e' :: (if 0 ≤ exponent then '+' else '-') :: digits exponent.natAbs

/-- `Number(text)` of a signed decimal integer. -/
def signedNumber : List Char → Int
  | '-' :: ds => -(Nat.ofDigitChars 10 ds 0 : Int)
  | '+' :: ds => Nat.ofDigitChars 10 ds 0
  | ds => Nat.ofDigitChars 10 ds 0

def positional (digits : List Char) (exponent : Int) : List Char :=
  let pointAt := exponent + 1
  if pointAt ≤ 0 then
    '0' :: '.' :: (List.replicate (-pointAt).toNat '0' ++ digits)
  else if pointAt ≥ digits.length then
    digits ++ List.replicate (pointAt - digits.length).toNat '0'
  else
    digits.take pointAt.toNat ++ '.' :: digits.drop pointAt.toNat

def decimalText : TsNumber → Except String (List Char)
  | .finite f =>
    if f.coefficient = 0 then .ok ['0']
    else
      let parts := (toExponential f).splitOn 'e'
      let mantissa := parts[0]?.getD []
      let exponent := parts[1]?.getD ['0']
      let digits := (mantissa.erase '-').erase '.'
      .ok ((if f.negative then ['-'] else []) ++ positional digits (signedNumber exponent))
  | _ => .error "non-finite floats are not canonicalizable"

/-- `String(value)` of an integral number below `10 ^ 21`, from where on the
    runtime writes an exponent. -/
def integerText (f : PyFloat) : List Char :=
  if f.coefficient = 0 then ['0']
  else
    (if f.negative then ['-'] else []) ++
      digits f.coefficient ++ List.replicate f.exponent.toNat '0'

def encodeNumber (value : TsNumber) : Except String (List UInt8) :=
  if !value.isInteger then do
    pure ('F'.toUInt8 :: (ascii (← decimalText value) ++ [';'.toUInt8]))
  else if !value.isSafeInteger then
    .error "integral numbers beyond 2^53 must be passed as bigint"
  else
    match value with
    | .finite f => .ok ('I'.toUInt8 :: (ascii (integerText f) ++ [';'.toUInt8]))
    | _ => .error "integral numbers beyond 2^53 must be passed as bigint"

/-! ## Strings and mappings -/

/-- `LONE_SURROGATE.test(text)`. -/
def LONE_SURROGATE (text : List UInt16) : Bool := loneAfter none text

def tsUtf8 (text : List UInt16) : Except String (List UInt8) :=
  if LONE_SURROGATE text then
    .error "strings must be well-formed UTF-16 (lone surrogate)"
  else
    .ok (utf8 (String.ofList (scalars text)))

def compareBytes : List UInt8 → List UInt8 → Int
  | a :: as, b :: bs =>
    let diff : Int := a.toNat - b.toNat
    if diff ≠ 0 then diff else compareBytes as bs
  | as, bs => as.length - bs.length

def lengthPrefixed (tag : Char) (raw : List UInt8) : List UInt8 :=
  tag.toUInt8 :: (lengthPrefix raw.length ++ raw)

def entriesOf {α : Type} (value : List (TsKey × α)) : Except String (List (List UInt16 × α)) :=
  value.mapM fun kv =>
    match kv.1 with
    | .string text => .ok (text, kv.2)
    | .other => .error "mapping keys must be strings"

def encodedKey {α : Type} (kv : List UInt16 × α) : Except String (List UInt8 × α) := do
  pure (← tsUtf8 kv.1, kv.2)

def encodedEntry (kv : List UInt8 × Except String (List UInt8)) : Except String (List UInt8) := do
  pure (lengthPrefixed 'S' kv.1 ++ (← kv.2))

def sortEntries {α : Type} (entries : List (List UInt8 × α)) : List (List UInt8 × α) :=
  entries.insertionSort fun a b => compareBytes a.1 b.1 ≤ 0

/-- The entries of a mapping, each with what encoding its value gives: a value is
    encoded only after every key, in the order of the keys. -/
def encodeMapping (value : List (TsKey × Except String (List UInt8))) :
    Except String (List UInt8) := do
  let found ← entriesOf value
  let entries ← found.mapM encodedKey
  let parts ← (sortEntries entries).mapM encodedEntry
  pure ('D'.toUInt8 :: (lengthPrefix entries.length ++ parts.flatten))

mutual

def encode : TsValue → Except String (List UInt8)
  | .null => .ok ['N'.toUInt8]
  | .boolean b => .ok ['B'.toUInt8, if b then '1'.toUInt8 else '0'.toUInt8]
  | .number x => encodeNumber x
  | .bigint n => .ok ('I'.toUInt8 :: (ascii (intText n) ++ [';'.toUInt8]))
  | .string text => do pure (lengthPrefixed 'S' (← tsUtf8 text))
  | .bytes b => .ok (lengthPrefixed 'Y' b)
  | .canonicalFloat x => do
    pure ('F'.toUInt8 :: (ascii (← decimalText x) ++ [';'.toUInt8]))
  | .array items => do
    let parts ← (encodeItems items).mapM id
    pure ('L'.toUInt8 :: (lengthPrefix items.length ++ parts.flatten))
  | .mapping entries => encodeMapping (encodeEntries entries)
  | .unsupported type => .error ("unsupported canonical type: " ++ type)

def encodeItems : List TsValue → List (Except String (List UInt8))
  | [] => []
  | v :: items => encode v :: encodeItems items

def encodeEntries : List (TsKey × TsValue) → List (TsKey × Except String (List UInt8))
  | [] => []
  | (k, v) :: entries => (k, encode v) :: encodeEntries entries

end

def canonicalBytes (value : TsValue) : Except String (List UInt8) := do
  pure (utf8 HASH_PROTOCOL ++ 0 :: (← encode value))

@[simp] theorem encodeItems_eq (items : List TsValue) : encodeItems items = items.map encode := by
  induction items with
  | nil => rfl
  | cons v items ih => simp [encodeItems, ih]

@[simp] theorem encodeEntries_eq (entries : List (TsKey × TsValue)) :
    encodeEntries entries = entries.map fun kv => (kv.1, encode kv.2) := by
  induction entries with
  | nil => rfl
  | cons kv entries ih => simp [encodeEntries, ih]

/-! ## The same data in the other runtime -/

/-- The integer a number is, when it is one that every number near it differs
    from. -/
def TsNumber.integer? : TsNumber → Option Int
  | .finite f =>
    let n := f.coefficient * 10 ^ f.exponent.toNat
    if 0 ≤ f.exponent ∧ n ≤ MAX_SAFE_INTEGER then some (if f.negative then -n else n) else none
  | _ => none

def TsNumber.python : TsNumber → Option Value
  | .finite f => if 0 ≤ f.exponent then (TsNumber.integer? (.finite f)).map .int else some (.float f)
  | _ => none

def TsKey.python : TsKey → Option String
  | .string text => ofUtf16? text
  | .other => none

namespace TsValue

mutual

/-- The Python value with the same data: an integral `number` is an `int`, any
    other a `float`, a `CanonicalFloat` always a `float`. None where there is no
    such value, or none that the number tells apart from its neighbours. -/
def python : TsValue → Option Value
  | .null => some .none
  | .boolean b => some (.bool b)
  | .number x => x.python
  | .bigint n => some (.int n)
  | .string text => (ofUtf16? text).map .str
  | .bytes b => some (.bytes b)
  | .canonicalFloat (.finite f) => some (.float f)
  | .canonicalFloat _ => none
  | .array items => (pythonItems items).map .list
  | .mapping entries => (pythonEntries entries).map .dict
  | .unsupported _ => none

def pythonItems : List TsValue → Option (List Value)
  | [] => some []
  | v :: items => do pure ((← python v) :: (← pythonItems items))

def pythonEntries : List (TsKey × TsValue) → Option (List (String × Value))
  | [] => some []
  | (k, v) :: entries => do pure ((← k.python, ← python v) :: (← pythonEntries entries))

end

/-- A value of either runtime with the same data. A Python mapping may have been
    filled in any order, and the sign of a zero float is not looked at. -/
def Carries (t : TsValue) (p : Value) : Prop := ∃ q, t.python = some q ∧ q.Same p

end TsValue

namespace Value

mutual

/-- A value as the other runtime is handed it. -/
def typeScript : Value → TsValue
  | .none => .null
  | .bool b => .boolean b
  | .int n => .bigint n
  | .float f => .canonicalFloat (.finite f)
  | .str s => .string (utf16 s)
  | .bytes b => .bytes b
  | .list items => .array (typeScriptItems items)
  | .dict items => .mapping (typeScriptEntries items)

def typeScriptItems : List Value → List TsValue
  | [] => []
  | v :: items => typeScript v :: typeScriptItems items

def typeScriptEntries : List (String × Value) → List (TsKey × TsValue)
  | [] => []
  | (k, v) :: items => (.string (utf16 k), typeScript v) :: typeScriptEntries items

end

end Value

end Canonical
