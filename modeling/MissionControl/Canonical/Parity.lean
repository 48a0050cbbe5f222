import MissionControl.Canonical.TypeScript

/-! # Both runtimes write the same bytes

Numbers, strings, key order and nesting are each written by different code on the
two sides. One lemma each says that the two agree, and the induction over the
value puts them together. -/

namespace Canonical

open Encoding

/-! ## Sequences of fallible steps -/

variable {ε β α : Type}

theorem ok_bind (a : α) (f : α → Except ε β) : (Except.ok a >>= f) = f a := rfl

variable {l : List α}

theorem mapM_map_ok {γ : Type} {key : α → β} {f : β → Except ε γ} {g : α → γ} (h : ∀ a, f (key a) = .ok (g a)) :
    (l.map key).mapM f = .ok (l.map g) := by
  induction l with
  | nil => rfl
  | cons a l ih =>
    rw [List.map_cons, List.mapM_cons, h a, ih]
    rfl

variable {f : α → Except ε β}

theorem mem_of_mapM_ok {l' : List β} {a : α} (h : l.mapM f = .ok l') (ha : a ∈ l) : ∃ b ∈ l', f a = .ok b := by
  induction l generalizing l' with
  | nil => cases ha
  | cons b l ih =>
    rw [List.mapM_cons] at h
    cases hb : f b with
    | error e =>
      rw [hb] at h
      cases h
    | ok y =>
      cases hl : l.mapM f with
      | error e =>
        rw [hb, hl] at h
        cases h
      | ok ys =>
        rw [hb, hl] at h
        obtain rfl : y :: ys = l' := Except.ok.inj h
        rcases List.mem_cons.mp ha with rfl | ha
        · exact ⟨y, List.mem_cons_self, hb⟩
        · obtain ⟨z, hz, hfz⟩ := ih hl ha
          exact ⟨z, List.mem_cons_of_mem y hz, hfz⟩

theorem mapM_error {a : α} (ha : a ∈ l) (h : ∃ e, f a = .error e) : ∃ e, l.mapM f = .error e := by
  induction l with
  | nil => cases ha
  | cons b l ih =>
    rw [List.mapM_cons]
    cases hb : f b with
    | error e => exact ⟨e, rfl⟩
    | ok y =>
      rcases List.mem_cons.mp ha with rfl | ha
      · obtain ⟨e, he⟩ := h
        rw [he] at hb
        cases hb
      · obtain ⟨e, he⟩ := ih ha
        exact ⟨e, by rw [he]; rfl⟩

/-! ## Numbers -/

theorem length_digits_pos (n : Nat) : 0 < (digits n).length := Nat.length_toDigits_pos

theorem digits_mul_pow {c : Nat} (h : c ≠ 0) (e : Nat) :
    digits (c * 10 ^ e) = digits c ++ List.replicate e '0' := by
  induction e with
  | zero => simp
  | succ e ih =>
    have hpos : 0 < c * 10 ^ e := Nat.mul_pos (Nat.pos_of_ne_zero h) (Nat.pow_pos (by decide))
    have hstep := Nat.toDigits_append_toDigits (b := 10) (n := c * 10 ^ e) (d := 0) (by decide) hpos
      (by decide)
    have hmul : c * 10 ^ (e + 1) = 10 * (c * 10 ^ e) + 0 := by
      rw [Nat.pow_succ]
      ring
    rw [hmul, digits, ← hstep]
    show digits (c * 10 ^ e) ++ ['0'] = _
    rw [ih, List.append_assoc, ← List.replicate_succ']

theorem integerText_eq (f : PyFloat) : integerText f = intText (if f.negative then
      -((f.coefficient * 10 ^ f.exponent.toNat : Nat) : Int)
      else ((f.coefficient * 10 ^ f.exponent.toNat : Nat) : Int)) := by
  unfold integerText
  by_cases h : f.coefficient = 0
  · simp [h, intText, digits]
  · rw [if_neg h]
    obtain ⟨n, hn⟩ : ∃ n, f.coefficient * 10 ^ f.exponent.toNat = n + 1 :=
      Nat.exists_eq_succ_of_ne_zero
        (Nat.mul_ne_zero h (Nat.pos_iff_ne_zero.mp (Nat.pow_pos (by decide))))
    have hdigits : digits (n + 1) = digits f.coefficient ++ List.replicate f.exponent.toNat '0' := by
      rw [← hn, digits_mul_pow h]
    rw [hn]
    cases f.negative with
    | false =>
      show [] ++ _ ++ _ = intText (.ofNat (n + 1))
      rw [intText, hdigits, List.nil_append]
    | true =>
      show ['-'] ++ _ ++ _ = intText (.negSucc n)
      rw [intText, hdigits, List.append_assoc]
      rfl

theorem signedNumber_exponent (n : Int) :
    signedNumber ((if 0 ≤ n then '+' else '-') :: digits n.natAbs) = n := by
  split
  · rename_i h
    simp only [signedNumber, digits, Nat.ofDigitChars_ten_toDigits]
    omega
  · rename_i h
    simp only [signedNumber, digits, Nat.ofDigitChars_ten_toDigits]
    omega

theorem positional_eq (c : Nat) (e : Int) :
    positional (digits c) (e + ((digits c).length - 1)) = fixedPoint c e := by
  have hlen := length_digits_pos c
  unfold positional
  have hpoint : e + (((digits c).length : Int) - 1) + 1 = e + (digits c).length := by omega
  simp only [hpoint]
  cases e with
  | ofNat e =>
    rw [if_neg (by simp only [Int.ofNat_eq_natCast]; omega),
      if_pos (by simp only [Int.ofNat_eq_natCast]; omega), fixedPoint]
    congr 2
    simp only [Int.ofNat_eq_natCast]
    omega
  | negSucc k =>
    simp only [fixedPoint]
    by_cases hk : k + 1 < (digits c).length
    · have htake : (Int.negSucc k + ((digits c).length : Int)).toNat = (digits c).length - (k + 1) := by omega
      rw [if_pos hk, if_neg (by omega), if_neg (by omega), htake]
    · have hzeros : (-(Int.negSucc k + ((digits c).length : Int))).toNat = k + 1 - (digits c).length := by omega
      rw [if_neg hk, if_pos (by omega), hzeros]

/-- The mantissa that `toExponential` prints, before the `e`. -/
def mantissaText (f : PyFloat) : List Char :=
  (if f.negative ∧ f.coefficient ≠ 0 then ['-'] else []) ++
    (if (digits f.coefficient).length = 1 then digits f.coefficient
      else (digits f.coefficient).take 1 ++ '.' :: (digits f.coefficient).drop 1)

theorem mem_mantissaText {f : PyFloat} {c : Char} (h : c ∈ mantissaText f) :
    c.isDigit = true ∨ c = '.' ∨ c = '-' := by
  rcases List.mem_append.mp h with h | h
  · split at h
    · exact .inr (.inr (by simpa using h))
    · cases h
  · split at h
    · exact .inl (isDigit_of_mem_digits h)
    · rcases List.mem_append.mp h with h | h
      · exact .inl (isDigit_of_mem_digits (List.mem_of_mem_take h))
      · rcases List.mem_cons.mp h with h | h
        · exact .inr (.inl h)
        · exact .inl (isDigit_of_mem_digits (List.mem_of_mem_drop h))

theorem erase_mantissaText {f : PyFloat} (h : f.coefficient ≠ 0) :
    ((mantissaText f).erase '-').erase '.' = digits f.coefficient := by
  have hminus : ∀ {l : List Char}, (∀ c ∈ l, c ≠ '-') → l.erase '-' = l := fun hl =>
    List.erase_of_not_mem fun hm => hl _ hm rfl
  have hbody : ∀ c ∈ (if (digits f.coefficient).length = 1 then digits f.coefficient
      else (digits f.coefficient).take 1 ++ '.' :: (digits f.coefficient).drop 1), c ≠ '-' := by
    rintro c hc rfl
    have hm : '-' ∈ mantissaText { f with negative := false } := by
      unfold mantissaText
      exact List.mem_append_right _ hc
    split at hc
    · exact not_mem_digits (by decide) hc
    · rcases List.mem_append.mp hc with hc | hc
      · exact not_mem_digits (by decide) (List.mem_of_mem_take hc)
      · rcases List.mem_cons.mp hc with hc | hc
        · cases hc
        · exact not_mem_digits (by decide) (List.mem_of_mem_drop hc)
  have hsign : (mantissaText f).erase '-' = (if (digits f.coefficient).length = 1 then digits f.coefficient
        else (digits f.coefficient).take 1 ++ '.' :: (digits f.coefficient).drop 1) := by
    unfold mantissaText
    cases f.negative with
    | false =>
      rw [if_neg (by simp), List.nil_append]
      exact hminus hbody
    | true =>
      rw [if_pos ⟨rfl, h⟩, List.singleton_append, List.erase_cons_head]
  rw [hsign]
  split
  · exact List.erase_of_not_mem (not_mem_digits (by decide))
  · have htake : '.' ∉ (digits f.coefficient).take 1 := fun hm =>
      not_mem_digits (by decide) (List.mem_of_mem_take hm)
    rw [List.erase_append_right _ htake, List.erase_cons_head, List.take_append_drop]

theorem splitOn_toExponential (f : PyFloat) : (toExponential f).splitOn 'e' = [mantissaText f,
        (if 0 ≤ f.exponent + (((digits f.coefficient).length : Int) - 1) then '+' else '-') ::
          digits (f.exponent + (((digits f.coefficient).length : Int) - 1)).natAbs] := by
  have hfree : ∀ c ∈ mantissaText f, (c == 'e') = false := by
    intro c hc
    have hne : c ≠ 'e' := by
      rintro rfl
      rcases mem_mantissaText hc with h | h | h <;> revert h <;> decide
    simpa using hne
  have hrest : ∀ c ∈ (if 0 ≤ f.exponent + (((digits f.coefficient).length : Int) - 1)
      then '+' else '-') :: digits (f.exponent + (((digits f.coefficient).length : Int) - 1)).natAbs,
      (c == 'e') = false := by
    intro c hc
    have hne : c ≠ 'e' := by
      rintro rfl
      rcases List.mem_cons.mp hc with hc | hc
      · split at hc <;> cases hc
      · exact not_mem_digits (by decide) hc
    simpa using hne
  show ((mantissaText f) ++ 'e' :: _).splitOn 'e' = _
  rw [List.splitOn_eq_splitOnP, List.splitOnP_append_cons_of_forall_mem hfree _ (by decide),
    List.splitOnP_eq_singleton hrest]

/-- **The two runtimes print a float alike**, through an exponential form here and
    a decimal there. -/
theorem decimalText_eq (f : PyFloat) : decimalText (.finite f) = .ok (_decimal_text f) := by
  unfold decimalText
  by_cases h : f.coefficient = 0
  · simp [h, _decimal_text]
  · simp only [h, if_false, splitOn_toExponential, List.getElem?_cons_zero, Option.getD_some,
      List.getElem?_cons_succ, signedNumber_exponent, erase_mantissaText h, positional_eq, _decimal_text_eq h]

/-! ## Key order -/

theorem nil_le_bytes (b : List Nat) : [] ≤ b := not_lt.mp (List.not_lt_nil b)

theorem cons_le_bytes {x y : Nat} {a b : List Nat} : x :: a ≤ y :: b ↔ x < y ∨ x = y ∧ a ≤ b := by
  rw [← not_lt, ← not_lt, List.cons_lt_cons_iff]
  rcases lt_trichotomy x y with h | rfl | h
  · simp [h, h.not_gt, h.ne']
  · simp
  · simp [h, h.not_gt, h.ne']

theorem compareBytes_nonpos_iff (a b : List UInt8) :
    compareBytes a b ≤ 0 ↔ a.map UInt8.toNat ≤ b.map UInt8.toNat := by
  induction a generalizing b with
  | nil =>
    simpa [compareBytes] using nil_le_bytes _
  | cons x a ih =>
    cases b with
    | nil =>
      have hpos : ¬ ((x :: a).length : Int) - ([] : List UInt8).length ≤ 0 := by
        simp only [List.length_cons, List.length_nil]
        omega
      have hlt : ¬ x.toNat :: a.map UInt8.toNat ≤ [] := not_le.mpr (List.nil_lt_cons _ _)
      exact iff_of_false hpos hlt
    | cons y b =>
      rw [List.map_cons, List.map_cons, cons_le_bytes, ← ih]
      simp only [compareBytes]
      by_cases hxy : (x.toNat : Int) - y.toNat ≠ 0
      · rw [if_pos hxy]
        omega
      · rw [if_neg hxy]
        omega

theorem sortEntries_map (f : α → β) (items : List (String × α)) :
    sortEntries (items.map fun kv => (utf8 kv.1, f kv.2)) =
      (Value.sortItems items).map fun kv => (utf8 kv.1, f kv.2) :=
  (List.map_insertionSort Value.keyLE
    (fun a b : List UInt8 × β => compareBytes a.1 b.1 ≤ 0)
    (fun kv : String × α => (utf8 kv.1, f kv.2)) items
    fun a _ b _ => (compareBytes_nonpos_iff (utf8 a.1) (utf8 b.1)).symm).symm

/-! ## Strings -/

theorem tsUtf8_eq (text : List UInt16) : tsUtf8 text = match ofUtf16? text with
      | some s => .ok (utf8 s)
      | none => .error "strings must be well-formed UTF-16 (lone surrogate)" := by
  rw [ofUtf16?_eq, tsUtf8, LONE_SURROGATE]
  cases loneAfter none text <;> rfl

theorem ofUtf16?_eq_some {text : List UInt16} {s : String} (h : ofUtf16? text = some s) : text = utf16 s := by
  simp only [ofUtf16?] at h
  split at h
  · rename_i heq
    obtain rfl := Option.some.inj h
    exact heq.symm
  · cases h

/-! ## Mappings -/

theorem encodeMapping_ok (items : List (String × Value)) :
    encodeMapping (items.map fun kv => (.string (utf16 kv.1), .ok (enc kv.2))) = .ok (enc (.dict items)) := by
  have hfound : entriesOf (items.map fun kv =>
      (TsKey.string (utf16 kv.1), (Except.ok (enc kv.2) : Except String (List UInt8)))) =
      .ok (items.map fun kv => (utf16 kv.1, .ok (enc kv.2))) :=
    mapM_map_ok fun _ => rfl
  have hkeys : (items.map fun kv =>
      (utf16 kv.1, (Except.ok (enc kv.2) : Except String (List UInt8)))).mapM encodedKey =
      .ok (items.map fun kv => (utf8 kv.1, .ok (enc kv.2))) := by
    refine mapM_map_ok fun kv => ?_
    rw [encodedKey, tsUtf8_eq, ofUtf16?_utf16]
    rfl
  have hparts : ((Value.sortItems items).map fun kv =>
      (utf8 kv.1, (Except.ok (enc kv.2) : Except String (List UInt8)))).mapM encodedEntry =
      .ok ((Value.sortItems items).map fun kv => encStr kv.1 ++ enc kv.2) :=
    mapM_map_ok fun _ => rfl
  rw [← sortEntries_map fun v => (Except.ok (enc v) : Except String (List UInt8))] at hparts
  unfold encodeMapping
  rw [hfound, ok_bind, hkeys, ok_bind, hparts, ok_bind, List.length_map, enc_dict, List.flatMap]
  rfl

theorem encodeMapping_error {value : List (TsKey × Except String (List UInt8))}
    {kv : TsKey × Except String (List UInt8)} (h : kv ∈ value)
    (hbad : kv.1.python = none ∨ ∃ e, kv.2 = .error e) : ∃ e, encodeMapping value = .error e := by
  obtain ⟨key, item⟩ := kv
  unfold encodeMapping
  cases hfound : entriesOf value with
  | error e => exact ⟨e, rfl⟩
  | ok found =>
    rw [ok_bind]
    obtain ⟨⟨text, r⟩, hmem, hkey⟩ := mem_of_mapM_ok hfound h
    cases key with
    | other => cases hkey
    | string u =>
      obtain ⟨rfl, rfl⟩ : u = text ∧ item = r := by simpa using hkey
      cases hentries : found.mapM encodedKey with
      | error e => exact ⟨e, rfl⟩
      | ok entries =>
        rw [ok_bind]
        obtain ⟨⟨raw, r⟩, hin, hraw⟩ := mem_of_mapM_ok hentries hmem
        rw [encodedKey, tsUtf8_eq] at hraw
        cases hu : ofUtf16? u with
        | none =>
          rw [hu] at hraw
          cases hraw
        | some s =>
          rw [hu] at hraw
          obtain rfl : item = r := congrArg Prod.snd (Except.ok.inj hraw)
          obtain ⟨e, rfl⟩ : ∃ e, item = .error e :=
            hbad.resolve_left fun hnone => by
              rw [TsKey.python, hu] at hnone
              cases hnone
          obtain ⟨e', he'⟩ : ∃ e', (sortEntries entries).mapM encodedEntry = .error e' :=
            mapM_error ((List.mem_insertionSort _).mpr hin) ⟨e, rfl⟩
          exact ⟨e', by rw [he']; rfl⟩

/-! ## Values -/

/-- What encoding gives, against the value of the other runtime if there is one. -/
def Mirrors (found : Option Value) (result : Except String (List UInt8)) : Prop :=
  match found with
  | some p => result = .ok (enc p)
  | none => ∃ e, result = .error e

theorem mirrors_number (x : TsNumber) : Mirrors x.python (encodeNumber x) := by
  cases x with
  | nan => exact ⟨_, rfl⟩
  | infinite negative => exact ⟨_, rfl⟩
  | finite f =>
    by_cases he : 0 ≤ f.exponent
    · by_cases hs : f.coefficient * 10 ^ f.exponent.toNat ≤ MAX_SAFE_INTEGER
      · simp only [TsNumber.python, TsNumber.integer?, he, hs, and_self, if_true, Option.map_some,
          Mirrors, encodeNumber, TsNumber.isInteger, TsNumber.isSafeInteger, decide_true,
          Bool.not_true, Bool.false_eq_true, if_false, integerText_eq, enc]
      · simp only [TsNumber.python, TsNumber.integer?, he, hs, and_false, if_true, if_false,
          Option.map_none, Mirrors, encodeNumber, TsNumber.isInteger, TsNumber.isSafeInteger,
          decide_true, decide_false, Bool.not_true, Bool.not_false, Bool.false_eq_true]
        exact ⟨_, rfl⟩
    · simp only [TsNumber.python, he, if_false, Mirrors, encodeNumber, TsNumber.isInteger,
        decide_false, Bool.not_false, if_true, decimalText_eq, enc]
      rfl

theorem mirrors_canonicalFloat (x : TsNumber) :
    Mirrors (TsValue.canonicalFloat x).python (encode (.canonicalFloat x)) := by
  cases x with
  | nan => exact ⟨_, rfl⟩
  | infinite negative => exact ⟨_, rfl⟩
  | finite f =>
    simp only [TsValue.python, Mirrors, encode, decimalText_eq, enc]
    rfl

theorem mirrors_string (text : List UInt16) : Mirrors (TsValue.string text).python (encode (.string text)) := by
  simp only [TsValue.python, encode, tsUtf8_eq]
  cases ofUtf16? text with
  | none => exact ⟨_, rfl⟩
  | some s => rfl

theorem mirrors_items {items : List TsValue} (h : ∀ v ∈ items, Mirrors v.python (encode v)) :
    match TsValue.pythonItems items with
    | some ps => items.map encode = ps.map fun p => .ok (enc p)
    | none => ∃ v ∈ items, ∃ e, encode v = .error e := by
  induction items with
  | nil => rfl
  | cons v items ih =>
    have hv := h v List.mem_cons_self
    have hrest := ih fun w hw => h w (List.mem_cons_of_mem v hw)
    rw [TsValue.pythonItems]
    cases hp : v.python with
    | none =>
      rw [hp] at hv
      exact ⟨v, List.mem_cons_self, hv⟩
    | some p =>
      rw [hp] at hv
      cases hps : TsValue.pythonItems items with
      | none =>
        rw [hps] at hrest
        obtain ⟨w, hw, hbad⟩ := hrest
        exact ⟨w, List.mem_cons_of_mem v hw, hbad⟩
      | some ps =>
        rw [hps] at hrest
        show encode v :: items.map encode = .ok (enc p) :: ps.map fun p => .ok (enc p)
        rw [hv, hrest]

theorem mirrors_entries {entries : List (TsKey × TsValue)}
    (h : ∀ kv ∈ entries, Mirrors kv.2.python (encode kv.2)) : match TsValue.pythonEntries entries with
    | some ps => entries.map (fun kv => (kv.1, encode kv.2)) =
        ps.map fun kv => (.string (utf16 kv.1), .ok (enc kv.2))
    | none => ∃ kv ∈ entries, kv.1.python = none ∨ ∃ e, encode kv.2 = .error e := by
  induction entries with
  | nil => rfl
  | cons kv entries ih =>
    obtain ⟨k, v⟩ := kv
    have hv := h (k, v) List.mem_cons_self
    have hrest := ih fun w hw => h w (List.mem_cons_of_mem _ hw)
    rw [TsValue.pythonEntries]
    cases hk : k.python with
    | none => exact ⟨(k, v), List.mem_cons_self, .inl hk⟩
    | some s =>
      cases hp : v.python with
      | none =>
        rw [hp] at hv
        exact ⟨(k, v), List.mem_cons_self, .inr hv⟩
      | some p =>
        rw [hp] at hv
        cases hps : TsValue.pythonEntries entries with
        | none =>
          rw [hps] at hrest
          obtain ⟨w, hw, hbad⟩ := hrest
          exact ⟨w, List.mem_cons_of_mem _ hw, hbad⟩
        | some ps =>
          rw [hps] at hrest
          have hkey : k = .string (utf16 s) := by
            cases k with
            | other => cases hk
            | string text => rw [ofUtf16?_eq_some hk]
          show (k, encode v) :: entries.map _ = (.string (utf16 s), .ok (enc p)) :: ps.map _
          rw [hrest, hkey, hv]

theorem encode_mirrors (t : TsValue) : Mirrors t.python (encode t) := by
  induction t with
  | null => rfl
  | boolean b => rfl
  | number x => exact mirrors_number x
  | bigint n => rfl
  | string text => exact mirrors_string text
  | bytes b => rfl
  | canonicalFloat x => exact mirrors_canonicalFloat x
  | array items ih =>
    have hitems := mirrors_items ih
    rw [TsValue.python, encode, encodeItems_eq]
    cases hps : TsValue.pythonItems items with
    | none =>
      rw [hps] at hitems
      obtain ⟨v, hv, e, he⟩ := hitems
      obtain ⟨e', he'⟩ : ∃ e', (items.map encode).mapM id = .error e' :=
        mapM_error (List.mem_map.mpr ⟨v, hv, rfl⟩) ⟨e, he⟩
      exact ⟨e', by rw [he']; rfl⟩
    | some ps =>
      rw [hps] at hitems
      have hlen : items.length = ps.length := by simpa using congrArg List.length hitems
      have hparts : (ps.map fun p => (Except.ok (enc p) : Except String (List UInt8))).mapM id =
          .ok (ps.map enc) := mapM_map_ok fun _ => rfl
      rw [Option.map_some, Mirrors, hitems, hparts, ok_bind, hlen, enc, encList_eq, List.flatMap]
      rfl
  | mapping entries ih =>
    have hentries := mirrors_entries ih
    rw [TsValue.python, encode, encodeEntries_eq]
    cases hps : TsValue.pythonEntries entries with
    | none =>
      rw [hps] at hentries
      obtain ⟨kv, hkv, hbad⟩ := hentries
      exact encodeMapping_error (List.mem_map.mpr ⟨kv, hkv, rfl⟩) hbad
    | some ps =>
      rw [hps] at hentries
      rw [Option.map_some, Mirrors, hentries, encodeMapping_ok]
  | unsupported type => exact ⟨_, rfl⟩

theorem python_typeScript (p : Value) : p.typeScript.python = some p := by
  induction p with
  | none => rfl
  | bool b => rfl
  | int n => rfl
  | float f => rfl
  | str s => rw [Value.typeScript, TsValue.python, ofUtf16?_utf16]; rfl
  | bytes b => rfl
  | list items ih =>
    have hitems : TsValue.pythonItems (Value.typeScriptItems items) = some items := by
      induction items with
      | nil => rfl
      | cons v items ih' =>
        rw [Value.typeScriptItems, TsValue.pythonItems, ih v List.mem_cons_self,
          ih' fun w hw => ih w (List.mem_cons_of_mem v hw)]
        rfl
    rw [Value.typeScript, TsValue.python, hitems]
    rfl
  | dict items ih =>
    have hitems : TsValue.pythonEntries (Value.typeScriptEntries items) = some items := by
      induction items with
      | nil => rfl
      | cons kv items ih' =>
        rw [Value.typeScriptEntries, TsValue.pythonEntries, TsKey.python, ofUtf16?_utf16,
          ih kv List.mem_cons_self, ih' fun w hw => ih w (List.mem_cons_of_mem kv hw)]
        rfl
    rw [Value.typeScript, TsValue.python, hitems]
    rfl

/-! ## Whole encodings -/

theorem carries_of_perm {t : TsValue} {items items' : List (String × Value)}
    (h : t.Carries (.dict items)) (hperm : items.Perm items')
    (hnodup : (items.map Prod.fst).Nodup) : t.Carries (.dict items') := by
  obtain ⟨q, hq, hsame⟩ := h
  refine ⟨q, hq, ?_⟩
  rw [Value.Same] at hsame ⊢
  rw [hsame, normal_dict, normal_dict, sortItems_perm hperm hnodup]

/-- **Both runtimes write the same bytes**: for values that carry the same data,
    whatever the order their mappings are filled in. Every value the TypeScript
    side accepts carries some value of the Python side, and every value of the
    Python side is carried by one. -/
theorem canonicalBytes_agree :
    (∀ (t : TsValue) (p : Value), t.Carries p → canonicalBytes t = .ok (canonical_bytes p)) ∧
    (∀ (t : TsValue) (b : List UInt8), canonicalBytes t = .ok b → ∃ p, t.Carries p) ∧
    (∀ p : Value, ∃ t : TsValue, t.Carries p) ∧
    (∀ (t : TsValue) (items items' : List (String × Value)), t.Carries (.dict items) →
      items.Perm items' → (items.map Prod.fst).Nodup → t.Carries (.dict items')) := by
  refine ⟨?_, ?_, ?_, fun _ _ _ h hperm hnodup => carries_of_perm h hperm hnodup⟩
  · rintro t p ⟨q, hq, hsame⟩
    have h := encode_mirrors t
    rw [hq] at h
    rw [← canonical_bytes_eq_iff.mpr hsame, canonicalBytes, h]
    rfl
  · intro t b hb
    have h := encode_mirrors t
    cases hp : t.python with
    | some p => exact ⟨p, p, hp, rfl⟩
    | none =>
      rw [hp] at h
      obtain ⟨e, he⟩ := h
      rw [canonicalBytes, he] at hb
      cases hb
  · exact fun p => ⟨p.typeScript, p, python_typeScript p, rfl⟩

/-- Keys whose order differs between UTF-16 units and bytes, an integral `number`
    and a float that prints with an exponent. -/
example :
    canonicalBytes (.mapping
      [(.string [0xD800, 0xDC00], .canonicalFloat (.finite ⟨true, 15, 20, by decide, by decide⟩)),
        (.string [0xFF5E], .number (.finite ⟨true, 15, 1, by decide, by decide⟩))]) =
      .ok (canonical_bytes (.dict
        [("𐀀", .float ⟨true, 15, 20, by decide, by decide⟩), ("～", .int (-150))])) := by
  decide +kernel

end Canonical
