import MissionControl.Encoding.Delimited
import MissionControl.Python.Text
import Mathlib

/-! # Signed requests

Protocol v2 of the ingress: a request carries a timestamp, a nonce and a signature in
its headers, and the signature is over the timestamp, the nonce and the body. This
module has the checks that need no state: the shapes of the headers, the freshness of
the timestamp, and the signature.

The last part settles which requests share their signed material. -/

namespace Ingress

open Encoding Python

/-- `hmac.new(secret, message, hashlib.sha256).hexdigest()` -/
class Hmac where
  hexdigest : List UInt8 → List UInt8 → String

/-- What the checks raise: `HMACVerificationError` and `ValueError` with their texts, and
    the `UnicodeError` of a text that is not ASCII. -/
inductive SigningError where
  | verification (text : String)
  | value (text : String)
  | unicode
  deriving DecidableEq, Repr

/-! ## The signed material -/

def REPLAY_WINDOW_SECONDS : Int := 300
def MAX_NONCES : Int := 10000

def newline : UInt8 := '\n'.toUInt8

def SIGNING_DOMAIN : List UInt8 := ascii "AMC-HMAC-V2\n".toList

/-- `[A-Za-z0-9_-]` -/
def isNonceChar (c : Char) : Bool := c.isAlphanum || c == '_' || c == '-'

def TIMESTAMP_RE (timestamp : String) : Bool := matchesClass Char.isDigit 1 11 timestamp.toList

def NONCE_RE (nonce : String) : Bool := matchesClass isNonceChar 16 128 nonce.toList

/-- `text.encode("ascii")` -/
def encode (text : String) : Except SigningError (List UInt8) :=
  if text.toList.all fun c => decide (IsAscii c) then .ok (ascii text.toList)
  else .error .unicode

def signed_material (timestamp nonce : String) (body : List UInt8) :
    Except SigningError (List UInt8) := do
  let t ← encode timestamp
  let n ← encode nonce
  return SIGNING_DOMAIN ++ t ++ newline :: n ++ newline :: body

/-! ## The signature header -/

/-- The white space `bytes.fromhex` skips. -/
def isHexSpace (c : Char) : Bool := c == ' ' || (0x09 ≤ c.toNat && c.toNat ≤ 0x0D)

def isHexDigit (c : Char) : Bool :=
  c.isDigit || ('a' ≤ c && c ≤ 'f') || ('A' ≤ c && c ≤ 'F')

/-- `bytes.fromhex(text)` returns: pairs of digits, with white space between them. -/
def fromhex : List Char → Bool
  | [] => true
  | [c] => isHexSpace c
  | c :: d :: text =>
    if isHexSpace c then fromhex (d :: text) else isHexDigit c && isHexDigit d && fromhex text

def _signature_hex (signature_header : String) : Except SigningError String :=
  let candidate := (strip signature_header).toList
  let candidate :=
    if "sha256=".toList.isPrefixOf (candidate.map Char.toLower) then candidate.drop 7
    else candidate
  if candidate.length ≠ 64 ∨ fromhex candidate = false then
    .error (.verification "invalid signature encoding")
  else
    .ok (String.ofList (candidate.map Char.toLower))

/-! ## Verification -/

/-- `int(timestamp)` of a text of digits, with or without white space around them. -/
def timestampValue (timestamp : String) : Int :=
  Nat.ofDigitChars 10 (timestamp.toList.filter Char.isDigit) 0

def check_timestamp (timestamp : String) (now : ℚ) (window : Int) : Except SigningError Int :=
  if TIMESTAMP_RE timestamp = false then .error (.verification "invalid timestamp")
  else
    let value := timestampValue timestamp
    if |now - value| > window then
      .error (.verification "timestamp outside the replay window")
    else .ok value

/-- Verify protocol v2. Returns the timestamp. -/
def verify_v2 [Hmac] (raw_body : List UInt8) (signature_header timestamp nonce : String)
    (secret : List UInt8) (now : ℚ) (window : Int) : Except SigningError Int := do
  if secret = [] then throw (.value "HMAC secret must be configured")
  if NONCE_RE nonce = false then throw (.verification "invalid nonce")
  let value ← check_timestamp timestamp now window
  let supplied ← _signature_hex signature_header
  let material ← signed_material timestamp nonce raw_body
  if supplied ≠ Hmac.hexdigest secret material then
    throw (.verification "signature mismatch")
  return value

/-! ## Requests with one signed material

A shape check lets a text of its class through with or without a newline after it. A
newline that ends the timestamp cannot be taken for the mark after it, as no nonce
starts with a newline. One that ends the nonce can: it moves to the body. -/

/-- What a signature is over. -/
structure Signed where
  timestamp : String
  nonce : String
  body : List UInt8
  deriving DecidableEq

/-- The shape checks of `verify_v2`. -/
def Signed.Shaped (r : Signed) : Prop :=
  TIMESTAMP_RE r.timestamp = true ∧ NONCE_RE r.nonce = true

instance (r : Signed) : Decidable r.Shaped := inferInstanceAs (Decidable (_ ∧ _))

def Signed.material (r : Signed) : Except SigningError (List UInt8) :=
  signed_material r.timestamp r.nonce r.body

/-- `r'` is `r` with the newline its body starts with moved to the end of the nonce. -/
def Signed.Shifts (r r' : Signed) : Prop :=
  r'.timestamp = r.timestamp ∧ r'.nonce = r.nonce ++ "\n" ∧ r.body = newline :: r'.body

/-- The end `$` tolerates. -/
def End (e : List Char) : Prop := e = [] ∨ e = ['\n']

theorem isNonceChar_of_newline : isNonceChar '\n' = false := by decide

theorem isAscii_of_isNonceChar {c : Char} (h : isNonceChar c = true) : IsAscii c := by
  simp only [isNonceChar, Char.isAlphanum, Char.isAlpha, Char.isUpper, Char.isLower, Char.isDigit,
    Bool.or_eq_true, Bool.and_eq_true, decide_eq_true_eq, beq_iff_eq, ge_iff_le, UInt32.le_iff_toNat_le] at h
  show c.val.toNat < 128
  rcases h with (((⟨-, h⟩ | ⟨-, h⟩) | ⟨-, h⟩) | rfl) | rfl
  · exact lt_of_le_of_lt h (by decide)
  · exact lt_of_le_of_lt h (by decide)
  · exact lt_of_le_of_lt h (by decide)
  · decide
  · decide

variable {e : List Char}

theorem End.isAscii (he : End e) : ∀ c ∈ e, IsAscii c := by
  rcases he with rfl | rfl
  · simp
  · intro c hc
    rw [List.mem_singleton] at hc
    rw [hc]
    decide

theorem End.mark (he : End e) (x : List UInt8) : ascii e ++ newline :: x = newline :: (ascii e ++ x) := by
  rcases he with rfl | rfl
  · rfl
  · rfl

theorem End.split {e' : List Char} (he : End e) (he' : End e') {x y : List UInt8}
    (h : ascii e ++ x = ascii e' ++ y) : (e = e' ∧ x = y) ∨ (e = [] ∧ e' = ['\n'] ∧ x = newline :: y) ∨
      (e = ['\n'] ∧ e' = [] ∧ y = newline :: x) := by
  rcases he with rfl | rfl <;> rcases he' with rfl | rfl
  · exact .inl ⟨rfl, h⟩
  · exact .inr (.inl ⟨rfl, rfl, h⟩)
  · exact .inr (.inr ⟨rfl, rfl, h.symm⟩)
  · refine .inl ⟨rfl, ?_⟩
    simpa [ascii] using h

variable {r : Signed}

theorem Signed.Shaped.parts (h : r.Shaped) :
    ∃ d e m f, r.timestamp.toList = d ++ e ∧ (∀ c ∈ d, c.isDigit = true) ∧ End e ∧
      r.nonce.toList = m ++ f ∧ (∀ c ∈ m, isNonceChar c = true) ∧ m ≠ [] ∧ End f := by
  obtain ⟨d, e, ht, hd, -, -, he⟩ := matchesClass_iff.mp h.1
  obtain ⟨m, f, hn, hm, hlen, -, hf⟩ := matchesClass_iff.mp h.2
  refine ⟨d, e, m, f, ht, hd, he, hn, hm, ?_, hf⟩
  rintro rfl
  simp at hlen

theorem Signed.Shaped.material_eq {d m f : List Char} (ht : r.timestamp.toList = d ++ e)
    (hd : ∀ c ∈ d, c.isDigit = true) (he : End e) (hn : r.nonce.toList = m ++ f)
    (hm : ∀ c ∈ m, isNonceChar c = true) (hf : End f) : r.material = .ok (SIGNING_DOMAIN ++
      (ascii d ++ newline :: (ascii e ++ (ascii m ++ newline :: (ascii f ++ r.body))))) := by
  have hta : ∀ c ∈ r.timestamp.toList, IsAscii c := by
    intro c hc
    rw [ht, List.mem_append] at hc
    exact hc.elim (fun hc => isAscii_of_isDigit (hd c hc)) (he.isAscii c)
  have hna : ∀ c ∈ r.nonce.toList, IsAscii c := by
    intro c hc
    rw [hn, List.mem_append] at hc
    exact hc.elim (fun hc => isAscii_of_isNonceChar (hm c hc)) (hf.isAscii c)
  have hsplit : ∀ a b, ascii (a ++ b) = ascii a ++ ascii b := fun a b => List.map_append
  have htext : encode r.timestamp = .ok (ascii d ++ ascii e) := by
    rw [encode, if_pos (by simpa using hta), ht, hsplit]
  have hnonce : encode r.nonce = .ok (ascii m ++ ascii f) := by
    rw [encode, if_pos (by simpa using hna), hn, hsplit]
  unfold Signed.material signed_material
  rw [htext, hnonce]
  show Except.ok _ = Except.ok _
  simp only [List.append_assoc, List.cons_append, he.mark, hf.mark]

variable {r' : Signed}

/-- Requests with one material have one timestamp, one nonce up to a newline that ends
    it, and what that leaves of the bodies. -/
theorem Signed.Shaped.shifts (h : r.Shaped) (h' : r'.Shaped) (heq : r.material = r'.material) :
    r = r' ∨ r.Shifts r' ∨ r'.Shifts r := by
  obtain ⟨d, e, m, f, ht, hd, he, hn, hm, hm0, hf⟩ := h.parts
  obtain ⟨d', e', m', f', ht', hd', he', hn', hm', hm0', hf'⟩ := h'.parts
  rw [material_eq ht hd he hn hm hf, material_eq ht' hd' he' hn' hm' hf', Except.ok.injEq] at heq
  -- neither the digits nor the nonce's characters have a newline among them
  have free : ∀ {p : Char → Bool} {cs : List Char}, (∀ c, p c = true → IsAscii c) →
      p '\n' = false → (∀ c ∈ cs, p c = true) → newline ∉ ascii cs := by
    intro p cs hp hnl hcs
    refine not_mem_ascii (fun c hc => hp c (hcs c hc)) (by decide) fun hc => ?_
    rw [hcs _ hc] at hnl
    cases hnl
  have hmn := free (fun c => isAscii_of_isNonceChar) isNonceChar_of_newline hm
  have hmn' := free (fun c => isAscii_of_isNonceChar) isNonceChar_of_newline hm'
  obtain ⟨hdd, hafter⟩ := terminated_inj
    (free (fun c => isAscii_of_isDigit) (by decide) hd)
    (free (fun c => isAscii_of_isDigit) (by decide) hd') (List.append_cancel_left heq)
  have hdd : d = d' :=
    ascii_inj (fun c hc => isAscii_of_isDigit (hd c hc)) (fun c hc => isAscii_of_isDigit (hd' c hc)) hdd
  -- a nonce does not start with the newline that would end the timestamp
  have starts : ∀ {cs : List Char} {x y : List UInt8}, cs ≠ [] → newline ∉ ascii cs →
      ascii cs ++ x ≠ newline :: y := by
    intro cs x y hne hfree hxy
    cases cs with
    | nil => exact hne rfl
    | cons c cs =>
      have hc : c.toUInt8 = newline := (List.cons.inj hxy).1
      exact hfree (hc ▸ List.mem_cons_self)
  obtain ⟨hee, hnonces⟩ : e = e' ∧ ascii m ++ newline :: (ascii f ++ r.body) =
      ascii m' ++ newline :: (ascii f' ++ r'.body) := by
    rcases he.split he' hafter with hee | ⟨-, -, hx⟩ | ⟨-, -, hx⟩
    · exact hee
    · exact absurd hx (starts hm0 hmn)
    · exact absurd hx (starts hm0' hmn')
  obtain ⟨hmm, hbodies⟩ := terminated_inj hmn hmn' hnonces
  have hmm : m = m' := ascii_inj (fun c hc => isAscii_of_isNonceChar (hm c hc))
    (fun c hc => isAscii_of_isNonceChar (hm' c hc)) hmm
  subst hdd hee hmm
  have hts : r.timestamp = r'.timestamp := String.toList_injective (ht.trans ht'.symm)
  rcases hf.split hf' hbodies with ⟨rfl, hbody⟩ | ⟨rfl, rfl, hbody⟩ | ⟨rfl, rfl, hbody⟩
  · left
    have hnonce : r.nonce = r'.nonce := String.toList_injective (hn.trans hn'.symm)
    cases r
    cases r'
    cases hts
    cases hnonce
    cases hbody
    rfl
  · refine .inr (.inl ⟨hts.symm, String.toList_injective ?_, hbody⟩)
    rw [hn', String.toList_append, hn, List.append_nil]
    rfl
  · refine .inr (.inr ⟨hts, String.toList_injective ?_, hbody⟩)
    rw [hn, String.toList_append, hn', List.append_nil]
    rfl

theorem Signed.Shifts.material (h : r.Shifts r') : r.material = r'.material := by
  obtain ⟨ht, hn, hb⟩ := h
  have hnonce : encode r'.nonce = (encode r.nonce).map (· ++ [newline]) := by
    simp only [encode, hn, String.toList_append, List.all_append]
    rw [show ("\n".toList.all fun c => decide (IsAscii c)) = true by decide, Bool.and_true]
    split
    · simp [Except.map, ascii, newline]
    · rfl
  unfold Signed.material signed_material
  rw [ht, hnonce, hb]
  cases encode r.timestamp with
  | error e => rfl
  | ok t =>
    cases encode r.nonce with
    | error e => rfl
    | ok n =>
      show Except.ok _ = Except.ok _
      simp

theorem Signed.Shifts.ne (h : r.Shifts r') : r ≠ r' := by
  rintro rfl
  have := congrArg List.length h.2.2
  simp at this

/-- **Which requests share their signed material.** Of two requests that pass the shape
    checks, equal material gives equal requests exactly when neither is the other with a
    newline moved from the front of its body to the end of its nonce. -/
theorem material_inj_iff {r r' : Signed} (h : r.Shaped) (h' : r'.Shaped) :
    (r.material = r'.material → r = r') ↔ ¬ (r.Shifts r' ∨ r'.Shifts r) := by
  constructor
  · rintro hinj (hs | hs)
    · exact hs.ne (hinj hs.material)
    · exact hs.ne (hinj hs.material.symm).symm
  · intro hs heq
    rcases h.shifts h' heq with heq | hshift
    · exact heq
    · exact absurd hshift hs

theorem material_inj_iff_plain :
    (Signed.material ⟨"1000", "nonce-0123456789", [1]⟩ =
        Signed.material ⟨"1000", "nonce-9876543210", [1]⟩ →
      (⟨"1000", "nonce-0123456789", [1]⟩ : Signed) = ⟨"1000", "nonce-9876543210", [1]⟩) ↔
    ¬ (Signed.Shifts ⟨"1000", "nonce-0123456789", [1]⟩ ⟨"1000", "nonce-9876543210", [1]⟩ ∨
      Signed.Shifts ⟨"1000", "nonce-9876543210", [1]⟩ ⟨"1000", "nonce-0123456789", [1]⟩) :=
  material_inj_iff (by decide +kernel) (by decide +kernel)

/-- One signature, two nonces. -/
theorem material_shared :
    ¬ ∀ r r' : Signed, r.Shaped → r'.Shaped → r.material = r'.material → r = r' := by
  intro hinj
  have hs : Signed.Shifts ⟨"1000", "nonce-0123456789", [newline, 1]⟩
      ⟨"1000", "nonce-0123456789\n", [1]⟩ := ⟨rfl, rfl, rfl⟩
  exact hs.ne (hinj _ _ (by decide +kernel) (by decide +kernel) hs.material)

/-! ## What a signature authenticates -/

variable {window value : Int}

theorem check_timestamp_ok {timestamp : String} {now : ℚ} (h : check_timestamp timestamp now window = .ok value) :
    TIMESTAMP_RE timestamp = true ∧ value = timestampValue timestamp ∧ |now - value| ≤ window := by
  unfold check_timestamp at h
  split at h
  · cases h
  · rename_i hre
    dsimp only at h
    split at h
    · cases h
    · rename_i hfresh
      cases h
      exact ⟨by simpa using hre, rfl, not_lt.mp hfresh⟩

theorem verify_v2_ok_iff [Hmac] {signature : String} {secret : List UInt8} {now : ℚ} :
    verify_v2 r.body signature r.timestamp r.nonce secret now window = .ok value ↔
      secret ≠ [] ∧ NONCE_RE r.nonce = true ∧ check_timestamp r.timestamp now window = .ok value ∧
        ∃ material, r.material = .ok material ∧
          _signature_hex signature = .ok (Hmac.hexdigest secret material) := by
  unfold verify_v2 Signed.material
  by_cases hsecret : secret = []
  · rw [if_pos hsecret]
    exact ⟨fun h => (by cases h), fun h => absurd hsecret h.1⟩
  by_cases hnonce : NONCE_RE r.nonce = false
  · rw [if_neg hsecret, if_pos hnonce]
    refine ⟨fun h => (by cases h), fun h => ?_⟩
    rw [hnonce] at h
    cases h.2.1
  rw [if_neg hsecret, if_neg hnonce]
  have hnonce : NONCE_RE r.nonce = true := by simpa using hnonce
  cases ht : check_timestamp r.timestamp now window with
  | error e => exact ⟨fun h => (by cases h), fun h => by cases h.2.2.1⟩
  | ok v =>
    cases hsig : _signature_hex signature with
    | error e => exact ⟨fun h => (by cases h), fun ⟨_, _, _, _, _, h⟩ => by cases h⟩
    | ok supplied =>
      cases hm : signed_material r.timestamp r.nonce r.body with
      | error e => exact ⟨fun h => (by cases h), fun ⟨_, _, _, _, h, _⟩ => by cases h⟩
      | ok material =>
        change (if supplied ≠ Hmac.hexdigest secret material then _ else _) = _ ↔ _
        split
        · rename_i hne
          refine ⟨fun h => (by cases h), fun ⟨_, _, _, m, h, hs⟩ => ?_⟩
          cases h
          cases hs
          exact absurd rfl hne
        · rename_i hequal
          rw [not_not.mp hequal]
          refine ⟨fun h => ?_, fun h => h.2.2.1⟩
          exact ⟨hsecret, hnonce, h, material, rfl, rfl⟩

end Ingress
