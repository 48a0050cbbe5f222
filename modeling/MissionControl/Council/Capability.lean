import MissionControl.Canonical.Hash
import MissionControl.Python.Text
import MissionControl.Transition.Run

/-! # Capability tokens

A verifier of short-lived, signed tokens. A token is bound to one tool, one set of
arguments and the scopes of one call; the registry remembers the identifiers of accepted
tokens, so that each is accepted once. -/

namespace Capability

open Encoding Canonical Python Transition

/-! ## What the verifier is given -/

/-- What `json.loads` returns. Of a float only whether it is zero is looked at. -/
inductive Json where
  | null
  | bool (b : Bool)
  | int (n : Int)
  | float (zero : Bool)
  | str (s : String)
  | list (items : List Json)
  | dict (items : List (String × Json))

/-- `value.get(key)` of an object. -/
def Json.get (items : List (String × Json)) (key : String) : Json :=
  match items.find? (·.1 == key) with
  | some (_, v) => v
  | none => .null

/-- `value == text` -/
def Json.isStr (text : String) : Json → Bool
  | .str s => s == text
  | _ => false

/-- `value`, when `isinstance(value, int)`: a boolean is an integer. -/
def Json.int? : Json → Option Int
  | .int n => some n
  | .bool b => some (if b then 1 else 0)
  | _ => none

/-- `base64`, `json` and Ed25519. A decoder that raises answers `none`. -/
class Codec where
  urlsafe_b64decode : List Char → Option (List UInt8)
  loads : List UInt8 → Option Json
  /-- `public_key.verify(signature, message)` returns. -/
  ed25519_verify : List UInt8 → List UInt8 → List UInt8 → Bool

/-- `CapabilityError` with its code and detail (a missing scope names the scopes that
    miss), and the `TypeError` of scopes that are no set of strings. -/
inductive CapabilityError where
  | refused (code detail : String)
  | scope_insufficient (missing : List String)
  | type_error
  deriving DecidableEq

def ISSUER : String := "amc-council-gateway"
def MAX_TTL_S : Int := 120
def LEEWAY_S : Int := 5
def JTI_MAX : Int := 10000

/-! ## The registry -/

structure JTIRegistry where
  max : Int := JTI_MAX
  seen : List (String × Int) := []

/-- The identifiers an `accept` at `now` still remembers. -/
def JTIRegistry.evict (registry : JTIRegistry) (now : ℚ) : List (String × Int) :=
  registry.seen.filter fun e => !decide ((e.2 : ℚ) < now)

/-- The identifier is among the remembered ones. -/
def remembers (seen : List (String × Int)) (jti : String) : Bool := seen.any (·.1 == jti)

def JTIRegistry.accept (registry : JTIRegistry) (jti : String) (exp : Int) (now : ℚ) :
    Except CapabilityError Unit × JTIRegistry :=
  let seen := registry.evict now
  if remembers seen jti then
    (.error (.refused "TOKEN_REPLAYED" "this capability was already used"),
      { registry with seen := seen })
  else if registry.max ≤ seen.length then
    (.error (.refused "VERIFIER_SATURATED" "too many live capabilities to record another"),
      { registry with seen := seen })
  else (.ok (), { registry with seen := seen ++ [(jti, exp)] })

theorem mem_evict {registry : JTIRegistry} {now : ℚ} {e : String × Int} :
    e ∈ registry.evict now ↔ e ∈ registry.seen ∧ now ≤ e.2 := by
  simp [JTIRegistry.evict]

theorem remembers_iff {seen : List (String × Int)} {jti : String} :
    remembers seen jti = true ↔ ∃ exp, (jti, exp) ∈ seen := by
  simp [remembers]

/-- **What `accept` does**: it drops what has expired, and then records the identifier if it
    is not remembered and there is room. -/
theorem accept_cases (registry : JTIRegistry) (jti : String) (exp : Int) (now : ℚ) :
    (∃ e, registry.accept jti exp now = (.error e, { registry with seen := registry.evict now }) ∧
      (remembers (registry.evict now) jti = true ∨ registry.max ≤ (registry.evict now).length)) ∨
    (registry.accept jti exp now = (.ok (), { registry with seen := registry.evict now ++ [(jti, exp)] }) ∧
      remembers (registry.evict now) jti = false ∧ (registry.evict now).length < registry.max) := by
  by_cases hseen : remembers (registry.evict now) jti = true
  · exact .inl ⟨_, if_pos hseen, .inl hseen⟩
  by_cases hfull : registry.max ≤ (registry.evict now).length
  · exact .inl ⟨_, (if_neg hseen).trans (if_pos hfull), .inr hfull⟩
  · exact .inr ⟨(if_neg hseen).trans (if_neg hfull), by simpa using hseen, not_le.mp hfull⟩

/-! ## Verification -/

/-- A token with the call it is presented for. -/
structure Call where
  token : String
  public_key : List UInt8
  tool_id : String
  args : Value
  required_scopes : List String
  now : ℚ

/-- Claims that have passed every check but the registry's. -/
structure Presented (now : ℚ) where
  claims : List (String × Json)
  jti : String
  exp : Int
  unexpired : now ≤ exp + LEEWAY_S

def malformed (detail : String) : CapabilityError := .refused "TOKEN_MALFORMED" detail

/-- `set(value or [])`, as far as strings can be found in it. -/
def granted : Json → Except CapabilityError (List String)
  | .null => .ok []
  | .bool b => if b then .error .type_error else .ok []
  | .int n => if n = 0 then .ok [] else .error .type_error
  | .float zero => if zero then .ok [] else .error .type_error
  | .str s => .ok (s.toList.map fun c => String.ofList [c])
  | .dict items => .ok (items.map (·.1))
  | .list items => items.foldr (fun item rest => do
      let scopes ← rest
      match item with
      | .str s => return s :: scopes
      | .list _ | .dict _ => throw .type_error
      | _ => return scopes) (.ok [])

section

variable [Codec] [Sha256]

/-- `_unb64`: the segment, padded. -/
def _unb64 (text : List Char) : Except CapabilityError (List UInt8) :=
  match Codec.urlsafe_b64decode (text ++ List.replicate ((4 - text.length % 4) % 4) '=') with
  | some bytes => .ok bytes
  | none => .error (malformed "bad base64url segment")

/-- A decoded segment as JSON. Whatever goes wrong is reported as `detail`. -/
def segment (text : List Char) (detail : String) : Except CapabilityError Json :=
  match _unb64 text with
  | .error _ => .error (malformed detail)
  | .ok bytes =>
    match Codec.loads bytes with
    | none => .error (malformed detail)
    | some value => .ok value

/-- The signature of a token: its claims, once the header and the signature are checked. -/
def authentic (token : List Char) (public_key : List UInt8) :
    Except CapabilityError (List (String × Json)) :=
  match split '.' token with
  | [head, body, signature] => do
    let header ← segment head "header is not JSON"
    match header with
    | .dict items =>
      if (Json.get items "alg").isStr "EdDSA" = false then
        throw (.refused "ALG_REJECTED" "only EdDSA capabilities are accepted")
    | _ => throw (.refused "ALG_REJECTED" "only EdDSA capabilities are accepted")
    let bytes ← _unb64 signature
    let message := head ++ '.' :: body
    if (message.all fun c => decide (IsAscii c)) = false ∨
        Codec.ed25519_verify public_key bytes (ascii message) = false then
      throw (.refused "SIGNATURE_INVALID" "signature does not verify")
    match ← segment body "claims are not JSON" with
    | .dict claims => return claims
    | _ => throw (malformed "claims must be an object")
  | _ => throw (malformed "expected three segments")

variable {claims : List (String × Json)}

omit [Sha256] in
theorem authentic_of_parts {token head body signature : List Char} {public_key bytes : List UInt8}
    {items : List (String × Json)} (hparts : split '.' token = [head, body, signature])
    (hhead : segment head "header is not JSON" = .ok (.dict items))
    (halg : (Json.get items "alg").isStr "EdDSA" = true) (hsignature : _unb64 signature = .ok bytes)
    (hsigned : ¬ ((head ++ '.' :: body).all fun c => decide (IsAscii c)) = false ∧
      ¬ Codec.ed25519_verify public_key bytes (ascii (head ++ '.' :: body)) = false)
    (hbody : segment body "claims are not JSON" = .ok (.dict claims)) :
    authentic token public_key = .ok claims := by
  have halg : ¬ (Json.get items "alg").isStr "EdDSA" = false := by rw [halg]; decide
  unfold authentic
  rw [hparts]
  dsimp only
  rw [hhead, hsignature, hbody]
  show (do
    if (Json.get items "alg").isStr "EdDSA" = false then
      throw (CapabilityError.refused "ALG_REJECTED" "only EdDSA capabilities are accepted")
    let bytes ← Except.ok bytes
    _) = Except.ok claims
  rw [if_neg halg]
  exact if_neg (not_or.mpr hsigned)

/-- `verify` up to the registry. -/
def presented (call : Call) : Except CapabilityError (Presented call.now) :=
  match authentic call.token.toList call.public_key with
  | .error e => .error e
  | .ok claims =>
    if (Json.get claims "iss").isStr ISSUER = false then
      .error (.refused "ISSUER_REJECTED" "unexpected issuer")
    else if (Json.get claims "aud").isStr call.tool_id = false then
      .error (.refused "AUDIENCE_MISMATCH" "capability was issued for another tool")
    else if (Json.get claims "args_sha256").isStr (canonical_hash call.args) = false then
      .error (.refused "ARGS_MISMATCH" "capability was issued for different arguments")
    else
      match (Json.get claims "exp").int?, (Json.get claims "iat").int? with
      | some exp, some iat =>
        if exp - iat > MAX_TTL_S ∨ exp - iat < 1 then
          .error (.refused "TTL_INVALID" "lifetime outside the allowed range")
        else if h : call.now ≤ exp + LEEWAY_S then
          if (iat : ℚ) > call.now + LEEWAY_S then
            .error (.refused "TOKEN_NOT_YET_VALID" "capability issued in the future")
          else
            match granted (Json.get claims "scopes") with
            | .error e => .error e
            | .ok scopes =>
              let missing := call.required_scopes.filter fun s => !scopes.contains s
              if missing ≠ [] then .error (.scope_insufficient missing)
              else
                match Json.get claims "jti" with
                | .str jti =>
                  if jti = "" then .error (malformed "jti is required")
                  else .ok ⟨claims, jti, exp, h⟩
                | _ => .error (malformed "jti is required")
        else .error (.refused "TOKEN_EXPIRED" "capability has expired")
      | _, _ => .error (malformed "iat and exp must be integers")

variable {call : Call}

variable {jti : String}

theorem presented_of_claims {exp iat : Int} {scopes : List String}
    (hclaims : authentic call.token.toList call.public_key = .ok claims)
    (hiss : (Json.get claims "iss").isStr ISSUER = true)
    (haud : (Json.get claims "aud").isStr call.tool_id = true)
    (hargs : (Json.get claims "args_sha256").isStr (canonical_hash call.args) = true)
    (hexp : (Json.get claims "exp").int? = some exp) (hiat : (Json.get claims "iat").int? = some iat)
    (httl : ¬ (exp - iat > MAX_TTL_S ∨ exp - iat < 1)) (hnow : call.now ≤ exp + LEEWAY_S)
    (hissued : (iat : ℚ) ≤ call.now + LEEWAY_S) (hscopes : granted (Json.get claims "scopes") = .ok scopes)
    (hcovered : call.required_scopes.filter (fun s => !scopes.contains s) = [])
    (hjti : Json.get claims "jti" = .str jti) (hne : jti ≠ "") :
    presented call = .ok ⟨claims, jti, exp, hnow⟩ := by
  unfold presented
  rw [hclaims]
  dsimp only
  rw [if_neg (by rw [hiss]; decide), if_neg (by rw [haud]; decide), if_neg (by rw [hargs]; decide), hexp, hiat]
  dsimp only
  rw [if_neg httl, dif_pos hnow, if_neg (not_lt.mpr hissued), hscopes]
  dsimp only
  rw [if_neg (by rw [hcovered]; simp), hjti]
  exact if_neg hne

/-- Return the verified claims, or the error, and the registry after the call. -/
def verify (call : Call) (registry : JTIRegistry) :
    Except CapabilityError (List (String × Json)) × JTIRegistry :=
  match presented call with
  | .error e => (.error e, registry)
  | .ok p =>
    match registry.accept p.jti p.exp call.now with
    | (.error e, registry) => (.error e, registry)
    | (.ok (), registry) => (.ok p.claims, registry)

variable {registry : JTIRegistry}

theorem verify_of_accept {registry' : JTIRegistry} {p : Presented call.now} (hp : presented call = .ok p)
    (haccept : registry.accept p.jti p.exp call.now = (.ok (), registry')) :
    verify call registry = (.ok p.claims, registry') := by
  unfold verify
  rw [hp]
  dsimp only
  rw [haccept]

/-! ## Runs -/

/-- A call that was made, the registry it found and what it returned. -/
structure Use where
  call : Call
  registry : JTIRegistry
  outcome : Except CapabilityError (List (String × Json))

structure Verifier where
  clock : ℚ
  registry : JTIRegistry
  /-- The calls so far, oldest first. -/
  log : List Use

/-- One call, at a reading of the clock that is not before the last one. -/
def step (s : Verifier) (call : Call) : Option Verifier :=
  if s.clock ≤ call.now then
    let done := verify call s.registry
    some ⟨call.now, done.2, s.log ++ [⟨call, s.registry, done.1⟩]⟩
  else none

/-- The call presents a token that passes every check but the registry's. -/
def Use.Presents (u : Use) (jti : String) (exp : Int) : Prop :=
  ∃ p, presented u.call = .ok p ∧ p.jti = jti ∧ p.exp = exp

/-- The call returned the claims of the token. -/
def Use.Accepts (u : Use) (jti : String) (exp : Int) : Prop :=
  ∃ p, presented u.call = .ok p ∧ p.jti = jti ∧ p.exp = exp ∧ u.outcome = .ok p.claims

/-- The identifiers the call still remembered. -/
def Use.live (u : Use) : List (String × Int) := u.registry.evict u.call.now

/-- The outcome is the one of `verify`. -/
def Use.Answered (u : Use) : Prop := u.outcome = (verify u.call u.registry).1

theorem Use.Answered.accepts_iff {u : Use} (h : u.Answered) {exp : Int} :
    u.Accepts jti exp ↔ u.Presents jti exp ∧ remembers u.live jti = false ∧ u.live.length < u.registry.max := by
  constructor
  · rintro ⟨p, hp, rfl, rfl, hout⟩
    refine ⟨⟨p, hp, rfl, rfl⟩, ?_⟩
    rw [h, verify, hp] at hout
    rcases accept_cases u.registry p.jti p.exp u.call.now with ⟨e, heq, -⟩ | ⟨-, hok⟩
    · dsimp only at hout
      rw [heq] at hout
      cases hout
    · exact hok
  · rintro ⟨⟨p, hp, rfl, rfl⟩, hnew, hroom⟩
    refine ⟨p, hp, rfl, rfl, ?_⟩
    rw [h, verify, hp]
    rcases accept_cases u.registry p.jti p.exp u.call.now with ⟨e, -, hbad⟩ | ⟨heq, -⟩
    · rcases hbad with hbad | hbad
      · exact absurd (hbad.symm.trans hnew) (by decide)
      · exact absurd hroom (not_lt.mpr hbad)
    · dsimp only
      rw [heq]

/-- **What a call does to the registry**: nothing, or it drops what has expired and at most
    adds the token it accepts. -/
theorem verify_seen (call : Call) (registry : JTIRegistry) : (verify call registry).2 = registry ∨
    (verify call registry).2.seen = registry.evict call.now ∨
    ∃ p, presented call = .ok p ∧ (verify call registry).1 = .ok p.claims ∧
      (verify call registry).2.seen = registry.evict call.now ++ [(p.jti, p.exp)] := by
  cases hp : presented call with
  | error e =>
    left
    rw [verify, hp]
  | ok p =>
    right
    rw [verify, hp]
    rcases accept_cases registry p.jti p.exp call.now with ⟨e, heq, -⟩ | ⟨heq, -⟩
    · left
      dsimp only
      rw [heq]
    · right
      refine ⟨p, rfl, ?_⟩
      dsimp only
      rw [heq]
      exact ⟨rfl, rfl⟩

theorem run_two {clock : ℚ} {c c' : Call} (h : clock ≤ c.now) (h' : c.now ≤ c'.now) :
    ∃ s, run step ⟨clock, registry, []⟩ [c, c'] = some s ∧ s.log = [⟨c, registry, (verify c registry).1⟩,
        ⟨c', (verify c registry).2, (verify c' (verify c registry).2).1⟩] := by
  refine ⟨⟨c'.now, (verify c' (verify c registry).2).2, _⟩, ?_, rfl⟩
  have hfirst : step ⟨clock, registry, []⟩ c =
      some ⟨c.now, (verify c registry).2, [⟨c, registry, (verify c registry).1⟩]⟩ := if_pos h
  show (step ⟨clock, registry, []⟩ c).bind (fun s => (step s c').bind some) = _
  rw [hfirst, Option.bind_some, Option.bind_fun_some]
  exact if_pos h'

/-- What every reachable state of a verifier keeps. -/
structure Sound (s : Verifier) : Prop where
  answered : ∀ u ∈ s.log, u.Answered
  past : ∀ u ∈ s.log, u.call.now ≤ s.clock
  /-- An accepted identifier is remembered until its token has expired. -/
  held : ∀ u ∈ s.log, ∀ jti exp, u.Accepts jti exp →
    (jti, exp) ∈ s.registry.seen ∨ (exp : ℚ) < s.clock
  /-- Only accepted identifiers are remembered. -/
  origin : ∀ jti exp, (jti, exp) ∈ s.registry.seen → ∃ (i : Nat) (u : Use),
    s.log[i]? = some u ∧ u.Accepts jti exp
  ordered : ∀ (i j : Nat) (u v : Use), i < j → s.log[i]? = some u → s.log[j]? = some v →
    u.call.now ≤ v.call.now
  found : ∀ (i j : Nat) (u v : Use), i < j → s.log[i]? = some u → s.log[j]? = some v → ∀ jti exp,
    u.Accepts jti exp → (jti, exp) ∈ v.registry.seen ∨ (exp : ℚ) < v.call.now
  origins : ∀ (j : Nat) (v : Use), s.log[j]? = some v → ∀ jti exp, (jti, exp) ∈ v.registry.seen →
    ∃ (i : Nat) (u : Use), i < j ∧ s.log[i]? = some u ∧ u.Accepts jti exp

theorem Sound.init (max : Int) (clock : ℚ) : Sound ⟨clock, { max := max }, []⟩ :=
  ⟨by simp, by simp, by simp, by simp, by simp, by simp, by simp⟩

variable {s : Verifier}

theorem Sound.step {s' : Verifier} (h : Sound s) (hstep : step s call = some s') : Sound s' := by
  unfold Capability.step at hstep
  split at hstep
  case isFalse => cases hstep
  rename_i hclock
  cases hstep
  have hans : Use.Answered ⟨call, s.registry, (verify call s.registry).1⟩ := rfl
  -- an entry that has not expired stays, whatever the call comes to
  have stays : ∀ jti exp, (jti, exp) ∈ s.registry.seen → call.now ≤ exp →
      (jti, exp) ∈ (verify call s.registry).2.seen := by
    intro jti exp hmem hnow
    have hlive := mem_evict.mpr ⟨hmem, hnow⟩
    rcases verify_seen call s.registry with heq | heq | ⟨p, -, -, heq⟩
    · rw [heq]
      exact hmem
    · rw [heq]
      exact hlive
    · rw [heq]
      exact List.mem_append_left _ hlive
  have old : ∀ {i : Nat} {u : Use}, s.log[i]? = some u →
      (s.log ++ [⟨call, s.registry, (verify call s.registry).1⟩])[i]? = some u := by
    intro i u hi
    rw [List.getElem?_append_left (List.getElem?_eq_some_iff.mp hi).1]
    exact hi
  refine ⟨?_, ?_, ?_, ?_, ?_, ?_, ?_⟩
  · intro u hu
    rcases List.mem_append.mp hu with hu | hu
    · exact h.answered u hu
    · rw [List.mem_singleton] at hu
      rw [hu]
      exact hans
  · intro u hu
    rcases List.mem_append.mp hu with hu | hu
    · exact (h.past u hu).trans hclock
    · rw [List.mem_singleton] at hu
      rw [hu]
  · intro u hu jti exp hacc
    rcases List.mem_append.mp hu with hu | hu
    · rcases h.held u hu jti exp hacc with hmem | hexp
      · by_cases hnow : call.now ≤ exp
        · exact .inl (stays jti exp hmem hnow)
        · exact .inr (not_le.mp hnow)
      · exact .inr (hexp.trans_le hclock)
    · rw [List.mem_singleton] at hu
      subst hu
      left
      obtain ⟨-, hnew, hroom⟩ := hans.accepts_iff.mp hacc
      obtain ⟨p, hp, rfl, rfl, -⟩ := hacc
      show _ ∈ (verify call s.registry).2.seen
      rw [verify, hp]
      rcases accept_cases s.registry p.jti p.exp call.now with ⟨e, -, hbad | hbad⟩ | ⟨heq, -⟩
      · exact absurd (hbad.symm.trans hnew) (by decide)
      · exact absurd hroom (not_lt.mpr hbad)
      · dsimp only
        rw [heq]
        exact List.mem_append_right _ List.mem_cons_self
  · intro jti exp hmem
    have keep : (jti, exp) ∈ s.registry.seen → ∃ (i : Nat) (u : Use),
        (s.log ++ [⟨call, s.registry, (verify call s.registry).1⟩])[i]? = some u ∧ u.Accepts jti exp := by
      intro hmem
      obtain ⟨i, u, hi, hu⟩ := h.origin jti exp hmem
      exact ⟨i, u, old hi, hu⟩
    rcases verify_seen call s.registry with heq | heq | ⟨p, hp, hout, heq⟩
    · rw [heq] at hmem
      exact keep hmem
    · rw [heq] at hmem
      exact keep (mem_evict.mp hmem).1
    · rw [heq, List.mem_append, List.mem_singleton] at hmem
      rcases hmem with hmem | hmem
      · exact keep (mem_evict.mp hmem).1
      · cases hmem
        exact ⟨s.log.length, _, List.getElem?_concat_length, p, hp, rfl, rfl, hout⟩
  · intro i j u v hij hi hj
    rcases getElem?_concat hj with hj | ⟨rfl, rfl⟩
    · rw [List.getElem?_append_left (hij.trans (List.getElem?_eq_some_iff.mp hj).1)] at hi
      exact h.ordered i j u v hij hi hj
    · rw [List.getElem?_append_left hij] at hi
      exact (h.past u (List.mem_of_getElem? hi)).trans hclock
  · intro i j u v hij hi hj jti exp hacc
    rcases getElem?_concat hj with hj | ⟨rfl, rfl⟩
    · rw [List.getElem?_append_left (hij.trans (List.getElem?_eq_some_iff.mp hj).1)] at hi
      exact h.found i j u v hij hi hj jti exp hacc
    · rw [List.getElem?_append_left hij] at hi
      refine (h.held u (List.mem_of_getElem? hi) jti exp hacc).imp_right fun hexp => ?_
      exact hexp.trans_le hclock
  · intro j v hj jti exp hmem
    rcases getElem?_concat hj with hj | ⟨rfl, rfl⟩
    · obtain ⟨i, u, hij, hi, hu⟩ := h.origins j v hj jti exp hmem
      exact ⟨i, u, hij, old hi, hu⟩
    · obtain ⟨i, u, hi, hu⟩ := h.origin jti exp hmem
      exact ⟨i, u, (List.getElem?_eq_some_iff.mp hi).1, old hi, hu⟩

theorem run_sound {max : Int} {clock : ℚ} {calls : List Call}
    (hrun : run Capability.step ⟨clock, { max := max }, []⟩ calls = some s) : Sound s :=
  run_invariant (P := Sound) (.init max clock) (fun _ _ _ h hstep => h.step hstep) hrun

/-! ## Single use -/

/-- Within the acceptance window of an accepted token, the leeway included, its identifier
    is not accepted again. -/
def SingleUse (log : List Use) : Prop :=
  ∀ (i j : Nat) (u v : Use), i < j → log[i]? = some u → log[j]? = some v → ∀ jti exp exp',
    u.Accepts jti exp → v.Accepts jti exp' → (exp + LEEWAY_S : ℚ) < v.call.now

/-- No call presents the identifier of an accepted token in the leeway after its `exp`,
    unless the registry is full. -/
def NotInLeeway (log : List Use) : Prop :=
  ∀ (i j : Nat) (u v : Use), i < j → log[i]? = some u → log[j]? = some v → ∀ jti exp exp',
    u.Accepts jti exp → v.Presents jti exp' →
      ¬ ((exp : ℚ) < v.call.now ∧ v.call.now ≤ exp + LEEWAY_S) ∨ v.registry.max ≤ v.live.length

/-- **Single use.** In every run of a verifier, each identifier is accepted at most once in
    its token's acceptance window exactly when none is presented again in the leeway. -/
theorem single_use_iff {max : Int} {clock : ℚ} {calls : List Call} {s : Verifier}
    (hrun : run Capability.step ⟨clock, { max := max }, []⟩ calls = some s) :
    SingleUse s.log ↔ NotInLeeway s.log := by
  have hs := run_sound hrun
  constructor
  · intro hsingle i j u v hij hi hj jti exp exp' hu hv
    by_contra hbad
    rw [not_or, not_not, not_le] at hbad
    obtain ⟨⟨hexp, hleeway⟩, hroom⟩ := hbad
    have hans := hs.answered v (List.mem_of_getElem? hj)
    by_cases hlive : remembers v.live jti = true
    · -- then a third call accepted the identifier, and it is inside some window too
      obtain ⟨e, hmem⟩ := remembers_iff.mp hlive
      obtain ⟨hmem, he⟩ := mem_evict.mp hmem
      obtain ⟨k, w, hkj, hk, hw⟩ := hs.origins j v hj jti e hmem
      rcases Nat.lt_trichotomy i k with hik | rfl | hki
      · have hlate := hsingle i k u w hik hi hk jti exp e hu hw
        have hord := hs.ordered k j w v hkj hk hj
        exact absurd hleeway (not_le.mpr (hlate.trans_le hord))
      · cases hi.symm.trans hk
        obtain ⟨p, hp, -, rfl, -⟩ := hu
        obtain ⟨p', hp', -, rfl, -⟩ := hw
        cases hp.symm.trans hp'
        exact absurd he (not_le.mpr hexp)
      · have hlate := hsingle k i w u hki hk hi jti e exp hw hu
        have hord := hs.ordered i j u v hij hi hj
        have hpos : (0 : ℚ) < LEEWAY_S := by norm_num [LEEWAY_S]
        linarith
    · have hacc : v.Accepts jti exp' :=
        hans.accepts_iff.mpr ⟨hv, by simpa using hlive, hroom⟩
      exact absurd hleeway (not_le.mpr (hsingle i j u v hij hi hj jti exp exp' hu hacc))
  · intro hnot i j u v hij hi hj jti exp exp' hu hv
    have hans := hs.answered v (List.mem_of_getElem? hj)
    obtain ⟨hpres, hnew, hroom⟩ := hans.accepts_iff.mp hv
    rcases hnot i j u v hij hi hj jti exp exp' hu hpres with houtside | hfull
    · by_contra hinside
      refine houtside ⟨?_, not_lt.mp hinside⟩
      by_contra hexp
      rcases hs.found i j u v hij hi hj jti exp hu with hmem | hlt
      · have hlive : remembers v.live jti = true :=
          remembers_iff.mpr ⟨exp, mem_evict.mpr ⟨hmem, not_lt.mp hexp⟩⟩
        exact absurd (hlive.symm.trans hnew) (by decide)
      · exact hexp hlt
    · exact absurd hroom (not_lt.mpr hfull)

end

/-! ## A token used twice -/

/-- A character of the URL-safe base64 alphabet. -/
def b64Char (n : Nat) : Char :=
  if n < 26 then Char.ofNat (n + 65)
  else if n < 52 then Char.ofNat (n + 71)
  else if n < 62 then Char.ofNat (n - 4)
  else if n = 62 then '-' else '_'

/-- `base64.urlsafe_b64encode(data).rstrip(b"=")` -/
def _b64 : List UInt8 → List Char
  | [] => []
  | [a] => [b64Char (a.toNat / 4), b64Char (a.toNat % 4 * 16)]
  | [a, b] =>
    [b64Char (a.toNat / 4), b64Char (a.toNat % 4 * 16 + b.toNat / 16), b64Char (b.toNat % 16 * 4)]
  | a :: b :: c :: data =>
    b64Char (a.toNat / 4) :: b64Char (a.toNat % 4 * 16 + b.toNat / 16) ::
      b64Char (b.toNat % 16 * 4 + c.toNat / 64) :: b64Char (c.toNat % 64) :: _b64 data

def headerJson : List UInt8 :=
  ascii "\x7b\"alg\":\"EdDSA\",\"typ\":\"amc-cap+jwt\"\x7d".toList

/-- The claims of a token for the tool `t` and no arguments, issued at 1000 for 60
    seconds, as the issuer writes them. -/
def claimsJson : List UInt8 :=
  ["\x7b\"args_sha256\":", "\"259be8f35e2791822dace0ef63397e21", "b1231fcff9317469b5dd1d6f3ccc4296\",",
    "\"aud\":\"t\",\"exp\":1060,\"iat\":1000,", "\"iss\":\"amc-council-gateway\",\"jti\":\"j1\",",
    "\"mission_id\":\"-\",\"project_id\":null,", "\"scopes\":[],\"sub\":\"s\",\"tenant_id\":null\x7d"].flatMap
    fun text => ascii text.toList

/-- The public key of the seed 0, 1, …, 31. -/
def issuerKey : List UInt8 :=
  [3, 161, 7, 191, 243, 206, 16, 190, 29, 112, 221, 24, 231, 75, 192, 153, 103, 228, 214, 48,
   155, 165, 13, 95, 29, 220, 134, 100, 18, 85, 49, 184]

def signature : List UInt8 :=
  [235, 231, 207, 40, 141, 247, 73, 193, 97, 248, 108, 23, 66, 141, 160, 0, 15, 66, 150, 57,
   111, 50, 87, 87, 105, 134, 18, 238, 33, 87, 177, 236, 198, 86, 82, 32, 68, 248, 186, 86,
   223, 3, 112, 185, 31, 63, 247, 143, 47, 252, 136, 235, 231, 195, 36, 0, 249, 217, 173, 181,
   223, 135, 249, 14]

def tokenClaims : List (String × Json) :=
  [("args_sha256", .str "259be8f35e2791822dace0ef63397e21b1231fcff9317469b5dd1d6f3ccc4296"), ("aud", .str "t"),
    ("exp", .int 1060), ("iat", .int 1000), ("iss", .str "amc-council-gateway"), ("jti", .str "j1"),
    ("mission_id", .str "-"), ("project_id", .null), ("scopes", .list []), ("sub", .str "s"),
    ("tenant_id", .null)]

def signingInput : List Char := _b64 headerJson ++ '.' :: _b64 claimsJson

def mintedToken : List Char := signingInput ++ '.' :: _b64 signature

/-- The decoders and the signature check, on the parts of the token. -/
@[reducible] def tokenCodec : Codec where
  urlsafe_b64decode text :=
    [headerJson, claimsJson, signature].find? fun data => _b64 data == text.filter (· != '=')
  loads bytes :=
    if bytes = headerJson then some (.dict [("alg", .str "EdDSA"), ("typ", .str "amc-cap+jwt")])
    else if bytes = claimsJson then some (.dict tokenClaims)
    else none
  ed25519_verify public_key bytes message :=
    public_key == issuerKey && bytes == signature && message == ascii signingInput

/-- The digest of the canonical bytes of no arguments. -/
@[reducible] def emptyArgsHash : Sha256 where
  hexdigest _ := "259be8f35e2791822dace0ef63397e21b1231fcff9317469b5dd1d6f3ccc4296"

/-- The token is presented for its tool, at a reading of the clock. -/
def presentAt (now : ℚ) : Call where
  token := String.ofList mintedToken
  public_key := issuerKey
  tool_id := "t"
  args := .dict []
  required_scopes := []
  now := now

section

attribute [local instance] tokenCodec emptyArgsHash

variable {data : List UInt8}

theorem unb64_minted (h : data ∈ [headerJson, claimsJson, signature]) : _unb64 (_b64 data) = .ok data := by
  have hdecode : ∀ d ∈ [headerJson, claimsJson, signature], Codec.urlsafe_b64decode
      (_b64 d ++ List.replicate ((4 - (_b64 d).length % 4) % 4) '=') = some d := by
    decide +kernel
  unfold _unb64
  rw [hdecode data h]

theorem segment_minted {value : Json} {detail : String} (h : data ∈ [headerJson, claimsJson, signature])
    (hloads : Codec.loads data = some value) : segment (_b64 data) detail = .ok value := by
  unfold segment
  rw [unb64_minted h]
  dsimp only
  rw [hloads]

theorem authentic_minted : authentic mintedToken issuerKey = .ok tokenClaims := by
  have hparts : split '.' mintedToken = [_b64 headerJson, _b64 claimsJson, _b64 signature] := by
    decide +kernel
  have hsigned : ¬ ((signingInput.all fun c => decide (IsAscii c)) = false ∨
      Codec.ed25519_verify issuerKey signature (ascii signingInput) = false) := by
    decide +kernel
  have hclaims : Codec.loads claimsJson = some (.dict tokenClaims) := by
    have hne : claimsJson ≠ headerJson := by decide +kernel
    exact (if_neg hne).trans (if_pos rfl)
  have hhead : segment (_b64 headerJson) "header is not JSON" =
      .ok (.dict [("alg", .str "EdDSA"), ("typ", .str "amc-cap+jwt")]) :=
    segment_minted (.head _) (if_pos rfl)
  have hbody : segment (_b64 claimsJson) "claims are not JSON" = .ok (.dict tokenClaims) :=
    segment_minted (.tail _ (.head _)) hclaims
  have hsignature : _unb64 (_b64 signature) = .ok signature :=
    unb64_minted (.tail _ (.tail _ (.head _)))
  exact authentic_of_parts hparts hhead (by decide +kernel) hsignature (not_or.mp hsigned) hbody

theorem presented_at (now : ℚ) (hissued : 995 ≤ now) (hexpired : now ≤ 1065) :
    ∃ p, presented (presentAt now) = .ok p ∧ p.jti = "j1" ∧ p.exp = 1060 := by
  have hclaims : authentic (presentAt now).token.toList (presentAt now).public_key = .ok tokenClaims := by
    show authentic (String.ofList mintedToken).toList issuerKey = _
    rw [String.toList_ofList]
    exact authentic_minted
  have hnow : (presentAt now).now ≤ (1060 : Int) + LEEWAY_S := by
    show now ≤ _
    norm_num [LEEWAY_S]
    exact hexpired
  have hiat : ((1000 : Int) : ℚ) ≤ (presentAt now).now + LEEWAY_S := by
    show _ ≤ now + _
    norm_num [LEEWAY_S]
    linarith
  exact ⟨_, presented_of_claims hclaims rfl rfl rfl rfl rfl (by decide) hnow hiat rfl rfl rfl
    (by decide), rfl, rfl⟩

theorem verify_at (now : ℚ) (hissued : 995 ≤ now) (hexpired : now ≤ 1065) (registry : JTIRegistry)
    (hmax : registry.max = JTI_MAX) (hempty : registry.evict now = []) :
    (verify (presentAt now) registry).2 = { registry with seen := [("j1", 1060)] } ∧
      Use.Accepts ⟨presentAt now, registry, (verify (presentAt now) registry).1⟩ "j1" 1060 := by
  obtain ⟨p, hp, hjti, hexp⟩ := presented_at now hissued hexpired
  have haccept : registry.accept p.jti p.exp (presentAt now).now =
      (.ok (), { registry with seen := [("j1", 1060)] }) := by
    show registry.accept p.jti p.exp now = _
    rcases accept_cases registry p.jti p.exp now with ⟨e, -, hbad⟩ | ⟨heq, -⟩
    · rw [hempty, hmax] at hbad
      rcases hbad with hbad | hbad
      · cases hbad
      · cases hbad
    · rw [heq, hempty, hjti, hexp]
      rfl
  rw [verify_of_accept hp haccept]
  exact ⟨rfl, p, hp, hjti, hexp, rfl⟩

/-- The token is accepted before it expires and again in the leeway after. -/
theorem token_used_twice :
    ∃ s, run step ⟨1000, {}, []⟩ [presentAt 1060, presentAt 1063] = some s ∧ ¬ SingleUse s.log := by
  obtain ⟨s, hs, hlog⟩ := run_two (show (1000 : ℚ) ≤ (presentAt 1060).now by decide)
    (show (presentAt 1060).now ≤ (presentAt 1063).now by decide)
  refine ⟨s, hs, fun hsingle => ?_⟩
  rw [hlog] at hsingle
  obtain ⟨hregistry, hfirst⟩ := verify_at 1060 (by norm_num) (by norm_num) {} rfl rfl
  rw [hregistry] at hsingle
  obtain ⟨-, hsecond⟩ := verify_at 1063 (by norm_num) (by norm_num)
    { max := JTI_MAX, seen := [("j1", 1060)] } rfl (by decide +kernel)
  have hlate : (1060 : Int) + LEEWAY_S < (1063 : ℚ) :=
    hsingle 0 1 _ _ Nat.zero_lt_one rfl rfl "j1" 1060 1060 hfirst hsecond
  norm_num [LEEWAY_S] at hlate

/-- The token is presented again before it expires, and refused. -/
theorem single_use_iff_replayed :
    ∃ s, run step ⟨1000, {}, []⟩ [presentAt 1030, presentAt 1040] = some s ∧ s.log.length = 2 ∧
      SingleUse s.log := by
  obtain ⟨s, hs, hlog⟩ := run_two (show (1000 : ℚ) ≤ (presentAt 1030).now by decide)
    (show (presentAt 1030).now ≤ (presentAt 1040).now by decide)
  refine ⟨s, hs, by rw [hlog]; rfl, (single_use_iff hs).mpr ?_⟩
  intro i j u v hij hi hj jti exp exp' hu hv
  left
  rintro ⟨hexp, -⟩
  rw [hlog] at hi hj
  -- the only pair of calls is the first and the second
  obtain ⟨rfl, rfl⟩ : i = 0 ∧ j = 1 := by
    have hlt := (List.getElem?_eq_some_iff.mp hj).1
    simp only [List.length_cons, List.length_nil] at hlt
    omega
  obtain ⟨p, hp, -, rfl, -⟩ := hu
  obtain ⟨p', hp', -, hexp'⟩ := presented_at 1030 (by norm_num) (by norm_num)
  cases Option.some.inj hi
  cases Option.some.inj hj
  cases hp.symm.trans hp'
  rw [hexp'] at hexp
  have hexp : ((1060 : Int) : ℚ) < 1040 := hexp
  norm_num at hexp

end

end Capability
