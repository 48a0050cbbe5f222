import MissionControl.Ingress.Signing
import MissionControl.Transition.Run

/-! # Replay protection

The two stores of accepted nonces, and the middleware in front of the application. A
request is authenticated against one reading of the clock; the check of its nonce runs
at some later moment, with that reading. Between the two any other request may be
authenticated or checked. -/

namespace Ingress

open Encoding Python Transition

/-! ## The stores -/

/-- `ReplayDetected` and `ReplayStoreSaturated`, with their texts. -/
inductive ReplayError where
  | detected (text : String)
  | saturated (text : String)
  deriving DecidableEq, Repr

/-- Accepted nonces with the second each expires after. -/
abbrev Nonces : Type := List (String × Int)

/-- `nonce in nonces` -/
def Nonces.has (nonces : Nonces) (nonce : String) : Bool := nonces.any (·.1 == nonce)

/-- `int(now)` of a float: towards zero. -/
def int (now : ℚ) : Int := if 0 ≤ now then ⌊now⌋ else ⌈now⌉

def MemoryReplayStore._purge (nonces : Nonces) (now : ℚ) : Nonces :=
  nonces.filter fun n => !decide ((n.2 : ℚ) < now)

/-- The process-local store. What the purge removed stays removed whether or not the
    nonce is then accepted. -/
def MemoryReplayStore.check_and_record (window max_entries : Int) (nonce : String)
    (timestamp : Int) (now : ℚ) (nonces : Nonces) : Except ReplayError Unit × Nonces :=
  let expires := timestamp + window
  let live := MemoryReplayStore._purge nonces now
  if live.has nonce then (.error (.detected "nonce already used"), live)
  else if max_entries ≤ live.length then
    (.error (.saturated "replay store is full of live nonces"), live)
  else (.ok (), live ++ [(nonce, expires)])

def DatabaseReplayStore.delete (nonces : Nonces) (now_s : Int) : Nonces :=
  nonces.filter fun n => !decide (n.2 < now_s)

/-- The store in the application database. The transaction of a refused nonce is rolled
    back, the deletion with it. -/
def DatabaseReplayStore.check_and_record (window max_entries : Int) (nonce : String)
    (timestamp : Int) (now : ℚ) (nonces : Nonces) : Except ReplayError Unit × Nonces :=
  let now_s := int now
  let expires := timestamp + window
  let kept := DatabaseReplayStore.delete nonces now_s
  if kept.has nonce then (.error (.detected "nonce already used"), nonces)
  else
    let live := kept.filter fun n => decide (now_s ≤ n.2)
    if max_entries ≤ live.length then
      (.error (.saturated "replay store is full of live nonces"), nonces)
    -- `ON CONFLICT (nonce) DO NOTHING` inserts the row: no kept row has the nonce
    else (.ok (), kept ++ [(nonce, expires)])

inductive ReplayBackend where
  | database
  | memory
  deriving DecidableEq, Repr

/-- `build_replay_store(backend, …).check_and_record` -/
def ReplayBackend.check_and_record : ReplayBackend → Int → Int → String → Int → ℚ → Nonces →
    Except ReplayError Unit × Nonces
  | .database => DatabaseReplayStore.check_and_record
  | .memory => MemoryReplayStore.check_and_record

/-- The nonces a check at `now` still counts. -/
def ReplayBackend.live : ReplayBackend → Nonces → ℚ → Nonces
  | .database, nonces, now => DatabaseReplayStore.delete nonces (int now)
  | .memory, nonces, now => MemoryReplayStore._purge nonces now

variable {n : String × Int} {nonces : Nonces}

theorem mem_live (backend : ReplayBackend) {now : ℚ} (hn : n ∈ nonces) (hnow : now ≤ n.2) :
    n ∈ backend.live nonces now := by
  cases backend with
  | database =>
    refine List.mem_filter.mpr ⟨hn, ?_⟩
    rw [Bool.not_eq_true', decide_eq_false_iff_not, not_lt]
    unfold int
    split
    · exact Int.cast_le.mp ((Int.floor_le now).trans hnow)
    · exact Int.ceil_le.mpr hnow
  | memory =>
    refine List.mem_filter.mpr ⟨hn, ?_⟩
    rw [Bool.not_eq_true', decide_eq_false_iff_not, not_lt]
    exact hnow

theorem live_subset {backend : ReplayBackend} {now : ℚ} (hn : n ∈ backend.live nonces now) : n ∈ nonces := by
  cases backend with
  | database => exact (List.mem_filter.mp hn).1
  | memory => exact (List.mem_filter.mp hn).1

theorem counted (nonces : Nonces) (now : ℚ) :
    ((DatabaseReplayStore.delete nonces (int now)).filter fun n => decide (int now ≤ n.2)) =
      ReplayBackend.database.live nonces now := by
  refine List.filter_eq_self.mpr fun n hn => ?_
  have hkept := (List.mem_filter.mp hn).2
  simpa using hkept

/-- **What a check does**: it refuses a nonce it still counts, refuses any other when it
    counts as many as it may hold, and otherwise records the nonce beside those it counts.
    Nothing it counts is forgotten. -/
theorem check_and_record_cases (backend : ReplayBackend) (window max_entries : Int)
    (nonce : String) (timestamp : Int) (now : ℚ) (nonces : Nonces) : let live := backend.live nonces now
    let done := backend.check_and_record window max_entries nonce timestamp now nonces
    (live.has nonce = true ∧ done.1 = .error (.detected "nonce already used") ∧ live ⊆ done.2) ∨
    (live.has nonce = false ∧ max_entries ≤ live.length ∧
      done.1 = .error (.saturated "replay store is full of live nonces") ∧ live ⊆ done.2) ∨
    (live.has nonce = false ∧ live.length < max_entries ∧
      done = (.ok (), live ++ [(nonce, timestamp + window)])) := by
  intro live done
  by_cases hhas : live.has nonce = true
  · left
    cases backend with
    | database =>
      have hdone : done = (.error (.detected "nonce already used"), nonces) := if_pos hhas
      exact ⟨hhas, by rw [hdone], fun n hn => by rw [hdone]; exact live_subset hn⟩
    | memory =>
      have hdone : done = (.error (.detected "nonce already used"), live) := if_pos hhas
      exact ⟨hhas, by rw [hdone], fun n hn => by rw [hdone]; exact hn⟩
  right
  have hnew : live.has nonce = false := by simpa using hhas
  by_cases hfull : max_entries ≤ live.length
  · left
    refine ⟨hnew, hfull, ?_⟩
    cases backend with
    | database =>
      have hdone : done = (.error (.saturated "replay store is full of live nonces"), nonces) :=
        (if_neg hhas).trans (if_pos (by rw [counted nonces now]; exact hfull))
      rw [hdone]
      exact ⟨rfl, fun n hn => live_subset hn⟩
    | memory =>
      have hdone : done = (.error (.saturated "replay store is full of live nonces"), live) :=
        (if_neg hhas).trans (if_pos hfull)
      rw [hdone]
      exact ⟨rfl, fun n hn => hn⟩
  · right
    refine ⟨hnew, not_le.mp hfull, ?_⟩
    cases backend with
    | database => exact (if_neg hhas).trans (if_neg (by rw [counted nonces now]; exact hfull))
    | memory => exact (if_neg hhas).trans (if_neg hfull)

/-! ## The middleware -/

structure HMACIngressConfig where
  header_name : String
  secret : List UInt8
  protected_paths : List String
  protected_methods : List String := ["POST"]
  max_body_bytes : Int := 1048576
  challenge_scheme : String := "HMAC"
  replay_window_seconds : Int := REPLAY_WINDOW_SECONDS
  max_nonces : Int := MAX_NONCES
  replay_backend : ReplayBackend := .database

/-- `__post_init__`: nothing, or the text it raises. -/
def HMACIngressConfig.post_init (config : HMACIngressConfig) : Except String Unit :=
  if blank config.header_name then .error "header_name is required"
  else if config.secret = [] then .error "secret is required"
  else if config.protected_paths = [] then .error "at least one protected path is required"
  else if config.max_body_bytes ≤ 0 then .error "max_body_bytes must be positive"
  else if ¬ (1 ≤ config.replay_window_seconds ∧ config.replay_window_seconds ≤ 3600) then
    .error "replay_window_seconds must be between 1 and 3600"
  else if config.max_nonces ≤ 0 then .error "max_nonces must be positive"
  else .ok ()

/-- An ASGI scope, as far as the middleware reads it. -/
structure Scope where
  type : String
  path : String
  method : String
  headers : List (List UInt8 × List UInt8)

/-- What `receive` returns. -/
inductive Message where
  | disconnect
  | request (body : List UInt8) (more_body : Bool)
  | other

/-- What the middleware answers a request it does not let through with, and what it does
    with one that needs no signature. -/
inductive Reply where
  | unprotected
  | unauthorized (challenge_scheme : String)
  | too_large
  | unavailable
  /-- The body has not arrived yet. -/
  | waiting
  deriving DecidableEq, Repr

def Reply.status : Reply → Option Nat
  | .unauthorized _ => some 401
  | .too_large => some 413
  | .unavailable => some 503
  | .unprotected | .waiting => none

def Reply.detail : Reply → Option String
  | .unauthorized _ => some "Unauthorized"
  | .too_large => some "Payload too large"
  | .unavailable => some "Service unavailable"
  | .unprotected | .waiting => none

def TIMESTAMP_HEADER : List UInt8 := ascii "x-amc-timestamp".toList

def NONCE_HEADER : List UInt8 := ascii "x-amc-nonce".toList

/-- `key.lower()` of a byte string. -/
def lowerBytes (key : List UInt8) : List UInt8 :=
  key.map fun b => if 65 ≤ b ∧ b ≤ 90 then b + 32 else b

/-- The header's value, if it is there once and is ASCII. -/
def _get_header (headers : List (List UInt8 × List UInt8)) (key : List UInt8) : Option String :=
  match headers.filter fun h => lowerBytes h.1 == key with
  | [h] =>
    if h.2.all fun b => decide (b < 128) then some (String.ofList (h.2.map Char.ofUInt8)) else none
  | _ => none

/-- The chunks received so far, and the messages still to come. -/
def _read_body (config : HMACIngressConfig) : List UInt8 → List Message → Except Reply (List UInt8)
  | _, [] => .error .waiting
  | _, .disconnect :: _ => .error (.unauthorized config.challenge_scheme)
  | chunks, .other :: messages => _read_body config chunks messages
  | chunks, .request chunk more_body :: messages =>
    if config.max_body_bytes < (chunks ++ chunk).length then .error .too_large
    else if more_body then _read_body config (chunks ++ chunk) messages
    else .ok (chunks ++ chunk)

section

variable [Hmac]

/-- A request whose signature has been verified against the reading `now`, and whose
    nonce has still to be checked. -/
structure Authenticated (config : HMACIngressConfig) where
  signed : Signed
  signature : String
  ts_value : Int
  now : ℚ
  verified : verify_v2 signed.body signature signed.timestamp signed.nonce config.secret now
    config.replay_window_seconds = .ok ts_value

/-- `__call__` up to the check of the nonce: `before` and `now` are its two readings of the
    clock, before and after it read the body. -/
def authenticate (config : HMACIngressConfig) (scope : Scope) (messages : List Message)
    (before now : ℚ) : Except Reply (Authenticated config) :=
  let refused := .error (.unauthorized config.challenge_scheme)
  if scope.type ≠ "http" then .error .unprotected
  else if scope.path ∉ config.protected_paths ∨
      scope.method.map Char.toUpper ∉ config.protected_methods.map (·.map Char.toUpper) then
    .error .unprotected
  else
    let header_key := ascii (config.header_name.map Char.toLower).toList
    match _get_header scope.headers header_key, _get_header scope.headers TIMESTAMP_HEADER,
        _get_header scope.headers NONCE_HEADER with
    | some signature, some timestamp, some nonce =>
      -- the cheap freshness check before the body is read
      match check_timestamp timestamp before config.replay_window_seconds with
      | .error _ => refused
      | .ok _ =>
        match _read_body config [] messages with
        | .error reply => .error reply
        | .ok raw_body =>
          match h : verify_v2 raw_body signature timestamp nonce config.secret now
              config.replay_window_seconds with
          | .error _ => refused
          | .ok ts_value => .ok ⟨⟨timestamp, nonce, raw_body⟩, signature, ts_value, now, h⟩
    | _, _, _ => refused

variable {config : HMACIngressConfig}

theorem Authenticated.fresh (a : Authenticated config) : a.ts_value = timestampValue a.signed.timestamp ∧
      a.now ≤ a.ts_value + config.replay_window_seconds := by
  obtain ⟨-, -, ht, -⟩ := verify_v2_ok_iff.mp a.verified
  obtain ⟨-, hvalue, hnow⟩ := check_timestamp_ok ht
  refine ⟨hvalue, ?_⟩
  have := (abs_le.mp hnow).2
  linarith

/-! ## Runs

The requests of any number of workers that share one store. -/

/-- A nonce check that ran: the request, the store it ran on and what it answered. -/
structure Check (config : HMACIngressConfig) where
  request : Authenticated config
  store : Nonces
  outcome : Except ReplayError Unit

structure State (config : HMACIngressConfig) where
  clock : ℚ
  store : Nonces
  waiting : List (Authenticated config)
  /-- The checks so far, oldest first. -/
  log : List (Check config)

inductive Event where
  /-- The clock moves on. -/
  | tick (now : ℚ)
  /-- A request arrives, reads the clock and is authenticated or refused. -/
  | arrive (scope : Scope) (messages : List Message) (before : ℚ)
  /-- One of the waiting requests runs its nonce check. -/
  | check (k : Nat)

def State.init (config : HMACIngressConfig) (clock : ℚ) : State config := ⟨clock, [], [], []⟩

def step (s : State config) : Event → Option (State config)
  | .tick now => if s.clock ≤ now then some { s with clock := now } else none
  | .arrive scope messages before =>
    if before ≤ s.clock then
      match authenticate config scope messages before s.clock with
      | .ok a => some { s with waiting := s.waiting ++ [a] }
      | .error _ => some s
    else none
  | .check k =>
    match s.waiting[k]? with
    | none => none
    | some a =>
      let done := config.replay_backend.check_and_record config.replay_window_seconds
        config.max_nonces a.signed.nonce a.ts_value a.now s.store
      some { s with
        waiting := s.waiting.eraseIdx k
        store := done.2
        log := s.log ++ [⟨a, s.store, done.1⟩] }

/-! ## What a check remembers -/

/-- The application was called with the request. -/
def Check.accepted (c : Check config) : Bool :=
  match c.outcome with
  | .ok () => true
  | .error _ => false

/-- The requests the application was called with. -/
def accepted (log : List (Check config)) : List Signed :=
  (log.filter Check.accepted).map (·.request.signed)

/-- The nonces the check counted. -/
def Check.live (c : Check config) : Nonces := config.replay_backend.live c.store c.request.now

/-- The nonce a check records, with the second it expires after. -/
def Authenticated.entry (a : Authenticated config) : String × Int :=
  (a.signed.nonce, a.ts_value + config.replay_window_seconds)

/-- Between the checks `i` and `j` one ran whose request read the clock after the window of
    the request of `i` had closed. -/
def Overtaken (log : List (Check config)) (i j : Nat) (a : Authenticated config) : Prop :=
  ∃ k c, i < k ∧ k < j ∧ log[k]? = some c ∧ (a.entry.2 : ℚ) < c.request.now

/-- The store's answer is the logged one. -/
def Check.Answered (c : Check config) : Prop :=
  c.outcome = (config.replay_backend.check_and_record config.replay_window_seconds
    config.max_nonces c.request.signed.nonce c.request.ts_value c.request.now c.store).1

variable {c : Check config}

theorem Check.Answered.accepted_iff (h : c.Answered) :
    c.accepted = true ↔ c.live.has c.request.signed.nonce = false ∧ c.live.length < config.max_nonces := by
  rcases check_and_record_cases config.replay_backend config.replay_window_seconds
    config.max_nonces c.request.signed.nonce c.request.ts_value c.request.now c.store with
    ⟨hhas, hdone, -⟩ | ⟨hnew, hfull, hdone, -⟩ | ⟨hnew, hroom, hdone⟩
  · have : c.accepted = false := by rw [Check.accepted, h, hdone]
    refine ⟨fun hc => (by rw [this] at hc; cases hc), fun hc => ?_⟩
    exact absurd (hhas.symm.trans hc.1) (by decide)
  · have : c.accepted = false := by rw [Check.accepted, h, hdone]
    refine ⟨fun hc => (by rw [this] at hc; cases hc), fun hc => ?_⟩
    exact absurd hc.2 (not_lt.mpr hfull)
  · have : c.accepted = true := by rw [Check.accepted, h, hdone]
    exact ⟨fun _ => ⟨hnew, hroom⟩, fun _ => this⟩

/-- What every reachable state keeps: the log has the store's answers, and the store holds
    what it accepted, unless a later reading has made it drop it. -/
structure Sound (s : State config) : Prop where
  answered : ∀ c ∈ s.log, c.Answered
  held : ∀ i c, s.log[i]? = some c → c.accepted = true →
    c.request.entry ∈ s.store ∨ Overtaken s.log i s.log.length c.request
  found : ∀ i j c d, i < j → s.log[i]? = some c → s.log[j]? = some d → c.accepted = true →
    c.request.entry ∈ d.store ∨ Overtaken s.log i j c.request

variable {log : List (Check config)}

theorem Overtaken.append {i j : Nat} {a : Authenticated config} (h : Overtaken log i j a) {d : Check config}
    {j' : Nat} (hj : j ≤ j') : Overtaken (log ++ [d]) i j' a := by
  obtain ⟨k, c, hik, hkj, hk, hc⟩ := h
  refine ⟨k, c, hik, hkj.trans_le hj, ?_, hc⟩
  rw [List.getElem?_append_left (List.getElem?_eq_some_iff.mp hk).1]
  exact hk

variable {s : State config}

theorem Sound.check (h : Sound s) (a : Authenticated config) {done : Except ReplayError Unit × Nonces}
    (hdone : done = config.replay_backend.check_and_record config.replay_window_seconds
      config.max_nonces a.signed.nonce a.ts_value a.now s.store) (waiting : List (Authenticated config)) :
    Sound { s with waiting := waiting, store := done.2, log := s.log ++ [⟨a, s.store, done.1⟩] } := by
  have hans : Check.Answered (⟨a, s.store, done.1⟩ : Check config) := by
    show done.1 = _
    rw [hdone]
  refine ⟨?_, ?_, ?_⟩
  · intro c hc
    rcases List.mem_append.mp hc with hc | hc
    · exact h.answered c hc
    · rw [List.mem_singleton] at hc
      rw [hc]
      exact hans
  · intro i c hi hc
    rw [List.length_append, List.length_singleton]
    rcases getElem?_concat hi with hi | ⟨rfl, rfl⟩
    · rcases h.held i c hi hc with hmem | hover
      · -- the check drops the entry only if its reading lies past the expiry
        by_cases hnow : a.now ≤ c.request.entry.2
        · left
          have hlive := mem_live config.replay_backend hmem hnow
          show _ ∈ done.2
          rw [hdone]
          rcases check_and_record_cases config.replay_backend config.replay_window_seconds
            config.max_nonces a.signed.nonce a.ts_value a.now s.store with
            ⟨-, -, hsub⟩ | ⟨-, -, -, hsub⟩ | ⟨-, -, heq⟩
          · exact hsub hlive
          · exact hsub hlive
          · rw [heq]
            exact List.mem_append_left _ hlive
        · right
          have hlt : i < s.log.length := (List.getElem?_eq_some_iff.mp hi).1
          exact ⟨s.log.length, _, hlt, Nat.lt_succ_self _, List.getElem?_concat_length, not_le.mp hnow⟩
      · exact .inr (hover.append (Nat.le_succ _))
    · left
      obtain ⟨hnew, hroom⟩ := hans.accepted_iff.mp hc
      show _ ∈ done.2
      rw [hdone]
      rcases check_and_record_cases config.replay_backend config.replay_window_seconds
        config.max_nonces a.signed.nonce a.ts_value a.now s.store with
        ⟨hhas, -⟩ | ⟨-, hfull, -⟩ | ⟨-, -, heq⟩
      · exact absurd (hhas.symm.trans hnew) (by decide)
      · exact absurd hroom (not_lt.mpr hfull)
      · rw [heq]
        exact List.mem_append_right _ List.mem_cons_self
  · intro i j c d hij hi hj hc
    rcases getElem?_concat hj with hj | ⟨rfl, rfl⟩
    · have hjlt : j < s.log.length := (List.getElem?_eq_some_iff.mp hj).1
      rw [List.getElem?_append_left (hij.trans hjlt)] at hi
      exact (h.found i j c d hij hi hj hc).imp_right fun ho => ho.append (Nat.le_refl _)
    · rw [List.getElem?_append_left hij] at hi
      exact (h.held i c hi hc).imp_right fun ho => ho.append (Nat.le_refl _)

theorem Sound.step {s' : State config} {e : Event} (h : Sound s) (hstep : step s e = some s') : Sound s' := by
  cases e with
  | tick now =>
    simp only [Ingress.step] at hstep
    split at hstep
    · cases hstep
      exact ⟨h.answered, h.held, h.found⟩
    · cases hstep
  | arrive scope messages before =>
    simp only [Ingress.step] at hstep
    split at hstep
    · split at hstep
      · cases hstep
        exact ⟨h.answered, h.held, h.found⟩
      · cases hstep
        exact h
    · cases hstep
  | check k =>
    simp only [Ingress.step] at hstep
    split at hstep
    · cases hstep
    · rename_i a hk
      cases hstep
      exact h.check a rfl _

theorem run_sound {clock : ℚ} {events : List Event} (hrun : run step (State.init config clock) events = some s) :
    Sound s :=
  run_invariant (P := Sound) ⟨by simp [State.init], by simp [State.init], by simp [State.init]⟩
    (fun _ _ _ h hstep => h.step hstep) hrun

/-- `c` checks, as the `j`th, the request that `a` has had accepted as the `i`th. -/
structure Repeats (log : List (Check config)) (i j : Nat) (a c : Check config) : Prop where
  later : i < j
  first : log[i]? = some a
  again : log[j]? = some c
  accepted : a.accepted = true
  same : c.request.signed = a.request.signed

theorem accepted_nodup_iff : (accepted log).Nodup ↔ ∀ i j a c, Repeats log i j a c → c.accepted = false := by
  rw [accepted, List.Nodup, List.pairwise_map, List.pairwise_filter, List.pairwise_iff_getElem]
  constructor
  · rintro h i j a c ⟨hij, hi, hj, ha, hsame⟩
    obtain ⟨hi', rfl⟩ := List.getElem?_eq_some_iff.mp hi
    obtain ⟨hj', rfl⟩ := List.getElem?_eq_some_iff.mp hj
    by_contra hc
    exact h i j hi' hj' hij ha (by simpa using hc) hsame.symm
  · intro h i j hi hj hij ha hc hsame
    have hfalse := h i j log[i] log[j]
      ⟨hij, List.getElem?_eq_getElem hi, List.getElem?_eq_getElem hj, ha, hsame.symm⟩
    rw [hfalse] at hc
    cases hc

theorem Sound.remembered (h : Sound s) {i j : Nat} {a : Check config} (hr : Repeats s.log i j a c) :
    c.live.has c.request.signed.nonce = true ∨ Overtaken s.log i j a.request := by
  rcases h.found i j a c hr.later hr.first hr.again hr.accepted with hmem | hover
  · left
    obtain ⟨hvalue, -⟩ := a.request.fresh
    obtain ⟨hvalue', hfresh⟩ := c.request.fresh
    -- one timestamp text is one expiry, and the repeat has been found fresh
    have hnow : c.request.now ≤ a.request.entry.2 := by
      rw [hr.same, ← hvalue] at hvalue'
      rw [hvalue'] at hfresh
      show c.request.now ≤ ((a.request.ts_value + config.replay_window_seconds : Int) : ℚ)
      rw [Int.cast_add]
      exact hfresh
    have hlive : a.request.entry ∈ c.live := mem_live _ hmem hnow
    rw [Nonces.has, List.any_eq_true]
    refine ⟨_, hlive, ?_⟩
    rw [hr.same, beq_iff_eq]
    rfl
  · exact .inr hover

/-- **Replay protection.** In every run a request is accepted at most once exactly when
    every check that repeats an accepted request finds its nonce counted or the store full;
    a nonce is counted unless the repeat is overtaken by a check whose request read the
    clock after the window had closed. A full store of live nonces refuses, and no check
    forgets a live nonce. -/
theorem accepted_once_iff {clock : ℚ} {events : List Event} {s : State config}
    (hrun : run step (State.init config clock) events = some s) :
    ((accepted s.log).Nodup ↔ ∀ i j a c, Repeats s.log i j a c →
      c.live.has c.request.signed.nonce = true ∨ config.max_nonces ≤ c.live.length) ∧
    (∀ i j a c, Repeats s.log i j a c →
      c.live.has c.request.signed.nonce = true ∨ Overtaken s.log i j a.request) ∧
    ∀ (backend : ReplayBackend) (window max_entries : Int) (nonce : String) (timestamp : Int)
      (now : ℚ) (nonces : Nonces),
      let done := backend.check_and_record window max_entries nonce timestamp now nonces
      (∀ n ∈ nonces, now ≤ n.2 → n ∈ done.2) ∧
      ((backend.live nonces now).has nonce = false →
        max_entries ≤ (backend.live nonces now).length →
        done.1 = .error (.saturated "replay store is full of live nonces")) := by
  have hs := run_sound hrun
  refine ⟨?_, fun i j a c hr => hs.remembered hr, ?_⟩
  · rw [accepted_nodup_iff]
    refine forall_congr' fun i => forall_congr' fun j => forall_congr' fun a =>
      forall_congr' fun c => forall_congr' fun hr => ?_
    have hans := (hs.answered c (List.mem_of_getElem? hr.again)).accepted_iff
    rw [← Bool.not_eq_true, hans, not_and_or, not_lt, Bool.not_eq_false]
  · intro backend window max_entries nonce timestamp now nonces done
    have hcases := check_and_record_cases backend window max_entries nonce timestamp now nonces
    refine ⟨fun n hn hnow => ?_, fun hnew hfull => ?_⟩
    · have hlive := mem_live backend hn hnow
      rcases hcases with ⟨-, -, hsub⟩ | ⟨-, -, -, hsub⟩ | ⟨-, -, heq⟩
      · exact hsub hlive
      · exact hsub hlive
      · show n ∈ (backend.check_and_record window max_entries nonce timestamp now nonces).2
        rw [heq]
        exact List.mem_append_left _ hlive
    · rcases hcases with ⟨hhas, -⟩ | ⟨-, -, hdone, -⟩ | ⟨-, hroom, -⟩
      · exact absurd (hhas.symm.trans hnew) (by decide)
      · exact hdone
      · exact absurd hroom (not_lt.mpr hfull)

end

/-! ## A replay that is overtaken -/

/-- The HMAC of the two materials of the schedule, under the secret `replay-secret`. -/
@[reducible] def scheduleHmac : Hmac where
  hexdigest _ material :=
    if material = SIGNING_DOMAIN ++ ascii "1000\nnonce-0123456789\n\x7b\x7d".toList then
      "ba1f83ae7354863be6c8ee253d8ebcba3abaa46d270ecfaaa73779abead35f29"
    else "9eb997e24b0aef6923e7f406acb55a4bd4580ff90583f2a472f5cf320a992c98"

def scheduleConfig (backend : ReplayBackend) : HMACIngressConfig where
  header_name := "X-AMC-Signature"
  secret := ascii "replay-secret".toList
  protected_paths := ["/runtime/ingest"]
  replay_backend := backend

/-- A request as a client signs it. -/
def scheduleScope (timestamp nonce signature : String) : Scope where
  type := "http"
  path := "/runtime/ingest"
  method := "POST"
  headers := [(ascii "x-amc-signature".toList, ascii signature.toList),
    (TIMESTAMP_HEADER, ascii timestamp.toList), (NONCE_HEADER, ascii nonce.toList)]

/-- A request is accepted at 1000 and replayed at 1300, the last second of its window. A
    request of 1301 is checked before the replay is. -/
def overtakenReplay : List Event :=
  let body := [Message.request (ascii "\x7b\x7d".toList) false]
  let captured := scheduleScope "1000" "nonce-0123456789"
    "ba1f83ae7354863be6c8ee253d8ebcba3abaa46d270ecfaaa73779abead35f29"
  let other := scheduleScope "1301" "nonce-9876543210"
    "9eb997e24b0aef6923e7f406acb55a4bd4580ff90583f2a472f5cf320a992c98"
  [.arrive captured body 1000, .check 0, .tick 1300, .arrive captured body 1300, .tick 1301,
    .arrive other body 1301, .check 1, .check 0]

section

attribute [local instance] scheduleHmac

/-- The captured request is accepted twice, whichever store the workers share. -/
theorem overtaken_replay_accepted :
    (∃ s, run step (State.init (scheduleConfig .memory) 1000) overtakenReplay = some s ∧
      ¬ (accepted s.log).Nodup) ∧
    ∃ s, run step (State.init (scheduleConfig .database) 1000) overtakenReplay = some s ∧
      ¬ (accepted s.log).Nodup := by
  have twice : ∀ backend, ((run step (State.init (scheduleConfig backend) 1000) overtakenReplay).map
      fun s => decide (accepted s.log).Nodup) = some false := by
    intro backend
    cases backend
    · decide +kernel
    · decide +kernel
  constructor
  · obtain ⟨s, hs, hnodup⟩ := Option.map_eq_some_iff.mp (twice .memory)
    exact ⟨s, hs, of_decide_eq_false hnodup⟩
  · obtain ⟨s, hs, hnodup⟩ := Option.map_eq_some_iff.mp (twice .database)
    exact ⟨s, hs, of_decide_eq_false hnodup⟩

/-- A run in which the replay is not overtaken. -/
theorem accepted_once_iff_refused :
    ∃ s, run step (State.init (scheduleConfig .memory) 1000) (overtakenReplay.take 4 ++ [.check 0]) =
        some s ∧ s.log.length = 2 ∧ (accepted s.log).Nodup := by
  have once : ((run step (State.init (scheduleConfig .memory) 1000)
      (overtakenReplay.take 4 ++ [.check 0])).map
      fun s => (s.log.length, s.log.map fun c => c.live.has c.request.signed.nonce)) = some (2, [false, true]) := by
    decide +kernel
  obtain ⟨s, hs, hlog⟩ := Option.map_eq_some_iff.mp once
  rw [Prod.mk.injEq] at hlog
  obtain ⟨hlen, hhas⟩ := hlog
  refine ⟨s, hs, hlen, (accepted_once_iff hs).1.mpr fun i j a c hr => .inl ?_⟩
  have hj : j = 1 := by
    have := (List.getElem?_eq_some_iff.mp hr.again).1
    have := hr.later
    omega
  have hc := congrArg (fun l => l[j]?) hhas
  subst hj
  obtain ⟨d, hd, hhas⟩ : ∃ d, s.log[1]? = some d ∧ d.live.has d.request.signed.nonce = true := by
    simpa using hc
  cases hr.again.symm.trans hd
  exact hhas

end

end Ingress
