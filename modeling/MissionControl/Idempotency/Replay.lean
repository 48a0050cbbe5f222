import MissionControl.Idempotency.Records
import MissionControl.Interleaving.Discipline

/-! # What a replay carries

While an execution is in flight its record is `executing` under its request's
hash, unless the record expired and another reservation replaced it. Then two
executions settle one record by its key, and the first may write its result into
the record of the second. -/

namespace Idempotency

open Canonical (Value)
open Interleaving
open Python (blank)
open Relational (Table)

abbrev RecordStage : Type := Stage IdempotencyCalls Records

variable (hash_payload : Value → String)

/-! ## Executions in flight -/

/-- Worker `i` has reserved the key for a request and done nothing since. -/
def Reserved (m : RecordStage) (i : Nat) (scope key h : String) : Prop :=
  ∃ ttl record, m.own i = [⟨.reserve_idempotency scope key h ttl, .ok ⟨.new, record⟩⟩]

/-- Worker `i` has reserved the key for a request and run it, with this outcome. -/
def Ran (m : RecordStage) (i : Nat) (scope key : String) (body : Value)
    (ran : Except Failure Value) : Prop :=
  ∃ ttl record, m.own i = [⟨.reserve_idempotency scope key (hash_payload body) ttl,
    .ok ⟨.new, record⟩⟩, ⟨.run body, ran⟩]

/-- **In flight.** Worker `i` executes a request with the hash `h` under the key:
    it has reserved the key, has not died, and may still settle the record. -/
def InFlight (m : RecordStage) (i : Nat) (scope key h : String) : Prop :=
  Reserved m i scope key h ∨
    ∃ body ran, hash_payload body = h ∧ ran ≠ .error .died ∧ Ran hash_payload m i scope key body ran

/-- What an execution of a request with the hash `h` under the key has produced. -/
def Produced (m : RecordStage) (scope key h : String) (result : Value) : Prop :=
  ∃ j body ttl record, hash_payload body = h ∧
    ⟨j, .reserve_idempotency scope key h ttl, .ok ⟨.new, record⟩⟩ ∈ m.history ∧
    ⟨j, .run body, .ok result⟩ ∈ m.history

/-! ## The order of an execution's calls -/

/-- Each call of a request comes after the calls that lead up to it. -/
def Due (i : Nat) (m : RecordStage) : Call → Prop
  | .reserve_idempotency .. => m.own i = []
  | .run body => ∃ scope key, Reserved m i scope key (hash_payload body)
  | .complete_idempotency scope key result => ∃ body, Ran hash_payload m i scope key body (.ok result)
  | .fail_idempotency scope key _ =>
    ∃ body e, e ≠ .died ∧ Ran hash_payload m i scope key body (.error e)

/-- The discipline of requests: order alone. -/
def order : Discipline (requests hash_payload) where
  Pre i c m := Due hash_payload i m c
  Ext _ _ := True
  Inv _ := True
  ext_refl _ := trivial
  ext_trans _ _ := trivial
  ext_call _ _ _ := trivial
  ext_env _ := trivial
  inv_call _ _ _ := trivial
  inv_env _ _ := trivial

theorem recorded_ne_none {e : Failure} {error : String} (h : recorded e = some error) : e ≠ .died := by
  rintro rfl
  cases h

theorem covers : (order hash_payload).Covers := by
  rintro p ⟨scope, key, body, ttl, rfl⟩ i m hm
  refine Discipline.Safe.void (Q := Discipline.Anything) ?_
  unfold _idempotent
  refine Discipline.Safe.call (fun m' h => h.own.trans hm) (fun m₁ o reservation h₁ hr => ?_)
    fun _ _ _ _ _ _ _ => trivial
  have hown : (m₁.perform exec i (.reserve_idempotency scope key (hash_payload body) ttl) o).own i =
      [⟨.reserve_idempotency scope key (hash_payload body) ttl, .ok reservation⟩] := by
    have hanswer : exec.answer (.reserve_idempotency scope key (hash_payload body) ttl) o m₁.world =
      .ok reservation := hr
    rw [Stage.own_perform, h₁.own, hm, hanswer]
    rfl
  obtain ⟨state, record⟩ := reservation
  cases state with
  | replay => exact fun _ _ => trivial
  | in_progress => exact fun _ _ => trivial
  | conflict => exact fun _ _ => trivial
  | new =>
    have hrun : (order hash_payload).Safe i (fun r m' => ∃ ttl record, m'.own i =
        [⟨.reserve_idempotency scope key (hash_payload body) ttl, .ok ⟨.new, record⟩⟩,
          ⟨.run body, r⟩]) (ask (.run body))
        (m₁.perform exec i (.reserve_idempotency scope key (hash_payload body) ttl) o) := by
      refine Discipline.Safe.perform (fun m' h => ⟨scope, key, ttl, record, h.own.trans hown⟩) ?_
      intro m' o' m'' h h'
      refine ⟨ttl, record, ?_⟩
      rw [h'.own, Stage.own_perform, h.own, hown]
      rfl
    refine Discipline.Safe.attempt_bind hrun ?_
    rintro (e | result) m₂ ⟨ttl, record, h₂⟩
    · cases he : recorded e with
      | none =>
        simp only [he]
        exact fun _ _ => trivial
      | some error =>
        simp only [he]
        refine Discipline.Safe.call (fun m' h => ?_) (fun _ _ _ _ _ _ _ => trivial)
          fun _ _ _ _ _ _ _ => trivial
        exact ⟨body, e, recorded_ne_none he, ttl, record, h.own.trans h₂⟩
    · refine Discipline.Safe.call (fun m' h => ?_) (fun _ _ _ _ _ _ _ => trivial)
        fun _ _ _ _ _ _ _ => trivial
      exact ⟨body, ttl, record, h.own.trans h₂⟩

/-! ## What a reservation finds -/

/-- How a reservation ends, and the records it leaves. -/
inductive Reserves (w : Records) (now : Instant) (scope key h : String) (ttl : Int) :
    Except Failure (Reservation × Records) → Prop
  | refused {e : Failure} (hrefused : blank key ∨ ttl ≤ 0) :
      Reserves w now scope key h ttl (.error e)
  | conflict {record : Record} : Reserves w now scope key h ttl (.ok (⟨.conflict, record⟩, w))
  | in_progress {record : Record} : Reserves w now scope key h ttl (.ok (⟨.in_progress, record⟩, w))
  | replay {record : Record} (hfind : w.find? (scope, key) = some record)
      (hhash : record.request_hash = h) (hstatus : record.status = .completed) :
      Reserves w now scope key h ttl (.ok (⟨.replay, record⟩, w))
  | revive {record : Record} (hfind : w.find? (scope, key) = some record)
      (hhash : record.request_hash = h) (hstatus : record.status = .failed) :
      Reserves w now scope key h ttl (.ok (⟨.new, revived now ttl record⟩,
        w.update (scope, key) (revived now ttl) fun _ => rfl))
  | insert (hkey : ¬ blank key) (httl : ¬ ttl ≤ 0)
      (hexpired : ∀ record, w.find? (scope, key) = some record → record.expires_at ≤ now) :
      Reserves w now scope key h ttl (.ok (⟨.new, executing now scope key h ttl⟩,
        replace w (executing now scope key h ttl)))

theorem reserves (w : Records) (now : Instant) (scope key h : String) (ttl : Int) :
    Reserves w now scope key h ttl (reserve_idempotency w now scope key h ttl) := by
  unfold reserve_idempotency
  split
  · rename_i hkey
    exact .refused (.inl hkey)
  · rename_i hkey
    split
    · rename_i httl
      exact .refused (.inr httl)
    · rename_i httl
      cases hrow : (w.find? (scope, key)).filter fun record => ¬ record.expires_at ≤ now with
      | none =>
        refine .insert hkey httl fun record hfind => ?_
        rw [hfind] at hrow
        simpa using hrow
      | some record =>
        have hfind : w.find? (scope, key) = some record := (Option.filter_eq_some_iff.mp hrow).1
        dsimp only
        split
        · exact .conflict
        · rename_i hhash
          split
          · rename_i hstatus
            exact .replay hfind (not_not.mp hhash) hstatus
          · split
            · exact .in_progress
            · rename_i hcompleted hexecuting
              refine .revive hfind (not_not.mp hhash) ?_
              cases hs : record.status with
              | completed => exact absurd hs hcompleted
              | executing => exact absurd hs hexecuting
              | failed => rfl

theorem find?_replace (w : Records) (r : Record) (k : String × String) :
    (replace w r).find? k = if r.id = k then some r else w.find? k := by
  rw [replace, Table.find?_insert]
  split
  · rfl
  · rename_i hk
    rw [Table.find?_delete, if_neg (Ne.symm hk)]

/-! ## How calls move executions -/

variable {hash_payload}

variable {key h scope : String}

theorem inFlight_other {m : RecordStage} {i j : Nat} (hij : i ≠ j) {c : Call} {o : Outcome} :
    InFlight hash_payload (m.perform exec i c o) j scope key h ↔ InFlight hash_payload m j scope key h := by
  simp only [InFlight, Reserved, Ran, Stage.own_perform_of_ne hij]

variable {key' scope' : String} {ttl : Int}

theorem inFlight_reserve {m : RecordStage} {i : Nat} (hown : m.own i = []) {o : Outcome} {h' : String} :
    InFlight hash_payload (m.perform exec i (.reserve_idempotency scope' key' h' ttl) o) i scope key h ↔
      (scope = scope' ∧ key = key' ∧ h = h') ∧ ∃ record,
        exec.answer (.reserve_idempotency scope' key' h' ttl) o m.world = .ok ⟨.new, record⟩ := by
  unfold InFlight Reserved Ran
  rw [Stage.own_perform, hown, List.nil_append]
  generalize exec.answer (.reserve_idempotency scope' key' h' ttl) o m.world = a
  constructor
  · rintro (⟨_, record, heq⟩ | ⟨_, _, _, _, _, _, heq⟩)
    · cases heq
      exact ⟨⟨rfl, rfl, rfl⟩, record, rfl⟩
    · cases heq
  · rintro ⟨⟨rfl, rfl, rfl⟩, record, rfl⟩
    exact .inl ⟨ttl, record, rfl⟩

variable {body : Value}

theorem inFlight_run {m : RecordStage} {i : Nat} (hres : Reserved m i scope' key' (hash_payload body))
    {o : Outcome} (hf : InFlight hash_payload (m.perform exec i (.run body) o) i scope key h) :
    InFlight hash_payload m i scope key h := by
  obtain ⟨ttl, record, hown⟩ := hres
  unfold InFlight Reserved Ran at hf
  rw [Stage.own_perform, hown] at hf
  revert hf
  generalize exec.answer (.run body) o m.world = a
  rintro (⟨_, _, heq⟩ | ⟨_, _, rfl, _, _, _, heq⟩)
  · exact absurd (congrArg List.length heq) (by simp)
  · obtain ⟨hfirst, hrest⟩ := List.cons.inj heq
    cases (List.cons.inj hrest).1
    cases hfirst
    exact .inl ⟨ttl, record, hown⟩

variable {ran : Except Failure Value}

theorem not_inFlight_settled {m : RecordStage} {i : Nat} (hran : Ran hash_payload m i scope' key' body ran)
    {c : Call} {o : Outcome} : ¬ InFlight hash_payload (m.perform exec i c o) i scope key h := by
  obtain ⟨ttl, record, hown⟩ := hran
  unfold InFlight Reserved Ran
  rw [Stage.own_perform, hown]
  rintro (⟨_, _, heq⟩ | ⟨_, _, _, _, _, _, heq⟩)
  · exact absurd (congrArg List.length heq) (by simp)
  · exact absurd (congrArg List.length heq) (by simp)

/-! ## What holds while no execution is taken over -/

variable (hash_payload)

/-- At most one execution under a key is in flight. -/
def SingleFlight (m : RecordStage) : Prop :=
  ∀ i j scope key h h', InFlight hash_payload m i scope key h →
    InFlight hash_payload m j scope key h' → i = j

/-- Every replay carries a result of an execution of the same request. -/
def ReplaysOwn (m : RecordStage) : Prop :=
  ∀ i scope key h ttl record,
    ⟨i, .reserve_idempotency scope key h ttl, .ok ⟨.replay, record⟩⟩ ∈ m.history →
    ∃ result, record.result = some result ∧ Produced hash_payload m scope key h result

/-- **What holds between calls.** -/
structure Coherent (m : RecordStage) : Prop where
  /-- Whoever is in flight owns the record. -/
  owner : ∀ i scope key h, InFlight hash_payload m i scope key h →
    ∃ record, m.world.find? (scope, key) = some record ∧ record.status = .executing ∧
      record.request_hash = h
  single : SingleFlight hash_payload m
  /-- A completed record carries what its own request produced. -/
  completed : ∀ scope key record, m.world.find? (scope, key) = some record →
    record.status = .completed →
    ∃ result, record.result = some result ∧ Produced hash_payload m scope key record.request_hash result
  replays : ReplaysOwn hash_payload m

theorem Coherent.init : Coherent hash_payload ⟨.empty, []⟩ := by
  constructor
  · rintro i scope key h (⟨_, _, heq⟩ | ⟨_, _, _, _, _, _, heq⟩) <;> cases heq
  · rintro i j scope key h h' (⟨_, _, heq⟩ | ⟨_, _, _, _, _, _, heq⟩) <;> cases heq
  · intro scope key record hfind
    cases hfind
  · intro i scope key h ttl record hmem
    cases hmem

variable {hash_payload} {m : RecordStage} {i : Nat} {c : Call} {o : Outcome}

variable {result : Value}

theorem Produced.perform (hp : Produced hash_payload m scope key h result) :
    Produced hash_payload (m.perform exec i c o) scope key h result := by
  obtain ⟨j, body, ttl, record, hhash, hreserve, hrun⟩ := hp
  exact ⟨j, body, ttl, record, hhash, List.mem_append_left _ hreserve, List.mem_append_left _ hrun⟩

theorem ReplaysOwn.perform (h : ReplaysOwn hash_payload m)
    (hreplay : ∀ j scope key x ttl record, (⟨i, c, exec.answer c o m.world⟩ : Event IdempotencyCalls) =
        ⟨j, .reserve_idempotency scope key x ttl, .ok ⟨.replay, record⟩⟩ →
      ∃ result, record.result = some result ∧ Produced hash_payload m scope key x result) :
    ReplaysOwn hash_payload (m.perform exec i c o) := by
  intro j scope key x ttl record hmem
  rcases List.mem_append.mp hmem with hmem | hmem
  · obtain ⟨result, hres, hp⟩ := h j scope key x ttl record hmem
    exact ⟨result, hres, hp.perform⟩
  · obtain ⟨result, hres, hp⟩ := hreplay j scope key x ttl record (List.mem_singleton.mp hmem).symm
    exact ⟨result, hres, hp.perform⟩

theorem Coherent.quiet (h : Coherent hash_payload m) (hw : exec.after c o m.world = m.world)
    (hflight : ∀ j scope key x, InFlight hash_payload (m.perform exec i c o) j scope key x →
      InFlight hash_payload m j scope key x)
    (hreplay : ∀ j scope key x ttl record, (⟨i, c, exec.answer c o m.world⟩ : Event IdempotencyCalls) =
        ⟨j, .reserve_idempotency scope key x ttl, .ok ⟨.replay, record⟩⟩ →
      ∃ result, record.result = some result ∧ Produced hash_payload m scope key x result) :
    Coherent hash_payload (m.perform exec i c o) := by
  have hworld : (m.perform exec i c o).world = m.world := hw
  constructor
  · intro j scope key x hf
    rw [hworld]
    exact h.owner j scope key x (hflight _ _ _ _ hf)
  · intro j j' scope key x x' hf hf'
    exact h.single j j' scope key x x' (hflight _ _ _ _ hf) (hflight _ _ _ _ hf')
  · intro scope key record hfind hstatus
    rw [hworld] at hfind
    obtain ⟨result, hres, hp⟩ := h.completed scope key record hfind hstatus
    exact ⟨result, hres, hp.perform⟩
  · exact h.replays.perform hreplay

theorem Coherent.write (h : Coherent hash_payload m) (record : Record)
    (hw : ∀ k, (exec.after c o m.world).find? k = if record.id = k then some record else m.world.find? k)
    (hothers : ∀ j scope key x, InFlight hash_payload (m.perform exec i c o) j scope key x →
      (InFlight hash_payload m j scope key x ∧ record.id ≠ (scope, key)) ∨
        j = i ∧ record.id = (scope, key) ∧ record.status = .executing ∧ record.request_hash = x)
    (hresult : record.status = .completed → ∃ result, record.result = some result ∧
      Produced hash_payload m record.scope record.key record.request_hash result)
    (hreplay : ∀ j scope key x ttl record, (⟨i, c, exec.answer c o m.world⟩ : Event IdempotencyCalls) ≠
      ⟨j, .reserve_idempotency scope key x ttl, .ok ⟨.replay, record⟩⟩) :
    Coherent hash_payload (m.perform exec i c o) := by
  have hworld : (m.perform exec i c o).world = exec.after c o m.world := rfl
  constructor
  · intro j scope key x hf
    rw [hworld, hw]
    rcases hothers j scope key x hf with ⟨hf, hid⟩ | ⟨-, hid, hstatus, hhash⟩
    · rw [if_neg hid]
      exact h.owner j scope key x hf
    · rw [if_pos hid]
      exact ⟨record, rfl, hstatus, hhash⟩
  · intro j j' scope key x x' hf hf'
    rcases hothers j scope key x hf with ⟨hf, hid⟩ | ⟨rfl, hid, -⟩ <;>
      rcases hothers j' scope key x' hf' with ⟨hf', hid'⟩ | ⟨rfl, hid', -⟩
    · exact h.single j j' scope key x x' hf hf'
    · exact absurd hid' hid
    · exact absurd hid hid'
    · rfl
  · intro scope key record' hfind hstatus
    rw [hworld, hw] at hfind
    by_cases hid : record.id = (scope, key)
    · rw [if_pos hid] at hfind
      cases hfind
      cases hid
      obtain ⟨result, hres, hp⟩ := hresult hstatus
      exact ⟨result, hres, hp.perform⟩
    · rw [if_neg hid] at hfind
      obtain ⟨result, hres, hp⟩ := h.completed scope key record' hfind hstatus
      exact ⟨result, hres, hp.perform⟩
  · exact h.replays.perform fun j scope key x ttl record heq =>
      (hreplay j scope key x ttl record heq).elim

variable (hash_payload) in
/-- **No execution is taken over**: a reservation that is not refused and finds an
    expired record still `executing` finds no execution of it in flight. -/
def NoTakeover (m : RecordStage) : Action IdempotencyCalls Records Outcome → Prop
  | .call _ (.reserve_idempotency scope key _ ttl) o => ¬ blank key → 0 < ttl →
    ∀ record, m.world.find? (scope, key) = some record → record.status = .executing →
      record.expires_at ≤ o.now → ∀ j h, ¬ InFlight hash_payload m j scope key h
  | _ => True

theorem Coherent.reserve (h : Coherent hash_payload m) (hown : m.own i = []) {x : String}
    (hok : NoTakeover hash_payload m (.call i (.reserve_idempotency scope key x ttl) o)) :
    Coherent hash_payload (m.perform exec i (.reserve_idempotency scope key x ttl) o) := by
  have hr := reserves m.world o.now scope key x ttl
  have hexec : exec (.reserve_idempotency scope key x ttl) o m.world =
    reserve_idempotency m.world o.now scope key x ttl := rfl
  -- who is in flight: the others as before, and this worker if it was told `new`
  have hmine : ∀ j s k y,
      InFlight hash_payload (m.perform exec i (.reserve_idempotency scope key x ttl) o) j s k y →
      InFlight hash_payload m j s k y ∧ i ≠ j ∨ j = i ∧ (s = scope ∧ k = key ∧ y = x) ∧
        ∃ record, exec.answer (.reserve_idempotency scope key x ttl) o m.world = .ok ⟨.new, record⟩ := by
    intro j s k y hf
    by_cases hij : i = j
    · subst hij
      exact .inr ⟨rfl, (inFlight_reserve hown).mp hf⟩
    · exact .inl ⟨(inFlight_other hij).mp hf, hij⟩
  -- an answer other than `new` leaves everything as it is
  have hquiet : exec.after (.reserve_idempotency scope key x ttl) o m.world = m.world →
      (∀ record, exec.answer (.reserve_idempotency scope key x ttl) o m.world ≠ .ok ⟨.new, record⟩) →
      (∀ j s k y t record, (⟨i, .reserve_idempotency scope key x ttl,
        exec.answer (.reserve_idempotency scope key x ttl) o m.world⟩ : Event IdempotencyCalls) =
          ⟨j, .reserve_idempotency s k y t, .ok ⟨.replay, record⟩⟩ →
        ∃ result, record.result = some result ∧ Produced hash_payload m s k y result) →
      Coherent hash_payload (m.perform exec i (.reserve_idempotency scope key x ttl) o) := by
    intro hw hnew hreplay
    refine h.quiet hw (fun j s k y hf => ?_) hreplay
    rcases hmine j s k y hf with ⟨hf, -⟩ | ⟨-, -, record, hrecord⟩
    · exact hf
    · exact absurd hrecord (hnew record)
  generalize reserve_idempotency m.world o.now scope key x ttl = y at hr hexec
  have hanswer : exec.answer (.reserve_idempotency scope key x ttl) o m.world = y.map Prod.fst :=
    congrArg (Except.map Prod.fst) hexec
  cases hr with
  | refused =>
    refine hquiet (Exec.after_of_error hexec) (fun record heq => ?_) fun j s k y t record heq => ?_
    · rw [hanswer] at heq
      cases heq
    · rw [hanswer] at heq
      cases heq
  | conflict =>
    refine hquiet (Exec.after_of_ok hexec) (fun record heq => ?_) fun j s k y t record heq => ?_
    · rw [hanswer] at heq
      cases heq
    · rw [hanswer] at heq
      cases heq
  | in_progress =>
    refine hquiet (Exec.after_of_ok hexec) (fun record heq => ?_) fun j s k y t record heq => ?_
    · rw [hanswer] at heq
      cases heq
    · rw [hanswer] at heq
      cases heq
  | replay hfind hhash hstatus =>
    refine hquiet (Exec.after_of_ok hexec) (fun record heq => ?_) fun j s k y t record heq => ?_
    · rw [hanswer] at heq
      cases heq
    · rw [hanswer] at heq
      cases heq
      rw [← hhash]
      exact h.completed scope key _ hfind hstatus
  | @revive record hfind hhash hstatus =>
    have hid : record.id = (scope, key) := Table.key_of_find? hfind
    refine h.write (revived o.now ttl record) (fun k => ?_) (fun j s k y hf => ?_)
      (fun hcompleted => by cases hcompleted) fun j s k y t record heq => ?_
    · rw [Exec.after_of_ok hexec]
      exact Table.find?_update_row _ hfind
    · rcases hmine j s k y hf with ⟨hf, -⟩ | ⟨rfl, ⟨rfl, rfl, rfl⟩, -⟩
      · refine .inl ⟨hf, fun hid' => ?_⟩
        obtain ⟨record', hfind', hexec, -⟩ := h.owner j s k y hf
        rw [← hid', show (revived o.now ttl record).id = record.id from rfl, hid, hfind] at hfind'
        cases hfind'
        rw [hstatus] at hexec
        cases hexec
      · exact .inr ⟨rfl, hid, rfl, hhash⟩
    · rw [hanswer] at heq
      cases heq
  | insert hkey httl hexpired =>
    refine h.write (executing o.now scope key x ttl) (fun k => ?_) (fun j s k y hf => ?_)
      (fun hcompleted => by cases hcompleted) fun j s k y t record heq => ?_
    · rw [Exec.after_of_ok hexec]
      exact find?_replace ..
    · rcases hmine j s k y hf with ⟨hf, -⟩ | ⟨rfl, ⟨rfl, rfl, rfl⟩, -⟩
      · refine .inl ⟨hf, fun hid => ?_⟩
        cases hid
        obtain ⟨record, hfind, hexec, -⟩ := h.owner j scope key y hf
        exact hok hkey (Int.not_le.mp httl) record hfind hexec (hexpired record hfind) j y hf
      · exact .inr ⟨rfl, rfl, rfl, rfl⟩
    · rw [hanswer] at heq
      cases heq

theorem Coherent.settled (h : Coherent hash_payload m) (hran : Ran hash_payload m i scope key body ran)
    (hdied : ran ≠ .error .died) {set : Record → Record} {hset : ∀ r, (set r).id = r.id}
    (hafter : exec.after c o m.world = (settle m.world scope key set hset).2)
    (hhash : ∀ r, (set r).request_hash = r.request_hash)
    (hresult : ∀ r, (set r).status = .completed → ∃ result, (set r).result = some result ∧
      Produced hash_payload m scope key (hash_payload body) result)
    (hreplay : ∀ j s k x ttl record, (⟨i, c, exec.answer c o m.world⟩ : Event IdempotencyCalls) ≠
      ⟨j, .reserve_idempotency s k x ttl, .ok ⟨.replay, record⟩⟩) :
    Coherent hash_payload (m.perform exec i c o) := by
  have hflight : InFlight hash_payload m i scope key (hash_payload body) :=
    .inr ⟨body, ran, rfl, hdied, hran⟩
  obtain ⟨record, hfind, hexecuting, hrecord⟩ := h.owner _ _ _ _ hflight
  have hid : record.id = (scope, key) := Table.key_of_find? hfind
  have hsettle : settle m.world scope key set hset = (true, m.world.update (scope, key) set hset) := by
    rw [settle, hfind]
    exact if_pos hexecuting
  rw [hsettle] at hafter
  refine h.write (set record) (fun k => ?_) (fun j s k x hf => ?_) (fun hcompleted => ?_) hreplay
  · rw [hafter]
    exact Table.find?_update_row hset hfind
  · have hij : i ≠ j := by
      rintro rfl
      exact not_inFlight_settled hran hf
    have hf := (inFlight_other hij).mp hf
    refine .inl ⟨hf, fun hid' => hij ?_⟩
    rw [hset, hid] at hid'
    cases hid'
    exact h.single i j scope key _ _ hflight hf
  · have hs : (set record).scope = scope ∧ (set record).key = key :=
      Prod.mk.inj ((hset record).trans hid)
    rw [hs.1, hs.2, hhash, hrecord]
    exact hresult record hcompleted

theorem Ran.produced (h : Ran hash_payload m i scope key body (.ok result)) :
    Produced hash_payload m scope key (hash_payload body) result := by
  obtain ⟨ttl, record, hown⟩ := h
  refine ⟨i, body, ttl, record, rfl, Stage.mem_own.mp ?_, Stage.mem_own.mp ?_⟩
  · rw [hown]
    exact List.mem_cons_self
  · rw [hown]
    exact List.mem_cons_of_mem _ (List.mem_singleton_self _)

/-- **One call** of a request, made in its order, with nothing taken over. -/
theorem Coherent.call (h : Coherent hash_payload m) (hdue : Due hash_payload i m c)
    (hok : NoTakeover hash_payload m (.call i c o)) : Coherent hash_payload (m.perform exec i c o) := by
  cases c with
  | reserve_idempotency scope key x ttl => exact h.reserve hdue hok
  | run body =>
    obtain ⟨scope, key, hres⟩ := hdue
    have hw : exec.after (.run body) o m.world = m.world := by
      cases ho : o.ran with
      | ok result => exact Exec.after_of_ok (r := result) (by simp [exec, ho, Except.map])
      | error e => exact Exec.after_of_error (e := e) (by simp [exec, ho, Except.map])
    refine h.quiet hw (fun j s k x hf => ?_) fun j s k x ttl record heq => by cases heq
    by_cases hij : i = j
    · subst hij
      exact inFlight_run hres hf
    · exact (inFlight_other hij).mp hf
  | complete_idempotency scope key result =>
    obtain ⟨body, hran⟩ := hdue
    have hafter : exec.after (.complete_idempotency scope key result) o m.world =
      (complete_idempotency m.world o.now scope key result).2 := rfl
    exact h.settled hran (by simp) hafter (fun _ => rfl) (fun _ _ => ⟨result, rfl, hran.produced⟩)
      fun j s k x ttl record heq => by cases heq
  | fail_idempotency scope key error =>
    obtain ⟨body, e, he, hran⟩ := hdue
    have hafter : exec.after (.fail_idempotency scope key error) o m.world =
      (fail_idempotency m.world o.now scope key error).2 := rfl
    exact h.settled hran (fun heq => he (Except.error.inj heq)) hafter (fun _ => rfl)
      (fun _ hs => by cases hs) fun j s k x ttl record heq => by cases heq

/-! ## Runs -/

variable {w : Records} {steps : List (RecordStage × Action IdempotencyCalls Records Outcome)}
  {s : Pool IdempotencyCalls Records}

theorem coherent_of_run (run : Run (requests hash_payload) .empty steps s)
    (hok : Meets (NoTakeover hash_payload) steps) : Coherent hash_payload s.stage :=
  Discipline.run_invariant (covers hash_payload) trivial (Coherent.init hash_payload)
    (fun _ _ _ _ h _ hdue hok => h.call hdue hok) (fun _ _ _ h => False.elim h) run hok

theorem not_single_of_takeover {x : String} (hown : m.own i = [])
    (htake : ¬ NoTakeover hash_payload m (.call i (.reserve_idempotency scope key x ttl) o)) :
    ¬ SingleFlight hash_payload
      (m.perform exec i (.reserve_idempotency scope key x ttl) o) := by
  simp only [NoTakeover, not_forall, not_not] at htake
  obtain ⟨hkey, httl, record, hfind, hstatus, hexpired, j, y, hf⟩ := htake
  intro hsingle
  have hij : i ≠ j := by
    rintro rfl
    rcases hf with ⟨_, _, heq⟩ | ⟨_, _, _, _, _, _, heq⟩
    · rw [hown] at heq
      cases heq
    · rw [hown] at heq
      cases heq
  refine hij (hsingle i j scope key x y ?_ ((inFlight_other hij).mpr hf))
  refine (inFlight_reserve hown).mpr ⟨⟨rfl, rfl, rfl⟩, executing o.now scope key x ttl, ?_⟩
  have hrow : (m.world.find? (scope, key)).filter (fun record => ¬ record.expires_at ≤ o.now) = none := by
    rw [hfind]
    simp [hexpired]
  show (reserve_idempotency m.world o.now scope key x ttl).map Prod.fst = _
  rw [reserve_idempotency, if_neg hkey, if_neg (Int.not_le.mpr httl), hrow]
  rfl

/-- **Idempotent replay.** In a run of requests, every replay carries a result of an
    execution of the same request and at most one execution under a key is in
    flight, in every stage, exactly when no reservation takes over an execution
    that is in flight. -/
theorem replay_sound (run : Run (requests hash_payload) .empty steps s) :
    (∀ m ∈ visited steps s, ReplaysOwn hash_payload m ∧ SingleFlight hash_payload m) ↔
      Meets (NoTakeover hash_payload) steps := by
  constructor
  · intro h
    induction run with
    | nil => exact meets_nil _
    | @snoc steps s s' a run step ih =>
      have hinit : Meets (NoTakeover hash_payload) steps := ih fun m hm => by
        refine h m ?_
        simp only [visited, List.mem_append, List.map_append, List.map_cons, List.map_nil,
          List.mem_singleton] at hm ⊢
        exact hm.elim (fun hm => .inl (.inl hm)) fun hm => .inl (.inr hm)
      refine meets_snoc.mpr ⟨hinit, ?_⟩
      have hsingle := (h s'.stage (List.mem_append_right _ (List.mem_singleton_self _))).2
      cases step with
      | start hp => trivial
      | env hw => trivial
      | @call i c next o hi =>
        have hdue := (Discipline.run_pre (covers hash_payload) trivial run hi).2
        cases c with
        | reserve_idempotency scope key x ttl =>
          by_contra htake
          exact not_single_of_takeover hdue htake hsingle
        | _ => trivial
  · intro hok m hm
    obtain ⟨before, s', run', rfl, hpre⟩ := run.visited hm
    have hc := coherent_of_run run' (hok.of_prefix hpre)
    exact ⟨hc.replays, hc.single⟩

/-! ## A takeover -/

/-- What executions of requests with the hash `h` have produced. -/
def results (hash_payload : Value → String) (m : RecordStage) (h : String) : List Value :=
  m.history.filterMap fun e =>
    match e with
    | ⟨_, .run body, .ok result⟩ => if hash_payload body = h then some result else none
    | _ => none

theorem Produced.mem_results (hp : Produced hash_payload m scope key h result) : result ∈ results hash_payload m h := by
  obtain ⟨j, body, ttl, record, hhash, -, hrun⟩ := hp
  exact List.mem_filterMap.mpr ⟨_, hrun, if_pos hhash⟩

/-- The request a call has replayed. -/
def replayOf : Event IdempotencyCalls → Option (String × String × String)
  | ⟨_, .reserve_idempotency scope key h _, .ok ⟨.replay, _⟩⟩ => some (scope, key, h)
  | _ => none

/-- A hash to compute with: the text of the request. -/
def textOf : Value → String
  | .str text => text
  | _ => ""

/-- A line of a schedule: a request under the key `k` arrives, to be kept for a
    minute; or a worker moves. -/
inductive Line where
  | request (text : String)
  | turn (i : Nat) (now : Instant) (text : String)

def Line.move : Line → Move IdempotencyCalls Records Outcome
  | .request text => .start (_idempotent textOf "t:u:missions.create" "k" (.str text) 60).void
  | .turn i now text => .call i ⟨now, .ok (.str text)⟩

/-- What a schedule leads to. -/
def follow (lines : List Line) :
    List (RecordStage × Action IdempotencyCalls Records Outcome) × Pool IdempotencyCalls Records :=
  play (requests textOf) (Pool.init .empty) (lines.map Line.move)

theorem follow_run (lines : List Line) : Run (requests textOf) .empty (follow lines).1 (follow lines).2 := by
  refine play_run fun x hx => ?_
  obtain ⟨l, -, rfl⟩ := List.mem_map.mp hx
  cases l with
  | request text => exact ⟨_, _, _, _, rfl⟩
  | turn i now text => trivial

/-- The first request takes longer than a minute, the key is used again for
    another, and then the first one finishes. -/
def takeover : List Line :=
  [.request "first", .turn 0 0 "", .turn 0 0 "one",
    .request "second", .turn 1 (61 * SECOND) "",
    .turn 0 (62 * SECOND) "",
    .request "second", .turn 2 (63 * SECOND) ""]

/-- The second request is answered with the result of the first: nothing has been
    produced for it at all. -/
theorem replay_of_another_request :
    ∃ steps s, Run (requests textOf) .empty steps s ∧ ¬ ReplaysOwn textOf s.stage := by
  refine ⟨_, _, follow_run takeover, fun hown => ?_⟩
  have hreplay : ("t:u:missions.create", "k", "second") ∈
      (follow takeover).2.stage.history.filterMap replayOf := by
    decide +kernel
  have hnone : (results textOf (follow takeover).2.stage "second").length = 0 := by
    decide +kernel
  obtain ⟨e, he, heq⟩ := List.mem_filterMap.mp hreplay
  unfold replayOf at heq
  split at heq
  · cases heq
    obtain ⟨result, -, hp⟩ := hown _ _ _ _ _ _ he
    have hmem := hp.mem_results
    rw [List.length_eq_zero_iff.mp hnone] at hmem
    cases hmem
  · cases heq

/-- One request, repeated after it completed. -/
def repeated : List Line :=
  [.request "first", .turn 0 0 "", .turn 0 0 "one", .turn 0 0 "",
    .request "first", .turn 1 (2 * SECOND) ""]

/-- A reservation that finds no expired record still executing. -/
def live (m : RecordStage) : Action IdempotencyCalls Records Outcome → Bool
  | .call _ (.reserve_idempotency scope key _ _) o =>
    (m.world.find? (scope, key)).all fun r => r.status ≠ .executing || o.now < r.expires_at
  | _ => true

theorem noTakeover_of_live {a : Action IdempotencyCalls Records Outcome} (h : live m a) :
    NoTakeover hash_payload m a := by
  cases a with
  | start p => trivial
  | env w => trivial
  | call i c o =>
    cases c with
    | reserve_idempotency scope key x ttl =>
      intro _ _ record hfind hstatus hexpired
      rw [live, hfind] at h
      simp [hstatus, Int.not_lt.mpr hexpired] at h
    | _ => trivial

/-- The repeated request is replayed, soundly. -/
theorem replay_sound_repeated :
    ∃ steps s, Run (requests textOf) .empty steps s ∧ Meets (NoTakeover textOf) steps ∧
      ∀ m ∈ visited steps s, ReplaysOwn textOf m ∧ SingleFlight textOf m := by
  have hlive : ∀ x ∈ (follow repeated).1, live x.1 x.2 := by decide +kernel
  have hok : Meets (NoTakeover textOf) (follow repeated).1 := fun x hx =>
    noTakeover_of_live (hlive x hx)
  exact ⟨_, _, follow_run repeated, hok, (replay_sound (follow_run repeated)).mpr hok⟩

end Idempotency
