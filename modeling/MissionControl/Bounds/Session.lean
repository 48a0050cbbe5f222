import MissionControl.Bounds.Guard

/-! # What a guard promises over a session

The guard's counters are those of the calls it has admitted, and its window holds
every admission that is not too old to matter. So each check of one call against a
counter bounds the whole session. A breaker passes through three phases: open, half
open, and half open with its probe out. -/

namespace Bounds

variable {τ : Type} [Clock τ]

/-! ## Sessions -/

/-- A call of the guard, with the clock as it is read; where a reading is not made,
    any value between its neighbours will do. -/
inductive Op (τ : Type) where
  | admitCall (c : Call) (bounds_now anomalies_now commit_now : τ)
  | record (node : String) (ok : Bool) (now : τ)
  | clear_halt (owner : Option String) (note : String)

def Op.readings : Op τ → List τ
  | admitCall _ bounds_now anomalies_now commit_now => [bounds_now, anomalies_now, commit_now]
  | record _ _ now => [now]
  | clear_halt _ _ => []

/-- A call that was admitted: when it was checked, and when it was admitted. -/
structure Admission (τ : Type) where
  call : Call
  checked : τ
  time : τ

namespace SessionGuard

/-- The guard after a call, and what the call admitted. -/
def step (g : SessionGuard τ) : Op τ → SessionGuard τ × Option (Admission τ)
  | .admitCall c bounds_now anomalies_now commit_now =>
    let r := g.admitCall c bounds_now anomalies_now commit_now
    (r.1, if r.2.isOk then some ⟨c, bounds_now, commit_now⟩ else none)
  | .record node ok now => (g.record node ok now, none)
  | .clear_halt owner note => ((g.clear_halt owner note).1, none)

/-- The guard after a sequence of calls, and what was admitted, in order. -/
def run (g : SessionGuard τ) : List (Op τ) → SessionGuard τ × List (Admission τ)
  | [] => (g, [])
  | op :: ops =>
    let r := (g.step op).1.run ops
    (r.1, (g.step op).2.toList ++ r.2)

end SessionGuard

/-- The readings of a session that starts after `last` do not decrease. -/
def Nondecreasing (last : τ) (ops : List (Op τ)) : Prop :=
  (last :: ops.flatMap Op.readings).Pairwise (· ≤ ·)

/-! ## One admission -/

/-- The counters an admission moves. -/
def SameCounters (g g' : SessionGuard τ) : Prop :=
  g'.calls = g.calls ∧ g'.identical = g.identical ∧ g'.window = g.window ∧
    g'.seen_tools = g.seen_tools ∧ g'.spawns = g.spawns

/-- The breaker a check of the bounds leaves, where it passes. -/
inductive Probe (g : SessionGuard τ) (now : τ) (node : String) : Breaker τ → Prop
  | cooled (hopen : (g.breaker node).state = .OPEN)
      (hcooled : g.limits.cooldown_s ≤ now - (g.breaker node).opened_at) :
      Probe g now node { g.breaker node with state := .HALF_OPEN, probing := false }
  | ready (hopen : (g.breaker node).state ≠ .OPEN)
      (hprobe : ¬ ((g.breaker node).state = .HALF_OPEN ∧ (g.breaker node).probing)) :
      Probe g now node (g.breaker node)

/-- What the checks of a call that is admitted have found. -/
structure Fits (g : SessionGuard τ) (c : Call) (anomalies_now : τ) : Prop where
  calls : g.calls < g.limits.max_calls
  identical : g.identical (c.node, c.args_hash) + 1 ≤ g.limits.max_identical
  recent : ((g.recent anomalies_now).length : Int) < g.limits.max_calls_per_window
  tools : c.node ∈ g.seen_tools ∨ (g.seen_tools.length : Int) < g.limits.max_novel_tools
  spawns : c.spawns_session → g.spawns < g.limits.max_session_spawns

variable {g : SessionGuard τ} {c : Call} {b a t : τ}

variable {g' : SessionGuard τ}

theorem check_bounds_ok (h : g._check_bounds b c = .ok g') :
    g.calls < g.limits.max_calls ∧ g.identical (c.node, c.args_hash) + 1 ≤ g.limits.max_identical ∧
      ∃ breaker, Probe g b c.node breaker ∧ g' = g.setBreaker c.node breaker := by
  unfold SessionGuard._check_bounds at h
  split at h
  · cases h
  split at h
  · cases h
  split at h
  · cases h
  rename_i hcalls
  split at h
  · cases h
  rename_i hidentical
  refine ⟨not_le.mp hcalls, not_lt.mp hidentical, ?_⟩
  dsimp only at h
  split at h
  · rename_i hopen
    split at h
    · cases h
    · rename_i hcooled
      cases h
      exact ⟨_, .cooled hopen (not_lt.mp hcooled), rfl⟩
  · rename_i hopen
    split at h
    · cases h
    · rename_i hprobe
      cases h
      exact ⟨_, .ready hopen hprobe, rfl⟩

theorem check_anomalies_ok {drift_run : Int} (h : g._check_anomalies a c = .ok drift_run) :
    ((g.recent a).length : Int) < g.limits.max_calls_per_window ∧
      (c.node ∈ g.seen_tools ∨ (g.seen_tools.length : Int) < g.limits.max_novel_tools) ∧
      (c.spawns_session → g.spawns < g.limits.max_session_spawns) := by
  unfold SessionGuard._check_anomalies at h
  split at h
  · cases h
  rename_i hrecent
  split at h
  · cases h
  rename_i htools
  split at h
  · cases h
  rename_i hspawns
  refine ⟨not_le.mp hrecent, ?_, fun hc => ?_⟩
  · rw [not_and_or, not_not, not_le] at htools
    exact htools
  · exact not_le.mp fun hle => hspawns ⟨hc, hle⟩

/-- What a refusal leaves: the counters, and every breaker but one that has cooled
    down; a halt stays. -/
structure Refused (g g' : SessionGuard τ) (c : Call) (b : τ) : Prop where
  counters : SameCounters g g'
  limits : g'.limits = g.limits
  breakers : g'.breakers = g.breakers ∨
    ∃ breaker, Probe g b c.node breaker ∧
      g'.breakers = Function.update g.breakers c.node (some breaker)
  halted : g.halted → g' = g

theorem refuse_counters (g : SessionGuard τ) (exc : BoundViolation) :
    SameCounters g (g.refuse exc) ∧ (g.refuse exc).limits = g.limits ∧
      (g.refuse exc).breakers = g.breakers := by
  have hstrike : ∀ (g : SessionGuard τ) (code : Code), SameCounters g (g._strike code) ∧
      (g._strike code).limits = g.limits ∧ (g._strike code).breakers = g.breakers := by
    intro g code
    unfold SessionGuard._strike
    dsimp only
    split <;> exact ⟨⟨rfl, rfl, rfl, rfl, rfl⟩, rfl, rfl⟩
  unfold SessionGuard.refuse
  dsimp only
  split
  · exact hstrike { g with refusal_run := g.refusal_run + 1 } _
  · split
    · exact hstrike { g with refusal_run := g.refusal_run + 1 } _
    · exact ⟨⟨rfl, rfl, rfl, rfl, rfl⟩, rfl, rfl⟩

/-- **An admission.** The call is refused, or every check passed. -/
theorem admit_cases (g : SessionGuard τ) (c : Call) (b a t : τ) :
    (∃ g' exc, g.admitCall c b a t = (g', .error exc) ∧ Refused g g' c b) ∨
      ∃ breaker drift_run, ¬ g.halted ∧ Fits g c a ∧ Probe g b c.node breaker ∧
        g.admitCall c b a t = ((g.setBreaker c.node breaker).commit t c drift_run, .ok ()) := by
  unfold SessionGuard.admitCall
  split
  · exact .inl ⟨_, _, rfl, ⟨rfl, rfl, rfl, rfl, rfl⟩, rfl, .inl rfl, fun _ => rfl⟩
  rename_i hhalted
  split
  · rename_i exc _
    obtain ⟨hcounters, hlimits, hbreakers⟩ := refuse_counters g exc
    exact .inl ⟨_, _, rfl, hcounters, hlimits, .inl hbreakers, fun h => absurd h hhalted⟩
  · rename_i g₁ hbounds
    obtain ⟨hcalls, hidentical, breaker, hprobe, rfl⟩ := check_bounds_ok hbounds
    split
    · rename_i exc _
      obtain ⟨hcounters, hlimits, hbreakers⟩ := refuse_counters (g.setBreaker c.node breaker) exc
      exact .inl ⟨_, _, rfl, hcounters, hlimits, .inr ⟨breaker, hprobe, hbreakers⟩, fun h => absurd h hhalted⟩
    · rename_i drift_run hanomalies
      obtain ⟨hrecent, htools, hspawns⟩ := check_anomalies_ok hanomalies
      exact .inr ⟨breaker, drift_run, hhalted, ⟨hcalls, hidentical, hrecent, htools, hspawns⟩, hprobe, rfl⟩

/-! ## The counters and the calls they count -/

/-- **The bounds of a session**, over the calls it has admitted. -/
structure Bounded (l : Limits τ) (admitted : List (Admission τ)) : Prop where
  calls : (admitted.length : Int) ≤ l.max_calls
  identical : ∀ node args_hash, ((admitted.countP fun x =>
    x.call.node = node ∧ x.call.args_hash = args_hash : ℕ) : Int) ≤ l.max_identical
  window : ∀ start, ((admitted.countP fun x =>
    start ≤ x.time ∧ x.time - start ≤ l.window_s : ℕ) : Int) ≤ l.max_calls_per_window
  tools : ((admitted.map (·.call.node)).dedup.length : Int) ≤ l.max_novel_tools
  spawns : ((admitted.countP (·.call.spawns_session) : ℕ) : Int) ≤ l.max_session_spawns

/-- The guard's counters are those of the calls it has admitted, up to the reading
    `last`; an admission that has left the window is older than the window is long. -/
structure Tracks (admitted : List (Admission τ)) (last : τ) (g : SessionGuard τ) : Prop where
  calls : g.calls = admitted.length
  identical : ∀ node args_hash, g.identical (node, args_hash) =
    (admitted.countP fun x => x.call.node = node ∧ x.call.args_hash = args_hash : ℕ)
  window : ∃ dropped, admitted.map Admission.time = dropped ++ g.window ∧
    ∀ t ∈ dropped, g.limits.window_s < last - t
  past : ∀ x ∈ admitted, x.time ≤ last
  tools : ∀ node, node ∈ g.seen_tools ↔ node ∈ admitted.map (·.call.node)
  nodup : g.seen_tools.Nodup
  spawns : g.spawns = (admitted.countP (·.call.spawns_session) : ℕ)

variable {admitted : List (Admission τ)} {last : τ}

theorem Tracks.new (limits : Limits τ) (checked : limits.post_init = .ok ()) (now : τ) :
    Tracks [] now (SessionGuard.new limits checked now) where
  calls := rfl
  identical _ _ := rfl
  window := ⟨[], rfl, by simp⟩
  past := by simp
  tools _ := Iff.rfl
  nodup := List.nodup_nil
  spawns := rfl

theorem Tracks.later {now : τ} (h : Tracks admitted last g) (hnow : last ≤ now) : Tracks admitted now g where
  __ := h
  window := by
    obtain ⟨dropped, htimes, hdropped⟩ := h.window
    exact ⟨dropped, htimes, fun t ht => lt_of_lt_of_le (hdropped t ht) (Clock.sub_le_sub t hnow)⟩
  past x hx := (h.past x hx).trans hnow

theorem Tracks.same (h : Tracks admitted last g) (hsame : SameCounters g g') (hlimits : g'.limits = g.limits) :
    Tracks admitted last g' := by
  obtain ⟨hcalls, hidentical, hwindow, htools, hspawns⟩ := hsame
  exact
    { calls := hcalls.trans h.calls
      identical := fun node args_hash => by rw [hidentical, h.identical]
      window := by rw [hwindow, hlimits]; exact h.window
      past := h.past
      tools := fun node => by rw [htools, h.tools]
      nodup := by rw [htools]; exact h.nodup
      spawns := hspawns.trans h.spawns }

theorem Tracks.recent {now : τ} (h : Tracks admitted last g) (hnow : last ≤ now) :
    (g.recent now).length = admitted.countP fun x => now - x.time ≤ g.limits.window_s := by
  obtain ⟨dropped, htimes, hdropped⟩ := (h.later hnow).window
  have hcount : admitted.countP (fun x => now - x.time ≤ g.limits.window_s) =
      (admitted.map Admission.time).countP fun t => now - t ≤ g.limits.window_s := by
    rw [List.countP_map]
    rfl
  have hnone : dropped.countP (fun t => now - t ≤ g.limits.window_s) = 0 := by
    rw [List.countP_eq_zero]
    intro t ht
    simpa using hdropped t ht
  rw [hcount, htimes, List.countP_append, hnone, Nat.zero_add, List.countP_eq_length_filter]
  rfl

/-- **An admission is counted.** -/
theorem Tracks.commit (h : Tracks admitted last g) (hlast : last ≤ t) (drift_run : Int) (b : τ) :
    Tracks (admitted ++ [⟨c, b, t⟩]) t (g.commit t c drift_run) where
  calls := by
    rw [List.length_append, List.length_singleton, Int.natCast_add, ← h.calls]
    rfl
  identical node args_hash := by
    rw [List.countP_append, Int.natCast_add, ← h.identical, List.countP_singleton]
    by_cases hkey : (node, args_hash) = (c.node, c.args_hash)
    · cases hkey
      simp [SessionGuard.commit]
    · have hne : ¬ (c.node = node ∧ c.args_hash = args_hash) :=
        fun heq => hkey (by rw [heq.1, heq.2])
      simp [SessionGuard.commit, Function.update_of_ne hkey, hne]
  window := by
    obtain ⟨dropped, htimes, hdropped⟩ := (h.later hlast).window
    refine ⟨dropped ++ (g.window ++ [t]).takeWhile fun t' => g.limits.window_s < t - t', ?_, ?_⟩
    · rw [List.map_append, htimes, List.append_assoc, List.append_assoc]
      exact congrArg (dropped ++ ·) (List.takeWhile_append_dropWhile).symm
    · intro t' ht'
      rcases List.mem_append.mp ht' with ht' | ht'
      · exact hdropped t' ht'
      · have hold := List.mem_takeWhile_imp ht'
        exact of_decide_eq_true hold
  past x hx := by
    rcases List.mem_append.mp hx with hx | hx
    · exact (h.past x hx).trans hlast
    · obtain rfl := List.mem_singleton.mp hx
      exact le_rfl
  tools node := by
    have htools := h.tools node
    simp only [SessionGuard.commit, List.map_append, List.map_singleton, List.mem_append,
      List.mem_singleton, ← htools]
    split
    · rename_i hseen
      refine ⟨.inl, fun hor => hor.elim id fun heq => ?_⟩
      rw [heq]
      exact hseen
    · rw [List.mem_append, List.mem_singleton]
  nodup := by
    simp only [SessionGuard.commit]
    split
    · exact h.nodup
    · rename_i hseen
      exact List.nodup_append.mpr ⟨h.nodup, List.nodup_singleton _, fun x hx y hy => by
        obtain rfl := List.mem_singleton.mp hy
        exact fun heq => hseen (heq ▸ hx)⟩
  spawns := by
    rw [List.countP_append, Int.natCast_add, ← h.spawns, List.countP_singleton]
    simp only [SessionGuard.commit]
    cases c.spawns_session <;> rfl

theorem length_dedup_le {α : Type} [DecidableEq α] {l l' : List α} (h : ∀ x ∈ l, x ∈ l') :
    l.dedup.length ≤ l'.length :=
  ((List.nodup_dedup l).subperm fun x hx => h x (List.mem_dedup.mp hx)).length_le

theorem Bounded.nil {limits : Limits τ} (checked : limits.post_init = .ok ()) :
    Bounded limits ([] : List (Admission τ)) := by
  unfold Limits.post_init at checked
  split at checked
  · cases checked
  split at checked
  · cases checked
  rename_i hretry
  split at checked
  · cases checked
  rename_i hcalls
  split at checked
  · cases checked
  rename_i hanomaly
  split at checked
  · cases checked
  rename_i hspawns
  simp only [not_or, not_lt, not_not] at hretry hcalls hanomaly hspawns
  exact
    { calls := by simp; omega
      identical := fun _ _ => by simp [Limits.max_identical]; omega
      window := fun _ => by simp; omega
      tools := by simp; omega
      spawns := by simp; omega }

/-- A call that fits keeps the session within its bounds. -/
theorem Bounded.snoc (h : Bounded g.limits admitted) (htracks : Tracks admitted last g)
    (hfits : Fits g c a) (hlast : last ≤ a) (hat : a ≤ t) (b : τ) :
    Bounded g.limits (admitted ++ [⟨c, b, t⟩]) where
  calls := by
    have hcalls := hfits.calls
    rw [htracks.calls] at hcalls
    rw [List.length_append, List.length_singleton]
    exact hcalls
  identical node args_hash := by
    rw [List.countP_append, List.countP_singleton]
    split
    · rename_i hkey
      obtain ⟨rfl, rfl⟩ := of_decide_eq_true hkey
      have hidentical := hfits.identical
      rw [htracks.identical] at hidentical
      exact hidentical
    · exact h.identical node args_hash
  window start := by
    rw [List.countP_append, List.countP_singleton]
    split
    · rename_i hin
      obtain ⟨-, hlength⟩ := of_decide_eq_true hin
      -- every admission in this window is within `window_s` of the one that ends it
      have hrecent : admitted.countP (fun x => start ≤ x.time ∧ x.time - start ≤ g.limits.window_s) ≤
          (g.recent a).length := by
        rw [htracks.recent hlast]
        refine List.countP_mono_left fun x _ hx => decide_eq_true ?_
        obtain ⟨hstart, -⟩ := of_decide_eq_true hx
        calc a - x.time ≤ t - x.time := Clock.sub_le_sub _ hat
          _ ≤ t - start := Clock.sub_le_sub_swap _ hstart
          _ ≤ g.limits.window_s := hlength
      have hlimit := hfits.recent
      omega
    · exact h.window start
  tools := by
    have hseen : (g.seen_tools.length : Int) ≤ g.limits.max_novel_tools := by
      have hle := (htracks.nodup.subperm fun node hnode =>
        List.mem_dedup.mpr ((htracks.tools node).mp hnode)).length_le
      exact (Int.ofNat_le.mpr hle).trans h.tools
    have hnodes : ∀ node ∈ (admitted ++ [(⟨c, b, t⟩ : Admission τ)]).map (·.call.node),
        node ∈ g.seen_tools ∨ node = c.node := by
      intro node hnode
      rwa [List.map_append, List.mem_append, ← htracks.tools, List.map_singleton, List.mem_singleton] at hnode
    rcases hfits.tools with hnode | hlimit
    · have hle := length_dedup_le fun node h => (hnodes node h).elim id fun heq => heq ▸ hnode
      exact (Int.ofNat_le.mpr hle).trans hseen
    · have hle := length_dedup_le fun node h => (List.mem_append (t := [c.node])).mpr
        ((hnodes node h).imp_right List.mem_singleton.mpr)
      rw [List.length_append, List.length_singleton] at hle
      omega
  spawns := by
    rw [List.countP_append, List.countP_singleton]
    split
    · rename_i hspawns
      have hlimit := hfits.spawns hspawns
      rw [htracks.spawns] at hlimit
      exact hlimit
    · exact h.spawns

/-! ## One call of the guard -/

/-- The reading a call ends with. -/
def Op.ends (last : τ) : Op τ → τ
  | admitCall _ _ _ commit_now => commit_now
  | record _ _ now => now
  | clear_halt _ _ => last

variable {ops : List (Op τ)} {op : Op τ}

theorem Nondecreasing.of_cons (h : Nondecreasing last (op :: ops)) :
    last ≤ op.ends last ∧ Nondecreasing (op.ends last) ops := by
  unfold Nondecreasing at h ⊢
  cases op with
  | admitCall c b a t =>
    simp only [List.flatMap_cons, Op.readings, List.cons_append, List.nil_append,
      List.pairwise_cons, List.mem_cons, forall_eq_or_imp] at h
    exact ⟨h.1.2.2.1, List.pairwise_cons.mpr h.2.2.2⟩
  | record node ok now =>
    simp only [List.flatMap_cons, Op.readings, List.cons_append, List.nil_append,
      List.pairwise_cons, List.mem_cons, forall_eq_or_imp] at h
    exact ⟨h.1.1, List.pairwise_cons.mpr h.2⟩
  | clear_halt owner note => exact ⟨le_rfl, h⟩

theorem Nondecreasing.of_admit (h : Nondecreasing last (.admitCall c b a t :: ops)) : last ≤ b ∧ b ≤ a ∧ a ≤ t := by
  unfold Nondecreasing at h
  simp only [List.flatMap_cons, Op.readings, List.cons_append, List.nil_append,
    List.pairwise_cons, List.mem_cons, forall_eq_or_imp] at h
  exact ⟨h.1.1, h.2.1.1, h.2.2.1.1⟩

theorem record_counters (g : SessionGuard τ) (node : String) (ok : Bool) (now : τ) :
    SameCounters g (g.record node ok now) ∧ (g.record node ok now).limits = g.limits := by
  unfold SessionGuard.record
  dsimp only
  split
  · exact ⟨⟨rfl, rfl, rfl, rfl, rfl⟩, rfl⟩
  · split <;> exact ⟨⟨rfl, rfl, rfl, rfl, rfl⟩, rfl⟩

theorem clear_halt_counters (g : SessionGuard τ) (owner : Option String) (note : String) :
    SameCounters g (g.clear_halt owner note).1 ∧ (g.clear_halt owner note).1.limits = g.limits ∧
      (g.clear_halt owner note).1.breakers = g.breakers := by
  unfold SessionGuard.clear_halt
  split
  · exact ⟨⟨rfl, rfl, rfl, rfl, rfl⟩, rfl, rfl⟩
  · split
    · exact ⟨⟨rfl, rfl, rfl, rfl, rfl⟩, rfl, rfl⟩
    · split <;> exact ⟨⟨rfl, rfl, rfl, rfl, rfl⟩, rfl, rfl⟩

theorem step_limits (g : SessionGuard τ) (op : Op τ) : (g.step op).1.limits = g.limits := by
  cases op with
  | admitCall c b a t =>
    simp only [SessionGuard.step]
    rcases admit_cases g c b a t with ⟨g', exc, heq, hrefused⟩ | ⟨breaker, drift_run, -, -, -, heq⟩
    · rw [heq]
      exact hrefused.limits
    · rw [heq]
      rfl
  | record node ok now => exact (record_counters g node ok now).2
  | clear_halt owner note => exact (clear_halt_counters g owner note).2.1

theorem run_limits (g : SessionGuard τ) (ops : List (Op τ)) : (g.run ops).1.limits = g.limits := by
  induction ops generalizing g with
  | nil => rfl
  | cons op ops ih => exact (ih (g.step op).1).trans (step_limits g op)

theorem Tracks.step (h : Tracks admitted last g) (hbounded : Bounded g.limits admitted)
    (hclock : Nondecreasing last (op :: ops)) :
    Tracks (admitted ++ (g.step op).2.toList) (op.ends last) (g.step op).1 ∧
      Bounded g.limits (admitted ++ (g.step op).2.toList) := by
  obtain ⟨hlast, -⟩ := hclock.of_cons
  cases op with
  | admitCall c b a t =>
    simp only [SessionGuard.step]
    rcases admit_cases g c b a t with ⟨g', exc, heq, hrefused⟩ |
      ⟨breaker, drift_run, -, hfits, -, heq⟩
    · rw [heq]
      simp only [Except.isOk, Except.toBool, Bool.false_eq_true, if_false, Option.toList_none, List.append_nil]
      exact ⟨(h.later hlast).same hrefused.counters hrefused.limits, hbounded⟩
    · obtain ⟨hb, ha, hat⟩ := hclock.of_admit
      have hset : Tracks admitted last (g.setBreaker c.node breaker) :=
        h.same ⟨rfl, rfl, rfl, rfl, rfl⟩ rfl
      rw [heq]
      simp only [Except.isOk, Except.toBool, if_true, Option.toList_some]
      exact ⟨hset.commit hlast drift_run b, hbounded.snoc h hfits (hb.trans ha) hat b⟩
  | record node ok now =>
    obtain ⟨hsame, hlimits⟩ := record_counters g node ok now
    simp only [SessionGuard.step, Option.toList_none, List.append_nil]
    exact ⟨(h.later hlast).same hsame hlimits, hbounded⟩
  | clear_halt owner note =>
    obtain ⟨hsame, hlimits, -⟩ := clear_halt_counters g owner note
    simp only [SessionGuard.step, Option.toList_none, List.append_nil]
    exact ⟨(h.later hlast).same hsame hlimits, hbounded⟩

theorem Tracks.run (h : Tracks admitted last g) (hbounded : Bounded g.limits admitted)
    (hclock : Nondecreasing last ops) : Bounded g.limits (admitted ++ (g.run ops).2) := by
  induction ops generalizing g admitted last with
  | nil =>
    simp only [SessionGuard.run, List.append_nil]
    exact hbounded
  | cons op ops ih =>
    obtain ⟨hstep, hbounded⟩ := h.step hbounded hclock
    rw [← step_limits g op] at hbounded ⊢
    have hrest := ih hstep hbounded hclock.of_cons.2
    simp only [SessionGuard.run]
    rw [← List.append_assoc]
    exact hrest

/-! ## Breakers -/

/-- The call reports an outcome of the node. -/
def Op.records (node : String) : Op τ → Prop
  | record node' _ _ => node' = node
  | _ => False

/-- The breaker with its probe out. -/
def Probing (g : SessionGuard τ) (node : String) : Prop :=
  (g.breaker node).state = .HALF_OPEN ∧ (g.breaker node).probing

/-- The breaker opened at `opened`, and its probe is not out: it is open, or the
    cooldown has passed by `last`. -/
def Waiting (g : SessionGuard τ) (node : String) (opened last : τ) : Prop :=
  (g.breaker node).opened_at = opened ∧ ((g.breaker node).state = .OPEN ∨
    (g.breaker node).state = .HALF_OPEN ∧ (g.breaker node).probing = false ∧
      g.limits.cooldown_s ≤ last - opened)

variable {node : String}

theorem breaker_update {node' : String} {breaker : Breaker τ}
    (h : g'.breakers = Function.update g.breakers node' (some breaker)) :
    g'.breaker node = if node = node' then breaker else g.breaker node := by
  unfold SessionGuard.breaker
  rw [h]
  split
  · rename_i heq
    rw [heq, Function.update_self]
    rfl
  · rename_i hne
    rw [Function.update_of_ne hne]

theorem setBreaker_breaker (g : SessionGuard τ) (node' node : String) (breaker : Breaker τ) :
    (g.setBreaker node' breaker).breaker node = if node = node' then breaker else g.breaker node :=
  breaker_update rfl

theorem commit_breaker (g : SessionGuard τ) (t : τ) (c : Call) (drift_run : Int) (node : String) :
    (g.commit t c drift_run).breaker node = if node = c.node then
      (if (g.breaker c.node).state = .HALF_OPEN then { g.breaker c.node with probing := true }
        else g.breaker c.node)
      else g.breaker node :=
  breaker_update rfl

/-- **What a call does to a breaker** whose outcome it does not report: nothing, or it
    is a call of the node that finds the breaker passable, and it is refused for
    another reason or admitted. -/
theorem breaker_step (hop : ¬ op.records node) :
    ((g.step op).1.breaker node = g.breaker node ∧ ∀ x ∈ (g.step op).2, x.call.node ≠ node) ∨
      ∃ c b a t breaker, op = .admitCall c b a t ∧ c.node = node ∧ Probe g b node breaker ∧
        ((g.step op).1.breaker node = breaker ∧ (g.step op).2 = none ∨ (g.step op).1.breaker node =
            (if breaker.state = .HALF_OPEN then { breaker with probing := true } else breaker) ∧
          (g.step op).2 = some ⟨c, b, t⟩) := by
  cases op with
  | admitCall c b a t =>
    simp only [SessionGuard.step]
    rcases admit_cases g c b a t with ⟨g', exc, heq, hrefused⟩ |
      ⟨breaker, drift_run, -, -, hprobe, heq⟩
    · rw [heq]
      simp only [Except.isOk, Except.toBool, Bool.false_eq_true, if_false]
      rcases hrefused.breakers with hsame | ⟨breaker, hprobe, hupdate⟩
      · refine .inl ⟨?_, by simp⟩
        unfold SessionGuard.breaker
        rw [hsame]
      · rw [breaker_update hupdate]
        split
        · rename_i hnode
          subst hnode
          exact .inr ⟨c, b, a, t, breaker, rfl, rfl, hprobe, .inl ⟨rfl, trivial⟩⟩
        · exact .inl ⟨rfl, by simp⟩
    · rw [heq]
      simp only [Except.isOk, Except.toBool, if_true]
      rw [commit_breaker, setBreaker_breaker, setBreaker_breaker, if_pos rfl]
      split
      · rename_i hnode
        subst hnode
        exact .inr ⟨c, b, a, t, breaker, rfl, rfl, hprobe, .inr ⟨rfl, rfl⟩⟩
      · rename_i hnode
        refine .inl ⟨rfl, fun x hx => ?_⟩
        cases hx
        exact fun heq => hnode heq.symm
  | record node' ok now =>
    refine .inl ⟨?_, by simp [SessionGuard.step]⟩
    simp only [SessionGuard.step, SessionGuard.record]
    have hne : node ≠ node' := fun heq => hop heq.symm
    split
    · rw [setBreaker_breaker, if_neg hne]
    · split <;> rw [setBreaker_breaker, if_neg hne]
  | clear_halt owner note =>
    refine .inl ⟨?_, by simp [SessionGuard.step]⟩
    unfold SessionGuard.breaker
    exact congrArg (fun f => (f node).getD {}) (clear_halt_counters g owner note).2.2

theorem Probing.run (h : Probing g node) (hops : ∀ op ∈ ops, ¬ op.records node) :
    ∀ x ∈ (g.run ops).2, x.call.node ≠ node := by
  induction ops generalizing g with
  | nil => simp [SessionGuard.run]
  | cons op ops ih =>
    rw [List.forall_mem_cons] at hops
    simp only [SessionGuard.run, List.mem_append, Option.mem_toList]
    rcases breaker_step hops.1 with ⟨hsame, hnone⟩ | ⟨c, b, a, t, breaker, -, rfl, hprobe, -⟩
    · have hprobing : Probing (g.step op).1 node := by
        unfold Probing
        rw [hsame]
        exact h
      exact fun x hx => hx.elim (hnone x) (ih hprobing hops.2 x)
    · cases hprobe with
      | cooled hopen => exact absurd (hopen.symm.trans h.1) (by simp)
      | ready _ hready => exact absurd h hready

theorem Waiting.step {opened : τ} (h : Waiting g node opened last) (hop : ¬ op.records node)
    (hclock : Nondecreasing last (op :: ops)) : Waiting (g.step op).1 node opened (op.ends last) ∧
        (∀ x ∈ (g.step op).2, x.call.node ≠ node) ∨ Probing (g.step op).1 node ∧
        ∀ x ∈ (g.step op).2, g.limits.cooldown_s ≤ x.checked - opened := by
  obtain ⟨hopened, hstate⟩ := h
  obtain ⟨hlast, -⟩ := hclock.of_cons
  rcases breaker_step (g := g) hop with ⟨hsame, hnone⟩ |
    ⟨c, b, a, t, breaker, rfl, rfl, hprobe, hafter⟩
  · refine .inl ⟨?_, hnone⟩
    unfold Waiting
    rw [hsame, step_limits]
    exact ⟨hopened, hstate.imp_right fun ⟨hhalf, hprobing, hcooled⟩ =>
      ⟨hhalf, hprobing, hcooled.trans (Clock.sub_le_sub _ hlast)⟩⟩
  · obtain ⟨hb, hba, hat⟩ := hclock.of_admit
    -- the breaker is half open now, and the cooldown had passed when the call was checked
    have hhalf : breaker.opened_at = opened ∧ breaker.state = .HALF_OPEN ∧
        breaker.probing = false ∧ g.limits.cooldown_s ≤ b - opened := by
      cases hprobe with
      | cooled hopen hcooled => exact ⟨hopened, rfl, rfl, hopened ▸ hcooled⟩
      | ready hopen _ =>
        rcases hstate with hstate | ⟨hhalf, hprobing, hcooled⟩
        · exact absurd hstate hopen
        · exact ⟨hopened, hhalf, hprobing, hcooled.trans (Clock.sub_le_sub _ hb)⟩
    obtain ⟨hopened', hhalf, hprobing, hcooled⟩ := hhalf
    rcases hafter with ⟨hbreaker, hnone⟩ | ⟨hbreaker, hsome⟩
    · refine .inl ⟨?_, by rw [hnone]; simp⟩
      unfold Waiting
      rw [hbreaker, step_limits]
      exact ⟨hopened', .inr ⟨hhalf, hprobing, hcooled.trans (Clock.sub_le_sub _ (hba.trans hat))⟩⟩
    · refine .inr ⟨?_, fun x hx => ?_⟩
      · unfold Probing
        rw [hbreaker, if_pos hhalf]
        exact ⟨hhalf, rfl⟩
      · rw [hsome] at hx
        cases hx
        exact hcooled

theorem Waiting.run {opened : τ} (h : Waiting g node opened last) (hops : ∀ op ∈ ops, ¬ op.records node)
    (hclock : Nondecreasing last ops) :
    (∀ x ∈ (g.run ops).2, x.call.node = node → g.limits.cooldown_s ≤ x.checked - opened) ∧
      (g.run ops).2.countP (fun x => x.call.node = node) ≤ 1 := by
  induction ops generalizing g last with
  | nil => simp [SessionGuard.run]
  | cons op ops ih =>
    rw [List.forall_mem_cons] at hops
    simp only [SessionGuard.run, List.mem_append, Option.mem_toList, List.countP_append]
    rcases h.step hops.1 hclock with ⟨hwaiting, hnone⟩ | ⟨hprobing, hcooled⟩
    · obtain ⟨hrest, hcount⟩ := ih hwaiting hops.2 hclock.of_cons.2
      rw [step_limits] at hrest
      refine ⟨fun x hx hnode => hx.elim (fun hx => absurd hnode (hnone x hx))
        fun hx => hrest x hx hnode, ?_⟩
      have hzero : (g.step op).2.toList.countP (fun x => x.call.node = node) = 0 := by
        rw [List.countP_eq_zero]
        intro x hx
        simpa using hnone x (Option.mem_toList.mp hx)
      rw [hzero, Nat.zero_add]
      exact hcount
    · have hrest := hprobing.run hops.2
      refine ⟨fun x hx hnode => hx.elim (hcooled x) fun hx => absurd hnode (hrest x hx), ?_⟩
      have hzero : ((g.step op).1.run ops).2.countP (fun x => x.call.node = node) = 0 := by
        rw [List.countP_eq_zero]
        intro x hx
        simpa using hrest x hx
      rw [hzero, Nat.add_zero]
      refine List.countP_le_length.trans ?_
      cases (g.step op).2 <;> simp

/-! ## Halts -/

/-- The call lifts a halt: it names an owner and a reason. -/
def Op.clears : Op τ → Prop
  | clear_halt owner note => ∃ o, owner = some o ∧ ¬ Python.blank o ∧
      (Python.strip o).toLower ∉ ["service", "system", "agent"] ∧ ¬ Python.blank note
  | _ => False

theorem halted_step (h : g.halted) (hop : ¬ op.clears) : (g.step op).1.halted ∧ (g.step op).2 = none := by
  cases op with
  | admitCall c b a t =>
    have hcall : g.admitCall c b a t =
        (g, .error ⟨.SESSION_HALTED, "session halted: " ++ g.halt_reason⟩) := if_pos h
    simp only [SessionGuard.step, hcall]
    exact ⟨h, rfl⟩
  | record node ok now =>
    refine ⟨?_, rfl⟩
    simp only [SessionGuard.step, SessionGuard.record]
    split
    · exact h
    · split <;> exact h
  | clear_halt owner note =>
    refine ⟨?_, rfl⟩
    simp only [SessionGuard.step, SessionGuard.clear_halt]
    cases owner with
    | none => exact h
    | some owner =>
      dsimp only
      split
      · exact h
      · rename_i howner
        split
        · exact h
        · rename_i hnote
          rw [not_or] at howner
          exact absurd ⟨owner, rfl, howner.1, howner.2, hnote⟩ hop

theorem halted_run (h : g.halted) (hops : ∀ op ∈ ops, ¬ op.clears) : (g.run ops).2 = [] := by
  induction ops generalizing g with
  | nil => rfl
  | cons op ops ih =>
    rw [List.forall_mem_cons] at hops
    obtain ⟨hhalted, hnone⟩ := halted_step h hops.1
    simp only [SessionGuard.run]
    rw [hnone, ih hhalted hops.2]
    rfl

/-! ## Sessions -/

/-- The last reading of a session. -/
def endOf (last : τ) (ops : List (Op τ)) : τ := ops.foldl Op.ends last

theorem Nondecreasing.of_append {before after : List (Op τ)} (h : Nondecreasing last (before ++ after)) :
    Nondecreasing last before ∧ Nondecreasing (endOf last before) after := by
  induction before generalizing last with
  | nil => exact ⟨List.pairwise_singleton _ _, h⟩
  | cons op before ih =>
    refine ⟨?_, (ih h.of_cons.2).2⟩
    unfold Nondecreasing at h ⊢
    rw [List.flatMap_append, ← List.cons_append, List.pairwise_append] at h
    exact h.1

/-- **Execution bounds.** Whatever is called on a new guard, in any order, with a
    clock that does not decrease: the admitted calls keep the session's bounds. From
    the state so reached, an open breaker admits none of its node's calls before the
    cooldown, and then one, until an outcome of the node is recorded; a refused call
    moves no counter; and a halted guard admits nothing until it is cleared. -/
theorem execution_bounds {limits : Limits τ} (checked : limits.post_init = .ok ()) {started : τ}
    {before after : List (Op τ)} (hclock : Nondecreasing started (before ++ after)) :
    Bounded limits ((SessionGuard.new limits checked started).run before).2 ∧
      let g := ((SessionGuard.new limits checked started).run before).1
      (∀ node, g.breaker_state node = .OPEN → (∀ op ∈ after, ¬ op.records node) →
        (∀ x ∈ (g.run after).2, x.call.node = node →
          limits.cooldown_s ≤ x.checked - (g.breaker node).opened_at) ∧
        (g.run after).2.countP (fun x => x.call.node = node) ≤ 1) ∧
      (∀ c b a t exc, (g.admitCall c b a t).2 = .error exc → SameCounters g (g.admitCall c b a t).1) ∧
      (g.halted → (∀ op ∈ after, ¬ op.clears) → (g.run after).2 = []) := by
  obtain ⟨hbefore, hafter⟩ := hclock.of_append
  have hnew : Bounded limits ([] : List (Admission τ)) := Bounded.nil checked
  have hlimits : ((SessionGuard.new limits checked started).run before).1.limits = limits :=
    run_limits _ before
  refine ⟨(Tracks.new limits checked started).run hnew hbefore, fun node hopen hops => ?_,
    fun c b a t exc hrefused => ?_, fun hhalted hops => halted_run hhalted hops⟩
  · have hwaiting := Waiting.run ⟨rfl, .inl hopen⟩ hops hafter
    rw [hlimits] at hwaiting
    exact hwaiting
  · rcases admit_cases ((SessionGuard.new limits checked started).run before).1 c b a t with
      ⟨g', exc', heq, hsame⟩ | ⟨breaker, drift_run, -, -, -, heq⟩
    · rw [heq]
      exact hsame.counters
    · rw [heq] at hrefused
      cases hrefused

/-- A call of the node `search`, with the clock standing still. -/
def searches (now : ℤ) : Op ℤ := .admitCall ⟨"search", "h", 1, [], "", false⟩ now now now

/-- Three failures open the breaker. -/
def failing : List (Op ℤ) := searches 0 :: List.replicate 3 (.record "search" false 1)

/-- One call while the breaker cools down, and two calls after that. -/
def afterFailing : List (Op ℤ) := [searches 2, searches 61, searches 62]

/-- The second of the three calls is the probe, and the only one that is admitted. -/
theorem execution_bounds_probe :
    let g := ((SessionGuard.new {} Limits.default_admitted (0 : ℤ)).run failing).1
    g.breaker_state "search" = .OPEN ∧
      (g.run afterFailing).2.map Admission.time = [61] ∧
      (∀ x ∈ (g.run afterFailing).2, x.call.node = "search" →
        60 ≤ x.checked - (g.breaker "search").opened_at) ∧
      (g.run afterFailing).2.countP (fun x => x.call.node = "search") ≤ 1 := by
  have hclock : Nondecreasing 0 (failing ++ afterFailing) := by
    unfold Nondecreasing
    decide
  have hopen : ((SessionGuard.new {} Limits.default_admitted (0 : ℤ)).run failing).1.breaker_state
      "search" = .OPEN := by decide +kernel
  have hops : ∀ op ∈ afterFailing, ¬ op.records "search" := by
    simp [afterFailing, searches, Op.records]
  have h := (execution_bounds Limits.default_admitted hclock).2.1 "search" hopen hops
  exact ⟨hopen, by decide +kernel, h.1, h.2⟩

theorem Tracks.after (h : Tracks admitted last g) (hbounded : Bounded g.limits admitted) (hclock : Nondecreasing last ops) :
    Tracks (admitted ++ (g.run ops).2) (endOf last ops) (g.run ops).1 := by
  induction ops generalizing g admitted last with
  | nil =>
    simp only [SessionGuard.run, List.append_nil]
    exact h
  | cons op ops ih =>
    obtain ⟨hstep, hbounded⟩ := h.step hbounded hclock
    rw [← step_limits g op] at hbounded
    have hrest := ih hstep hbounded hclock.of_cons.2
    simp only [SessionGuard.run]
    rw [← List.append_assoc]
    exact hrest

/-- **The counters are exact.** After any calls on a new guard, with a clock that does not decrease, they are those of the
    calls admitted. -/
theorem counters_exact {limits : Limits τ} (checked : limits.post_init = .ok ()) {started : τ} {ops : List (Op τ)}
    (hclock : Nondecreasing started ops) :
    Tracks ((SessionGuard.new limits checked started).run ops).2 (endOf started ops)
      ((SessionGuard.new limits checked started).run ops).1 :=
  (Tracks.new limits checked started).after (Bounded.nil checked) hclock

theorem counters_exact_failing : let s := (SessionGuard.new {} Limits.default_admitted (0 : ℤ)).run (failing ++ afterFailing)
    s.1.calls = s.2.length := by
  have hclock : Nondecreasing 0 (failing ++ afterFailing) := by
    unfold Nondecreasing
    decide
  exact (counters_exact Limits.default_admitted hclock).calls

end Bounds
