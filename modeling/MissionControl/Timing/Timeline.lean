import Mathlib.Algebra.BigOperators.Group.List.Basic
import MissionControl.Relational.Spans
import MissionControl.Timing.Rate

/-! # Timelines

A timeline lays its clips one after another, a dissolve overlapping the two clips it joins. What it accepts is checked
clip by clip against the clip before (`ClipSpec.joins`), and positions add up from there (`startsFrom`).

* **Starts increase and the last clip ends last**, for every accepted timeline (`staggered_spans`).
* **At most two clips are on screen** exactly where no clip is shorter than its two dissolves together
  (`timeline_consistent_iff`). The check of one dissolve against its two neighbours does not see that the two dissolves
  of a clip meet. -/

namespace Timing

open Python (bind_unit_eq_ok matchesClass parseFraction parseFraction_fractionText raiseIf raiseIf_eq_ok)

/-! ## Clips -/

inductive Transition where
  | cut | dissolve
deriving DecidableEq

inductive Role where
  | hook | headline | message | proof | cta | bridge
deriving DecidableEq

structure ClipSpec where
  clip_id : String
  shot_ref : String
  role : Role
  duration_frames : ℤ
  transition_in : Transition := .cut
  overlap_frames : ℤ := 0
deriving DecidableEq

def isIdLetter (c : Char) : Bool := ('a' ≤ c && c ≤ 'z') || ('0' ≤ c && c ≤ '9')

/-- `_ID.match(value)` -/
def isId (value : String) : Bool :=
  match value.toList with
  | [] => false
  | c :: cs => isIdLetter c && matchesClass (fun d => isIdLetter d || d == '_' || d == '-') 0 63 cs

/-- A message for a field, and the field it names. -/
abbrev FieldError := String × String

/-- `_id_ok` of an identifier field, given how texts are quoted. -/
def idErrors (repr : String → String) (field what value : String) : List FieldError :=
  if isId value then [] else [(field, "invalid " ++ what ++ " " ++ repr value)]

/-- `Field(gt=0, le=240 * 3600)` -/
def durationErrors (frames : ℤ) : List FieldError :=
  if frames ≤ 0 then [("duration_frames", "Input should be greater than 0")]
  else if 240 * 3600 < frames then [("duration_frames", "Input should be less than or equal to 864000")]
  else []

/-- `Field(default=0, ge=0)` -/
def overlapErrors (frames : ℤ) : List FieldError :=
  if frames < 0 then [("overlap_frames", "Input should be greater than or equal to 0")] else []

def ClipSpec.errors (repr : String → String) (clip : ClipSpec) : List FieldError :=
  idErrors repr "clip_id" "id" clip.clip_id ++ idErrors repr "shot_ref" "id" clip.shot_ref ++
    durationErrors clip.duration_frames ++ overlapErrors clip.overlap_frames

/-! ## The model -/

inductive Kind where
  | master | cutdown
deriving DecidableEq

structure TimelineFields where
  timeline_id : String
  kind : Kind
  fps : String
  clips : List ClipSpec
  master_timeline_id : Option String := none

/-- `_rate_ok` of the timebase. -/
def rateErrors (repr : String → String) (shown : ℚ → String) (fps : String) : List FieldError :=
  match parse_rate fps with
  | .ok _ => []
  | .error e => [("timebase.fps", e.message repr shown)]

/-- What is wrong with the fields, before `_structure` looks at them together. -/
def TimelineFields.errors (repr : String → String) (shown : ℚ → String) (t : TimelineFields) : List FieldError :=
  idErrors repr "timeline_id" "timeline id" t.timeline_id ++ rateErrors repr shown t.fps ++
    (if t.clips = [] then [("clips", "Tuple should have at least 1 item after validation, not 0")] else []) ++
    t.clips.zipIdx.flatMap fun (clip, i) =>
      (clip.errors repr).map fun e => ("clips." ++ Nat.repr i ++ "." ++ e.1, e.2)

/-- One turn of the loop of `_structure`. -/
def ClipSpec.joins (prev : Option ClipSpec) (clip : ClipSpec) : Except String Unit := do
  raiseIf (clip.transition_in = .cut ∧ clip.overlap_frames ≠ 0) ("cut into " ++ clip.clip_id ++ " cannot overlap")
  raiseIf (clip.transition_in = .dissolve ∧ clip.overlap_frames = 0)
    ("dissolve into " ++ clip.clip_id ++ " needs overlap_frames > 0")
  match prev with
  | none => .ok ()
  | some prev =>
    raiseIf (0 < clip.overlap_frames ∧ min prev.duration_frames clip.duration_frames ≤ clip.overlap_frames)
      ("overlap into " ++ clip.clip_id ++ " must be shorter than both neighbours")

/-- The loop of `_structure`. -/
def joinsAll : Option ClipSpec → List ClipSpec → Except String Unit
  | _, [] => .ok ()
  | prev, clip :: clips => do
    clip.joins prev
    joinsAll (some clip) clips

/-- `_structure` -/
def TimelineFields.check (t : TimelineFields) : Except String Unit := do
  raiseIf (¬(t.clips.map (·.clip_id)).Nodup) "duplicate clip_id"
  raiseIf (t.kind = .master ∧ t.master_timeline_id.isSome) "a master timeline cannot reference another master"
  raiseIf (t.kind = .cutdown ∧ t.master_timeline_id.getD "" = "") "a cutdown must name its master_timeline_id"
  raiseIf (t.clips.head?.any fun first => first.transition_in ≠ .cut ∨ first.overlap_frames ≠ 0)
    "the first clip cannot have a transition"
  joinsAll none t.clips
  raiseIf (t.clips.getLast?.map (·.role) ≠ some .cta) "timeline must end on a cta clip (no silent truncation)"
  raiseIf (¬t.clips.any fun c => c.role = .message ∨ c.role = .headline) "timeline must carry a message or headline"

/-- A timeline the model accepts. -/
structure Timeline extends TimelineFields where
  valid : ∀ repr shown, toTimelineFields.errors repr shown = []
  structured : toTimelineFields.check = .ok ()

/-! ## Positions -/

/-- The clips after the first, from where the one before ends. -/
def startsFrom (cursor : ℤ) : List ClipSpec → List ℤ
  | [] => []
  | clip :: clips =>
    let start := cursor - clip.overlap_frames
    start :: startsFrom (start + clip.duration_frames) clips

def Timeline.starts (t : Timeline) : List ℤ :=
  match t.clips with
  | [] => []
  | first :: clips => 0 :: startsFrom (0 + first.duration_frames) clips

def Timeline.total_frames (t : Timeline) : ℤ :=
  match t.starts.getLast?, t.clips.getLast? with
  | some start, some last => start + last.duration_frames
  | _, _ => 0

def Timeline.total_seconds (t : Timeline) : Except TimingError String := frames_to_seconds t.total_frames t.fps

/-- The frames each clip is on screen: from its start, for its duration. -/
def spansOf (starts : List ℤ) (clips : List ClipSpec) : List (ℤ × ℤ) :=
  List.zipWith (fun start clip => (start, start + clip.duration_frames)) starts clips

def Timeline.spans (t : Timeline) : List (ℤ × ℤ) := spansOf t.starts t.clips

/-! ## What is accepted -/

/-- What the checks say of two neighbours. -/
structure Joined (clip next : ClipSpec) : Prop where
  overlaps : 0 ≤ next.overlap_frames
  before : next.overlap_frames < clip.duration_frames
  after : next.overlap_frames < next.duration_frames

variable {clip next first prev : ClipSpec} {clips : List ClipSpec} {t : Timeline}

theorem bounds_of_errors (h : ∀ repr, clip.errors repr = []) : 0 < clip.duration_frames ∧ 0 ≤ clip.overlap_frames := by
  have h := h id
  unfold ClipSpec.errors durationErrors overlapErrors at h
  simp only [List.append_eq_nil_iff, ite_eq_right_iff] at h
  obtain ⟨⟨-, hduration⟩, hoverlap⟩ := h
  constructor
  · by_contra hle
    rw [if_pos (not_lt.mp hle)] at hduration
    cases hduration
  · by_contra hlt
    cases hoverlap (not_le.mp hlt)

theorem joined_of_joins (hprev : 0 < prev.duration_frames) (hclip : 0 < clip.duration_frames)
    (hoverlap : 0 ≤ clip.overlap_frames) (h : clip.joins (some prev) = .ok ()) : Joined prev clip := by
  have hmin : ¬(0 < clip.overlap_frames ∧ min prev.duration_frames clip.duration_frames ≤ clip.overlap_frames) := by
    unfold ClipSpec.joins at h
    rw [bind_unit_eq_ok, bind_unit_eq_ok] at h
    exact raiseIf_eq_ok.mp h.2.2
  constructor
  · exact hoverlap
  · by_contra hle
    exact hmin (by omega)
  · by_contra hle
    exact hmin (by omega)

theorem isChain_of_joinsAll (hbounds : ∀ c ∈ prev :: clips, 0 < c.duration_frames ∧ 0 ≤ c.overlap_frames)
    (h : joinsAll (some prev) clips = .ok ()) : (prev :: clips).IsChain Joined := by
  induction clips generalizing prev with
  | nil => exact List.IsChain.singleton _
  | cons clip clips ih =>
    unfold joinsAll at h
    rw [bind_unit_eq_ok] at h
    rw [List.forall_mem_cons, List.forall_mem_cons] at hbounds
    obtain ⟨hprev, hclip, hclips⟩ := hbounds
    apply List.IsChain.cons_cons
    · exact joined_of_joins hprev.1 hclip.1 hclip.2 h.1
    · exact ih (List.forall_mem_cons.mpr ⟨hclip, hclips⟩) h.2

/-- **What an accepted timeline is:** a first clip that overlaps nothing, and neighbours that are joined. -/
theorem Timeline.spec (t : Timeline) : ∃ first clips, t.clips = first :: clips ∧
    (∀ c ∈ first :: clips, 0 < c.duration_frames) ∧ first.overlap_frames = 0 ∧ (first :: clips).IsChain Joined := by
  have hbounds : ∀ c ∈ t.clips, 0 < c.duration_frames ∧ 0 ≤ c.overlap_frames := by
    intro c hc
    apply bounds_of_errors
    intro repr
    have herrors := t.valid repr (fun _ => "")
    unfold TimelineFields.errors at herrors
    rw [List.append_eq_nil_iff] at herrors
    obtain ⟨i, hi, rfl⟩ := List.getElem_of_mem hc
    have hmem : (t.clips[i], i) ∈ t.clips.zipIdx := List.mk_mem_zipIdx_iff_getElem?.mpr (List.getElem?_eq_getElem hi)
    simpa using List.flatMap_eq_nil_iff.mp herrors.2 _ hmem
  have hstructured := t.structured
  unfold TimelineFields.check at hstructured
  simp only [bind_unit_eq_ok, raiseIf_eq_ok] at hstructured
  obtain ⟨-, -, -, hfirst, hjoins, -⟩ := hstructured
  cases hclips : t.clips with
  | nil =>
    have herrors := t.valid id (fun _ => "")
    unfold TimelineFields.errors at herrors
    simp [hclips] at herrors
  | cons first clips =>
    rw [hclips] at hbounds hfirst hjoins
    refine ⟨first, clips, rfl, fun c hc => (hbounds c hc).1, ?_, ?_⟩
    · simp only [List.head?_cons, Option.any_some, decide_eq_true_eq, not_or, not_not] at hfirst
      exact hfirst.2
    · unfold joinsAll at hjoins
      rw [bind_unit_eq_ok] at hjoins
      exact isChain_of_joinsAll hbounds hjoins.2

/-! ## Where clips are -/

variable {cursor start : ℤ}

theorem spansOf_cons : spansOf (startsFrom cursor (clip :: clips)) (clip :: clips) =
    (cursor - clip.overlap_frames, cursor - clip.overlap_frames + clip.duration_frames) ::
      spansOf (startsFrom (cursor - clip.overlap_frames + clip.duration_frames) clips) clips := rfl

theorem length_startsFrom : (startsFrom cursor clips).length = clips.length := by
  induction clips generalizing cursor with
  | nil => rfl
  | cons clip clips ih => exact congrArg (· + 1) ih

/-- **Each clip begins and ends after the one before.** -/
theorem isChain_spansOf (h : (prev :: clips).IsChain Joined) (start : ℤ) :
    ((start, start + prev.duration_frames) :: spansOf (startsFrom (start + prev.duration_frames) clips) clips).IsChain
      Spans.Before := by
  induction clips generalizing prev start with
  | nil => exact List.IsChain.singleton _
  | cons clip clips ih =>
    rw [List.isChain_cons_cons] at h
    rw [spansOf_cons]
    apply List.IsChain.cons_cons
    · have := h.1.before
      have := h.1.after
      constructor
      · show start < start + prev.duration_frames - clip.overlap_frames
        omega
      · show start + prev.duration_frames < start + prev.duration_frames - clip.overlap_frames + clip.duration_frames
        omega
    · exact ih h.2 _

theorem spansOf_nonempty (h : ∀ c ∈ clips, 0 < c.duration_frames) {starts : List ℤ} :
    ∀ p ∈ spansOf starts clips, p.1 < p.2 := by
  intro p hp
  unfold spansOf at hp
  rw [← List.map_uncurry_zip_eq_zipWith] at hp
  obtain ⟨⟨start, clip⟩, hmem, rfl⟩ := List.mem_map.mp hp
  have := h clip (List.of_mem_zip hmem).2
  show start < start + clip.duration_frames
  omega

theorem Timeline.spans_eq (t : Timeline) : ∃ first clips, t.clips = first :: clips ∧ first.overlap_frames = 0 ∧
    (first :: clips).IsChain Joined ∧ t.starts = 0 :: startsFrom (0 + first.duration_frames) clips ∧
    t.spans = (0, 0 + first.duration_frames) :: spansOf (startsFrom (0 + first.duration_frames) clips) clips := by
  obtain ⟨first, clips, heq, -, hzero, hchain⟩ := t.spec
  refine ⟨first, clips, heq, hzero, hchain, ?_, ?_⟩
  · unfold Timeline.starts
    rw [heq]
  · unfold Timeline.spans Timeline.starts
    rw [heq]
    rfl

/-- **The clips of an accepted timeline are staggered.** -/
theorem Timeline.staggered (t : Timeline) : Spans.Staggered t.spans := by
  apply Spans.Staggered.of_isChain
  · obtain ⟨first, clips, heq, hpos, -, -⟩ := t.spec
    exact spansOf_nonempty (heq ▸ hpos)
  · obtain ⟨first, clips, -, -, hchain, -, heq⟩ := t.spans_eq
    rw [heq]
    exact isChain_spansOf hchain 0

/-! ## How long a timeline is -/

theorem total_from (start : ℤ) (first : ClipSpec) (clips : List ClipSpec) :
    (start :: startsFrom (start + first.duration_frames) clips).getLast (List.cons_ne_nil _ _) +
        ((first :: clips).getLast (List.cons_ne_nil _ _)).duration_frames =
      start + first.duration_frames + (clips.map (·.duration_frames)).sum - (clips.map (·.overlap_frames)).sum := by
  induction clips generalizing start first with
  | nil => simp [startsFrom]
  | cons clip clips ih =>
    have hlast := ih (start + first.duration_frames - clip.overlap_frames) clip
    rw [List.getLast_cons (List.cons_ne_nil clip clips)]
    show (start :: (start + first.duration_frames - clip.overlap_frames) :: startsFrom _ clips).getLast _ + _ = _
    rw [List.getLast_cons (List.cons_ne_nil _ _), hlast]
    simp only [List.map_cons, List.sum_cons]
    omega

/-- **The length of a timeline** is what its clips last less what they overlap. -/
theorem Timeline.total_frames_eq (t : Timeline) :
    t.total_frames = (t.clips.map (·.duration_frames)).sum - (t.clips.map (·.overlap_frames)).sum := by
  obtain ⟨first, clips, heq, hzero, -, hstarts, -⟩ := t.spans_eq
  unfold Timeline.total_frames
  rw [heq, hstarts, List.getLast?_eq_some_getLast (List.cons_ne_nil _ _),
    List.getLast?_eq_some_getLast (List.cons_ne_nil _ _)]
  show _ + _ = _
  rw [total_from 0 first clips]
  simp only [List.map_cons, List.sum_cons, hzero]
  omega

theorem Timeline.length_starts (t : Timeline) : t.starts.length = t.clips.length := by
  obtain ⟨first, clips, heq, -, -, hstarts, -⟩ := t.spans_eq
  rw [heq, hstarts]
  exact congrArg (· + 1) length_startsFrom

theorem Timeline.map_fst_spans (t : Timeline) : t.spans.map Prod.fst = t.starts := by
  have hzip : t.spans = (t.starts.zip t.clips).map fun p => (p.1, p.1 + p.2.duration_frames) := by
    unfold Timeline.spans spansOf
    rw [← List.map_uncurry_zip_eq_zipWith]
    rfl
  rw [hzip, List.map_map]
  exact List.map_fst_zip (le_of_eq t.length_starts)

theorem Timeline.getLast_spans (t : Timeline) : ∃ p, t.spans.getLast? = some p ∧ p.2 = t.total_frames := by
  have hlength := t.length_starts
  have hne : t.clips ≠ [] := by
    obtain ⟨first, clips, heq, -⟩ := t.spec
    rw [heq]
    exact List.cons_ne_nil _ _
  have hne' : t.starts ≠ [] := by
    intro hnil
    rw [hnil] at hlength
    exact hne (List.length_eq_zero_iff.mp hlength.symm)
  obtain ⟨clips, last, hclips⟩ := (List.eq_nil_or_concat t.clips).resolve_left hne
  obtain ⟨starts, start, hstarts⟩ := (List.eq_nil_or_concat t.starts).resolve_left hne'
  rw [hclips, hstarts, List.length_concat, List.length_concat] at hlength
  refine ⟨(start, start + last.duration_frames), ?_, ?_⟩
  · unfold Timeline.spans spansOf
    rw [hclips, hstarts, List.concat_eq_append, List.concat_eq_append, List.zipWith_append (Nat.succ.inj hlength)]
    exact List.getLast?_concat
  · unfold Timeline.total_frames
    rw [hclips, hstarts]
    simp

/-! ## Where clips meet -/

/-- The dissolve into a clip is over when the dissolve out of it begins. -/
def Fits (clip next : ClipSpec) : Prop := clip.overlap_frames + next.overlap_frames ≤ clip.duration_frames

instance (clip next : ClipSpec) : Decidable (Fits clip next) :=
  inferInstanceAs (Decidable (_ ≤ _))

theorem loose_spansOf : Spans.Loose
    ((start, start + prev.duration_frames) :: spansOf (startsFrom (start + prev.duration_frames) clips) clips) ↔
      clips.IsChain Fits := by
  induction clips generalizing prev start with
  | nil => exact iff_of_true (Spans.loose_of_length_le (by simp [spansOf, startsFrom])) .nil
  | cons clip clips ih =>
    cases clips with
    | nil => exact iff_of_true (Spans.loose_of_length_le (by simp [spansOf, startsFrom])) (.singleton _)
    | cons next clips =>
      rw [spansOf_cons, spansOf_cons, Spans.loose_cons_cons_cons, ← spansOf_cons, ih, List.isChain_cons_cons]
      apply and_congr_left
      intro _
      show start + prev.duration_frames ≤
        start + prev.duration_frames - clip.overlap_frames + clip.duration_frames - next.overlap_frames ↔
          clip.overlap_frames + next.overlap_frames ≤ clip.duration_frames
      omega

theorem Timeline.loose_iff (t : Timeline) : Spans.Loose t.spans ↔ t.clips.IsChain Fits := by
  obtain ⟨first, clips, heq, hzero, hchain, -, hspans⟩ := t.spans_eq
  rw [heq, hspans, loose_spansOf]
  cases clips with
  | nil => exact iff_of_true .nil (.singleton _)
  | cons clip clips =>
    rw [List.isChain_cons_cons]
    have hfits : Fits first clip := by
      have := (List.isChain_cons_cons.mp hchain).1.before
      show first.overlap_frames + clip.overlap_frames ≤ first.duration_frames
      omega
    exact (and_iff_right hfits).symm

/-! ## Consistency -/

/-- **A timeline that could be played.** -/
structure Consistent (t : Timeline) : Prop where
  from_zero : t.starts.head? = some 0
  increase : t.starts.Pairwise (· < ·)
  adds_up : t.total_frames = (t.clips.map (·.duration_frames)).sum - (t.clips.map (·.overlap_frames)).sum
  covers : ∀ p ∈ t.spans, p.2 ≤ t.total_frames
  attained : ∃ p ∈ t.spans, p.2 = t.total_frames
  apart : Spans.Apart t.spans
  two : ∀ frame, t.spans.countP (Spans.Holds frame ·) ≤ 2
  exact : ∀ fps rate, parse_rate fps = .ok rate → ∀ frames,
    (frames_to_seconds frames fps >>= fun seconds => seconds_to_frames seconds fps) = .ok frames

/-- **An accepted timeline is consistent** exactly where the dissolve into each clip is over when the one out of it
    begins. -/
theorem timeline_consistent_iff (t : Timeline) : Consistent t ↔ t.clips.IsChain Fits := by
  rw [← t.loose_iff]
  constructor
  · intro h
    exact (Spans.apart_iff t.staggered).mp h.apart
  · intro h
    obtain ⟨last, hlast, hend⟩ := t.getLast_spans
    constructor
    · obtain ⟨first, clips, -, -, -, hstarts, -⟩ := t.spans_eq
      rw [hstarts]
      rfl
    · rw [← t.map_fst_spans]
      exact List.pairwise_map.mpr t.staggered.begins
    · exact t.total_frames_eq
    · rw [← hend]
      exact t.staggered.ends_le hlast
    · exact ⟨last, List.mem_of_getLast? hlast, hend⟩
    · exact (Spans.apart_iff t.staggered).mpr h
    · exact (Spans.countP_holds_le_two_iff t.staggered).mpr h
    · intro fps rate hrate frames
      exact seconds_to_frames_frames_to_seconds hrate frames

/-- Three clips of ten frames, each dissolved into the next over nine. -/
def squeezedFields : TimelineFields where
  timeline_id := "teaser"
  kind := .master
  fps := "30"
  clips := [
    { clip_id := "a", shot_ref := "a", role := .hook, duration_frames := 10 },
    { clip_id := "b", shot_ref := "b", role := .message, duration_frames := 10, transition_in := .dissolve,
      overlap_frames := 9 },
    { clip_id := "c", shot_ref := "c", role := .cta, duration_frames := 10, transition_in := .dissolve,
      overlap_frames := 9 }]

theorem parse_rate_thirty : parse_rate "30" = .ok 30 := by
  have hparse : parseFraction "30".toList = some 30 := parseFraction_fractionText 30
  have hrate : isRate "30".toList = true := by decide
  unfold parse_rate
  rw [if_pos hrate, hparse]
  exact if_pos ⟨by decide, by decide⟩

def squeezed : Timeline where
  toTimelineFields := squeezedFields
  valid := by
    intro repr shown
    unfold TimelineFields.errors rateErrors
    rw [show squeezedFields.fps = "30" from rfl, parse_rate_thirty]
    rfl
  structured := by decide

/-- All three clips of it are on screen at its fifth frame. -/
theorem three_on_screen : ¬∀ t : Timeline, Consistent t := by
  intro h
  have htwo := (h squeezed).two 5
  exact absurd htwo (by decide)

end Timing
