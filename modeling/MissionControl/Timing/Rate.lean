import Mathlib.Algebra.Order.Field.Rat
import MissionControl.Python.Rational

/-! # Timebases

Time is held as integer frames on a rational timebase, so seconds and frames are converted exactly. A count of frames
survives the way to seconds and back (`seconds_to_frames_frames_to_seconds`). -/

namespace Timing

open Python (parseFraction parseFraction_fractionText fractionText split)

/-- Why a conversion is refused, with what its message shows. -/
inductive TimingError where
  | fps_format (text : String)
  | fps_range (text : String)
  | unparseable (seconds : String)
  | not_aligned (seconds fps : String) (frames : ℚ)
deriving DecidableEq

/-- The message, given how texts are quoted and how a fraction is shown with four decimals. -/
def TimingError.message (repr : String → String) (shown : ℚ → String) : TimingError → String
  | fps_format text => "fps must be an integer or num/den string, got " ++ repr text
  | fps_range text => "fps out of supported range 1..240: " ++ text
  | unparseable seconds => "unparseable seconds " ++ repr seconds
  | not_aligned seconds fps frames =>
    seconds ++ "s is not frame-aligned at " ++ fps ++ " fps (" ++ shown frames ++ " frames)"

/-- `[1-9][0-9]{0,5}` -/
def isRatePart : List Char → Bool
  | [] => false
  | c :: cs => '1' ≤ c && c ≤ '9' && cs.all Char.isDigit && cs.length ≤ 5

/-- `[1-9][0-9]{0,5}(/[1-9][0-9]{0,5})?` -/
def isRateText (text : List Char) : Bool :=
  match split '/' text with
  | [num] => isRatePart num
  | [num, den] => isRatePart num && isRatePart den
  | _ => false

/-- `_FPS.match(text)`. The `$` also matches before a newline that ends the text. -/
def isRate (text : List Char) : Bool :=
  isRateText text || (text.getLast? == some '\n' && isRateText text.dropLast)

def parse_rate (text : String) : Except TimingError ℚ :=
  if isRate text.toList then
    match parseFraction text.toList with
    | some rate => if 1 ≤ rate ∧ rate ≤ 240 then .ok rate else .error (.fps_range text)
    -- a text of this form is one `Fraction` reads
    | none => .error (.fps_format text)
  else .error (.fps_format text)

def seconds_to_frames (seconds fps : String) : Except TimingError ℤ :=
  match parseFraction seconds.toList with
  | none => .error (.unparseable seconds)
  | some value => do
    let rate ← parse_rate fps
    let frames := value * rate
    if frames.den ≠ 1 then .error (.not_aligned seconds fps frames) else .ok frames.num

/-- Exact seconds as a reduced fraction. -/
def frames_to_seconds (frames : ℤ) (fps : String) : Except TimingError String := do
  let rate ← parse_rate fps
  .ok (String.ofList (fractionText (frames / rate)))

/-! ## A rate is a number -/

variable {cs text : List Char} {fps : String} {rate : ℚ}

/-! ## Seconds and frames -/

theorem one_le_of_parse_rate (h : parse_rate fps = .ok rate) : 1 ≤ rate := by
  unfold parse_rate at h
  split at h
  · split at h
    · split at h
      · rename_i hrange
        cases h
        exact hrange.1
      · cases h
    · cases h
  · cases h

/-- **Seconds and frames are converted without loss.** -/
theorem seconds_to_frames_frames_to_seconds (h : parse_rate fps = .ok rate) (frames : ℤ) :
    (frames_to_seconds frames fps >>= fun seconds => seconds_to_frames seconds fps) = .ok frames := by
  have hrate : rate ≠ 0 := by
    have := one_le_of_parse_rate h
    intro hzero
    rw [hzero] at this
    exact absurd this (by decide)
  have hback : (frames : ℚ) / rate * rate = frames := div_mul_cancel₀ _ hrate
  have hseconds : frames_to_seconds frames fps = .ok (String.ofList (fractionText (frames / rate))) := by
    unfold frames_to_seconds
    rw [h]
    rfl
  rw [hseconds]
  show seconds_to_frames (String.ofList (fractionText (frames / rate))) fps = .ok frames
  unfold seconds_to_frames
  rw [String.toList_ofList, parseFraction_fractionText]
  show (parse_rate fps >>= fun rate' => _) = _
  rw [h]
  show (if (frames / rate * rate : ℚ).den ≠ 1 then _ else _) = _
  rw [hback, if_neg (by simp)]
  simp

end Timing
