import Mathlib.Tactic.Ring
import MissionControl.Encoding.Layout

/-! # The PNG codec

Pixels are measured without an image library: `decode` reads the 8-bit colour
types that browsers write and raises a `PngError` at everything else, which is
the one error its callers catch. Only zlib is outside; of it the codec uses that
it gives back what it compressed. A header chunk of another length, and a stream
zlib cannot read, escape the callers. -/

namespace Avic.Png

open Encoding (slice u32 bigEndian)

/-- What the codec uses of zlib. `decompress data max_length` is the output and the
    unconsumed tail, or what zlib raises. -/
class Zlib where
  error : Type
  compress : List UInt8 → List UInt8
  decompress : List UInt8 → ℕ → Except error (List UInt8 × List UInt8)
  crc32 : List UInt8 → ℕ

/-- Decompression gives back what was compressed, if there is room for more. -/
def Zlib.Inverts (z : Zlib) : Prop :=
  ∀ data max_length, data.length < max_length → z.decompress (z.compress data) max_length = .ok (data, [])

inductive Fault (ε : Type) where
  | PngError (message : String)
  /-- What `struct` raises at a wrong length or a number that is too large. -/
  | structError
  | zlibError (e : ε)
  deriving DecidableEq

/-! ## Chunks -/

def SIGNATURE : List UInt8 := [0x89, 0x50, 0x4E, 0x47, 0x0D, 0x0A, 0x1A, 0x0A]

def MAX_PIXELS : ℤ := 24000000

def _CHANNELS : List (ℕ × ℕ) := [(0, 1), (2, 3), (4, 2), (6, 4)]

def IHDR : List UInt8 := [0x49, 0x48, 0x44, 0x52]

def IDAT : List UInt8 := [0x49, 0x44, 0x41, 0x54]

def IEND : List UInt8 := [0x49, 0x45, 0x4E, 0x44]

structure Raster where
  width : ℕ
  height : ℕ
  rgba : List UInt8
  deriving DecidableEq

structure Header where
  width : ℕ
  height : ℕ
  depth : ℕ
  ctype : ℕ
  interlace : ℕ
  deriving DecidableEq

/-- `struct.unpack(">IIBBBBB", body)`. -/
def unpack_header (body : List UInt8) : Option Header :=
  if body.length = 13 then
    some {
      width := bigEndian (slice body 0 4)
      height := bigEndian (slice body 4 4)
      depth := (body.getD 8 0).toNat
      ctype := (body.getD 9 0).toNat
      interlace := (body.getD 12 0).toNat }
  else none

/-- What the loop over the chunks has gathered. -/
structure Gathered where
  idat : List (List UInt8) := []
  ihdr : Option Header := none

section decode

variable [z : Zlib]

/-- The loop over the chunks, from `pos` on. -/
def read_chunks (data : List UInt8) (pos : ℕ) (s : Gathered) : Except (Fault z.error) Gathered :=
  if pos + 8 ≤ data.length then
    let length := bigEndian (slice data pos 4)
    let ctype := slice data (pos + 4) 4
    let body := slice data (pos + 8) length
    if body.length ≠ length then .error (.PngError "truncated chunk")
    else if ctype = IHDR then
      match unpack_header body with
      | none => .error .structError
      | some header => read_chunks data (pos + (12 + length)) { s with ihdr := some header }
    else if ctype = IDAT then read_chunks data (pos + (12 + length)) { s with idat := s.idat ++ [body] }
    else if ctype = IEND then .ok s
    else read_chunks data (pos + (12 + length)) s
  else .ok s
termination_by data.length - pos

/-! ## Lines -/

/-- The entry of a line as a number. -/
def at' (line : List UInt8) (i : ℕ) : ℕ := (line.getD i 0).toNat

/-- The entry one pixel to the left, 0 outside. -/
def left (line : List UInt8) (ch i : ℕ) : ℕ := if ch ≤ i then at' line (i - ch) else 0

/-- Which of left, up and upper left is nearest to their linear estimate. -/
def paeth (a b c : ℕ) : ℕ :=
  let p : ℤ := a + b - c
  let pa := |p - a|
  let pb := |p - b|
  let pc := |p - c|
  if pa ≤ pb ∧ pa ≤ pc then a else if pb ≤ pc then b else c

/-- A filtered line is made plain in place, from the line above. -/
def unfilter (f : UInt8) (ch stride : ℕ) (prev line : List UInt8) : Except (Fault z.error) (List UInt8) :=
  if f = 1 then
    .ok ((List.range' ch (stride - ch)).foldl
      (fun line i => line.set i (UInt8.ofNat (at' line i + at' line (i - ch)))) line)
  else if f = 2 then
    .ok ((List.range stride).foldl (fun line i => line.set i (UInt8.ofNat (at' line i + at' prev i))) line)
  else if f = 3 then
    .ok ((List.range stride).foldl
      (fun line i => line.set i (UInt8.ofNat (at' line i + (left line ch i + at' prev i) / 2))) line)
  else if f = 4 then
    .ok ((List.range stride).foldl (fun line i => line.set i (UInt8.ofNat
      (at' line i + paeth (left line ch i) (at' prev i) (left prev ch i)))) line)
  else if f ≠ 0 then .error (.PngError s!"bad filter {f.toNat}")
  else .ok line

/-- The four bytes of a pixel of `ch` channels. -/
def rgba (ch : ℕ) (px : List UInt8) : List UInt8 :=
  if ch = 1 then [px.getD 0 0, px.getD 0 0, px.getD 0 0, 255]
  else if ch = 2 then [px.getD 0 0, px.getD 0 0, px.getD 0 0, px.getD 1 0]
  else if ch = 3 then [px.getD 0 0, px.getD 1 0, px.getD 2 0, 255]
  else [px.getD 0 0, px.getD 1 0, px.getD 2 0, px.getD 3 0]

/-- One round of the loop over the lines. What is written so far is appended to,
    where the source fills a buffer of the final size from its start. -/
def decode_line (raw : List UInt8) (width ch : ℕ) (s : List UInt8 × List UInt8) (y : ℕ) :
    Except (Fault z.error) (List UInt8 × List UInt8) := do
  let stride := width * ch
  let line ← unfilter (raw.getD (y * (stride + 1)) 0) ch stride s.2 (slice raw (y * (stride + 1) + 1) stride)
  return (s.1 ++ (List.range width).flatMap fun x => rgba ch (slice line (x * ch) ch), line)

/-- The stream of an image of `ch` channels. -/
def decode_stream (idat : List UInt8) (width height ch : ℕ) : Except (Fault z.error) Raster := do
  let stride := width * ch
  let expected := height * (stride + 1)
  match z.decompress idat (expected + 1) with
  | .error e => .error (.zlibError e)
  | .ok (raw, unconsumed_tail) =>
    if raw.length ≠ expected ∨ unconsumed_tail ≠ [] then
      .error (.PngError "image data size does not match the header")
    else do
      let (out, _) ← (List.range height).foldlM (decode_line raw width ch) ([], List.replicate stride 0)
      return ⟨width, height, out⟩

/-- The image under a header. -/
def decode_image (idat : List UInt8) (h : Header) (max_pixels : ℤ) : Except (Fault z.error) Raster :=
  match h.depth, _CHANNELS.lookup h.ctype, h.interlace with
  | 8, some ch, 0 =>
    if h.width = 0 ∨ h.height = 0 ∨ max_pixels < (h.width * h.height : ℕ) then
      .error (.PngError "PNG exceeds the pixel budget")
    else decode_stream idat h.width h.height ch
  | _, _, _ =>
    .error (.PngError s!"unsupported PNG (depth={h.depth}, colour type={h.ctype}, interlace={h.interlace})")

def decode (data : List UInt8) (max_pixels : ℤ) : Except (Fault z.error) Raster :=
  if slice data 0 8 ≠ SIGNATURE then .error (.PngError "not a PNG")
  else do
    let s ← read_chunks data 8 {}
    match s.ihdr with
    | none => .error (.PngError "missing IHDR")
    | some h => decode_image s.idat.flatten h max_pixels

/-! ## Encoding -/

/-- `struct.pack(">I", n)`. -/
def pack_u32 (n : ℕ) : Except (Fault z.error) (List UInt8) :=
  if n < 2 ^ 32 then .ok (u32 n) else .error .structError

def chunk (t body : List UInt8) : Except (Fault z.error) (List UInt8) := do
  let length ← pack_u32 body.length
  let crc ← pack_u32 (z.crc32 (t ++ body) % 2 ^ 32)
  return length ++ t ++ body ++ crc

/-- The lines of a raster, each after the code of no filter. -/
def Raster.lines (raster : Raster) : List UInt8 :=
  (List.range raster.height).flatMap fun y => 0 :: slice raster.rgba (y * raster.width * 4) (raster.width * 4)

def encode (raster : Raster) : Except (Fault z.error) (List UInt8) := do
  let rows := raster.lines
  let width ← pack_u32 raster.width
  let height ← pack_u32 raster.height
  let ihdr ← chunk IHDR (width ++ height ++ [8, 6, 0, 0, 0])
  let idat ← chunk IDAT (z.compress rows)
  let iend ← chunk IEND []
  return SIGNATURE ++ ihdr ++ idat ++ iend

end decode

/-! ## What decode raises -/

/-- A chunk in front of the end. -/
structure Chunk where
  ctype : List UInt8
  body : List UInt8

/-- The chunks from `pos` to the end chunk or the end of the data, and whether one is cut off there. -/
def chunks (data : List UInt8) (pos : ℕ) : List Chunk × Bool :=
  if pos + 8 ≤ data.length then
    let length := bigEndian (slice data pos 4)
    let ctype := slice data (pos + 4) 4
    let body := slice data (pos + 8) length
    if body.length ≠ length then ([], true)
    else if ctype = IEND then ([], false)
    else (⟨ctype, body⟩ :: (chunks data (pos + (12 + length))).1, (chunks data (pos + (12 + length))).2)
  else ([], false)
termination_by data.length - pos

/-- What a chunk adds to what is gathered. -/
def Gathered.add (s : Gathered) (c : Chunk) : Gathered :=
  if c.ctype = IHDR then { s with ihdr := unpack_header c.body }
  else if c.ctype = IDAT then { s with idat := s.idat ++ [c.body] }
  else s

/-- Every header chunk has the length of a header. -/
def Headed (l : List Chunk) : Prop := ∀ c ∈ l, c.ctype = IHDR → c.body.length = 13

/-- A header that the codec reads, with `ch` channels and within the budget. -/
structure Header.Fits (h : Header) (max_pixels : ℤ) (ch : ℕ) : Prop where
  depth : h.depth = 8
  channels : _CHANNELS.lookup h.ctype = some ch
  interlace : h.interlace = 0
  width : 0 < h.width
  height : 0 < h.height
  budget : ((h.width * h.height : ℕ) : ℤ) ≤ max_pixels

/-- The header chunks have their length, and zlib raises nothing at an image whose
    header fits. -/
structure Readable [z : Zlib] (data : List UInt8) (max_pixels : ℤ) : Prop where
  headed : Headed (chunks data 8).1
  inflates : (chunks data 8).2 = false → ∀ h ch, ((chunks data 8).1.foldl Gathered.add {}).ihdr = some h →
    h.Fits max_pixels ch → ∃ out, z.decompress ((chunks data 8).1.foldl Gathered.add {}).idat.flatten
      (h.height * (h.width * ch + 1) + 1) = .ok out

section raises

variable [z : Zlib]

omit z in
theorem unpack_header_isSome {body : List UInt8} (h : body.length = 13) : ∃ header, unpack_header body = some header := by
  unfold unpack_header
  rw [if_pos h]
  exact ⟨_, rfl⟩

variable {data : List UInt8}

/-- Where every header chunk has its length, the loop gathers all chunks unless one is cut off. -/
theorem read_chunks_headed {pos : ℕ} (s : Gathered) (h : Headed (chunks data pos).1) :
    read_chunks (z := z) data pos s = if (chunks data pos).2 then .error (.PngError "truncated chunk")
      else .ok ((chunks data pos).1.foldl Gathered.add s) := by
  fun_induction chunks data pos generalizing s with
  | case1 pos hpos length body hcut =>
    rw [read_chunks, if_pos hpos]
    exact if_pos hcut
  | case2 pos hpos length ctype body hwhole hend =>
    rw [read_chunks, if_pos hpos]
    show (if body.length ≠ length then _ else if ctype = IHDR then _ else if ctype = IDAT then _
      else if ctype = IEND then _ else _) = _
    rw [if_neg hwhole, if_neg (by rw [hend]; decide), if_neg (by rw [hend]; decide), if_pos hend]
    rfl
  | case3 pos hpos length ctype body hwhole hend ih =>
    have hrest : Headed (chunks data (pos + (12 + length))).1 := fun c hc => h c (List.mem_cons_of_mem _ hc)
    rw [read_chunks, if_pos hpos]
    show (if body.length ≠ length then _ else if ctype = IHDR then _ else _) = _
    rw [if_neg hwhole, List.foldl_cons]
    by_cases hihdr : ctype = IHDR
    · have hlen : body.length = 13 := h ⟨ctype, body⟩ List.mem_cons_self hihdr
      obtain ⟨header, hheader⟩ := unpack_header_isSome hlen
      have hadd : s.add ⟨ctype, body⟩ = { s with ihdr := some header } := by
        simp only [Gathered.add, hihdr, if_true, hheader]
      rw [if_pos hihdr, hheader, hadd]
      exact ih _ hrest
    · rw [if_neg hihdr]
      by_cases hidat : ctype = IDAT
      · have hadd : s.add ⟨ctype, body⟩ = { s with idat := s.idat ++ [body] } := by
          rw [Gathered.add, if_neg hihdr, if_pos hidat]
        rw [if_pos hidat, hadd]
        exact ih _ hrest
      · have hadd : s.add ⟨ctype, body⟩ = s := by
          rw [Gathered.add, if_neg hihdr, if_neg hidat]
        rw [if_neg hidat, if_neg hend, hadd]
        exact ih _ hrest
  | case4 pos hpos =>
    rw [read_chunks, if_neg hpos]
    rfl

/-- A header chunk of another length is what `struct` raises at, whatever else the file holds. -/
theorem read_chunks_not_headed {pos : ℕ} (s : Gathered) (h : ¬ Headed (chunks data pos).1) :
    read_chunks (z := z) data pos s = .error .structError := by
  fun_induction chunks data pos generalizing s with
  | case1 pos hpos length body hcut => exact (h (List.forall_mem_nil _)).elim
  | case2 pos hpos length ctype body hwhole hend => exact (h (List.forall_mem_nil _)).elim
  | case3 pos hpos length ctype body hwhole hend ih =>
    rw [read_chunks, if_pos hpos]
    show (if body.length ≠ length then _ else if ctype = IHDR then _ else _) = _
    rw [if_neg hwhole]
    by_cases hihdr : ctype = IHDR
    · rw [if_pos hihdr]
      cases hheader : unpack_header body with
      | none => rfl
      | some header =>
        refine ih _ fun hrest => h (List.forall_mem_cons.mpr ⟨fun _ => ?_, hrest⟩)
        by_contra hlen
        rw [unpack_header, if_neg hlen] at hheader
        cases hheader
    · have hrest : ¬ Headed (chunks data (pos + (12 + length))).1 := fun hrest =>
        h (List.forall_mem_cons.mpr ⟨fun hc => (hihdr hc).elim, hrest⟩)
      rw [if_neg hihdr, if_neg hend]
      split
      · exact ih _ hrest
      · exact ih _ hrest
  | case4 pos hpos => exact (h (List.forall_mem_nil _)).elim

/-- A raster with positive dimensions within the budget and four bytes a pixel. -/
structure Raster.Within (raster : Raster) (max_pixels : ℤ) : Prop where
  width : 0 < raster.width
  height : 0 < raster.height
  budget : ((raster.width * raster.height : ℕ) : ℤ) ≤ max_pixels
  rgba : raster.rgba.length = raster.width * raster.height * 4

/-- A `PngError`, or a raster within the budget. -/
def Closed (max_pixels : ℤ) (r : Except (Fault z.error) Raster) : Prop :=
  (∃ message, r = .error (.PngError message)) ∨ ∃ raster, r = .ok raster ∧ raster.Within max_pixels

omit z in
theorem length_rgba (ch : ℕ) (px : List UInt8) : (rgba ch px).length = 4 := by
  unfold rgba
  split_ifs <;> rfl

theorem unfilter_closed (f : UInt8) (ch stride : ℕ) (prev line : List UInt8) :
    (∃ message, unfilter (z := z) f ch stride prev line = .error (.PngError message)) ∨
      ∃ l, unfilter (z := z) f ch stride prev line = .ok l := by
  unfold unfilter
  split_ifs
  all_goals first | exact .inl ⟨_, rfl⟩ | exact .inr ⟨_, rfl⟩

/-- The lines of an image raise nothing but a bad filter, and each gives four bytes a pixel. -/
theorem decode_lines_closed (raw : List UInt8) (width ch : ℕ) (ys : List ℕ) (s : List UInt8 × List UInt8) :
    (∃ message, ys.foldlM (decode_line (z := z) raw width ch) s = .error (.PngError message)) ∨
      ∃ out, ys.foldlM (decode_line (z := z) raw width ch) s = .ok out ∧
        out.1.length = s.1.length + ys.length * (width * 4) := by
  induction ys generalizing s with
  | nil => exact .inr ⟨s, rfl, by simp⟩
  | cons y ys ih =>
    rw [List.foldlM_cons]
    rcases unfilter_closed (z := z) (raw.getD (y * (width * ch + 1)) 0) ch (width * ch) s.2
      (slice raw (y * (width * ch + 1) + 1) (width * ch)) with ⟨message, hline⟩ | ⟨line, hline⟩
    · refine .inl ⟨message, ?_⟩
      rw [decode_line, hline]
      rfl
    · have hround : decode_line (z := z) raw width ch s y =
          .ok (s.1 ++ (List.range width).flatMap fun x => rgba ch (slice line (x * ch) ch), line) := by
        rw [decode_line, hline]
        rfl
      rw [hround]
      rcases ih (s.1 ++ (List.range width).flatMap fun x => rgba ch (slice line (x * ch) ch), line) with
        ⟨message, hrest⟩ | ⟨out, hrest, hlen⟩
      · exact .inl ⟨message, hrest⟩
      · refine .inr ⟨out, hrest, ?_⟩
        rw [hlen, List.length_append, Encoding.length_flatMap_of_forall (fun x => length_rgba ch _),
          List.length_range, List.length_cons]
        ring

theorem decode_stream_closed {idat : List UInt8} {width height ch : ℕ} {max_pixels : ℤ} (hw : 0 < width)
    (hh : 0 < height) (hbudget : ((width * height : ℕ) : ℤ) ≤ max_pixels) :
    Closed max_pixels (decode_stream (z := z) idat width height ch) ↔
      ∃ out, z.decompress idat (height * (width * ch + 1) + 1) = .ok out := by
  unfold decode_stream
  dsimp only
  cases hout : z.decompress idat (height * (width * ch + 1) + 1) with
  | error e =>
    constructor
    · rintro (⟨message, h⟩ | ⟨raster, h, -⟩)
      · cases h
      · cases h
    · rintro ⟨out, h⟩
      cases h
  | ok out =>
    refine ⟨fun _ => ⟨out, rfl⟩, fun _ => ?_⟩
    dsimp only
    split
    · exact .inl ⟨_, rfl⟩
    · rcases decode_lines_closed (z := z) out.1 width ch (List.range height) ([], List.replicate (width * ch) 0) with
        ⟨message, hlines⟩ | ⟨lines, hlines, hlen⟩
      · rw [hlines]
        exact .inl ⟨message, rfl⟩
      · rw [hlines]
        refine .inr ⟨_, rfl, hw, hh, hbudget, ?_⟩
        show lines.1.length = _
        rw [hlen]
        simp only [List.length_nil, List.length_range]
        ring

theorem decode_image_closed (idat : List UInt8) (h : Header) (max_pixels : ℤ) :
    Closed max_pixels (decode_image (z := z) idat h max_pixels) ↔ ∀ ch, h.Fits max_pixels ch →
      ∃ out, z.decompress idat (h.height * (h.width * ch + 1) + 1) = .ok out := by
  unfold decode_image
  split
  · rename_i ch hdepth hch hinterlace
    split
    · rename_i hout
      refine ⟨fun _ ch' hfits => ?_, fun _ => .inl ⟨_, rfl⟩⟩
      have := hfits.width
      have := hfits.height
      have := hfits.budget
      omega
    · rename_i hin
      rw [decode_stream_closed (by omega) (by omega) (by omega)]
      refine ⟨fun hout ch' hfits => ?_, fun hall => hall ch ⟨hdepth, hch, hinterlace, by omega, by omega, by omega⟩⟩
      cases hch.symm.trans hfits.channels
      exact hout
  · rename_i hother
    exact ⟨fun _ ch hfits => (hother ch hfits.depth hfits.channels hfits.interlace).elim, fun _ => .inl ⟨_, rfl⟩⟩

/-- **What decode raises** is a `PngError` for exactly the files that are readable. -/
theorem decode_closed_iff (data : List UInt8) (max_pixels : ℤ) :
    Closed max_pixels (decode (z := z) data max_pixels) ↔
      (slice data 0 8 = SIGNATURE → Readable data max_pixels) := by
  unfold decode
  by_cases hsig : slice data 0 8 = SIGNATURE
  · rw [if_neg (not_not.mpr hsig)]
    refine Iff.trans ?_ (forall_prop_of_true hsig).symm
    by_cases hheaded : Headed (chunks data 8).1
    · rw [read_chunks_headed _ hheaded]
      cases hcut : (chunks data 8).2 with
      | true => exact ⟨fun _ => ⟨hheaded, fun h => by rw [hcut] at h; cases h⟩, fun _ => .inl ⟨_, rfl⟩⟩
      | false =>
        rw [if_neg (by decide)]
        show Closed max_pixels (match ((chunks data 8).1.foldl Gathered.add {}).ihdr with
          | none => _
          | some h => _) ↔ _
        cases hihdr : ((chunks data 8).1.foldl Gathered.add {}).ihdr with
        | none => exact ⟨fun _ => ⟨hheaded, fun _ h ch hh => by rw [hihdr] at hh; cases hh⟩, fun _ => .inl ⟨_, rfl⟩⟩
        | some header =>
          refine (decode_image_closed _ header max_pixels).trans ⟨fun h => ⟨hheaded, fun _ h' ch hh hfits => ?_⟩,
            fun h ch hfits => h.inflates hcut header ch hihdr hfits⟩
          cases hihdr.symm.trans hh
          exact h ch hfits
    · rw [read_chunks_not_headed _ hheaded]
      refine ⟨?_, fun h => (hheaded h.headed).elim⟩
      rintro (⟨message, h⟩ | ⟨raster, h, -⟩)
      · cases h
      · cases h
  · rw [if_pos hsig]
    exact ⟨fun _ h => (hsig h).elim, fun _ => .inl ⟨_, rfl⟩⟩

end raises

end Avic.Png
