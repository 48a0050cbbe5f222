import MissionControl.Avic.Png

/-! # What the codec gives back

An image is filtered line by line, each byte replaced by its distance to an
estimate from the bytes left of it, above it and above left. The filters are
undone in place, from left to right and from top to bottom, so that each
estimate is made of bytes that are plain already. -/

namespace Avic.Png

open Encoding (slice u32 bigEndian)

/-! ## Images and filters -/

inductive Colour where
  | grey | rgb | greyAlpha | rgba
  deriving DecidableEq

def Colour.ctype : Colour → ℕ
  | grey => 0 | rgb => 2 | greyAlpha => 4 | rgba => 6

def Colour.channels : Colour → ℕ
  | grey => 1 | rgb => 3 | greyAlpha => 2 | rgba => 4

/-- A pixel as red, green, blue and opacity. -/
def Colour.shown : Colour → List UInt8 → List UInt8
  | grey, [v] => [v, v, v, 255]
  | rgb, [r, g, b] => [r, g, b, 255]
  | greyAlpha, [v, a] => [v, v, v, a]
  | rgba, px => px
  | _, _ => []

/-- An 8-bit image: rows of pixels, a pixel having a sample for each channel. -/
structure Image where
  colour : Colour
  width : ℕ
  rows : List (List (List UInt8))
  row_length : ∀ row ∈ rows, row.length = width
  pixel_length : ∀ row ∈ rows, ∀ px ∈ row, px.length = colour.channels

/-- The image as a raster. -/
def Image.raster (image : Image) : Raster where
  width := image.width
  height := image.rows.length
  rgba := image.rows.flatMap fun row => row.flatMap image.colour.shown

inductive Filter where
  | none | sub | up | average | paeth

def Filter.code : Filter → UInt8
  | none => 0 | sub => 1 | up => 2 | average => 3 | paeth => 4

/-- The estimate of a byte from the ones left, above and above left. -/
def Filter.estimate : Filter → ℕ → ℕ → ℕ → ℕ
  | none, _, _, _ => 0
  | sub, a, _, _ => a
  | up, _, b, _ => b
  | average, a, b, _ => (a + b) / 2
  | paeth, a, b, c => Png.paeth a b c

/-- A line, each byte less its estimate. -/
def Filter.line (f : Filter) (ch : ℕ) (prev line : List UInt8) : List UInt8 :=
  (List.range line.length).map fun i =>
    line.getD i 0 - UInt8.ofNat (f.estimate (left line ch i) (at' prev i) (left prev ch i))

/-- Lines below `prev`, each after the code of its filter. -/
def filtered (ch : ℕ) : List UInt8 → List (Filter × List UInt8) → List UInt8
  | _, [] => []
  | prev, (f, line) :: rest => f.code :: f.line ch prev line ++ filtered ch line rest

/-- The stream of an image whose rows go through the filters. -/
def Image.stream (image : Image) (filters : List Filter) : List UInt8 :=
  filtered image.colour.channels (List.replicate (image.width * image.colour.channels) 0)
    (filters.zip (image.rows.map List.flatten))

/-! ## Undoing a filter -/

section unfilter

variable {ch i : ℕ}

theorem left_congr {l l' : List UInt8} (hch : 0 < ch) (h : ∀ j < i, l[j]? = l'[j]?) :
    left l ch i = left l' ch i := by
  unfold left
  split
  · rw [at', at', List.getD_eq_getElem?_getD, List.getD_eq_getElem?_getD, h _ (by omega)]
  · rfl

theorem undo_estimate (x : UInt8) (p : ℕ) : UInt8.ofNat ((x - UInt8.ofNat p).toNat + p) = x := by
  rw [UInt8.ofNat_add, UInt8.ofNat_toNat, UInt8.sub_add_cancel]

@[simp] theorem Filter.length_line (f : Filter) (ch : ℕ) (prev line : List UInt8) :
    (f.line ch prev line).length = line.length := by
  simp [Filter.line]

variable {prev : List UInt8}

variable {f : Filter}

theorem Filter.getElem?_line {line : List UInt8} (h : i < line.length) :
    (f.line ch prev line)[i]? = some (line.getD i 0 -
      UInt8.ofNat (f.estimate (left line ch i) (at' prev i) (left prev ch i))) := by
  simp [Filter.line, h]

/-- A round of the loop that undoes a filter finds the plain byte, whichever way it
    writes the estimate. -/
theorem Filter.round {row cur : List UInt8} (hi : i < row.length) (hcur : cur[i]? = (f.line ch prev row)[i]?)
    {p : ℕ} (hp : p = f.estimate (left row ch i) (at' prev i) (left prev ch i)) :
    row[i]? = some (UInt8.ofNat (at' cur i + p)) := by
  have hat : at' cur i = (row.getD i 0 - UInt8.ofNat p).toNat := by
    rw [at', List.getD_eq_getElem?_getD, hcur, Filter.getElem?_line hi, hp]
    rfl
  rw [hat, undo_estimate, List.getD_eq_getElem?_getD, List.getElem?_eq_getElem hi]
  rfl

variable {stride : ℕ}

theorem length_filtered {lines : List (Filter × List UInt8)} (h : ∀ l ∈ lines, l.2.length = stride) :
    (filtered ch prev lines).length = lines.length * (stride + 1) := by
  induction lines generalizing prev with
  | nil => simp [filtered]
  | cons l lines ih =>
    simp only [filtered, List.length_append, List.length_cons, Filter.length_line, h l List.mem_cons_self,
      ih fun l hl => h l (List.mem_cons_of_mem _ hl)]
    ring

theorem Filter.none_line (ch : ℕ) (prev line : List UInt8) : Filter.none.line ch prev line = line := by
  apply List.ext_getElem?
  intro i
  by_cases hi : i < line.length
  · rw [Filter.getElem?_line hi]
    simp [Filter.estimate, hi]
  · rw [List.getElem?_eq_none (by rw [Filter.length_line]; omega), List.getElem?_eq_none (by omega)]

variable [z : Zlib]

/-- **Undoing a filter** gives the line back. -/
theorem unfilter_line (f : Filter) (hch : 0 < ch) (hstride : ch ≤ stride) {line : List UInt8}
    (hline : line.length = stride) (prev : List UInt8) :
    unfilter (z := z) f.code ch stride prev (f.line ch prev line) = .ok line := by
  subst hline
  have hlen : (f.line ch prev line).length = line.length := Filter.length_line ..
  have hall : List.range line.length = List.range' 0 (line.length - 0) := List.range_eq_range'
  cases f with
  | none => exact congrArg Except.ok (Filter.none_line ch prev line)
  | sub =>
    show Except.ok _ = _
    congr 1
    refine Encoding.foldl_set_range' hstride hlen rfl (fun j hj => ?_) fun i hfrom hi cur _ hbefore hcur =>
      Filter.round hi hcur ?_
    · -- the first pixel has nothing to its left
      have hleft : left line ch j = 0 := if_neg (by omega)
      rw [Filter.getElem?_line (by omega), Filter.estimate, hleft]
      simp [show j < line.length by omega]
    · show at' cur (i - ch) = left line ch i
      rw [← left_congr hch hbefore]
      exact (if_pos hfrom).symm
  | up =>
    show Except.ok _ = _
    congr 1
    rw [hall]
    exact Encoding.foldl_set_range' (Nat.zero_le _) hlen rfl (fun j hj => (Nat.not_lt_zero j hj).elim)
      fun i _ hi cur _ _ hcur => Filter.round hi hcur rfl
  | average =>
    show Except.ok _ = _
    congr 1
    rw [hall]
    refine Encoding.foldl_set_range' (Nat.zero_le _) hlen rfl (fun j hj => (Nat.not_lt_zero j hj).elim)
      fun i _ hi cur _ hbefore hcur => Filter.round hi hcur ?_
    rw [left_congr hch hbefore]
    rfl
  | paeth =>
    show Except.ok _ = _
    congr 1
    rw [hall]
    refine Encoding.foldl_set_range' (Nat.zero_le _) hlen rfl (fun j hj => (Nat.not_lt_zero j hj).elim)
      fun i _ hi cur _ hbefore hcur => Filter.round hi hcur ?_
    rw [left_congr hch hbefore]
    rfl

/-- The pixels of a line as the codec writes them. -/
def written (width ch : ℕ) (line : List UInt8) : List UInt8 :=
  (List.range width).flatMap fun x => rgba ch (slice line (x * ch) ch)

/-- Line by line, the loop writes the lines that were filtered. -/
theorem decode_lines_filtered {width : ℕ} (hch : 0 < ch) (hw : 0 < width) (lines : List (Filter × List UInt8))
    (h : ∀ l ∈ lines, l.2.length = width * ch) (front prev out : List UInt8) (y : ℕ)
    (hfront : front.length = y * (width * ch + 1)) : ∃ last, (List.range' y lines.length).foldlM
      (decode_line (z := z) (front ++ filtered ch prev lines) width ch) (out, prev) =
        .ok (out ++ lines.flatMap fun l => written width ch l.2, last) := by
  induction lines generalizing front prev out y with
  | nil => exact ⟨prev, by simp [pure, Except.pure]⟩
  | cons l lines ih =>
    obtain ⟨f, line⟩ := l
    have hline : line.length = width * ch := h (f, line) List.mem_cons_self
    have hraw : front ++ filtered ch prev ((f, line) :: lines) =
        (front ++ f.code :: f.line ch prev line) ++ filtered ch line lines := by
      simp [filtered]
    have hround : decode_line (z := z) (front ++ filtered ch prev ((f, line) :: lines)) width ch (out, prev) y =
        .ok (out ++ written width ch line, line) := by
      have hcode : (front ++ filtered ch prev ((f, line) :: lines)).getD (y * (width * ch + 1)) 0 = f.code := by
        rw [← hfront, List.getD_eq_getElem?_getD, List.getElem?_append_right (Nat.le_refl _), Nat.sub_self]
        rfl
      have hslice : slice (front ++ filtered ch prev ((f, line) :: lines)) (y * (width * ch + 1) + 1) (width * ch) =
          f.line ch prev line := by
        rw [← hfront, Encoding.slice_append_right]
        exact Encoding.slice_prefix (by rw [Filter.length_line, hline])
      rw [decode_line, hcode, hslice]
      show (unfilter f.code ch (width * ch) prev (f.line ch prev line)).bind _ = _
      rw [unfilter_line f hch (Nat.le_mul_of_pos_left ch hw) hline]
      rfl
    obtain ⟨last, hrest⟩ := ih (fun l hl => h l (List.mem_cons_of_mem _ hl)) (front ++ f.code :: f.line ch prev line)
      line (out ++ written width ch line) (y + 1) (by
        rw [List.length_append, List.length_cons, Filter.length_line, hfront, hline]
        ring)
    refine ⟨last, ?_⟩
    rw [List.length_cons, List.range'_succ, List.foldlM_cons, hround]
    rw [hraw]
    show (List.range' (y + 1) lines.length).foldlM _ _ = _
    rw [hrest, List.flatMap_cons, List.append_assoc]

end unfilter

/-! ## Files -/

section file

theorem rgba_shown {c : Colour} {px : List UInt8} (h : px.length = c.channels) :
    rgba c.channels px = c.shown px := by
  cases c with
  | grey => obtain ⟨v, rfl⟩ := List.length_eq_one_iff.mp h; rfl
  | rgb => obtain ⟨r, g, b, rfl⟩ := List.length_eq_three.mp h; rfl
  | greyAlpha => obtain ⟨v, a, rfl⟩ := List.length_eq_two.mp h; rfl
  | rgba =>
    match px, h with
    | [r, g, b, a], _ => rfl

theorem Colour.channels_pos (c : Colour) : 0 < c.channels := by cases c <;> decide

theorem Colour.lookup_ctype (c : Colour) : _CHANNELS.lookup c.ctype = some c.channels := by cases c <;> rfl

/-- The lines of an image are written as the image. -/
theorem Image.written_rows (image : Image) {row : List (List UInt8)} (h : row ∈ image.rows) :
    written image.width image.colour.channels row.flatten = row.flatMap image.colour.shown := by
  have hpx := image.pixel_length row h
  have hcells : (List.range row.length).map (fun x => slice row.flatten (x * image.colour.channels)
      image.colour.channels) = row := Encoding.map_slice_flatten hpx
  rw [written, ← image.row_length row h]
  calc (List.range row.length).flatMap (fun x => Png.rgba image.colour.channels
        (slice row.flatten (x * image.colour.channels) image.colour.channels))
      = ((List.range row.length).map fun x => slice row.flatten (x * image.colour.channels)
          image.colour.channels).flatMap (Png.rgba image.colour.channels) := by rw [List.flatMap_map]
    _ = row.flatMap (Png.rgba image.colour.channels) := by rw [hcells]
    _ = row.flatMap image.colour.shown := List.flatMap_congr fun px hmem => rgba_shown (hpx px hmem)

theorem Image.length_line (image : Image) {line : List UInt8} (h : line ∈ image.rows.map List.flatten) :
    line.length = image.width * image.colour.channels := by
  obtain ⟨row, hrow, rfl⟩ := List.mem_map.mp h
  have hcells : (row.flatMap id).length = row.length * image.colour.channels := by
    have hpx := image.pixel_length row hrow
    clear hrow h
    induction row with
    | nil => simp
    | cons px row ih =>
      rw [List.flatMap_cons, List.length_append, ih fun q hq => hpx q (List.mem_cons_of_mem _ hq), id,
        hpx px List.mem_cons_self, List.length_cons, Nat.succ_mul, Nat.add_comm]
  rw [← image.row_length row hrow, ← hcells, List.flatMap_id]

variable [z : Zlib]

/-- A chunk as it stands in a file. -/
def packed (t body : List UInt8) : List UInt8 := u32 body.length ++ t ++ body ++ u32 (z.crc32 (t ++ body) % 2 ^ 32)

/-- A file with the header of an image and its data split over `parts`. -/
def file (width height ctype : ℕ) (parts : List (List UInt8)) : List UInt8 :=
  SIGNATURE ++ (packed IHDR (u32 width ++ u32 height ++ [8, UInt8.ofNat ctype, 0, 0, 0]) ++
    (parts.flatMap (packed IDAT) ++ packed IEND []))

variable {t : List UInt8}

theorem length_packed (ht : t.length = 4) (body : List UInt8) : (packed t body).length = 12 + body.length := by
  simp only [packed, List.length_append, Encoding.length_u32, ht]
  omega

/-- What stands where a chunk does. -/
theorem packed_slices {body : List UInt8} (ht : t.length = 4) (hbody : body.length < 2 ^ 32)
    (front rest : List UInt8) : front.length + 8 ≤ (front ++ (packed t body ++ rest)).length ∧
      bigEndian (slice (front ++ (packed t body ++ rest)) front.length 4) = body.length ∧
      slice (front ++ (packed t body ++ rest)) (front.length + 4) 4 = t ∧
      slice (front ++ (packed t body ++ rest)) (front.length + 8) body.length = body := by
  have hslice : ∀ i n, slice (front ++ (packed t body ++ rest)) (front.length + i) n = slice (packed t body ++ rest) i n :=
    fun i n => Encoding.slice_append_right ..
  refine ⟨?_, ?_, ?_, ?_⟩
  · simp only [List.length_append, length_packed ht]
    omega
  · have hlength := hslice 0 4
    rw [Nat.add_zero] at hlength
    rw [hlength, packed, List.append_assoc, List.append_assoc, List.append_assoc,
      Encoding.slice_prefix (Encoding.length_u32 _), Encoding.bigEndian_u32 hbody]
  · rw [hslice, packed, List.append_assoc, List.append_assoc, List.append_assoc]
    exact (Encoding.slice_append_right (u32 body.length) _ 0 4).trans (Encoding.slice_prefix ht)
  · have hhead : (u32 body.length ++ t).length = 8 := by simp [ht]
    rw [hslice, packed, List.append_assoc, List.append_assoc, ← hhead]
    exact (Encoding.slice_append_right (u32 body.length ++ t) _ 0 body.length).trans (Encoding.slice_prefix rfl)

/-- A chunk in front of the end chunk is read, and the rest after it. -/
theorem chunks_packed {body : List UInt8} (ht : t.length = 4) (hbody : body.length < 2 ^ 32) (hend : t ≠ IEND)
    (front rest : List UInt8) : chunks (front ++ (packed t body ++ rest)) front.length =
      (⟨t, body⟩ :: (chunks ((front ++ packed t body) ++ rest) (front ++ packed t body).length).1,
        (chunks ((front ++ packed t body) ++ rest) (front ++ packed t body).length).2) := by
  obtain ⟨hroom, hlength, htype, hcontent⟩ := packed_slices ht hbody front rest
  have hnext : (front ++ packed t body).length = front.length + (12 + body.length) := by
    rw [List.length_append, length_packed ht]
  rw [chunks, if_pos hroom]
  dsimp only
  rw [hlength, htype, hcontent, if_neg (not_not.mpr rfl), if_neg hend, hnext, List.append_assoc]

theorem chunks_end (front : List UInt8) : chunks (front ++ packed IEND []) front.length = ([], false) := by
  obtain ⟨hroom, hlength, htype, hcontent⟩ := @packed_slices z IEND [] rfl (by decide) front []
  rw [List.append_nil] at hroom hlength htype hcontent
  rw [chunks, if_pos hroom]
  dsimp only
  rw [hlength, htype, hcontent, if_neg (not_not.mpr rfl), if_pos rfl]

variable {parts : List (List UInt8)}

theorem chunks_parts (h : ∀ p ∈ parts, p.length < 2 ^ 32) (front : List UInt8) :
    chunks (front ++ (parts.flatMap (packed IDAT) ++ packed IEND [])) front.length =
      (parts.map (⟨IDAT, ·⟩), false) := by
  induction parts generalizing front with
  | nil => exact chunks_end front
  | cons p parts ih =>
    rw [List.flatMap_cons, List.append_assoc, chunks_packed rfl (h p List.mem_cons_self) (by decide),
      ih fun q hq => h q (List.mem_cons_of_mem _ hq)]
    rfl

omit z in
theorem gathered_parts (parts : List (List UInt8)) (s : Gathered) :
    (parts.map (Chunk.mk IDAT)).foldl Gathered.add s = { s with idat := s.idat ++ parts } := by
  induction parts generalizing s with
  | nil => simp
  | cons p parts ih =>
    have hadd : s.add ⟨IDAT, p⟩ = { s with idat := s.idat ++ [p] } := by
      rw [Gathered.add, if_neg (show IDAT ≠ IHDR by decide), if_pos rfl]
    rw [List.map_cons, List.foldl_cons, hadd, ih]
    simp

variable {width height : ℕ}

omit z in
theorem length_header {ctype : UInt8} : (u32 width ++ u32 height ++ [8, ctype, 0, 0, 0]).length = 13 := rfl

omit z in
theorem unpack_packed (hw : width < 2 ^ 32) (hh : height < 2 ^ 32) {ctype : ℕ} (hc : ctype < 256) :
    unpack_header (u32 width ++ u32 height ++ [8, UInt8.ofNat ctype, 0, 0, 0]) =
      some ⟨width, height, 8, ctype, 0⟩ := by
  have hwidth : bigEndian (slice (u32 width ++ u32 height ++ [8, UInt8.ofNat ctype, 0, 0, 0]) 0 4) = width :=
    Encoding.bigEndian_u32 hw
  have hheight : bigEndian (slice (u32 width ++ u32 height ++ [8, UInt8.ofNat ctype, 0, 0, 0]) 4 4) = height :=
    Encoding.bigEndian_u32 hh
  have hctype : (UInt8.ofNat ctype).toNat = ctype := by
    rw [UInt8.toNat_ofNat', Nat.mod_eq_of_lt hc]
  rw [unpack_header, if_pos length_header, hwidth, hheight]
  show some (Header.mk width height _ (UInt8.ofNat ctype).toNat _) = _
  rw [hctype]
  rfl

/-- A file is read as the image data of its parts, under its header. -/
theorem decode_file {ctype : ℕ} (hw : width < 2 ^ 32) (hh : height < 2 ^ 32) (hc : ctype < 256)
    (hparts : ∀ p ∈ parts, p.length < 2 ^ 32) (max_pixels : ℤ) :
    decode (file width height ctype parts) max_pixels =
      decode_image parts.flatten ⟨width, height, 8, ctype, 0⟩ max_pixels := by
  have hchunks : chunks (file width height ctype parts) 8 =
      (⟨IHDR, u32 width ++ u32 height ++ [8, UInt8.ofNat ctype, 0, 0, 0]⟩ :: parts.map (⟨IDAT, ·⟩), false) := by
    show chunks (SIGNATURE ++ _) SIGNATURE.length = _
    rw [chunks_packed rfl (by rw [length_header]; decide) (by decide), chunks_parts hparts]
  have hheaded : Headed (chunks (file width height ctype parts) 8).1 := by
    rw [hchunks]
    refine List.forall_mem_cons.mpr ⟨fun _ => rfl, fun c hmem hihdr => ?_⟩
    obtain ⟨p, -, rfl⟩ := List.mem_map.mp hmem
    exact (show IDAT ≠ IHDR by decide) hihdr |>.elim
  have hgathered : (chunks (file width height ctype parts) 8).1.foldl Gathered.add {} =
      ⟨parts, some ⟨width, height, 8, ctype, 0⟩⟩ := by
    have hadd : Gathered.add {} ⟨IHDR, u32 width ++ u32 height ++ [8, UInt8.ofNat ctype, 0, 0, 0]⟩ =
        ⟨[], some ⟨width, height, 8, ctype, 0⟩⟩ := by
      rw [Gathered.add, if_pos rfl, unpack_packed hw hh hc]
    rw [hchunks, List.foldl_cons, hadd, gathered_parts]
    rfl
  have hsig : slice (file width height ctype parts) 0 8 = SIGNATURE := Encoding.slice_prefix rfl
  rw [decode, if_neg (not_not.mpr hsig), read_chunks_headed _ hheaded, hgathered, hchunks]
  rfl

variable {max_pixels : ℤ}

theorem decode_image_fits {h : Header} {ch : ℕ} (hfits : h.Fits max_pixels ch) (idat : List UInt8) :
    decode_image idat h max_pixels = decode_stream idat h.width h.height ch := by
  have hw := hfits.width
  have hh := hfits.height
  have hbudget := hfits.budget
  rw [decode_image, hfits.depth, hfits.channels, hfits.interlace]
  exact if_neg (by omega)

/-- **Decoding an image** whose rows went through any filters, its stream split into
    any parts, gives the image. -/
theorem decode_image_file (hz : z.Inverts) (image : Image) {filters : List Filter}
    (hfilters : filters.length = image.rows.length) (hparts : parts.flatten = z.compress (image.stream filters))
    (hsizes : ∀ p ∈ parts, p.length < 2 ^ 32) (hw : 0 < image.width) (hw' : image.width < 2 ^ 32)
    (hh : 0 < image.rows.length) (hh' : image.rows.length < 2 ^ 32)
    (hbudget : ((image.width * image.rows.length : ℕ) : ℤ) ≤ max_pixels) :
    decode (file image.width image.rows.length image.colour.ctype parts) max_pixels = .ok image.raster := by
  have hlines : ∀ l ∈ filters.zip (image.rows.map List.flatten),
      l.2.length = image.width * image.colour.channels := fun l hl => image.length_line (List.of_mem_zip hl).2
  have hcount : (filters.zip (image.rows.map List.flatten)).length = image.rows.length := by
    rw [List.length_zip, List.length_map, hfilters, Nat.min_self]
  have hstream : (image.stream filters).length =
      image.rows.length * (image.width * image.colour.channels + 1) := by
    rw [Image.stream, length_filtered hlines, hcount]
  have hout : z.decompress parts.flatten (image.rows.length * (image.width * image.colour.channels + 1) + 1) =
      .ok (image.stream filters, []) := by
    rw [hparts]
    exact hz _ _ (by omega)
  have hfits : Header.Fits ⟨image.width, image.rows.length, 8, image.colour.ctype, 0⟩ max_pixels
      image.colour.channels := ⟨rfl, image.colour.lookup_ctype, rfl, hw, hh, hbudget⟩
  have hctype : image.colour.ctype < 256 := by cases image.colour <;> decide
  obtain ⟨last, hloop⟩ := decode_lines_filtered image.colour.channels_pos hw _ hlines []
    (List.replicate (image.width * image.colour.channels) 0) [] 0 (by simp)
  have hpixels : (filters.zip (image.rows.map List.flatten)).flatMap
      (fun l => written image.width image.colour.channels l.2) = image.raster.rgba := by
    calc (filters.zip (image.rows.map List.flatten)).flatMap
          (fun l => written image.width image.colour.channels l.2)
        = ((filters.zip (image.rows.map List.flatten)).map Prod.snd).flatMap
            (written image.width image.colour.channels) := by rw [List.flatMap_map]
      _ = (image.rows.map List.flatten).flatMap (written image.width image.colour.channels) := by
          rw [List.map_snd_zip (by rw [List.length_map, hfilters])]
      _ = image.rows.flatMap fun row => written image.width image.colour.channels row.flatten := by
          rw [List.flatMap_map]
      _ = image.raster.rgba := List.flatMap_congr fun row hrow => image.written_rows hrow
  rw [decode_file hw' hh' hctype hsizes, decode_image_fits hfits, decode_stream]
  dsimp only
  rw [hout]
  dsimp only
  rw [if_neg (by simp [hstream])]
  rw [hcount, List.nil_append, List.nil_append, ← List.range_eq_range', hpixels] at hloop
  show (Except.bind ((List.range image.rows.length).foldlM _ ([], List.replicate _ 0)) _ : Except _ Raster) = _
  rw [Image.stream, hloop]
  rfl

end file

/-! ## Rasters -/

section raster

/-- The dimensions and the compressed lines fit the four bytes they are counted in. -/
structure Raster.Packs [z : Zlib] (raster : Raster) : Prop where
  width : raster.width < 2 ^ 32
  height : raster.height < 2 ^ 32
  data : (z.compress raster.lines).length < 2 ^ 32

theorem Raster.length_row {raster : Raster} (h : raster.rgba.length = raster.width * raster.height * 4) {y : ℕ}
    (hy : y < raster.height) : (slice raster.rgba (y * (raster.width * 4)) (raster.width * 4)).length =
      raster.width * 4 := by
  have hall : raster.rgba.length = raster.height * (raster.width * 4) := by rw [h]; ring
  have hroom : (y + 1) * (raster.width * 4) ≤ raster.height * (raster.width * 4) := Nat.mul_le_mul_right _ hy
  rw [Encoding.length_slice, hall]
  rw [Nat.succ_mul] at hroom
  omega

/-- A raster as an image, row by row. -/
def Raster.image (raster : Raster) (h : raster.rgba.length = raster.width * raster.height * 4) : Image where
  colour := .rgba
  width := raster.width
  rows := (List.range raster.height).map fun y => (List.range raster.width).map fun x =>
    slice (slice raster.rgba (y * (raster.width * 4)) (raster.width * 4)) (x * 4) 4
  row_length := by
    intro row hrow
    obtain ⟨y, -, rfl⟩ := List.mem_map.mp hrow
    simp
  pixel_length := by
    intro row hrow px hpx
    obtain ⟨y, hy, rfl⟩ := List.mem_map.mp hrow
    obtain ⟨x, hx, rfl⟩ := List.mem_map.mp hpx
    rw [Encoding.length_slice, Raster.length_row h (List.mem_range.mp hy)]
    have := List.mem_range.mp hx
    show min 4 _ = 4
    omega

variable {raster : Raster} (h : raster.rgba.length = raster.width * raster.height * 4)
include h

theorem Raster.image_lines : (raster.image h).rows.map List.flatten =
    (List.range raster.height).map fun y => slice raster.rgba (y * (raster.width * 4)) (raster.width * 4) := by
  rw [Raster.image, List.map_map]
  apply List.map_congr_left
  intro y hy
  exact Encoding.flatten_slices raster.width (Raster.length_row h (List.mem_range.mp hy))

theorem Raster.length_image : (raster.image h).rows.length = raster.height := by
  simp [Raster.image]

theorem Raster.raster_image : (raster.image h).raster = raster := by
  have hall : raster.rgba.length = raster.height * (raster.width * 4) := by rw [h]; ring
  have hrgba : (raster.image h).rows.flatMap (fun row => row.flatMap Colour.rgba.shown) = raster.rgba := by
    calc (raster.image h).rows.flatMap (fun row => row.flatMap Colour.rgba.shown)
        = ((raster.image h).rows.map List.flatten).flatten := by
          rw [List.flatMap_def]
          refine congrArg List.flatten (List.map_congr_left fun row _ => ?_)
          show row.flatMap id = row.flatten
          exact List.flatMap_id
      _ = raster.rgba := by rw [Raster.image_lines, Encoding.flatten_slices raster.height hall]
  have hrows := Raster.length_image h
  cases raster
  simp only [Image.raster, hrows]
  exact congrArg (Raster.mk _ _) hrgba

omit h in
theorem filtered_none (ch : ℕ) (prev : List UInt8) (lines : List (List UInt8)) :
    filtered ch prev ((List.replicate lines.length Filter.none).zip lines) = lines.flatMap (0 :: ·) := by
  induction lines generalizing prev with
  | nil => rfl
  | cons line lines ih =>
    rw [List.length_cons, List.replicate_succ, List.zip_cons_cons, filtered, ih, Filter.none_line]
    rfl

theorem Raster.stream_image :
    (raster.image h).stream (List.replicate (raster.image h).rows.length Filter.none) = raster.lines := by
  have hlength : (raster.image h).rows.length = ((raster.image h).rows.map List.flatten).length := by
    rw [List.length_map]
  rw [Image.stream, hlength, filtered_none, Raster.image_lines, List.flatMap_map, Raster.lines]
  simp only [Nat.mul_assoc]

omit h
variable [z : Zlib]

variable {body : List UInt8}

theorem chunk_packed (t : List UInt8) (h : body.length < 2 ^ 32) : chunk t body = .ok (packed t body) := by
  have hcrc : z.crc32 (t ++ body) % 2 ^ 32 < 2 ^ 32 := Nat.mod_lt _ (by decide)
  simp only [chunk, pack_u32, if_pos h, if_pos hcrc]
  rfl

theorem chunk_raises (t : List UInt8) (h : ¬ body.length < 2 ^ 32) :
    chunk (z := z) t body = .error .structError := by
  rw [chunk, pack_u32, if_neg h]
  rfl

theorem encode_packs (h : raster.Packs) :
    encode raster = .ok (file raster.width raster.height 6 [z.compress raster.lines]) := by
  have hheader : chunk IHDR (u32 raster.width ++ u32 raster.height ++ [8, 6, 0, 0, 0]) = .ok (packed (z := z) _ _) :=
    chunk_packed _ (by rw [length_header]; decide)
  have hdata := chunk_packed (z := z) IDAT h.data
  have hend : chunk IEND [] = .ok (packed (z := z) IEND []) := chunk_packed _ (by decide)
  simp only [encode, pack_u32, if_pos h.width, if_pos h.height]
  show (chunk IHDR (u32 raster.width ++ u32 raster.height ++ [8, 6, 0, 0, 0])).bind _ = _
  rw [hheader]
  show (chunk IDAT (z.compress raster.lines)).bind _ = _
  rw [hdata]
  show (chunk IEND []).bind _ = _
  rw [hend]
  show Except.ok _ = Except.ok _
  simp [file]

theorem encode_raises (h : ¬ raster.Packs) : encode (z := z) raster = .error .structError := by
  by_cases hw : raster.width < 2 ^ 32
  · by_cases hh : raster.height < 2 ^ 32
    · have hheader : chunk IHDR (u32 raster.width ++ u32 raster.height ++ [8, 6, 0, 0, 0]) =
          .ok (packed (z := z) _ _) := chunk_packed _ (by rw [length_header]; decide)
      simp only [encode, pack_u32, if_pos hw, if_pos hh]
      show (chunk IHDR (u32 raster.width ++ u32 raster.height ++ [8, 6, 0, 0, 0])).bind _ = _
      rw [hheader]
      show (chunk IDAT (z.compress raster.lines)).bind _ = _
      rw [chunk_raises _ fun hdata => h ⟨hw, hh, hdata⟩]
      rfl
    · simp only [encode, pack_u32, if_pos hw, if_neg hh]
      rfl
  · simp only [encode, pack_u32, if_neg hw]
    rfl

/-- A raster within the budget comes back from its file if it can be packed, and
    else makes no file. -/
theorem decode_encode_iff (hz : z.Inverts) {max_pixels : ℤ} (hr : raster.Within max_pixels) :
    (∃ data, encode raster = .ok data ∧ decode data max_pixels = .ok raster) ↔ raster.Packs := by
  constructor
  · rintro ⟨data, hdata, -⟩
    by_contra hpacks
    rw [encode_raises hpacks] at hdata
    cases hdata
  · intro hpacks
    refine ⟨_, encode_packs hpacks, ?_⟩
    have hrows := Raster.length_image hr.rgba
    have hdata : [z.compress raster.lines].flatten = z.compress ((raster.image hr.rgba).stream
        (List.replicate (raster.image hr.rgba).rows.length Filter.none)) := by
      rw [Raster.stream_image]
      simp
    have hbudget : (((raster.image hr.rgba).width * (raster.image hr.rgba).rows.length : ℕ) : ℤ) ≤ max_pixels := by
      rw [hrows]
      exact hr.budget
    have hfile := decode_image_file hz (raster.image hr.rgba) (List.length_replicate ..) hdata
      (List.forall_mem_singleton.mpr hpacks.data) hr.width hpacks.width (hrows ▸ hr.height) (hrows ▸ hpacks.height)
      hbudget
    rw [Raster.raster_image, hrows] at hfile
    exact hfile

end raster

/-! ## The codec -/

/-- **The codec**: `decode` raises a `PngError` or returns a raster within the budget
    for exactly the files that are readable; a raster within the budget comes back
    from its file exactly if it can be packed; and an image comes back whatever
    filters its rows went through and however its stream is split. -/
theorem codec_correct_iff [z : Zlib] (hz : z.Inverts) :
    (∀ data max_pixels, Closed max_pixels (decode data max_pixels) ↔
      (slice data 0 8 = SIGNATURE → Readable data max_pixels)) ∧
    (∀ (raster : Raster) max_pixels, raster.Within max_pixels →
      ((∃ data, encode raster = .ok data ∧ decode data max_pixels = .ok raster) ↔ raster.Packs)) ∧
    ∀ (image : Image) (filters : List Filter) (parts : List (List UInt8)) (max_pixels : ℤ),
      filters.length = image.rows.length → parts.flatten = z.compress (image.stream filters) →
      (∀ p ∈ parts, p.length < 2 ^ 32) → 0 < image.width → image.width < 2 ^ 32 → 0 < image.rows.length →
      image.rows.length < 2 ^ 32 → ((image.width * image.rows.length : ℕ) : ℤ) ≤ max_pixels →
        decode (file image.width image.rows.length image.colour.ctype parts) max_pixels = .ok image.raster := by
  refine ⟨decode_closed_iff, fun raster max_pixels hr => decode_encode_iff hz hr, ?_⟩
  intro image filters parts max_pixels hfilters hparts hsizes hw hw' hh hh' hbudget
  exact decode_image_file hz image hfilters hparts hsizes hw hw' hh hh' hbudget

/-! ## A red pixel -/

/-- The lines of one red pixel, and the stream zlib makes of them. -/
def redLines : List UInt8 := [0, 255, 0, 0, 255]

def redStream : List UInt8 := [120, 218, 99, 248, 207, 192, 240, 31, 0, 5, 0, 1, 255]

/-- One bit of a cyclic redundancy check. -/
def crcShift (c : ℕ) : ℕ := if c % 2 = 1 then (c / 2) ^^^ 0xEDB88320 else c / 2

/-- A zlib that compresses the red pixel, and stores everything else behind a zero. -/
@[reducible] def redZlib : Zlib where
  error := Unit
  compress data := if data = redLines then redStream else 0 :: data
  decompress
    | 0 :: data, max_length => .ok (data.take max_length, data.drop max_length)
    | data, max_length =>
      if data = redStream then .ok (redLines.take max_length, redLines.drop max_length) else .error ()
  crc32 data := (data.foldl (fun c b => crcShift^[8] (c ^^^ b.toNat)) 0xFFFFFFFF) ^^^ 0xFFFFFFFF

theorem redZlib_inverts : redZlib.Inverts := by
  intro data max_length hroom
  show redZlib.decompress (if data = redLines then redStream else 0 :: data) max_length = _
  split
  · rename_i hred
    subst hred
    show Except.ok (redLines.take max_length, redLines.drop max_length) = _
    rw [List.take_of_length_le hroom.le, List.drop_of_length_le hroom.le]
  · show Except.ok (data.take max_length, data.drop max_length) = _
    rw [List.take_of_length_le hroom.le, List.drop_of_length_le hroom.le]

theorem codec_correct_iff_red : ∃ data, encode (z := redZlib) ⟨1, 1, [255, 0, 0, 255]⟩ = .ok data ∧
    decode (z := redZlib) data MAX_PIXELS = .ok ⟨1, 1, [255, 0, 0, 255]⟩ :=
  ((codec_correct_iff (z := redZlib) redZlib_inverts).2.1 ⟨1, 1, [255, 0, 0, 255]⟩ MAX_PIXELS
    ⟨by decide, by decide, by decide, rfl⟩).mpr (@Raster.Packs.mk redZlib _ (by decide) (by decide) (by decide))

/-- A header chunk without a header. -/
def emptyHeader : List UInt8 := SIGNATURE ++ [0, 0, 0, 0] ++ IHDR

theorem decode_emptyHeader [z : Zlib] (max_pixels : ℤ) : decode emptyHeader max_pixels = .error .structError := by
  have hheaded : ¬ Headed (chunks emptyHeader 8).1 := by
    rw [chunks, if_pos (by decide)]
    dsimp only
    rw [if_neg (by decide), if_neg (by decide)]
    intro h
    exact absurd (h _ List.mem_cons_self (by decide)) (by decide)
  rw [decode, if_neg (by decide), read_chunks_not_headed _ hheaded]
  rfl

/-- What `struct` raises at an empty header chunk reaches the callers. -/
theorem empty_header_escapes : ¬ Closed (z := redZlib) MAX_PIXELS (decode (z := redZlib) emptyHeader MAX_PIXELS) := by
  rw [decode_emptyHeader (z := redZlib)]
  rintro (⟨message, h⟩ | ⟨raster, h, -⟩)
  · cases h
  · cases h

end Avic.Png
