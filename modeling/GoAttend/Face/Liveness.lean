import GoAttend.Face.Quality
import GoAttend.Lib.Dft

/-! `check_liveness` of the face service, computed exactly over the reals with the transform taken
as the exact DFT. Each check is a float, `none` where it is NaN. The screen check reads the
low-frequency band as the mean magnitude of a 20 × 20 window around the centre of the shifted
spectrum and the high-frequency part as the overall mean minus that; the window holds the zero
frequency, so for most faces the "high-frequency" part is negative and the score rises above 1,
up to `3/2`. The texture check averages differences along each axis, which a region of one row or
one column does not have: `numpy.mean` of no differences is NaN. -/

noncomputable section

namespace GoAttend.Face

open Lib.Numpy Lib.Dft Lib.Rounding

/-- `checks`: the five scores, each a float that may be NaN. -/
structure Checks where
  screenPattern : Option ℝ
  colorDistribution : Option ℝ
  faceProportion : Option ℝ
  detectionConfidence : Option ℝ
  textureComplexity : Option ℝ

/-- What `check_liveness` returns: whether the face is live, the confidence, and the checks or
the error it reports instead. -/
structure Liveness where
  isLive : Bool
  confidence : Option ℝ
  checks : Except String Checks

/-- `sum(checks.get(k, 0.5) * w for k, w in weights.items())`: NaN as soon as one check is. -/
def Checks.confidence (c : Checks) : Option ℝ :=
  c.screenPattern.bind fun s => c.colorDistribution.bind fun col => c.faceProportion.bind fun p =>
    c.detectionConfidence.bind fun d => c.textureComplexity.map fun t =>
      s * 0.25 + col * 0.2 + p * 0.1 + d * 0.25 + t * 0.2

/-- The screen check on the magnitudes of the shifted spectrum. -/
def screenScore (magnitude : Grid ℝ) : Option ℝ :=
  let centerH : ℤ := (magnitude.rows / 2 : ℕ)
  let centerW : ℤ := (magnitude.cols / 2 : ℕ)
  (magnitude.slice (centerH - 10) (centerH + 10) (centerW - 10) (centerW + 10)).mean.bind
    fun lowFreq : ℝ => magnitude.mean.map fun m : ℝ =>
      let highFreq := m - lowFreq
      let freqRatio := highFreq / (lowFreq + 1e-6)
      1 - min (freqRatio / (2 : ℕ)) 1

/-- The colour check: warm means and varied channels. -/
def colorScore (region : Image) : Option ℝ :=
  (region.map Pixel.r).mean.bind fun rMean => (region.map Pixel.g).mean.bind fun gMean =>
    (region.map Pixel.b).mean.bind fun bMean => (region.map Pixel.r).std.bind fun rStd : ℝ =>
      (region.map Pixel.g).std.bind fun gStd : ℝ => (region.map Pixel.b).std.map fun bStd : ℝ =>
        let colorNatural : ℝ := if rMean > gMean ∧ gMean > bMean then 1 else 0.6
        let colorVariance := min ((rStd + gStd + bStd) / (150 : ℕ)) 1
        colorNatural * 0.5 + colorVariance * 0.5

/-- The proportion check on the truncated box. -/
def proportionScore (faceWidth faceHeight : ℤ) : ℝ :=
  let aspectRatio : ℝ := faceWidth / (faceHeight + 1e-6)
  if 0.6 < aspectRatio ∧ aspectRatio < 0.9 then 1 else 0.5

/-- The texture check: mean absolute differences down the rows and along the columns. -/
def textureScore (grayFace : Grid ℝ) : Option ℝ :=
  (grayFace.diffRows.map abs).mean.bind fun down : ℝ => (grayFace.diffCols.map abs).mean.map
    fun across : ℝ => min ((down + across) / (25 : ℕ)) 1

/-- `check_liveness`. -/
def checkLiveness (face : DetectedFace) (img : Image) : Liveness :=
  let x1 := truncate face.bbox.x1
  let y1 := truncate face.bbox.y1
  let x2 := truncate face.bbox.x2
  let y2 := truncate face.bbox.y2
  let faceRegion := img.slice (max 0 y1) (min img.rows y2) (max 0 x1) (min img.cols x2)
  if faceRegion.size = 0 then ⟨false, some 0, .error "Invalid face region"⟩
  else
    let gray := faceRegion.map Pixel.mean
    let magnitude := (fftshift (fft2 gray)).map fun z => ‖z‖
    let checks : Checks :=
      ⟨(screenScore magnitude).map (roundTo 3), (colorScore faceRegion).map (roundTo 3),
        some (roundTo 3 (proportionScore (x2 - x1) (y2 - y1))), some (roundTo 3 face.detScore),
        (textureScore gray).map (roundTo 3)⟩
    let confidence := checks.confidence
    ⟨confidence.any (· > 0.55), confidence.map (roundTo 3), .ok checks⟩

/-! ## Ranges of the checks -/

/-- The texture score is NaN exactly when the region has a single row or a single column. -/
theorem textureScore_eq_none_iff {gray : Grid ℝ} (hr : gray.rows ≠ 0) (hc : gray.cols ≠ 0) :
    textureScore gray = none ↔ gray.rows = 1 ∨ gray.cols = 1 := by
  have hdown : (gray.diffRows.map abs).size = (gray.rows - 1) * gray.cols := rfl
  have hacross : (gray.diffCols.map abs).size = gray.rows * (gray.cols - 1) := rfl
  constructor
  · intro h
    by_contra hne
    simp only [not_or] at hne
    rw [textureScore, Grid.mean_eq_some (by rw [hdown]; exact Nat.mul_ne_zero (by omega) hc),
      Option.bind_some, Grid.mean_eq_some (by rw [hacross]; exact Nat.mul_ne_zero hr (by omega)),
      Option.map_some] at h
    cases h
  · rintro (h1 | h1)
    · rw [textureScore, Grid.mean_eq_none (by rw [hdown, h1]; simp)]
      rfl
    · have hnone : (gray.diffCols.map abs).mean = none := Grid.mean_eq_none (by rw [hacross, h1]; simp)
      simp [textureScore, hnone]

/-- The ranges the checks keep, each where it is a number. -/
structure Checks.InRange (c : Checks) : Prop where
  screen : ∀ s ∈ c.screenPattern, 0 ≤ s ∧ s ≤ 3 / 2
  color : ∀ x ∈ c.colorDistribution, 3 / 10 ≤ x ∧ x ≤ 1
  proportion : ∀ p ∈ c.faceProportion, 1 / 2 ≤ p ∧ p ≤ 1
  detection : ∀ d ∈ c.detectionConfidence, 0 ≤ d ∧ d ≤ 1
  texture : ∀ t ∈ c.textureComplexity, 0 ≤ t ∧ t ≤ 1

/-- The magnitudes of the shifted spectrum of a flat grey `21 × 21` array: all the weight, `441`,
at the centre. -/
theorem get_flatMagnitude {i j : ℕ} (hi : i < 21) (hj : j < 21) :
    ((fftshift (fft2 ⟨21, 21, fun _ _ => 1⟩)).map fun z => ‖z‖).get i j =
      if i = 10 ∧ j = 10 then 441 else 0 := by
  rw [Grid.get_map, norm_fftshift_fft2_const (by norm_num) (by norm_num) 1 hi hj]
  norm_num

/-- The screen score of a flat grey `21 × 21` array: the window mean `441/400` exceeds the overall
mean `1`, so the "high-frequency" part is negative and the score exceeds one. -/
theorem screenScore_flat :
    screenScore ((fftshift (fft2 ⟨21, 21, fun _ _ => 1⟩)).map fun z => ‖z‖) =
      some (1 - min ((1 - 441 / 400) / (441 / 400 + 1e-6) / 2) 1) := by
  set magnitude := (fftshift (fft2 ⟨21, 21, fun _ _ => (1 : ℝ)⟩)).map fun z => ‖z‖
  have hrows : magnitude.rows = 21 := rfl
  have hcols : magnitude.cols = 21 := rfl
  have hmean : magnitude.mean = some 1 := by
    rw [Grid.mean_eq_some (by decide), Grid.sum_eq_of_spike (a := 10) (b := 10) (v := 441)
      fun i hi j hj => get_flatMagnitude hi hj]
    norm_num [Grid.size, hrows, hcols]
  -- the window is `[0, 20) × [0, 20)`, which holds the centre
  have hlo : sliceIndex 21 0 = 0 := sliceIndex_zero 21
  have hhi : sliceIndex 21 20 = 20 := by decide
  have hc : ((21 / 2 : ℕ) : ℤ) = 10 := rfl
  have hlow : (magnitude.slice ((magnitude.rows / 2 : ℕ) - 10 : ℤ) ((magnitude.rows / 2 : ℕ) + 10 : ℤ)
      ((magnitude.cols / 2 : ℕ) - 10 : ℤ) ((magnitude.cols / 2 : ℕ) + 10 : ℤ)).mean =
        some (441 / 400) := by
    simp only [hrows, hcols, hc, sub_self, show (10 + 10 : ℤ) = 20 from rfl]
    have hsize : (magnitude.slice 0 20 0 20).size = 400 := by
      simp [Grid.size, hrows, hcols, hlo, hhi]
    rw [Grid.mean_eq_some (by rw [hsize]; decide),
      Grid.sum_eq_of_spike (a := 10) (b := 10) (v := 441), hsize]
    · simp [hrows, hcols, hlo, hhi]
    · intro i hi j hj
      simp only [Grid.rows_slice, Grid.cols_slice, hrows, hcols, hlo, hhi] at hi hj
      rw [Grid.get_slice, hrows, hcols, hlo, zero_add, zero_add]
      exact get_flatMagnitude (by omega) (by omega)
  simp only [screenScore, hlow, Option.bind_some, hmean, Option.map_some, Nat.cast_ofNat]

/-- A frontal face filling a flat grey `21 × 21` image: its screen check is `1.046`. -/
theorem checkLiveness_flat_screen :
    (checkLiveness ⟨⟨0, 0, 21, 21⟩, some (0, 0, 0), 1⟩ ⟨21, 21, fun _ _ => ⟨1, 1, 1⟩⟩).checks.map
      Checks.screenPattern = .ok (some (523 / 500)) := by
  -- the box covers the whole image, and its grey values are all one
  have hregion : (⟨21, 21, fun _ _ => ⟨1, 1, 1⟩⟩ : Image).slice (max 0 0) (min (21 : ℕ) 21) (max 0 0)
      (min (21 : ℕ) 21) = ⟨21, 21, fun _ _ => ⟨1, 1, 1⟩⟩ := rfl
  have hgray : (⟨21, 21, fun _ _ => ⟨1, 1, 1⟩⟩ : Image).map Pixel.mean = ⟨21, 21, fun _ _ => 1⟩ := by
    simp only [Grid.map, Pixel.mean]
    norm_num
  unfold checkLiveness
  simp only [truncate_zero, truncate_ofNat, hregion]
  rw [if_neg (by decide), hgray]
  simp only [screenScore_flat, Option.map_some, Except.map]
  -- `1 + (0.1025 / 1.102501) / 2 = 1.04648…`, which rounds to `1.046`
  rw [min_eq_left (by norm_num), roundTo_eq_of_abs_lt (n := 1046) (by rw [abs_lt]; norm_num)]
  norm_num

/-- A face box one row high: the texture check, and with it the confidence, is NaN, and the face
is not live. -/
theorem checkLiveness_one_row (img : Image) (hr : 1 ≤ img.rows) (hc : 1 ≤ img.cols) :
    (checkLiveness ⟨⟨0, 0, img.cols, 1⟩, some (0, 0, 0), 1⟩ img).confidence = none ∧
      (checkLiveness ⟨⟨0, 0, img.cols, 1⟩, some (0, 0, 0), 1⟩ img).isLive = false := by
  unfold checkLiveness
  simp only [truncate_zero, truncate_one, truncate_natCast, max_self, min_self]
  set region := img.slice 0 (min (img.rows : ℤ) 1) 0 img.cols
  have hrows : region.rows = 1 := by
    have : min (img.rows : ℤ) 1 = ((1 : ℕ) : ℤ) := by omega
    rw [Grid.rows_slice, this, sliceIndex_natCast, sliceIndex_zero]
    omega
  have hcols : region.cols = img.cols := by
    rw [Grid.cols_slice, sliceIndex_natCast, sliceIndex_zero]
    omega
  -- one row has no differences down it: the texture check is NaN
  have htexture : textureScore (region.map Pixel.mean) = none :=
    (textureScore_eq_none_iff (by simp [hrows]) (by simp [hcols]; omega)).mpr (.inl hrows)
  rw [if_neg (by simp [Grid.size, hrows, hcols]; omega), htexture]
  simp [Checks.confidence]

/-- Faces the detector may report, each with a score outside `[0, 1]`: the quality score of a face
turned away is `-1/4`, the screen check of a face filling a flat grey image is `1.046`, and the
confidence of a face one row high is NaN. -/
theorem face_scores_leave_unit_interval :
    (assessFaceQuality true ⟨⟨1 / 5, 1 / 5, 7 / 10, 7 / 10⟩, some (90, 90, 180), 0⟩
        ⟨21, 21, fun _ _ => ⟨1, 1, 1⟩⟩).map FaceQuality.score = some (-1 / 4) ∧
    (checkLiveness ⟨⟨0, 0, 21, 21⟩, some (0, 0, 0), 1⟩ ⟨21, 21, fun _ _ => ⟨1, 1, 1⟩⟩).checks.map
      Checks.screenPattern = .ok (some (523 / 500)) ∧
    (checkLiveness ⟨⟨0, 0, 21, 1⟩, some (0, 0, 0), 1⟩ ⟨21, 21, fun _ _ => ⟨1, 1, 1⟩⟩).confidence = none := by
  have hrow := checkLiveness_one_row ⟨21, 21, fun _ _ => ⟨1, 1, 1⟩⟩ (by decide) (by decide)
  norm_num at hrow
  exact ⟨assessFaceQuality_negative_score true _, checkLiveness_flat_screen, hrow.1⟩

end GoAttend.Face

end
