import GoAttend.Lib.Numpy
import GoAttend.Lib.Rounding

/-! The face quality measures of the face service, `calculate_blur` and `assess_face_quality`,
computed exactly over the reals. The image is what `numpy.array` makes of the RGB image the
service downloads: rows of pixels of three channels. Integer constants are natural numbers cast to
the reals, as Python converts them. The blur level lies in `[0, 1]`; the quality
score does not: its pose penalty divides the summed angles by 180, and a yaw and pitch of 90
degrees with a roll of 180 make it 2, so the score reaches down to `-1/4`. -/

noncomputable section

namespace GoAttend.Face

open Lib.Numpy Lib.Rounding

/-- The bounding box InsightFace reports, `(x1, y1, x2, y2)`. -/
structure BBox where
  x1 : ℝ
  y1 : ℝ
  x2 : ℝ
  y2 : ℝ

/-- A face InsightFace detected: its box, its pose `(yaw, pitch, roll)` in degrees when it gives
one, and its detection score. -/
structure DetectedFace where
  bbox : BBox
  pose : Option (ℝ × ℝ × ℝ)
  detScore : ℝ

/-- A pixel of an RGB image: its red, green and blue values. -/
structure Pixel where
  r : ℝ
  g : ℝ
  b : ℝ

/-- An RGB image: rows of pixels. -/
abbrev Image := Grid Pixel

/-- `np.mean(img, axis=2)` at one pixel: the mean of its three channels. -/
def Pixel.mean (p : Pixel) : ℝ := (p.r + p.g + p.b) / (3 : ℕ)

/-- `FaceQuality`. -/
structure FaceQuality where
  score : ℝ
  blur : ℝ
  poseYaw : ℝ
  posePitch : ℝ
  poseRoll : ℝ
  faceSize : ℤ
  isFrontal : Bool

/-- `img_array[y1:y2, x1:x2]` with the corners of the box truncated by `int`. -/
def faceRegion (img : Image) (bbox : BBox) : Image :=
  img.slice (truncate bbox.y1) (truncate bbox.y2) (truncate bbox.x1) (truncate bbox.x2)

/-- `calculate_blur`: the blur level of the face region, `0` sharp and `1` blurred. `scipy` says
whether `from scipy import ndimage` succeeds; without SciPy the gradient fallback runs, and it
raises (`none`) on a region of one row or one column. -/
def calculateBlur (scipy : Bool) (img : Image) (bbox : BBox) : Option ℝ :=
  let region := faceRegion img bbox
  if region.size = 0 then some 1
  else
    -- `np.mean(face_region, axis=2).astype(np.uint8)`
    let gray := region.map fun p => (⌊p.mean⌋₊ : ℝ)
    if scipy then
      gray.laplace.var.map fun variance : ℝ => 1 - min (variance / (500 : ℕ)) 1
    else
      gray.gradient.bind fun g =>
        (Grid.mk g.1.rows g.1.cols fun i j => √(g.2.get i j ^ 2 + g.1.get i j ^ 2)).mean.map
          fun sharpness : ℝ => max 0 (1 - sharpness / (30 : ℕ))

/-- `assess_face_quality`; `none` where `calculate_blur` raises. -/
def assessFaceQuality (scipy : Bool) (face : DetectedFace) (img : Image) : Option FaceQuality :=
  let bbox := face.bbox
  let faceWidth := bbox.x2 - bbox.x1
  let faceHeight := bbox.y2 - bbox.y1
  let faceSize := truncate (faceWidth * faceHeight)
  let (poseYaw, posePitch, poseRoll) := face.pose.getD (0, 0, 0)
  (calculateBlur scipy img bbox).map fun blur =>
    let isFrontal := decide (|poseYaw| < (30 : ℕ) ∧ |posePitch| < (25 : ℕ) ∧ |poseRoll| < (20 : ℕ))
    let detScore := face.detScore
    let posePenalty := (|poseYaw| + |posePitch| + |poseRoll|) / (180 : ℕ)
    let blurPenalty := blur
    let sizeScore := min ((faceSize : ℝ) / ((200 : ℕ) * (200 : ℕ))) 1
    let qualityScore := detScore * 0.3 + (1 - posePenalty) * 0.25 + (1 - blurPenalty) * 0.25 +
      sizeScore * 0.2
    ⟨roundTo 3 qualityScore, roundTo 3 blur, roundTo 1 poseYaw, roundTo 1 posePitch,
      roundTo 1 poseRoll, faceSize, isFrontal⟩

/-! ## Ranges -/

/-- The faces the detector reports: a detection score in `[0, 1]`, yaw and pitch within 90
degrees, roll within 180, and a box of positive width and height. -/
structure InRange (face : DetectedFace) : Prop where
  det : 0 ≤ face.detScore ∧ face.detScore ≤ 1
  pose : ∀ p ∈ face.pose, |p.1| ≤ 90 ∧ |p.2.1| ≤ 90 ∧ |p.2.2| ≤ 180
  width : face.bbox.x1 < face.bbox.x2
  height : face.bbox.y1 < face.bbox.y2

/-- A face turned fully sideways, tilted fully back and upside down, detected with score 0 in a
box of less than one pixel (an empty region, which `calculate_blur` calls fully blurred): in any
image its quality score is `-1/4`. -/
theorem assessFaceQuality_negative_score (scipy : Bool) (img : Image) :
    (assessFaceQuality scipy ⟨⟨1 / 5, 1 / 5, 7 / 10, 7 / 10⟩, some (90, 90, 180), 0⟩ img).map
      FaceQuality.score = some (-1 / 4) := by
  have ht1 : truncate (1 / 5) = 0 := truncate_eq_zero (by norm_num) (by norm_num)
  have ht2 : truncate (7 / 10) = 0 := truncate_eq_zero (by norm_num) (by norm_num)
  have hblur : calculateBlur scipy img ⟨1 / 5, 1 / 5, 7 / 10, 7 / 10⟩ = some 1 := by
    unfold calculateBlur
    rw [if_pos]
    simp only [faceRegion, Grid.slice, Grid.size, ht1, ht2, Nat.sub_self, zero_mul]
  have hsize : truncate ((7 / 10 - 1 / 5) * (7 / 10 - 1 / 5)) = 0 :=
    truncate_eq_zero (by norm_num) (by norm_num)
  unfold assessFaceQuality
  simp only [Option.getD_some, hblur, Option.map_some, hsize]
  rw [roundTo_eq_self (n := -250) (by norm_num)]
  norm_num

end GoAttend.Face

end
