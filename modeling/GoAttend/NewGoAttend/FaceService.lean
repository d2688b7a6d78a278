import GoAttend.Lib.Rounding
import GoAttend.Lib.StableSort
import Mathlib.Data.Rat.Floor

/-! `newGoAttend/face-service/main.py`: faces are files `FACES_DIR/<student_id>.jpg`, and
recognition compares the probe with every `*.jpg` file of the directory and keeps the closest.
DeepFace is abstracted as two oracles: `extractFaces` (`DeepFace.extract_faces` with
`enforce_detection=True`: the number of faces, or the `ValueError` it raises) and
`verifyDistance` (the distance of `DeepFace.verify`, `none` when it raises). Distances are exact
rationals. -/

namespace GoAttend.NewGoAttend

open Lib.Rounding Lib.StableSort

variable {Photo : Type}

theorem nodup_filter_append (entries : List (String × Photo)) (hnd : (entries.map Prod.fst).Nodup)
    (name : String) (photo : Photo) :
    ((entries.filter fun e => e.1 != name) ++ [(name, photo)]).map Prod.fst |>.Nodup := by
  rw [List.map_append, List.nodup_append]
  refine ⟨(hnd.sublist (List.filter_sublist.map _)), List.nodup_singleton _, ?_⟩
  intro a ha b hb
  obtain ⟨e, he, rfl⟩ := List.mem_map.mp ha
  simp only [List.map_cons, List.map_nil, List.mem_singleton] at hb
  subst hb
  simpa using (List.mem_filter.mp he).2

/-- The files directly inside `FACES_DIR`, in the order the directory lists them; a name occurs
once. -/
structure Dir (Photo : Type) where
  entries : List (String × Photo)
  nodup : (entries.map Prod.fst).Nodup

/-- `FACES_DIR` as `mkdir(exist_ok=True)` leaves it on a first start. -/
def Dir.empty : Dir Photo := ⟨[], List.nodup_nil⟩

/-- The directory after `os.rename` to `name`: an entry of that name is replaced; a new entry is
listed last. -/
def Dir.put (d : Dir Photo) (name : String) (photo : Photo) : Dir Photo :=
  ⟨(d.entries.filter fun e => e.1 != name) ++ [(name, photo)],
    nodup_filter_append d.entries d.nodup name photo⟩

/-- The order in which `Path.glob` lists `FACES_DIR`, that of `os.scandir`: the file system's own,
some order of the files. -/
structure Listing (Photo : Type) where
  order : List (String × Photo) → List (String × Photo)
  perm_order : ∀ l, (order l).Perm l

/-- A name that `FACES_DIR / name` keeps directly inside the directory and that the file system
accepts as an entry: no `/`, no NUL, at most 255 bytes. -/
def PlainName (name : String) : Prop :=
  '/' ∉ name.toList ∧ '\x00' ∉ name.toList ∧ name.utf8ByteSize ≤ 255

instance : DecidablePred PlainName := fun _ => by
  unfold PlainName; infer_instance

/-- `str.rfind`: the index of the last occurrence of `c`. -/
def rfind (cs : List Char) (c : Char) : Option ℕ :=
  (cs.reverse.idxOf? c).map fun j => cs.length - 1 - j

/-- `PurePath.stem`: the name without its suffix, which starts at the last `.` unless that dot is
the first or the last character. -/
def stem (name : String) : String :=
  match rfind name.toList '.' with
  | some i => if 0 < i ∧ i < name.length - 1 then String.ofList (name.toList.take i) else name
  | none => name

/-- `glob("*.jpg")` on one name: the names ending in `.jpg`, hidden ones included. -/
def matchesJpg (name : String) : Bool := ".jpg".toList.isSuffixOf name.toList

/-- The `student_id` form field as FastAPI passes it on: `Form(...)` rejects an empty value. -/
structure RegisterForm where
  studentId : String
  nonempty : studentId ≠ ""

/-- What `/recognize` answers when it gets that far: `matched`, `student_id`, `distance`. -/
structure Recognition where
  matched : Bool
  studentId : Option String
  distance : Option ℚ
  deriving DecidableEq, Repr

section Service

variable (extractFaces : Photo → Except String ℕ) (verifyDistance : Photo → Photo → Option ℚ)
  (listing : Listing Photo)

/-- `FACES_DIR.glob("*.jpg")`: the files ending in `.jpg`, in the listing's order. -/
def globJpg (d : Dir Photo) : List (String × Photo) :=
  (listing.order d.entries).filter fun e => matchesJpg e.1

/-- `GET /health`'s `registered_faces`. -/
def registeredFaces (d : Dir Photo) : ℕ := (globJpg listing d).length

/-- `POST /register` as far as `FACES_DIR` shows it. A destination that is not a plain name
directly inside `FACES_DIR` leaves the directory through `/` (an absolute path or a
subdirectory); what `shutil.move` does there depends on the file system around the directory,
and `moveElsewhere` gives it (`none` when the move raises). -/
def registerFace (moveElsewhere : String → Photo → Dir Photo → Option (Dir Photo))
    (d : Dir Photo) (form : RegisterForm) (photo : Photo) : Except (ℕ × String) (Dir Photo × String) :=
  match extractFaces photo with
  | .error e => .error (400, "Face detection failed: " ++ e)
  | .ok 0 => .error (400, "No face detected")
  | .ok _ =>
    let name := form.studentId ++ ".jpg"
    if PlainName name then .ok (d.put name photo, form.studentId)
    else match moveElsewhere name photo d with
      | some d' => .ok (d', form.studentId)
      | none => .error (500, "Internal Server Error")

/-- One pass of the loop of `recognize_face`: a comparison that raises is skipped, and a strictly
smaller distance makes the photo's stem the best match. -/
def bestStep (probe : Photo) (best : Option (String × ℚ)) (e : String × Photo) :
    Option (String × ℚ) :=
  match verifyDistance probe e.2 with
  | none => best
  | some distance =>
    match best with
    | none => some (stem e.1, distance)
    | some (_, bestDistance) => if distance < bestDistance then some (stem e.1, distance) else best

/-- `POST /recognize`. -/
def recognizeFace (threshold : ℚ) (d : Dir Photo) (probe : Photo) :
    Except (ℕ × String) Recognition :=
  let registered := globJpg listing d
  if registered.isEmpty then .error (404, "No faces registered yet") else
    match extractFaces probe with
    | .error _ => .error (400, "No face detected in image")
    | .ok _ =>
      match registered.foldl (bestStep verifyDistance probe) none with
      | some (bestMatch, bestDistance) =>
        if bestMatch ≠ "" ∧ bestDistance ≤ threshold then
          .ok ⟨true, some bestMatch, some (roundTo 4 bestDistance)⟩
        else .ok ⟨false, none, some (roundTo 4 bestDistance)⟩
      | none => .ok ⟨false, none, none⟩

/-- The distances the loop of `recognize_face` obtains, with their files, in the order it
compares them. -/
def scored (probe : Photo) (registered : List (String × Photo)) : List ((String × Photo) × ℚ) :=
  registered.filterMap fun e => (verifyDistance probe e.2).map fun distance => (e, distance)

end Service

/-- A file with its distance as the loop records it: the file's stem. -/
def bestLabel (x : (String × Photo) × ℚ) : String × ℚ := (stem x.1.1, x.2)

/-- Distance, reversed: the first maximum of `closer` is the first file at the least distance. -/
def closer (x : (String × Photo) × ℚ) : ℚᵒᵈ := OrderDual.toDual x.2

/-! ## Names and the directory -/

theorem toList_jpg (sid : String) : (sid ++ ".jpg").toList = sid.toList ++ ['.', 'j', 'p', 'g'] := by
  simp

theorem jpg_inj {sid sid' : String} (h : sid ++ ".jpg" = sid' ++ ".jpg") : sid = sid' := by
  have h' := congrArg String.toList h
  rw [toList_jpg, toList_jpg] at h'
  exact String.toList_inj.mp (List.append_cancel_right h')

theorem rfind_jpg (sid : String) : rfind (sid ++ ".jpg").toList '.' = some sid.length := by
  rw [toList_jpg, rfind]
  simp only [List.idxOf?, List.reverse_append, Option.map_eq_some_iff]
  -- the last dot is the one of the extension, three characters from the end
  refine ⟨3, by simp [List.findIdx?_cons], ?_⟩
  simp only [List.length_append, List.length_cons, List.length_nil, String.length_toList]
  omega

/-- The stem of `<student_id>.jpg` is the student id, unless the id is empty. -/
theorem stem_jpg {sid : String} (h : sid ≠ "") : stem (sid ++ ".jpg") = sid := by
  have hpos : 0 < sid.length := by
    rw [← String.length_toList]
    exact List.length_pos_iff.mpr (by simpa using h)
  rw [stem, rfind_jpg]
  dsimp only
  have hlen : (sid ++ ".jpg").length = sid.length + 4 := by
    rw [← String.length_toList, ← String.length_toList, toList_jpg, List.length_append]
    rfl
  rw [if_pos ⟨hpos, by omega⟩, toList_jpg, ← String.length_toList,
    List.take_append_of_le_length le_rfl, List.take_length, String.ofList_toList]

theorem matchesJpg_jpg (sid : String) : matchesJpg (sid ++ ".jpg") = true := by
  rw [matchesJpg, List.isSuffixOf_iff_suffix, toList_jpg]
  exact List.suffix_append _ _

/-- Writing a file replaces the entry of its name and keeps every other one. -/
theorem Dir.mem_put {d : Dir Photo} {name n : String} {photo p : Photo} :
    (n, p) ∈ (d.put name photo).entries ↔ (n = name ∧ p = photo) ∨ (n ≠ name ∧ (n, p) ∈ d.entries) := by
  simp only [Dir.put, List.mem_append, List.mem_filter, List.mem_singleton, Prod.mk.injEq,
    bne_iff_ne, ne_eq]
  tauto

/-- The names of the files of `FACES_DIR`. -/
def Dir.names (d : Dir Photo) : List String := d.entries.map Prod.fst

/-- Writing a file adds its name and keeps every other. -/
theorem Dir.mem_names_put {d : Dir Photo} {name n : String} {photo : Photo} :
    n ∈ (d.put name photo).names ↔ n = name ∨ n ∈ d.names := by
  simp only [Dir.names, List.mem_map, Dir.mem_put, Prod.exists, exists_and_right, exists_eq_right]
  grind

/-! ## The loop of `recognize_face` finds the first closest file -/

section Loop

variable (verifyDistance : Photo → Photo → Option ℚ) (probe : Photo)

theorem bestStep_of_distance (acc : Option ((String × Photo) × ℚ)) {e : String × Photo} {dist : ℚ}
    (h : verifyDistance probe e.2 = some dist) :
    bestStep verifyDistance probe (acc.map bestLabel) e =
      (scanMax closer acc (e, dist)).map bestLabel := by
  cases acc with
  | none => simp [bestStep, h, scanMax, bestLabel]
  | some b =>
    -- a strictly smaller distance is a strictly larger `closer`
    have hlt : closer b < closer (e, dist) ↔ dist < b.2 := OrderDual.toDual_lt_toDual
    by_cases hd : dist < b.2
    · simp [bestStep, h, scanMax, bestLabel, hd, hlt.mpr hd]
    · simp [bestStep, h, scanMax, bestLabel, hd, mt hlt.mp hd]

/-- The loop computes the running maximum of `closer` over the distances it obtains. -/
theorem foldl_bestStep (l : List (String × Photo)) (acc : Option ((String × Photo) × ℚ)) :
    l.foldl (bestStep verifyDistance probe) (acc.map bestLabel) =
      ((scored verifyDistance probe l).foldl (scanMax closer) acc).map bestLabel := by
  induction l generalizing acc with
  | nil => rfl
  | cons e l ih =>
    cases hd : verifyDistance probe e.2 with
    | none =>
      have hskip : bestStep verifyDistance probe (acc.map bestLabel) e = acc.map bestLabel := by
        simp [bestStep, hd]
      rw [List.foldl_cons, hskip, ih]
      simp [scored, hd]
    | some dist =>
      rw [List.foldl_cons, bestStep_of_distance verifyDistance probe acc hd, ih]
      simp [scored, hd]

/-- `/recognize` names a student exactly when the first file at the least distance has that stem,
a non-empty one, and that distance is within the threshold. -/
theorem recognizeFace_matched_iff (extractFaces : Photo → Except String ℕ) {listing : Listing Photo}
    {threshold : ℚ} {d : Dir Photo} {r : Recognition}
    (h : recognizeFace extractFaces verifyDistance listing threshold d probe = .ok r) (s : String) :
    (r.matched = true ∧ r.studentId = some s) ↔
      ∃ e dist, IsFirstMax closer
          (scored verifyDistance probe (globJpg listing d)) (e, dist) ∧
        stem e.1 = s ∧ s ≠ "" ∧ dist ≤ threshold := by
  unfold recognizeFace at h
  dsimp only at h
  -- the early answers are errors, so the loop ran
  split_ifs at h with hempty
  cases hx : extractFaces probe with
  | error => rw [hx] at h; cases h
  | ok n =>
    rw [hx] at h
    have hfold := foldl_bestStep verifyDistance probe
      (globJpg listing d) none
    rw [Option.map_none] at hfold
    simp only [hfold] at h
    -- the scan's result is the one first maximum
    have hfirst : ∀ x, IsFirstMax closer
        (scored verifyDistance probe (globJpg listing d)) x ↔
        (scored verifyDistance probe (globJpg listing d)).foldl
          (scanMax closer) none = some x :=
      fun x => foldl_scanMax_eq_some_iff.symm
    simp only [hfirst]
    cases hs : (scored verifyDistance probe (globJpg listing d)).foldl
        (scanMax closer) none with
    | none =>
      rw [hs] at h
      cases h
      simp
    | some x =>
      rw [hs] at h
      simp only [Option.map_some, bestLabel] at h
      split_ifs at h with hc <;> cases h
      · constructor
        · rintro ⟨-, hs'⟩
          cases hs'
          exact ⟨x.1, x.2, rfl, rfl, hc⟩
        · rintro ⟨e, dist, hx', rfl, -⟩
          cases hx'
          exact ⟨rfl, rfl⟩
      · simp only [Bool.false_eq_true, false_and, false_iff, not_exists, not_and]
        rintro e dist hx' rfl hne hle
        cases hx'
        exact hc ⟨hne, hle⟩

theorem mem_scored {l : List (String × Photo)} {e : String × Photo} {dist : ℚ}
    (h : (e, dist) ∈ scored verifyDistance probe l) : e ∈ l ∧ verifyDistance probe e.2 = some dist := by
  obtain ⟨e', he', hx⟩ := List.mem_filterMap.mp h
  obtain ⟨dist', hd, he⟩ := Option.map_eq_some_iff.mp hx
  cases he
  exact ⟨he', hd⟩

end Loop

/-- A match names the stem of a file of the directory. -/
theorem recognizeFace_matched_mem (extractFaces : Photo → Except String ℕ)
    (verifyDistance : Photo → Photo → Option ℚ) {listing : Listing Photo} {threshold : ℚ}
    {d : Dir Photo} {probe : Photo} {r : Recognition}
    (h : recognizeFace extractFaces verifyDistance listing threshold d probe = .ok r)
    (hm : r.matched = true) : ∃ e ∈ d.entries, r.studentId = some (stem e.1) := by
  -- the answers with `matched: true` all carry a name
  obtain ⟨s, hs⟩ : ∃ s, r.studentId = some s := by
    unfold recognizeFace at h
    dsimp only at h
    split_ifs at h
    split at h
    · cases h
    · split at h
      · split_ifs at h <;> cases h
        · exact ⟨_, rfl⟩
        · cases hm
      · cases h
        cases hm
  obtain ⟨e, dist, hfm, rfl, -, -⟩ :=
    (recognizeFace_matched_iff verifyDistance probe extractFaces h s).mp ⟨hm, hs⟩
  have he := (List.mem_filter.mp (mem_scored verifyDistance probe hfm.mem).1).1
  exact ⟨e, (listing.perm_order d.entries).subset he, hs⟩

/-! ## Runs of `/register` -/

section Runs

variable (extractFaces : Photo → Except String ℕ)
  (moveElsewhere : String → Photo → Dir Photo → Option (Dir Photo))

/-- Whether `/register` gets past face detection with a photo. -/
def faceFound (photo : Photo) : Bool :=
  match extractFaces photo with
  | .ok (_ + 1) => true
  | _ => false

/-- The directory after a sequence of `POST /register` calls; a call that fails changes nothing. -/
def registerAll (d : Dir Photo) (calls : List (RegisterForm × Photo)) : Dir Photo :=
  calls.foldl (fun d c =>
    match registerFace extractFaces moveElsewhere d c.1 c.2 with
    | .ok r => r.1
    | .error _ => d) d

/-- The photo of the last call for `sid` whose photo shows a face. -/
def latestPhoto (calls : List (RegisterForm × Photo)) (sid : String) : Option Photo :=
  ((calls.filter fun c => c.1.studentId == sid && faceFound extractFaces c.2).getLast?).map Prod.snd

variable {extractFaces moveElsewhere}

/-- For a plain name, `/register` succeeds exactly when a face is found, and then writes the
file `<student_id>.jpg`. -/
theorem registerFace_eq_ok_iff {d d' : Dir Photo} {form : RegisterForm} {photo : Photo}
    {s : String} (hp : PlainName (form.studentId ++ ".jpg")) :
    registerFace extractFaces moveElsewhere d form photo = .ok (d', s) ↔
      faceFound extractFaces photo = true ∧ d' = d.put (form.studentId ++ ".jpg") photo ∧
        s = form.studentId := by
  unfold registerFace faceFound
  cases extractFaces photo with
  | error e => simp
  | ok n =>
    cases n with
    | zero => simp
    | succ n =>
      simp only [if_pos hp, Except.ok.injEq, Prod.mk.injEq, true_and]
      constructor
      · rintro ⟨rfl, rfl⟩
        exact ⟨rfl, rfl⟩
      · rintro ⟨rfl, rfl⟩
        exact ⟨rfl, rfl⟩

/-- One call of a run, on a plain name. -/
theorem registerStep_of_plain (d : Dir Photo) {form : RegisterForm} (photo : Photo)
    (hp : PlainName (form.studentId ++ ".jpg")) :
    (match registerFace extractFaces moveElsewhere d form photo with
      | .ok r => r.1
      | .error _ => d) =
      if faceFound extractFaces photo then d.put (form.studentId ++ ".jpg") photo else d := by
  unfold registerFace faceFound
  cases extractFaces photo with
  | error e => rfl
  | ok n =>
    cases n with
    | zero => rfl
    | succ n => simp [hp]

theorem latestPhoto_append (calls : List (RegisterForm × Photo)) (c : RegisterForm × Photo)
    (sid : String) :
    latestPhoto extractFaces (calls ++ [c]) sid =
      if c.1.studentId = sid ∧ faceFound extractFaces c.2 = true then some c.2
      else latestPhoto extractFaces calls sid := by
  unfold latestPhoto
  rw [List.filter_append]
  by_cases hc : c.1.studentId = sid ∧ faceFound extractFaces c.2 = true
  · have hb : (c.1.studentId == sid && faceFound extractFaces c.2) = true := by simp [hc]
    rw [if_pos hc, List.filter_singleton, hb, cond_true, List.getLast?_concat, Option.map_some]
  · have hb : (c.1.studentId == sid && faceFound extractFaces c.2) = false :=
      Bool.eq_false_iff.mpr fun h => hc (by simpa using h)
    rw [if_neg hc, List.filter_singleton, hb, cond_false, List.append_nil]

/-- A student with a latest photo has a non-empty id, as every form has. -/
theorem ne_empty_of_latestPhoto {calls : List (RegisterForm × Photo)} {sid : String} {p : Photo}
    (h : latestPhoto extractFaces calls sid = some p) : sid ≠ "" := by
  obtain ⟨c, hc, -⟩ := Option.map_eq_some_iff.mp h
  obtain ⟨ys, hys⟩ := List.getLast?_eq_some_iff.mp hc
  have hmem : c ∈ calls.filter fun c => c.1.studentId == sid && faceFound extractFaces c.2 := by
    rw [hys]
    simp
  obtain ⟨-, hsel⟩ := List.mem_filter.mp hmem
  simp only [Bool.and_eq_true, beq_iff_eq] at hsel
  rw [← hsel.1]
  exact c.1.nonempty

theorem registerAll_append_singleton (d : Dir Photo) (calls : List (RegisterForm × Photo))
    (c : RegisterForm × Photo) :
    registerAll extractFaces moveElsewhere d (calls ++ [c]) =
      match registerFace extractFaces moveElsewhere
          (registerAll extractFaces moveElsewhere d calls) c.1 c.2 with
      | .ok r => r.1
      | .error _ => registerAll extractFaces moveElsewhere d calls := by
  unfold registerAll
  rw [List.foldl_append]
  rfl

/-- The run invariant: from an empty `FACES_DIR`, calls on plain names leave one file
`<student_id>.jpg` for each student registered with a face, holding that student's latest photo,
and nothing else. -/
theorem mem_registerAll {calls : List (RegisterForm × Photo)}
    (hplain : ∀ c ∈ calls, PlainName (c.1.studentId ++ ".jpg")) (n : String) (p : Photo) :
    (n, p) ∈ (registerAll extractFaces moveElsewhere Dir.empty calls).entries ↔
      ∃ sid, n = sid ++ ".jpg" ∧ latestPhoto extractFaces calls sid = some p := by
  induction calls using List.reverseRecOn generalizing n p with
  | nil => simp [registerAll, Dir.empty, latestPhoto]
  | append_singleton calls c ih =>
    have hc : PlainName (c.1.studentId ++ ".jpg") := hplain c (by simp)
    have ih := ih (fun c' hc' => hplain c' (by simp [hc']))
    rw [registerAll_append_singleton, registerStep_of_plain _ _ hc]
    simp only [latestPhoto_append]
    by_cases hf : faceFound extractFaces c.2 = true
    · -- the call writes `<student_id>.jpg` and keeps every other file
      rw [if_pos hf, Dir.mem_put, ih]
      constructor
      · rintro (⟨rfl, rfl⟩ | ⟨hne, sid, rfl, hl⟩)
        · exact ⟨c.1.studentId, rfl, if_pos ⟨rfl, hf⟩⟩
        · refine ⟨sid, rfl, ?_⟩
          rw [if_neg fun h => hne (by rw [h.1])]
          exact hl
      · rintro ⟨sid, rfl, hl⟩
        by_cases hs : c.1.studentId = sid
        · rw [if_pos ⟨hs, hf⟩] at hl
          cases hl
          exact Or.inl ⟨by rw [hs], rfl⟩
        · rw [if_neg fun h => hs h.1] at hl
          exact Or.inr ⟨fun h => hs (jpg_inj h).symm, sid, rfl, hl⟩
    · -- no face: nothing is written, and the call is no one's latest
      rw [if_neg hf, ih]
      simp only [hf, Bool.false_eq_true, and_false, if_false]

/-- After a run of plain names every file of `FACES_DIR` matches `*.jpg`. -/
theorem globJpg_registerAll (listing : Listing Photo) {calls : List (RegisterForm × Photo)}
    (hplain : ∀ c ∈ calls, PlainName (c.1.studentId ++ ".jpg")) :
    globJpg listing (registerAll extractFaces moveElsewhere Dir.empty calls) =
      listing.order (registerAll extractFaces moveElsewhere Dir.empty calls).entries := by
  apply List.filter_eq_self.mpr
  intro e he
  obtain ⟨sid, hn, -⟩ := (mem_registerAll hplain e.1 e.2).mp ((listing.perm_order _).subset he)
  rw [hn]
  exact matchesJpg_jpg sid

end Runs

/-! ## What the service guarantees -/

/-- What `/register` and `/recognize` guarantee for a run of registrations from an empty
`FACES_DIR` and a probe photo: a registration on a plain name writes one file directly in the
directory, named after the student and replacing the earlier one; the directory then holds each
student's latest photo; and recognition names the student whose latest photo is the first, in the
directory's listing order, at the least distance, when that distance is within the threshold. -/
structure FaceServiceContract (extractFaces : Photo → Except String ℕ)
    (verifyDistance : Photo → Photo → Option ℚ) (listing : Listing Photo)
    (moveElsewhere : String → Photo → Dir Photo → Option (Dir Photo)) (threshold : ℚ)
    (calls : List (RegisterForm × Photo)) (probe : Photo) : Prop where
  register_stores : ∀ (d d' : Dir Photo) (form : RegisterForm) (photo : Photo) (s : String),
    PlainName (form.studentId ++ ".jpg") →
    registerFace extractFaces moveElsewhere d form photo = .ok (d', s) →
    s = form.studentId ∧ stem (form.studentId ++ ".jpg") = form.studentId ∧
      ∀ n p, (n, p) ∈ d'.entries ↔ (n = form.studentId ++ ".jpg" ∧ p = photo) ∨
        (n ≠ form.studentId ++ ".jpg" ∧ (n, p) ∈ d.entries)
  directory : ∀ n p, (n, p) ∈ (registerAll extractFaces moveElsewhere Dir.empty calls).entries ↔
    ∃ sid, n = sid ++ ".jpg" ∧ latestPhoto extractFaces calls sid = some p
  recognize : ∀ r s, recognizeFace extractFaces verifyDistance listing threshold
      (registerAll extractFaces moveElsewhere Dir.empty calls) probe = .ok r →
    (r.matched = true ∧ r.studentId = some s ↔
      ∃ p dist, IsFirstMax closer (scored verifyDistance probe
          (listing.order (registerAll extractFaces moveElsewhere Dir.empty calls).entries))
          ((s ++ ".jpg", p), dist) ∧
        latestPhoto extractFaces calls s = some p ∧ dist ≤ threshold)

theorem face_service_contract (extractFaces : Photo → Except String ℕ)
    (verifyDistance : Photo → Photo → Option ℚ) (listing : Listing Photo)
    (moveElsewhere : String → Photo → Dir Photo → Option (Dir Photo)) (threshold : ℚ)
    (calls : List (RegisterForm × Photo)) (probe : Photo)
    (hplain : ∀ c ∈ calls, PlainName (c.1.studentId ++ ".jpg")) :
    FaceServiceContract extractFaces verifyDistance listing moveElsewhere threshold calls probe where
  register_stores d d' form photo s hp h := by
    obtain ⟨-, rfl, rfl⟩ := (registerFace_eq_ok_iff hp).mp h
    exact ⟨rfl, stem_jpg form.nonempty, fun n p => Dir.mem_put⟩
  directory := mem_registerAll hplain
  recognize r s h := by
    rw [recognizeFace_matched_iff verifyDistance probe extractFaces h s,
      globJpg_registerAll listing hplain]
    constructor
    · -- the closest file is `<sid>.jpg` for a student `sid` with that latest photo
      rintro ⟨e, dist, hfm, rfl, -, hle⟩
      have he := (listing.perm_order _).subset (mem_scored verifyDistance probe hfm.mem).1
      obtain ⟨sid, hn, hl⟩ := (mem_registerAll hplain e.1 e.2).mp he
      have hs : stem e.1 = sid := by
        rw [hn]
        exact stem_jpg (ne_empty_of_latestPhoto hl)
      refine ⟨e.2, dist, ?_, by rw [hs]; exact hl, hle⟩
      rw [hs, ← hn]
      exact hfm
    · rintro ⟨p, dist, hfm, hl, hle⟩
      have hne := ne_empty_of_latestPhoto hl
      exact ⟨(s ++ ".jpg", p), dist, hfm, stem_jpg hne, hne, hle⟩

/-! ## A run with ties -/

/-- Three students; `b` registers twice, and `c`'s second photo shows no face. -/
def sampleCalls : List (RegisterForm × ℕ) :=
  [(⟨"a", by decide⟩, 1), (⟨"b", by decide⟩, 2), (⟨"c", by decide⟩, 3), (⟨"b", by decide⟩, 4),
    (⟨"c", by decide⟩, 5)]

def sampleFaces (p : ℕ) : Except String ℕ := if p = 5 then .ok 0 else .ok 1

/-- `b`'s first photo is the closest to any probe; `b`'s and `c`'s latest are equally close. -/
def sampleDistance (_ p : ℕ) : Option ℚ :=
  if p = 1 then some (3 / 10) else if p = 2 then some (1 / 20) else some (1 / 10)

/-- A file system that lists the newest entry first. -/
def newestFirst : Listing ℕ := ⟨List.reverse, List.reverse_perm⟩

theorem entries_sample :
    (registerAll sampleFaces (fun _ _ _ => none) Dir.empty sampleCalls).entries =
      [("a.jpg", 1), ("c.jpg", 3), ("b.jpg", 4)] := by
  decide

theorem recognize_sample :
    recognizeFace sampleFaces sampleDistance newestFirst (2 / 5)
      (registerAll sampleFaces (fun _ _ _ => none) Dir.empty sampleCalls) 7 =
        .ok ⟨true, some "b", some (1 / 10)⟩ := by
  have hround : roundTo 4 (1 / 10 : ℚ) = 1 / 10 := by
    rw [roundTo_eq_of_abs_lt (n := 1000) (by norm_num)]
    norm_num
  have hglob : globJpg newestFirst (registerAll sampleFaces (fun _ _ _ => none) Dir.empty sampleCalls) =
      [("b.jpg", 4), ("c.jpg", 3), ("a.jpg", 1)] := by
    rw [globJpg, entries_sample]
    decide
  have hb : stem "b.jpg" = "b" := by decide
  -- `c.jpg` is not strictly closer than `b.jpg`, and `a.jpg` is farther
  have hfold : [("b.jpg", 4), ("c.jpg", 3), ("a.jpg", 1)].foldl (bestStep sampleDistance 7) none =
      some ("b", 1 / 10) := by
    simp [bestStep, sampleDistance, hb]
    norm_num
  unfold recognizeFace
  dsimp only
  rw [hglob, hfold]
  have hne : "b" ≠ "" := by decide
  simp only [sampleFaces, hround]
  norm_num [hne]

theorem face_service_contract_three_students :
    (∀ c ∈ sampleCalls, PlainName (c.1.studentId ++ ".jpg")) ∧
      FaceServiceContract sampleFaces sampleDistance newestFirst (fun _ _ _ => none) (2 / 5)
        sampleCalls 7 ∧
      recognizeFace sampleFaces sampleDistance newestFirst (2 / 5)
        (registerAll sampleFaces (fun _ _ _ => none) Dir.empty sampleCalls) 7 =
          .ok ⟨true, some "b", some (1 / 10)⟩ :=
  have hplain : ∀ c ∈ sampleCalls, PlainName (c.1.studentId ++ ".jpg") := by decide
  ⟨hplain, face_service_contract _ _ _ _ _ _ _ hplain, recognize_sample⟩

/-- Two students whose latest photos are equally close to the probe: `/recognize` names only `b`,
the first of them in the listing's order, though `c` attains the least distance too. -/
theorem recognize_tie_names_first_student :
    recognizeFace sampleFaces sampleDistance newestFirst (2 / 5)
        (registerAll sampleFaces (fun _ _ _ => none) Dir.empty sampleCalls) 7 =
          .ok ⟨true, some "b", some (1 / 10)⟩ ∧
      latestPhoto sampleFaces sampleCalls "c" = some 3 ∧
      ("c.jpg", 3) ∈ (registerAll sampleFaces (fun _ _ _ => none) Dir.empty sampleCalls).entries ∧
      ∀ e ∈ (registerAll sampleFaces (fun _ _ _ => none) Dir.empty sampleCalls).entries,
        ∃ dist, sampleDistance 7 e.2 = some dist ∧ 1 / 10 ≤ dist := by
  refine ⟨recognize_sample, by decide, by rw [entries_sample]; decide, ?_⟩
  rw [entries_sample]
  intro e he
  simp only [List.mem_cons, List.not_mem_nil, or_false] at he
  rcases he with rfl | rfl | rfl <;> norm_num [sampleDistance]

end GoAttend.NewGoAttend
