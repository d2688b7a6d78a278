import GoAttend.Face.Storage
import GoAttend.Face.Quality
import GoAttend.Lib.StableSort

/-! `face-service/main.py`: the endpoints that change and list the gallery, `POST /enroll`,
`DELETE /enroll/{user_id}` and `GET /gallery`, over the gallery functions of `Storage`, with the
face model's choice of a face (`get_best_face`, `get_embedding`). The face model is abstracted as
the faces it finds in an image, each with its embedding; the mock model of a service without
InsightFace finds one face with a random embedding. Quality scores are exact reals. Over any run
and on either store, the gallery is the registry its answers describe: `/gallery` lists, once
each, the users whose last successful change was an enrolment, and a removal answers 404 exactly
for the others. -/

noncomputable section

namespace GoAttend.Face

open Lib Lib.Dict Lib.PyJson Lib.StableSort Lib.Numpy Lib.Rounding

variable {F : Type}

/-- A face the model finds: what the quality checks read, and its embedding. -/
structure ModelFace (F : Type) where
  face : DetectedFace
  embedding : List F

/-- What `get_face_model()` gives for an image: the mock's one face with a random embedding, or
the faces `model.get` finds. -/
inductive FaceModel (F : Type)
  | mock (embedding : List F)
  | faces (fs : List (ModelFace F))

/-- What `get_embedding` returns: the embedding, the detection score, the number of faces and the
quality of the face it chose. -/
structure Embedding (F : Type) where
  embedding : List F
  score : ℝ
  faces : ℕ
  quality : FaceQuality

/-- How a call stops short of its answer: an `HTTPException`, or another exception, which FastAPI
answers with 500. -/
inductive Failure
  | http (status : ℕ) (detail : List ℕ)
  | raised

/-- The quality the mock reports. -/
def mockQuality : FaceQuality := ⟨0.85, 0.1, 5.0, 3.0, 1.0, 40000, true⟩

/-- The loop of `get_best_face`: each face with its quality score; `none` where
`assess_face_quality` raises on one of them. -/
def scoredFaces (scipy : Bool) (img : Image) (fs : List (ModelFace F)) :
    Option (List (ModelFace F × ℝ)) :=
  fs.mapM fun f => (assessFaceQuality scipy f.face img).map fun q => (f, q.score)

/-- `get_best_face`: the only face, or the first of the highest quality score, as the stable
`sort(reverse=True)` puts it first. -/
def getBestFace (scipy : Bool) (img : Image) : List (ModelFace F) → Option (ModelFace F)
  | [f] => some f
  | fs => (scoredFaces scipy img fs).bind fun scored => (sortDesc Prod.snd scored).head?.map Prod.fst

/-- `get_embedding` with `return_quality=True`. -/
def getEmbedding (scipy : Bool) (img : Image) : FaceModel F → Except Failure (Embedding F)
  | .mock e => .ok ⟨e, 0.95, 1, mockQuality⟩
  | .faces fs =>
    if fs.length = 0 then .error (.http 400 (lit "No face detected in image"))
    else match getBestFace scipy img fs with
      | none => .error .raised
      | some f => match assessFaceQuality scipy f.face img with
        | none => .error .raised
        | some q => .ok ⟨f.embedding, f.face.detScore, fs.length, q⟩

/-- What the service reads of its settings: `QUALITY_THRESHOLD`, the text `str()` gives of it,
the printing `:.2f` of a float, and whether SciPy imports. -/
structure Config where
  qualityThreshold : ℝ
  qualityThresholdText : List ℕ
  fixed2 : ℝ → List ℕ
  scipy : Bool

/-- `EnrollRequest`; its `image_url` is what `download_image` fetches. -/
structure EnrollRequest (F : Type) where
  userId : List ℕ
  name : Option (List ℕ)
  metadata : Option (List (List ℕ × Value F))

/-- The `name` the request passes to `save_to_gallery`: the string, or `None`. -/
def EnrollRequest.nameValue (req : EnrollRequest F) : Value F :=
  match req.name with
  | some n => .str n
  | none => .null

/-- `EnrollResponse`. -/
structure EnrollResponse where
  userId : List ℕ
  success : Bool
  quality : Option FaceQuality
  message : List ℕ

/-- An entry of the `users` of `/gallery`. -/
structure GalleryUser (F : Type) where
  userId : List ℕ
  name : Value F
  enrolledAt : Value F
  metadata : Value F

/-- What an endpoint answers: its response, or the status and detail of an `HTTPException`, or
500 for another exception. `/gallery`'s `total` is the length of its users. -/
inductive Answer (F : Type)
  | enroll (r : EnrollResponse)
  | unenroll (userId : List ℕ)
  | gallery (users : List (GalleryUser F))
  | error (status : ℕ) (detail : List ℕ)
  | internalError

/-- A request to the gallery endpoints, with what the world gives it: for `/enroll`, the image
`download_image` fetches or the detail of the 400 it raises, what the face model finds in it, and
`datetime.utcnow()`. -/
inductive Call (F : Type)
  | enroll (req : EnrollRequest F) (image : Except (List ℕ) Image) (model : FaceModel F)
      (now : DateTime)
  | unenroll (userId : List ℕ)
  | listGallery

section Endpoints

variable (cfg : Config) (fmt : FloatFormat F) (env : Env)

/-- The message of an enrolment refused for its quality. -/
def lowQualityMessage (score : ℝ) : List ℕ :=
  lit "Face quality too low (" ++ cfg.fixed2 score ++ lit " < " ++ cfg.qualityThresholdText ++
    lit "). Please use a clearer, frontal photo."

/-- `POST /enroll`. The `HTTPException` of `get_embedding` is caught and answered as a failed
enrolment; the download's is not. -/
def enroll (s : Store F) (req : EnrollRequest F) (image : Except (List ℕ) Image)
    (model : FaceModel F) (now : DateTime) : Answer F × Store F :=
  match image with
  | .error detail => (.error 400 detail, s)
  | .ok img =>
    match getEmbedding cfg.scipy img model with
    | .error (.http _ detail) => (.enroll ⟨req.userId, false, none, detail⟩, s)
    | .error .raised => (.internalError, s)
    | .ok e =>
      if e.quality.score < cfg.qualityThreshold then
        (.enroll ⟨req.userId, false, some e.quality, lowQualityMessage cfg e.quality.score⟩, s)
      else
        let r := saveToGallery fmt env s req.userId e.embedding req.nameValue req.metadata now
        match r.1 with
        | some () => (.enroll ⟨req.userId, true, some e.quality, lit "Face enrolled successfully"⟩, r.2)
        | none => (.internalError, r.2)

/-- `DELETE /enroll/{user_id}`. -/
def unenroll (s : Store F) (u : List ℕ) : Answer F × Store F :=
  let r := deleteFromGallery env s u
  match r.1 with
  | some true => (.unenroll u, r.2)
  | some false => (.error 404 (lit "User " ++ u ++ lit " not found in gallery"), r.2)
  | none => (.internalError, r.2)

/-- An entry of `/gallery`: `data.get("name")`, `data.get("enrolled_at")` and
`data.get("metadata", {})`; a record that is not a dict has no `get`. -/
def galleryUser (e : List ℕ × Value F) : Option (GalleryUser F) :=
  match e.2 with
  | .dict kvs => some ⟨e.1, (get kvs (lit "name")).getD .null,
      (get kvs (lit "enrolled_at")).getD .null, (get kvs (lit "metadata")).getD (.dict [])⟩
  | _ => none

/-- `GET /gallery`. -/
def listGallery (s : Store F) : Answer F × Store F :=
  let r := getAllGallery fmt env s
  match r.1.bind fun g => g.mapM galleryUser with
  | some users => (.gallery users, r.2)
  | none => (.internalError, r.2)

/-- One request: its answer and the store after it. -/
def serve (s : Store F) : Call F → Answer F × Store F
  | .enroll req image model now => enroll cfg fmt env s req image model now
  | .unenroll u => unenroll env s u
  | .listGallery => listGallery fmt env s

end Endpoints

/-! ## The face an enrolment keeps -/

section BestFace

variable {scipy : Bool} {img : Image} {fs : List (ModelFace F)}

theorem mem_scoredFaces {scored : List (ModelFace F × ℝ)} (h : scoredFaces scipy img fs = some scored)
    {p : ModelFace F × ℝ} (hp : p ∈ scored) :
    ∃ q, assessFaceQuality scipy p.1.face img = some q ∧ p.2 = q.score := by
  obtain ⟨f, -, hf⟩ := exists_of_mem_mapM h hp
  obtain ⟨q, hq, rfl⟩ := Option.map_eq_some_iff.mp hf
  exact ⟨q, hq, rfl⟩

/-- The face `get_best_face` picks comes, with its score, first among those of the highest score. -/
theorem getBestFace_isFirstMax {f : ModelFace F} {q : FaceQuality}
    (h : getBestFace scipy img fs = some f) (hq : assessFaceQuality scipy f.face img = some q) :
    ∃ scored, scoredFaces scipy img fs = some scored ∧ IsFirstMax Prod.snd scored (f, q.score) := by
  unfold getBestFace at h
  split at h
  · -- the only face, which the code does not score; alone it is the best
    cases h
    exact ⟨[(f, q.score)], by simp [scoredFaces, hq], [], [], rfl, by simp, by simp⟩
  · obtain ⟨scored, hs, hhead⟩ := Option.bind_eq_some_iff.mp h
    obtain ⟨p, hp, rfl⟩ := Option.map_eq_some_iff.mp hhead
    have hmax := head?_sortDesc_eq_some_iff.mp hp
    -- the score the loop gave the face is the one `assess_face_quality` gives it again
    obtain ⟨q', hq', hscore⟩ := mem_scoredFaces hs hmax.mem
    rw [hq, Option.some.injEq] at hq'
    subst hq'
    refine ⟨scored, hs, ?_⟩
    rwa [← hscore]

/-- What `get_embedding` returns for the faces a model finds: the embedding and the quality of the
first face of the highest quality score. -/
theorem getEmbedding_faces {e : Embedding F} (h : getEmbedding scipy img (.faces fs) = .ok e) :
    ∃ f scored, e.embedding = f.embedding ∧ assessFaceQuality scipy f.face img = some e.quality ∧
      scoredFaces scipy img fs = some scored ∧ IsFirstMax Prod.snd scored (f, e.quality.score) := by
  simp only [getEmbedding] at h
  split_ifs at h
  split at h
  · cases h
  · rename_i f hf
    split at h
    · cases h
    · rename_i q hq
      cases h
      obtain ⟨scored, hs, hmax⟩ := getBestFace_isFirstMax hf hq
      exact ⟨f, scored, rfl, hq, hs, hmax⟩

end BestFace

/-! ## The registry the answers describe -/

/-- What an answered call says of the user `u`: enrolled (`true`) by a successful enrolment,
removed (`false`) by a successful removal, or nothing. -/
def Answer.about : Call F → Answer F → List ℕ → Option Bool
  | .enroll req _ _ _, .enroll r, u => if r.success = true ∧ req.userId = u then some true else none
  | .unenroll v, .unenroll _, u => if v = u then some false else none
  | _, _, _ => none

/-- Whether `u` is enrolled after the answered calls `hist`: the last of them that said something
of `u` enrolled it. -/
def enrolledAfter (hist : List (Call F × Answer F)) (u : List ℕ) : Bool :=
  hist.foldl (fun b x => (Answer.about x.1 x.2 u).getD b) false

/-- A right answer after the history `hist`: `/gallery` lists the enrolled users once each, and a
removal succeeds for an enrolled user and answers 404 for any other. -/
def RightAnswer (hist : List (Call F × Answer F)) : Call F → Answer F → Prop
  | .listGallery, a => ∃ users, a = .gallery users ∧ (users.map GalleryUser.userId).Nodup ∧
      ∀ u, u ∈ users.map GalleryUser.userId ↔ enrolledAfter hist u = true
  | .unenroll u, a => (a = .unenroll u ∧ enrolledAfter hist u = true) ∨
      (a = .error 404 (lit "User " ++ u ++ lit " not found in gallery") ∧ enrolledAfter hist u = false)
  | .enroll .., _ => True

theorem enrolledAfter_nil (u : List ℕ) : enrolledAfter ([] : List (Call F × Answer F)) u = false :=
  rfl

theorem enrolledAfter_snoc (hist : List (Call F × Answer F)) (c : Call F) (a : Answer F)
    (u : List ℕ) :
    enrolledAfter (hist ++ [(c, a)]) u = (Answer.about c a u).getD (enrolledAfter hist u) := by
  simp [enrolledAfter, List.foldl_append]

/-- The memory store's `face_gallery` as the registry of `hist`: its users are the enrolled ones,
once each, and each record is a dict. -/
structure Registry (d : List (List ℕ × Value F)) (hist : List (Call F × Answer F)) : Prop where
  nodup : (keys d).Nodup
  mem_iff : ∀ u, u ∈ keys d ↔ enrolledAfter hist u = true
  dict : ∀ e ∈ d, ∃ kvs, e.2 = .dict kvs

theorem registry_nil : Registry ([] : List (List ℕ × Value F)) [] :=
  ⟨List.nodup_nil, fun u => by simp [enrolledAfter_nil], fun e he => absurd he List.not_mem_nil⟩

/-- An answer that says nothing of anyone leaves the registry as it was. -/
theorem Registry.silent {d : List (List ℕ × Value F)} {hist : List (Call F × Answer F)}
    (hr : Registry d hist) {c : Call F} {a : Answer F} (ha : ∀ u, Answer.about c a u = none) :
    Registry d (hist ++ [(c, a)]) :=
  ⟨hr.nodup, fun u => by rw [enrolledAfter_snoc, ha u, Option.getD_none]; exact hr.mem_iff u,
    hr.dict⟩

/-- A successful enrolment of `u` sets its record. -/
theorem Registry.enrolled {d : List (List ℕ × Value F)} {hist : List (Call F × Answer F)}
    (hr : Registry d hist) {u : List ℕ} {v : Value F} (hv : ∃ kvs, v = .dict kvs) {c : Call F}
    {a : Answer F} (ha : ∀ w, Answer.about c a w = if u = w then some true else none) :
    Registry (setItem d u v) (hist ++ [(c, a)]) := by
  refine ⟨nodup_keys_setItem hr.nodup u v, fun w => ?_, fun e he => ?_⟩
  · rw [mem_keys_setItem, enrolledAfter_snoc, ha w, hr.mem_iff w]
    by_cases h : u = w
    · subst h
      simp
    · simp [h, Ne.symm h]
  · rcases mem_setItem he with rfl | he
    · exact hv
    · exact hr.dict e he

/-- A successful removal of `u` erases its record. -/
theorem Registry.removed {d : List (List ℕ × Value F)} {hist : List (Call F × Answer F)}
    (hr : Registry d hist) {u : List ℕ} {c : Call F} {a : Answer F}
    (ha : ∀ w, Answer.about c a w = if u = w then some false else none) :
    Registry (erase d u) (hist ++ [(c, a)]) := by
  refine ⟨nodup_keys_erase hr.nodup u, fun w => ?_, fun e he => hr.dict e (List.mem_of_mem_filter he)⟩
  rw [mem_keys_erase, enrolledAfter_snoc, ha w, hr.mem_iff w]
  by_cases h : u = w
  · subst h
    simp
  · simp [h, Ne.symm h]

/-- The entries of a gallery of dicts, as `/gallery` lists them: one for each user, in order. -/
theorem mapM_galleryUser {d : List (List ℕ × Value F)} (hd : ∀ e ∈ d, ∃ kvs, e.2 = .dict kvs) :
    ∃ users, d.mapM galleryUser = some users ∧ users.map GalleryUser.userId = keys d := by
  induction d with
  | nil => exact ⟨[], rfl, rfl⟩
  | cons e d ih =>
    obtain ⟨kvs, he⟩ := hd e List.mem_cons_self
    obtain ⟨users, hm, hkeys⟩ := ih fun e' he' => hd e' (List.mem_cons_of_mem e he')
    obtain ⟨g, hg, hgu⟩ : ∃ g, galleryUser e = some g ∧ g.userId = e.1 := by
      simp [galleryUser, he]
    exact ⟨g :: users, by simp [List.mapM_cons, hg, hm], by simp [hgu, hkeys]⟩

/-! ## The store in memory -/

section Memory

variable (fmt : FloatFormat F) {env : Env} {t : Store F}

theorem saveToGallery_memory (hm : getRedis env t.redisClient ≠ .connected) (u : List ℕ)
    (e : List F) (n : Value F) (m : Option (List (List ℕ × Value F))) (now : DateTime) :
    saveToGallery fmt env t u e n m now =
      (some (), { t.connect env with faceGallery := setItem t.faceGallery u (galleryData e n m now) }) := by
  simp only [saveToGallery, redisClient_connect, hm, if_false, faceGallery_connect]

theorem deleteFromGallery_memory (hm : getRedis env t.redisClient ≠ .connected) (u : List ℕ) :
    deleteFromGallery env t u =
      (some (deleteMemory t.faceGallery u).1,
        { t.connect env with faceGallery := (deleteMemory t.faceGallery u).2 }) := by
  simp only [deleteFromGallery, redisClient_connect, hm, if_false, faceGallery_connect]

theorem getAllGallery_memory (hm : getRedis env t.redisClient ≠ .connected) :
    getAllGallery fmt env t = (some t.faceGallery, t.connect env) := by
  simp only [getAllGallery, redisClient_connect, hm, if_false, faceGallery_connect]

/-- Once `get_redis()` has not connected, it never does. -/
theorem memory_connect (hm : getRedis env t.redisClient ≠ .connected) :
    getRedis env (t.connect env).redisClient ≠ .connected := by
  rwa [redisClient_connect, getRedis_getRedis]

variable (cfg : Config) {hist : List (Call F × Answer F)}

/-- `/enroll` on the store in memory records the user exactly when it answers success. -/
theorem enroll_memory (hm : getRedis env t.redisClient ≠ .connected)
    (hr : Registry t.faceGallery hist) (req : EnrollRequest F) (image : Except (List ℕ) Image)
    (model : FaceModel F) (now : DateTime) :
    Registry (enroll cfg fmt env t req image model now).2.faceGallery
        (hist ++ [(.enroll req image model now, (enroll cfg fmt env t req image model now).1)]) ∧
      getRedis env (enroll cfg fmt env t req image model now).2.redisClient ≠ .connected := by
  -- every answer but a success leaves the store as it was and says nothing of anyone
  have hsilent : ∀ a : Answer F, (∀ r : EnrollResponse, a = .enroll r → r.success = false) →
      Registry t.faceGallery (hist ++ [(.enroll req image model now, a)]) := by
    intro a ha
    refine hr.silent fun w => ?_
    cases a with
    | enroll r => simp [Answer.about, ha r rfl]
    | _ => rfl
  unfold enroll
  split
  · exact ⟨hsilent _ (by simp), hm⟩
  · split
    · exact ⟨hsilent _ (by simp), hm⟩
    · exact ⟨hsilent _ (by simp), hm⟩
    · split_ifs
      · exact ⟨hsilent _ (by simp), hm⟩
      · rename_i e _
        simp only [saveToGallery_memory fmt hm]
        refine ⟨hr.enrolled ⟨_, rfl⟩ fun w => ?_, memory_connect hm⟩
        simp [Answer.about]

/-- `DELETE /enroll/{user_id}` on the store in memory. -/
theorem unenroll_memory (hm : getRedis env t.redisClient ≠ .connected)
    (hr : Registry t.faceGallery hist) (u : List ℕ) :
    RightAnswer hist (.unenroll u) (unenroll env t u).1 ∧
      Registry (unenroll env t u).2.faceGallery (hist ++ [(.unenroll u, (unenroll env t u).1)]) ∧
      getRedis env (unenroll env t u).2.redisClient ≠ .connected := by
  simp only [unenroll, deleteFromGallery_memory hm, deleteMemory]
  by_cases hu : u ∈ keys t.faceGallery
  · simp only [hu, if_true]
    refine ⟨.inl ⟨rfl, (hr.mem_iff u).mp hu⟩, hr.removed fun w => ?_, memory_connect hm⟩
    simp [Answer.about]
  · simp only [hu, if_false]
    refine ⟨.inr ⟨rfl, ?_⟩, hr.silent fun w => rfl, memory_connect hm⟩
    simpa using mt (hr.mem_iff u).mpr hu

/-- `GET /gallery` on the store in memory lists its users. -/
theorem listGallery_memory (hm : getRedis env t.redisClient ≠ .connected)
    (hr : Registry t.faceGallery hist) :
    RightAnswer hist .listGallery (listGallery fmt env t).1 ∧
      Registry (listGallery fmt env t).2.faceGallery (hist ++ [(.listGallery, (listGallery fmt env t).1)]) ∧
      getRedis env (listGallery fmt env t).2.redisClient ≠ .connected := by
  obtain ⟨users, hmap, hkeys⟩ := mapM_galleryUser hr.dict
  simp only [listGallery, getAllGallery_memory fmt hm, Option.bind_some, hmap]
  refine ⟨⟨users, rfl, hkeys ▸ hr.nodup, fun u => hkeys ▸ hr.mem_iff u⟩, hr.silent fun w => rfl,
    memory_connect hm⟩

/-- The step on the store in memory: a right answer, and the registry of the history with it. -/
theorem serve_memory (hm : getRedis env t.redisClient ≠ .connected)
    (hr : Registry t.faceGallery hist) (c : Call F) :
    RightAnswer hist c (serve cfg fmt env t c).1 ∧
      Registry (serve cfg fmt env t c).2.faceGallery (hist ++ [(c, (serve cfg fmt env t c).1)]) ∧
      getRedis env (serve cfg fmt env t c).2.redisClient ≠ .connected := by
  cases c with
  | enroll req image model now => exact ⟨trivial, enroll_memory fmt cfg hm hr req image model now⟩
  | unenroll u => exact unenroll_memory hm hr u
  | listGallery => exact listGallery_memory fmt hm hr

end Memory

/-! ## What a successful enrolment stores -/

section Success

variable {cfg : Config} {fmt : FloatFormat F} {env : Env} {s : Store F} {req : EnrollRequest F}
  {img : Image} {now : DateTime} {r : EnrollResponse}

/-- A successful `/enroll` passed the quality threshold and saved what `get_embedding` returned. -/
theorem enroll_success {model : FaceModel F}
    (h : (enroll cfg fmt env s req (.ok img) model now).1 = .enroll r) (hr : r.success = true) :
    ∃ e, getEmbedding cfg.scipy img model = .ok e ∧ cfg.qualityThreshold ≤ e.quality.score ∧
      r.quality = some e.quality ∧ (enroll cfg fmt env s req (.ok img) model now).2 =
        (saveToGallery fmt env s req.userId e.embedding req.nameValue req.metadata now).2 := by
  cases he : getEmbedding cfg.scipy img model with
  | error err =>
    -- a failure of `get_embedding` is answered as a failed enrolment, or 500
    cases err <;> simp only [enroll, he, Answer.enroll.injEq, reduceCtorEq] at h
    rw [← h] at hr
    cases hr
  | ok e =>
    by_cases hq : e.quality.score < cfg.qualityThreshold
    · simp only [enroll, he, hq, if_true, Answer.enroll.injEq] at h
      rw [← h] at hr
      cases hr
    · cases hs : (saveToGallery fmt env s req.userId e.embedding req.nameValue req.metadata now).1 with
      | none => simp [enroll, he, hq, hs] at h
      | some u =>
        simp only [enroll, he, hq, if_false, hs, Answer.enroll.injEq] at h
        exact ⟨e, rfl, not_lt.mp hq, by rw [← h], by simp [enroll, he, hq, hs]⟩

/-- A successful `/enroll` of the faces a model found stores, under the user id, the embedding of
the first face of the highest quality score, a score that reached the threshold, and reports that
face's quality. -/
theorem enroll_stores_best_face {fs : List (ModelFace F)}
    (h : (enroll cfg fmt env s req (.ok img) (.faces fs) now).1 = .enroll r) (hr : r.success = true) :
    ∃ f q scored, scoredFaces cfg.scipy img fs = some scored ∧ IsFirstMax Prod.snd scored (f, q.score) ∧
      assessFaceQuality cfg.scipy f.face img = some q ∧ cfg.qualityThreshold ≤ q.score ∧
      r.quality = some q ∧ (enroll cfg fmt env s req (.ok img) (.faces fs) now).2 =
        (saveToGallery fmt env s req.userId f.embedding req.nameValue req.metadata now).2 := by
  obtain ⟨e, he, hthreshold, hquality, hstore⟩ := enroll_success h hr
  obtain ⟨f, scored, hemb, hq, hs, hmax⟩ := getEmbedding_faces he
  exact ⟨f, e.quality, scored, hs, hmax, hq, hthreshold, hquality, hemb ▸ hstore⟩

end Success

/-- A setting with `QUALITY_THRESHOLD=0.5` and without SciPy. -/
def sampleConfig : Config := ⟨0.5, lit "0.5", fun _ => [], false⟩

/-- An empty image. -/
def sampleImage : Image := ⟨0, 0, fun _ _ => ⟨0, 0, 0⟩⟩

/-- A face detected with score `d`, without a pose, in a box of no size. -/
def detFace (d : ℝ) (e : List F) : ModelFace F := ⟨⟨⟨0, 0, 0, 0⟩, none, d⟩, e⟩

/-- Its quality: its detection gives `0.3 d` and its pose `0.25`; its empty region is fully
blurred, and its size is nothing. -/
theorem assessFaceQuality_detFace (d : ℝ) (e : List F) :
    assessFaceQuality false (detFace d e).face sampleImage =
      some ⟨roundTo 3 (d * 0.3 + 0.25), 1, 0, 0, 0, 0, true⟩ := by
  have ht : truncate 0 = 0 := truncate_eq_zero (by norm_num) (by norm_num)
  have hblur : calculateBlur false sampleImage ⟨0, 0, 0, 0⟩ = some 1 := by
    unfold calculateBlur
    rw [if_pos]
    simp only [faceRegion, Grid.slice, Grid.size, ht, sampleImage, Nat.sub_self, zero_mul]
  have hb : roundTo 3 (1 : ℝ) = 1 := roundTo_eq_self (n := 1000) (by norm_num)
  have hz : roundTo 1 (0 : ℝ) = 0 := roundTo_eq_self (n := 0) (by norm_num)
  unfold assessFaceQuality
  simp only [detFace, Option.getD_none, hblur, Option.map_some, sub_self, mul_zero, ht, hb, hz]
  norm_num

/-- A face of score 1 without an embedding. -/
def sampleFace : ModelFace F := detFace 1 []

/-- Three faces: a weaker one, then two of equal quality. -/
def threeFaces (e₀ e₁ e₂ : List F) : List (ModelFace F) :=
  [detFace (1 / (2 : ℕ)) e₀, detFace 1 e₁, detFace 1 e₂]

/-- The quality of a face of score 1. -/
def topQuality : FaceQuality := ⟨0.55, 1, 0, 0, 0, 0, true⟩

theorem assessFaceQuality_detFace_one (e : List F) :
    assessFaceQuality false (detFace 1 e).face sampleImage = some topQuality := by
  rw [assessFaceQuality_detFace, topQuality, roundTo_eq_self (n := 550) (by norm_num)]
  norm_num

theorem scoredFaces_threeFaces (e₀ e₁ e₂ : List F) :
    scoredFaces false sampleImage (threeFaces e₀ e₁ e₂) =
      some [(detFace (1 / (2 : ℕ)) e₀, 0.4), (detFace 1 e₁, 0.55), (detFace 1 e₂, 0.55)] := by
  have h4 : roundTo 3 ((1 / ((2 : ℕ) : ℝ)) * 0.3 + 0.25) = 0.4 := by
    rw [roundTo_eq_self (n := 400) (by norm_num)]
    norm_num
  simp only [scoredFaces, threeFaces, List.mapM_cons, List.mapM_nil, assessFaceQuality_detFace_one]
  simp only [assessFaceQuality_detFace, Option.map_some, h4]
  rfl

/-- Of two faces of the top quality, `/enroll` stores the first. -/
theorem getBestFace_threeFaces (e₀ e₁ e₂ : List F) :
    getBestFace false sampleImage (threeFaces e₀ e₁ e₂) = some (detFace 1 e₁) := by
  have hmax : IsFirstMax Prod.snd
      [(detFace (1 / (2 : ℕ)) e₀, (0.4 : ℝ)), (detFace 1 e₁, 0.55), (detFace 1 e₂, 0.55)]
      (detFace 1 e₁, 0.55) :=
    ⟨[(detFace (1 / (2 : ℕ)) e₀, 0.4)], [(detFace 1 e₂, 0.55)], rfl, by norm_num, by norm_num⟩
  have hbest : getBestFace false sampleImage (threeFaces e₀ e₁ e₂) =
      (scoredFaces false sampleImage (threeFaces e₀ e₁ e₂)).bind fun scored =>
        (sortDesc Prod.snd scored).head?.map Prod.fst := rfl
  rw [hbest, scoredFaces_threeFaces, Option.bind_some, head?_sortDesc_eq_some_iff.mpr hmax]
  rfl

theorem getEmbedding_threeFaces (e₀ e₁ e₂ : List F) :
    getEmbedding false sampleImage (.faces (threeFaces e₀ e₁ e₂)) = .ok ⟨e₁, 1, 3, topQuality⟩ := by
  simp only [getEmbedding, getBestFace_threeFaces, assessFaceQuality_detFace_one]
  rfl

theorem enroll_stores_best_face_three :
    ∃ r, (enroll sampleConfig wholeFloats ⟨"", true, id, List.Perm.refl⟩ ⟨.none, [], []⟩
        ⟨[0x75], none, none⟩ (.ok sampleImage)
          (.faces (threeFaces (F := Fin (2 ^ 53)) [0] [1] [2])) ⟨2024, 5, 17, 9, 30, 0, 0⟩).1 =
        .enroll r ∧ r.success = true ∧
      (enroll sampleConfig wholeFloats ⟨"", true, id, List.Perm.refl⟩ ⟨.none, [], []⟩
          ⟨[0x75], none, none⟩ (.ok sampleImage)
          (.faces (threeFaces (F := Fin (2 ^ 53)) [0] [1] [2])) ⟨2024, 5, 17, 9, 30, 0, 0⟩).2 =
        (saveToGallery wholeFloats ⟨"", true, id, List.Perm.refl⟩ ⟨.none, [], []⟩ [0x75]
          [1] .null none ⟨2024, 5, 17, 9, 30, 0, 0⟩).2 ∧
      ∃ f q scored, scoredFaces sampleConfig.scipy sampleImage (threeFaces [0] [1] [2]) = some scored ∧
        IsFirstMax Prod.snd scored (f, q.score) ∧
        assessFaceQuality sampleConfig.scipy f.face sampleImage = some q ∧
        sampleConfig.qualityThreshold ≤ q.score ∧ r.quality = some q ∧
        (enroll sampleConfig wholeFloats ⟨"", true, id, List.Perm.refl⟩ ⟨.none, [], []⟩
          ⟨[0x75], none, none⟩ (.ok sampleImage)
          (.faces (threeFaces (F := Fin (2 ^ 53)) [0] [1] [2])) ⟨2024, 5, 17, 9, 30, 0, 0⟩).2 =
          (saveToGallery wholeFloats ⟨"", true, id, List.Perm.refl⟩ ⟨.none, [], []⟩ [0x75]
            f.embedding .null none ⟨2024, 5, 17, 9, 30, 0, 0⟩).2 := by
  have hm : getRedis ⟨"", true, id, List.Perm.refl⟩ (Store.redisClient (F := Fin (2 ^ 53))
      ⟨.none, [], []⟩) ≠ .connected := by
    simp [getRedis]
  have hthreshold : ¬ (0.55 : ℝ) < 0.5 := by norm_num
  -- the face of score `0.55` passes the threshold `0.5`, and the store in memory saves it
  have hrun : enroll sampleConfig wholeFloats ⟨"", true, id, List.Perm.refl⟩ ⟨.none, [], []⟩
      ⟨[0x75], none, none⟩ (.ok sampleImage)
      (.faces (threeFaces (F := Fin (2 ^ 53)) [0] [1] [2])) ⟨2024, 5, 17, 9, 30, 0, 0⟩ =
      (.enroll ⟨[0x75], true, some topQuality, lit "Face enrolled successfully"⟩,
        (saveToGallery wholeFloats ⟨"", true, id, List.Perm.refl⟩ ⟨.none, [], []⟩ [0x75]
          [1] .null none ⟨2024, 5, 17, 9, 30, 0, 0⟩).2) := by
    simp only [enroll, sampleConfig, getEmbedding_threeFaces, topQuality, hthreshold, if_false,
      saveToGallery_memory _ hm]
    rfl
  have h := congrArg Prod.fst hrun
  exact ⟨_, h, rfl, congrArg Prod.snd hrun, enroll_stores_best_face h rfl⟩

/-! ## Either store -/

/-- The calls the store on Redis answers as the one in memory: the user ids are text without
surrogates, and the name and metadata of an enrolment come back from `json.loads` as they were. -/
def Call.Valid : Call F → Prop
  | .enroll req _ _ _ => ValidUserId req.userId ∧ req.nameValue.roundTrips = true ∧
      (Value.dict (req.metadata.getD [])).roundTrips = true
  | .unenroll u => ValidUserId u
  | .listGallery => True

instance : DecidablePred (Call.Valid (F := F)) := fun c =>
  match c with
  | .enroll req _ _ _ => inferInstanceAs (Decidable (ValidUserId req.userId ∧
      req.nameValue.roundTrips = true ∧ (Value.dict (req.metadata.getD [])).roundTrips = true))
  | .unenroll u => inferInstanceAs (Decidable (ValidUserId u))
  | .listGallery => inferInstanceAs (Decidable True)

/-- Answers alike: the same answer, or the same users of `/gallery` in another order, since
`HGETALL` lists the hash in an order of its own. -/
inductive Answer.Agree : Answer F → Answer F → Prop
  | refl (a : Answer F) : Agree a a
  | gallery {users users' : List (GalleryUser F)} (h : users.Perm users') :
      Agree (.gallery users) (.gallery users')

theorem Answer.Agree.symm {a a' : Answer F} (h : Answer.Agree a a') : Answer.Agree a' a := by
  cases h with
  | refl => exact .refl _
  | gallery hp => exact .gallery hp.symm

/-- Answers alike say the same of everyone. -/
theorem Answer.about_agree {a a' : Answer F} (h : Answer.Agree a a') (c : Call F) (u : List ℕ) :
    Answer.about c a u = Answer.about c a' u := by
  cases h with
  | refl => rfl
  | gallery => cases c <;> rfl

theorem RightAnswer.agree {hist : List (Call F × Answer F)} {c : Call F} {a a' : Answer F}
    (h : RightAnswer hist c a) (hag : Answer.Agree a a') : RightAnswer hist c a' := by
  cases hag with
  | refl => exact h
  | gallery hp =>
    cases c with
    | listGallery =>
      -- the same users in another order: still once each, still the enrolled ones
      obtain ⟨users, heq, hnd, hmem⟩ := h
      cases heq
      have hp' := hp.map GalleryUser.userId
      exact ⟨_, rfl, hp'.nodup_iff.mp hnd, fun u => hp'.mem_iff.symm.trans (hmem u)⟩
    | unenroll u => simp [RightAnswer] at h
    | enroll => trivial

theorem Registry.agree {d : List (List ℕ × Value F)} {hist : List (Call F × Answer F)}
    {c : Call F} {a a' : Answer F} (hr : Registry d (hist ++ [(c, a)]))
    (hag : Answer.Agree a a') : Registry d (hist ++ [(c, a')]) := by
  refine ⟨hr.nodup, fun u => ?_, hr.dict⟩
  rw [hr.mem_iff u, enrolledAfter_snoc, enrolledAfter_snoc, Answer.about_agree hag]

section Lockstep

variable (cfg : Config) {fmt : FloatFormat F} {env env' : Env} {s t : Store F}

/-- `/enroll` decides alike on both stores, and a success saves on both. -/
theorem enroll_sim (hst : Sim fmt env env' s t) {req : EnrollRequest F}
    {image : Except (List ℕ) Image} {model : FaceModel F} {now : DateTime}
    (hv : (Call.enroll req image model now).Valid) :
    (enroll cfg fmt env s req image model now).1 = (enroll cfg fmt env' t req image model now).1 ∧
      Sim fmt env env' (enroll cfg fmt env s req image model now).2
        (enroll cfg fmt env' t req image model now).2 := by
  obtain ⟨hu, hn, hmeta⟩ := hv
  cases image with
  | error detail => exact ⟨rfl, hst⟩
  | ok img =>
    cases he : getEmbedding cfg.scipy img model with
    | error err => cases err <;> simp only [enroll, he, true_and] <;> exact hst
    | ok e =>
      by_cases hq : e.quality.score < cfg.qualityThreshold
      · simp only [enroll, he, hq, if_true, true_and]
        exact hst
      · obtain ⟨h1, h2, hnext⟩ := saveToGallery_sim hst hu e.embedding hn hmeta now
        simp only [enroll, he, hq, if_false, h1, h2, true_and]
        exact hnext

theorem unenroll_sim (hst : Sim fmt env env' s t) {u : List ℕ} (hu : ValidUserId u) :
    (unenroll env s u).1 = (unenroll env' t u).1 ∧
      Sim fmt env env' (unenroll env s u).2 (unenroll env' t u).2 := by
  obtain ⟨h1, h2, hnext⟩ := deleteFromGallery_sim hst hu
  cases hb : (deleteMemory t.faceGallery u).1 <;> simp only [unenroll, h1, h2, hb, true_and] <;>
    exact hnext

theorem listGallery_sim (hst : Sim fmt env env' s t) :
    Answer.Agree (listGallery fmt env s).1 (listGallery fmt env' t).1 ∧
      Sim fmt env env' (listGallery fmt env s).2 (listGallery fmt env' t).2 := by
  obtain ⟨⟨g, hg, hperm⟩, h2, hnext⟩ := getAllGallery_sim hst
  have hrel := mapM_perm (f := galleryUser) hperm
  simp only [listGallery, hg, h2, Option.bind_some]
  generalize g.mapM galleryUser = a, t.faceGallery.mapM galleryUser = b at hrel ⊢
  cases hrel with
  | none => exact ⟨.refl _, hnext⟩
  | some hp => exact ⟨.gallery hp, hnext⟩

/-- The step in lockstep: a valid call answers alike on both stores and keeps them mirrored. -/
theorem serve_sim (hst : Sim fmt env env' s t) {c : Call F} (hc : c.Valid) :
    Answer.Agree (serve cfg fmt env s c).1 (serve cfg fmt env' t c).1 ∧
      Sim fmt env env' (serve cfg fmt env s c).2 (serve cfg fmt env' t c).2 := by
  cases c with
  | enroll req image model now =>
    obtain ⟨h1, h2⟩ := enroll_sim cfg hst hc
    exact ⟨h1 ▸ .refl _, h2⟩
  | unenroll u =>
    obtain ⟨h1, h2⟩ := unenroll_sim hst hc
    exact ⟨h1 ▸ .refl _, h2⟩
  | listGallery => exact listGallery_sim hst

end Lockstep

/-! ## Whole runs -/

/-- The store after the history `hist`: kept in memory, with the registry of `hist` as its
gallery, or on Redis, mirroring a store in memory that has it. -/
def GalleryInv (fmt : FloatFormat F) (env : Env) (s : Store F) (hist : List (Call F × Answer F)) :
    Prop :=
  (getRedis env s.redisClient ≠ .connected ∧ Registry s.faceGallery hist) ∨
    ∃ env' t, Sim fmt env env' s t ∧ Registry t.faceGallery hist

/-- The service starts with no client and an empty gallery, whether `get_redis()` will connect
or not. -/
theorem galleryInv_start (fmt : FloatFormat F) (env : Env) :
    GalleryInv fmt env ⟨.none, [], []⟩ [] := by
  by_cases h : getRedis env .none = .connected
  · have hmem : getRedis ⟨"", false, id, List.Perm.refl⟩ RedisClient.none ≠ .connected := by
      simp [getRedis]
    exact .inr ⟨_, ⟨.none, [], []⟩, ⟨h, hmem, mirrors_nil⟩, registry_nil⟩
  · exact .inl ⟨h, registry_nil⟩

/-- The step lemma: a valid call answers right and keeps the invariant. -/
theorem galleryInv_serve (cfg : Config) {fmt : FloatFormat F} {env : Env} {s : Store F}
    {hist : List (Call F × Answer F)} (hi : GalleryInv fmt env s hist) {c : Call F}
    (hc : c.Valid) :
    RightAnswer hist c (serve cfg fmt env s c).1 ∧
      GalleryInv fmt env (serve cfg fmt env s c).2 (hist ++ [(c, (serve cfg fmt env s c).1)]) := by
  rcases hi with ⟨hm, hr⟩ | ⟨env', t, hst, hr⟩
  · obtain ⟨hright, hr', hm'⟩ := serve_memory fmt cfg hm hr c
    exact ⟨hright, .inl ⟨hm', hr'⟩⟩
  · -- on Redis the answer is the memory store's, up to the order of `/gallery`
    obtain ⟨hag, hst'⟩ := serve_sim cfg hst hc
    obtain ⟨hright, hr', -⟩ := serve_memory fmt cfg hst.memory hr c
    exact ⟨hright.agree hag.symm, .inr ⟨env', _, hst', hr'.agree hag.symm⟩⟩

/-- Over any run of valid calls from a fresh service, on Redis or in memory, every answer is
right for the calls answered before it: `/gallery` lists, once each, the users whose last
successful change was an enrolment, and a removal succeeds exactly for those. -/
theorem gallery_answers_right (cfg : Config) (fmt : FloatFormat F) (env : Env)
    {calls : List (Call F)} (hcalls : ∀ c ∈ calls, c.Valid) :
    Answered RightAnswer [] (calls.zip (outputs (serve cfg fmt env) ⟨.none, [], []⟩ calls)) :=
  answered_outputs (A := Call.Valid) (I := GalleryInv fmt env)
    (fun _ _ _ hi hc => galleryInv_serve cfg hi hc) (galleryInv_start fmt env) hcalls

theorem gallery_answers_right_redis :
    (∀ c ∈ [Call.enroll ⟨[0x75], some [0x41, 0x64, 0x61], none⟩ (.ok sampleImage) (.faces [sampleFace])
        ⟨2024, 5, 17, 9, 30, 0, 0⟩, .unenroll [0x75], .listGallery], Call.Valid (F := Fin (2 ^ 53)) c) ∧
      Answered RightAnswer []
        ([Call.enroll ⟨[0x75], some [0x41, 0x64, 0x61], none⟩ (.ok sampleImage) (.faces [sampleFace])
            ⟨2024, 5, 17, 9, 30, 0, 0⟩, .unenroll [0x75], .listGallery].zip
          (outputs (serve sampleConfig wholeFloats ⟨"redis://localhost:6379/0", true, id, List.Perm.refl⟩)
            ⟨.none, [], []⟩
            [.enroll ⟨[0x75], some [0x41, 0x64, 0x61], none⟩ (.ok sampleImage) (.faces [sampleFace])
              ⟨2024, 5, 17, 9, 30, 0, 0⟩, .unenroll [0x75], .listGallery])) := by
  have hcalls : ∀ c ∈ [Call.enroll ⟨[0x75], some [0x41, 0x64, 0x61], none⟩ (.ok sampleImage)
      (.faces [sampleFace]) ⟨2024, 5, 17, 9, 30, 0, 0⟩, .unenroll [0x75], .listGallery],
      Call.Valid (F := Fin (2 ^ 53)) c := by
    decide
  exact ⟨hcalls, gallery_answers_right _ _ _ hcalls⟩

end GoAttend.Face

end
