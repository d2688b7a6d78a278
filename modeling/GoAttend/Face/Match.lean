import GoAttend.Lib.Rounding
import GoAttend.Lib.StableSort
import Mathlib.Analysis.Real.Sqrt

/-! `face-service/main.py`: the matching endpoints `/search`, `/identify` and `/verify` against
the enrolled gallery. The face model is abstracted: each endpoint receives the embedding it
extracted from the probe image. Similarities are computed exactly over the reals, and
`round(x, 4)` is exact decimal rounding with ties to even. -/

namespace GoAttend.Face

open Lib.Rounding Lib.StableSort

/-- `cosine_similarity`: the dot product over the product of the Euclidean norms, `0.0` when
either norm is zero. -/
noncomputable def cosineSimilarity (emb1 emb2 : List ℝ) : ℝ :=
  let dot := (List.zipWith (· * ·) emb1 emb2).sum
  let normA := √(emb1.map (· ^ 2)).sum
  let normB := √(emb2.map (· ^ 2)).sum
  if normA = 0 ∨ normB = 0 then 0 else dot / (normA * normB)

/-- A gallery record: the fields of the stored dict that the matching endpoints read. -/
structure Record where
  embedding : List ℝ
  name : Option String

/-- `get_all_gallery()`: the enrolled user ids with their records, in the order the dict (or the
Redis hash) yields them; a user id is a key, so it occurs once. -/
structure Gallery where
  entries : List (String × Record)
  nodup : (entries.map Prod.fst).Nodup

/-- `load_from_gallery(user_id)`. -/
def Gallery.load (g : Gallery) (userId : String) : Option Record :=
  (g.entries.find? fun e => e.1 == userId).map Prod.snd

structure SearchMatch where
  userId : String
  similarity : ℝ
  name : Option String

/-- `IdentifyRequest` after validation: `top_k` defaults to 3 and lies in `[1, 20]`. -/
structure IdentifyRequest where
  topK : ℕ := 3
  one_le_topK : 1 ≤ topK := by decide
  topK_le : topK ≤ 20 := by decide

/-- `IdentifyResponse`, without the quality and liveness reports; `matchList` is `matches`. -/
structure IdentifyResponse where
  identified : Bool
  matchList : List SearchMatch
  bestMatch : Option SearchMatch

/-- `VerifyResponse`, without the quality report. -/
structure VerifyResponse where
  userId : String
  verified : Bool
  similarity : ℝ
  threshold : ℝ

section Endpoints

variable (matchThreshold : ℝ) (g : Gallery) (embedding : List ℝ)

/-- The `SearchMatch` the loop of `/search` and `/identify` appends for a user. -/
noncomputable def toMatch (e : String × Record) : SearchMatch :=
  ⟨e.1, roundTo 4 (cosineSimilarity embedding e.2.embedding), e.2.name⟩

/-- The loop shared by `/search` and `/identify`: the users whose similarity is at least
`cutoff`, in gallery order, with rounded similarities; then `matches.sort(key=similarity,
reverse=True)` and `matches[:top_k]`. -/
noncomputable def rankMatches (cutoff : ℝ) (topK : ℕ) : List SearchMatch :=
  let found := (g.entries.filter fun e => cutoff ≤ cosineSimilarity embedding e.2.embedding).map
    (toMatch embedding)
  (sortDesc SearchMatch.similarity found).take topK

/-- `POST /identify`: candidates down to `0.8 * MATCH_THRESHOLD` are listed, and the first of
them is the best match when its rounded similarity reaches the threshold. -/
noncomputable def identify (request : IdentifyRequest) : IdentifyResponse :=
  if g.entries.isEmpty then ⟨false, [], none⟩ else
    let found := rankMatches g embedding (matchThreshold * 0.8) request.topK
    let bestMatch := match found.head? with
      | some m => if matchThreshold ≤ m.similarity then some m else none
      | none => none
    ⟨bestMatch.isSome, found, bestMatch⟩

/-- `POST /verify`: a user that is not enrolled is a 404; otherwise the exact similarity is
compared with the threshold. -/
noncomputable def verify (userId : String) : Except String VerifyResponse :=
  match g.load userId with
  | none => .error ("User " ++ userId ++ " not enrolled")
  | some stored =>
    let similarity := cosineSimilarity embedding stored.embedding
    .ok ⟨userId, decide (matchThreshold ≤ similarity), roundTo 4 similarity, matchThreshold⟩

end Endpoints

/-- A user id selects the one entry with that id. -/
theorem find?_eq_some_iff {entries : List (String × Record)} (hnd : (entries.map Prod.fst).Nodup)
    {u : String} {rec : Record} :
    (entries.find? fun e => e.1 == u) = some (u, rec) ↔ (u, rec) ∈ entries := by
  induction entries with
  | nil => simp
  | cons a rest ih =>
    rw [List.map_cons, List.nodup_cons] at hnd
    by_cases ha : a.1 = u
    · -- the head has the id, so no later entry does
      have hu : (u, rec) ∉ rest := fun h => hnd.1 (ha ▸ List.mem_map_of_mem h)
      rw [List.find?_cons_of_pos (by simp [ha])]
      simp only [Option.some.injEq, List.mem_cons, hu, or_false]
      exact eq_comm
    · have hne : (u, rec) ≠ a := fun h => ha (h ▸ rfl)
      rw [List.find?_cons_of_neg (by simp [ha]), ih hnd.2]
      simp [hne]

theorem Gallery.load_eq_some_iff (g : Gallery) {u : String} {rec : Record} :
    g.load u = some rec ↔ (u, rec) ∈ g.entries := by
  rw [← find?_eq_some_iff g.nodup]
  unfold Gallery.load
  constructor
  · intro h
    obtain ⟨e, he, rfl⟩ := Option.map_eq_some_iff.mp h
    have hu : e.1 = u := by simpa using List.find?_some he
    rw [he, ← hu]
  · intro h
    rw [h, Option.map_some]

section Lemmas

variable {matchThreshold : ℝ} {g : Gallery} {embedding : List ℝ}

/-- The best match of a ranking: its head, when that reaches the threshold. -/
theorem identify_eq (request : IdentifyRequest) :
    identify matchThreshold g embedding request =
      let found := rankMatches g embedding (matchThreshold * 0.8) request.topK
      let bestMatch := found.head?.filter fun m => matchThreshold ≤ m.similarity
      ⟨bestMatch.isSome, found, bestMatch⟩ := by
  unfold identify
  split_ifs with h
  · rw [List.isEmpty_iff] at h
    simp [rankMatches, h, sortDesc_nil]
  · simp only
    cases (rankMatches g embedding (matchThreshold * 0.8) request.topK).head? with
    | none => rfl
    | some m => by_cases hm : matchThreshold ≤ m.similarity <;> simp [hm, Option.filter]

theorem verify_of_mem {u : String} {rec : Record} (h : (u, rec) ∈ g.entries) :
    verify matchThreshold g embedding u =
      .ok ⟨u, decide (matchThreshold ≤ cosineSimilarity embedding rec.embedding),
        roundTo 4 (cosineSimilarity embedding rec.embedding), matchThreshold⟩ := by
  unfold verify
  rw [(g.load_eq_some_iff).mpr h]

end Lemmas

/-- The band below the threshold: a user whose similarity `7076 / 15725 ≈ 0.449984` rounds to the
threshold `0.45`. -/
theorem cosineSimilarity_band : cosineSimilarity [1, 0] [7076, 14043] = 7076 / 15725 := by
  have hb : √((7076 : ℝ) ^ 2 + 14043 ^ 2) = 15725 := by
    rw [show (7076 : ℝ) ^ 2 + 14043 ^ 2 = 15725 ^ 2 by norm_num]
    exact Real.sqrt_sq (by norm_num)
  unfold cosineSimilarity
  simp [hb]

theorem roundTo_band : roundTo 4 (7076 / 15725 : ℝ) = 0.45 := by
  rw [roundTo_eq_of_abs_lt (n := 4500) (by rw [abs_lt]; norm_num)]
  norm_num

/-- `/identify` names a user that `/verify` rejects for the same probe: the user's similarity is
below the threshold, and its rounding is not. -/
theorem identify_names_unverified_user :
    let g : Gallery := ⟨[("u", ⟨[7076, 14043], none⟩)], by simp⟩
    cosineSimilarity [1, 0] [7076, 14043] < 0.45 ∧
      (identify 0.45 g [1, 0] {}).identified = true ∧
      (identify 0.45 g [1, 0] {}).bestMatch = some ⟨"u", 0.45, none⟩ ∧
      verify 0.45 g [1, 0] "u" = .ok ⟨"u", false, 0.45, 0.45⟩ := by
  intro g
  have hpass : (0.45 : ℝ) * 0.8 ≤ 7076 / 15725 := by norm_num
  have hbelow : ¬(0.45 : ℝ) ≤ 7076 / 15725 := by norm_num
  have hfound : rankMatches g [1, 0] (0.45 * 0.8) 3 = [⟨"u", 0.45, none⟩] := by
    simp [rankMatches, g, toMatch, cosineSimilarity_band, roundTo_band, hpass, sortDesc]
  refine ⟨by rw [cosineSimilarity_band]; norm_num, ?_, ?_, ?_⟩
  · simp [identify_eq, hfound]
  · simp [identify_eq, hfound, Option.filter]
  · rw [verify_of_mem (List.mem_singleton_self _), cosineSimilarity_band, roundTo_band]
    simp [hbelow]

end GoAttend.Face
