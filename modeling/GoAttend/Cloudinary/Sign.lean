import Mathlib
import GoAttend.Lib.Lex

/-! `internal/cloudinary`: the signature `sign` computes for an upload, over the parameters
`UploadBytes` and `UploadBase64` build. `sign` ranges over a Go map, in an order the runtime picks
afresh each time, and sorts the `key=value` strings it builds, so the signature does not depend on
that order. The names of the parameters are made of lowercase letters and `_`, which all come
after `=`, so the sorted strings are the parameters sorted by name: the string Cloudinary checks
the signature against. SHA-1 and its printing by `%x` are a parameter. The strings are text, where
the byte order of `sort.Strings` is the order of their characters. -/

namespace GoAttend.Cloudinary

open Lib.Lex

/-- `Client`: what the uploads send besides the image. -/
structure Client where
  cloudName : String
  apiKey : String
  apiSecret : String
  folder : String

/-- The keys `sign` leaves out of the signature. -/
def excludeKeys : List String := ["api_key", "file", "resource_type"]

/-- The parameters `sign` signs: those with a key it does not exclude and a value. -/
def signed (params : List (String × String)) : List (String × String) :=
  params.filter fun e => !excludeKeys.contains e.1 && e.2 != ""

/-- `sign`: `params` is the map as `range` enumerates it, and `sha1Hex` the hexadecimal SHA-1 of
the payload. -/
def sign (sha1Hex : String → String) (c : Client) (params : List (String × String)) : String :=
  let pairs := (signed params).map fun e => e.1 ++ "=" ++ e.2
  let pairs := pairs.mergeSort fun a b => decide (a ≤ b)
  let payload := "&".intercalate pairs ++ c.apiSecret
  sha1Hex payload

/-- The map `UploadBytes` and `UploadBase64` sign at Unix time `now`: `timestamp`, `api_key`, and
`folder` when the client has one. -/
def uploadParams (c : Client) (now : ℤ) : List (String × String) :=
  [("timestamp", toString now), ("api_key", c.apiKey)] ++
    if c.folder ≠ "" then [("folder", c.folder)] else []

/-! ## The signature -/

/-- The signature does not depend on the order in which `range` enumerates the map. -/
theorem sign_perm (sha1Hex : String → String) (c : Client) {params params' : List (String × String)}
    (h : params.Perm params') : sign sha1Hex c params = sign sha1Hex c params' := by
  simp only [sign, signed]
  rw [mergeSort_eq_of_perm ((h.filter _).map _)]

/-- Written as `key=value`, parameters whose names come after `=` compare as their names. -/
theorem pair_lt_pair {a b : String × String} (ha : ∀ ch ∈ a.1.toList, '=' < ch)
    (hb : ∀ ch ∈ b.1.toList, '=' < ch) (hab : a.1 < b.1) :
    a.1 ++ "=" ++ a.2 < b.1 ++ "=" ++ b.2 := by
  have hne : a.1.toList ≠ b.1.toList := fun h => (ne_of_lt hab) (String.toList_inj.mp h)
  rw [String.lt_iff_toList_lt] at hab ⊢
  simpa [String.toList_append] using (append_cons_lt_iff ha hb hne a.2.toList b.2.toList).mpr hab

/-- When the signed parameters' names come after `=`, `sign` signs them sorted by name: `ks` is
the signed parameters in the order of their names. -/
theorem sign_eq_of_sorted (sha1Hex : String → String) (c : Client) {params ks : List (String × String)}
    (hkeys : ∀ e ∈ params, ∀ ch ∈ e.1.toList, '=' < ch) (hks : ks.Perm (signed params))
    (hsorted : ks.Pairwise fun a b => a.1 < b.1) :
    sign sha1Hex c params =
      sha1Hex ("&".intercalate (ks.map fun e => e.1 ++ "=" ++ e.2) ++ c.apiSecret) := by
  have hmem : ∀ e ∈ ks, ∀ ch ∈ e.1.toList, '=' < ch := fun e he =>
    hkeys e (List.mem_of_mem_filter (hks.subset he))
  have hpairs : (ks.map fun e => e.1 ++ "=" ++ e.2).Pairwise (· ≤ ·) := by
    rw [List.pairwise_map]
    exact (hsorted.imp_of_mem fun ha hb hab => (pair_lt_pair (hmem _ ha) (hmem _ hb) hab).le)
  simp only [sign]
  rw [mergeSort_map_eq _ hks hpairs]

theorem toString_int_ne_empty (now : ℤ) : toString now ≠ "" := by
  cases now with
  | ofNat n => exact Nat.repr_ne_empty
  | negSucc n => simp [toString, Int.repr]

/-- Whatever the order `range` picks, an upload at Unix time `now` signs
`folder=<folder>&timestamp=<now>` (without the folder when the client has none) followed by the
API secret: the parameters but `api_key`, sorted by name. -/
theorem upload_signature (sha1Hex : String → String) (c : Client) (now : ℤ)
    {order : List (String × String)} (horder : order.Perm (uploadParams c now)) :
    sign sha1Hex c order =
      sha1Hex ((if c.folder = "" then "" else "folder=" ++ c.folder ++ "&") ++ "timestamp=" ++
        toString now ++ c.apiSecret) := by
  have hts : now.repr ≠ "" := toString_int_ne_empty now
  rw [sign_perm sha1Hex c horder]
  have hkeys : ∀ e ∈ uploadParams c now, ∀ ch ∈ e.1.toList, '=' < ch := by
    intro e he
    simp only [uploadParams, List.mem_append, List.mem_cons, List.not_mem_nil, or_false] at he
    rcases he with (rfl | rfl) | he
    · simp
    · simp
    · split_ifs at he
      · rw [List.mem_singleton] at he
        subst he
        simp
      · simp at he
  by_cases hf : c.folder = ""
  · have hperm : [("timestamp", toString now)].Perm (signed (uploadParams c now)) := by
      simp [signed, uploadParams, excludeKeys, hf, hts]
    rw [sign_eq_of_sorted sha1Hex c hkeys hperm (List.pairwise_singleton _ _)]
    congr 1
    rw [← String.toList_inj]
    simp [hf]
  · -- the folder's name comes first
    have hperm : [("folder", c.folder), ("timestamp", toString now)].Perm
        (signed (uploadParams c now)) := by
      simpa [signed, uploadParams, excludeKeys, hf, hts] using
        List.Perm.swap ("timestamp", toString now) ("folder", c.folder) []
    have hlt : ("folder" : String) < "timestamp" := by
      rw [String.lt_iff_toList_lt]
      simp [List.cons_lt_cons_iff]
    rw [sign_eq_of_sorted sha1Hex c hkeys hperm (by simpa using hlt)]
    congr 1
    rw [← String.toList_inj]
    simp [hf]

theorem upload_signature_goattend :
    sign id ⟨"demo", "key", "secret", "goattend"⟩
        (uploadParams ⟨"demo", "key", "secret", "goattend"⟩ 1700000000) =
      id ((if ("goattend" : String) = "" then "" else "folder=" ++ "goattend" ++ "&") ++
        "timestamp=" ++ toString (1700000000 : ℤ) ++ "secret") :=
  upload_signature id ⟨"demo", "key", "secret", "goattend"⟩ 1700000000 (List.Perm.refl _)

end GoAttend.Cloudinary
