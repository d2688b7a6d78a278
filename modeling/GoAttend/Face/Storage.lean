import GoAttend.Lib.Transition
import GoAttend.Lib.PyJson.Ascii

/-! `face-service/main.py`: the face gallery, kept in the `face_gallery` hash of Redis when
`get_redis()` connects and in the `face_gallery` dict of the process otherwise. A record is the dict
`save_to_gallery` builds; the Redis branch stores its `json.dumps` as UTF-8 bytes under the UTF-8
bytes of the user id and reads it back with `json.loads`. The Redis server is a hash of byte
strings under `HSET`, `HGET`, `HDEL` and `HGETALL`, the last listing the fields in an order of the
server's choosing. -/

namespace GoAttend.Face

open Lib Lib.Dict Lib.PyJson

/-! ## The client and the server -/

/-- `redis_client`: `None`, the string `"unavailable"`, or a connection. -/
inductive RedisClient
  | none
  | unavailable
  | connected
  deriving DecidableEq, Repr

abbrev Hash := List (List UInt8 × List UInt8)

/-- `REDIS_URL`, whether the server answers `ping()`, and its `HGETALL` order. -/
structure Env where
  redisUrl : String
  reachable : Bool
  hgetallOrder : Hash → Hash
  perm_hgetallOrder : ∀ h, (hgetallOrder h).Perm h

/-- `get_redis()`: the first call with `REDIS_URL` set tries to connect, and its outcome stays. -/
def getRedis (env : Env) : RedisClient → RedisClient
  | .none => if env.redisUrl ≠ "" then (if env.reachable then .connected else .unavailable) else .none
  | c => c

/-- `HSET`; redis-py raises `UnicodeEncodeError` on a surrogate in the field. -/
def hset (h : Hash) (field : List ℕ) (value : List UInt8) : Option Hash :=
  (encodeUtf8 field).map fun f => setItem h f value

def hget (h : Hash) (field : List ℕ) : Option (Option (List UInt8)) :=
  (encodeUtf8 field).map (get h)

def hdel (h : Hash) (field : List ℕ) : Option (ℕ × Hash) :=
  (encodeUtf8 field).map fun f => (if (keys h).contains f then 1 else 0, erase h f)

/-! ## Records -/

/-- A naive `datetime`, as `datetime.utcnow()` returns it. -/
structure DateTime where
  year : ℕ
  month : ℕ
  day : ℕ
  hour : ℕ
  minute : ℕ
  second : ℕ
  microsecond : ℕ

def zeroPad (w n : ℕ) : List ℕ := List.replicate (w - (decimal n).length) 0x30 ++ decimal n

/-- `datetime.isoformat()`: `.ffffff` only for nonzero microseconds. -/
def DateTime.isoformat (t : DateTime) : List ℕ :=
  zeroPad 4 t.year ++ 0x2D :: zeroPad 2 t.month ++ 0x2D :: zeroPad 2 t.day ++ 0x54 ::
    zeroPad 2 t.hour ++ 0x3A :: zeroPad 2 t.minute ++ 0x3A :: zeroPad 2 t.second ++
    (if t.microsecond = 0 then [] else 0x2E :: zeroPad 6 t.microsecond)

variable {F : Type}

/-- The dict `save_to_gallery` builds; `metadata or {}` is `{}` for `None`. -/
def galleryData (embedding : List F) (name : Value F) (metadata : Option (List (List ℕ × Value F)))
    (now : DateTime) : Value F :=
  .dict [(lit "embedding", .list (embedding.map .float)), (lit "name", name),
    (lit "metadata", .dict (metadata.getD [])), (lit "enrolled_at", .str now.isoformat)]

/-- The client, the `face_gallery` hash on the server, and the `face_gallery` dict. -/
structure Store (F : Type) where
  redisClient : RedisClient
  hash : Hash
  faceGallery : List (List ℕ × Value F)

inductive Op (F : Type)
  | save (userId : List ℕ) (embedding : List F) (name : Value F)
      (metadata : Option (List (List ℕ × Value F))) (now : DateTime)
  | load (userId : List ℕ)
  | getAll
  | delete (userId : List ℕ)

inductive Reply (F : Type)
  | saved
  | record (r : Option (Value F))
  | gallery (g : List (List ℕ × Value F))
  | deleted (b : Bool)

/-! ## The gallery functions -/

section Functions

variable (fmt : FloatFormat F) (env : Env)

/-- The Redis branch of `save_to_gallery`: `json.dumps(data).encode()` set under the user id. -/
def saveRedis (h : Hash) (userId : List ℕ) (data : Value F) : Option Hash :=
  ((data.dumps fmt).bind encodeUtf8).bind (hset h userId)

/-- The Redis branch of `load_from_gallery`; `if data:` is false on empty bytes too. -/
def loadRedis (h : Hash) (userId : List ℕ) : Option (Option (Value F)) :=
  (hget h userId).bind fun data =>
    match data with
    | some b => if b = [] then some none else (loadsBytes fmt b).map some
    | none => some none

/-- An item of the comprehension in `get_all_gallery`: `k.decode(): json.loads(v)`. -/
def loadEntry (e : List UInt8 × List UInt8) : Option (List ℕ × Value F) :=
  (decodeUtf8 e.1).bind fun k => (loadsBytes fmt e.2).map fun v => (k, v)

/-- The Redis branch of `get_all_gallery`: `{k.decode(): json.loads(v) for k, v in HGETALL}`. -/
def getAllRedis (h : Hash) : Option (List (List ℕ × Value F)) :=
  ((env.hgetallOrder h).mapM (loadEntry fmt)).map ofPairs

def deleteRedis (h : Hash) (userId : List ℕ) : Option (Bool × Hash) :=
  (hdel h userId).map fun r => (decide (0 < r.1), r.2)

def deleteMemory (d : List (List ℕ × Value F)) (userId : List ℕ) :
    Bool × List (List ℕ × Value F) :=
  if userId ∈ keys d then (true, erase d userId) else (false, d)

/-- The store after the `get_redis()` each gallery function starts with. -/
def Store.connect (s : Store F) : Store F := { s with redisClient := getRedis env s.redisClient }

/-- `save_to_gallery`: `none` where it raises. -/
def saveToGallery (s : Store F) (userId : List ℕ) (embedding : List F) (name : Value F)
    (metadata : Option (List (List ℕ × Value F))) (now : DateTime) : Option Unit × Store F :=
  let data := galleryData embedding name metadata now
  let s := s.connect env
  if s.redisClient = .connected then
    match saveRedis fmt s.hash userId data with
    | some h => (some (), { s with hash := h })
    | none => (none, s)
  else (some (), { s with faceGallery := setItem s.faceGallery userId data })

def loadFromGallery (s : Store F) (userId : List ℕ) : Option (Option (Value F)) × Store F :=
  let s := s.connect env
  (if s.redisClient = .connected then loadRedis fmt s.hash userId
    else some (get s.faceGallery userId), s)

/-- `get_all_gallery`: the dict branch returns `face_gallery.copy()`. -/
def getAllGallery (s : Store F) : Option (List (List ℕ × Value F)) × Store F :=
  let s := s.connect env
  (if s.redisClient = .connected then getAllRedis fmt env s.hash else some s.faceGallery, s)

def deleteFromGallery (s : Store F) (userId : List ℕ) : Option Bool × Store F :=
  let s := s.connect env
  if s.redisClient = .connected then
    match deleteRedis s.hash userId with
    | some (b, h) => (some b, { s with hash := h })
    | none => (none, s)
  else
    let r := deleteMemory s.faceGallery userId
    (some r.1, { s with faceGallery := r.2 })

/-- One call: its answer, `none` where it raises, and the store after it. -/
def Store.step (s : Store F) : Op F → Option (Reply F) × Store F
  | .save u e n m t =>
    let r := saveToGallery fmt env s u e n m t
    (r.1.map fun _ => .saved, r.2)
  | .load u =>
    let r := loadFromGallery fmt env s u
    (r.1.map .record, r.2)
  | .getAll =>
    let r := getAllGallery fmt env s
    (r.1.map .gallery, r.2)
  | .delete u =>
    let r := deleteFromGallery env s u
    (r.1.map .deleted, r.2)

def Store.run (s : Store F) (ops : List (Op F)) : List (Option (Reply F)) :=
  outputs (Store.step fmt env) s ops

end Functions

/-! ## Which branch runs -/

section Client

variable (env : Env)

@[simp]
theorem getRedis_getRedis (c : RedisClient) : getRedis env (getRedis env c) = getRedis env c := by
  cases c with
  | none =>
    simp only [getRedis]
    split_ifs <;> rfl
  | unavailable => rfl
  | connected => rfl

@[simp]
theorem redisClient_connect (s : Store F) :
    (s.connect env).redisClient = getRedis env s.redisClient := rfl

@[simp]
theorem hash_connect (s : Store F) : (s.connect env).hash = s.hash := rfl

@[simp]
theorem faceGallery_connect (s : Store F) : (s.connect env).faceGallery = s.faceGallery := rfl

theorem getRedis_none_of_reachable (h : env.redisUrl ≠ "" ∧ env.reachable = true) :
    getRedis env .none = .connected := by
  simp [getRedis, h.1, h.2]

theorem getRedis_none_of_unreachable (h : env.redisUrl = "" ∨ env.reachable = false) :
    getRedis env .none ≠ .connected := by
  rcases h with h | h
  · simp [getRedis, h]
  · simp only [getRedis, h, Bool.false_eq_true, if_false]
    split_ifs <;> simp

end Client

/-! ## Bytes on the server -/

/-- A user id redis-py can encode: no surrogate. -/
def ValidUserId (u : List ℕ) : Prop := ∀ c ∈ u, c.isValidChar

instance : DecidablePred ValidUserId := fun u => inferInstanceAs (Decidable (∀ c ∈ u, c.isValidChar))

def utf8Bytes (s : List ℕ) : List UInt8 := Utf8.encode (s.map Char.ofNat)

theorem encodeUtf8_of_valid {u : List ℕ} (hu : ValidUserId u) : encodeUtf8 u = some (utf8Bytes u) :=
  encodeUtf8_of_isValidChar hu

theorem utf8Bytes_inj {u v : List ℕ} (hu : ValidUserId u) (hv : ValidUserId v)
    (h : utf8Bytes u = utf8Bytes v) : u = v :=
  encodeUtf8_inj (encodeUtf8_of_valid hu) (h ▸ encodeUtf8_of_valid hv)

theorem decodeUtf8_utf8Bytes {u : List ℕ} (hu : ValidUserId u) : decodeUtf8 (utf8Bytes u) = some u :=
  decodeUtf8_of_encodeUtf8 (encodeUtf8_of_valid hu)

section Commands

variable (h : Hash) {u : List ℕ}

theorem hset_of_valid (hu : ValidUserId u) (b : List UInt8) :
    hset h u b = some (setItem h (utf8Bytes u) b) := by
  simp [hset, encodeUtf8_of_valid hu]

theorem hget_of_valid (hu : ValidUserId u) : hget h u = some (get h (utf8Bytes u)) := by
  simp [hget, encodeUtf8_of_valid hu]

theorem hdel_of_valid (hu : ValidUserId u) :
    hdel h u = some (if (keys h).contains (utf8Bytes u) then 1 else 0, erase h (utf8Bytes u)) := by
  simp [hdel, encodeUtf8_of_valid hu]

end Commands

section Values

variable (fmt : FloatFormat F)

/-- The bytes `json.dumps(v).encode()` stores. -/
def valueBytes (v : Value F) : List UInt8 := utf8Bytes ((v.dumps fmt).getD [])

variable {v : Value F} {t : List ℕ}

theorem encodeUtf8_dumps (ht : v.dumps fmt = some t) : encodeUtf8 t = some (valueBytes fmt v) := by
  rw [valueBytes, ht, Option.getD_some]
  exact encodeUtf8_of_lt (dumps_lt fmt v ht)

theorem loadsBytes_valueBytes (hv : v.wellFormed = true) (ht : v.dumps fmt = some t) :
    loadsBytes fmt (valueBytes fmt v) = some v.loaded := by
  obtain ⟨b, hb, hl⟩ := loadsBytes_dumps fmt hv ht
  rw [encodeUtf8_dumps fmt ht, Option.some.injEq] at hb
  rw [hb, hl]

/-- `json.loads(b"")` raises, so stored bytes are never empty. -/
theorem valueBytes_ne_nil (hv : v.wellFormed = true) (ht : v.dumps fmt = some t) :
    valueBytes fmt v ≠ [] := by
  intro hnil
  have hl := loadsBytes_valueBytes fmt hv ht
  rw [hnil] at hl
  exact absurd hl (by simp [loadsBytes, decodeUtf8, Utf8.sanitize, decode, scanOnce])

end Values

/-! ## Records `json` gives back unchanged -/

theorem zeroPad_lt (w n : ℕ) : ∀ c ∈ zeroPad w n, c < 0x80 := by
  intro c hc
  rcases List.mem_append.mp hc with hc | hc
  · rw [List.eq_of_mem_replicate hc]
    decide
  · exact isDigit_lt (isDigit_of_mem_decimal n c hc)

theorem isoformat_lt (t : DateTime) : ∀ c ∈ t.isoformat, c < 0x80 := by
  unfold DateTime.isoformat
  -- what is left after the separators are the zero-padded fields
  split_ifs <;> simp only [List.forall_mem_append, List.forall_mem_cons, List.not_mem_nil,
    IsEmpty.forall_iff, implies_true, and_true] <;> repeat' constructor
  all_goals exact zeroPad_lt _ _

theorem strRoundTrips_isoformat (t : DateTime) : strRoundTrips t.isoformat = true :=
  strRoundTrips_of_lt fun c hc => (isoformat_lt t c hc).trans (by decide)

theorem roundTrips_floats (embedding : List F) :
    (Value.list (embedding.map Value.float)).roundTrips = true := by
  rw [Value.roundTrips, itemsRoundTrip_iff]
  intro v hv
  obtain ⟨x, -, rfl⟩ := List.mem_map.mp hv
  rfl

theorem nodup_recordKeys : [lit "embedding", lit "name", lit "metadata", lit "enrolled_at"].Nodup := by
  decide

theorem strRoundTrips_recordKeys :
    ∀ k ∈ [lit "embedding", lit "name", lit "metadata", lit "enrolled_at"], strRoundTrips k = true := by
  decide

section Record

variable (embedding : List F) {name : Value F} {metadata : Option (List (List ℕ × Value F))}
  (now : DateTime)

theorem roundTrips_galleryData (hn : name.roundTrips = true)
    (hm : (Value.dict (metadata.getD [])).roundTrips = true) :
    (galleryData embedding name metadata now).roundTrips = true := by
  have hk := strRoundTrips_recordKeys
  simp only [List.forall_mem_cons, List.not_mem_nil, IsEmpty.forall_iff, implies_true,
    and_true] at hk
  rw [galleryData, Value.roundTrips, Bool.and_eq_true, decide_eq_true_eq, membersRoundTrip_iff]
  simp only [keys_cons, keys_nil, nodup_recordKeys, List.forall_mem_cons, List.not_mem_nil,
    IsEmpty.forall_iff, implies_true, and_true, true_and]
  exact ⟨⟨hk.1, roundTrips_floats embedding⟩, ⟨hk.2.1, hn⟩, ⟨hk.2.2.1, hm⟩,
    ⟨hk.2.2.2, strRoundTrips_isoformat now⟩⟩

theorem wellFormed_galleryData (hn : name.wellFormed = true)
    (hm : (Value.dict (metadata.getD [])).wellFormed = true) :
    (galleryData embedding name metadata now).wellFormed = true := by
  have hnow : ∀ c ∈ now.isoformat, c < 0x110000 :=
    fun c hc => (isoformat_lt now c hc).trans (by decide)
  rw [galleryData, Value.wellFormed, membersWellFormed_iff]
  simp only [List.forall_mem_cons, List.not_mem_nil, IsEmpty.forall_iff, implies_true, and_true]
  exact ⟨⟨by decide, wellFormed_of_roundTrips (roundTrips_floats embedding)⟩, ⟨by decide, hn⟩,
    ⟨by decide, hm⟩, ⟨by decide, by simpa [Value.wellFormed] using hnow⟩⟩

theorem loaded_galleryData (name : Value F) (hm : (Value.dict (metadata.getD [])).roundTrips = true) :
    (galleryData embedding name metadata now).loaded = galleryData embedding name.loaded metadata now := by
  have hnow : (Value.str now.isoformat : Value F).roundTrips = true := strRoundTrips_isoformat now
  rw [galleryData, loaded_dict (by simpa using strRoundTrips_recordKeys) (by simpa using nodup_recordKeys)]
  simp only [List.map_cons, List.map_nil, loaded_of_roundTrips (roundTrips_floats embedding),
    loaded_of_roundTrips hm, loaded_of_roundTrips hnow, galleryData]

end Record

/-! ## The hash a Redis-backed store keeps for a dict -/

section Mirror

variable (fmt : FloatFormat F)

/-- The hash holds each record's `json.dumps` bytes under its user id's bytes. -/
structure Mirrors (h : Hash) (d : List (List ℕ × Value F)) : Prop where
  valid : ∀ u ∈ keys d, ValidUserId u
  roundTrips : ∀ e ∈ d, e.2.roundTrips = true
  nodup : (keys d).Nodup
  hash_eq : h = encode utf8Bytes (valueBytes fmt) d

variable {fmt} {h : Hash} {d : List (List ℕ × Value F)} {u : List ℕ}

theorem mirrors_nil : Mirrors fmt [] ([] : List (List ℕ × Value F)) :=
  ⟨by simp, by simp, List.nodup_nil, rfl⟩

theorem Mirrors.inj (hm : Mirrors fmt h d) (hu : ValidUserId u) :
    ∀ k ∈ keys d, utf8Bytes k = utf8Bytes u → k = u :=
  fun k hk => utf8Bytes_inj (hm.valid k hk) hu

theorem Mirrors.get (hm : Mirrors fmt h d) (hu : ValidUserId u) :
    get h (utf8Bytes u) = (get d u).map (valueBytes fmt) := by
  rw [hm.hash_eq, get_encode (hm.inj hu)]

theorem Mirrors.mem_keys (hm : Mirrors fmt h d) (hu : ValidUserId u) :
    utf8Bytes u ∈ keys h ↔ u ∈ keys d := by
  rw [hm.hash_eq, mem_keys_encode_iff (hm.inj hu)]

theorem Mirrors.setItem (hm : Mirrors fmt h d) (hu : ValidUserId u) {v : Value F}
    (hv : v.roundTrips = true) :
    Mirrors fmt (Dict.setItem h (utf8Bytes u) (valueBytes fmt v)) (Dict.setItem d u v) where
  valid k hk := by
    rcases mem_keys_setItem.mp hk with rfl | hk
    · exact hu
    · exact hm.valid k hk
  roundTrips e he := by
    rcases mem_setItem he with rfl | he
    · exact hv
    · exact hm.roundTrips e he
  nodup := nodup_keys_setItem hm.nodup u v
  hash_eq := by rw [hm.hash_eq, encode_setItem v (hm.inj hu)]

theorem Mirrors.erase (hm : Mirrors fmt h d) (hu : ValidUserId u) :
    Mirrors fmt (Dict.erase h (utf8Bytes u)) (Dict.erase d u) where
  valid k hk := hm.valid k ((List.filter_sublist.map Prod.fst).subset hk)
  roundTrips e he := hm.roundTrips e (List.mem_of_mem_filter he)
  nodup := nodup_keys_erase hm.nodup u
  hash_eq := by rw [hm.hash_eq, encode_erase (hm.inj hu)]

end Mirror

/-! ## Each gallery function on mirrored stores -/

section Branches

variable (fmt : FloatFormat F) (env : Env) {h : Hash} {d : List (List ℕ × Value F)} {u : List ℕ}

/-- A user id with a surrogate makes every Redis call raise: redis-py cannot encode it. -/
theorem redis_raises_of_invalid (h : Hash) (hu : ¬ ValidUserId u) (data : Value F) :
    saveRedis fmt h u data = none ∧ loadRedis fmt h u = none ∧ deleteRedis h u = none := by
  have he : encodeUtf8 u = none := encodeUtf8_eq_none_iff.mpr (by simpa [ValidUserId] using hu)
  refine ⟨?_, ?_, ?_⟩
  · rw [saveRedis]
    cases (data.dumps fmt).bind encodeUtf8 <;> simp [hset, he]
  · simp [loadRedis, hget, he]
  · simp [deleteRedis, hdel, he]

theorem saveRedis_of_valid (h : Hash) (hu : ValidUserId u) {v : Value F} {t : List ℕ}
    (ht : v.dumps fmt = some t) : saveRedis fmt h u v = some (setItem h (utf8Bytes u) (valueBytes fmt v)) := by
  rw [saveRedis, ht, Option.bind_some, encodeUtf8_dumps fmt ht, Option.bind_some, hset_of_valid h hu]

theorem loadRedis_of_get (hu : ValidUserId u) {v : Value F} (hv : v.wellFormed = true) {t : List ℕ}
    (ht : v.dumps fmt = some t) (hg : get h (utf8Bytes u) = some (valueBytes fmt v)) :
    loadRedis fmt h u = some (some v.loaded) := by
  rw [loadRedis, hget_of_valid h hu, Option.bind_some, hg]
  simp only [if_neg (valueBytes_ne_nil fmt hv ht), loadsBytes_valueBytes fmt hv ht, Option.map_some]

/-- What Redis gives back of a saved record: its strings' surrogate pairs joined. -/
theorem loadRedis_saveRedis (h : Hash) (hu : ValidUserId u) {v : Value F} (hv : v.wellFormed = true)
    {t : List ℕ} (ht : v.dumps fmt = some t) :
    ∃ h', saveRedis fmt h u v = some h' ∧ loadRedis fmt h' u = some (some v.loaded) :=
  ⟨_, saveRedis_of_valid fmt h hu ht, loadRedis_of_get fmt hu hv ht (by simp [get_setItem])⟩

theorem saveRedis_mirrors (hm : Mirrors fmt h d) (hu : ValidUserId u) {v : Value F}
    (hv : v.roundTrips = true) : ∃ h', saveRedis fmt h u v = some h' ∧ Mirrors fmt h' (setItem d u v) := by
  obtain ⟨t, ht⟩ := dumps_isSome fmt hv
  exact ⟨_, saveRedis_of_valid fmt h hu ht, hm.setItem hu hv⟩

theorem loadRedis_mirrors (hm : Mirrors fmt h d) (hu : ValidUserId u) :
    loadRedis fmt h u = some (get d u) := by
  cases hg : get d u with
  | none => rw [loadRedis, hget_of_valid h hu, Option.bind_some, hm.get hu, hg]; rfl
  | some v =>
    -- a stored record is read back as it was saved
    have hv := hm.roundTrips (u, v) (mem_of_get_eq_some hg)
    obtain ⟨t, ht⟩ := dumps_isSome fmt hv
    rw [loadRedis_of_get fmt hu (wellFormed_of_roundTrips hv) ht (by rw [hm.get hu, hg]; rfl),
      loaded_of_roundTrips hv]

theorem loadEntry_encode {e : List ℕ × Value F} (hu : ValidUserId e.1) (hv : e.2.roundTrips = true) :
    loadEntry fmt (utf8Bytes e.1, valueBytes fmt e.2) = some e := by
  obtain ⟨t, ht⟩ := dumps_isSome fmt hv
  simp [loadEntry, decodeUtf8_utf8Bytes hu, loadsBytes_valueBytes fmt (wellFormed_of_roundTrips hv) ht,
    loaded_of_roundTrips hv]

/-- Redis lists the gallery in its own order: the same entries as the dict. -/
theorem getAllRedis_mirrors (hm : Mirrors fmt h d) :
    ∃ g, getAllRedis fmt env h = some g ∧ g.Perm d := by
  have hentry : ∀ e ∈ d, loadEntry fmt (utf8Bytes e.1, valueBytes fmt e.2) = some e :=
    fun e he => loadEntry_encode fmt (hm.valid e.1 (List.mem_map_of_mem he)) (hm.roundTrips e he)
  have hdecode : h.filterMap (loadEntry fmt) = d := by
    rw [hm.hash_eq, encode, List.filterMap_map]
    conv_rhs => rw [← List.filterMap_some (l := d)]
    exact List.filterMap_congr fun e he => hentry e he
  have hperm := env.perm_hgetallOrder h
  have hsome : ∀ e ∈ env.hgetallOrder h, (loadEntry fmt e).isSome := by
    intro e he
    have heh := hperm.subset he
    rw [hm.hash_eq] at heh
    obtain ⟨e', he', rfl⟩ := List.mem_map.mp heh
    simp [hentry e' he']
  have hg : ((env.hgetallOrder h).filterMap (loadEntry fmt)).Perm d :=
    hdecode ▸ hperm.filterMap (loadEntry fmt)
  -- the decoded keys are distinct, so the comprehension builds the list it reads
  have hnodup : (keys ((env.hgetallOrder h).filterMap (loadEntry fmt))).Nodup :=
    (hg.map Prod.fst).nodup_iff.mpr hm.nodup
  exact ⟨_, by rw [getAllRedis, mapM_eq_some hsome, Option.map_some, ofPairs_of_nodup hnodup], hg⟩

theorem deleteMemory_eq (d : List (List ℕ × Value F)) (u : List ℕ) :
    deleteMemory d u = (decide (u ∈ keys d), erase d u) := by
  unfold deleteMemory
  split_ifs with hu
  · simp [hu]
  · simp [hu, erase_of_not_mem hu]

theorem deleteRedis_mirrors (hm : Mirrors fmt h d) (hu : ValidUserId u) :
    ∃ h', deleteRedis h u = some ((deleteMemory d u).1, h') ∧ Mirrors fmt h' (deleteMemory d u).2 := by
  rw [deleteMemory_eq]
  refine ⟨_, ?_, hm.erase hu⟩
  rw [deleteRedis, hdel_of_valid h hu]
  by_cases hk : u ∈ keys d
  · simp [(hm.mem_keys hu).mpr hk, hk]
  · simp [mt (hm.mem_keys hu).mp hk, hk]

end Branches

/-! ## The two stores in lockstep -/

/-- Two answers no caller tells apart: equal, or one gallery listed in two orders. -/
inductive Reply.Agree : Reply F → Reply F → Prop
  | refl (r : Reply F) : Reply.Agree r r
  | gallery {g g' : List (List ℕ × Value F)} : g.Perm g' → Reply.Agree (.gallery g) (.gallery g')

/-- The calls both stores keep alike: no surrogate in a user id, a record `json` gives back. -/
def Op.Valid : Op F → Prop
  | .save u _ name metadata _ =>
    ValidUserId u ∧ name.roundTrips = true ∧ (Value.dict (metadata.getD [])).roundTrips = true
  | .load u => ValidUserId u
  | .getAll => True
  | .delete u => ValidUserId u

instance : DecidablePred (Op.Valid (F := F)) := fun op =>
  match op with
  | .save u _ name metadata _ => inferInstanceAs
    (Decidable (ValidUserId u ∧ name.roundTrips = true ∧
      (Value.dict (metadata.getD [])).roundTrips = true))
  | .load u => inferInstanceAs (Decidable (ValidUserId u))
  | .getAll => inferInstanceAs (Decidable True)
  | .delete u => inferInstanceAs (Decidable (ValidUserId u))

section Lockstep

variable (fmt : FloatFormat F) (env env' : Env)

/-- A store on Redis and one in memory holding the same gallery. -/
structure Sim (s t : Store F) : Prop where
  redis : getRedis env s.redisClient = .connected
  memory : getRedis env' t.redisClient ≠ .connected
  mirrors : Mirrors fmt s.hash t.faceGallery

variable {fmt env env'} {s t : Store F} {u : List ℕ}

theorem Sim.update (hst : Sim fmt env env' s t) {h : Hash} {d : List (List ℕ × Value F)}
    (hm : Mirrors fmt h d) :
    Sim fmt env env' { s.connect env with hash := h } { t.connect env' with faceGallery := d } :=
  ⟨(getRedis_getRedis env _).trans hst.redis,
    fun h' => hst.memory ((getRedis_getRedis env' _).symm.trans h'), hm⟩

theorem saveToGallery_sim (hst : Sim fmt env env' s t) (hu : ValidUserId u) (embedding : List F)
    {name : Value F} {metadata : Option (List (List ℕ × Value F))} (hn : name.roundTrips = true)
    (hmeta : (Value.dict (metadata.getD [])).roundTrips = true) (now : DateTime) :
    (saveToGallery fmt env s u embedding name metadata now).1 = some () ∧
      (saveToGallery fmt env' t u embedding name metadata now).1 = some () ∧
      Sim fmt env env' (saveToGallery fmt env s u embedding name metadata now).2
        (saveToGallery fmt env' t u embedding name metadata now).2 := by
  obtain ⟨h', hsave, hm'⟩ :=
    saveRedis_mirrors fmt hst.mirrors hu (roundTrips_galleryData embedding now hn hmeta)
  simp only [saveToGallery, redisClient_connect, if_pos hst.redis, hst.memory, if_false, hash_connect, hsave,
    faceGallery_connect, true_and]
  exact hst.update hm'

theorem loadFromGallery_sim (hst : Sim fmt env env' s t) (hu : ValidUserId u) :
    (loadFromGallery fmt env s u).1 = some (get t.faceGallery u) ∧
      (loadFromGallery fmt env' t u).1 = some (get t.faceGallery u) ∧
      Sim fmt env env' (loadFromGallery fmt env s u).2 (loadFromGallery fmt env' t u).2 := by
  simp only [loadFromGallery, redisClient_connect, if_pos hst.redis, hst.memory, if_false, hash_connect,
    faceGallery_connect, loadRedis_mirrors fmt hst.mirrors hu, true_and]
  exact hst.update hst.mirrors

theorem getAllGallery_sim (hst : Sim fmt env env' s t) :
    (∃ g, (getAllGallery fmt env s).1 = some g ∧ g.Perm t.faceGallery) ∧
      (getAllGallery fmt env' t).1 = some t.faceGallery ∧
      Sim fmt env env' (getAllGallery fmt env s).2 (getAllGallery fmt env' t).2 := by
  obtain ⟨g, hg, hperm⟩ := getAllRedis_mirrors fmt env hst.mirrors
  simp only [getAllGallery, redisClient_connect, if_pos hst.redis, hst.memory, if_false, hash_connect,
    faceGallery_connect, hg, true_and]
  exact ⟨⟨g, rfl, hperm⟩, hst.update hst.mirrors⟩

theorem deleteFromGallery_sim (hst : Sim fmt env env' s t) (hu : ValidUserId u) :
    (deleteFromGallery env s u).1 = some (deleteMemory t.faceGallery u).1 ∧
      (deleteFromGallery env' t u).1 = some (deleteMemory t.faceGallery u).1 ∧
      Sim fmt env env' (deleteFromGallery env s u).2 (deleteFromGallery env' t u).2 := by
  obtain ⟨h', hdel, hm'⟩ := deleteRedis_mirrors fmt hst.mirrors hu
  simp only [deleteFromGallery, redisClient_connect, if_pos hst.redis, hst.memory, if_false, hash_connect,
    faceGallery_connect, hdel, true_and]
  exact hst.update hm'

/-- The step lemma: a valid call answers alike on both stores and keeps them mirrored. -/
theorem step_sim (hst : Sim fmt env env' s t) {op : Op F} (hop : op.Valid) :
    Option.Rel Reply.Agree (s.step fmt env op).1 (t.step fmt env' op).1 ∧
      Sim fmt env env' (s.step fmt env op).2 (t.step fmt env' op).2 := by
  cases op with
  | save u e n m now =>
    obtain ⟨hu, hn, hmeta⟩ := hop
    obtain ⟨h1, h2, hnext⟩ := saveToGallery_sim hst hu e hn hmeta now
    simp only [Store.step, h1, h2, Option.map_some]
    exact ⟨.some (.refl _), hnext⟩
  | load u =>
    obtain ⟨h1, h2, hnext⟩ := loadFromGallery_sim hst hop
    simp only [Store.step, h1, h2, Option.map_some]
    exact ⟨.some (.refl _), hnext⟩
  | getAll =>
    obtain ⟨⟨g, h1, hperm⟩, h2, hnext⟩ := getAllGallery_sim hst
    simp only [Store.step, h1, h2, Option.map_some]
    exact ⟨.some (.gallery hperm), hnext⟩
  | delete u =>
    obtain ⟨h1, h2, hnext⟩ := deleteFromGallery_sim hst hop
    simp only [Store.step, h1, h2, Option.map_some]
    exact ⟨.some (.refl _), hnext⟩

/-- The run lemma: mirrored stores answer every sequence of valid calls alike. -/
theorem run_sim (hst : Sim fmt env env' s t) {ops : List (Op F)} (hops : ∀ op ∈ ops, op.Valid) :
    List.Forall₂ (Option.Rel Reply.Agree) (s.run fmt env ops) (t.run fmt env' ops) := by
  unfold Store.run
  exact forall₂_outputs (P := Op.Valid (F := F)) (R := Sim fmt env env')
    (fun s' t' op' hst' hop' => @step_sim F fmt env env' s' t' hst' op' hop') hst hops

end Lockstep

theorem gallery_backends_agree (fmt : FloatFormat F) (env env' : Env)
    (hredis : env.redisUrl ≠ "" ∧ env.reachable = true)
    (hmemory : env'.redisUrl = "" ∨ env'.reachable = false)
    (ops : List (Op F)) (hops : ∀ op ∈ ops, op.Valid) :
    List.Forall₂ (Option.Rel Reply.Agree) (Store.run fmt env ⟨.none, [], []⟩ ops)
      (Store.run fmt env' ⟨.none, [], []⟩ ops) :=
  run_sim ⟨getRedis_none_of_reachable env hredis, getRedis_none_of_unreachable env' hmemory,
    mirrors_nil⟩ hops

theorem gallery_backends_agree_enrolment :
    (∀ op ∈ [Op.save [0x75] [(1 : Fin (2 ^ 53)), 2] (.str [0x41, 0x64, 0x61]) none
        ⟨2024, 5, 17, 9, 30, 0, 0⟩, .getAll, .delete [0x75], .load [0x75], .delete [0x75]], op.Valid) ∧
      List.Forall₂ (Option.Rel Reply.Agree)
        (Store.run wholeFloats ⟨"redis://localhost:6379/0", true, id, List.Perm.refl⟩ ⟨.none, [], []⟩
          [.save [0x75] [1, 2] (.str [0x41, 0x64, 0x61]) none ⟨2024, 5, 17, 9, 30, 0, 0⟩, .getAll,
            .delete [0x75], .load [0x75], .delete [0x75]])
        (Store.run wholeFloats ⟨"", true, id, List.Perm.refl⟩ ⟨.none, [], []⟩
          [.save [0x75] [1, 2] (.str [0x41, 0x64, 0x61]) none ⟨2024, 5, 17, 9, 30, 0, 0⟩, .getAll,
            .delete [0x75], .load [0x75], .delete [0x75]]) := by
  have hops : ∀ op ∈ [Op.save [0x75] [(1 : Fin (2 ^ 53)), 2] (.str [0x41, 0x64, 0x61]) none
      ⟨2024, 5, 17, 9, 30, 0, 0⟩, .getAll, .delete [0x75], .load [0x75], .delete [0x75]], op.Valid := by
    decide
  exact ⟨hops, gallery_backends_agree wholeFloats _ _ ⟨by decide, rfl⟩ (Or.inl rfl) _ hops⟩

theorem gallery_backends_diverge :
    Store.run wholeFloats ⟨"redis://localhost:6379/0", true, id, List.Perm.refl⟩ ⟨.none, [], []⟩
        [.save [0xD800] [] .null none ⟨2024, 5, 17, 9, 30, 0, 0⟩] = [none] ∧
      Store.run wholeFloats ⟨"", true, id, List.Perm.refl⟩ ⟨.none, [], []⟩
        [.save [0xD800] [] .null none ⟨2024, 5, 17, 9, 30, 0, 0⟩] = [some .saved] ∧
      Store.run wholeFloats ⟨"redis://localhost:6379/0", true, id, List.Perm.refl⟩ ⟨.none, [], []⟩
        [.save [0x75] [] (.str [0xD83D, 0xDE00]) none ⟨2024, 5, 17, 9, 30, 0, 0⟩, .load [0x75]] =
        [some .saved, some (.record (some
          (galleryData [] (.str [0x1F600]) none ⟨2024, 5, 17, 9, 30, 0, 0⟩)))] ∧
      Store.run wholeFloats ⟨"", true, id, List.Perm.refl⟩ ⟨.none, [], []⟩
        [.save [0x75] [] (.str [0xD83D, 0xDE00]) none ⟨2024, 5, 17, 9, 30, 0, 0⟩, .load [0x75]] =
        [some .saved, some (.record (some
          (galleryData [] (.str [0xD83D, 0xDE00]) none ⟨2024, 5, 17, 9, 30, 0, 0⟩)))] := by
  refine ⟨?_, ?_, ?_, ?_⟩
  · -- redis-py cannot encode the lone surrogate of the user id
    have hsave := (redis_raises_of_invalid wholeFloats [] (by decide : ¬ ValidUserId [0xD800])
      (galleryData [] .null none ⟨2024, 5, 17, 9, 30, 0, 0⟩)).1
    simp [Store.run, Store.step, saveToGallery, Store.connect, getRedis, hsave]
  · simp [Store.run, Store.step, saveToGallery, Store.connect, getRedis]
  · -- the name's surrogate pair comes back as one code point
    have hw : (galleryData [] (.str [0xD83D, 0xDE00]) none
        ⟨2024, 5, 17, 9, 30, 0, 0⟩ : Value (Fin (2 ^ 53))).wellFormed = true :=
      wellFormed_galleryData [] _ (by decide) rfl
    obtain ⟨h', hsave, hload⟩ := loadRedis_saveRedis wholeFloats [] (by decide : ValidUserId [0x75]) hw
      (t := _) rfl
    rw [loaded_galleryData [] _ (.str [0xD83D, 0xDE00]) rfl] at hload
    simp [Store.run, Store.step, saveToGallery, loadFromGallery, Store.connect, getRedis, hsave, hload]
    rfl
  · simp [Store.run, Store.step, saveToGallery, loadFromGallery, Store.connect, getRedis, get_setItem]

end GoAttend.Face
