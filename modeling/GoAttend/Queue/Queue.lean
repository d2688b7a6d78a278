import GoAttend.Lib.Utf8
import GoAttend.Lib.Fifo
import Mathlib.Data.List.TakeDrop

/-! `internal/queue/queue.go`: the message queue between the API and the worker, with its two
backends and their single consumer. `InMemory` is a buffered channel of messages. `RedisQueue`
keeps the strings `Type|Body` in a Redis list, `LPUSH` at the left and `BRPOP` from the right,
and reads a message back by splitting the string's runes at the first `|`. Go strings and byte
slices are byte strings. -/

namespace GoAttend.Queue

open Lib Lib.Utf8 Lib.Fifo

/-- `queue.Message`. -/
structure Message where
  type : List UInt8
  body : List UInt8
  deriving DecidableEq, Repr

/-- `serialize`: `msg.Type + "|" + string(msg.Body)`. -/
def serialize (msg : Message) : List UInt8 := msg.type ++ ascii "|" ++ msg.body

/-- `deserialize`: the string as runes, cut at the first `|`, each side converted from runes
back to bytes. A string without `|` is a message of empty type whose body is the string. -/
def deserialize (s : List UInt8) : Message :=
  match (runes s).span (· != '|') with
  | (typ, _ :: body) => ⟨encode typ, encode body⟩
  | (_, []) => ⟨[], s⟩

/-- `NewInMemory(size)` with its consumer: `Publish` waits while the channel's buffer is full,
and the consumer's goroutine forwards the oldest buffered message. -/
def inMemory (size : ℕ) : Backend (List Message) Message Message where
  push ch msg := if ch.length < size then some (ch ++ [msg]) else none
  pop ch := match ch with
    | msg :: rest => some (msg, rest)
    | [] => none

/-- `RedisQueue` with its consumer: `LPUSH` puts the serialized message at the left of the list,
`BRPOP` takes the rightmost string, and the consumer forwards it deserialized. -/
def redisQueue : Backend (List (List UInt8)) Message Message where
  push l msg := some (serialize msg :: l)
  pop l := l.getLast?.map fun s => (deserialize s, l.dropLast)

/-- The message `POST /v1/checkins` publishes for an event: type `checkin`, the id as body. -/
def checkinMessage (id : String) : Message := ⟨ascii "checkin", encode id.toList⟩

/-! ## The round trip through a Redis string -/

theorem span_append_cons {α : Type*} {p : α → Bool} {l r : List α} {a : α}
    (hl : ∀ x ∈ l, p x = true) (ha : p a = false) : (l ++ a :: r).span p = (l, a :: r) := by
  rw [List.span_eq_takeWhile_dropWhile, List.takeWhile_append_of_pos hl,
    List.dropWhile_append_of_pos hl, List.takeWhile_cons_of_neg (by simp [ha]),
    List.dropWhile_cons_of_neg (by simp [ha]), List.append_nil]

/-- A message whose type has no `|` comes back with both fields through runes: every byte that
is not part of a valid UTF-8 encoding is replaced by `U+FFFD`. -/
theorem deserialize_serialize (msg : Message) (h : 0x7C ∉ msg.type) :
    deserialize (serialize msg) = ⟨sanitize msg.type, sanitize msg.body⟩ := by
  have hbar : (0x7C : UInt8) < 0x80 := by decide
  have hsep : Char.ofUInt8 0x7C = '|' := rfl
  -- the separator is a rune of its own, and the type's runes hold no `|`
  have hrunes : runes (serialize msg) = runes msg.type ++ '|' :: runes msg.body := by
    rw [serialize, List.append_assoc, show ascii "|" = [0x7C] from rfl, List.singleton_append,
      runes_append_ascii _ hbar, hsep]
  have htype : ∀ c ∈ runes msg.type, (c != '|') = true := by
    intro c hc
    have hne : c ≠ '|' := by
      rintro rfl
      exact h (mem_of_ofUInt8_mem_runes hbar (hsep ▸ hc))
    simpa using hne
  unfold deserialize
  rw [hrunes, span_append_cons htype (by decide)]
  rfl

theorem deserialize_serialize_eq_self_iff (msg : Message) (h : 0x7C ∉ msg.type) :
    deserialize (serialize msg) = msg ↔ sanitize msg.type = msg.type ∧ sanitize msg.body = msg.body := by
  rw [deserialize_serialize msg h]
  constructor
  · intro he
    rw [← he]
    exact ⟨sanitize_sanitize _, sanitize_sanitize _⟩
  · rintro ⟨ht, hb⟩
    rw [ht, hb]

/-- A check-in message has no `|` in its type, and both its fields are valid UTF-8. -/
theorem checkinMessage_valid (id : String) :
    0x7C ∉ (checkinMessage id).type ∧ sanitize (checkinMessage id).type = (checkinMessage id).type ∧
      sanitize (checkinMessage id).body = (checkinMessage id).body := by
  have ht : 0x7C ∉ ascii "checkin" := by decide
  have hc : sanitize (ascii "checkin") = ascii "checkin" := sanitize_of_all_lt (by decide)
  exact ⟨ht, hc, sanitize_encode _⟩

theorem deserialize_serialize_checkin (id : String) :
    deserialize (serialize (checkinMessage id)) = checkinMessage id :=
  (deserialize_serialize_eq_self_iff _ (checkinMessage_valid id).1).mpr (checkinMessage_valid id).2

/-! ## Both backends are FIFO channels -/

theorem inMemory_refines (size : ℕ) : Refines (inMemory size) id id where
  push_view ch msg ch' h := by
    simp only [inMemory] at h
    split_ifs at h
    cases h
    rfl
  pop_view ch msg ch' h := by
    cases ch with
    | nil => cases h
    | cons m rest =>
      cases h
      rfl

theorem redisQueue_refines :
    Refines redisQueue (fun l => l.reverse.map deserialize) (deserialize ∘ serialize) where
  push_view l msg l' h := by
    cases h
    simp
  pop_view l msg l' h := by
    obtain ⟨s, hs, he⟩ := Option.map_eq_some_iff.mp h
    cases he
    -- `BRPOP` takes the last string of the list, the first one pushed
    have hl : l.dropLast ++ [s] = l := List.dropLast_append_getLast? s hs
    calc l.reverse.map deserialize = (l.dropLast ++ [s]).reverse.map deserialize := by rw [hl]
      _ = deserialize s :: l.dropLast.reverse.map deserialize := by simp

/-- Over any interleaving of publishes and deliveries from an empty channel, the consumer of an
`InMemory` queue receives the published messages in order, the rest still buffered. -/
theorem inMemory_delivers {size : ℕ} {P : Action Message Message → Prop}
    {s : Logged (List Message) Message Message}
    (h : Runs (Step (inMemory size)) P (Logged.init []) s) :
    s.delivered ++ s.store = s.published :=
  by simpa [InOrder] using (inMemory_refines size).runs (inOrder_init rfl) h

/-- Over any interleaving from an empty list, the consumer of a `RedisQueue` receives each
published message as it comes back from its string, in order, the rest still in the list. -/
theorem redisQueue_delivers {P : Action Message Message → Prop}
    {s : Logged (List (List UInt8)) Message Message}
    (h : Runs (Step redisQueue) P (Logged.init []) s) :
    s.delivered ++ s.store.reverse.map deserialize = s.published.map (deserialize ∘ serialize) :=
  redisQueue_refines.runs (inOrder_init rfl) h

/-- The backends agree on messages whose type has no `|` and whose fields are valid UTF-8: the
Redis consumer then receives every published message unchanged, in order. -/
theorem redisQueue_delivers_valid {P : Action Message Message → Prop}
    {s : Logged (List (List UInt8)) Message Message}
    (h : Runs (Step redisQueue) P (Logged.init []) s)
    (hv : ∀ msg ∈ s.published,
      0x7C ∉ msg.type ∧ sanitize msg.type = msg.type ∧ sanitize msg.body = msg.body) :
    s.delivered ++ s.store.reverse.map deserialize = s.published := by
  rw [redisQueue_delivers h]
  conv_rhs => rw [← List.map_id s.published]
  apply List.map_congr_left
  intro msg hm
  obtain ⟨ht, hvt⟩ := hv msg hm
  exact (deserialize_serialize_eq_self_iff msg ht).mpr hvt

/-- What the worker reads from the Redis queue when the API publishes check-ins: the event ids
in publishing order, each as `string(msg.Body)`. -/
theorem redisQueue_delivers_checkins {P : Action Message Message → Prop}
    {s : Logged (List (List UInt8)) Message Message} {ids : List String}
    (h : Runs (Step redisQueue) P (Logged.init []) s) (hp : s.published = ids.map checkinMessage) :
    (s.delivered.map fun msg => String.ofList (runes msg.body)) <+: ids := by
  have hd : s.delivered <+: ids.map checkinMessage := by
    refine ⟨s.store.reverse.map deserialize, ?_⟩
    rw [redisQueue_delivers h, hp, List.map_map]
    conv_rhs => rw [← List.map_id (ids.map checkinMessage)]
    rw [List.map_map]
    exact List.map_congr_left fun id _ => deserialize_serialize_checkin id
  have hmap := hd.map fun msg => String.ofList (runes msg.body)
  simpa [Function.comp_def, checkinMessage] using hmap

/-- Over any interleaving of publishes and deliveries from an empty queue: the `InMemory`
consumer has received the published messages in order, the rest still buffered; the Redis
consumer the same when every type has no `|` and every field is valid UTF-8; and the worker
reading check-ins from Redis has received a prefix of the published event ids. -/
theorem queues_deliver_in_order :
    (∀ (size : ℕ) (P : Action Message Message → Prop) (s : Logged (List Message) Message Message),
        Runs (Step (inMemory size)) P (Logged.init []) s → s.delivered ++ s.store = s.published) ∧
      (∀ (P : Action Message Message → Prop) (s : Logged (List (List UInt8)) Message Message),
        Runs (Step redisQueue) P (Logged.init []) s →
        (∀ msg ∈ s.published,
          0x7C ∉ msg.type ∧ sanitize msg.type = msg.type ∧ sanitize msg.body = msg.body) →
        s.delivered ++ s.store.reverse.map deserialize = s.published) ∧
      ∀ (P : Action Message Message → Prop) (s : Logged (List (List UInt8)) Message Message)
        (ids : List String), Runs (Step redisQueue) P (Logged.init []) s →
        s.published = ids.map checkinMessage →
        (s.delivered.map fun msg => String.ofList (runes msg.body)) <+: ids :=
  ⟨fun _ _ _ h => inMemory_delivers h, fun _ _ h hv => redisQueue_delivers_valid h hv,
    fun _ _ _ h hp => redisQueue_delivers_checkins h hp⟩

/-- Two check-ins published, the first delivered, on either backend. -/
theorem queues_deliver_two_checkins :
    [checkinMessage "a"] ++ [checkinMessage "b"] = [checkinMessage "a", checkinMessage "b"] ∧
      [checkinMessage "a"] ++ [serialize (checkinMessage "b")].reverse.map deserialize =
        [checkinMessage "a", checkinMessage "b"] ∧
      ([checkinMessage "a"].map fun msg => String.ofList (runes msg.body)) <+: ["a", "b"] := by
  have hmem : Runs (Step (inMemory 64)) (fun _ => True) (Logged.init [])
      ⟨[checkinMessage "b"], [checkinMessage "a", checkinMessage "b"], [checkinMessage "a"]⟩ :=
    Runs.tail (Runs.tail (Runs.tail Runs.refl trivial (.publish rfl)) trivial (.publish rfl)) trivial
      (.deliver rfl)
  have hredis : Runs (Step redisQueue) (fun _ => True) (Logged.init [])
      ⟨[serialize (checkinMessage "b")], [checkinMessage "a", checkinMessage "b"],
        [checkinMessage "a"]⟩ := by
    -- `LPUSH` puts the second message left of the first, which `BRPOP` takes
    have hpushed : Runs (Step redisQueue) (fun _ => True) (Logged.init [])
        ⟨[serialize (checkinMessage "b"), serialize (checkinMessage "a")],
          [checkinMessage "a", checkinMessage "b"], []⟩ :=
      Runs.tail (Runs.tail Runs.refl trivial (.publish rfl)) trivial (.publish rfl)
    refine Runs.tail hpushed trivial (.deliver ?_)
    simp [redisQueue, deserialize_serialize_checkin]
  have hvalid : ∀ msg ∈ [checkinMessage "a", checkinMessage "b"],
      0x7C ∉ msg.type ∧ sanitize msg.type = msg.type ∧ sanitize msg.body = msg.body := by
    intro msg hm
    simp only [List.mem_cons, List.not_mem_nil, or_false] at hm
    rcases hm with rfl | rfl <;> exact checkinMessage_valid _
  obtain ⟨hin, hout, hids⟩ := queues_deliver_in_order
  exact ⟨hin 64 _ _ hmem, hout _ _ hredis hvalid, hids _ _ ["a", "b"] hredis rfl⟩

/-- A check-in whose body is not valid UTF-8: the Redis consumer receives the body with its byte
replaced by `U+FFFD`, the `InMemory` consumer receives it as published. -/
theorem redisQueue_replaces_invalid_body :
    let msg : Message := ⟨ascii "checkin", [0xFF]⟩
    let replaced : Message := ⟨ascii "checkin", [0xEF, 0xBF, 0xBD]⟩
    Runs (Step redisQueue) (fun _ => True) (Logged.init []) ⟨[], [msg], [replaced]⟩ ∧
      Runs (Step (inMemory 64)) (fun _ => True) (Logged.init []) ⟨[], [msg], [msg]⟩ ∧
      replaced ≠ msg := by
  intro msg replaced
  have hr : deserialize (serialize msg) = replaced := by
    rw [deserialize_serialize msg (by decide), sanitize_of_all_lt (by decide)]
    have hff : sanitize [0xFF] = [0xEF, 0xBF, 0xBD] := by
      have hd : decodeRune [0xFF] = (runeError, 1) := by decide
      rw [sanitize_of_ne_nil (by simp), hd]
      simp only [List.drop_one, List.tail_cons, sanitize_nil, List.append_nil]
      decide
    rw [hff]
  refine ⟨?_, ?_, by decide⟩
  · refine Runs.tail (Runs.tail Runs.refl trivial (.publish rfl)) trivial (.deliver ?_)
    show ([serialize msg].getLast?.map fun s => (deserialize s, [serialize msg].dropLast)) =
      some (replaced, [])
    simp [hr]
  · exact Runs.tail (Runs.tail Runs.refl trivial (.publish rfl)) trivial (.deliver rfl)

end GoAttend.Queue
