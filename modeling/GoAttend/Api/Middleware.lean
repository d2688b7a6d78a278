import GoAttend.Lib.Gin
import GoAttend.Lib.Dict
import GoAttend.Lib.Transition
import GoAttend.HttpMiddleware.RateLimit
import GoAttend.Auth.Middleware

/-! The middleware of `cmd/api`: `Recovery`, the logger, `corsMiddleware`, `securityHeaders` and
the limiter's `GinMiddleware`, registered on the engine in that order, then the handlers of the
route: `DeviceAuth` and the handler for the `/v1` group, the handler alone for the routes of the
engine, and gin's 404 when no route matches. `Recovery` and the logger leave the response alone
and are left out; what each route's handler answers is a parameter. The engine's one limiter is
shared by all requests.

gin and net/http are parameters with the laws the server relies on. The engine runs a chain as its
`Context.Next` loop does. No route answers `OPTIONS`, so a preflight runs the engine's middleware
and then the 404. `gin.New()` sets `RedirectTrailingSlash`, so the router may answer a path that a
route has with or without a trailing slash by a redirect, 301 for `GET` and 307 otherwise, before
any handler runs. net/http may add `Date`, `Content-Length`, `Content-Type` and
`Transfer-Encoding` when it sends a response. -/

namespace GoAttend.Api

open Lib Lib.Dict HttpMiddleware Auth

inductive Method
  | get
  | post
  | options
  | other
  deriving DecidableEq, Repr

/-- The routes of the engine, of the `/v1` group behind `DeviceAuth`, or none. -/
inductive Route
  | engine
  | device
  | none
  deriving DecidableEq, Repr

inductive Dispatch
  | route (r : Route)
  | redirect
  deriving DecidableEq, Repr

/-- What the middleware reads of a request; an absent header reads as empty. -/
structure Request where
  method : Method
  path : String
  origin : String
  authorization : List UInt8
  clientIP : String
  /-- `time.Now()` while the request is served, in nanoseconds of the monotonic clock. -/
  time : ℕ

/-- A response body: none, gin's `{"error": message}`, plain text, or a handler's. -/
inductive Body (β : Type)
  | none
  | error (message : String)
  | text (s : String)
  | payload (b : β)

structure Response (β : Type) where
  status : ℕ
  headers : List (String × String)
  body : Body β

/-- A request's `gin.Context`, with the limiter the engine shares between requests. -/
structure Context (β : Type) where
  request : Request
  limiter : SimpleTokenBucket
  claims : Option Claims
  response : Response β

structure Reply (β : Type) where
  headers : List (String × String)
  status : ℕ
  contentType : String
  payload : β

/-- gin and net/http as the server uses them. -/
structure Gin (β : Type) where
  chain : Gin.Chain (Context β)
  route : Method → String → Dispatch
  /-- `redirectTrailingSlash`'s answer, written by `http.Redirect`. -/
  redirect : Request → Response β
  /-- What net/http sends for the response the handlers leave. -/
  send : Response β → Response β

def netHeaderNames : List String := ["Date", "Content-Length", "Content-Type", "Transfer-Encoding"]

structure Gin.Lawful {β : Type} (g : Gin β) : Prop where
  chain : g.chain.Lawful
  route_options : ∀ p, g.route .options p = .route .none
  redirect_status : ∀ req, (g.redirect req).status = if req.method = .get then 301 else 307
  redirect_headers : ∀ req k, k ≠ "Location" → k ≠ "Content-Type" → get (g.redirect req).headers k = none
  send_status : ∀ r, (g.send r).status = r.status
  send_body : ∀ r, (g.send r).body = r.body
  send_headers : ∀ r k, k ∉ netHeaderNames → get (g.send r).headers k = get r.headers k

variable {β : Type}

/-- The context gin hands the first handler: status 200, no header, nothing written. -/
def Context.start (req : Request) (l : SimpleTokenBucket) : Context β :=
  ⟨req, l, none, ⟨200, [], .none⟩⟩

/-- `c.Header(key, value)` for each pair in turn; `Header().Set` replaces. -/
def Context.setHeaders (c : Context β) (kvs : List (String × String)) : Context β :=
  { c with response := { c.response with
      headers := kvs.foldl (fun d e => setItem d e.1 e.2) c.response.headers } }

/-- A write of status, content type and body, as `c.JSON` and gin's 404 do. -/
def Context.write (c : Context β) (code : ℕ) (contentType : String) (body : Body β) : Context β :=
  { c with response := ⟨code, setItem c.response.headers "Content-Type" contentType, body⟩ }

def Context.json (c : Context β) (code : ℕ) (body : Body β) : Context β :=
  c.write code "application/json; charset=utf-8" body

/-! ## The handlers -/

def corsHeaders (origin : String) : List (String × String) :=
  [("Access-Control-Allow-Origin", origin),
    ("Access-Control-Allow-Methods", "GET, POST, PUT, DELETE, OPTIONS"),
    ("Access-Control-Allow-Headers", "Origin, Content-Type, Accept, Authorization"),
    ("Access-Control-Allow-Credentials", "true"),
    ("Access-Control-Max-Age", "86400")]

/-- `corsMiddleware`: a preflight ends the chain with 204. -/
def corsMiddleware (c : Context β) : Context β × Bool :=
  let origin := if c.request.origin = "" then "*" else c.request.origin
  let c := c.setHeaders (corsHeaders origin)
  if c.request.method = .options then ({ c with response := { c.response with status := 204 } }, true)
  else (c, false)

def securityHeaderList (release : Bool) : List (String × String) :=
  [("X-Content-Type-Options", "nosniff"),
    ("X-Frame-Options", "DENY"),
    ("X-XSS-Protection", "1; mode=block"),
    ("Referrer-Policy", "strict-origin-when-cross-origin")] ++
  if release then [("Strict-Transport-Security", "max-age=31536000; includeSubDomains")] else []

def securityHeaders (release : Bool) (c : Context β) : Context β × Bool :=
  (c.setHeaders (securityHeaderList release), false)

/-- The key and time of `allow` for a request; no address counts as `unknown`. -/
def limiterCall (req : Request) : String × ℤ :=
  (if req.clientIP = "" then "unknown" else req.clientIP, req.time)

/-- `GinMiddleware` of the engine's limiter. -/
def ginMiddleware (c : Context β) : Context β × Bool :=
  let r := c.limiter.allow (limiterCall c.request).1 (limiterCall c.request).2
  let c := { c with limiter := r.2 }
  if !r.1 then (c.json 429 (.error "rate limit"), true) else (c, false)

/-- `DeviceAuth(signingKey, issuer)`; it sets `claims` for the route's handler. -/
def deviceAuthHandler (J : Lib.Jwt.Library Claims) (signingKey issuer : List UInt8)
    (c : Context β) : Context β × Bool :=
  match deviceAuth J signingKey issuer c.request.time c.request.authorization with
  | .error message => (c.json 401 (.error message), true)
  | .ok claims => ({ c with claims := some claims }, false)

def routeHandler (handle : Request → Option Claims → Reply β) (c : Context β) : Context β × Bool :=
  let r := handle c.request c.claims
  ((c.setHeaders r.headers).write r.status r.contentType (.payload r.payload), false)

/-- gin's `serveError` for a request no route matches: 404 in plain text. -/
def notFound (c : Context β) : Context β × Bool :=
  (c.write 404 "text/plain" (.text "404 page not found"), false)

/-- gin's mode, golang-jwt, `JWT_SIGNING_KEY`, `JWT_ISSUER` and the routes' handlers. -/
structure Deployment (β : Type) where
  release : Bool
  jwt : Lib.Jwt.Library Claims
  signingKey : List UInt8
  issuer : List UInt8
  handle : Request → Option Claims → Reply β

def routeChain (d : Deployment β) : Route → List (Context β → Context β × Bool)
  | .engine => [routeHandler d.handle]
  | .device => [deviceAuthHandler d.jwt d.signingKey d.issuer, routeHandler d.handle]
  | .none => [notFound]

/-- The handlers gin runs for a route: the engine's, then the route's. -/
def chain (d : Deployment β) (r : Route) : List (Context β → Context β × Bool) :=
  [corsMiddleware, securityHeaders d.release, ginMiddleware] ++ routeChain d r

/-- One request: the response sent, and the limiter the next request finds. -/
def serve (g : Gin β) (d : Deployment β) (l : SimpleTokenBucket) (req : Request) :
    Response β × SimpleTokenBucket :=
  match g.route req.method req.path with
  | .redirect => (g.send (g.redirect req), l)
  | .route r =>
    let c := (g.chain.run (chain d r) (Context.start req l)).1
    (g.send c.response, c.limiter)

/-! ## What each response carries -/

section Headers

variable {g : Gin β} (hg : g.Lawful) (d : Deployment β)

@[simp] theorem request_setHeaders (c : Context β) (kvs : List (String × String)) :
    (c.setHeaders kvs).request = c.request := rfl
@[simp] theorem limiter_setHeaders (c : Context β) (kvs : List (String × String)) :
    (c.setHeaders kvs).limiter = c.limiter := rfl
@[simp] theorem limiter_write (c : Context β) (code : ℕ) (ct : String) (b : Body β) :
    (c.write code ct b).limiter = c.limiter := rfl

theorem headers_setHeaders (c : Context β) (kvs : List (String × String)) :
    (c.setHeaders kvs).response.headers = kvs.foldl (fun d e => setItem d e.1 e.2) c.response.headers :=
  rfl

theorem setHeaders_setHeaders (c : Context β) (kvs kvs' : List (String × String)) :
    (c.setHeaders kvs).setHeaders kvs' = c.setHeaders (kvs ++ kvs') := by
  simp only [Context.setHeaders, List.foldl_append]

theorem get_setHeaders (c : Context β) {kvs : List (String × String)} {k : String}
    (hk : k ∉ keys kvs) : get (c.setHeaders kvs).response.headers k = get c.response.headers k := by
  rw [headers_setHeaders, get_foldl_setItem]
  have hn : get kvs.reverse k = none := by
    rw [get_eq_none_iff]
    simpa [keys] using hk
  rw [hn, Option.none_or]

theorem get_write (c : Context β) (code : ℕ) (ct : String) (b : Body β) {k : String}
    (hk : k ≠ "Content-Type") : get (c.write code ct b).response.headers k = get c.response.headers k := by
  simp only [Context.write, get_setItem, if_neg (Ne.symm hk)]

def middlewareHeaders (req : Request) (release : Bool) : List (String × String) :=
  corsHeaders (if req.origin = "" then "*" else req.origin) ++ securityHeaderList release

/-- The middleware's header names are distinct, none of net/http's, none `Location`. -/
theorem keys_middlewareHeaders (req : Request) (release : Bool) :
    (keys (middlewareHeaders req release)).Nodup ∧
      ∀ k ∈ keys (middlewareHeaders req release),
        k ∉ netHeaderNames ∧ k ≠ "Location" ∧ k ≠ "Content-Type" := by
  cases release <;> simp [keys, middlewareHeaders, corsHeaders, securityHeaderList, netHeaderNames]

include hg

theorem run_chain_of_options (l : SimpleTokenBucket) {req : Request} (r : Route)
    (h : req.method = .options) :
    (g.chain.run (chain d r) (Context.start req l)).1 = (corsMiddleware (Context.start req l)).1 := by
  have hab : (corsMiddleware (Context.start req l : Context β)).2 = true := by
    simp [corsMiddleware, h, Context.start]
  simp only [chain, List.cons_append, Gin.Chain.run_cons_of_abort hg.chain _ hab]

/-- A preflight ends at `corsMiddleware` with 204, the limiter unchanged. -/
theorem serve_preflight (l : SimpleTokenBucket) {req : Request} (h : req.method = .options) :
    serve g d l req = (g.send ⟨204, corsHeaders (if req.origin = "" then "*" else req.origin), .none⟩, l) := by
  simp only [serve, h, hg.route_options, run_chain_of_options hg d l .none h]
  simp [corsMiddleware, h, Context.start, Context.setHeaders, corsHeaders, setItem]
  rfl

theorem run_chain_of_ne_options (l : SimpleTokenBucket) {req : Request} (r : Route)
    (h : req.method ≠ .options) :
    g.chain.run (chain d r) (Context.start req l) =
      g.chain.run (ginMiddleware :: routeChain d r)
        ((Context.start req l).setHeaders (middlewareHeaders req d.release)) := by
  have hcors : corsMiddleware (Context.start req l : Context β) =
      ((Context.start req l).setHeaders (corsHeaders (if req.origin = "" then "*" else req.origin)),
        false) := by
    simp only [corsMiddleware, request_setHeaders, Context.start, h, if_false]
    rfl
  rw [chain, List.cons_append, Gin.Chain.run_cons_of_next hg.chain _ (by rw [hcors]), hcors,
    List.cons_append, Gin.Chain.run_cons_of_next hg.chain _ rfl]
  simp only [securityHeaders, setHeaders_setHeaders, List.cons_append, List.nil_append,
    middlewareHeaders]

omit hg in
theorem keeps_routeChain {ks : List String} (hct : "Content-Type" ∉ ks) (r : Route)
    (hhandle : ∀ req cl, ∀ k ∈ keys (d.handle req cl).headers, k ∉ ks) :
    ∀ h ∈ ginMiddleware :: routeChain d r, ∀ (c : Context β), ∀ k ∈ ks,
      get (h c).1.response.headers k = get c.response.headers k := by
  intro h hmem c k hk
  have hk' : k ≠ "Content-Type" := fun he => hct (he ▸ hk)
  have hroute : get (routeHandler d.handle c).1.response.headers k = get c.response.headers k := by
    simp only [routeHandler]
    rw [get_write _ _ _ _ hk', get_setHeaders _ fun hin => hhandle _ _ k hin hk]
  rcases List.mem_cons.mp hmem with rfl | hmem
  · -- the limiter writes only its 429's content type
    simp only [ginMiddleware]
    split_ifs
    · exact get_write _ _ _ _ hk'
    · rfl
  · cases r <;> simp only [routeChain, List.mem_cons, List.not_mem_nil, or_false] at hmem
    · rw [hmem]
      exact hroute
    · rcases hmem with rfl | rfl
      · simp only [deviceAuthHandler]
        split
        · exact get_write _ _ _ _ hk'
        · rfl
      · exact hroute
    · rw [hmem]
      exact get_write _ _ _ _ hk'

/-- Every routed response but a preflight's carries the CORS and security headers. -/
theorem serve_headers (l : SimpleTokenBucket) (req : Request) :
    (req.method ≠ .options → ∀ r, g.route req.method req.path = .route r →
      (∀ req' cl, ∀ k ∈ keys (d.handle req' cl).headers, k ∉ keys (middlewareHeaders req d.release)) →
      ∀ k ∈ keys (middlewareHeaders req d.release),
        get (serve g d l req).1.headers k = get (middlewareHeaders req d.release) k) ∧
    (g.route req.method req.path = .redirect →
      ∀ k ∈ keys (middlewareHeaders req d.release), get (serve g d l req).1.headers k = none) := by
  obtain ⟨hnodup, hnames⟩ := keys_middlewareHeaders req d.release
  refine ⟨fun h r hr hhandle k hk => ?_, fun hr k hk => ?_⟩
  · obtain ⟨hnet, -, hct⟩ := hnames k hk
    simp only [serve, hr]
    rw [hg.send_headers _ _ hnet, run_chain_of_ne_options hg d l r h]
    -- the chain keeps what the middleware set
    refine Gin.Chain.run_invariant hg.chain
      (P := fun c : Context β => get c.response.headers k = get (middlewareHeaders req d.release) k)
      (fun h' hmem c hc => ?_) ?_
    · rw [keeps_routeChain d (fun he => (hnames _ he).2.2 rfl) r hhandle h' hmem c k hk, hc]
    · rw [headers_setHeaders, get_foldl_setItem, get_reverse hnodup]
      simp [Context.start]
  · obtain ⟨hnet, hloc, hct⟩ := hnames k hk
    simp only [serve, hr]
    rw [hg.send_headers _ _ hnet, hg.redirect_headers _ _ hloc hct]

/-! ## The limiter over a run -/

omit hg

def Body.isRateLimit : Body β → Bool
  | .error m => m == "rate limit"
  | _ => false

def Response.refused (r : Response β) : Bool := r.status == 429 && r.body.isRateLimit

/-- Whether a request reaches the limiter: it is routed to handlers, and not a preflight. -/
def reachesLimiter (g : Gin β) (req : Request) : Bool :=
  req.method != .options && g.route req.method req.path != .redirect

def counted (g : Gin β) (reqs : List Request) : List Request := reqs.filter (reachesLimiter g)

/-- The requests of a run that the limiter counts for `ip`. -/
def countedFor (g : Gin β) (reqs : List Request) (ip : String) : List Request :=
  reqs.filter fun r => reachesLimiter g r ∧ (limiterCall r).1 = ip

/-- Whether each request of a run that the limiter counts for `ip` got past it, in order. -/
def passedFor (g : Gin β) (d : Deployment β) (l : SimpleTokenBucket) (reqs : List Request)
    (ip : String) : List Bool :=
  ((reqs.zip (outputs (serve g d) l reqs)).filter fun x =>
    reachesLimiter g x.1 ∧ (limiterCall x.1).1 = ip).map fun x => !x.2.refused

include hg

theorem serve_of_not_reaches (l : SimpleTokenBucket) {req : Request}
    (h : reachesLimiter g req = false) :
    (serve g d l req).2 = l ∧ (serve g d l req).1.refused = false := by
  simp only [reachesLimiter, Bool.and_eq_false_iff, bne_eq_false_iff_eq] at h
  rcases h with h | h
  · rw [serve_preflight hg d l h]
    refine ⟨rfl, ?_⟩
    simp [Response.refused, hg.send_status]
  · simp only [serve, h, true_and]
    simp only [Response.refused, hg.send_status, hg.redirect_status]
    split_ifs <;> rfl

omit hg in
theorem routeChain_keeps (route : Route) (L : SimpleTokenBucket) :
    ∀ h ∈ routeChain d route, ∀ c : Context β,
      c.limiter = L ∧ c.response.body.isRateLimit = false →
        (h c).1.limiter = L ∧ (h c).1.response.body.isRateLimit = false := by
  intro h hmem c hc
  cases route <;> simp only [routeChain, List.mem_cons, List.not_mem_nil, or_false] at hmem
  all_goals rcases hmem with rfl | rfl
  all_goals first
    | exact ⟨hc.1, rfl⟩
    | skip
  -- `DeviceAuth`: a 401 with its own message, or the claims
  simp only [deviceAuthHandler]
  split
  · rename_i m hm
    rcases deviceAuth_error _ hm with rfl | rfl <;> exact ⟨hc.1, rfl⟩
  · exact hc

/-- A request that reaches the limiter gets the 429 exactly when `allow` refuses it. -/
theorem serve_limiter (l : SimpleTokenBucket) {req : Request} (h : reachesLimiter g req = true) :
    (serve g d l req).1.refused = !(l.allow (limiterCall req).1 (limiterCall req).2).1 ∧
      (serve g d l req).2 = (l.allow (limiterCall req).1 (limiterCall req).2).2 := by
  simp only [reachesLimiter, Bool.and_eq_true, bne_iff_ne, ne_eq] at h
  obtain ⟨hopt, hred⟩ := h
  obtain ⟨r, hr⟩ : ∃ r, g.route req.method req.path = .route r := by
    cases hd : g.route req.method req.path with
    | route r => exact ⟨r, rfl⟩
    | redirect => exact absurd hd hred
  simp only [serve, hr]
  rw [run_chain_of_ne_options hg d l r hopt]
  set c₀ : Context β := (Context.start req l).setHeaders (middlewareHeaders req d.release)
  have hreq : c₀.request = req := rfl
  have hlim : c₀.limiter = l := rfl
  have hbody : c₀.response.body = .none := rfl
  by_cases hp : (l.allow (limiterCall req).1 (limiterCall req).2).1 = true
  · -- let through: the route's handlers keep the limiter and answer something else
    have hn : (ginMiddleware c₀).2 = false := by simp [ginMiddleware, hreq, hlim, hp]
    have hl : (ginMiddleware c₀).1.limiter = (l.allow (limiterCall req).1 (limiterCall req).2).2 := by
      simp [ginMiddleware, hreq, hlim, hp]
    rw [Gin.Chain.run_cons_of_next hg.chain _ hn]
    obtain ⟨hl', hb⟩ := Gin.Chain.run_invariant hg.chain (routeChain_keeps d r _) (c := (ginMiddleware c₀).1)
      ⟨hl, by simp [ginMiddleware, hreq, hlim, hp, hbody, Body.isRateLimit]⟩
    refine ⟨?_, hl'⟩
    simp [Response.refused, hg.send_status, hg.send_body, hb, hp]
  · have ha : (ginMiddleware c₀).2 = true := by simp [ginMiddleware, hreq, hlim, hp]
    rw [Gin.Chain.run_cons_of_abort hg.chain _ ha]
    simp [ginMiddleware, hreq, hlim, hp, Context.json, Context.write, Response.refused, Body.isRateLimit,
      hg.send_status, hg.send_body]

theorem serve_counted (l : SimpleTokenBucket) (reqs : List Request) :
    (reqs.zip (outputs (serve g d) l reqs)).filter (fun x => reachesLimiter g x.1) =
      (counted g reqs).zip (outputs (serve g d) l (counted g reqs)) := by
  have hkeep : ∀ l req, (!reachesLimiter g req) = true → (serve g d l req).2 = l :=
    fun l req hp => (serve_of_not_reaches hg d l (by simpa using hp)).1
  have h := outputs_filter hkeep l reqs
  simpa [counted] using h

theorem refused_outputs (l : SimpleTokenBucket) (reqs : List Request)
    (h : ∀ r ∈ reqs, reachesLimiter g r = true) :
    (outputs (serve g d) l reqs).map Response.refused = (l.allowAll (reqs.map limiterCall)).map (!·) := by
  induction reqs generalizing l with
  | nil => rfl
  | cons r reqs ih =>
    obtain ⟨hrefused, hnext⟩ := serve_limiter hg d l (h r List.mem_cons_self)
    rw [outputs_cons, List.map_cons, hrefused, hnext,
      ih _ fun r' hr' => h r' (List.mem_cons_of_mem r hr')]
    rfl

omit hg in
theorem callTimes_counted (g : Gin β) (reqs : List Request) (ip : String) :
    callTimes ((counted g reqs).map limiterCall) ip = (countedFor g reqs ip).map fun r => (r.time : ℤ) := by
  simp only [callTimes, counted, countedFor, List.filter_map, List.map_map, List.filter_filter]
  congr 1
  · apply List.filter_congr
    intro r _
    simp [Bool.and_comm]

theorem passedFor_answers (l : SimpleTokenBucket) (reqs : List Request) (ip : String) :
    passedFor g d l reqs ip = l.answers ((counted g reqs).map limiterCall) ip := by
  have hcs : ∀ r ∈ counted g reqs, reachesLimiter g r = true :=
    fun r hr => (List.mem_filter.mp hr).2
  -- the answers to the requests that reach the limiter are those of `allow`
  have hout : (outputs (serve g d) l (counted g reqs)).map (fun r => !r.refused) =
      l.allowAll ((counted g reqs).map limiterCall) := by
    have h := congrArg (List.map (!·)) (refused_outputs hg d l (counted g reqs) hcs)
    simpa [List.map_map, Function.comp_def] using h
  have hpass : passedFor g d l reqs ip =
      (((counted g reqs).zip (outputs (serve g d) l (counted g reqs))).filter
        fun x => (limiterCall x.1).1 = ip).map fun x => !x.2.refused := by
    rw [passedFor, ← serve_counted hg, List.filter_filter]
    congr 1
    apply List.filter_congr
    intro x _
    simp [Bool.and_comm]
  rw [hpass, SimpleTokenBucket.answers, ← hout, List.zip_map, List.filter_map, List.map_map]
  rfl

/-- Seen from one address, the server is the limiter alone, fed that address's calls. -/
theorem passedFor_eq (l : SimpleTokenBucket) (reqs : List Request) (ip : String) :
    passedFor g d l reqs ip =
      allowBuckets l.capacity l.rate (l.state ip) ((countedFor g reqs ip).map fun r => (r.time : ℤ)) ∧
    ∀ x ∈ reqs.zip (outputs (serve g d) l reqs), reachesLimiter g x.1 = false → x.2.refused = false := by
  refine ⟨by rw [passedFor_answers hg, answers_eq, callTimes_counted], ?_⟩
  intro x hx hreach
  -- a request that does not reach the limiter gets an answer of its own
  induction reqs generalizing l with
  | nil => simp at hx
  | cons r reqs ih =>
    rw [outputs_cons, List.zip_cons_cons, List.mem_cons] at hx
    rcases hx with rfl | hx
    · exact (serve_of_not_reaches hg d l hreach).2
    · exact ih _ hx

theorem passedFor_newSimpleTokenBucket (perMin : ℤ) (reqs : List Request) (ip : String) :
    passedFor g d (newSimpleTokenBucket perMin perMin) reqs ip =
      allowBuckets perMin perMin none ((countedFor g reqs ip).map fun r => (r.time : ℤ)) := by
  have hcap : (newSimpleTokenBucket perMin perMin).capacity = perMin := ite_self _
  rw [(passedFor_eq hg d _ reqs ip).1, hcap, rate_newSimpleTokenBucket, state_newSimpleTokenBucket]

/-- In any window an address gets at most capacity plus refill requests past the limiter. -/
theorem serve_rate_limit {perMin : ℤ} (hR : 1 ≤ perMin) (hR' : perMin ≤ 2 ^ 15)
    {reqs : List Request} (htime : ∀ r ∈ reqs, r.time < 2 ^ 63)
    (hsorted : reqs.Pairwise fun r r' => r.time ≤ r'.time) (ip : String) {i j : ℕ} (hij : i ≤ j)
    (hj : j < (countedFor g reqs ip).length) :
    ((((passedFor g d (newSimpleTokenBucket perMin perMin) reqs ip).drop i).take (j + 1 - i)).count true
        : ℤ) ≤
      perMin + ((countedFor g reqs ip)[j].time - (countedFor g reqs ip)[i].time : ℤ) * perMin /
        60000000000 := by
  have hts : ((countedFor g reqs ip).map fun r => (r.time : ℤ)).Pairwise (· ≤ ·) :=
    List.pairwise_map.mpr ((hsorted.sublist List.filter_sublist).imp fun h => by exact_mod_cast h)
  have hread : ∀ t ∈ (countedFor g reqs ip).map fun r => (r.time : ℤ), IsReading t := by
    intro t ht
    obtain ⟨r, hr, rfl⟩ := List.mem_map.mp ht
    exact ⟨by positivity, by exact_mod_cast htime r (List.mem_filter.mp hr).1⟩
  have hCR : InRange perMin perMin := ⟨hR, hR', by omega, by omega⟩
  rw [passedFor_newSimpleTokenBucket hg]
  have h := allowBuckets_window hCR hts hread hij (by simpa using hj)
  rwa [List.getElem_map, List.getElem_map] at h

/-- A limit `≤ 0` above `math.MinInt64` lets an address through once; `math.MinInt64`, always. -/
theorem serve_rate_limit_nonpos {perMin : ℤ} (hR : perMin ≤ 0) {reqs : List Request}
    (htime : ∀ r ∈ reqs, r.time < 2 ^ 63) (hsorted : reqs.Pairwise fun r r' => r.time ≤ r'.time)
    (ip : String) :
    (-2 ^ 63 < perMin → passedFor g d (newSimpleTokenBucket perMin perMin) reqs ip =
      (List.range (countedFor g reqs ip).length).map (· == 0)) ∧
    (perMin = -2 ^ 63 → (countedFor g reqs ip).length ≤ 2 ^ 63 →
      passedFor g d (newSimpleTokenBucket perMin perMin) reqs ip =
        (countedFor g reqs ip).map fun _ => true) := by
  rw [passedFor_newSimpleTokenBucket hg]
  -- the address's requests, at sorted readings
  have hsub : (countedFor g reqs ip).Pairwise fun r r' => r.time ≤ r'.time :=
    hsorted.sublist List.filter_sublist
  have htime' : ∀ r ∈ countedFor g reqs ip, r.time < 2 ^ 63 :=
    fun r hr => htime r (List.mem_filter.mp hr).1
  refine ⟨fun hC => ?_, fun hC hlen => ?_⟩
  · cases hc : countedFor g reqs ip with
    | nil => rfl
    | cons r rs =>
      rw [hc] at hsub htime'
      rw [List.map_cons, allowBuckets_of_nonpos hR hC hR, List.length_cons, List.range_succ_eq_map]
      · simp [Function.comp_def]
      · intro t' ht'
        obtain ⟨r', hr', rfl⟩ := List.mem_map.mp ht'
        have h1 := List.rel_of_pairwise_cons hsub hr'
        have h2 := htime' r' (.tail _ hr')
        constructor <;> push_cast <;> omega
  · subst hC
    cases hc : countedFor g reqs ip with
    | nil => rfl
    | cons r rs =>
      rw [hc] at hsub htime' hlen
      rw [List.map_cons, allowBuckets_of_minInt64 hR (by rw [List.length_map]; simp at hlen; omega)]
      · simp
      · intro t' ht'
        obtain ⟨r', hr', rfl⟩ := List.mem_map.mp ht'
        have h1 := List.rel_of_pairwise_cons hsub hr'
        have h2 := htime' r' (.tail _ hr')
        constructor <;> push_cast <;> omega

end Headers

/-! ## A sample deployment -/

/-- One route of each kind, `/healthz/` redirected, and a net/http that stamps a date. -/
def sampleGin : Gin Unit where
  chain := Gin.Chain.loop
  route m p :=
    if m = .options then .route .none
    else if p = "/healthz/" then .redirect
    else if p = "/healthz" then .route .engine
    else if p = "/v1/checkins" then .route .device
    else .route .none
  redirect req := ⟨if req.method = .get then 301 else 307, [("Location", "/healthz")], .none⟩
  send r := { r with headers := setItem r.headers "Date" "Tue, 10 Nov 2026 00:00:00 GMT" }

theorem sampleGin_lawful : sampleGin.Lawful where
  chain := Gin.Chain.loop_lawful
  route_options _ := rfl
  redirect_status _ := rfl
  redirect_headers _ k hl _ := by
    simp [sampleGin, Dict.get, Ne.symm hl]
  send_status _ := rfl
  send_body _ := rfl
  send_headers r k hk := by
    have hd : "Date" ≠ k := fun h => hk (by simp [← h, netHeaderNames])
    simp only [sampleGin, get_setItem, if_neg hd]

def sampleDeployment : Deployment Unit :=
  ⟨true, concatJwt, [], [], fun _ _ => ⟨[], 200, "application/json; charset=utf-8", ()⟩⟩

def bareRequest (method : Method) (path : String) (time : ℕ) : Request :=
  ⟨method, path, "", [], "", time⟩

/-- A preflight, a redirect, two health checks and a check-in, all from one address. -/
def sampleRun : List Request :=
  [bareRequest .options "/v1/checkins" 0, bareRequest .get "/healthz/" 0,
    bareRequest .get "/healthz" 0, bareRequest .get "/healthz" 30000000000,
    bareRequest .post "/v1/checkins" 120000000000]

theorem countedFor_sampleRun :
    countedFor sampleGin sampleRun "unknown" = [bareRequest .get "/healthz" 0,
      bareRequest .get "/healthz" 30000000000, bareRequest .post "/v1/checkins" 120000000000] := by
  simp [countedFor, sampleRun, reachesLimiter, sampleGin, bareRequest, limiterCall]

theorem sampleRun_readings :
    (∀ r ∈ sampleRun, r.time < 2 ^ 63) ∧ sampleRun.Pairwise fun r r' => r.time ≤ r'.time := by
  constructor <;> decide

theorem serve_headers_sample :
    sampleGin.Lawful ∧
      get (serve sampleGin sampleDeployment (newSimpleTokenBucket 1 1)
        (bareRequest .get "/healthz" 0)).1.headers "X-Frame-Options" = some "DENY" ∧
      get (serve sampleGin sampleDeployment (newSimpleTokenBucket 1 1)
        (bareRequest .get "/healthz/" 0)).1.headers "X-Frame-Options" = none := by
  have h := serve_headers sampleGin_lawful sampleDeployment (newSimpleTokenBucket 1 1)
  have hk : "X-Frame-Options" ∈ keys (middlewareHeaders (bareRequest .get "/healthz" 0) true) := by
    simp [keys, middlewareHeaders, corsHeaders, securityHeaderList]
  refine ⟨sampleGin_lawful, ?_, ?_⟩
  · rw [(h (bareRequest .get "/healthz" 0)).1 (by decide) .engine (by simp [sampleGin, bareRequest])
      (fun _ _ k hk => by simp [sampleDeployment, keys] at hk) "X-Frame-Options" hk]
    simp [middlewareHeaders, corsHeaders, securityHeaderList, Dict.get]
  · exact (h (bareRequest .get "/healthz/" 0)).2 (by simp [sampleGin, bareRequest]) "X-Frame-Options"
      (by simp [keys, middlewareHeaders, corsHeaders, securityHeaderList])

theorem passedFor_eq_sample :
    sampleGin.Lawful ∧
      passedFor sampleGin sampleDeployment (newSimpleTokenBucket 1 1) sampleRun "unknown" =
        allowBuckets 1 1 none [0, 30000000000, 120000000000] ∧
      ∀ x ∈ sampleRun.zip (outputs (serve sampleGin sampleDeployment) (newSimpleTokenBucket 1 1)
        sampleRun), reachesLimiter sampleGin x.1 = false → x.2.refused = false := by
  obtain ⟨h, hno⟩ := passedFor_eq sampleGin_lawful sampleDeployment (newSimpleTokenBucket 1 1)
    sampleRun "unknown"
  refine ⟨sampleGin_lawful, ?_, hno⟩
  rw [h, countedFor_sampleRun]
  rfl

theorem serve_rate_limit_sample :
    ((((passedFor sampleGin sampleDeployment (newSimpleTokenBucket 1 1) sampleRun "unknown").drop
        0).take 3).count true : ℤ) ≤ 1 + (120000000000 - 0) * 1 / 60000000000 := by
  have hj : 2 < (countedFor sampleGin sampleRun "unknown").length := by
    rw [countedFor_sampleRun]
    decide
  have h := serve_rate_limit sampleGin_lawful sampleDeployment le_rfl (by norm_num)
    sampleRun_readings.1 sampleRun_readings.2 "unknown" (Nat.zero_le 2) hj
  simpa [countedFor_sampleRun, bareRequest] using h

theorem serve_rate_limit_nonpos_sample :
    passedFor sampleGin sampleDeployment (newSimpleTokenBucket 0 0) sampleRun "unknown" =
        [true, false, false] ∧
      passedFor sampleGin sampleDeployment (newSimpleTokenBucket (-2 ^ 63) (-2 ^ 63)) sampleRun
        "unknown" = [true, true, true] := by
  have h0 := serve_rate_limit_nonpos sampleGin_lawful sampleDeployment (le_refl (0 : ℤ))
    sampleRun_readings.1 sampleRun_readings.2 "unknown"
  have hmin := serve_rate_limit_nonpos sampleGin_lawful sampleDeployment
    (show (-2 ^ 63 : ℤ) ≤ 0 by norm_num) sampleRun_readings.1 sampleRun_readings.2 "unknown"
  rw [h0.1 (by norm_num), hmin.2 rfl (by rw [countedFor_sampleRun]; norm_num), countedFor_sampleRun]
  exact ⟨rfl, rfl⟩

end GoAttend.Api
