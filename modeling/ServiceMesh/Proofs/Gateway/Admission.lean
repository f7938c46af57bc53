import ServiceMesh.Gateway.Server
import ServiceMesh.Proofs.Gateway.Flow
import ServiceMesh.Proofs.Gateway.Routing

/-!
How a request gets through the usual interceptors. It is named, and then it is either refused with
an envelope or handed on to the terminal, marked with its route; what the terminal makes of it comes
back as it is, but for a panic. So whatever lies behind the interceptors is out of reach for a
request that has neither an open path nor a token.
-/

namespace ServiceMesh.Gateway

open Gateway.Flow

variable {fresh : Nat → String} {routes : List Route} {whiteList : List String}

namespace Interceptor

def identify (fresh : Nat → String) (hs : Http.Headers) (t : Traffic) : String × Traffic :=
  match hs.text? requestIdHeader with
  | some id => (id, t)
  | none => (fresh t.named, { t with named := t.named + 1 })

def identified (hs : Http.Headers) (id : String) : Http.Headers :=
  if Http.Header.isLegalValue (Utf8.bytes id) then hs.set requestIdHeader (Utf8.bytes id) else hs

/-- Giving an identifier to a request touches nothing but the number of identifiers given. -/
theorem exists_identify_eq (fresh : Nat → String) (hs : Http.Headers) (t : Traffic) :
    ∃ named, (identify fresh hs t).2 = { t with named } := by
  rw [identify]
  split
  · exact ⟨t.named, rfl⟩
  · exact ⟨t.named + 1, rfl⟩

theorem first?_identified {name : String} (h : name ≠ requestIdHeader) (hs : Http.Headers)
    (id : String) : (identified hs id).first? name = hs.first? name := by
  rw [identified]
  split
  · exact Http.Headers.first?_set_of_ne h hs _
  · rfl

theorem perform_requestId (fresh : Nat → String) (hs : Http.Headers) (t : Traffic) :
    (requestId fresh hs).perform t =
      (.ok (identify fresh hs t).1, (identify fresh hs t).2) := by
  rw [requestId, identify]
  cases hs.text? requestIdHeader with
  | some id => rfl
  | none => rfl

theorem perform_log (next : Handler) (req : Http.Request) (t : Traffic) :
    ((log fresh).wrap next req).perform t =
      (next { req with headers := identified req.headers (identify fresh req.headers t).1 }).perform
        (identify fresh req.headers t).2 := by
  rw [log, perform_bind, perform_requestId, identified]
  dsimp only
  split
  · rfl
  · rfl

/-- A panic is answered with an envelope, everything else is left as it is. -/
theorem perform_recover (next : Handler) (req : Http.Request) (t : Traffic) :
    (recover.wrap next req).perform t =
      match (next req).perform t with
      | (.ok r, t') => (.ok r, t')
      | (.error p, t') => (.ok (Envelope.failedWith .common p.message).response, t') := by
  change (tryCatch (next req) _).perform t = _
  rw [perform_tryCatch]
  cases (next req).perform t with
  | mk r t' => cases r <;> rfl

end Interceptor

open Interceptor

/-- What becomes of a request once it has its identifier: it is refused with an envelope, or it is
marked with its route and handed on. -/
def screen (routes : List Route) (whiteList : List String) (id : String) (req : Http.Request) :
    Except Envelope Http.Request :=
  match (Routing.matchRoute routes req.target.path).bind fun r =>
      Routing.mark? r (identified req.headers id) with
  | none => .error noRoute
  | some headers =>
    if mayPass whiteList { req with headers } then .ok { req with headers } else .error noToken

theorem sorted_defaultChain :
    (defaultChain fresh routes whiteList).sorted =
      [(3, .auth whiteList), (1, .routeMatch routes), (-9, .log fresh), (-10, .recover)] := by
  simp [defaultChain, Chain.sorted, Chain.add, List.mergeSort,
    List.MergeSort.Internal.splitInTwo]

/-- The usual interceptors answer for themselves if a request is refused, and hand it on to the
terminal if it is not. -/
theorem perform_defaultChain (terminal : Handler) (req : Http.Request) (t : Traffic) :
    ((defaultChain fresh routes whiteList).build terminal req).perform t =
      match screen routes whiteList (identify fresh req.headers t).1 req with
      | .error e => (.ok e.response, (identify fresh req.headers t).2)
      | .ok req' => (recover.wrap terminal req').perform (identify fresh req.headers t).2 := by
  have hbuild : (defaultChain fresh routes whiteList).build terminal =
      recover.wrap ((log fresh).wrap ((routeMatch routes).wrap
        ((auth whiteList).wrap terminal))) := by
    rw [Chain.build, sorted_defaultChain]
    rfl
  rw [hbuild, perform_recover, perform_log, screen, routeMatch]
  dsimp only
  cases (Routing.matchRoute routes req.target.path).bind fun r =>
      Routing.mark? r (identified req.headers (identify fresh req.headers t).1) with
  | none => rfl
  | some headers =>
      rw [auth]
      dsimp only
      cases mayPass whiteList { req with headers } with
      | true =>
          rw [if_pos rfl, if_pos rfl]
          exact (perform_recover terminal _ _).symm
      | false => rfl

/-! ### Who gets through -/

/-- The request has an open path or brings a token. -/
theorem mayPass_iff {req : Http.Request} :
    mayPass whiteList req = true ↔ req.target.path ∈ whiteList ∨
      ∃ token ∈ req.headers.first? "authorization", token ≠ [] := by
  rw [mayPass, Bool.or_eq_true, decide_eq_true_iff]
  cases req.headers.first? "authorization" with
  | none => simp
  | some token => simp

/-- A request that is admitted is the one that came, but for its identifier and its mark. -/
structure Resembles (req req' : Http.Request) : Prop where
  method : req'.method = req.method
  target : req'.target = req.target
  body : req'.body = req.body
  token : req'.headers.first? "authorization" = req.headers.first? "authorization"

theorem Resembles.mayPass {req req' : Http.Request} (h : Resembles req req') :
    Interceptor.mayPass whiteList req' = Interceptor.mayPass whiteList req := by
  rw [Interceptor.mayPass, Interceptor.mayPass, h.target, h.token]

/-- Admitted are the requests that have a route that can be written and may pass. -/
theorem screen_cases (routes : List Route) (whiteList : List String) (id : String)
    (req : Http.Request) :
    (¬Routing.IsRoutable routes req.target.path ∧
        screen routes whiteList id req = .error noRoute) ∨
      (Routing.IsRoutable routes req.target.path ∧ Interceptor.mayPass whiteList req = false ∧
        screen routes whiteList id req = .error noToken) ∨
      (Routing.IsRoutable routes req.target.path ∧ Interceptor.mayPass whiteList req = true ∧
        ∃ req', Resembles req req' ∧ screen routes whiteList id req = .ok req') := by
  have hroutable : Routing.IsRoutable routes req.target.path ↔ _ :=
    Routing.isRoutable_iff (identified req.headers id)
  rw [screen]
  cases hmark : (Routing.matchRoute routes req.target.path).bind fun r =>
      Routing.mark? r (identified req.headers id) with
  | none =>
      rw [hmark] at hroutable
      exact .inl ⟨by simpa using hroutable, rfl⟩
  | some headers =>
      rw [hmark] at hroutable
      have hyes := hroutable.2 rfl
      obtain ⟨r, -, hr⟩ := Option.bind_eq_some_iff.1 hmark
      have hlike : Resembles req { req with headers } := by
        refine ⟨rfl, rfl, rfl, ?_⟩
        rw [Routing.first?_mark? (by decide) hr, first?_identified (by decide)]
      dsimp only
      rw [hlike.mayPass]
      cases hpass : Interceptor.mayPass whiteList req with
      | false => exact .inr (.inl ⟨hyes, rfl, rfl⟩)
      | true => exact .inr (.inr ⟨hyes, rfl, _, hlike, rfl⟩)

/-- Behind a chain the terminal is asked for its answer to the second request when the first one is
sent: with another answer to it, and to nothing else, something else comes of the first. -/
def Chain.Reaches (c : Chain) (req req' : Http.Request) : Prop :=
  ∃ terminal terminal' : Handler, (∀ q, q ≠ req' → terminal q = terminal' q) ∧
    c.build terminal req ≠ c.build terminal' req

/-- The terminal is asked for its answer to the requests that are admitted, and to no others. -/
theorem reaches_defaultChain_iff {req req' : Http.Request} :
    (defaultChain fresh routes whiteList).Reaches req req' ↔
      ∃ t, screen routes whiteList (identify fresh req.headers t).1 req = .ok req' := by
  constructor
  · rintro ⟨terminal, terminal', hsame, hdiffer⟩
    by_contra hnone
    refine hdiffer (Flow.ext fun t => ?_)
    rw [perform_defaultChain, perform_defaultChain]
    cases hscreen : screen routes whiteList (identify fresh req.headers t).1 req with
    | error e => rfl
    | ok q =>
        have hq : q ≠ req' := fun he => hnone ⟨t, he ▸ hscreen⟩
        dsimp only
        rw [perform_recover, perform_recover, hsame q hq]
  · rintro ⟨t, hscreen⟩
    classical
    -- the two terminals tell the request apart from all others by the status
    let terminal (status : Nat) : Handler := fun q =>
      return { status := if q = req' then status else 0 }
    refine ⟨terminal 1, terminal 2, fun q hq => ?_, fun hequal => ?_⟩
    · simp only [terminal, if_neg hq]
    · have hperform := congrArg (fun x => x.perform t) hequal
      rw [perform_defaultChain, perform_defaultChain, hscreen] at hperform
      dsimp only at hperform
      rw [perform_recover, perform_recover] at hperform
      simp [terminal, perform_pure] at hperform

/-- The terminal gets to see a request as it came, but for the identifier and the mark. -/
theorem resembles_of_reaches {req req' : Http.Request}
    (h : (defaultChain fresh routes whiteList).Reaches req req') : Resembles req req' := by
  obtain ⟨t, hscreen⟩ := reaches_defaultChain_iff.1 h
  obtain ⟨-, herror⟩ | ⟨-, -, herror⟩ | ⟨-, -, q, hq, hok⟩ :=
    screen_cases routes whiteList (identify fresh req.headers t).1 req
  · cases herror.symm.trans hscreen
  · cases herror.symm.trans hscreen
  · obtain rfl := Except.ok.inj (hok.symm.trans hscreen)
    exact hq

theorem exists_reaches_iff {req : Http.Request} :
    (∃ req', (defaultChain fresh routes whiteList).Reaches req req') ↔
      Routing.IsRoutable routes req.target.path ∧ mayPass whiteList req = true := by
  simp only [reaches_defaultChain_iff]
  constructor
  · rintro ⟨req', t, hscreen⟩
    obtain ⟨-, herror⟩ | ⟨-, -, herror⟩ | ⟨hyes, hpass, -⟩ :=
      screen_cases routes whiteList (identify fresh req.headers t).1 req
    · cases herror.symm.trans hscreen
    · cases herror.symm.trans hscreen
    · exact ⟨hyes, hpass⟩
  · rintro ⟨hyes, hpass⟩
    let t : Traffic := { pool := { roundRobin := ⟨0⟩ } }
    obtain ⟨hno, -⟩ | ⟨-, hpass', -⟩ | ⟨-, -, req', -, hscreen⟩ :=
      screen_cases routes whiteList (identify fresh req.headers t).1 req
    · exact absurd hyes hno
    · cases hpass.symm.trans hpass'
    · exact ⟨req', t, hscreen⟩

/-- A request with neither an open path nor a token is refused: with one envelope if it has no route
that can be written in headers, with another one if it has. It leaves the pool with its counter,
the network and the adapters alone. The dispatcher gets to see the other requests that have a
route, and no others. -/
theorem refused_without_token (config : GatewayConfig) (adapters : List Adapter)
    (fresh : Nat → String) (net : Http.Network) (ownAddress date : String) (req : Http.Request) :
    let s := ({ config, adapters } : Server).withDefaults fresh
    (req.target.path ∉ config.whiteList →
      (∀ token ∈ req.headers.first? "authorization", token = []) →
      ∀ t : Traffic, ∃ r named,
        (s.handler net ownAddress date req).perform t = (.ok r, { t with named }) ∧
        r.status = 200 ∧
        (¬Routing.IsRoutable config.routes req.target.path →
          r = ({ code := 505, msg := "non router exist" } : Envelope).response) ∧
        (Routing.IsRoutable config.routes req.target.path →
          r = ({ code := 507, msg := "unauthenticate" } : Envelope).response)) ∧
    (∀ req', s.chain.Reaches req req' → Resembles req req') ∧
    ((∃ req', s.chain.Reaches req req') ↔
      Routing.IsRoutable config.routes req.target.path ∧
        (req.target.path ∈ config.whiteList ∨
          ∃ token ∈ req.headers.first? "authorization", token ≠ [])) := by
  intro s
  have hchain : s.chain = defaultChain fresh config.routes config.whiteList := rfl
  refine ⟨fun hpath htoken t => ?_, fun req' hreq' => resembles_of_reaches hreq', ?_⟩
  · have hpass : mayPass config.whiteList req = false := by
      rw [Bool.eq_false_iff, ne_eq, mayPass_iff]
      rintro (hopen | ⟨token, hmem, hne⟩)
      · exact hpath hopen
      · exact hne (htoken token hmem)
    obtain ⟨named, hnamed⟩ := exists_identify_eq fresh req.headers t
    rw [Server.handler, hchain, perform_defaultChain, hnamed]
    obtain ⟨hno, hscreen⟩ | ⟨hyes, -, hscreen⟩ | ⟨-, hpass', -⟩ :=
      screen_cases config.routes config.whiteList (identify fresh req.headers t).1 req
    · rw [hscreen]
      exact ⟨_, named, rfl, rfl, fun _ => rfl, fun hyes => absurd hyes hno⟩
    · rw [hscreen]
      exact ⟨_, named, rfl, rfl, fun hno => absurd hyes hno, fun _ => rfl⟩
    · cases hpass.symm.trans hpass'
  · rw [hchain, exists_reaches_iff, mayPass_iff]

def narrow : GatewayConfig where
  routes := [{ id := "svc", path := "/svc", schema := "reverse-proxy" }]
  whiteList := ["/svc/health"]

def ping (token : Option String) : Http.Request where
  method := "GET"
  target := ⟨none, none, "/svc/ping"⟩
  headers := token.toList.map fun s => ⟨"authorization", Utf8.bytes s⟩

theorem isRoutable_ping (token : Option String) :
    Routing.IsRoutable narrow.routes (ping token).target.path := by
  have hpath : (⟨none, none, "/svc/ping"⟩ : Http.Target).path = "/svc/ping" := by decide +kernel
  change Routing.IsRoutable narrow.routes (Http.Target.path ⟨none, none, "/svc/ping"⟩)
  rw [hpath]
  exact ⟨_, ⟨[], [], rfl, by decide +kernel, by simp⟩, by decide +kernel⟩

/-- Without a token the request is refused, and with one it gets to the dispatcher. -/
theorem refused_without_token_ping :
    let s := ({ config := narrow } : Server).withDefaults toString
    let t : Traffic := { pool := { roundRobin := ⟨7⟩ } }
    (ping none).target.path ∉ narrow.whiteList ∧
      (∀ token ∈ (ping none).headers.first? "authorization", token = []) ∧
      (∃ named, (s.handler .unreachable "10.0.0.9" "" (ping none)).perform t =
        (.ok ({ code := 507, msg := "unauthenticate" } : Envelope).response, { t with named })) ∧
      ∃ req', s.chain.Reaches (ping (some "token")) req' := by
  intro s t
  have hpath : (ping none).target.path ∉ narrow.whiteList := by decide +kernel
  have htoken : ∀ token ∈ (ping none).headers.first? "authorization", token = [] := by
    decide +kernel
  have hsigned : ∃ token ∈ (ping (some "token")).headers.first? "authorization", token ≠ [] := by
    decide +kernel
  have hrefused := refused_without_token narrow [] toString .unreachable "10.0.0.9" "" (ping none)
  have hreached := refused_without_token narrow [] toString .unreachable "10.0.0.9" ""
    (ping (some "token"))
  obtain ⟨r, named, hperform, -, -, hr⟩ := hrefused.1 hpath htoken t
  obtain rfl := hr (isRoutable_ping none)
  exact ⟨hpath, htoken, ⟨named, hperform⟩,
    hreached.2.2.2 ⟨isRoutable_ping _, .inr hsigned⟩⟩

end ServiceMesh.Gateway
