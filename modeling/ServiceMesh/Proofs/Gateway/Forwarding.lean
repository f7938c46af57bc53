import ServiceMesh.Proofs.Balance.Clients
import ServiceMesh.Proofs.Gateway.Marking
import ServiceMesh.Proofs.Url.Web

/-!
What a backend is asked. A request of a route is forwarded to one backend of its service, with the
beginning that matched taken off its path and with all of its headers but those that concern the
gateway or the connection. Neither its path nor its query can lead it to another host.
-/

namespace ServiceMesh

/-! ### Selection -/

namespace Pool

variable {p : Pool} {d : Directory}

/-- The clients of a pool that is up to date have addresses of nodes. -/
theorem InSync.exists_node (h : p.InSync d) {b : Backend} (hb : b ∈ p.clients) :
    ∃ n : Node, b.addr = n.addr := by
  have htarget := (h.2 b).1 hb
  rw [targets] at htarget
  split at htarget
  · cases htarget
  · obtain ⟨name, -, hname⟩ := List.mem_flatMap.1 htarget
    split at hname
    · obtain ⟨n, -, rfl⟩ := List.mem_map.1 hname
      exact ⟨n, rfl⟩
    · cases hname

end Pool

theorem Node.colon_mem_addr (n : Node) : ':' ∈ n.addr.toList := by
  simp [addr, address]

/-! ### What is written anew -/

theorem Route.IsReadable.isWritable {r : Route} (h : r.IsReadable) : r.IsWritable :=
  fun s hs => (h s hs).isLegalValue

namespace Routing

theorem dropStart_append (start rest : List Char) : dropStart start (start ++ rest) = rest := by
  rw [dropStart, if_pos (List.isPrefixOf_iff_prefix.2 (List.prefix_append _ _)), List.drop_left]

def askedPath (path start : String) : String :=
  let rest := dropStart start.toList path.toList
  String.ofList (if rest.head? = some '/' then rest else '/' :: rest)

theorem rewritePath_eq (path start : String) (query : Option String) :
    rewritePath path query start = askedPath path start ++ (query.map ("?" ++ ·)).getD "" := by
  cases query with
  | none => rw [rewritePath.eq_def]; rfl
  | some q => rw [rewritePath.eq_def]; rfl

/-- Behind the beginning that is taken off there is one slash more, unless there was one. -/
theorem askedPath_append (start rest : String) :
    askedPath (start ++ rest) start =
      if rest.toList.head? = some '/' then rest else "/" ++ rest := by
  rw [askedPath, String.toList_append, dropStart_append]
  split
  · exact String.ofList_toList
  · rw [← String.toList_inj]
    simp

theorem head?_askedPath (path start : String) : (askedPath path start).toList.head? = some '/' := by
  rw [askedPath, String.toList_ofList]
  split
  · assumption
  · rfl

theorem head?_rewritePath (path start : String) (query : Option String) :
    (rewritePath path query start).toList.head? = some '/' := by
  rw [rewritePath_eq, String.toList_append, List.head?_append, head?_askedPath]
  rfl

/-- What a backend reads of the headers of a request. -/
theorem values_forwardHeaders (hs : Http.Headers) (forwardedFor name : String) :
    (forwardHeaders hs forwardedFor).values name =
      if isHeldBack name then []
      else hs.values name ++
        if name = "x-forwarded-for" ∧ Http.Header.isLegalValue (Utf8.bytes forwardedFor) = true then
          [Utf8.bytes forwardedFor]
        else [] := by
  have hkept : Http.Headers.values (hs.filter fun h => !isHeldBack h.name) name =
      if isHeldBack name then [] else hs.values name := by
    rw [Http.Headers.values_filter hs (fun n => !isHeldBack n)]
    cases isHeldBack name with
    | true => rfl
    | false => rfl
  have hfree : isHeldBack "x-forwarded-for" = false := by decide
  rw [forwardHeaders]
  by_cases hlegal : Http.Header.isLegalValue (Utf8.bytes forwardedFor) = true
  · rw [if_pos hlegal, Http.Headers.add, Http.Headers.values_append, hkept,
      Http.Headers.values_singleton]
    by_cases hname : name = "x-forwarded-for"
    · subst hname
      simp [hfree, hlegal]
    · simp [hname, Ne.symm hname]
  · simp [hlegal, hkept]

end Routing

namespace Gateway

open Gateway.Flow

/-- A request with a short body is handed to the client of the backend that is selected for it. -/
theorem Dispatcher.perform_reverseProxy_ok (d : Dispatcher) {req : Http.Request} {t : Traffic}
    {service : String} {pool : Pool} {b : Backend} (hselect : t.pool.select service = (pool, .ok b))
    (hbody : req.body.size ≤ bodyLimit) (start : String) :
    (d.reverseProxy req service start).perform t =
      (.ok (passBack (d.exchange req b start req.body).1),
        { t with pool, sent := t.sent ++ (d.exchange req b start req.body).2 }) := by
  rw [perform_reverseProxy, hselect]
  dsimp only
  rw [bodyOf, if_neg (Nat.not_lt.2 hbody)]

/-- The path and the query of a request do not change where the address of a node leads to. -/
theorem authority_url {n : Node} {b : Backend} (h : b.addr = n.addr) {path path' : String}
    (hpath : path.toList.head? = some '/') (hpath' : path'.toList.head? = some '/') :
    (Url.parse? (b.url path)).map Url.authority = (Url.parse? (b.url path')).map Url.authority := by
  refine Url.authority_parse?_of_slash ⟨':', ?_, by decide⟩ hpath hpath' none
  rw [h]
  exact n.colon_mem_addr

/-- If the routes can be read from headers, a request of a route to backends is passed on with the
mark of this route, and the client of one backend of the service is handed exactly one request. It
has the method and the body of the request, and its address is that of the backend with what follows
the path of the route, behind a slash, and with the query of the request; so it leads to no other
host than any address at this backend does. It has all values of all headers of the request that was
passed on, in their order, but for the headers that are held back; the address of the gateway is
added to those whom the request is forwarded for. -/
theorem forwarded_exactly (d : Dispatcher) (routes : List Route) (req : Http.Request) (t : Traffic)
    {r : Route} {dir : Directory} (hreadable : ∀ r ∈ routes, r.IsReadable)
    (hmatch : Routing.IsFirstMatch routes req.target.path r)
    (hschema : Scheme.parse? r.schema = some .reverseProxy) (hsynced : t.pool.InSync dir)
    (hclient : ∃ b ∈ t.pool.clients, b.service = r.id)
    (hbody : req.body.size ≤ Dispatcher.bodyLimit) :
    ∃ q b pool rest,
      (Interceptor.routeMatch routes).PassesOn req q ∧ q = { req with headers := q.headers } ∧
      t.pool.select r.id = (pool, .ok b) ∧ b ∈ t.pool.clients ∧ b.service = r.id ∧
      req.target.path = r.path ++ rest ∧
      let resource := (if rest.toList.head? = some '/' then rest else "/" ++ rest) ++
        (req.target.query.map ("?" ++ ·)).getD ""
      let headers := Routing.forwardHeaders q.headers d.forwardedFor
      let handed := Http.Client.exchange d.net req.method (b.url resource) headers req.body
      (d.dispatch q).perform t =
        (.ok (Dispatcher.passBack handed.1), { t with pool, sent := t.sent ++ handed.2 }) ∧
      (∀ name, headers.values name =
        if Routing.isHeldBack name then []
        else q.headers.values name ++
          if name = "x-forwarded-for" ∧
              Http.Header.isLegalValue (Utf8.bytes d.forwardedFor) = true then
            [Utf8.bytes d.forwardedFor]
          else []) ∧
      ∀ other : String, other.toList.head? = some '/' →
        (Url.parse? (b.url resource)).map Url.authority =
          (Url.parse? (b.url other)).map Url.authority := by
  obtain ⟨before, after, hroutes, ⟨rest, hrest⟩, -⟩ := id hmatch
  have hr : r.IsReadable := hreadable r (by rw [hroutes]; simp)
  have hpath : req.target.path = r.path ++ String.ofList rest := by
    rw [← String.toList_inj, String.toList_append, String.toList_ofList, hrest]
  -- the mark of a route that can be read is read as that route
  obtain ⟨headers, hmark⟩ : ∃ headers, Routing.mark? r req.headers = some headers :=
    ⟨_, by rw [Routing.mark?_eq, if_pos hr.isWritable]⟩
  have hroute : Routing.routeOf headers = r :=
    (Routing.routeOf_mark? hmark).trans (Route.asRead_eq_self_iff.2 hr)
  have hpass := Interceptor.passesOn_routeMatch_iff.2 ⟨r, headers, hmatch, hmark, rfl⟩
  obtain ⟨b, hmem, hservice, hselect⟩ := Pool.exists_select hsynced.1 hclient
  obtain ⟨n, hn⟩ := hsynced.exists_node hmem
  refine ⟨{ req with headers }, b, _, String.ofList rest, hpass, rfl, hselect, hmem, hservice,
    hpath, ?_⟩
  rw [← Routing.askedPath_append, ← hpath, ← Routing.rewritePath_eq]
  refine ⟨?_, Routing.values_forwardHeaders headers d.forwardedFor, fun other hother => ?_⟩
  · have hserve : d.dispatch { req with headers } =
        d.reverseProxy { req with headers } r.id r.path := by
      rw [Dispatcher.dispatch_eq, hroute, Dispatcher.serve, hschema]
    have hshort : ({ req with headers } : Http.Request).body.size ≤ Dispatcher.bodyLimit := hbody
    rw [hserve, d.perform_reverseProxy_ok hselect hshort r.path, Dispatcher.exchange]
  · exact authority_url hn (Routing.head?_rewritePath _ _ _) hother

def single : Directory where
  service name := .ok ⟨name, [⟨"1", "svc", "/servers/svc/1", "127.0.0.1", 9001, ∅⟩]⟩
  names := .ok ["svc"]

/-- A request for this service, which was forwarded before. -/
def secondHand : Http.Request where
  method := "GET"
  target := ⟨none, none, "/svc/ping?x=1"⟩
  headers := [⟨"host", Utf8.bytes "gw"⟩, ⟨"x-forwarded-for", Utf8.bytes "192.0.2.1"⟩]

def pingUrl : Url where
  scheme := "http"
  host := some "127.0.0.1"
  port := some 9001
  path := "/ping"
  query := some "x=1"

theorem address_ping : Http.Client.address "http://127.0.0.1:9001/ping?x=1" = .ok pingUrl := by
  have hparse : Url.parse? "http://127.0.0.1:9001/ping?x=1" = some pingUrl := by decide +kernel
  rw [Http.Client.address, hparse]
  dsimp only
  rw [if_neg (by decide), if_pos ⟨.inl rfl, by decide +kernel⟩]
  rfl

/-- It is sent to the node, without the beginning of its path and without its host. -/
theorem forwarded_exactly_ping :
    let routes : List Route := [⟨"svc", "/svc/", "reverse-proxy"⟩]
    let d : Dispatcher := {
      net := .unreachable, timeout := 30000, forwardedFor := "10.0.0.1", date := "" }
    let t : Traffic := { pool := ({ roundRobin := ⟨0⟩ } : Pool).sync single }
    ∃ q o, (Interceptor.routeMatch routes).PassesOn secondHand q ∧
      ((d.dispatch q).perform t).2.sent = [o] ∧ o.method = "GET" ∧ o.url = pingUrl ∧
      (Routing.forwardHeaders q.headers d.forwardedFor).values "host" = [] := by
  intro routes d t
  have hclients : t.pool.clients = [⟨"127.0.0.1:9001", "svc"⟩] := by decide
  have hmatch : Routing.IsFirstMatch routes secondHand.target.path
      ⟨"svc", "/svc/", "reverse-proxy"⟩ := ⟨[], [], rfl, by decide, by simp⟩
  obtain ⟨q, b, pool, rest, hpass, -, -, hmem, -, hpath, hperform, hvalues, -⟩ :=
    forwarded_exactly d routes secondHand t (by decide) hmatch (by decide)
      (Pool.inSync_sync _ single) ⟨⟨"127.0.0.1:9001", "svc"⟩, by rw [hclients]; simp, rfl⟩
      (by decide)
  rw [hclients] at hmem
  obtain rfl := List.mem_singleton.1 hmem
  obtain rfl : rest = "ping" := by
    have hasked : secondHand.target.path = "/svc/" ++ "ping" := by decide
    rw [hasked, ← String.toList_inj, String.toList_append, String.toList_append] at hpath
    exact String.toList_inj.1 (List.append_cancel_left hpath).symm
  have hurl : Backend.url ⟨"127.0.0.1:9001", "svc"⟩
      ((if "ping".toList.head? = some '/' then "ping" else "/" ++ "ping") ++
        (secondHand.target.query.map ("?" ++ ·)).getD "") = "http://127.0.0.1:9001/ping?x=1" := by
    decide
  rw [hurl] at hperform
  have hsent : ((d.dispatch q).perform t).2.sent =
      [⟨"GET", pingUrl, (Routing.forwardHeaders q.headers d.forwardedFor).addMissing "accept"
        (Utf8.bytes "*/*"), secondHand.body⟩] := by
    rw [hperform, Http.Client.exchange, Http.Client.prepare, address_ping]
    rfl
  exact ⟨q, _, hpass, hsent, rfl, rfl, hvalues "host"⟩

end Gateway

end ServiceMesh
