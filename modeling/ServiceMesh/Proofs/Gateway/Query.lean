import ServiceMesh.Gateway.Query
import ServiceMesh.Proofs.Gateway.Dispatcher
import ServiceMesh.Proofs.Http.Target
import ServiceMesh.Proofs.Url.Web

/-!
Whose query an adapter is given. A request without a body is handed over as an address that is put
together from its host and its resource, and the query is read from this address again. Whoever
writes a question mark or a number sign into the host decides about the query.
-/

namespace ServiceMesh

namespace Url

/-- The query that a web address is read with: it stands between the first question mark and the
first number sign. -/
def queryText (s : String) : Option String := (frontAndQuery s.toList).2.map String.ofList

/-- A host without these two marks leaves the query to what follows. -/
theorem queryText_append {host : String} (hhost : ∀ c ∈ host.toList, c ≠ '?' ∧ c ≠ '#')
    {t : Http.Target} (hne : t.pathAndQuery ≠ "")
    (hplain : ∀ c ∈ t.pathAndQuery.toList, Http.Target.IsPlain c) :
    queryText (host ++ t.pathAndQuery) = t.query := by
  have htidy : tidy (host ++ t.pathAndQuery).toList =
      (host.toList.filter fun c => !isNoise c) ++ t.pathAndQuery.toList := by
    obtain ⟨c, rest, hlist⟩ := List.exists_cons_of_ne_nil
      (show t.pathAndQuery.toList ≠ [] by simpa using hne)
    have hshown : ∀ c ∈ t.pathAndQuery.toList, isBlank c = false := by
      intro c hc
      simpa [isBlank] using (hplain c hc).1
    rw [hlist] at hshown
    rw [String.toList_append, hlist, tidy_append (hshown c List.mem_cons_self),
      tidy_of_forall fun x hx => hshown x (List.mem_cons_of_mem c hx)]
  have hquestion : '?' ∉ host.toList.filter fun c => !isNoise c :=
    fun h => (hhost _ (List.mem_filter.1 h).1).1 rfl
  have hsharp : '#' ∉ (host.toList.filter fun c => !isNoise c) ++ t.pathAndQuery.toList := by
    rw [List.mem_append]
    rintro (h | h)
    · exact (hhost _ (List.mem_filter.1 h).1).2 rfl
    · exact (hplain _ h).2 rfl
  rw [queryText, frontAndQuery, htidy, cutAt_of_notMem hsharp, cutAt_append_of_notMem hquestion,
    Http.Target.query, cutAt, drop_length_takeWhile]
  cases t.pathAndQuery.toList.dropWhile (· ≠ '?') with
  | nil => rfl
  | cons c q => rfl

end Url

namespace Query

def ofText (query : Option String) : Json :=
  ofPairs ((query.map fun q => Form.pairs (Utf8.bytes q)).getD [])

/-- The escapes in the address do not matter, and neither does the address that relative ones are
read on top of. -/
theorem toJson_http (s : String) :
    toJson ("http://" ++ s) =
      if (Url.parse? ("http://" ++ s)).isSome then ofText (Url.queryText s) else .obj [] := by
  rw [toJson, pairs?, Url.parse?_http s none, Url.parse?_http s (some home), Option.or_self,
    Option.isSome_map]
  cases Url.ofAuthority? "http" ((Url.frontAndQuery s.toList).1.dropWhile (Url.isSlash "http")) with
  | none => rfl
  | some u =>
      rw [Option.map_some, Option.map_some, Option.getD_some, Option.isSome_some, if_pos rfl, ofText,
        Url.queryText, Url.pairs]
      cases (Url.frontAndQuery s.toList).2 with
      | none => rfl
      | some q =>
          dsimp only [Url.withTail, Option.map_some, Option.getD_some]
          rw [Percent.bytes_encode fun b => Form.inWebQuery_of_le, Form.pairs_encodeBytes]

end Query

namespace Gateway

open Gateway.Flow

/-- A request for an adapter, received without a scheme, becomes one call with the address that is
put together from its host and its resource. The query of this address is that between the first
question mark and the first number sign of both, and it is empty if the address cannot be read. So
the adapter is given the query of the request if there is neither of these marks in the host, unless
the host makes the address unreadable. -/
theorem query_of_address (d : Dispatcher) (req : Http.Request) (t : Traffic) {text key : String}
    {a : Adapter} (htext : Http.Target.parse? text = some req.target)
    (hscheme : req.target.scheme = none)
    (hschema : Scheme.parse? (req.headers.text Routing.schemaHeader) = some .typedRpc)
    (hmethod : req.method = "GET" ∨ req.method = "DELETE")
    (hkey : Routing.routingKey req.target.path = some key)
    (hfound : findAdapter d.adapters key = some a) :
    let place := req.headers.text "host" ++ req.target.pathAndQuery
    let uri := "http://" ++ place
    let own := Query.ofText req.target.query
    (∃ c, c.input = uri.toUTF8 ∧ (d.dispatch req).perform t =
      (d.close (a.answer c), { t with calls := t.calls ++ [c] })) ∧
    (Query.toJson uri =
      if (Url.parse? uri).isSome then Query.ofText (Url.queryText place) else .obj []) ∧
    ((∀ c ∈ (req.headers.text "host").toList, c ≠ '?' ∧ c ≠ '#') →
      (Query.toJson uri = own ↔ (Url.parse? uri).isSome ∨ own = .obj [])) := by
  intro place uri own
  have hpath : req.target.path ≠ "" := by
    intro hempty
    rw [hempty] at hkey
    cases hkey
  obtain ⟨hlocal, hne, hplain⟩ := Http.Target.isLocal_of_parse? htext hscheme hpath
  have haddress : Dispatcher.fullAddress req = uri := by
    rw [Dispatcher.fullAddress, if_neg (by rw [hscheme]; decide), hlocal.resource?_eq hne,
      Option.getD_some, String.append_assoc]
  refine ⟨?_, Query.toJson_http place, fun hhost => ?_⟩
  · rw [← haddress]
    exact d.exists_call req t hschema hmethod hkey hfound
  · rw [show Query.toJson uri = _ from Query.toJson_http place, Url.queryText_append hhost hne hplain]
    by_cases hread : (Url.parse? uri).isSome = true
    · rw [if_pos hread]
      exact iff_of_true rfl (.inl hread)
    · rw [if_neg hread]
      exact ⟨fun hown => .inr hown.symm, fun h => (h.resolve_left hread).symm⟩

def echo : Adapter where
  balancer := "rpc"
  service := "Example"
  call _ _ _ input := .finished 0 (.ok input.data.toList)

def askFrom (host : String) : Http.Request where
  method := "GET"
  target := ⟨none, none, "/rpc/example/info?id=7"⟩
  headers := [⟨Routing.schemaHeader, Utf8.bytes "typed-rpc"⟩, ⟨"host", Utf8.bytes host⟩]

def echoing : Dispatcher where
  net := .unreachable
  adapters := [echo]
  timeout := 30000
  forwardedFor := "10.0.0.1"
  date := "Thu, 01 Jan 1970 00:00:00 GMT"

theorem findAdapter_echoing : findAdapter echoing.adapters "/rpc/example/" = some echo := by
  have hkey : echo.key = "/rpc/example/" := by decide
  simp [findAdapter, echoing, hkey]

theorem ofText_askFrom (host : String) :
    Query.ofText (askFrom host).target.query = .obj [("id", .str "7")] := by
  have hquery : (askFrom host).target.query = some "id=7" := by
    change Http.Target.query ⟨none, none, "/rpc/example/info?id=7"⟩ = some "id=7"
    decide
  have hpairs : Form.pairs (Utf8.bytes "id=7") = [("id", "7")] := by decide
  rw [hquery, Query.ofText, Option.map_some, Option.getD_some, hpairs]
  rfl

/-- An ordinary host leaves the query of the request as it is. -/
theorem query_of_address_gw :
    let t : Traffic := { pool := { roundRobin := ⟨0⟩ } }
    let uri := "http://gw/rpc/example/info?id=7"
    (∃ c, c.input = uri.toUTF8 ∧ (echoing.dispatch (askFrom "gw")).perform t =
      (echoing.close (echo.answer c), { t with calls := [c] })) ∧
    Query.toJson uri = .obj [("id", .str "7")] := by
  intro t uri
  have hhost : (askFrom "gw").headers.text "host" = "gw" := by decide
  obtain ⟨hcall, -, hown⟩ := query_of_address echoing (askFrom "gw") t
    (show Http.Target.parse? "/rpc/example/info?id=7" = _ by decide) rfl
    (by decide) (.inl rfl) (show _ = some "/rpc/example/" by decide) findAdapter_echoing
  rw [hhost] at hcall hown
  rw [ofText_askFrom] at hown
  exact ⟨hcall, (hown (by simp)).2 (.inl (by decide +kernel))⟩

/-- A host with a question mark and a number sign replaces the query by one of its own. -/
theorem query_of_host :
    let host := "gw?role=admin#"
    let t : Traffic := { pool := { roundRobin := ⟨0⟩ } }
    let uri := "http://gw?role=admin#/rpc/example/info?id=7"
    (∃ c, c.input = uri.toUTF8 ∧ (echoing.dispatch (askFrom host)).perform t =
      (echoing.close (echo.answer c), { t with calls := [c] })) ∧
    (askFrom host).target = (askFrom "gw").target ∧
    Query.ofText (askFrom host).target.query = .obj [("id", .str "7")] ∧
    Query.toJson uri = .obj [("role", .str "admin")] := by
  intro host t uri
  have haddress : Dispatcher.fullAddress (askFrom host) = uri := by decide
  have hcall := echoing.exists_call (askFrom host) t (by decide) (.inl rfl)
    (show _ = some "/rpc/example/" by decide) findAdapter_echoing
  rw [haddress] at hcall
  refine ⟨hcall, rfl, ofText_askFrom host, ?_⟩
  have huri : uri = "http://" ++ "gw?role=admin#/rpc/example/info?id=7" := rfl
  have hquery : Url.queryText "gw?role=admin#/rpc/example/info?id=7" = some "role=admin" := by
    decide
  have hpairs : Form.pairs (Utf8.bytes "role=admin") = [("role", "admin")] := by decide
  rw [huri, Query.toJson_http, if_pos (by decide +kernel), hquery, Query.ofText, Option.map_some,
    Option.getD_some, hpairs]
  rfl

end Gateway

end ServiceMesh
