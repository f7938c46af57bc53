import ServiceMesh.Proofs.Gateway.Admission
import ServiceMesh.Proofs.Gateway.Answers
import ServiceMesh.Proofs.Json.Value

/-!
Failures, as a client gets to know them. An envelope is read back as it was written. Whenever a part
of a gateway answers for itself, its answer is the envelope of a failure, from which a client reads
the code and the reason that it was made with.
-/

namespace ServiceMesh

/-- An envelope is read back if its data are, one level further in. -/
theorem Envelope.decode?_encode_of_exact {e : Envelope}
    (h : Json.Exact (Json.nestingLimit - 1) e.data) : decode? e.encode = some e :=
  decode?_encode (Json.valueReader_writeValue h rfl)

namespace Gateway

open Gateway.Flow Gateway.Interceptor

/-- The answer is that of a failure with this code and this reason: its body is what is written of
the envelope, and both are read from it. -/
structure Reports (r : Http.Response) (code : Int32) (reason : String) : Prop where
  eq_response : r = (Envelope.failed code reason).response
  body : r.body.data.toList = (Envelope.failed code reason).encode
  decoded : Envelope.decode? r.body.data.toList = some { code, msg := reason, data := .null }

theorem reports_response (code : Int32) (reason : String) :
    Reports (Envelope.failed code reason).response code reason :=
  ⟨rfl, rfl, Envelope.decode?_encode_of_exact .null⟩

theorem Refuses.reports {r : Http.Response} {code : Int32} (h : Refuses r code) :
    ∃ reason, Reports r code reason := by
  obtain ⟨reason, rfl⟩ := h
  exact ⟨reason, reports_response code reason⟩

/-! ### The dispatcher -/

namespace Dispatcher

variable (d : Dispatcher) (req : Http.Request)

/-- A call that ends gives out its output in time, or is told as a failure. -/
theorem conclude_cases (after : Nat) (result : Except Failure (List UInt8)) :
    (∃ out, result = .ok out ∧ after ≤ d.timeout) ∨
      ∃ code reason, Reports (d.conclude after result) code reason := by
  by_cases hlate : after ≤ d.timeout
  · cases result with
    | ok out => exact .inl ⟨out, rfl, hlate⟩
    | error f => exact .inr ⟨_, (d.refuses_conclude f hlate).reports⟩
  · exact .inr ⟨_, (d.refuses_conclude_late result hlate).reports⟩

/-- Whatever the dispatcher answers is the output of an adapter, the answer of a backend, or a
failure. -/
theorem dispatch_cases (t : Traffic) :
    (∃ p, ((d.dispatch req).perform t).1 = .error p) ∨
      ∃ r, ((d.dispatch req).perform t).1 = .ok r ∧
        (d.GivesOutput req r ∨ d.GivesReply t ((d.dispatch req).perform t).2 r ∨
          ∃ code reason, Reports r code reason) := by
  rw [dispatch]
  cases hscheme : Scheme.parse? (req.headers.text Routing.schemaHeader) with
  | none => exact .inr ⟨_, rfl, .inr (.inr ⟨_, (refuses_refuse _).reports⟩)⟩
  | some scheme =>
      cases scheme with
      | reverseProxy =>
          obtain ⟨r, hr, hanswer⟩ := d.answer_reverseProxy req t
            (req.headers.text Routing.serviceHeader) (req.headers.text Routing.pathHeader)
          exact .inr ⟨r, hr, .inr (hanswer.imp_right fun hrefuses => ⟨_, hrefuses.reports⟩)⟩
      | typedRpc =>
          dsimp only
          rw [perform_typedRpc]
          cases hcall : d.callFor req with
          | error r => exact .inr ⟨r, rfl, .inr (.inr ⟨_, (refuses_callFor hcall).reports⟩)⟩
          | ok call =>
              obtain ⟨a, c⟩ := call
              dsimp only
              cases hanswer : a.answer c with
              | panicked p => exact .inl ⟨p, rfl⟩
              | finished after result =>
                  refine .inr ⟨_, rfl, ?_⟩
                  obtain ⟨out, rfl, htime⟩ | hreports := d.conclude_cases after result
                  · refine .inl ⟨after, out, ⟨hscheme, a, c, hcall, hanswer⟩, htime, ?_⟩
                    rw [conclude, if_pos htime]
                  · exact .inr (.inr hreports)

end Dispatcher

/-! ### The interceptors -/

namespace Interceptor

/-- Whatever handler it stands around, the interceptor gives back what comes of one request to it,
or it answers for itself with a failure. -/
def ReportsFailures (i : Interceptor) : Prop :=
  ∀ next req t, (∃ req' t', (i.wrap next req).perform t = (next req').perform t') ∨
    ∃ r code reason, ((i.wrap next req).perform t).1 = .ok r ∧ Reports r code reason

theorem reportsFailures_recover : recover.ReportsFailures := by
  intro next req t
  rw [perform_recover]
  rcases hnext : (next req).perform t with ⟨p | r, t'⟩
  · exact .inr ⟨_, _, _, rfl, reports_response _ _⟩
  · exact .inl ⟨req, t, hnext.symm⟩

theorem reportsFailures_log (fresh : Nat → String) : (log fresh).ReportsFailures :=
  fun next req t => .inl ⟨_, _, perform_log next req t⟩

theorem reportsFailures_routeMatch (routes : List Route) :
    (routeMatch routes).ReportsFailures := by
  intro next req t
  simp only [routeMatch]
  split
  · exact .inl ⟨_, t, rfl⟩
  · exact .inr ⟨_, _, _, rfl, reports_response _ _⟩

theorem reportsFailures_auth (whiteList : List String) : (auth whiteList).ReportsFailures := by
  intro next req t
  simp only [auth]
  split
  · exact .inl ⟨req, t, rfl⟩
  · exact .inr ⟨_, _, _, rfl, reports_response _ _⟩

theorem reportsFailures_of_mem_defaultChain {fresh : Nat → String} {routes : List Route}
    {whiteList : List String} {e : Int32 × Interceptor}
    (h : e ∈ (defaultChain fresh routes whiteList).entries) : e.2.ReportsFailures := by
  have hmem : e ∈ [(-10, recover), (-9, log fresh), (1, routeMatch routes), (3, auth whiteList)] := h
  simp only [List.mem_cons, List.not_mem_nil, or_false] at hmem
  rcases hmem with rfl | rfl | rfl | rfl
  · exact reportsFailures_recover
  · exact reportsFailures_log fresh
  · exact reportsFailures_routeMatch routes
  · exact reportsFailures_auth whiteList

end Interceptor

/-! ### The whole gateway -/

/-- Every request to a gateway with the usual interceptors is answered: with the output of an
adapter or the answer of a backend, if it gets that far, or with a failure. -/
theorem handler_cases (config : GatewayConfig) (adapters : List Adapter) (fresh : Nat → String)
    (net : Http.Network) (ownAddress date : String) (req : Http.Request) (t : Traffic) :
    let s := ({ config, adapters } : Server).withDefaults fresh
    let d := s.dispatcher net ownAddress date
    let handled := (s.handler net ownAddress date req).perform t
    ∃ r, handled.1 = .ok r ∧
      ((∃ req', Resembles req req' ∧ (d.GivesOutput req' r ∨ d.GivesReply t handled.2 r)) ∨
        ∃ code reason, Reports r code reason) := by
  intro s d handled
  have hhandled : handled = ((defaultChain fresh config.routes config.whiteList).build d.dispatch
      req).perform t := rfl
  obtain ⟨named, hnamed⟩ := exists_identify_eq fresh req.headers t
  rw [hhandled, perform_defaultChain, hnamed]
  obtain ⟨-, hscreen⟩ | ⟨-, -, hscreen⟩ | ⟨-, -, req', hlike, hscreen⟩ :=
    screen_cases config.routes config.whiteList (identify fresh req.headers t).1 req
  · rw [hscreen]
    exact ⟨_, rfl, .inr ⟨_, _, reports_response _ _⟩⟩
  · rw [hscreen]
    exact ⟨_, rfl, .inr ⟨_, _, reports_response _ _⟩⟩
  · rw [hscreen]
    dsimp only
    rw [perform_recover]
    have hcases := d.dispatch_cases req' { t with named }
    rcases hdispatch : (d.dispatch req').perform { t with named } with ⟨p | r, t'⟩
    · exact ⟨_, rfl, .inr ⟨_, _, reports_response _ _⟩⟩
    · rw [hdispatch] at hcases
      obtain ⟨p, hp⟩ | ⟨r', hr, hanswer⟩ := hcases
      · cases hp
      · obtain rfl := Except.ok.inj hr
        refine ⟨r, rfl, ?_⟩
        obtain houtput | hreply | hreports := hanswer
        · exact .inl ⟨req', hlike, .inl houtput⟩
        · exact .inl ⟨req', hlike, .inr hreply⟩
        · exact .inr hreports

/-- An envelope is read back as it was written, as long as its data have no floating point numbers
and are nested no deeper than a reader follows. In particular its code and its reason are read from
the answer that tells of a failure, and no part of a gateway tells of failures in any other way: not
the dispatcher, whatever stands around it, not the usual interceptors, whatever they stand around,
and not the gateway that is made of them. -/
theorem envelopes_read_back :
    (∀ e : Envelope, Json.Exact (Json.nestingLimit - 1) e.data →
      Envelope.decode? e.encode = some e) ∧
    (∀ code reason, Reports (Envelope.failed code reason).response code reason) ∧
    (∀ (d : Dispatcher) req t, (∃ p, ((d.dispatch req).perform t).1 = .error p) ∨
      ∃ r, ((d.dispatch req).perform t).1 = .ok r ∧
        (d.GivesOutput req r ∨ d.GivesReply t ((d.dispatch req).perform t).2 r ∨
          ∃ code reason, Reports r code reason)) ∧
    (∀ fresh routes whiteList, ∀ e ∈ (defaultChain fresh routes whiteList).entries,
      e.2.ReportsFailures) ∧
    ∀ config adapters fresh net ownAddress date req t,
      let s := ({ config, adapters } : Server).withDefaults fresh
      let d := s.dispatcher net ownAddress date
      let handled := (s.handler net ownAddress date req).perform t
      ∃ r, handled.1 = .ok r ∧
        ((∃ req', Resembles req req' ∧ (d.GivesOutput req' r ∨ d.GivesReply t handled.2 r)) ∨
          ∃ code reason, Reports r code reason) :=
  ⟨fun _ h => Envelope.decode?_encode_of_exact h, reports_response,
    fun d req t => d.dispatch_cases req t,
    fun _ _ _ _ h => Interceptor.reportsFailures_of_mem_defaultChain h, handler_cases⟩

/-- Data of every kind: nested, with characters that are escaped, and with the largest and the
smallest number. -/
def mixed : Json :=
  .obj [
    ("", .arr [.null, .bool false, .obj [], .arr []]),
    ("max", .num (.unsigned 18446744073709551615)),
    ("min", .num (.negative (-9223372036854775808))),
    ("text", .str "\"\\\n\x00\x7f äöü 😀")]

theorem exact_mixed : Json.Exact (Json.nestingLimit - 1) mixed := by
  refine .obj (by unfold Entries.Sorted; decide) fun e he => ?_
  simp only [List.mem_cons, List.not_mem_nil, or_false] at he
  rcases he with rfl | rfl | rfl | rfl
  · refine .arr fun v hv => ?_
    simp only [List.mem_cons, List.not_mem_nil, or_false] at hv
    rcases hv with rfl | rfl | rfl | rfl
    · exact .null
    · exact .bool false
    · exact .obj List.Pairwise.nil (by simp)
    · exact .arr (by simp)
  · exact .unsigned _
  · exact .negative (by decide)
  · exact .str _

/-- They come back, with a code below zero. -/
theorem envelopes_read_back_mixed :
    Json.Exact (Json.nestingLimit - 1) mixed ∧
      Envelope.decode? ({ code := -505, msg := "\x1b[0m", data := mixed } : Envelope).encode =
        some { code := -505, msg := "\x1b[0m", data := mixed } :=
  ⟨exact_mixed, envelopes_read_back.1 _ exact_mixed⟩

end Gateway

end ServiceMesh
