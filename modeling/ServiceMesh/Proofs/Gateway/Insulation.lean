import ServiceMesh.Proofs.Gateway.Admission

/-!
The three headers that carry the route of a request through a gateway are the gateway's own. What a
client sends under their names makes no difference to anything that is done for its request, and
nothing is forwarded under them.
-/

namespace ServiceMesh

namespace Gateway

open Gateway.Flow Interceptor

variable {fresh : Nat → String} {routes : List Route} {whiteList : List String}
  {req req' : Http.Request}

/-! ### What a client sends -/

theorem identify_without (fresh : Nat → String) (hs : Http.Headers) (t : Traffic) :
    identify fresh (hs.without Routing.names) t = identify fresh hs t := by
  rw [identify, identify, Http.Headers.text?_without (by decide)]

theorem identified_without (hs : Http.Headers) (id : String) :
    (identified hs id).without Routing.names = identified (hs.without Routing.names) id := by
  rw [identified, identified]
  split
  · exact Http.Headers.without_set_of_notMem (by decide) hs _
  · rfl

theorem screen_congr (h : req.unmarked = req'.unmarked) (id : String) :
    screen routes whiteList id req = screen routes whiteList id req' := by
  obtain ⟨method, target, hs, body⟩ := req
  obtain ⟨method', target', hs', body'⟩ := req'
  obtain ⟨rfl, rfl, hhs, rfl⟩ := Http.Request.mk.inj h
  have hmark (r : Route) : Routing.mark? r (identified hs id) =
      Routing.mark? r (identified hs' id) := by
    refine Routing.mark?_congr ?_
    rw [identified_without, identified_without]
    exact congrArg (identified · id) hhs
  rw [screen, screen]
  simp only [hmark]

/-- Requests that differ in nothing else are the same to whatever stands behind the usual
interceptors. -/
theorem defaultChain_congr (h : req.unmarked = req'.unmarked) (terminal : Handler) :
    (defaultChain fresh routes whiteList).build terminal req =
      (defaultChain fresh routes whiteList).build terminal req' := by
  refine Flow.ext fun t => ?_
  have hid : identify fresh req.headers t = identify fresh req'.headers t := by
    rw [← identify_without, ← identify_without fresh req'.headers]
    exact congrArg (fun q => identify fresh q.headers t) h
  rw [perform_defaultChain, perform_defaultChain, hid, screen_congr h]

/-! ### What is forwarded -/

/-- Nothing goes along under the names of the three headers. -/
def IsUnmarked (o : Http.Outgoing) : Prop := ∀ h ∈ o.headers, h.name ∉ Routing.names

def SentUnmarked (t t' : Traffic) : Prop :=
  ∃ sent, t'.sent = t.sent ++ sent ∧ ∀ o ∈ sent, IsUnmarked o

theorem notMem_names_of_mem_forwardHeaders {hs : Http.Headers} {ownAddress : String} :
    ∀ h ∈ Routing.forwardHeaders hs ownAddress, h.name ∉ Routing.names := by
  have hheld : ∀ name ∈ Routing.names, Routing.isHeldBack name = true := by decide
  have hkept : ∀ h ∈ hs.filter fun h => !Routing.isHeldBack h.name, h.name ∉ Routing.names := by
    intro h hmem hname
    have hfree := (List.mem_filter.1 hmem).2
    rw [hheld h.name hname] at hfree
    cases hfree
  intro h hmem
  rw [Routing.forwardHeaders] at hmem
  split at hmem
  · rcases List.mem_append.1 hmem with hmem | hmem
    · exact hkept h hmem
    · obtain rfl := List.mem_singleton.1 hmem
      have hname : "x-forwarded-for" ∉ Routing.names := by decide
      exact hname
  · exact hkept h hmem

theorem isUnmarked_forward {d : Dispatcher} {b : Backend} {start : String} {body : ByteArray}
    {o : Http.Outgoing} (h : d.forward req b start body = .ok o) : IsUnmarked o := by
  rw [Dispatcher.forward, Http.Client.prepare] at h
  split at h
  · cases h
  · obtain rfl := Except.ok.inj h
    intro x hx
    rw [Http.Headers.addMissing] at hx
    split at hx
    · exact notMem_names_of_mem_forwardHeaders x hx
    · rcases List.mem_append.1 hx with hx | hx
      · exact notMem_names_of_mem_forwardHeaders x hx
      · obtain rfl := List.mem_singleton.1 hx
        decide

section

variable (t : Traffic)

theorem keeps_send (net : Http.Network) {o : Http.Outgoing} (ho : IsUnmarked o) :
    Keeps (SentUnmarked t) (Flow.send net o) := by
  rintro t' ⟨sent, hsent, hall⟩
  refine ⟨sent ++ [o], ?_, fun o' ho' => ?_⟩
  · rw [← List.append_assoc, ← hsent]
    rfl
  · rcases List.mem_append.1 ho' with ho' | ho'
    · exact hall o' ho'
    · obtain rfl := List.mem_singleton.1 ho'
      exact ho

theorem keeps_reverseProxy (d : Dispatcher) (req : Http.Request) (service start : String) :
    Keeps (SentUnmarked t) (d.reverseProxy req service start) := by
  have hselect : Keeps (SentUnmarked t) (Flow.select service) := fun _ ht => ht
  refine hselect.bind fun selected => ?_
  cases selected with
  | error f => exact keeps_pure _
  | ok backend =>
      dsimp only
      cases Dispatcher.bodyOf req with
      | error response => exact keeps_pure _
      | ok body =>
          dsimp only
          cases hforward : d.forward req backend start body with
          | error f => exact keeps_pure _
          | ok outgoing =>
              refine (keeps_send t d.net (isUnmarked_forward hforward)).bind fun answer => ?_
              cases Http.Client.receive outgoing answer with
              | ok reply => exact keeps_pure _
              | error f => exact keeps_pure _

theorem keeps_typedRpc (d : Dispatcher) (req : Http.Request) :
    Keeps (SentUnmarked t) (d.typedRpc req) := by
  rw [Dispatcher.typedRpc]
  dsimp only
  split
  · exact keeps_pure _
  · split
    · exact keeps_pure _
    · split
      · exact keeps_pure _
      · -- the call is noted down, which is not to send anything
        refine Keeps.bind (fun _ ht => ht) fun _ => ?_
        split
        · exact keeps_throw _
        · exact keeps_pure _

theorem keeps_dispatch (d : Dispatcher) (req : Http.Request) :
    Keeps (SentUnmarked t) (d.dispatch req) := by
  rw [Dispatcher.dispatch]
  split
  · exact keeps_reverseProxy t d req _ _
  · exact keeps_typedRpc t d req
  · exact keeps_pure _

end

/-- What a client sends under the names of the three routing headers has no influence on anything:
not on the answer, not on what is selected, forwarded and called for the request, nor on the counter
of the pool. And nothing is forwarded under these names. -/
theorem routing_headers_ignored (config : GatewayConfig) (adapters : List Adapter)
    (fresh : Nat → String) (net : Http.Network) (ownAddress date : String)
    (h : req.unmarked = req'.unmarked) (t : Traffic) :
    let handler := (({ config, adapters } : Server).withDefaults fresh).handler net ownAddress date
    (handler req).perform t = (handler req').perform t ∧
      ∃ sent, ((handler req).perform t).2.sent = t.sent ++ sent ∧
        ∀ o ∈ sent, ∀ name ∈ Routing.names, o.headers.first? name = none := by
  intro handler
  refine ⟨congrArg (fun x => x.perform t) (defaultChain_congr h _), ?_⟩
  obtain ⟨named, hnamed⟩ := exists_identify_eq fresh req.headers t
  have hbefore : SentUnmarked t (identify fresh req.headers t).2 := by
    rw [hnamed]
    exact ⟨[], (List.append_nil _).symm, by simp⟩
  have hafter : SentUnmarked t ((handler req).perform t).2 := by
    change SentUnmarked t
      (((defaultChain fresh config.routes config.whiteList).build _ req).perform t).2
    rw [perform_defaultChain]
    split
    · exact hbefore
    · next q _ =>
        exact ((keeps_dispatch t _ q).tryCatch fun _ => keeps_pure _) _ hbefore
  obtain ⟨sent, hsent, hall⟩ := hafter
  refine ⟨sent, hsent, fun o ho name hname => Http.Headers.first?_eq_none fun x hx he => ?_⟩
  exact hall o ho x hx (he ▸ hname)

/-- A request with a token that asks for another service in the headers of the gateway. -/
def forged : Http.Request :=
  { ping (some "token") with
    headers := (ping (some "token")).headers ++
      [⟨Routing.serviceHeader, Utf8.bytes "internal"⟩, ⟨Routing.pathHeader, Utf8.bytes "/"⟩,
        ⟨Routing.serviceHeader, Utf8.bytes "admin"⟩] }

/-- It is answered and forwarded as it would be without them. -/
theorem routing_headers_ignored_forged :
    let handler := (({ config := narrow } : Server).withDefaults toString).handler
      .unreachable "10.0.0.9" ""
    let t : Traffic := { pool := {
      clients := [⟨"10.0.0.1:9001", "svc"⟩, ⟨"10.0.0.2:9001", "internal"⟩]
      isSynced := true
      roundRobin := ⟨7⟩ } }
    forged.unmarked = (ping (some "token")).unmarked ∧
      (handler forged).perform t = (handler (ping (some "token"))).perform t ∧
      ∀ o ∈ ((handler forged).perform t).2.sent, ∀ name ∈ Routing.names,
        o.headers.first? name = none := by
  intro handler t
  have hsame : forged.unmarked = (ping (some "token")).unmarked := rfl
  obtain ⟨hanswer, sent, hsent, hunmarked⟩ :=
    routing_headers_ignored narrow [] toString .unreachable "10.0.0.9" "" hsame t
  exact ⟨hsame, hanswer, hsent ▸ hunmarked⟩

end Gateway

end ServiceMesh
