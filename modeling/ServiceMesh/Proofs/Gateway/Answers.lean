import ServiceMesh.Proofs.Gateway.Dispatcher
import ServiceMesh.Proofs.Gateway.Envelope

/-!
What the dispatcher answers. An answer is the output of an adapter, the answer of a backend, or an
envelope of a failure. The code of such an envelope is the gateway's own, unless it is the status
that an adapter failed with; among these statuses there is the code of success.
-/

namespace ServiceMesh.Gateway

open Gateway.Flow

/-- The answer is an envelope of a failure with this code. -/
def Refuses (r : Http.Response) (code : Int32) : Prop :=
  ∃ msg, r = (Envelope.failed code msg).response

/-- The answer tells the caller in JSON about a failure, or about a success after all. -/
structure Tells (r : Http.Response) (success : Prop) : Prop where
  status : r.status = 200
  contentType : r.headers.values "content-type" = [Utf8.bytes "application/json"]
  envelope : ∃ e, Envelope.decode? r.body.data.toList = some e ∧ (e.isSuccess = true ↔ success)

theorem Refuses.tells {r : Http.Response} {code : Int32} (h : Refuses r code) :
    Tells r (code = 0) := by
  obtain ⟨msg, rfl⟩ := h
  exact ⟨rfl, rfl, _, Envelope.decode?_failed code msg, Envelope.isSuccess_failed_iff⟩

namespace Dispatcher

variable (d : Dispatcher) (req : Http.Request)

/-- The request becomes a call of an adapter, which ends like this. -/
def CallEnds (o : Outcome (List UInt8)) : Prop :=
  Scheme.parse? (req.headers.text Routing.schemaHeader) = some .typedRpc ∧
    ∃ a c, d.callFor req = .ok (a, c) ∧ a.answer c = o

/-- The answer is what the adapter that was called gave out in time. -/
def GivesOutput (r : Http.Response) : Prop :=
  ∃ after out, d.CallEnds req (.finished after (.ok out)) ∧ after ≤ d.timeout ∧
    r = { status := 200
          headers := [Envelope.contentType, ⟨"date", Utf8.bytes d.date⟩]
          body := ⟨out.toArray⟩ }

def CallFails (f : Failure) : Prop :=
  ∃ after, d.CallEnds req (.finished after (.error f)) ∧ after ≤ d.timeout

/-- The answer is that of a backend which one request was handed to. -/
def GivesReply (t t' : Traffic) (r : Http.Response) : Prop :=
  ∃ o whole, t'.sent = t.sent ++ [o] ∧ d.net o = .whole whole ∧
    r = { whole with headers := Routing.relayHeaders whole.headers }

theorem refuses_refuse (reason : String) : Refuses (refuse reason) 505 := ⟨reason, rfl⟩

theorem refuses_bodyOf {req : Http.Request} {r : Http.Response} (h : bodyOf req = .error r) :
    Refuses r 505 := by
  rw [bodyOf] at h
  split at h
  · obtain rfl := Except.error.inj h
    exact refuses_refuse _
  · cases h

theorem refuses_callFor {d : Dispatcher} {req : Http.Request} {r : Http.Response}
    (h : d.callFor req = .error r) : Refuses r 505 := by
  rw [callFor] at h
  split at h
  · obtain rfl := Except.error.inj h
    exact refuses_refuse _
  · split at h
    · obtain rfl := Except.error.inj h
      exact refuses_refuse _
    · split at h
      · next hinput =>
          obtain rfl := Except.error.inj h
          rw [inputOf] at hinput
          split at hinput
          · cases hinput
          · split at hinput
            · exact refuses_bodyOf hinput
            · obtain rfl := Except.error.inj hinput
              exact refuses_refuse _
      · cases h

/-- What comes back from the client is the answer of a backend or a failure. -/
theorem passBack_exchange (b : Backend) (start : String) (body : ByteArray) :
    (∃ o whole, (d.exchange req b start body).2 = [o] ∧ d.net o = .whole whole ∧
        passBack (d.exchange req b start body).1 =
          { whole with headers := Routing.relayHeaders whole.headers }) ∨
      Refuses (passBack (d.exchange req b start body).1) 505 := by
  rw [exchange, Http.Client.exchange]
  cases Http.Client.prepare req.method
      (b.url (Routing.rewritePath req.target.path req.target.query start))
      (Routing.forwardHeaders req.headers d.forwardedFor) body with
  | error f => exact .inr (refuses_refuse _)
  | ok o =>
      dsimp only
      cases hanswer : d.net o with
      | silence => exact .inr (refuses_refuse _)
      | brokenOff status headers => exact .inr (refuses_refuse _)
      | whole whole => exact .inl ⟨o, whole, rfl, hanswer, rfl⟩

/-- A call that failed is told with the gateway's code or, if the failure is a status of a remote
procedure, with its own one. -/
theorem refuses_conclude (f : Failure) {after : Nat} (h : after ≤ d.timeout) :
    Refuses (d.conclude after (.error f)) (if f.isRpc then f.code else 505) := by
  rw [conclude, if_pos h]
  exact ⟨f.reason, rfl⟩

theorem refuses_conclude_late (r : Except Failure (List UInt8)) {after : Nat}
    (h : ¬after ≤ d.timeout) : Refuses (d.conclude after r) 505 := by
  rw [conclude, if_neg h]
  exact ⟨"request timeout", rfl⟩

theorem isRpc_and_code_eq_zero_iff {f : Failure} :
    (if f.isRpc then f.code else 505) = 0 ↔ ∃ msg, f = .rpc 0 msg := by
  cases f with
  | rpc code reason => simp [Failure.isRpc, Failure.code]
  | _ => simp [Failure.isRpc]

theorem CallEnds.unique {d : Dispatcher} {req : Http.Request} {o o' : Outcome (List UInt8)}
    (h : d.CallEnds req o) (h' : d.CallEnds req o') : o = o' := by
  obtain ⟨-, a, c, hcall, rfl⟩ := h
  obtain ⟨-, a', c', hcall', rfl⟩ := h'
  obtain ⟨rfl, rfl⟩ := Prod.mk.inj (Except.ok.inj (hcall.symm.trans hcall'))
  rfl

/-- A refusal of the gateway's own tells about a failure, whatever a call would have come to. -/
theorem tells_of_refuses {d : Dispatcher} {req : Http.Request} {r : Http.Response}
    (h : Refuses r 505) (hcall : ∀ f, ¬d.CallFails req f) :
    Tells r (∃ msg, d.CallFails req (.rpc 0 msg)) := by
  obtain ⟨hstatus, htype, e, he, hsuccess⟩ := h.tells
  exact ⟨hstatus, htype, e, he, by simpa [hcall] using hsuccess⟩

theorem answer_reverseProxy (t : Traffic) (service start : String) :
    ∃ r, ((d.reverseProxy req service start).perform t).1 = .ok r ∧
      (d.GivesReply t ((d.reverseProxy req service start).perform t).2 r ∨ Refuses r 505) := by
  rw [perform_reverseProxy]
  rcases t.pool.select service with ⟨pool, selected⟩
  cases selected with
  | error f => exact ⟨_, rfl, .inr (refuses_refuse _)⟩
  | ok b =>
      dsimp only
      cases hbody : bodyOf req with
      | error r => exact ⟨r, rfl, .inr (refuses_bodyOf hbody)⟩
      | ok body =>
          refine ⟨_, rfl, ?_⟩
          obtain ⟨o, whole, hsent, hanswer, hpass⟩ | hrefuses := d.passBack_exchange req b start body
          · refine .inl ⟨o, whole, ?_, hanswer, hpass⟩
            dsimp only
            rw [hsent]
          · exact .inr hrefuses

theorem answer_typedRpc {d : Dispatcher} {req : Http.Request}
    (hscheme : Scheme.parse? (req.headers.text Routing.schemaHeader) = some .typedRpc)
    (t : Traffic) :
    (∃ p, d.CallEnds req (.panicked p) ∧ ((d.typedRpc req).perform t).1 = .error p) ∨
      ∃ r, ((d.typedRpc req).perform t).1 = .ok r ∧
        (d.GivesOutput req r ∨ Tells r (∃ msg, d.CallFails req (.rpc 0 msg))) := by
  rw [perform_typedRpc]
  cases hcall : d.callFor req with
  | error r =>
      refine .inr ⟨r, rfl, .inr (tells_of_refuses (refuses_callFor hcall) fun f hfails => ?_)⟩
      obtain ⟨after, ⟨-, a, c, hmade, -⟩, -⟩ := hfails
      cases hcall.symm.trans hmade
  | ok call =>
      obtain ⟨a, c⟩ := call
      have hends : d.CallEnds req (a.answer c) := ⟨hscheme, a, c, hcall, rfl⟩
      dsimp only
      cases hanswer : a.answer c with
      | panicked p => exact .inl ⟨p, hanswer ▸ hends, rfl⟩
      | finished after result =>
          rw [hanswer] at hends
          refine .inr ⟨_, rfl, ?_⟩
          by_cases hlate : after ≤ d.timeout
          · cases result with
            | ok out =>
                exact .inl ⟨after, out, hends, hlate, by rw [conclude, if_pos hlate]⟩
            | error f =>
                obtain ⟨hstatus, htype, e, he, hsuccess⟩ := (d.refuses_conclude f hlate).tells
                refine .inr ⟨hstatus, htype, e, he, hsuccess.trans ?_⟩
                rw [isRpc_and_code_eq_zero_iff]
                constructor
                · rintro ⟨msg, rfl⟩
                  exact ⟨msg, after, hends, hlate⟩
                · rintro ⟨msg, after', hends', -⟩
                  cases hends.unique hends'
                  exact ⟨msg, rfl⟩
          · refine .inr (tells_of_refuses (d.refuses_conclude_late result hlate) fun f hfails => ?_)
            obtain ⟨after', hends', hintime⟩ := hfails
            cases hends.unique hends'
            exact hlate hintime

/-- Unless an adapter panics there is an answer: the output of the adapter that was called, the
answer of the backend that the request was handed to, or an envelope with the status 200 that can be
read. Such an envelope has the code of success exactly if an adapter was called and failed, in time,
with a status of that code. -/
theorem failure_told (t : Traffic) :
    (∃ p, d.CallEnds req (.panicked p) ∧ ((d.dispatch req).perform t).1 = .error p) ∨
      ∃ r, ((d.dispatch req).perform t).1 = .ok r ∧
        (d.GivesOutput req r ∨ d.GivesReply t ((d.dispatch req).perform t).2 r ∨
          Tells r (∃ msg, d.CallFails req (.rpc 0 msg))) := by
  rw [dispatch]
  cases hscheme : Scheme.parse? (req.headers.text Routing.schemaHeader) with
  | none =>
      refine .inr ⟨_, rfl, .inr (.inr (tells_of_refuses (refuses_refuse _) fun f hfails => ?_))⟩
      obtain ⟨after, ⟨htyped, -⟩, -⟩ := hfails
      cases hscheme.symm.trans htyped
  | some scheme =>
      cases scheme with
      | reverseProxy =>
          obtain ⟨r, hr, hanswer⟩ := d.answer_reverseProxy req t
            (req.headers.text Routing.serviceHeader) (req.headers.text Routing.pathHeader)
          refine .inr ⟨r, hr, .inr (hanswer.imp_right fun hrefuses => ?_)⟩
          refine tells_of_refuses hrefuses fun f hfails => ?_
          obtain ⟨after, ⟨htyped, -⟩, -⟩ := hfails
          cases hscheme.symm.trans htyped
      | typedRpc =>
          refine (answer_typedRpc hscheme t).imp_right ?_
          rintro ⟨r, hr, houtput | htells⟩
          · exact ⟨r, hr, .inl houtput⟩
          · exact ⟨r, hr, .inr (.inr htells)⟩

end Dispatcher

/-- An adapter whose calls fail with the status of success. -/
def contrary : Adapter where
  balancer := "l"
  service := "S"
  call _ _ _ _ := .finished 0 (.error (.rpc 0 "ok"))

def contraryCall : Http.Request where
  method := "GET"
  target := ⟨none, none, "/l/s/e"⟩
  headers := [⟨Routing.schemaHeader, Utf8.bytes "typed-rpc"⟩]

/-- Its failure is told as a success, although it is neither an output nor the answer of a
backend. -/
theorem failure_untold :
    let d : Dispatcher := {
      net := .unreachable, adapters := [contrary], timeout := 30000, forwardedFor := "", date := "" }
    let t : Traffic := { pool := { roundRobin := ⟨0⟩ } }
    ∃ r t', (d.dispatch contraryCall).perform t = (.ok r, t') ∧
      d.CallFails contraryCall (.rpc 0 "ok") ∧
      ¬d.GivesOutput contraryCall r ∧ ¬d.GivesReply t t' r ∧
      ∃ e, Envelope.decode? r.body.data.toList = some e ∧ e.isSuccess = true := by
  intro d t
  have hscheme : Scheme.parse? (contraryCall.headers.text Routing.schemaHeader) =
      some .typedRpc := by decide
  have hkey : Routing.routingKey contraryCall.target.path = some "/l/s/" := by decide
  have hfound : findAdapter d.adapters "/l/s/" = some contrary := by
    have hown : contrary.key = "/l/s/" := by decide
    simp [findAdapter, d, hown]
  obtain ⟨c, hcall, -⟩ := d.exists_callFor contraryCall (.inl rfl) hkey hfound
  have hends : d.CallEnds contraryCall (.finished 0 (.error (.rpc 0 "ok"))) :=
    ⟨hscheme, contrary, c, hcall, rfl⟩
  have hperform : (d.dispatch contraryCall).perform t =
      (.ok (Envelope.failed 0 "ok").response, { t with calls := t.calls ++ [c] }) := by
    rw [Dispatcher.dispatch, hscheme]
    dsimp only
    rw [Dispatcher.perform_typedRpc, hcall]
    rfl
  refine ⟨_, _, hperform, ⟨0, hends, Nat.zero_le _⟩, ?_, ?_,
    Envelope.failed 0 "ok", Envelope.decode?_failed 0 "ok", rfl⟩
  · rintro ⟨after, out, hends', -⟩
    cases hends.unique hends'
  · rintro ⟨o, whole, hsent, -⟩
    cases hsent

end ServiceMesh.Gateway
