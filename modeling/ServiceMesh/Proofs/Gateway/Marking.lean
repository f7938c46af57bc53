import ServiceMesh.Gateway.Interceptors
import ServiceMesh.Proofs.Gateway.Dispatcher
import ServiceMesh.Proofs.Gateway.Routing

/-!
What the dispatcher reads back of the route that a request was marked with. More can be written in a
header than can be read as a text: a part of a route that holds anything but visible characters and
tabs is written as it is and read as the empty text.
-/

namespace ServiceMesh

namespace Http.Header

/-- A text that is read back from a header that it was written in. -/
def IsReadable (s : String) : Prop := (Utf8.bytes s).all isReadable = true

instance (s : String) : Decidable (IsReadable s) := inferInstanceAs (Decidable (_ = true))

theorem isValueByte_of_isReadable {b : UInt8} (h : isReadable b = true) : isValueByte b = true := by
  simp only [isReadable, isValueByte, Ascii.isVisible, Bool.or_eq_true, Bool.and_eq_true,
    decide_eq_true_eq, UInt8.lt_iff_toNat_lt, UInt8.le_iff_toNat_le, ne_eq, ← UInt8.toNat_inj,
    UInt8.reduceToNat] at h ⊢
  omega

theorem IsReadable.isLegalValue {s : String} (h : IsReadable s) :
    isLegalValue (Utf8.bytes s) = true := by
  rw [IsReadable, List.all_eq_true] at h
  exact List.all_eq_true.2 fun b hb => isValueByte_of_isReadable (h b hb)

def asRead (s : String) : String := if IsReadable s then s else ""

theorem asRead_eq_self_iff {s : String} : asRead s = s ↔ IsReadable s := by
  by_cases h : IsReadable s
  · simp [asRead, h]
  · rw [asRead, if_neg h]
    refine ⟨?_, fun hr => absurd hr h⟩
    rintro rfl
    exact absurd rfl h

end Http.Header

open Http.Header

namespace Http.Headers

variable {hs : Headers} {name s : String}

theorem text?_of_first? (h : hs.first? name = some (Utf8.bytes s)) :
    hs.text? name = if IsReadable s then some s else none := by
  rw [text?, h]
  dsimp only
  rw [Utf8.text?_bytes]
  rfl

theorem text_of_first? (h : hs.first? name = some (Utf8.bytes s)) : hs.text name = asRead s := by
  rw [text, text?_of_first? h, asRead, apply_ite (Option.getD · "")]
  rfl

end Http.Headers

namespace Route

def IsReadable (r : Route) : Prop := ∀ s ∈ [r.id, r.path, r.schema], Http.Header.IsReadable s

instance (r : Route) : Decidable r.IsReadable :=
  inferInstanceAs (Decidable (∀ s ∈ [r.id, r.path, r.schema], Http.Header.IsReadable s))

def asRead (r : Route) : Route :=
  ⟨Http.Header.asRead r.id, Http.Header.asRead r.path, Http.Header.asRead r.schema⟩

theorem asRead_eq_self_iff {r : Route} : r.asRead = r ↔ r.IsReadable := by
  obtain ⟨id, path, schema⟩ := r
  simp [asRead, IsReadable, Http.Header.asRead_eq_self_iff]

end Route

namespace Routing

def routeOf (hs : Http.Headers) : Route :=
  ⟨hs.text serviceHeader, hs.text pathHeader, hs.text schemaHeader⟩

theorem routeOf_mark? {r : Route} {hs hs' : Http.Headers} (h : mark? r hs = some hs') :
    routeOf hs' = r.asRead := by
  rw [mark?] at h
  split at h
  · obtain rfl := Option.some.inj h
    have hservice : serviceHeader ≠ pathHeader ∧ serviceHeader ≠ schemaHeader := by decide
    have hpath : pathHeader ≠ schemaHeader := by decide
    rw [routeOf, Route.asRead]
    congr 1
    · refine Http.Headers.text_of_first? ?_
      rw [Http.Headers.first?_set_of_ne hservice.2, Http.Headers.first?_set_of_ne hservice.1,
        Http.Headers.first?_set_self]
    · refine Http.Headers.text_of_first? ?_
      rw [Http.Headers.first?_set_of_ne hpath, Http.Headers.first?_set_self]
    · exact Http.Headers.text_of_first? (Http.Headers.first?_set_self _ _ _)
  · cases h

end Routing

namespace Gateway

open Gateway.Flow

/-- Whatever handler it stands around, the interceptor leaves the first request to it as the second
one. -/
def Interceptor.PassesOn (i : Interceptor) (req req' : Http.Request) : Prop :=
  ∀ next, i.wrap next req = next req'

theorem Dispatcher.dispatch_eq (d : Dispatcher) (req : Http.Request) :
    d.dispatch req = d.serve req (Routing.routeOf req.headers) := rfl

namespace Interceptor

variable {routes : List Route} {req req' : Http.Request}

theorem passesOn_routeMatch_iff :
    (routeMatch routes).PassesOn req req' ↔
      ∃ r headers, Routing.IsFirstMatch routes req.target.path r ∧
        Routing.mark? r req.headers = some headers ∧ req' = { req with headers } := by
  constructor
  · intro h
    cases hmark : (Routing.matchRoute routes req.target.path).bind fun r =>
        Routing.mark? r req.headers with
    | none =>
        -- an answer of the interceptor's own is not what every handler answers
        have hbroken : (pure noRoute.response : Flow Http.Response) = throw .other := by
          simpa only [routeMatch, hmark] using h fun _ => throw .other
        have hperform := congrArg (fun x => (x.perform { pool := { roundRobin := ⟨0⟩ } }).1) hbroken
        cases hperform
    | some headers =>
        obtain ⟨r, hr, hheaders⟩ := Option.bind_eq_some_iff.1 hmark
        refine ⟨r, headers, Routing.matchRoute_eq_some_iff.1 hr, hheaders, ?_⟩
        by_contra hne
        classical
        -- the handler tells the request apart from all others
        have hsame := h fun q => if q = req' then throw .other else throw (.text "")
        simp only [routeMatch, hmark, if_neg (Ne.symm hne), if_pos] at hsame
        have hperform := congrArg (fun x => (x.perform { pool := { roundRobin := ⟨0⟩ } }).1) hsame
        cases hperform
  · rintro ⟨r, headers, hfirst, hmark, rfl⟩ next
    have hfound : (Routing.matchRoute routes req.target.path).bind (fun r =>
        Routing.mark? r req.headers) = some headers := by
      rw [Routing.matchRoute_eq_some_iff.2 hfirst, Option.bind_some, hmark]
    simp only [routeMatch, hfound]

end Interceptor

/-- The matcher passes on the requests that have a first route that can be written in headers. Of
each part of this route the dispatcher reads what can be read of it: the part itself if all of it is
visible characters and tabs, and the empty text if not. So it serves the request by its own route
exactly if all three parts are readable. -/
theorem served_as_read (routes : List Route) (req : Http.Request) :
    ((∃ req', (Interceptor.routeMatch routes).PassesOn req req') ↔
      Routing.IsRoutable routes req.target.path) ∧
    ∀ req', (Interceptor.routeMatch routes).PassesOn req req' →
      ∃ r, Routing.IsFirstMatch routes req.target.path r ∧
        req' = { req with headers := req'.headers } ∧
        Routing.routeOf req'.headers = r.asRead ∧
        (Routing.routeOf req'.headers = r ↔ r.IsReadable) ∧
        ∀ d : Dispatcher, d.dispatch req' = d.serve req' r.asRead := by
  refine ⟨?_, fun req' hpass => ?_⟩
  · simp only [Interceptor.passesOn_routeMatch_iff, Routing.IsRoutable]
    constructor
    · rintro ⟨-, r, headers, hfirst, hmark, -⟩
      refine ⟨r, hfirst, ?_⟩
      by_contra hr
      rw [Routing.mark?_eq, if_neg hr] at hmark
      cases hmark
    · rintro ⟨r, hfirst, hr⟩
      exact ⟨_, r, _, hfirst, by rw [Routing.mark?_eq, if_pos hr], rfl⟩
  · obtain ⟨r, headers, hfirst, hmark, rfl⟩ := Interceptor.passesOn_routeMatch_iff.1 hpass
    have hroute : Routing.routeOf headers = r.asRead := Routing.routeOf_mark? hmark
    refine ⟨r, hfirst, rfl, hroute, ?_, fun d => ?_⟩
    · rw [hroute, Route.asRead_eq_self_iff]
    · rw [Dispatcher.dispatch_eq, hroute]

/-- A route to a service whose name has a letter beyond ASCII. -/
def umlaut : Route := ⟨"svc-ü", "/svc/", "reverse-proxy"⟩

def plainPing : Http.Request where
  method := "GET"
  target := ⟨none, none, "/svc/ping"⟩

def markedPing : Http.Request :=
  { plainPing with
    headers := [⟨Routing.serviceHeader, Utf8.bytes "svc-ü"⟩, ⟨Routing.pathHeader, Utf8.bytes "/svc/"⟩,
      ⟨Routing.schemaHeader, Utf8.bytes "reverse-proxy"⟩] }

theorem isFirstMatch_umlaut : Routing.IsFirstMatch [umlaut] plainPing.target.path umlaut :=
  ⟨[], [], rfl, by decide, by simp⟩

theorem passesOn_umlaut : (Interceptor.routeMatch [umlaut]).PassesOn plainPing markedPing :=
  Interceptor.passesOn_routeMatch_iff.2
    ⟨umlaut, markedPing.headers, isFirstMatch_umlaut, by decide, rfl⟩

/-- Its beginning and its kind are read as they are, its service is not. -/
theorem served_as_read_umlaut :
    (Interceptor.routeMatch [umlaut]).PassesOn plainPing markedPing ∧
      Routing.routeOf markedPing.headers = ⟨"", "/svc/", "reverse-proxy"⟩ ∧
      ∀ d : Dispatcher, d.dispatch markedPing = d.serve markedPing ⟨"", "/svc/", "reverse-proxy"⟩ := by
  obtain ⟨r, hfirst, -, hroute, -, hserve⟩ :=
    (served_as_read [umlaut] plainPing).2 markedPing passesOn_umlaut
  have hr : r = umlaut := Option.some.inj
    ((Routing.matchRoute_eq_some_iff.2 hfirst).symm.trans
      (Routing.matchRoute_eq_some_iff.2 isFirstMatch_umlaut))
  have hread : umlaut.asRead = ⟨"", "/svc/", "reverse-proxy"⟩ := by decide
  rw [hr, hread] at hroute
  refine ⟨passesOn_umlaut, hroute, fun d => ?_⟩
  rw [hserve d, hr, hread]

/-- So a request for a service with a backend is passed on to the dispatcher, which finds none. -/
theorem served_unread :
    let p : Pool := {
      clients := [⟨"127.0.0.1:9001", "svc-ü"⟩]
      isSynced := true
      roundRobin := ⟨0⟩ }
    (Interceptor.routeMatch [umlaut]).PassesOn plainPing markedPing ∧
      Routing.IsFirstMatch [umlaut] plainPing.target.path umlaut ∧
      (Routing.routeOf markedPing.headers).id ≠ umlaut.id ∧
      (p.select umlaut.id).2 = .ok ⟨"127.0.0.1:9001", "svc-ü"⟩ ∧
      ∀ d : Dispatcher, (d.dispatch markedPing).perform { pool := p } =
        (.ok (Dispatcher.refuse "no service instance"), { pool := p }) := by
  intro p
  have hroute : Routing.routeOf markedPing.headers = ⟨"", "/svc/", "reverse-proxy"⟩ := by
    decide
  have hscheme : Scheme.parse? "reverse-proxy" = some .reverseProxy := by decide
  have hselect : p.select "" = (p, .error (.ofGateway "no available nodes")) := rfl
  refine ⟨passesOn_umlaut, isFirstMatch_umlaut, ?_, rfl, fun d => ?_⟩
  · rw [hroute]
    decide
  · rw [Dispatcher.dispatch_eq, hroute, Dispatcher.serve]
    dsimp only
    rw [hscheme]
    dsimp only
    rw [Dispatcher.perform_reverseProxy]
    dsimp only
    rw [hselect]

end Gateway

end ServiceMesh
