import Mathlib.Data.List.TakeWhile
import ServiceMesh.Balance.Client
import ServiceMesh.Proofs.Balance.Refresh
import ServiceMesh.Proofs.Balance.Turns
import ServiceMesh.Proofs.Lease.Lookups

/-!
Which service an address names. In an address of the HTTP client the name of a service ends at the
first slash or question mark, and in a target of a resolver it begins behind the slashes; so both
name the same service exactly if its name has none of these marks. The keys of nodes do not rule
them out.
-/

namespace ServiceMesh

namespace Directory

/-- Exactly these services are found, all of them with a name and with nodes. -/
structure Lists (d : Directory) (names : List String) : Prop where
  mem_iff : ∀ {name}, name ∈ names ↔ ∃ s, d.service name = .ok s
  ne_empty : ∀ {name}, name ∈ names → name ≠ ""
  nodes_ne_nil : ∀ {name s}, d.service name = .ok s → s.nodes ≠ []
  missing : ∀ {name f}, d.service name = .error f → f = .noSuchService name

variable {d : Directory} {names : List String} {name : String}

theorem Lists.exists_service (h : d.Lists names) (hname : name ∈ names) :
    ∃ s, d.service name = .ok s ∧ d.addresses name = .ok (s.nodes.map (·.addr)) := by
  obtain ⟨s, hs⟩ := h.mem_iff.1 hname
  have hnodes : s.isEmpty = false := by simp [Service.isEmpty, h.nodes_ne_nil hs]
  refine ⟨s, hs, ?_⟩
  rw [addresses, hs]
  dsimp only
  rw [hnodes]
  rfl

theorem Lists.nodes_ne_nil_of_mem (h : d.Lists names) (hname : name ∈ names) :
    d.nodes name ≠ [] := by
  obtain ⟨s, hs, -⟩ := h.exists_service hname
  rw [nodes, hs]
  exact h.nodes_ne_nil hs

theorem Lists.service_of_notMem (h : d.Lists names) (hname : name ∉ names) :
    d.service name = .error (.noSuchService name) := by
  cases hs : d.service name with
  | error f => rw [h.missing hs]
  | ok s => exact absurd (h.mem_iff.2 ⟨s, hs⟩) hname

end Directory

theorem Member.lists_of_sound {m : Member} {t : Topology} (hs : m.snapshot = some t)
    (ht : t.Sound) : m.directory.Lists t.names := by
  obtain ⟨-, hservice⟩ := Member.answers_of_sound hs ht
  refine ⟨(hservice _).1, fun hname => ?_, fun h => ((hservice _).2.1 _ h).2,
    (hservice _).2.2 _⟩
  obtain ⟨s, hget⟩ := ht.mem_names_iff.1 hname
  exact (ht.named _ s hget).2

/-- What is listed at any time of a member's life is found. -/
theorem Cluster.lists_play {c : Cluster} {p : String} {acts : List Act} (hnew : c.New p)
    (hstays : Along (Stays p) c acts) {names : List String}
    (hlisted : ((c.play acts).directory p).names = .ok names) :
    ((c.play acts).directory p).Lists names := by
  obtain ⟨σ, h⟩ := hnew.hasMember.shows
  have hnone : σ.member.snapshot = none := by rw [hnew.member σ.member h.member?]
  obtain ⟨-, σ', h', hk⟩ := h.knows_play Topology.isKept_reachable hnew.tidy
    (Member.knows_of_snapshot_eq_none hnone) hstays
  rw [h'.directory] at hlisted ⊢
  cases hs : σ'.member.snapshot with
  | none => cases hlisted.symm.trans (Member.answers_of_snapshot_eq_none hs).2
  | some t =>
      have ht : t.Reachable := hk t hs
      obtain ⟨hnames, -⟩ := Member.answers_of_sound hs ht.sound
      obtain rfl := Except.ok.inj (hlisted.symm.trans hnames)
      exact Member.lists_of_sound hs ht.sound

namespace SelectorSlot

variable {slot : SelectorSlot} {d : Directory} {names : List String} {s path : String}

def IsMark (c : Char) : Prop := c = '/' ∨ c = '?'

instance (c : Char) : Decidable (IsMark c) := inferInstanceAs (Decidable (_ ∨ _))

/-- The service that is asked for in place of a name. -/
def calledName (s : String) : String := String.ofList (splitTarget s.toList).1

def leftOver (s : String) : String := String.ofList (splitTarget s.toList).2

theorem splitTarget_append (s : List Char) {path : List Char} (h : ∀ c ∈ path.head?, IsMark c) :
    splitTarget (s ++ path) = ((splitTarget s).1, (splitTarget s).2 ++ path) := by
  induction s with
  | nil =>
      cases path with
      | nil => rfl
      | cons c path =>
          have hc : (c ≠ '/' && c ≠ '?') = false := by
            rcases h c rfl with rfl | rfl <;> rfl
          rw [List.nil_append, splitTarget, List.takeWhile_cons, List.dropWhile_cons, hc]
          rfl
  | cons c s ih =>
      simp only [splitTarget, Prod.mk.injEq] at ih ⊢
      rw [List.cons_append, List.takeWhile_cons, List.takeWhile_cons, List.dropWhile_cons,
        List.dropWhile_cons]
      split
      · exact ⟨congrArg (c :: ·) ih.1, ih.2⟩
      · exact ⟨rfl, rfl⟩

/-- A name is asked for as it is if it has no mark, and only then. -/
theorem calledName_eq_iff : calledName s = s ↔ ∀ c ∈ s.toList, ¬IsMark c := by
  have hall : (splitTarget s.toList).1 = s.toList ↔ ∀ c ∈ s.toList, ¬IsMark c := by
    rw [splitTarget, List.takeWhile_eq_self_iff]
    simp [IsMark]
  rw [← hall, calledName, ← String.toList_inj, String.toList_ofList]

theorem leftOver_eq_empty (h : ∀ c ∈ s.toList, ¬IsMark c) : leftOver s = "" := by
  have hnil : (splitTarget s.toList).2 = [] := by
    rw [splitTarget, List.dropWhile_eq_nil_iff]
    simpa [IsMark] using h
  rw [leftOver, hnil]

/-- A balanced address is resolved by the next node of the service that is asked for. -/
theorem resolve_balanced (hbuilt : slot.isBuilt = true)
    (hpath : ∀ c ∈ path.toList.head?, IsMark c) :
    (slot.resolve d (scheme ++ s ++ path)).2 =
      match (slot.next d (calledName s)).2 with
      | .ok n => .ok ("http://" ++ n.addr ++ (leftOver s ++ path))
      | .error f => .error (.remoteCall f.reason) := by
  have hrest : (scheme ++ s ++ path).toList = scheme.toList ++ (s.toList ++ path.toList) := by
    simp [String.toList_append]
  have hpre : scheme.toList.isPrefixOf (scheme ++ s ++ path).toList = true := by
    rw [hrest, List.isPrefixOf_iff_prefix]
    exact List.prefix_append _ _
  have hdrop : (scheme ++ s ++ path).toList.drop scheme.length = s.toList ++ path.toList := by
    rw [hrest]
    exact List.drop_left
  rw [resolve, if_pos hpre, hdrop, splitTarget_append _ hpath]
  dsimp only
  rw [if_neg (by simp [hbuilt]), ← calledName]
  rcases slot.next d (calledName s) with ⟨slot', n | f⟩
  · rfl
  · simp [leftOver, String.ofList_append]

def request (method : String) (target : Except Failure String) (headers : Http.Headers)
    (body : ByteArray) : Option Http.Outgoing :=
  target.toOption.bind fun a => (Http.Client.prepare method a headers body).toOption

/-- Every way to call a service at a path with a balanced address ends in this way: a request
goes to the plain address, or it fails before anything was sent. -/
structure Calls (slot : SelectorSlot) (d : Directory) (s path : String)
    (target : Except Failure String) : Prop where
  resolve : (slot.resolve d (scheme ++ s ++ path)).2 = target
  getJson : ∀ {α : Type} (read : List UInt8 → Option α) (headers : Http.Headers)
    (net : Http.Network),
    let e := ApiClient.getJson ⟨s, headers⟩ read slot d net path
    e.sent = request "GET" target headers .empty ∧ ∀ f, target = .error f → e.result = .error f
  postJson : ∀ {α : Type} (read : List UInt8 → Option α) (headers : Http.Headers)
    (net : Http.Network) (body : Json),
    let e := ApiClient.postJson ⟨s, headers⟩ read slot d net path body
    e.sent = request "POST" target
        (headers.set "content-type" (Utf8.bytes "application/json")) ⟨body.write.toArray⟩ ∧
      ∀ f, target = .error f → e.result = .error f

theorem sent_send (slot : SelectorSlot) (d : Directory) (net : Http.Network) (method url : String)
    (headers : Http.Headers) (body : ByteArray) :
    let e := slot.send d net method url headers body
    e.sent = request method (slot.resolve d url).2 headers body ∧
      ∀ f, (slot.resolve d url).2 = .error f → e.result = .error f := by
  intro e
  change (slot.send d net method url headers body).sent = _ ∧
    ∀ f, _ → (slot.send d net method url headers body).result = _
  rw [send]
  rcases slot.resolve d url with ⟨slot', f | a⟩
  · refine ⟨rfl, fun f' hf => ?_⟩
    obtain rfl := Except.error.inj hf
    rfl
  · rw [request]
    dsimp only [Except.toOption, Option.bind]
    cases Http.Client.prepare method a headers body with
    | error f => exact ⟨rfl, fun _ h => nomatch h⟩
    | ok o => exact ⟨rfl, fun _ h => nomatch h⟩

/-- The clients of a single service call what the balanced address of the service resolves to. -/
theorem calls_resolve (slot : SelectorSlot) (d : Directory) (s path : String) :
    slot.Calls d s path (slot.resolve d (scheme ++ s ++ path)).2 where
  resolve := rfl
  getJson read headers net := by
    obtain ⟨hsent, hfails⟩ :=
      slot.sent_send d net "GET" (scheme ++ s ++ path) headers .empty
    refine ⟨hsent, fun f hf => ?_⟩
    rw [ApiClient.getJson, Exchange.bind, ApiClient.baseUrl]
    dsimp only
    rw [hfails f hf]
    rfl
  postJson read headers net body := by
    obtain ⟨hsent, hfails⟩ := slot.sent_send d net "POST" (scheme ++ s ++ path)
      (headers.set "content-type" (Utf8.bytes "application/json")) ⟨body.write.toArray⟩
    refine ⟨hsent, fun f hf => ?_⟩
    rw [ApiClient.postJson, Exchange.bind, ApiClient.baseUrl]
    dsimp only
    rw [hfails f hf]
    rfl

/-- A node of the service that is asked for is called, at the path behind what is left over of the
name; if there is no such service the call fails. -/
theorem calls_called (h : d.Lists names) (hbuilt : slot.isBuilt = true)
    (hpath : ∀ c ∈ path.toList.head?, IsMark c) :
    (calledName s ∈ names → ∃ n ∈ d.nodes (calledName s),
      slot.Calls d s path (.ok ("http://" ++ n.addr ++ (leftOver s ++ path)))) ∧
    (calledName s ∉ names →
      slot.Calls d s path (.error (.remoteCall
        ("service no exist: " ++ (Failure.noSuchService (calledName s)).message)))) := by
  have hcalls := slot.calls_resolve d s path
  rw [resolve_balanced hbuilt hpath] at hcalls
  constructor
  · intro hs
    obtain ⟨n, hn, hnext⟩ := exists_next (h.nodes_ne_nil_of_mem hs) slot
    rw [hnext] at hcalls
    exact ⟨n, hn, hcalls⟩
  · intro hs
    have hnext : (slot.next d (calledName s)).2 = .error (.unavailable
        ("service no exist: " ++ (Failure.noSuchService (calledName s)).message)) := by
      rw [next, h.service_of_notMem hs]
    rw [hnext] at hcalls
    exact hcalls

end SelectorSlot

namespace Resolver

variable {d : Directory} {names : List String} {s : String}

def trimmed (s : String) : String := String.ofList (s.toList.dropWhile (· = '/'))

/-- A name is resolved as it is if it does not begin with a slash, and only then. -/
theorem trimmed_eq_iff : trimmed s = s ↔ s.toList.head? ≠ some '/' := by
  rw [trimmed, ← String.toList_inj, String.toList_ofList]
  cases s.toList with
  | nil => simp
  | cons c cs =>
      by_cases hc : c = '/'
      · -- what is left has fewer characters
        have hle := (List.dropWhile_sublist (l := cs) fun c => decide (c = '/')).length_le
        rw [List.dropWhile_cons, if_pos (by simpa using hc)]
        simp only [List.head?_cons, hc, ne_eq, not_true_eq_false, iff_false]
        intro heq
        rw [heq, List.length_cons] at hle
        exact Nat.not_succ_le_self _ hle
      · rw [List.dropWhile_cons, if_neg (by simpa using hc)]
        simpa using hc

theorem parseTarget_balanced (s : String) :
    parseTarget ("lb:///" ++ s) =
      if trimmed s = "" then .error (.remoteCall ("invalid rpc target: " ++ ("lb:///" ++ s)))
      else .ok (trimmed s) := by
  have hrest : ("lb:///" ++ s).toList = (scheme ++ "://").toList ++ '/' :: s.toList := by
    simp [String.toList_append, scheme]
  have hpre : (scheme ++ "://").toList.isPrefixOf ("lb:///" ++ s).toList = true := by
    rw [hrest, List.isPrefixOf_iff_prefix]
    exact List.prefix_append _ _
  rw [parseTarget, if_pos hpre, hrest, List.drop_left, List.dropWhile_cons, if_pos (by rfl),
    trimmed]
  cases s.toList.dropWhile (· = '/') with
  | nil => rfl
  | cons c cs => rw [if_neg (by simp)]

theorem service_push (r : Resolver) (d : Directory) : (r.push d).service = r.service := by
  rw [push_eq]
  split <;> rfl

theorem build_balanced (d : Directory) (s : String) :
    (trimmed s = "" →
      build d ("lb:///" ++ s) =
        .error (.remoteCall ("invalid rpc target: " ++ ("lb:///" ++ s)))) ∧
    (trimmed s ≠ "" → ∃ r, build d ("lb:///" ++ s) = .ok r ∧ r.service = trimmed s) := by
  rw [build, parseTarget_balanced]
  constructor
  · intro h
    rw [if_pos h]
    rfl
  · intro h
    rw [if_neg h]
    exact ⟨_, rfl, service_push _ d⟩

end Resolver

namespace Cluster

open SelectorSlot Resolver

variable {c : Cluster} {p : String} {acts : List Act}

/-- A service whose name has no mark is addressed alike by both kinds of clients, at any time of a
member's life: HTTP clients call one of the nodes whose addresses the resolver has. Any other name
HTTP clients cut at its first mark, and they call the service that is called like the first part, if
there is one; resolvers leave out the slashes in front. -/
theorem addressed_by_name (hnew : c.New p) (hstays : Along (Stays p) c acts) {names : List String}
    (hlisted : ((c.play acts).directory p).names = .ok names) {slot : SelectorSlot}
    (hbuilt : slot.isBuilt = true) {s : String} (hs : s ∈ names) {path : String}
    (hpath : ∀ x ∈ path.toList.head?, IsMark x) :
    let d := (c.play acts).directory p
    ((∀ x ∈ s.toList, ¬IsMark x) →
      ∃ r addresses, build d ("lb:///" ++ s) = .ok r ∧ r.service = s ∧
        d.addresses r.service = .ok addresses ∧
        ∃ n ∈ d.nodes s, n.addr ∈ addresses ∧
          slot.Calls d s path (.ok ("http://" ++ n.addr ++ path))) ∧
      (calledName s ∈ names →
        ∃ n ∈ d.nodes (calledName s),
          slot.Calls d s path (.ok ("http://" ++ n.addr ++ (leftOver s ++ path)))) ∧
      (calledName s ∉ names →
        slot.Calls d s path (.error (.remoteCall
          ("service no exist: " ++ (Failure.noSuchService (calledName s)).message)))) ∧
      (trimmed s = "" →
        build d ("lb:///" ++ s) =
          .error (.remoteCall ("invalid rpc target: " ++ ("lb:///" ++ s)))) ∧
      (trimmed s ≠ "" → ∃ r, build d ("lb:///" ++ s) = .ok r ∧ r.service = trimmed s) ∧
      (calledName s = s ↔ ∀ x ∈ s.toList, ¬IsMark x) ∧
      (trimmed s = s ↔ s.toList.head? ≠ some '/') := by
  intro d
  have hd : d.Lists names := lists_play hnew hstays hlisted
  obtain ⟨hcalled, hnobody⟩ := calls_called (s := s) hd hbuilt hpath
  obtain ⟨hinvalid, hvalid⟩ := build_balanced d s
  refine ⟨fun hmarks => ?_, hcalled, hnobody, hinvalid, hvalid, calledName_eq_iff, trimmed_eq_iff⟩
  -- nothing is cut off and nothing is left out
  have hname : calledName s = s := calledName_eq_iff.2 hmarks
  have hhead : s.toList.head? ≠ some '/' :=
    fun h => hmarks '/' (List.mem_of_mem_head? h) (.inl rfl)
  have htrimmed : trimmed s = s := trimmed_eq_iff.2 hhead
  rw [htrimmed] at hvalid
  rw [hname, leftOver_eq_empty hmarks, String.empty_append] at hcalled
  obtain ⟨r, hr, hservice⟩ := hvalid (hd.ne_empty hs)
  obtain ⟨svc, hsvc, haddresses⟩ := hd.exists_service hs
  obtain ⟨n, hn, hcalls⟩ := hcalled hs
  refine ⟨r, _, hr, hservice, hservice ▸ haddresses, n, hn, ?_, hcalls⟩
  rw [Directory.nodes, hsvc] at hn
  exact List.mem_map_of_mem hn

/-- Others have published a node of a service and one of another service, whose name begins with
that of the first and goes on behind a slash. The beginner registers and reads what is there. -/
def readingGrouped : List Act :=
  [.use 0 (.put (Node.new "group" "10.0.0.2" 9001).path
      (Node.new "group" "10.0.0.2" 9001).encode none),
    .use 0 (.put (Node.new "group/svc" "10.0.0.3" 9001).path
      (Node.new "group/svc" "10.0.0.3" 9001).encode none), .start "m" .upkeep] ++
    List.replicate 6 (.step 0)

theorem stays_readingGrouped : Along (Stays "m") beginner readingGrouped := by decide +kernel

/-- What the beginner has read, and what becomes of a call of the second service. -/
theorem directory_readingGrouped :
    let d := (beginner.play readingGrouped).directory "m"
    let slot : SelectorSlot := ⟨⟨0⟩, true⟩
    d.names = .ok ["group", "group/svc", "svc-a"] ∧
      (build d "lb:///group/svc").map (·.service) = .ok "group/svc" ∧
      d.addresses "group/svc" = .ok ["10.0.0.3:9001"] ∧
      d.addresses "group" = .ok ["10.0.0.2:9001"] ∧
      (slot.resolve d "lb://group/svc/ping").2 = .ok "http://10.0.0.2:9001/svc/ping" := by
  decide +kernel

/-- The HTTP client calls a node of the first service for the second. -/
theorem addressed_by_name_grouped :
    let d := (beginner.play readingGrouped).directory "m"
    let slot : SelectorSlot := ⟨⟨0⟩, true⟩
    beginner.New "m" ∧ Along (Stays "m") beginner readingGrouped ∧
      d.names = .ok ["group", "group/svc", "svc-a"] ∧ (∀ x ∈ "/ping".toList.head?, IsMark x) ∧
      (∃ r n, build d "lb:///svc-a" = .ok r ∧ r.service = "svc-a" ∧ n ∈ d.nodes "svc-a" ∧
        slot.Calls d "svc-a" "/ping" (.ok ("http://" ++ n.addr ++ "/ping"))) ∧
      ∃ n ∈ d.nodes "group", slot.Calls d "group/svc" "/ping"
        (.ok ("http://" ++ n.addr ++ "/svc/ping")) := by
  intro d slot
  have hnew : beginner.New "m" := new_join rfl rfl _
  have hstays := stays_readingGrouped
  obtain ⟨hnames, -⟩ := directory_readingGrouped
  have hhead : "/ping".toList.head? = some '/' := by decide +kernel
  have hpath : ∀ x ∈ "/ping".toList.head?, IsMark x := by
    rw [hhead]
    rintro x ⟨⟩
    exact .inl rfl
  have hslot : slot.isBuilt = true := rfl
  obtain ⟨hplain, -⟩ := addressed_by_name hnew hstays hnames hslot (s := "svc-a") (by simp) hpath
  obtain ⟨-, hcut, -⟩ :=
    addressed_by_name hnew hstays hnames hslot (s := "group/svc") (by simp) hpath
  have hplainName : calledName "svc-a" = "svc-a" := by decide +kernel
  have hcalled : calledName "group/svc" = "group" := by decide +kernel
  have hleft : leftOver "group/svc" ++ "/ping" = "/svc/ping" := by decide +kernel
  rw [hcalled, hleft] at hcut
  obtain ⟨r, addresses, hr, hservice, -, n, hn, -, hcalls⟩ :=
    hplain (calledName_eq_iff.1 hplainName)
  exact ⟨hnew, hstays, hnames, hpath, ⟨r, n, hr, hservice, hn, hcalls⟩, hcut (by simp)⟩

/-- What the HTTP client calls is not among the addresses that the resolver has. -/
theorem addressed_apart :
    let d := (beginner.play readingGrouped).directory "m"
    let slot : SelectorSlot := ⟨⟨0⟩, true⟩
    beginner.New "m" ∧ Along (Stays "m") beginner readingGrouped ∧
      d.names = .ok ["group", "group/svc", "svc-a"] ∧
      (build d "lb:///group/svc").map (·.service) = .ok "group/svc" ∧
      d.addresses "group/svc" = .ok ["10.0.0.3:9001"] ∧
      d.addresses "group" = .ok ["10.0.0.2:9001"] ∧
      (slot.resolve d "lb://group/svc/ping").2 = .ok "http://10.0.0.2:9001/svc/ping" ∧
      ¬∃ addr ∈ ["10.0.0.3:9001"],
        (slot.resolve d "lb://group/svc/ping").2 = .ok ("http://" ++ addr ++ "/ping") := by
  intro d slot
  obtain ⟨hnames, hbuild, hown, hother, hresolve⟩ := directory_readingGrouped
  refine ⟨new_join rfl rfl _, stays_readingGrouped, hnames, hbuild, hown, hother, hresolve, ?_⟩
  rw [hresolve]
  decide +kernel

end Cluster

end ServiceMesh
