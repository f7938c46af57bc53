import Mathlib.Data.List.Induction
import ServiceMesh.Proofs.Gateway.Marking
import ServiceMesh.Proofs.Text.Utf8

/-!
The token of a caller, on its way to an adapter. It is read from the headers of a request as a text
and written into what goes along with the call. Where there is nothing to read the empty text is
written, so that every call has a token: a caller who brings none is not told from one who brings an
empty token or one that cannot be read.
-/

namespace ServiceMesh

/-- A byte of a longer character is no byte of ASCII. -/
theorem Utf8.le_of_mem_utf8EncodeChar {c : Char} (hc : 0x80 ≤ c.toNat) {b : UInt8}
    (h : b ∈ String.utf8EncodeChar c) : 0x80 ≤ b.toNat := by
  have hc' : 0x80 ≤ c.val.toNat := hc
  rw [String.utf8EncodeChar] at h
  generalize c.val.toNat = v at h hc'
  split_ifs at h <;>
    simp only [List.mem_cons, List.not_mem_nil, or_false, ← UInt8.toNat_inj,
      UInt8.toNat_ofNat'] at h <;> omega

/-! ### What can be written and what can be read -/

namespace Http

/-- A text that can be written in a header: of the control characters of ASCII it has only tabs. -/
def Header.IsLegal (s : String) : Prop :=
  ∀ c ∈ s.toList, c = '\t' ∨ 0x20 ≤ c.toNat ∧ c.toNat ≠ 0x7F

instance (s : String) : Decidable (Header.IsLegal s) :=
  inferInstanceAs (Decidable (∀ c ∈ s.toList, c = '\t' ∨ 0x20 ≤ c.toNat ∧ c.toNat ≠ 0x7F))

theorem Header.isLegalValue_utf8EncodeChar_iff {c : Char} :
    isLegalValue (String.utf8EncodeChar c) = true ↔
      c = '\t' ∨ 0x20 ≤ c.toNat ∧ c.toNat ≠ 0x7F := by
  rw [← Char.toNat_inj]
  simp only [isLegalValue, isValueByte, List.all_eq_true, Bool.or_eq_true, Bool.and_eq_true,
    decide_eq_true_eq, UInt8.le_iff_toNat_le, ne_eq, ← UInt8.toNat_inj, UInt8.reduceToNat]
  by_cases hc : c.toNat < 0x80
  · have hbyte : c.toNat.toUInt8.toNat = c.toNat := by
      rw [Nat.toUInt8_eq, UInt8.toNat_ofNat']
      omega
    rw [Utf8.utf8EncodeChar_of_lt hc]
    simp only [List.mem_singleton, forall_eq, hbyte]
    exact Iff.rfl
  · refine iff_of_true (fun b hb => .inr ?_) (.inr ?_)
    · have hle := Utf8.le_of_mem_utf8EncodeChar (Nat.le_of_not_lt hc) hb
      omega
    · omega

theorem Header.isLegalValue_bytes_iff {s : String} :
    isLegalValue (Utf8.bytes s) = true ↔ IsLegal s := by
  rw [Utf8.bytes_eq_flatMap, isLegalValue, List.all_flatMap, List.all_eq_true]
  exact forall₂_congr fun c _ => isLegalValue_utf8EncodeChar_iff

theorem Header.IsReadable.isLegal {s : String} (h : IsReadable s) : IsLegal s :=
  isLegalValue_bytes_iff.1 h.isLegalValue

namespace Headers

variable {hs : Headers} {name s : String}

theorem text?_eq_some_iff :
    hs.text? name = some s ↔ hs.first? name = some (Utf8.bytes s) ∧ Header.IsReadable s := by
  constructor
  · intro h
    rw [text?] at h
    cases hv : hs.first? name with
    | none => simp [hv] at h
    | some v =>
        rw [hv] at h
        obtain ⟨hread, htext⟩ := Option.ite_none_right_eq_some.1 h
        obtain rfl := Utf8.bytes_of_text? htext
        exact ⟨rfl, hread⟩
  · rintro ⟨hv, hread⟩
    rw [text?_of_first? hv, if_pos hread]

/-- What is read of a name is a text that can be read, the empty one where there is none. -/
theorem isReadable_text (hs : Headers) (name : String) : Header.IsReadable (hs.text name) := by
  rw [text]
  cases htext : hs.text? name with
  | none => rfl
  | some s => exact (text?_eq_some_iff.1 htext).2

/-- A text is read unless it is empty exactly if it is the first value of the name. -/
theorem text_eq_iff (hs : Headers) (name : String) (hne : s ≠ "") :
    hs.text name = s ↔ hs.first? name = some (Utf8.bytes s) ∧ Header.IsReadable s := by
  rw [← text?_eq_some_iff, text]
  cases hs.text? name with
  | none => simpa using hne.symm
  | some s' => simp

end Headers

end Http

/-! ### What goes along with a call -/

namespace CallContext

open Http.Header

def withToken (c : CallContext) (token : String) : CallContext :=
  { c with metadata := c.metadata.set tokenName (Utf8.bytes token) }

theorem withAuthorization_of_isLegal {token : String} (h : IsLegal token) (c : CallContext) :
    c.withAuthorization token = c.withToken token :=
  if_pos (isLegalValue_bytes_iff.2 h)

theorem withAuthorization_of_not_isLegal {token : String} (h : ¬IsLegal token) (c : CallContext) :
    c.withAuthorization token = c :=
  if_neg fun hlegal => h (isLegalValue_bytes_iff.1 hlegal)

/-- Of two tokens the second takes the place of the first. -/
theorem withToken_withToken (c : CallContext) (token token' : String) :
    (c.withToken token).withToken token' = c.withToken token' :=
  congrArg (fun metadata => { c with metadata }) (c.metadata.set_set _ _ _)

def lastLegal? (tokens : List String) : Option String := (tokens.filter (IsLegal ·)).getLast?

theorem foldl_withAuthorization (c : CallContext) (tokens : List String) :
    tokens.foldl withAuthorization c = (lastLegal? tokens).elim c c.withToken := by
  induction tokens using List.reverseRecOn with
  | nil => rfl
  | append_singleton tokens token ih =>
      rw [List.foldl_append, List.foldl_cons, List.foldl_nil, ih, lastLegal?, lastLegal?,
        List.filter_append]
      by_cases h : IsLegal token
      · have hkept : [token].filter (IsLegal ·) = [token] := by simp [h]
        rw [withAuthorization_of_isLegal h, hkept, List.getLast?_concat, Option.elim_some]
        cases (tokens.filter (IsLegal ·)).getLast? with
        | none => rfl
        | some before => exact c.withToken_withToken before token
      · have hdropped : [token].filter (IsLegal ·) = [] := by simp [h]
        rw [withAuthorization_of_not_isLegal h, hdropped, List.append_nil]

/-- One token is carried in place of those before, and nothing else is changed. -/
structure Carries (c : CallContext) (token : String) (c' : CallContext) : Prop where
  values : c'.metadata.values tokenName = [Utf8.bytes token]
  authorization : c'.authorization = if IsReadable token then some token else none
  others : ∀ name, name ≠ tokenName → c'.metadata.values name = c.metadata.values name
  timeout : c'.timeout = c.timeout

theorem carries_withToken (c : CallContext) (token : String) : c.Carries token (c.withToken token)
    where
  values := c.metadata.values_set_self _ _
  authorization := Http.Headers.text?_of_first? (c.metadata.first?_set_self _ _)
  others _ h := Http.Headers.values_set_of_ne h _ _
  timeout := rfl

end CallContext

namespace Gateway

open Gateway.Flow Http.Header

/-- The first token in the headers of a request is this one, and it can be read as a text. -/
def Brings (req : Http.Request) (token : String) : Prop :=
  req.headers.first? CallContext.tokenName = some (Utf8.bytes token) ∧ IsReadable token

instance (req : Http.Request) (token : String) : Decidable (Brings req token) :=
  inferInstanceAs (Decidable (_ ∧ _))

namespace Dispatcher

variable {d : Dispatcher} {req : Http.Request} {t : Traffic} {a : Adapter} {c : Call}

/-- Along with a call of an adapter goes the token that is read of the request. -/
theorem carries_of_callFor (h : d.callFor req = .ok (a, c)) :
    a ∈ d.adapters ∧ (CallContext.new d.timeout).Carries
      (req.headers.text CallContext.tokenName) c.context := by
  rw [callFor] at h
  cases hkey : Routing.routingKey req.target.path with
  | none => simp [hkey] at h
  | some key =>
      cases hfound : findAdapter d.adapters key with
      | none => simp [hkey, hfound] at h
      | some a' =>
          cases hinput : inputOf req with
          | error r => simp [hkey, hfound, hinput] at h
          | ok input =>
              simp only [hkey, hfound, hinput, Except.ok.injEq, Prod.mk.injEq] at h
              obtain ⟨rfl, rfl⟩ := h
              have hread := Http.Headers.isReadable_text req.headers CallContext.tokenName
              rw [CallContext.withAuthorization_of_isLegal hread.isLegal]
              exact ⟨List.mem_reverse.1 (List.mem_of_find?_eq_some hfound),
                CallContext.carries_withToken _ _⟩

/-- A request is handled without a call or with one. -/
theorem perform_dispatch_cases (d : Dispatcher) (req : Http.Request) (t : Traffic) :
    ((d.dispatch req).perform t).2.calls = t.calls ∨
      ∃ a c, d.callFor req = .ok (a, c) ∧ (d.dispatch req).perform t =
        (d.close (a.answer c), { t with calls := t.calls ++ [c] }) := by
  rw [dispatch]
  cases Scheme.parse? (req.headers.text Routing.schemaHeader) with
  | none => exact .inl rfl
  | some scheme =>
      cases scheme with
      | reverseProxy =>
          left
          dsimp only
          rw [perform_reverseProxy]
          split
          · rfl
          · split <;> rfl
      | typedRpc =>
          dsimp only
          rw [perform_typedRpc]
          cases hcall : d.callFor req with
          | error r => exact .inl rfl
          | ok call => exact .inr ⟨call.1, call.2, rfl, rfl⟩

/-- The call that is made for a request. -/
theorem exists_of_mem_made {made : List Call}
    (hmade : ((d.dispatch req).perform t).2.calls = t.calls ++ made) (hc : c ∈ made) :
    ∃ a, d.callFor req = .ok (a, c) ∧ (d.dispatch req).perform t =
      (d.close (a.answer c), { t with calls := t.calls ++ [c] }) := by
  obtain hnone | ⟨a, c', hcall, hperform⟩ := d.perform_dispatch_cases req t
  · obtain rfl : made = [] := List.append_right_eq_self.1 (hmade.symm.trans hnone)
    cases hc
  · rw [hperform] at hmade
    obtain rfl : [c'] = made := List.append_cancel_left hmade
    obtain rfl := List.mem_singleton.1 hc
    exact ⟨a, hcall, hperform⟩

end Dispatcher

/-- A call that is made for a request is the only one, and an adapter answers it. Along with it goes
one token, which the adapter reads. A token that is not empty is that of the caller: the first one
in the headers of the request, if it can be read as a text. The empty one stands for all callers who
bring no other, be it that they bring none, an empty one or one that cannot be read. Of several
tokens that are put into a context the last one counts that can be written, the empty one included,
and those that cannot be written change nothing. -/
theorem token_handed_on (d : Dispatcher) (req : Http.Request) (t : Traffic) {made : List Call}
    {c : Call} (hmade : ((d.dispatch req).perform t).2.calls = t.calls ++ made) (hc : c ∈ made) :
    (∃ a ∈ d.adapters, (d.dispatch req).perform t =
      (d.close (a.answer c), { t with calls := t.calls ++ [c] })) ∧
    (∃ token, c.context.authorization = some token ∧
      (CallContext.new d.timeout).Carries token c.context) ∧
    (∀ token, token ≠ "" → (c.context.authorization = some token ↔ Brings req token)) ∧
    (c.context.authorization = some "" ↔ ∀ token, Brings req token → token = "") ∧
    ∀ (ctx : CallContext) (tokens : List String),
      let ctx' := tokens.foldl CallContext.withAuthorization ctx
      (match CallContext.lastLegal? tokens with
        | none => ctx' = ctx
        | some token => ctx.Carries token ctx') ∧
      ((ctx.metadata.values CallContext.tokenName).length ≤ 1 →
        (ctx'.metadata.values CallContext.tokenName).length ≤ 1) := by
  obtain ⟨a, hcall, hperform⟩ := Dispatcher.exists_of_mem_made hmade hc
  obtain ⟨ha, hcarries⟩ := Dispatcher.carries_of_callFor hcall
  have hauth : c.context.authorization = some (req.headers.text CallContext.tokenName) := by
    rw [hcarries.authorization, if_pos (Http.Headers.isReadable_text _ _)]
  refine ⟨⟨a, ha, hperform⟩, ⟨_, hauth, hcarries⟩, fun token hne => ?_, ?_, fun ctx tokens => ?_⟩
  · rw [hauth, Option.some_inj]
    exact Http.Headers.text_eq_iff _ _ hne
  · rw [hauth, Option.some_inj]
    constructor
    · intro hempty token hbrings
      by_contra hne
      exact hne (((Http.Headers.text_eq_iff _ _ hne).2 hbrings).symm.trans hempty)
    · intro hall
      by_contra hne
      exact hne (hall _ ((Http.Headers.text_eq_iff _ _ hne).1 rfl))
  · intro ctx'
    have hrun : ctx' = (CallContext.lastLegal? tokens).elim ctx ctx.withToken :=
      ctx.foldl_withAuthorization tokens
    rw [hrun]
    cases CallContext.lastLegal? tokens with
    | none => exact ⟨rfl, id⟩
    | some token =>
        have htoken := ctx.carries_withToken token
        refine ⟨htoken, fun _ => ?_⟩
        rw [Option.elim_some, htoken.values]
        exact Nat.le_refl 1

def greeter : Adapter where
  balancer := "rpc"
  service := "Greet"
  call ctx _ _ _ := .finished 0 (.ok (Utf8.bytes (ctx.authorization.getD "nobody")))

def greet (tokens : List String) : Http.Request where
  method := "GET"
  target := ⟨none, none, "/rpc/greet/me"⟩
  headers := ⟨Routing.schemaHeader, Utf8.bytes "typed-rpc"⟩ ::
    tokens.map fun s => ⟨CallContext.tokenName, Utf8.bytes s⟩

def greeting : Dispatcher where
  net := .unreachable
  adapters := [greeter]
  timeout := 30000
  forwardedFor := "10.0.0.1"
  date := "Thu, 01 Jan 1970 00:00:00 GMT"

theorem exists_call_greeting (tokens : List String) (t : Traffic)
    (hschema : Scheme.parse? ((greet tokens).headers.text Routing.schemaHeader) = some .typedRpc) :
    ∃ c, (greeting.dispatch (greet tokens)).perform t =
      (greeting.close (greeter.answer c), { t with calls := t.calls ++ [c] }) := by
  have hkey : greeter.key = "/rpc/greet/" := by decide
  have hfound : findAdapter greeting.adapters "/rpc/greet/" = some greeter := by
    simp [findAdapter, greeting, hkey]
  have hpath : Routing.routingKey (Http.Target.path ⟨none, none, "/rpc/greet/me"⟩) =
      some "/rpc/greet/" := by decide
  obtain ⟨c, -, hperform⟩ :=
    greeting.exists_call (greet tokens) t hschema (.inl rfl) hpath hfound
  exact ⟨c, hperform⟩

/-- Of two tokens the adapter is given the first. -/
theorem token_handed_on_bearer :
    let t : Traffic := { pool := { roundRobin := ⟨0⟩ } }
    ∃ c, ((greeting.dispatch (greet ["Bearer x.y.z", "other"])).perform t).2.calls = [c] ∧
      c.context.authorization = some "Bearer x.y.z" ∧
      c.context.metadata.values CallContext.tokenName = [Utf8.bytes "Bearer x.y.z"] := by
  intro t
  obtain ⟨c, hperform⟩ := exists_call_greeting ["Bearer x.y.z", "other"] t (by decide)
  have hmade : ((greeting.dispatch (greet ["Bearer x.y.z", "other"])).perform t).2.calls =
      t.calls ++ [c] := by rw [hperform]
  obtain ⟨-, ⟨token, htoken, hcarries⟩, hread, -⟩ :=
    token_handed_on greeting (greet ["Bearer x.y.z", "other"]) t hmade List.mem_cons_self
  have hauth := (hread "Bearer x.y.z" (by decide)).2 (by decide)
  obtain rfl := Option.some.inj (htoken.symm.trans hauth)
  exact ⟨c, hmade, hauth, hcarries.values⟩

/-- A caller who brings no token is greeted by the empty one, and an empty token is put in the place
of another. -/
theorem token_of_nobody :
    let t : Traffic := { pool := { roundRobin := ⟨0⟩ } }
    let known := (CallContext.new 1000).withAuthorization "abc"
    (greet []).headers.first? CallContext.tokenName = none ∧
      (∃ c, ((greeting.dispatch (greet [])).perform t).2.calls = [c] ∧
        c.context.metadata.values CallContext.tokenName = [[]] ∧
        greeter.answer c = .finished 0 (.ok [])) ∧
      known.authorization = some "abc" ∧ (known.withAuthorization "").authorization = some "" := by
  intro t known
  obtain ⟨c, hperform⟩ := exists_call_greeting [] t (by decide)
  have hmade : ((greeting.dispatch (greet [])).perform t).2.calls = t.calls ++ [c] := by
    rw [hperform]
  obtain ⟨a, hcall, -⟩ := Dispatcher.exists_of_mem_made hmade List.mem_cons_self
  have hcarries := (Dispatcher.carries_of_callFor hcall).2
  have htext : (greet []).headers.text CallContext.tokenName = "" := by decide
  rw [htext] at hcarries
  refine ⟨by decide, ⟨c, hmade, by rw [hcarries.values, Utf8.bytes_empty], ?_⟩, by decide, by decide⟩
  rw [Adapter.answer]
  change Outcome.finished 0 (.ok (Utf8.bytes (c.context.authorization.getD "nobody"))) = _
  rw [hcarries.authorization, if_pos (by decide), Option.getD_some, Utf8.bytes_empty]

end Gateway

end ServiceMesh
