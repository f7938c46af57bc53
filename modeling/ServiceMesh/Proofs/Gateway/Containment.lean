import ServiceMesh.Proofs.Gateway.Envelope
import ServiceMesh.Proofs.Gateway.Stages

/-!
Panics are contained by the interceptors that recover. What gets out of a handler is the last panic
that was raised, and nobody who raised it stands behind an interceptor that recovers. A panic that
was caught was turned into an answer, and the answer of the last one is what everyone further out
returns. If nothing panics, the interceptors that recover might as well not be there.
-/

namespace ServiceMesh.Gateway

variable {α β : Type}

/-- What is known of something that ends: of its result and the panics on record if it returns, and
of the last panic if it ends with that one. -/
def Account.Fits (returned : α → List Raise → Prop) (broken : Raise → Prop) (a : Account α) : Prop :=
  match a.result with
  | .ok v => returned v a.raised
  | .error p => ∃ x, a.raised.getLast? = some x ∧ x.panic = p ∧ broken x

namespace Watch

/-- However it is done, this is known of its end. -/
def Ends (returned : α → List Raise → Prop) (broken : Raise → Prop) (x : Watch α) : Prop :=
  ∀ t, (x t).Fits returned broken

variable {returned returned' : α → List Raise → Prop} {broken broken' : Raise → Prop}

theorem Ends.mono {x : Watch α} (h : x.Ends returned broken)
    (hreturned : ∀ v raised, returned v raised → returned' v raised)
    (hbroken : ∀ r, broken r → broken' r) : x.Ends returned' broken' := by
  intro t
  have ht := h t
  rw [Account.Fits] at ht ⊢
  cases hresult : (x t).result with
  | ok v =>
      rw [hresult] at ht
      exact hreturned v _ ht
  | error p =>
      rw [hresult] at ht
      obtain ⟨r, hlast, hp, hr⟩ := ht
      exact ⟨r, hlast, hp, hbroken r hr⟩

theorem ends_pure {v : α} (h : returned v []) : (pure v : Watch α).Ends returned broken := fun _ => h

theorem ends_own {place : Nat} (x : Flow α) (hreturned : ∀ v, returned v [])
    (hbroken : ∀ p, broken ⟨place, p⟩) : (own place x).Ends returned broken := by
  intro t
  rw [own]
  cases x.perform t with
  | mk r t' =>
      cases r with
      | ok v => exact hreturned v
      | error p => exact ⟨⟨place, p⟩, rfl, rfl, hbroken p⟩

/-- What someone does leaves nothing on record if it returns. -/
theorem ends_own_quietly {place : Nat} (x : Flow α) (hbroken : ∀ p, broken ⟨place, p⟩) :
    (own place x).Ends (fun _ raised => raised = [] ∧ True) broken :=
  ends_own x (fun _ => ⟨rfl, trivial⟩) hbroken

theorem ends_throw {place : Nat} (p : Panic) (hbroken : ∀ p, broken ⟨place, p⟩) :
    (own place (throw p : Flow α)).Ends returned broken :=
  fun _ => ⟨⟨place, p⟩, rfl, rfl, hbroken p⟩

/-- Something that leaves nothing on record if it returns, and then something else. -/
theorem Ends.bind {Q : α → Prop} {x : Watch α} {f : α → Watch β} {returned : β → List Raise → Prop}
    (hx : x.Ends (fun v raised => raised = [] ∧ Q v) broken)
    (hf : ∀ v, Q v → (f v).Ends returned broken) : (x >>= f).Ends returned broken := by
  intro t
  have hxt := hx t
  cases h : x t with
  | mk r t' raised =>
      rw [h] at hxt
      cases r with
      | ok v =>
          obtain ⟨rfl, hv⟩ := hxt
          rw [bind_ok h]
          exact hf v hv t'
      | error p =>
          rw [bind_error h]
          exact hxt

/-- Something that returns, and then something that returns the same and leaves nothing on record. -/
theorem Ends.bind_same {x : Watch α} {f : α → Watch α} (hx : x.Ends returned broken)
    (hf : ∀ v, (f v).Ends (fun w raised => raised = [] ∧ w = v) broken) :
    (x >>= f).Ends returned broken := by
  intro t
  have hxt := hx t
  cases h : x t with
  | mk r t' raised =>
      rw [h] at hxt
      cases r with
      | error p =>
          rw [bind_error h]
          exact hxt
      | ok v =>
          have hft := hf v t'
          rw [bind_ok h]
          cases h' : f v t' with
          | mk r' t'' raised' =>
              rw [h'] at hft
              cases r' with
              | ok w =>
                  obtain ⟨rfl, rfl⟩ := hft
                  exact (List.append_nil raised).symm ▸ hxt
              | error p =>
                  obtain ⟨y, hlast, hp, hy⟩ := hft
                  have hlast' : (raised ++ raised').getLast? = some y := by
                    rw [List.getLast?_append, hlast]
                    rfl
                  exact ⟨y, hlast', hp, hy⟩

end Watch

open Watch

/-- The response is what is made of the last panic on record, if there is one. -/
def Told (r : Http.Response) (raised : List Raise) : Prop :=
  ∀ x ∈ raised.getLast?, r = Interceptor.answerTo (.error x.panic)

/-- Whoever raised the panic stands in front of all links that recover. -/
def Exposed (place : Nat) (links : List Link) (x : Raise) : Prop :=
  links.any Link.isRecover = true → x.place < place + links.findIdx Link.isRecover

/-- The call of the handler leaves no panic on record unless it ends with it, and what it gives back
returns the answer to the last panic. Who raised a panic that gets out is known. -/
def IsContained (broken : Raise → Prop) (h : Staged Watch) : Prop :=
  ∀ req, (h req).Ends (fun future raised => raised = [] ∧ future.Ends Told broken) broken

theorem told_nil (r : Http.Response) : Told r [] := fun _ hx => nomatch hx

section

variable {broken : Raise → Prop} {h next : Staged Watch} {place : Nat}

theorem IsContained.joined (hh : IsContained broken h) (req : Http.Request) :
    (h.joined req).Ends Told broken :=
  (hh req).bind fun _ hfuture => hfuture

theorem ends_make (hnext : IsContained broken next) (hown : ∀ p, broken ⟨place, p⟩) (m : Move) :
    (m.make place next).Ends (fun future raised => raised = [] ∧ future.Ends Told broken)
      broken := by
  cases m with
  | answer r => exact ends_pure ⟨rfl, ends_pure (told_nil r)⟩
  | pass q after =>
      refine (hnext q).bind fun future hfuture => ends_pure ⟨rfl, ?_⟩
      refine hfuture.bind_same fun r => ?_
      exact (ends_own_quietly _ hown).bind fun _ _ => ends_pure ⟨rfl, rfl⟩
  | abandon q awaited p =>
      refine (hnext q).bind fun _ _ => ?_
      cases awaited with
      | true => exact ends_pure ⟨rfl, ends_throw p hown⟩
      | false => exact ends_throw p hown

theorem isContained_wrap_other (hnext : IsContained broken next) (hown : ∀ p, broken ⟨place, p⟩)
    (name : String) (c : Conduct) : IsContained broken ((Link.other name c).wrap place next) := by
  intro req
  refine (ends_own_quietly _ hown).bind fun m _ => ?_
  cases m with
  | inl m => exact ends_make hnext hown m
  | inr later =>
      refine ends_pure ⟨rfl, (ends_own_quietly _ hown).bind fun m _ => ?_⟩
      exact (ends_make hnext hown m).bind fun _ hfuture => hfuture

theorem answerTo_caught (x : Watch Http.Response) (t : Traffic) :
    (Interceptor.answerTo <$> caught x) t =
      ⟨.ok (Interceptor.answerTo (x t).result), (x t).traffic, (x t).raised⟩ :=
  congrArg (Account.mk (.ok (Interceptor.answerTo (x t).result)) (x t).traffic)
    (List.append_nil _)

/-- Nothing gets out of a handler around which a panic is turned into an answer. -/
theorem Ends.answerTo {x : Watch Http.Response} (hx : x.Ends Told broken) :
    (Interceptor.answerTo <$> caught x).Ends Told fun _ => False := by
  intro t
  have hxt := hx t
  rw [answerTo_caught]
  cases h : x t with
  | mk r t' raised =>
      rw [h] at hxt
      cases r with
      | ok r => exact hxt
      | error p =>
          obtain ⟨y, hlast, rfl, -⟩ := hxt
          intro z hz
          obtain rfl := Option.some.inj (hlast.symm.trans hz)
          rfl

theorem isContained_wrap_recover (hnext : IsContained broken next) :
    IsContained (fun _ => False) (Link.recover.wrap place next) := by
  intro req
  refine ends_pure ⟨rfl, ?_⟩
  rw [caughtInTurn_eq]
  exact Ends.answerTo (hnext.joined req)

theorem IsContained.mono {broken' : Raise → Prop} (hh : IsContained broken h)
    (hbroken : ∀ x, broken x → broken' x) : IsContained broken' h := fun req =>
  (hh req).mono (fun _ _ hr => ⟨hr.1, hr.2.mono (fun _ _ hr => hr) hbroken⟩) hbroken

end

theorem findIdx_other (name : String) (c : Conduct) (links : List Link) :
    (Link.other name c :: links).findIdx Link.isRecover = links.findIdx Link.isRecover + 1 :=
  List.findIdx_cons

/-- Who raised a panic that gets out of a chain stands in front of all links that recover. -/
theorem isContained_watched (place : Nat) (links : List Link) (terminal : Staged Flow) :
    IsContained (Exposed place links) (watched place links terminal) := by
  induction links generalizing place with
  | nil =>
      intro req
      have hown (p : Panic) : Exposed place [] ⟨place, p⟩ := fun h => nomatch h
      refine (ends_own_quietly _ hown).bind fun future _ => ends_pure ⟨rfl, ?_⟩
      exact ends_own future told_nil hown
  | cons l links ih =>
      cases l with
      | recover => exact (isContained_wrap_recover (ih (place + 1))).mono fun _ hx => nomatch hx
      | other name c =>
          -- this one stands in front of the others, and of all links that recover as well
          have hinner (x : Raise) (hx : Exposed (place + 1) links x) :
              Exposed place (.other name c :: links) x := by
            intro hrecover
            have hlt := hx hrecover
            rw [findIdx_other]
            omega
          have hown (p : Panic) : Exposed place (.other name c :: links) ⟨place, p⟩ := by
            intro _
            rw [findIdx_other]
            exact Nat.lt_add_of_pos_right (Nat.succ_pos _)
          exact isContained_wrap_other ((ih (place + 1)).mono hinner) hown name c

/-! ### Without those that recover -/

/-- The other does the same, unless the one leaves a panic on record. -/
def SameUnlessRaised (x y : Watch α) : Prop := ∀ t, (x t).raised = [] → y t = x t

theorem sameUnlessRaised_own (place place' : Nat) (x : Flow α) :
    SameUnlessRaised (own place x) (own place' x) := by
  intro t ht
  rw [own] at ht ⊢
  cases h : x.perform t with
  | mk r t' =>
      rw [h] at ht
      cases r with
      | ok a => rw [own, h]
      | error p => cases ht

theorem SameUnlessRaised.bind {x y : Watch α} {f g : α → Watch β} (hx : SameUnlessRaised x y)
    (hf : ∀ a, SameUnlessRaised (f a) (g a)) : SameUnlessRaised (x >>= f) (y >>= g) := by
  intro t ht
  have hxt := hx t
  cases h : x t with
  | mk r t' raised =>
      rw [h] at hxt
      cases r with
      | ok a =>
          rw [bind_ok h] at ht ⊢
          obtain ⟨hraised, hlater⟩ := List.append_eq_nil_iff.1 ht
          rw [bind_ok (hxt hraised), hf a t' hlater]
      | error p =>
          rw [bind_error h] at ht ⊢
          rw [bind_error (hxt ht)]

/-- A move that calls the next handler without awaiting it leaves a panic on record. -/
theorem raised_made_abandon {broken : Raise → Prop} {next : Staged Watch}
    (hnext : IsContained broken next) (place : Nat) (q : Http.Request) (awaited : Bool) (p : Panic)
    (t : Traffic) : ((Move.abandon q awaited p).made place next t).raised ≠ [] := by
  have hq := hnext q t
  rw [made_abandon]
  cases h : next q t with
  | mk r t' raised =>
      rw [h] at hq
      cases r with
      | ok future =>
          rw [bind_ok h]
          exact List.append_ne_nil_of_right_ne_nil _ (List.cons_ne_nil _ _)
      | error p =>
          obtain ⟨x, hlast, -⟩ := hq
          rw [bind_error h]
          rintro rfl
          cases hlast

theorem sameUnlessRaised_made {broken : Raise → Prop} {next next' : Staged Watch}
    (hnext : IsContained broken next)
    (hsame : ∀ req, SameUnlessRaised (next.joined req) (next'.joined req)) (place place' : Nat)
    (m : Move) : SameUnlessRaised (m.made place next) (m.made place' next') := by
  cases m with
  | answer r => exact fun _ _ => rfl
  | pass q after =>
      rw [made_pass, made_pass]
      refine (hsame q).bind fun r => ?_
      exact (sameUnlessRaised_own place place' _).bind fun _ _ _ => rfl
  | abandon q awaited p =>
      exact fun t ht => absurd ht (raised_made_abandon hnext place q awaited p t)

/-- If nothing panics, the links that recover make no difference. -/
theorem sameUnlessRaised_watched (place place' : Nat) (links : List Link) (terminal : Staged Flow)
    (req : Http.Request) :
    SameUnlessRaised ((watched place links terminal).joined req)
      ((watched place' (links.filter (!·.isRecover)) terminal).joined req) := by
  induction links generalizing place place' req with
  | nil =>
      rw [List.filter_nil, watched, watched, Staged.joined, Staged.joined]
      simp only [bind_assoc, pure_bind]
      exact (sameUnlessRaised_own place place' _).bind fun future =>
        sameUnlessRaised_own place place' future
  | cons l links ih =>
      have hcontained := isContained_watched (place + 1) links terminal
      rw [watched]
      cases l with
      | recover =>
          rw [List.filter_cons_of_neg (by simp [Link.isRecover]), joined_wrap_recover]
          intro t ht
          rw [answerTo_caught] at ht ⊢
          have hsame := ih (place + 1) place' req t ht
          rw [hsame]
          -- with nothing on record there was no panic to catch
          have hends := hcontained.joined req t
          cases h : (watched (place + 1) links terminal).joined req t with
          | mk r t' raised =>
              rw [h] at hends ht
              cases r with
              | ok r => rfl
              | error p =>
                  obtain ⟨x, hlast, -⟩ := hends
                  rw [show raised = [] from ht] at hlast
                  cases hlast
      | other name c =>
          rw [List.filter_cons_of_pos (by simp [Link.isRecover]), watched, joined_wrap_other,
            joined_wrap_other]
          refine (sameUnlessRaised_own place place' _).bind fun m => ?_
          exact sameUnlessRaised_made hcontained (ih (place + 1) (place' + 1)) place place' m

/-- A panic that gets out of a chain is that of someone in front of all links that recover. -/
theorem exists_raised_of_error {entries : List (Int32 × Link)}
    (hrecover : ∃ e ∈ entries, e.2.isRecover = true) {terminal : Staged Flow} {req : Http.Request}
    {t : Traffic} {p : Panic} (hp : (account (linksOf entries) terminal req t).result = .error p) :
    ∃ x ∈ (account (linksOf entries) terminal req t).raised,
      x.place < (linksOf entries).findIdx Link.isRecover ∧ x.panic = p := by
  have hany : (linksOf entries).any Link.isRecover = true := by
    obtain ⟨e, he, hl⟩ := hrecover
    rw [List.any_eq_true]
    exact ⟨e.2, List.mem_map.2 ⟨e, (inOrder_perm entries).mem_iff.2 he, rfl⟩, hl⟩
  have hends : (account (linksOf entries) terminal req t).Fits Told
      (Exposed 0 (linksOf entries)) :=
    (isContained_watched 0 (linksOf entries) terminal).joined req t
  rw [Account.Fits, hp] at hends
  obtain ⟨x, hlast, hpanic, hx⟩ := hends
  have hlt := hx hany
  rw [Nat.zero_add] at hlt
  exact ⟨x, List.mem_of_getLast? hlast, hlt, hpanic⟩

/-- With the usual interceptors every request is answered, whatever the terminal does. -/
theorem exists_answer_of_defaultChain (fresh : Nat → String) (routes : List Route)
    (whiteList : List String) (terminal : Staged Flow) (req : Http.Request) (t : Traffic) :
    ∃ r t', ((defaultChain fresh routes whiteList).build terminal.joined req).perform t =
      (.ok r, t') := by
  let entries := defaultLinks fresh routes whiteList
  have hrecover : ∃ e ∈ entries, e.2.isRecover = true :=
    ⟨(-10, .recover), List.mem_cons_self, rfl⟩
  have hfirst : (linksOf entries).findIdx Link.isRecover = 0 := by
    simp [linksOf, entries, defaultLinks, inOrder_cons, List.findIdx_cons, Link.isRecover]
  rw [← chainOf_defaultLinks, perform_build_chainOf (isPrompt_defaultLinks _ _ _)]
  cases hresult : (account (linksOf entries) terminal req t).result with
  | ok r => exact ⟨r, _, rfl⟩
  | error p =>
      obtain ⟨x, -, hlt, -⟩ := exists_raised_of_error hrecover hresult
      rw [hfirst] at hlt
      exact absurd hlt (Nat.not_lt_zero _)

/-- In a chain with links that recover, a panic of the terminal or of anyone behind the first of them
is answered with an envelope that tells of the last panic, unless someone in front of all of them
panics; and the chain itself panics only if someone there does. If nothing panics, it does the same
without the links that recover. A chain of the gateway does what its links do, as long as none of
them panics between calling its next handler and awaiting it. -/
theorem panics_contained {entries : List (Int32 × Link)}
    (hrecover : ∃ e ∈ entries, e.2.isRecover = true) (terminal : Staged Flow) (req : Http.Request)
    (t : Traffic) :
    let first := (linksOf entries).findIdx Link.isRecover
    let a := account (linksOf entries) terminal req t
    ((∃ x ∈ a.raised, first < x.place) → (∀ x ∈ a.raised, ¬x.place < first) →
      ∃ r last, a.result = .ok r ∧ a.raised.getLast? = some last ∧ r.status = 200 ∧
        Envelope.decode? r.body.data.toList = some { code := 500, msg := last.panic.message }) ∧
    (∀ p, a.result = .error p → ∃ x ∈ a.raised, x.place < first ∧ x.panic = p) ∧
    (a.raised = [] → account (linksOf (withoutRecover entries)) terminal req t = a) ∧
    (chainOf entries).order = (linksOf entries).map Link.interceptor ∧
    ((∀ e ∈ entries, e.2.IsPrompt) →
      ((chainOf entries).build terminal.joined req).perform t = (a.result, a.traffic) ∧
      (a.raised = [] →
        ((chainOf (withoutRecover entries)).build terminal.joined req).perform t =
          ((chainOf entries).build terminal.joined req).perform t)) := by
  intro first a
  have hends : a.Fits Told (Exposed 0 (linksOf entries)) :=
    (isContained_watched 0 (linksOf entries) terminal).joined req t
  have hpanics (p : Panic) (hp : a.result = .error p) :
      ∃ x ∈ a.raised, x.place < first ∧ x.panic = p := exists_raised_of_error hrecover hp
  have hwithout : a.raised = [] →
      account (linksOf (withoutRecover entries)) terminal req t = a := by
    intro hraised
    rw [linksOf_withoutRecover]
    exact sameUnlessRaised_watched 0 0 (linksOf entries) terminal req t hraised
  refine ⟨?_, hpanics, hwithout, order_chainOf entries, fun hprompt => ⟨?_, fun hraised => ?_⟩⟩
  · rintro ⟨x, hx, -⟩ hfront
    cases hresult : a.result with
    | error p =>
        obtain ⟨y, hy, hlt, -⟩ := hpanics p hresult
        exact absurd hlt (hfront y hy)
    | ok r =>
        rw [Account.Fits, hresult] at hends
        obtain ⟨last, hlast⟩ : ∃ last, a.raised.getLast? = some last :=
          ⟨_, List.getLast?_eq_some_getLast (List.ne_nil_of_mem hx)⟩
        obtain rfl := hends last hlast
        refine ⟨_, last, rfl, hlast, rfl, ?_⟩
        exact Envelope.decode?_failed 500 last.panic.message
  · exact perform_build_chainOf hprompt terminal req t
  · have hprompt' : ∀ e ∈ withoutRecover entries, e.2.IsPrompt := fun e he =>
      hprompt e (List.mem_of_mem_filter he)
    rw [perform_build_chainOf hprompt, perform_build_chainOf hprompt', hwithout hraised]

def openGate : Link := .other "open" (.choosing (fun _ => return) fun req _ => .handOn req)

/-- An interceptor that calls its next handler when it is called itself, and panics once it has seen
the response. -/
def trapdoor : Link :=
  .other "trapdoor" ⟨fun req => return .inl (.pass req fun _ => throw (.text "too late"))⟩

def trapped : List (Int32 × Link) := [(0, .recover), (7, .recover), (3, trapdoor), (-5, openGate)]

theorem linksOf_trapped : linksOf trapped = [openGate, .recover, trapdoor, .recover] := by
  simp [linksOf, trapped, inOrder_cons]

theorem isPrompt_trapped : ∀ e ∈ trapped, e.2.IsPrompt := by
  have hopen : openGate.IsPrompt := isPrompt_choosing _ fun _ _ _ _ _ => nofun
  have htrap : trapdoor.IsPrompt := by
    rintro req t m t' hm
    cases hm
    exact fun _ _ _ => nofun
  have hrecover : Link.recover.IsPrompt := trivial
  simp [trapped, hopen, htrap, hrecover]

/-- The call of the terminal panics, and so does the trapdoor when it gets the answer to that. The
caller is told of the second panic. -/
theorem panics_contained_twice :
    let terminal : Staged Flow := fun _ => throw .other
    let req := ping none
    let t : Traffic := { pool := { roundRobin := ⟨0⟩ } }
    let a := account (linksOf trapped) terminal req t
    (∃ e ∈ trapped, e.2.isRecover = true) ∧ (∀ e ∈ trapped, e.2.IsPrompt) ∧
      a.raised = [⟨4, .other⟩, ⟨2, .text "too late"⟩] ∧
      ∃ r, ((chainOf trapped).build terminal.joined req).perform t = (.ok r, t) ∧ r.status = 200 ∧
        Envelope.decode? r.body.data.toList = some { code := 500, msg := "too late" } := by
  intro terminal req t a
  have hrecover : ∃ e ∈ trapped, e.2.isRecover = true := ⟨(0, .recover), List.mem_cons_self, rfl⟩
  have hfirst : (linksOf trapped).findIdx Link.isRecover = 1 := by
    rw [linksOf_trapped]
    rfl
  have ha : a = account [openGate, .recover, trapdoor, .recover] terminal req t := by
    rw [← linksOf_trapped]
  have hraised : a.raised = [⟨4, .other⟩, ⟨2, .text "too late"⟩] := by
    rw [ha]
    rfl
  have htraffic : a.traffic = t := by
    rw [ha]
    rfl
  obtain ⟨htold, -, -, -, hrun⟩ := panics_contained hrecover terminal req t
  rw [hfirst] at htold
  obtain ⟨r, last, hr, hlast, hstatus, hbody⟩ :=
    htold ⟨⟨4, .other⟩, by rw [hraised]; decide, by decide⟩ (by rw [hraised]; decide)
  rw [hraised] at hlast
  obtain rfl := Option.some.inj hlast
  refine ⟨hrecover, isPrompt_trapped, hraised, r, ?_, hstatus, hbody⟩
  rw [(hrun isPrompt_trapped).1, hr, htraffic]

end ServiceMesh.Gateway
