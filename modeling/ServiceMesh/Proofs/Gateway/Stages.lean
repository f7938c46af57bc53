import ServiceMesh.Proofs.Gateway.Nesting

/-!
Handling in two stages. A handler is called, and what it gives back is awaited; a panic can be raised
in either stage. Here handlers are run under watch: each panic goes on record with the place of
whoever raised it, also if it is caught further out. Run without the record, the interceptors of
this module are those of a chain, except that one may call its next handler and then panic before it
awaits anything, which only a handler in two stages can do.
-/

namespace ServiceMesh.Gateway

open Gateway.Flow

/-- A panic and the place of whoever raised it, counted from the outside in. -/
structure Raise where
  place : Nat
  panic : Panic
  deriving DecidableEq

/-- How something ends, the traffic after it, and the panics raised on the way, the latest last. -/
structure Account (α : Type) where
  result : Except Panic α
  traffic : Traffic
  raised : List Raise

def Watch (α : Type) : Type := Traffic → Account α

/-- A handler that is called first and awaited then. -/
abbrev Staged (m : Type → Type) := Http.Request → m (m Http.Response)

def Staged.joined {m : Type → Type} [Monad m] (h : Staged m) (req : Http.Request) :
    m Http.Response := do
  let future ← h req
  future

namespace Watch

variable {α β γ : Type}

instance : Monad Watch where
  pure a := fun t => ⟨.ok a, t, []⟩
  bind x f := fun t =>
    match x t with
    | ⟨.ok a, t', raised⟩ => { f a t' with raised := raised ++ (f a t').raised }
    | ⟨.error p, t', raised⟩ => ⟨.error p, t', raised⟩

/-- What someone does. If it panics, the panic is on their account. -/
def own (place : Nat) (x : Flow α) : Watch α := fun t =>
  match x.perform t with
  | (.ok a, t') => ⟨.ok a, t', []⟩
  | (.error p, t') => ⟨.error p, t', [⟨place, p⟩]⟩

def caught (x : Watch α) : Watch (Except Panic α) := fun t =>
  ⟨.ok (x t).result, (x t).traffic, (x t).raised⟩

def plain (x : Watch α) : Flow α := fun t => ((x t).result, (x t).traffic)

theorem ext {x y : Watch α} (h : ∀ t, x t = y t) : x = y := funext h

theorem pure_apply (a : α) (t : Traffic) : (pure a : Watch α) t = ⟨.ok a, t, []⟩ := rfl

theorem bind_ok {x : Watch α} {t t' : Traffic} {a : α} {raised : List Raise}
    (h : x t = ⟨.ok a, t', raised⟩) (f : α → Watch β) :
    (x >>= f) t = { f a t' with raised := raised ++ (f a t').raised } := by
  change (match x t with | ⟨.ok a, t', raised⟩ => _ | ⟨.error p, t', raised⟩ => _) = _
  rw [h]

theorem bind_error {x : Watch α} {t t' : Traffic} {p : Panic} {raised : List Raise}
    (h : x t = ⟨.error p, t', raised⟩) (f : α → Watch β) :
    (x >>= f) t = ⟨.error p, t', raised⟩ := by
  change (match x t with | ⟨.ok a, t', raised⟩ => _ | ⟨.error p, t', raised⟩ => _) = _
  rw [h]

protected theorem bind_pure (x : Watch α) : (x >>= pure) = x := by
  refine ext fun t => ?_
  cases h : x t with
  | mk r t' raised =>
      cases r with
      | ok a => rw [bind_ok h, pure_apply, List.append_nil]
      | error p => exact bind_error h _

protected theorem bind_assoc (x : Watch α) (f : α → Watch β) (g : β → Watch γ) :
    (x >>= f) >>= g = x >>= fun a => f a >>= g := by
  refine ext fun t => ?_
  cases h : x t with
  | mk r t' raised =>
      cases r with
      | error p => rw [bind_error (bind_error h f), bind_error h]
      | ok a =>
          rw [bind_ok h]
          cases h' : f a t' with
          | mk r' t'' raised' =>
              have hx := bind_ok h f
              rw [h'] at hx
              cases r' with
              | ok b => rw [bind_ok hx, bind_ok h', List.append_assoc]
              | error p => rw [bind_error hx, bind_error h']

instance : LawfulMonad Watch :=
  LawfulMonad.mk' Watch Watch.bind_pure (fun _ _ => rfl) Watch.bind_assoc

/-! ### What nobody watches -/

theorem perform_plain (x : Watch α) (t : Traffic) :
    x.plain.perform t = ((x t).result, (x t).traffic) := rfl

theorem plain_bind (x : Watch α) (f : α → Watch β) :
    (x >>= f).plain = x.plain >>= fun a => (f a).plain := by
  refine Flow.ext fun t => ?_
  rw [perform_plain, perform_bind, perform_plain]
  cases h : x t with
  | mk r t' raised =>
      cases r with
      | ok a => rw [bind_ok h]; rfl
      | error p => rw [bind_error h]

theorem plain_own (place : Nat) (x : Flow α) : (own place x).plain = x := by
  refine Flow.ext fun t => ?_
  rw [perform_plain, own]
  cases h : x.perform t with
  | mk r t' => cases r <;> rfl

theorem own_bind (place : Nat) (x : Flow α) (f : α → Flow β) :
    own place (x >>= f) = own place x >>= fun a => own place (f a) := by
  refine ext fun t => ?_
  cases h : x.perform t with
  | mk r t' =>
      cases r with
      | ok a =>
          have hx : own place x t = ⟨.ok a, t', []⟩ := by rw [own, h]
          rw [bind_ok hx, own, own, perform_bind, h]
          rfl
      | error p =>
          have hx : own place x t = ⟨.error p, t', [⟨place, p⟩]⟩ := by rw [own, h]
          rw [bind_error hx, own, perform_bind, h]

end Watch

open Watch

def Staged.caughtInTurn (h : Staged Watch) (req : Http.Request) :
    Watch (Except Panic Http.Response) := do
  match ← caught (h req) with
  | .ok future => caught future
  | .error p => return .error p

/-! ### Interceptors in two stages -/

inductive Move where
  /-- It leaves it alone and answers for itself. -/
  | answer (r : Http.Response)
  /-- It calls it and returns its response, but may do something before that. -/
  | pass (req : Http.Request) (after : Http.Response → Flow Unit)
  /-- It calls it and panics without waiting for it: at once, or not before it is awaited itself. -/
  | abandon (req : Http.Request) (awaited : Bool) (p : Panic)

/-- How an interceptor conducts itself when it is called. It makes its move then and there, or later
on when it is awaited. Either time it may do something first, and panic. -/
structure Conduct where
  called : Http.Request → Flow (Move ⊕ Flow Move)

namespace Conduct

def move (c : Conduct) (req : Http.Request) : Flow Move := do
  match ← c.called req with
  | .inl m => return m
  | .inr later => later

/-- The interceptor never panics between calling its next handler and awaiting it. -/
def IsPrompt (c : Conduct) : Prop :=
  ∀ req t m t', (c.move req).perform t = (.ok m, t') → ∀ q awaited p, m ≠ .abandon q awaited p

end Conduct

def Move.make (place : Nat) (next : Staged Watch) : Move → Watch (Watch Http.Response)
  | answer r => return (return r)
  | pass req after => do
    let future ← next req
    return do
      let r ← future
      own place (after r)
      return r
  | abandon req awaited p => do
    let _ ← next req
    if awaited then return own place (throw p) else own place (throw p)

def Move.made (place : Nat) (next : Staged Watch) (m : Move) : Watch Http.Response := do
  let future ← m.make place next
  future

def Move.run (next : Handler) : Move → Flow Http.Response
  | answer r => return r
  | pass req after => do
    let r ← next req
    after r
    return r
  | abandon _ _ p => throw p

/-- The interceptors of a chain: those that recover, and the others with their conduct. -/
inductive Link where
  | recover
  | other (name : String) (conduct : Conduct)

namespace Link

def isRecover : Link → Bool
  | recover => true
  | other _ _ => false

def IsPrompt : Link → Prop
  | recover => True
  | other _ c => c.IsPrompt

/-- Puts the link around a handler. An interceptor that recovers does nothing until it is awaited;
then it calls its next handler, awaits what the call gave back, and catches a panic in either
stage. -/
def wrap (place : Nat) : Link → Staged Watch → Staged Watch
  | recover, next => fun req => return do
    let outcome ← next.caughtInTurn req
    return Interceptor.answerTo outcome
  | other _ c, next => fun req => do
    match ← own place (c.called req) with
    | .inl m => m.make place next
    | .inr later => return do
      let m ← own place later
      m.made place next

def interceptor : Link → Interceptor
  | recover => .recover
  | other name c =>
    { name
      wrap next req := do
        let m ← c.move req
        m.run next }

end Link

/-- The handler of a chain of links under watch, the outermost first, with the place of the first. -/
def watched (place : Nat) : List Link → Staged Flow → Staged Watch
  | [], terminal => fun req => do
    let future ← own place (terminal req)
    return own place future
  | l :: links, terminal => l.wrap place (watched (place + 1) links terminal)

def account (links : List Link) (terminal : Staged Flow) (req : Http.Request) :
    Watch Http.Response :=
  (watched 0 links terminal).joined req

/-! ### Both stages together -/

section

variable (place : Nat) (next : Staged Watch)

theorem made_pass (q : Http.Request) (after : Http.Response → Flow Unit) :
    (Move.pass q after).made place next = (do
      let r ← next.joined q
      own place (after r)
      return r) := by
  rw [Move.made, Move.make, Staged.joined]
  simp only [bind_assoc, pure_bind]

theorem made_abandon (q : Http.Request) (awaited : Bool) (p : Panic) :
    (Move.abandon q awaited p).made place next = (do
      let _ ← next q
      own place (throw p)) := by
  have hthrow : (own place (throw p) >>= fun future => future : Watch Http.Response) =
      own place (throw p) := rfl
  rw [Move.made, Move.make]
  simp only [bind_assoc]
  cases awaited with
  | true => rfl
  | false => simp only [Bool.false_eq_true, if_false, hthrow]

theorem joined_wrap_other (name : String) (c : Conduct) (req : Http.Request) :
    ((Link.other name c).wrap place next).joined req = (do
      let m ← own place (c.move req)
      m.made place next) := by
  rw [Conduct.move, own_bind, Staged.joined, Link.wrap]
  simp only [bind_assoc]
  congr 1
  funext m
  cases m with
  | inl m => rfl
  | inr later => rfl

/-- To catch either stage is to catch both of them together. -/
theorem caughtInTurn_eq (req : Http.Request) : next.caughtInTurn req = caught (next.joined req) := by
  refine Watch.ext fun t => ?_
  cases h : next req t with
  | mk r t' raised =>
      have hcaught : caught (next req) t = ⟨.ok r, t', raised⟩ := by rw [caught, h]
      rw [Staged.caughtInTurn, bind_ok hcaught, caught, Staged.joined]
      cases r with
      | ok future => rw [bind_ok h]; rfl
      | error p =>
          rw [bind_error h]
          exact congrArg (Account.mk (.ok (Except.error p)) t') (List.append_nil raised)

theorem joined_wrap_recover (req : Http.Request) :
    (Link.recover.wrap place next).joined req =
      Interceptor.answerTo <$> caught (next.joined req) := by
  rw [← caughtInTurn_eq]
  rfl

end

/-! ### The chain that runs -/

theorem plain_recovered (x : Watch Http.Response) (t : Traffic) :
    (Interceptor.answerTo <$> caught x).plain.perform t = Interceptor.recovered (x.plain.perform t) :=
  rfl

theorem plain_made {next : Staged Watch} {h : Handler} (place : Nat)
    (hnext : ∀ req, (next.joined req).plain = h req) {m : Move}
    (hm : ∀ q awaited p, m ≠ .abandon q awaited p) :
    (m.made place next).plain = m.run h := by
  cases m with
  | answer r => rfl
  | pass q after =>
      rw [made_pass, plain_bind, hnext]
      congr 1
      funext r
      rw [plain_bind, plain_own]
      rfl
  | abandon q awaited p => exact absurd rfl (hm q awaited p)

/-- What a chain of interceptors does that nobody watches, unless one of them panics between calling
its next handler and awaiting it. -/
theorem plain_joined_watched {links : List Link} (hlinks : ∀ l ∈ links, l.IsPrompt) (place : Nat)
    (terminal : Staged Flow) (req : Http.Request) :
    ((watched place links terminal).joined req).plain =
      nest (links.map Link.interceptor) terminal.joined req := by
  induction links generalizing place req with
  | nil =>
      rw [watched, Staged.joined, List.map_nil, nest_nil, Staged.joined]
      simp only [bind_assoc, pure_bind]
      rw [plain_bind, plain_own]
      congr 1
      funext future
      exact plain_own place future
  | cons l links ih =>
      have hnext := ih (fun l hl => hlinks l (List.mem_cons_of_mem _ hl)) (place + 1)
      rw [watched, List.map_cons, nest_cons]
      cases l with
      | recover =>
          refine Flow.ext fun t => ?_
          rw [joined_wrap_recover, plain_recovered, hnext]
          exact ((Interceptor.handsOn_recover req t).perform_wrap _).symm
      | other name c =>
          have hprompt : c.IsPrompt := hlinks _ List.mem_cons_self
          rw [joined_wrap_other, plain_bind, plain_own]
          -- only the moves that the interceptor does make are known to be none of those
          refine Flow.ext fun t => ?_
          rw [perform_bind, Link.interceptor, perform_bind]
          cases hmove : (c.move req).perform t with
          | mk r t' =>
              cases r with
              | ok m =>
                  dsimp only
                  rw [plain_made place hnext (hprompt req t m t' hmove)]
              | error p => rfl

def chainOf (entries : List (Int32 × Link)) : Chain :=
  ({} : Chain).addAll (entries.map fun e => (e.1, e.2.interceptor))

def linksOf (entries : List (Int32 × Link)) : List Link := (inOrder entries).map (·.2)

def withoutRecover (entries : List (Int32 × Link)) : List (Int32 × Link) :=
  entries.filter fun e => !e.2.isRecover

theorem order_chainOf (entries : List (Int32 × Link)) :
    (chainOf entries).order = (linksOf entries).map Link.interceptor := by
  rw [chainOf, Chain.order_addAll, inOrder_map, linksOf, List.map_map, List.map_map]
  rfl

theorem linksOf_withoutRecover (entries : List (Int32 × Link)) :
    linksOf (withoutRecover entries) = (linksOf entries).filter (!·.isRecover) := by
  rw [linksOf, withoutRecover, inOrder_filter, linksOf, List.filter_map]
  rfl

theorem perform_build_chainOf {entries : List (Int32 × Link)}
    (h : ∀ e ∈ entries, e.2.IsPrompt) (terminal : Staged Flow) (req : Http.Request)
    (t : Traffic) :
    ((chainOf entries).build terminal.joined req).perform t =
      ((account (linksOf entries) terminal req t).result,
        (account (linksOf entries) terminal req t).traffic) := by
  have hlinks : ∀ l ∈ linksOf entries, l.IsPrompt := by
    intro l hl
    obtain ⟨e, he, rfl⟩ := List.mem_map.1 hl
    exact h e ((inOrder_perm entries).mem_iff.1 he)
  rw [Chain.build_eq, order_chainOf, ← plain_joined_watched hlinks 0]
  rfl

/-! ### The usual interceptors -/

namespace Move

def handOn (req : Http.Request) : Move := pass req fun _ => return

theorem run_handOn (next : Handler) (req : Http.Request) : (handOn req).run next = next req := by
  rw [handOn, run]
  simp only [pure_bind, bind_pure]

end Move

/-- The call does nothing; what there is to do is done, and the move chosen, when it is awaited. -/
def Conduct.choosing {α : Type} (work : Http.Request → Flow α)
    (choice : Http.Request → α → Move) : Conduct where
  called req := return .inr do
    let a ← work req
    return choice req a

section

variable {α : Type} (work : Http.Request → Flow α) {choice : Http.Request → α → Move}

theorem isPrompt_choosing (h : ∀ req a q awaited p, choice req a ≠ .abandon q awaited p) :
    (Conduct.choosing work choice).IsPrompt := by
  intro req t m t' hm q awaited p
  change (work req >>= fun a => pure (choice req a)).perform t = _ at hm
  rw [perform_bind] at hm
  split at hm
  · obtain ⟨hm, -⟩ := Prod.mk.inj hm
    exact Except.ok.inj hm ▸ h req _ q awaited p
  · cases hm

theorem interceptor_choosing (name : String) (choice : Http.Request → α → Move) :
    (Link.other name (.choosing work choice)).interceptor =
      { name
        wrap := fun next req => do
          let a ← work req
          (choice req a).run next } := by
  rw [Link.interceptor]
  congr 1
  funext next req
  change (work req >>= fun a => pure (choice req a)) >>= _ = _
  simp only [bind_assoc, pure_bind]

end

namespace Link

variable (fresh : Nat → String) (routes : List Route) (whiteList : List String)

def log : Link :=
  .other "log" <| .choosing (fun req => Interceptor.requestId fresh req.headers) fun req id =>
    .handOn { req with headers := Interceptor.identified req.headers id }

def routeMatch : Link :=
  .other "route-match" <| .choosing (fun _ => return) fun req _ =>
    match (Routing.matchRoute routes req.target.path).bind fun r =>
      Routing.mark? r req.headers with
    | some headers => .handOn { req with headers }
    | none => .answer Interceptor.noRoute.response

def auth : Link :=
  .other "auth" <| .choosing (fun _ => return) fun req _ =>
    if Interceptor.mayPass whiteList req then .handOn req
    else .answer Interceptor.noToken.response

theorem interceptor_log : (log fresh).interceptor = .log fresh := by
  rw [log, interceptor_choosing, Interceptor.log]
  congr 1
  funext next req
  congr 1
  funext id
  rw [Move.run_handOn, Interceptor.identified]
  by_cases hlegal : Http.Header.isLegalValue (Utf8.bytes id) = true
  · simp only [if_pos hlegal]
  · simp only [if_neg hlegal]

theorem interceptor_routeMatch : (routeMatch routes).interceptor = .routeMatch routes := by
  rw [routeMatch, interceptor_choosing, Interceptor.routeMatch]
  congr 1
  funext next req
  rw [pure_bind]
  cases (Routing.matchRoute routes req.target.path).bind fun r => Routing.mark? r req.headers with
  | none => rfl
  | some headers => exact Move.run_handOn next _

theorem interceptor_auth : (auth whiteList).interceptor = .auth whiteList := by
  rw [auth, interceptor_choosing, Interceptor.auth]
  congr 1
  funext next req
  rw [pure_bind]
  split
  · exact Move.run_handOn next req
  · rfl

theorem isPrompt_log : (log fresh).IsPrompt := isPrompt_choosing _ fun _ _ _ _ _ => nofun

theorem isPrompt_routeMatch : (routeMatch routes).IsPrompt :=
  isPrompt_choosing _ fun req _ _ _ _ => by
    split
    · nofun
    · nofun

theorem isPrompt_auth : (auth whiteList).IsPrompt :=
  isPrompt_choosing _ fun req _ _ _ _ => by
    split
    · nofun
    · nofun

end Link

def defaultLinks (fresh : Nat → String) (routes : List Route) (whiteList : List String) :
    List (Int32 × Link) :=
  [(-10, .recover), (-9, .log fresh), (1, .routeMatch routes), (3, .auth whiteList)]

variable (fresh : Nat → String) (routes : List Route) (whiteList : List String)

theorem chainOf_defaultLinks :
    chainOf (defaultLinks fresh routes whiteList) = defaultChain fresh routes whiteList := by
  rw [chainOf, defaultLinks, List.map_cons, List.map_cons, List.map_cons, List.map_cons,
    Link.interceptor_log, Link.interceptor_routeMatch, Link.interceptor_auth]
  rfl

theorem isPrompt_defaultLinks : ∀ e ∈ defaultLinks fresh routes whiteList, e.2.IsPrompt := by
  have hrecover : Link.recover.IsPrompt := trivial
  simp [defaultLinks, hrecover, Link.isPrompt_log, Link.isPrompt_routeMatch, Link.isPrompt_auth]

end ServiceMesh.Gateway
