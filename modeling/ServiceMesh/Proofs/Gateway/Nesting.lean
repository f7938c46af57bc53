import ServiceMesh.Proofs.Gateway.Marking
import ServiceMesh.Proofs.Gateway.Admission
import ServiceMesh.Proofs.Gateway.Ranking

/-!
The way of a request through a chain. The handler of the chain is its interceptors nested in their
order, the outermost first. As long as those further out hand the request on, each to its next
handler and once, the next one in the order is entered; one that answers for itself is the last.
-/

namespace ServiceMesh.Gateway

open Gateway.Flow

abbrev Handled := Except Panic Http.Response × Traffic

def nest (is : List Interceptor) (terminal : Handler) : Handler :=
  is.foldr (fun i next => i.wrap next) terminal

namespace Interceptor

/-- Whatever handler it stands around, the interceptor calls it once, with the second request and on
the second traffic, and goes on with what comes of it. What is noted further in stays noted. -/
structure HandsOn (i : Interceptor) (req : Http.Request) (t : Traffic) (req' : Http.Request)
    (t' : Traffic) (goOn : Handled → Handled) : Prop where
  perform_wrap : ∀ next : Handler, (i.wrap next req).perform t = goOn ((next req').perform t')
  notes_le : ∀ o, o.2.notes <+: (goOn o).2.notes

/-- The interceptor answers the request by itself, whatever handler it stands around. -/
def AnswersAlone (i : Interceptor) (req : Http.Request) (t : Traffic) (o : Handled) : Prop :=
  ∀ next : Handler, (i.wrap next req).perform t = o

def IsDeadEnd (i : Interceptor) : Prop := ∀ next next' : Handler, i.wrap next = i.wrap next'

def IsDecided (i : Interceptor) : Prop :=
  ∀ req t, (∃ req' t' goOn, i.HandsOn req t req' t' goOn) ∨ ∃ o, i.AnswersAlone req t o

end Interceptor

/-- Every interceptor hands the request on to the next one; the last of them hands the second
request on. -/
inductive Passage : List Interceptor → Http.Request → Traffic → Http.Request → Traffic →
    (Handled → Handled) → Prop where
  | nil (req : Http.Request) (t : Traffic) : Passage [] req t req t id
  | cons {i : Interceptor} {is : List Interceptor} {req req₁ req' : Http.Request}
      {t t₁ t' : Traffic} {goOn goOn' : Handled → Handled} (h : i.HandsOn req t req₁ t₁ goOn)
      (rest : Passage is req₁ t₁ req' t' goOn') : Passage (i :: is) req t req' t' (goOn ∘ goOn')

variable {req req' : Http.Request} {t t' : Traffic} {goOn : Handled → Handled} {o : Handled}

/-! ### Handlers inside each other -/

@[simp] theorem nest_nil (terminal : Handler) : nest [] terminal = terminal := rfl

@[simp] theorem nest_cons (i : Interceptor) (is : List Interceptor) (terminal : Handler) :
    nest (i :: is) terminal = i.wrap (nest is terminal) := rfl

theorem nest_append (outer inner : List Interceptor) (terminal : Handler) :
    nest (outer ++ inner) terminal = nest outer (nest inner terminal) :=
  List.foldr_append

namespace Chain

def order (c : Chain) : List Interceptor := c.sorted.reverse.map (·.2)

def addAll (c : Chain) (added : List (Int32 × Interceptor)) : Chain :=
  added.foldl (fun c e => c.add e.1 e.2) c

theorem executionOrder_eq (c : Chain) : c.executionOrder = c.order.map (·.name) := by
  rw [executionOrder, order, List.map_map]
  rfl

theorem build_eq (c : Chain) (terminal : Handler) : c.build terminal = nest c.order terminal := by
  rw [build, nest, order, List.foldr_map, List.foldr_reverse]

theorem entries_addAll (c : Chain) (added : List (Int32 × Interceptor)) :
    (c.addAll added).entries = c.entries ++ added := by
  induction added generalizing c with
  | nil => rw [List.append_nil]; rfl
  | cons e added ih =>
      change ((c.add e.1 e.2).addAll added).entries = _
      rw [ih, add, List.append_assoc]
      rfl

theorem order_addAll (added : List (Int32 × Interceptor)) :
    (({} : Chain).addAll added).order = (inOrder added).map (·.2) := by
  rw [order, reverse_sorted, entries_addAll, List.nil_append]

end Chain

/-! ### The way in -/

namespace Passage

variable {outer : List Interceptor}

/-- What stands behind the interceptors is entered once. -/
theorem perform_nest (h : Passage outer req t req' t' goOn) (next : Handler) :
    (nest outer next req).perform t = goOn ((next req').perform t') := by
  induction h with
  | nil => rfl
  | cons hi _ ih => rw [nest_cons, hi.perform_wrap, ih, Function.comp]

theorem notes_le (h : Passage outer req t req' t' goOn) (o : Handled) :
    o.2.notes <+: (goOn o).2.notes := by
  induction h with
  | nil => exact List.prefix_rfl
  | cons hi _ ih => exact ih.trans (hi.notes_le _)

end Passage

/-- A request gets through, or an interceptor that it gets to answers it. -/
theorem exists_passage_or_answer {is : List Interceptor} (h : ∀ i ∈ is, i.IsDecided)
    (req : Http.Request) (t : Traffic) :
    (∃ req' t' goOn, Passage is req t req' t' goOn) ∨
      ∃ outer i inner req' t' goOn o, is = outer ++ i :: inner ∧
        Passage outer req t req' t' goOn ∧ i.AnswersAlone req' t' o := by
  induction is generalizing req t with
  | nil => exact .inl ⟨req, t, id, .nil req t⟩
  | cons i is ih =>
      obtain ⟨req₁, t₁, goOn, hi⟩ | ⟨o, hi⟩ := h i List.mem_cons_self req t
      · obtain ⟨req', t', goOn', hpass⟩ | ⟨outer, j, inner, req', t', goOn', o, rfl, hpass, hj⟩ :=
          ih (fun j hj => h j (List.mem_cons_of_mem i hj)) req₁ t₁
        · exact .inl ⟨req', t', goOn ∘ goOn', .cons hi hpass⟩
        · exact .inr ⟨i :: outer, j, inner, req', t', goOn ∘ goOn', o, rfl, .cons hi hpass, hj⟩
      · exact .inr ⟨[], i, is, req, t, id, o, rfl, .nil req t, hi⟩

namespace Interceptor

variable {i : Interceptor}

/-- An interceptor that hands a request on does not answer it alone. -/
theorem HandsOn.not_answersAlone (h : i.HandsOn req t req' t' goOn) : ¬i.AnswersAlone req t o := by
  intro halone
  -- a handler that notes more down than there is in the answer
  let next : Handler := fun _ => do
    modify fun t => { t with notes := List.replicate (o.2.notes.length + 1) "" }
    return { status := 200 }
  have hnoted : ((next req').perform t').2.notes = List.replicate (o.2.notes.length + 1) "" := rfl
  have hkept := h.notes_le ((next req').perform t')
  rw [← h.perform_wrap, halone, hnoted] at hkept
  have hlength := hkept.length_le
  rw [List.length_replicate] at hlength
  exact Nat.not_succ_le_self _ hlength

theorem PassesOn.handsOn (h : i.PassesOn req req') (t : Traffic) : i.HandsOn req t req' t id where
  perform_wrap next := by rw [h next]; rfl
  notes_le _ := List.prefix_rfl

/-- An interceptor that hands everything on and notes its name on the way in. -/
def recorder (name : String) : Interceptor where
  name
  wrap next req := do
    note name
    next req

theorem handsOn_recorder (name : String) (req : Http.Request) (t : Traffic) :
    (recorder name).HandsOn req t req { t with notes := t.notes ++ [name] } id where
  perform_wrap _ := rfl
  notes_le _ := List.prefix_rfl

def answerTo : Except Panic Http.Response → Http.Response
  | .ok r => r
  | .error p => (Envelope.failedWith .common p.message).response

def recovered (o : Handled) : Handled := (.ok (answerTo o.1), o.2)

theorem handsOn_recover (req : Http.Request) (t : Traffic) :
    recover.HandsOn req t req t recovered where
  perform_wrap next := by
    rw [perform_recover]
    obtain ⟨r | p, u⟩ := (next req).perform t <;> rfl
  notes_le _ := List.prefix_rfl

theorem handsOn_log (fresh : Nat → String) (req : Http.Request) (t : Traffic) :
    (log fresh).HandsOn req t
      { req with headers := identified req.headers (identify fresh req.headers t).1 }
      (identify fresh req.headers t).2 id where
  perform_wrap next := perform_log next req t
  notes_le _ := List.prefix_rfl

theorem passesOn_auth {whiteList : List String} (h : mayPass whiteList req = true) :
    (auth whiteList).PassesOn req req := fun _ => if_pos h

theorem answersAlone_auth {whiteList : List String} (h : mayPass whiteList req = false)
    (t : Traffic) : (auth whiteList).AnswersAlone req t (.ok noToken.response, t) := by
  intro next
  rw [auth]
  dsimp only
  rw [h, if_neg Bool.false_ne_true]
  rfl

theorem isDecided_of_mem_defaultChain {fresh : Nat → String} {routes : List Route}
    {whiteList : List String} {e : Int32 × Interceptor}
    (h : e ∈ (defaultChain fresh routes whiteList).entries) : e.2.IsDecided := by
  intro req t
  have hmem : e ∈ [(-10, recover), (-9, log fresh), (1, routeMatch routes), (3, auth whiteList)] := h
  simp only [List.mem_cons, List.not_mem_nil, or_false] at hmem
  rcases hmem with rfl | rfl | rfl | rfl
  · exact .inl ⟨_, _, _, handsOn_recover req t⟩
  · exact .inl ⟨_, _, _, handsOn_log fresh req t⟩
  · cases hmark : (Routing.matchRoute routes req.target.path).bind fun r =>
        Routing.mark? r req.headers with
    | none =>
        refine .inr ⟨(.ok noRoute.response, t), fun next => ?_⟩
        simp only [routeMatch, hmark]
        rfl
    | some headers =>
        have hpass : (routeMatch routes).PassesOn req { req with headers } := fun next => by
          simp only [routeMatch, hmark]
        exact .inl ⟨_, _, _, hpass.handsOn t⟩
  · cases hpass : mayPass whiteList req with
    | true => exact .inl ⟨_, _, _, (passesOn_auth hpass).handsOn t⟩
    | false => exact .inr ⟨_, answersAlone_auth hpass t⟩

end Interceptor

open Interceptor

/-- The interceptors of a chain stand in the order of their priorities, the one added later in front
of the others of the same priority, and each as often as it was added. As long as those further out
hand a request on, what comes next in the order is entered, and the terminal after the last one. An
interceptor that answers for itself keeps what comes after it out: with anything else behind it,
the outcome is the same. -/
theorem Chain.entered_in_order (added : List (Int32 × Interceptor)) :
    let c := ({} : Chain).addAll added
    (∃ ranking : List ((Int32 × Interceptor) × Nat), ranking.Perm added.zipIdx ∧
      ranking.Pairwise Outside ∧ c.order = ranking.map (·.1.2) ∧
      c.executionOrder = ranking.map (·.1.2.name)) ∧
    ∀ outer inner, c.order = outer ++ inner →
      (∀ req t req' t' goOn, Passage outer req t req' t' goOn →
        (∀ terminal, (c.build terminal req).perform t =
            goOn ((nest inner terminal req').perform t') ∧
          ((nest inner terminal req').perform t').2.notes <+:
            ((c.build terminal req).perform t).2.notes) ∧
        ∀ i rest o, inner = i :: rest → i.AnswersAlone req' t' o → ∀ terminal others terminal',
          (c.build terminal req).perform t = goOn o ∧
            (nest (outer ++ i :: others) terminal' req).perform t = goOn o) ∧
      ∀ i rest, inner = i :: rest → i.IsDeadEnd → ∀ terminal others terminal',
        c.build terminal = nest (outer ++ i :: others) terminal' := by
  intro c
  have horder : c.order = (inOrder added).map (·.2) := order_addAll added
  refine ⟨?_, fun outer inner hsplit => ?_⟩
  · obtain ⟨ranking, hperm, hentries, hpair⟩ := exists_ranking added
    have hranking : c.order = ranking.map (·.1.2) := by
      rw [horder, ← hentries, List.map_map]
      rfl
    refine ⟨ranking, hperm, hpair, hranking, ?_⟩
    rw [executionOrder_eq, hranking, List.map_map]
    rfl
  · have hbuild (terminal : Handler) : c.build terminal = nest outer (nest inner terminal) := by
      rw [build_eq, hsplit, nest_append]
    refine ⟨fun req t req' t' goOn hpass => ⟨fun terminal => ?_, ?_⟩, ?_⟩
    · have hperform : (c.build terminal req).perform t =
          goOn ((nest inner terminal req').perform t') := by
        rw [hbuild, hpass.perform_nest]
      exact ⟨hperform, hperform ▸ hpass.notes_le _⟩
    · rintro i rest o rfl halone terminal others terminal'
      rw [hbuild, nest_append, hpass.perform_nest, hpass.perform_nest]
      exact ⟨congrArg goOn (halone _), congrArg goOn (halone _)⟩
    · rintro i rest rfl hend terminal others terminal'
      rw [hbuild, nest_append, nest_cons, nest_cons, hend]

theorem passage_recorders (names : List String) (req : Http.Request) (t : Traffic) :
    Passage (names.map recorder) req t req { t with notes := t.notes ++ names } id := by
  induction names generalizing t with
  | nil =>
      rw [List.append_nil]
      exact .nil req t
  | cons name names ih =>
      have hrest := ih { t with notes := t.notes ++ [name] }
      rw [List.append_assoc] at hrest
      exact .cons (handsOn_recorder name req t) hrest

/-- In a chain of recorders, the notes are in the order of the chain when the terminal is entered,
with one note for each of them. -/
theorem Chain.perform_build_recorders (added : List (Int32 × String)) (terminal : Handler)
    (req : Http.Request) (t : Traffic) :
    let c := ({} : Chain).addAll (added.map fun e => (e.1, recorder e.2))
    (c.build terminal req).perform t =
      (terminal req).perform { t with notes := t.notes ++ c.executionOrder } := by
  intro c
  have horder : c.order = ((inOrder added).map (·.2)).map recorder := by
    rw [order_addAll, inOrder_map, List.map_map, List.map_map]
    rfl
  have hnames : c.executionOrder = (inOrder added).map (·.2) := by
    rw [executionOrder_eq, horder, List.map_map]
    exact List.map_id _
  rw [build_eq, horder, hnames]
  exact (passage_recorders _ req t).perform_nest terminal

/-- Two recorders of the same priority between the outermost interceptor and the innermost one. -/
def recorded : List (Int32 × Interceptor) :=
  [(3, auth []), (1, recorder "first"), (-10, recover), (1, recorder "second")]

theorem order_recorded : (({} : Chain).addAll recorded).order =
    [recover, recorder "second", recorder "first", auth []] := by
  simp [Chain.order_addAll, recorded, inOrder_cons]

/-- With a token the request gets to the terminal, and both recorders have noted it by then; without
one it is refused by the innermost interceptor, and the terminal is left out. -/
theorem Chain.entered_in_order_recorded :
    let c := ({} : Chain).addAll recorded
    let t : Traffic := { pool := { roundRobin := ⟨0⟩ } }
    let t' : Traffic := { t with notes := ["second", "first"] }
    c.executionOrder = ["recover", "second", "first", "auth"] ∧
      mayPass [] (ping (some "token")) = true ∧ mayPass [] (ping none) = false ∧
      ∀ terminal, (c.build terminal (ping (some "token"))).perform t =
          recovered ((terminal (ping (some "token"))).perform t') ∧
        (c.build terminal (ping none)).perform t = (.ok noToken.response, t') := by
  intro c t t'
  have horder : c.order = [recover, recorder "second", recorder "first", auth []] :=
    order_recorded
  have hwith : mayPass [] (ping (some "token")) = true := by decide +kernel
  have hwithout : mayPass [] (ping none) = false := by decide +kernel
  have houter (req : Http.Request) :
      Passage [recover, recorder "second", recorder "first"] req t req t' recovered :=
    .cons (handsOn_recover req t) <| .cons (handsOn_recorder "second" req t) <|
      .cons (handsOn_recorder "first" req _) (.nil req t')
  have hall : Passage [recover, recorder "second", recorder "first", auth []]
      (ping (some "token")) t (ping (some "token")) t' recovered :=
    .cons (handsOn_recover _ t) <| .cons (handsOn_recorder "second" _ t) <|
      .cons (handsOn_recorder "first" _ _) <|
        .cons ((passesOn_auth hwith).handsOn t') (.nil _ t')
  obtain ⟨-, hsplit⟩ := entered_in_order recorded
  have hthrough := (hsplit _ [] (horder.trans (List.append_nil _).symm)).1 _ _ _ _ _ hall
  have hrefused := (hsplit _ [auth []] horder).1 _ _ _ _ _ (houter (ping none))
  refine ⟨?_, hwith, hwithout, fun terminal => ⟨(hthrough.1 terminal).1, ?_⟩⟩
  · rw [executionOrder_eq, horder]
    rfl
  · exact (hrefused.2 _ [] _ rfl (answersAlone_auth hwithout t') terminal [] terminal).1

end ServiceMesh.Gateway
