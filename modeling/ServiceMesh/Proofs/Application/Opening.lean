import ServiceMesh.Proofs.Application.Course

/-!
The order of a life. All that an application has to do before it serves stands in its opening: every
server is started, then every server is probed, then the node is registered. The opening is done in
this order up to the first action that fails, or to its end; then the application is told to end and
the node is withdrawn. In either case the servers that were started are stopped after that, the
last one first, whatever comes of it. Only a withdrawal that does not come back keeps the
application from that.
-/

namespace ServiceMesh

namespace Lifecycle

/-- An action that was done, and what came of it if it came back. -/
abbrev Deed := Action × Option (Except Failure Unit)

namespace Action

def started? : Action → Option Nat
  | start i => some i
  | _ => none

def stopped? : Action → Option Nat
  | stop i => some i
  | _ => none

def IsOpening : Action → Prop
  | start _ => True
  | probe _ => True
  | register => True
  | _ => False

theorem IsOpening.stopped?_eq_none {action : Action} (h : action.IsOpening) :
    action.stopped? = none := by
  cases action with
  | stop i => exact h.elim
  | _ => rfl

def cause : Action → Failure → Option Cause
  | start i, f => some (.start i f)
  | probe i, f => some (.probe i f.reason)
  | register, f => some (.register f)
  | _, _ => none

theorem IsOpening.cause_ne_none {action : Action} (h : action.IsOpening) (f : Failure) :
    action.cause f ≠ none := by
  cases action with
  | start i => exact Option.some_ne_none _
  | probe i => exact Option.some_ne_none _
  | register => exact Option.some_ne_none _
  | _ => exact h.elim

end Action

def stops (n : Nat) : List Action := ((List.range n).map .stop).reverse

theorem stops_succ (n : Nat) : stops (n + 1) = .stop n :: stops n := by
  simp [stops, List.range_succ]

namespace Plan

variable (p : Plan)

def registers : List Action := if p.isEnabled then [.register] else []

/-- What is left to be done before the application serves when this many servers, from a place on,
have not been probed. -/
def probes (next left : Nat) : List Action :=
  (if p.checksReadiness then (List.range' next left).map .probe else []) ++ p.registers

/-- What is left to be done when this many servers, from a place on, have not been started. -/
def starts (next left : Nat) : List Action :=
  (List.range' next left).map .start ++ p.probes 0 p.servers

def opening : List Action := p.starts 0 p.servers

end Plan

/-- The actions from a stage on, whatever comes of them, and the stage that they lead to. -/
inductive Course (p : Plan) : Stage → List Deed → Stage → Prop where
  | ended (cause : Option Cause) : Course p (.ended cause) [] (.ended cause)
  | stays : Course p .withdrawing [(.deregister, none)] .withdrawing
  | step {stage last : Stage} {action : Action} {result : Except Failure Unit} {deeds : List Deed}
      (haction : stage.action? = some action) (h : Course p (stage.next p result) deeds last) :
      Course p stage ((action, some result) :: deeds) last

def wellDone (actions : List Action) : List Deed :=
  actions.map fun action => (action, some (.ok ()))

/-- How a life goes on when some actions are left of its opening and some servers have been
started. -/
inductive Ends (p : Plan) (todo : List Action) (started : Nat) : List Deed → Stage → Prop where
  /-- Everything succeeds, and the application serves until it is told to end. -/
  | told (result result' : Except Failure Unit) {after : List Deed}
      (hafter : after.map Prod.fst = stops p.servers) :
      Ends p todo started
        (wellDone todo ++ (.awaitShutdown, some result) :: (.deregister, some result') :: after)
        (.ended none)
  /-- Everything succeeds until the application is told to end, but the withdrawal does not come
  back. -/
  | heldUp (result : Except Failure Unit) :
      Ends p todo started (wellDone todo ++ [(.awaitShutdown, some result), (.deregister, none)])
        .withdrawing
  /-- Something fails. -/
  | early {before rest : List Action} {action : Action} (f : Failure) {after : List Deed}
      (htodo : todo = before ++ action :: rest)
      (hafter : after.map Prod.fst = stops (started + (before.filterMap Action.started?).length)) :
      Ends p todo started (wellDone before ++ (action, some (.error f)) :: after)
        (.ended (action.cause f))

variable {p : Plan} {deeds : List Deed} {cause : Option Cause} {last : Stage}

theorem Ends.cons {action : Action} {todo : List Action} {n : Nat}
    (h : Ends p todo (n + (action.started?.toList).length) deeds last) :
    Ends p (action :: todo) n ((action, some (.ok ())) :: deeds) last := by
  cases h with
  | told result result' hafter => exact .told result result' hafter
  | heldUp result => exact .heldUp result
  | @early before rest action' f after htodo hafter =>
      have htodo' : action :: todo = (action :: before) ++ action' :: rest :=
        congrArg (action :: ·) htodo
      refine .early f htodo' ?_
      rw [hafter, List.filterMap_cons]
      cases hstart : action.started? with
      | none => rfl
      | some i =>
          rw [Option.toList_some, List.length_singleton, List.length_cons]
          congr 1
          omega

theorem Course.stopping {n : Nat} (h : Course p (.stopFrom n cause) deeds last) :
    last = .ended cause ∧ deeds.map Prod.fst = stops n := by
  induction n generalizing deeds with
  | zero =>
      cases h with
      | ended cause => exact ⟨rfl, rfl⟩
      | step haction h => cases haction
  | succ n ih =>
      cases h with
      | step haction h =>
          obtain rfl := Option.some.inj haction
          obtain ⟨hlast, hdeeds⟩ := ih h
          exact ⟨hlast, by rw [List.map_cons, hdeeds, stops_succ]; rfl⟩

/-- The next thing to be done succeeds, or it fails and what was started is stopped. -/
theorem Ends.act {action : Action} {todo : List Action} {n : Nat} {result : Except Failure Unit}
    (hok : result = .ok () → Ends p todo (n + (action.started?.toList).length) deeds last)
    (herror : ∀ f, result = .error f → Course p (.stopFrom n (action.cause f)) deeds last) :
    Ends p (action :: todo) n ((action, some result) :: deeds) last := by
  cases result with
  | ok u => exact .cons (hok rfl)
  | error f =>
      obtain ⟨rfl, hafter⟩ := (herror f rfl).stopping
      have htodo : action :: todo = [] ++ action :: todo := rfl
      exact .early f htodo hafter

theorem Course.serving (h : Course p .serving deeds last) (n : Nat) : Ends p [] n deeds last := by
  cases h with
  | step haction h =>
      obtain rfl := Option.some.inj haction
      cases h with
      | stays => exact .heldUp _
      | step haction h =>
          obtain rfl := Option.some.inj haction
          obtain ⟨rfl, hafter⟩ := h.stopping
          exact .told _ _ hafter

theorem Course.afterProbes (h : Course p (.afterProbes p) deeds last) :
    Ends p p.registers p.servers deeds last := by
  rw [Plan.registers]
  rw [Stage.afterProbes] at h
  split at h
  · next hon =>
      rw [if_pos hon]
      cases h with
      | step haction h =>
          obtain rfl := Option.some.inj haction
          refine .act (fun hr => ?_) fun f hf => ?_
          · subst hr
            exact h.serving _
          · subst hf
            exact h
  · next hoff =>
      rw [if_neg hoff]
      exact h.serving _

theorem Course.probeFrom {next left : Nat} (hleft : next + left = p.servers)
    (h : Course p (.probeFrom p next) deeds last) :
    Ends p (p.probes next left) p.servers deeds last := by
  rw [Plan.probes]
  induction left generalizing next deeds with
  | zero =>
      rw [Stage.probeFrom, if_neg (by omega)] at h
      simpa using h.afterProbes
  | succ left ih =>
      rw [Stage.probeFrom] at h
      split at h
      · next hprobes =>
          simp only [if_pos hprobes.1] at ih ⊢
          cases h with
          | step haction h =>
              obtain rfl := Option.some.inj haction
              refine .act (fun hr => ?_) fun f hf => ?_
              · subst hr
                exact ih (by omega) h
              · subst hf
                exact h
      · next hprobes =>
          rw [if_neg fun hchecks => hprobes ⟨hchecks, by omega⟩]
          exact h.afterProbes

theorem Course.startFrom {next left : Nat} (hleft : next + left = p.servers)
    (h : Course p (.startFrom p next) deeds last) :
    Ends p (p.starts next left) next deeds last := by
  rw [Plan.starts]
  induction left generalizing next deeds with
  | zero =>
      rw [Stage.startFrom, if_neg (by omega)] at h
      obtain rfl : next = p.servers := by omega
      exact h.probeFrom (Nat.zero_add _)
  | succ left ih =>
      rw [Stage.startFrom, if_pos (by omega)] at h
      cases h with
      | step haction h =>
          obtain rfl := Option.some.inj haction
          refine .act (fun hr => ?_) fun f hf => ?_
          · subst hr
            exact ih (by omega) h
          · subst hf
            exact h

/-- The opening is done up to its end or to the first action that fails. -/
theorem Course.ends (h : Course p (.first p) deeds last) : Ends p p.opening 0 deeds last :=
  h.startFrom (Nat.zero_add _)

/-! ### The opening -/

variable {before rest : List Action} {action : Action}

theorem cases_of_mem_probes {next left : Nat} (h : action ∈ p.probes next left) :
    (∃ i, action = .probe i) ∨ action = .register ∧ p.isEnabled = true := by
  rw [Plan.probes, Plan.registers, List.mem_append] at h
  rcases h with h | h
  · split at h
    · obtain ⟨i, -, rfl⟩ := List.mem_map.1 h
      exact .inl ⟨i, rfl⟩
    · cases h
  · split at h
    · next hon => exact .inr ⟨List.mem_singleton.1 h, hon⟩
    · cases h

theorem cases_of_mem_opening (h : action ∈ p.opening) :
    (∃ i, action = .start i) ∨ (∃ i, action = .probe i) ∨
      action = .register ∧ p.isEnabled = true := by
  rw [Plan.opening, Plan.starts, List.mem_append] at h
  rcases h with h | h
  · obtain ⟨i, -, rfl⟩ := List.mem_map.1 h
    exact .inl ⟨i, rfl⟩
  · exact .inr (cases_of_mem_probes h)

theorem isOpening_of_mem (h : action ∈ p.opening) : action.IsOpening := by
  rcases cases_of_mem_opening h with ⟨i, rfl⟩ | ⟨i, rfl⟩ | ⟨rfl, -⟩ <;> trivial

theorem isEnabled_of_mem (h : .register ∈ p.opening) : p.isEnabled = true := by
  rcases cases_of_mem_opening h with ⟨i, hi⟩ | ⟨i, hi⟩ | ⟨-, hon⟩
  · cases hi
  · cases hi
  · exact hon

theorem filterMap_probes (p : Plan) (next left : Nat) :
    (p.probes next left).filterMap Action.started? = [] := by
  refine List.filterMap_eq_nil_iff.2 fun action h => ?_
  rcases cases_of_mem_probes h with ⟨i, rfl⟩ | ⟨rfl, -⟩ <;> rfl

/-- Every server is started in the opening, in their order. -/
theorem filterMap_opening (p : Plan) :
    p.opening.filterMap Action.started? = List.range p.servers := by
  rw [Plan.opening, Plan.starts, List.filterMap_append, filterMap_probes, List.append_nil,
    List.filterMap_map, List.range_eq_range']
  exact List.filterMap_some

theorem mem_opening_of_eq (h : p.opening = before ++ action :: rest) :
    (∀ x ∈ before, x ∈ p.opening) ∧ action ∈ p.opening := by
  rw [h]
  exact ⟨fun _ hx => List.mem_append_left _ hx, List.mem_append_right _ List.mem_cons_self⟩

/-- Nothing is started behind what is not a start. -/
theorem filterMap_behind (h : p.opening = before ++ action :: rest)
    (hstart : action.started? = none) : (action :: rest).filterMap Action.started? = [] := by
  have hprobes := filterMap_probes p 0 p.servers
  rw [Plan.opening, Plan.starts] at h
  rcases List.append_eq_append_iff.1 h with ⟨as, -, hbehind⟩ | ⟨bs, hstarts, hbehind⟩
  · rw [hbehind, List.filterMap_append] at hprobes
    exact (List.append_eq_nil_iff.1 hprobes).2
  · cases bs with
    | nil => exact hbehind ▸ hprobes
    | cons b bs =>
        obtain rfl := (List.cons.inj hbehind).1
        have hmem : action ∈ (List.range' 0 p.servers).map Action.start := by
          rw [hstarts]
          exact List.mem_append_right _ List.mem_cons_self
        obtain ⟨i, -, rfl⟩ := List.mem_map.1 hmem
        cases hstart

/-- The servers that have been started before some action of the opening. -/
theorem filterMap_before (h : p.opening = before ++ action :: rest) {n : Nat}
    (hn : (before.filterMap Action.started?).length = n) :
    before.filterMap Action.started? = List.range n ∧
      (action.started? = none ∧ n = p.servers ∨ action = .start n ∧ n < p.servers) := by
  have hall : before.filterMap Action.started? ++ (action :: rest).filterMap Action.started? =
      List.range p.servers := by
    rw [← List.filterMap_append, ← h, filterMap_opening]
  have hle : n ≤ p.servers := by
    rw [← hn, ← List.length_range (n := p.servers), ← hall, List.length_append]
    exact Nat.le_add_right _ _
  have hbefore : before.filterMap Action.started? = List.range n := by
    rw [List.prefix_iff_eq_take.1 ⟨_, hall⟩, hn, List.take_range, Nat.min_eq_left hle]
  refine ⟨hbefore, ?_⟩
  cases hstart : action.started? with
  | none =>
      rw [hbefore, filterMap_behind h hstart, List.append_nil] at hall
      exact .inl ⟨rfl, by simpa using congrArg List.length hall⟩
  | some i =>
      obtain rfl : action = .start i := by
        cases action with
        | start j => exact congrArg Action.start (Option.some.inj hstart)
        | _ => cases hstart
      have hget : (List.range p.servers)[n]? = some i := by
        rw [← hall, List.getElem?_append_right (Nat.le_of_eq hn), hn, Nat.sub_self]
        rfl
      obtain ⟨hlt, hi⟩ := List.getElem?_eq_some_iff.1 hget
      rw [List.length_range] at hlt
      rw [List.getElem_range] at hi
      exact .inr ⟨by rw [hi], hlt⟩

/-! ### The parts of a life -/

theorem filterMap_wellDone {α : Type} (f : Action → Option α) (actions : List Action) :
    (wellDone actions).filterMap (fun d => f d.1) = actions.filterMap f := by
  rw [wellDone, List.filterMap_map]
  rfl

theorem mem_wellDone {actions : List Action} {d : Deed} :
    d ∈ wellDone actions ↔ d.1 ∈ actions ∧ d.2 = some (.ok ()) := by
  obtain ⟨action, result⟩ := d
  simp [wellDone, eq_comm]

variable {after : List Deed} {n : Nat}

theorem exists_of_mem_stops (h : after.map Prod.fst = stops n) {d : Deed} (hd : d ∈ after) :
    ∃ i, d.1 = .stop i := by
  have hmem := List.mem_map_of_mem (f := Prod.fst) hd
  rw [h, stops, List.mem_reverse] at hmem
  obtain ⟨i, -, hi⟩ := List.mem_map.1 hmem
  exact ⟨i, hi.symm⟩

theorem stopped?_stops (h : after.map Prod.fst = stops n) :
    after.filterMap (fun d => d.1.stopped?) = (List.range n).reverse := by
  change after.filterMap (Action.stopped? ∘ Prod.fst) = _
  rw [← List.filterMap_map, h, stops, List.filterMap_reverse, List.filterMap_map]
  exact congrArg List.reverse List.filterMap_some

theorem started?_stops (h : after.map Prod.fst = stops n) :
    after.filterMap (fun d => d.1.started?) = [] := by
  refine List.filterMap_eq_nil_iff.2 fun d hd => ?_
  obtain ⟨i, hi⟩ := exists_of_mem_stops h hd
  rw [hi]
  rfl

theorem stopped?_opening {actions : List Action} (h : ∀ action ∈ actions, action ∈ p.opening) :
    actions.filterMap Action.stopped? = [] :=
  List.filterMap_eq_nil_iff.2 fun action ha => (isOpening_of_mem (h action ha)).stopped?_eq_none

/-- The servers before some place were started. If there is one at the place, it did not start.
The others were not touched, and unless the withdrawal did not come back exactly the servers before
the place were stopped. -/
theorem Ends.servers (h : Ends p p.opening 0 deeds last) :
    ∃ n ≤ p.servers,
      (deeds.filterMap fun d => d.1.started?) = List.range (min (n + 1) p.servers) ∧
      (last ≠ .withdrawing → (deeds.filterMap fun d => d.1.stopped?) = (List.range n).reverse) ∧
      (∀ i < n, (.start i, some (.ok ())) ∈ deeds) ∧
      (n < p.servers → ∃ f, (.start n, some (.error f)) ∈ deeds) := by
  have hstart {actions : List Action} {i : Nat} (hi : i ∈ actions.filterMap Action.started?) :
      (.start i, some (.ok ())) ∈ wellDone actions := by
    obtain ⟨action, hmem, hstart⟩ := List.mem_filterMap.1 hi
    cases action with
    | start j =>
        obtain rfl := Option.some.inj hstart
        exact mem_wellDone.2 ⟨hmem, rfl⟩
    | _ => cases hstart
  have hall {i : Nat} (hi : i < p.servers) : (.start i, some (.ok ())) ∈ wellDone p.opening := by
    refine hstart ?_
    rw [filterMap_opening]
    exact List.mem_range.2 hi
  cases h with
  | told result result' hafter =>
      refine ⟨p.servers, Nat.le_refl _, ?_, fun _ => ?_,
        fun i hi => List.mem_append_left _ (hall hi), fun h => absurd h (Nat.lt_irrefl _)⟩
      · rw [List.filterMap_append, filterMap_wellDone, filterMap_opening, List.filterMap_cons,
          List.filterMap_cons, started?_stops hafter, Nat.min_eq_right (Nat.le_succ _)]
        exact List.append_nil _
      · rw [List.filterMap_append, filterMap_wellDone, stopped?_opening fun _ h => h,
          List.filterMap_cons, List.filterMap_cons, stopped?_stops hafter]
        rfl
  | heldUp result =>
      refine ⟨p.servers, Nat.le_refl _, ?_, fun h => absurd rfl h,
        fun i hi => List.mem_append_left _ (hall hi), fun h => absurd h (Nat.lt_irrefl _)⟩
      rw [List.filterMap_append, filterMap_wellDone, filterMap_opening,
        Nat.min_eq_right (Nat.le_succ _)]
      exact List.append_nil _
  | @early before rest action f after htodo hafter =>
      obtain ⟨hbefore, haction⟩ := mem_opening_of_eq htodo
      rw [Nat.zero_add] at hafter
      generalize hn : (before.filterMap Action.started?).length = n at hafter
      obtain ⟨hstarted, hat⟩ := filterMap_before htodo hn
      refine ⟨n, ?_, ?_, fun _ => ?_, fun i hi => ?_, fun hlt => ⟨f, ?_⟩⟩
      · rcases hat with ⟨-, rfl⟩ | ⟨-, hlt⟩
        · exact Nat.le_refl _
        · exact Nat.le_of_lt hlt
      · rw [List.filterMap_append, filterMap_wellDone, hstarted, List.filterMap_cons,
          started?_stops hafter]
        rcases hat with ⟨hnone, rfl⟩ | ⟨rfl, hlt⟩
        · rw [hnone, Nat.min_eq_right (Nat.le_succ _)]
          exact List.append_nil _
        · rw [Nat.min_eq_left hlt, List.range_succ]
          rfl
      · rw [List.filterMap_append, filterMap_wellDone, stopped?_opening hbefore,
          List.filterMap_cons, (isOpening_of_mem haction).stopped?_eq_none, stopped?_stops hafter]
        rfl
      · refine List.mem_append_left _ (hstart ?_)
        rw [hstarted]
        exact List.mem_range.2 hi
      · rcases hat with ⟨-, rfl⟩ | ⟨rfl, -⟩
        · exact absurd hlt (Nat.lt_irrefl _)
        · exact List.mem_append_right _ List.mem_cons_self

/-- What was done before the application served or failed, and what was done after that. -/
structure Parts (p : Plan) (before after : List Deed) : Prop where
  succeeds : ∀ d ∈ before, d.1 ∈ p.opening ∧ d.2 = some (.ok ())
  stops : ∀ d ∈ after, ∃ i, d.1 = .stop i

theorem parts_of_opening {actions : List Action} (h : ∀ action ∈ actions, action ∈ p.opening)
    (hafter : after.map Prod.fst = stops n) : Parts p (wellDone actions) after where
  succeeds _ hd := ⟨h _ (mem_wellDone.1 hd).1, (mem_wellDone.1 hd).2⟩
  stops _ hd := exists_of_mem_stops hafter hd

/-- Every life ends, or it stays with its withdrawal. -/
theorem Ends.last_eq (h : Ends p p.opening 0 deeds last) :
    last = .withdrawing ∨ ∃ cause, last = .ended cause := by
  cases h with
  | told => exact .inr ⟨none, rfl⟩
  | heldUp => exact .inl rfl
  | early => exact .inr ⟨_, rfl⟩

/-- A life that ends when the application is told to. -/
theorem Ends.of_none (h : Ends p p.opening 0 deeds (.ended none)) :
    ∃ before result result' after,
      deeds = before ++ (.awaitShutdown, some result) :: (.deregister, some result') :: after ∧
        Parts p before after := by
  generalize hlast : Stage.ended none = last at h
  cases h with
  | told result result' hafter =>
      exact ⟨_, result, result', _, rfl, parts_of_opening (fun _ h => h) hafter⟩
  | heldUp => cases hlast
  | early f htodo hafter =>
      have haction := isOpening_of_mem (mem_opening_of_eq htodo).2
      exact absurd (Stage.ended.inj hlast).symm (haction.cause_ne_none f)

/-- A life that stays with a withdrawal that does not come back. -/
theorem Ends.of_withdrawing (h : Ends p p.opening 0 deeds .withdrawing) :
    ∃ before result, deeds = before ++ [(.awaitShutdown, some result), (.deregister, none)] ∧
      Parts p before [] := by
  generalize hlast : Stage.withdrawing = last at h
  cases h with
  | told => cases hlast
  | heldUp result =>
      exact ⟨_, result, rfl, fun _ hd => mem_wellDone.1 hd, nofun⟩
  | early => cases hlast

/-- A life that ends early. -/
theorem Ends.of_some {cause : Cause} (h : Ends p p.opening 0 deeds (.ended (some cause))) :
    ∃ before action f after,
      deeds = before ++ (action, some (.error f)) :: after ∧ action ∈ p.opening ∧
        action.cause f = some cause ∧ Parts p before after := by
  generalize hlast : Stage.ended (some cause) = last at h
  cases h with
  | told => cases hlast
  | heldUp => cases hlast
  | early f htodo hafter =>
      obtain ⟨hbefore, haction⟩ := mem_opening_of_eq htodo
      exact ⟨_, _, f, _, rfl, haction, (Stage.ended.inj hlast).symm,
        parts_of_opening hbefore hafter⟩

/-- Of what belongs to the opening of some life only the opening of this one is done. It succeeds,
unless the life ends early. -/
theorem Ends.mem_opening (h : Ends p p.opening 0 deeds last) {d : Deed} (hd : d ∈ deeds)
    (hopening : d.1.IsOpening) :
    d.1 ∈ p.opening ∧ (d.2 = some (.ok ()) ∨ ∃ cause, last = .ended (some cause)) := by
  have hstop {after : List Deed} (hstops : ∀ d ∈ after, ∃ i, d.1 = .stop i) : d ∉ after := by
    intro hd
    obtain ⟨i, hi⟩ := hstops d hd
    rw [hi] at hopening
    exact hopening
  rcases h.last_eq with rfl | ⟨cause, rfl⟩
  · obtain ⟨before, result, rfl, hparts⟩ := h.of_withdrawing
    simp only [List.mem_append, List.mem_cons, List.not_mem_nil, or_false] at hd
    rcases hd with hd | rfl | rfl
    · exact ⟨(hparts.succeeds d hd).1, .inl (hparts.succeeds d hd).2⟩
    · exact hopening.elim
    · exact hopening.elim
  · cases cause with
    | none =>
        obtain ⟨before, result, result', after, rfl, hparts⟩ := h.of_none
        simp only [List.mem_append, List.mem_cons] at hd
        rcases hd with hd | rfl | rfl | hd
        · exact ⟨(hparts.succeeds d hd).1, .inl (hparts.succeeds d hd).2⟩
        · exact hopening.elim
        · exact hopening.elim
        · exact absurd hd (hstop hparts.stops)
    | some cause =>
        obtain ⟨before, action, f, after, rfl, haction, -, hparts⟩ := h.of_some
        refine ⟨?_, .inr ⟨cause, rfl⟩⟩
        simp only [List.mem_append, List.mem_cons] at hd
        rcases hd with hd | rfl | hd
        · exact (hparts.succeeds d hd).1
        · exact haction
        · exact absurd hd (hstop hparts.stops)

/-- A life ends early exactly if something fails that is done before the application serves. -/
theorem Ends.ends_early_iff (h : Ends p p.opening 0 deeds last) :
    (∃ cause, last = .ended (some cause)) ↔
      ∃ d ∈ deeds, d.1.IsOpening ∧ d.2 ≠ some (.ok ()) := by
  constructor
  · rintro ⟨cause, rfl⟩
    obtain ⟨before, action, f, after, rfl, haction, -, -⟩ := h.of_some
    exact ⟨(action, some (.error f)), List.mem_append_right _ List.mem_cons_self,
      isOpening_of_mem haction, nofun⟩
  · rintro ⟨d, hd, hopening, hfails⟩
    exact (h.mem_opening hd hopening).2.resolve_left hfails

end Lifecycle

end ServiceMesh
