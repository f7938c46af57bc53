import ServiceMesh.Proofs.Cluster.Clients
import ServiceMesh.Proofs.Lease.Attempt
import ServiceMesh.Proofs.Lease.Loops
import ServiceMesh.Proofs.Lease.Lookups
import ServiceMesh.Proofs.Lease.Snapshot

/-!
Rounds of a cluster that nothing disturbs. While a task runs a round of upkeep and the member is
left alone by everything else, what happens is an attempt at a round, whoever started it, however
long its calls take and whatever is done to the store meanwhile.
-/

namespace ServiceMesh

def Wait.standing : Wait → Standing
  | call f =>
    match f.reply with
    | none => .sent f.point
    | some r => .acted f.point r
  | notice _ p => .telling p

def Standing.after : Wait ⊕ Except Failure Unit → Standing
  | .inl x => x.standing
  | .inr r => .done r

def Work.round? : Work → Option Wait
  | routine _ x => some x
  | keepAlive _ (.ticking x) => some x
  | _ => none

/-- How a call ends for its caller at this moment, if it does: with the answer, or without one when
the store has not acted or has not answered by the deadline. -/
def Flight.ending? (f : Flight) (now : Nat) : Option Bool :=
  match f.reply with
  | none => if f.deadline < f.actsAt ∧ f.deadline ≤ now then some false else none
  | some reply =>
    if f.deadline < f.answersAt then
      if f.deadline ≤ now then some false else none
    else if f.answersAt ≤ now then some reply.isOk
    else none

def Wait.tells : Option Wait → List Move
  | some (notice _ _) => [.announced]
  | _ => []

/-- What a round is through with by a step, after which it waits for something else or is over. -/
def Wait.moves (x : Wait) (now : Nat) (y : Option Wait) : List Move :=
  match x with
  | call f =>
    match f.ending? now with
    | some isOk => .ended f.point isOk :: tells y
    | none => []
  | notice _ _ => []

theorem Leased.Issues.standing {l : Leased} {now : Nat} {n : Next} {r : Wait ⊕ Except Failure Unit}
    (h : l.Issues now n r) : Standing.after r = n.standing ∧ Wait.tells r.getLeft? = n.moves := by
  cases h <;> exact ⟨rfl, rfl⟩

theorem Flight.Yields.ending? {f : Flight} {now : Nat} {reply : Except Failure f.point.Reply}
    (h : f.Yields now reply) : f.ending? now = some reply.isOk := by
  rw [Flight.ending?]
  cases h with
  | answer hr hdue hin =>
      rw [hr]
      dsimp only
      rw [if_neg (by omega), if_pos hdue]
  | unsent hr hlate hdue =>
      rw [hr]
      exact if_pos ⟨hlate, hdue⟩
  | unheard hr hlate hdue =>
      rw [hr]
      dsimp only
      rw [if_pos hlate, if_pos hdue]
      rfl

variable {others : Store → Store → Prop} {m₀ : Member} {s₀ : Store} {moves : List Move}

namespace Scene

variable {p : String} {σ σ' : Scene} {a : Cluster.Act}

/-- A step of a round, as the attempt sees it. -/
theorem Advances.attempt {x : Wait} {m : Member} {s : Store} {r : Wait ⊕ Except Failure Unit}
    (h : σ.Advances x m s r) (hc : m₀.isCancelled = false)
    (ha : Attempt others m₀ s₀ moves σ.member σ.store x.standing) :
    Attempt others m₀ s₀ (moves ++ x.moves σ.now r.getLeft?) m s (.after r) := by
  cases h with
  | @acts f hr hdue hin =>
      have hno : f.ending? σ.now = none := by
        rw [Flight.ending?, hr]
        exact if_neg (by omega)
      rw [Wait.moves, hno, List.append_nil]
      rw [Wait.standing, hr] at ha
      exact ha.acts
  | @resumes f reply r hy hr =>
      rw [Wait.moves, hy.ending?, hr.standing.1]
      dsimp only
      rw [hr.standing.2]
      rw [Wait.standing] at ha
      cases hy with
      | answer hreply hdue hin =>
          rw [hreply] at ha
          exact ha.answered σ.now
      | unsent hreply hlate hdue =>
          rw [hreply] at ha
          exact ha.fails σ.now _ rfl
      | unheard hreply hlate hdue =>
          rw [hreply] at ha
          exact ha.fails σ.now _ rfl
  | held n' =>
      rw [Wait.moves, List.append_nil]
      exact ha
  | told hr =>
      -- only the new topology is told of in a round, so that nothing more is told behind it
      obtain ⟨rfl, -⟩ := (ha.progress hc).of_notify
      have hmoves : (σ.member.notified .synced).2.moves = [] := Progress.moves_renewStep σ.member
      have htold := ha.told
      rw [hmoves] at htold
      rw [hr.standing.1, Wait.moves]
      exact htold

theorem spawn_work_of_lt {id : Nat} (h : id < σ.nextTask) (w : Work) :
    (σ.spawn w).work id = σ.work id := by
  rw [spawn_work, if_neg (Nat.ne_of_lt h)]

/-- Only its own steps take a round further, unless it is given up. -/
theorem Step.work_of_round? {id : Nat} {w : Work} (h : σ.Step p a σ')
    (ht : ∀ i, σ.nextTask ≤ i → σ.work i = none) (hw : σ.work id = some w)
    (hround : w.round? ≠ none) (hstep : a ≠ .step id) (hdrop : a ≠ .drop id) :
    σ'.work id = some w := by
  have hlt : id < σ.nextTask := by
    by_contra hid
    cases hw.symm.trans (ht id (by omega))
  cases h with
  | elsewhere hsp hother => rw [hsp.work, hw]
  | waits hw' hidle => exact hw
  | @steps i w' w'' m s hw' hg =>
      have hne : id ≠ i := fun he => hstep (by rw [he])
      rw [setWork_work, if_neg hne]
      exact hw
  | slows k d => exact hw
  | starts hc => exact (spawn_work_of_lt hlt _).trans hw
  | startsAndEnds hc => exact hw
  | registers hc hs =>
      exact (spawn_work_of_lt (Nat.lt_succ_of_lt hlt) _).trans
        ((spawn_work_of_lt hlt _).trans hw)
  | drops i =>
      have hne : id ≠ i := fun he => hdrop (by rw [he])
      rw [setWork_work, if_neg hne]
      exact hw
  | feedsIn what =>
      change (σ.work id).map _ = some w
      rw [hw]
      cases w with
      | watch q loop => exact absurd rfl hround
      | _ => rfl

end Scene

namespace Cluster

variable {p : String} {c : Cluster} {id : Nat} {a : Act} {acts : List Act} {σ : Scene}

def round? (c : Cluster) (p : String) (id : Nat) : Option Wait := (c.work? p id).bind Work.round?

/-- Where the round stands that a task runs, or has run last, for a party. -/
inductive Stands (p : String) (c : Cluster) (id : Nat) : Standing → Prop where
  | underWay {x : Wait} (h : c.round? p id = some x) : Stands p c id x.standing
  /-- The round was started from outside, and its outcome was noted down. -/
  | ended {r : Except Failure Unit} (hw : c.work? p id = none) (hr : c.outcome? id = some r) :
      Stands p c id (.done r)
  /-- The loop sleeps after a round that went well. -/
  | sleeps {t : Nat} (hw : c.work? p id = some (.keepAlive p (.sleeping t))) :
      Stands p c id (.done (.ok ()))
  /-- The loop backs off after a round that failed. -/
  | backsOff {t : Nat} (hw : c.work? p id = some (.keepAlive p (.backingOff t))) (f : Failure) :
      Stands p c id (.done (.error f))

/-- An act with which a task begins a round: it is started from outside, or the loop has slept long
enough. -/
inductive Begins (p : String) (c : Cluster) : Nat → Act → Prop where
  | outside : Begins p c c.nextTask (.start p .upkeep)
  | loop {id t : Nat} (hw : c.work? p id = some (.keepAlive p (.sleeping t))) (ht : t ≤ c.now) :
      Begins p c id (.step id)

/-- The round of a task is under way, and the act takes it further or has nothing to do with the
member. -/
structure Untouched (others : Store → Store → Prop) (p : String) (id : Nat) (c : Cluster)
    (a : Act) : Prop where
  stays : c.Stays p a
  underWay : c.round? p id ≠ none
  drop : a ≠ .drop id
  member : a ≠ .step id → (c.act a).member? p = c.member? p
  store : a ≠ .step id → others (c.storeOf p) ((c.act a).storeOf p)

def movesOf (c : Cluster) (p : String) (id : Nat) (a : Act) : List Move :=
  match a with
  | .step i =>
    if i = id then
      match c.round? p id with
      | some x => x.moves c.now ((c.act (.step id)).round? p id)
      | none => []
    else []
  | _ => []

def movesAlong (p : String) (id : Nat) : Cluster → List Act → List Move
  | _, [] => []
  | c, a :: acts => c.movesOf p id a ++ movesAlong p id (c.act a) acts

/-- The act is no step of the task, or it tells the watchers of the party nothing. -/
def Quiet (p : String) (id : Nat) (c : Cluster) (a : Act) : Prop :=
  a = .step id → (c.act a).bus p = c.bus p

/-- A round that began with this member and this store, as it is now. -/
def Attempts (others : Store → Store → Prop) (m₀ : Member) (s₀ : Store) (p : String) (id : Nat)
    (moves : List Move) (c : Cluster) : Prop :=
  ∃ m x, c.member? p = some m ∧ c.Stands p id x ∧ Attempt others m₀ s₀ moves m (c.storeOf p) x

theorem movesOf_step {x : Wait} (hx : c.round? p id = some x) :
    c.movesOf p id (.step id) = x.moves c.now ((c.act (.step id)).round? p id) := by
  rw [movesOf, if_pos rfl, hx]

theorem movesOf_of_ne (h : a ≠ .step id) : c.movesOf p id a = [] := by
  cases a with
  | step i =>
      have hi : i ≠ id := by
        rintro rfl
        exact h rfl
      rw [movesOf, if_neg hi]
  | _ => rfl

theorem Shows.attempts (h : c.Shows p σ) {x : Standing} (hx : c.Stands p id x)
    (ha : Attempt others m₀ s₀ moves σ.member σ.store x) :
    Attempts others m₀ s₀ p id moves c :=
  ⟨σ.member, x, h.member?, hx, h.storeOf.symm ▸ ha⟩

theorem act_step_of_work? {w : Work} (hw : c.work? p id = some w) :
    c.act (.step id) = (c.stepTask ⟨id, w⟩).getD c := by
  rw [Cluster.act, (work?_eq_some_iff.1 hw).1]

/-- A round is run for whoever started it from outside, or by the loop. -/
theorem cases_of_round? {x : Wait} (h : c.round? p id = some x) :
    c.work? p id = some (.routine p x) ∨ c.work? p id = some (.keepAlive p (.ticking x)) := by
  obtain ⟨w, hw, hround⟩ := Option.bind_eq_some_iff.1 h
  obtain ⟨-, hparty⟩ := work?_eq_some_iff.1 hw
  cases w with
  | routine q y =>
      obtain rfl := Option.some.inj hround
      obtain rfl : q = p := hparty
      exact .inl hw
  | keepAlive q loop =>
      cases loop with
      | ticking y =>
          obtain rfl := Option.some.inj hround
          obtain rfl : q = p := hparty
          exact .inr hw
      | _ => cases hround
  | _ => cases hround

theorem Stands.of_round? {x : Wait} {y : Standing} (h : c.Stands p id y)
    (hx : c.round? p id = some x) : y = x.standing := by
  cases h with
  | underWay hx' => rw [Option.some.inj (hx.symm.trans hx')]
  | ended hw' hr => obtain hw | hw := cases_of_round? hx <;> cases hw.symm.trans hw'
  | sleeps hw' => obtain hw | hw := cases_of_round? hx <;> cases hw.symm.trans hw'
  | backsOff hw' f => obtain hw | hw := cases_of_round? hx <;> cases hw.symm.trans hw'

/-- A round of the loop has gone on: it waits again, or it is over and the loop rests. -/
theorem stands_afterTickStep (c : Cluster) (p : String) (id : Nat)
    (r : Wait ⊕ Except Failure Unit) :
    (c.setTask id (c.afterTickStep p r)).Stands p id (.after r) ∧
      (c.setTask id (c.afterTickStep p r)).round? p id = r.getLeft? := by
  have hwork (w : Work) (hw : w.party = p) : (c.setTask id (some w)).work? p id = some w := by
    rw [work?_setTask, if_pos rfl]
    simp [Option.filter, hw]
  rcases r with x | ⟨f⟩ | u
  · have hx := hwork (.keepAlive p (.ticking x)) rfl
    have hround : (c.setTask id (some (.keepAlive p (.ticking x)))).round? p id = some x := by
      rw [round?, hx]
      rfl
    exact ⟨.underWay hround, hround⟩
  · have hrests := hwork (.keepAlive p (c.afterTick p (.error f))) rfl
    refine ⟨.backsOff hrests f, ?_⟩
    rw [round?, afterTickStep, hrests]
    rfl
  · have hrests := hwork (.keepAlive p (c.afterTick p (.ok u))) rfl
    refine ⟨.sleeps hrests, ?_⟩
    rw [round?, afterTickStep, hrests]
    rfl

theorem party_afterTickStep (c : Cluster) (p : String) (r : Wait ⊕ Except Failure Unit) :
    ∀ w ∈ c.afterTickStep p r, w.party = p := by
  rcases r with x | r <;> rintro w ⟨⟩ <;> rfl

theorem Shows.attempts_start (h : c.Shows p σ) (ht : c.Tidy) :
    Attempts others σ.member σ.store p c.nextTask [] (c.act (.start p .upkeep)) := by
  obtain ⟨hs, hc⟩ := h.continueWith (σ.member, σ.member.tick σ.now)
  have hbegins : Attempt others σ.member σ.store [] σ.member σ.store
      (σ.member.tick σ.now).standing := .begins σ.now
  have htidy : (c.continueWith p (σ.member, σ.member.tick σ.now)).1.Tidy :=
    ht.of_eq (setMember_tasks c p _) (setMember_nextTask c p _)
  have hnext : (c.continueWith p (σ.member, σ.member.tick σ.now)).1.nextTask = c.nextTask :=
    setMember_nextTask c p _
  rw [← hc.standing.1] at hbegins
  rw [Cluster.act, start, h.member?]
  dsimp only
  rw [Member.start, h.now]
  generalize c.continueWith p (σ.member, σ.member.tick σ.now) = e at hs htidy hnext hbegins ⊢
  obtain ⟨d, x | r⟩ := e
  · refine (hs.spawn htidy rfl).attempts (.underWay (x := x) ?_) hbegins
    rw [round?, work?_spawn htidy, if_pos hnext.symm, if_pos (by rfl)]
    rfl
  · dsimp only at htidy hnext ⊢
    have hnone : d.work? p c.nextTask = none := by
      rw [work?, htidy.task?_eq_none (Nat.le_of_eq hnext), Option.bind_none]
    refine (hs.skip _).attempts (.ended (r := r) ((work?_of_tasks rfl _).trans hnone) ?_) hbegins
    simp [outcome?, hnext]

/-- A loop that has slept long enough begins a round. -/
theorem Shows.attempts_loop (h : c.Shows p σ) (hc : σ.member.isCancelled = false) {t : Nat}
    (hw : c.work? p id = some (.keepAlive p (.sleeping t))) (ht : t ≤ c.now) :
    Attempts others σ.member σ.store p id [] (c.act (.step id)) := by
  have hissue := h.issue (σ.member.tick σ.now)
  have hbegins : Attempt others σ.member σ.store [] σ.member σ.store
      (σ.member.tick σ.now).standing := .begins σ.now
  rw [← hissue.standing.1] at hbegins
  have hstep : c.stepTask ⟨id, .keepAlive p (.sleeping t)⟩ = some
      (c.setTask id (c.afterTickStep p (c.issue p (σ.member.tick σ.now)))) := by
    rw [stepTask]
    dsimp only
    rw [Cluster.stepKeepAlive, h.isCancelled, hc, if_neg Bool.false_ne_true, if_pos ht, h.member?,
      h.now]
    rfl
  rw [act_step_of_work? hw, hstep, Option.getD_some]
  exact (h.setTask id (party_afterTickStep c p _)).attempts (stands_afterTickStep c p id _).1
    hbegins

/-- A call that its caller waits for has not come to its end. -/
theorem Shows.ending?_eq_none (h : c.Shows p σ) {f : Flight} (hr : c.stepFlight p f = none) :
    f.ending? c.now = none := by
  rw [Cluster.stepFlight, h.leased] at hr
  rw [Flight.ending?]
  cases hreply : f.reply with
  | none =>
      simp only [bind, Option.bind, hreply] at hr
      split at hr
      · cases hr
      · split at hr
        · cases hr
        · exact if_neg (by omega)
  | some reply =>
      simp only [bind, Option.bind, hreply] at hr
      split at hr
      · cases hr
      · split at hr
        · cases hr
        · dsimp only
          by_cases hlate : f.deadline < f.answersAt
          · rw [if_pos hlate]
            exact if_neg (by omega)
          · rw [if_neg hlate]
            exact if_neg (by omega)

/-- The round of a task has been taken further by a step, and the member and the store with it. -/
structure Carries (p : String) (id : Nat) (σ : Scene) (x : Wait) (r : Wait ⊕ Except Failure Unit)
    (d : Cluster) : Prop where
  shows : ∃ σ', d.Shows p σ' ∧ σ.Advances x σ'.member σ'.store r
  stands : d.Stands p id (.after r)
  round? : d.round? p id = r.getLeft?

theorem Shows.act_routine (h : c.Shows p σ) {x : Wait} (hw : c.work? p id = some (.routine p x))
    {r : Cluster × (Wait ⊕ Except Failure Unit)} (hr : c.stepWait p x = some r) :
    Carries p id σ x r.2 (c.act (.step id)) := by
  obtain ⟨m, s, hs, hadv⟩ := h.stepWait hr
  obtain ⟨d, x' | res⟩ := r
  · have hact : c.act (.step id) = d.setTask id (some (.routine p x')) := by
      rw [act_step_of_work? hw, stepTask]
      dsimp only
      rw [hr]
      rfl
    have hround : (c.act (.step id)).round? p id = some x' := by
      rw [hact, round?, work?_setTask, if_pos rfl]
      simp [Option.filter, Work.party, Work.round?]
    have hgoes : (c.act (.step id)).Shows p ((σ.put m s).setWork id (some (.routine p x'))) := by
      rw [hact]
      exact hs.setTask id (by simp [Work.party])
    exact ⟨⟨_, hgoes, hadv⟩, .underWay hround, hround⟩
  · have hact : c.act (.step id) =
        { d.setTask id none with outcomes := (id, res) :: d.outcomes } := by
      rw [act_step_of_work? hw, stepTask]
      dsimp only
      rw [hr]
      rfl
    have hend : (c.act (.step id)).Shows p ((σ.put m s).setWork id none) := by
      rw [hact]
      exact (hs.setTask id (w := none) (by simp)).of_alike ⟨rfl, rfl, rfl, rfl, rfl⟩
    have hover : (c.act (.step id)).work? p id = none := by
      rw [hend.work, Scene.setWork_work, if_pos rfl]
    refine ⟨⟨_, hend, hadv⟩, .ended (r := res) hover ?_, ?_⟩
    · simp [hact, outcome?]
    · rw [round?, hover]
      rfl

theorem Shows.act_ticking (h : c.Shows p σ) {x : Wait}
    (hw : c.work? p id = some (.keepAlive p (.ticking x)))
    {r : Cluster × (Wait ⊕ Except Failure Unit)} (hr : c.stepWait p x = some r) :
    Carries p id σ x r.2 (c.act (.step id)) := by
  obtain ⟨m, s, hs, hadv⟩ := h.stepWait hr
  have hact : c.act (.step id) = r.1.setTask id (r.1.afterTickStep p r.2) := by
    rw [act_step_of_work? hw, stepTask]
    dsimp only
    rw [Cluster.stepKeepAlive, hr]
    rfl
  obtain ⟨hstands, hround⟩ := stands_afterTickStep r.1 p id r.2
  rw [hact]
  exact ⟨⟨_, hs.setTask id (party_afterTickStep r.1 p r.2), hadv⟩, hstands, hround⟩

theorem act_step_of_idle {x : Wait} (hx : c.round? p id = some x) (hr : c.stepWait p x = none) :
    c.act (.step id) = c := by
  obtain hw | hw := cases_of_round? hx
  · rw [act_step_of_work? hw, stepTask]
    dsimp only
    rw [hr]
    rfl
  · rw [act_step_of_work? hw, stepTask]
    dsimp only
    rw [Cluster.stepKeepAlive, hr]
    rfl

/-- A step of the task takes the round further, unless there is nothing to go on with yet. -/
theorem Shows.attempts_step (h : c.Shows p σ) {x : Wait} (hx : c.round? p id = some x)
    (hc : m₀.isCancelled = false)
    (ha : Attempt others m₀ s₀ moves σ.member σ.store x.standing) :
    Attempts others m₀ s₀ p id (moves ++ c.movesOf p id (.step id)) (c.act (.step id)) := by
  rw [movesOf_step hx]
  cases hr : c.stepWait p x with
  | none =>
      have hidle : x.moves c.now ((c.act (.step id)).round? p id) = [] := by
        cases x with
        | call f => rw [Wait.moves, h.ending?_eq_none hr]
        | notice n q => rfl
      rw [hidle, List.append_nil, act_step_of_idle hx hr]
      exact h.attempts (.underWay hx) ha
  | some r =>
      have hcarries : Carries p id σ x r.2 (c.act (.step id)) := by
        obtain hw | hw := cases_of_round? hx
        · exact h.act_routine hw hr
        · exact h.act_ticking hw hr
      obtain ⟨σ', hs, hadv⟩ := hcarries.shows
      rw [hcarries.round?, h.now]
      exact hs.attempts hcarries.stands (hadv.attempt hc ha)

/-- Only telling moves the bus. -/
theorem Shows.quiet (h : c.Shows p σ) {x : Wait} (hx : c.round? p id = some x)
    (hcall : ∀ n q, x ≠ .notice n q) : Quiet p id c a := by
  rintro rfl
  have hbus : c.busAfter p p (some x) = c.bus p := by
    cases x with
    | call f => rfl
    | notice n q => exact absurd rfl (hcall n q)
  obtain hw | hw := cases_of_round? hx
  · rw [act_step_of_work? hw]
    cases hs : c.stepTask ⟨id, .routine p x⟩ with
    | none => rfl
    | some d => exact (stepTask_moves h.leased hs (by rintro q i who ⟨⟩)).bus.trans hbus
  · rw [act_step_of_work? hw]
    cases hs : c.stepTask ⟨id, .keepAlive p (.ticking x)⟩ with
    | none => rfl
    | some d => exact (stepTask_moves h.leased hs (by rintro q i who ⟨⟩)).bus.trans hbus

/-- Whatever else happens leaves the round where it stands. -/
theorem Shows.attempts_act (h : c.Shows p σ) (ht : c.Tidy) {x : Wait}
    (hx : c.round? p id = some x) (hu : Untouched others p id c a) (hstep : a ≠ .step id)
    (ha : Attempt others m₀ s₀ moves σ.member σ.store x.standing) :
    Attempts others m₀ s₀ p id moves (c.act a) := by
  obtain ⟨σ', h', hs⟩ := h.act ht hu.stays
  obtain ⟨w, hw, hround⟩ := Option.bind_eq_some_iff.1 hx
  have htidy : ∀ i, σ.nextTask ≤ i → σ.work i = none := by
    intro i hi
    rw [← h.work, work?, ht.task?_eq_none (h.nextTask ▸ hi), Option.bind_none]
  have hwork : (c.act a).work? p id = some w := by
    rw [h'.work]
    refine hs.work_of_round? htidy (h.work id ▸ hw) ?_ hstep hu.drop
    rw [hround]
    exact Option.some_ne_none x
  have hm : σ'.member = σ.member := by
    have hsame := hu.member hstep
    rw [h'.member?, h.member?] at hsame
    exact Option.some.inj hsame
  have hothers := hu.store hstep
  rw [h.storeOf, h'.storeOf] at hothers
  refine h'.attempts (.underWay (x := x) ?_) (hm.symm ▸ ha.others hothers)
  rw [round?, hwork]
  exact hround

/-- What a task makes of a round that nothing disturbs is an attempt at a round, in which nothing is
told before the topology has been read. -/
theorem Attempts.play (h : c.HasMember p) (ht : c.Tidy) (hc : m₀.isCancelled = false)
    (ha : Attempts others m₀ s₀ p id moves c) (hacts : Along (Untouched others p id) c acts) :
    Attempts others m₀ s₀ p id (moves ++ movesAlong p id c acts) (c.play acts) ∧
      (.announced ∉ moves ++ movesAlong p id c acts → Along (Quiet p id) c acts) := by
  induction acts generalizing c moves with
  | nil => exact ⟨by rwa [movesAlong, List.append_nil], fun _ => trivial⟩
  | cons a acts ih =>
      obtain ⟨hu, hrest⟩ := hacts
      obtain ⟨σ, hσ⟩ := h.shows
      obtain ⟨σ', hσ', -⟩ := hσ.act ht hu.stays
      obtain ⟨x, hx⟩ := Option.ne_none_iff_exists'.1 hu.underWay
      obtain ⟨m, y, hm, hy, ha⟩ := ha
      obtain rfl := Option.some.inj (hσ.member?.symm.trans hm)
      rw [hσ.storeOf, hy.of_round? hx] at ha
      have hnext : Attempts others m₀ s₀ p id (moves ++ c.movesOf p id a) (c.act a) := by
        by_cases hstep : a = .step id
        · rw [hstep]
          exact hσ.attempts_step hx hc ha
        · rw [movesOf_of_ne hstep, List.append_nil]
          exact hσ.attempts_act ht hx hu hstep ha
      obtain ⟨hattempts, hquiet⟩ := ih hσ'.hasMember (ht.act a) hnext hrest
      rw [movesAlong, ← List.append_assoc]
      refine ⟨hattempts, fun hno => ⟨hσ.quiet hx fun n q hn => hno ?_, hquiet hno⟩⟩
      rw [hn] at ha
      exact List.mem_append_left _ (List.mem_append_left _ (ha.progress hc).of_notify.2)

theorem Begins.ne_join (h : c.Begins p id a) (P : Party) : a ≠ .join p P := by
  rintro rfl
  cases h

theorem Shows.exists_play (h : c.Shows p σ) (ht : c.Tidy) (hstays : Along (Stays p) c acts) :
    (c.play acts).Tidy ∧ ∃ σ', (c.play acts).Shows p σ' := by
  induction acts generalizing c σ with
  | nil => exact ⟨ht, σ, h⟩
  | cons a acts ih =>
      obtain ⟨σ', h', -⟩ := h.act ht hstays.1
      exact ih h' (ht.act a) hstays.2

/-- The task has begun a round with the member and the store as they were, and nobody has been told
anything. -/
theorem Shows.attempts_begins (h : c.Shows p σ) (ht : c.Tidy) (hc : σ.member.isCancelled = false)
    (hb : c.Begins p id a) :
    Attempts others σ.member (c.storeOf p) p id [] (c.act a) ∧ (c.act a).bus p = c.bus p := by
  rw [h.storeOf]
  cases hb with
  | outside =>
      exact ⟨h.attempts_start ht,
        (act_moves (by rintro P ⟨⟩) (by rintro i ⟨⟩) (by rintro op ⟨⟩)).bus⟩
  | @loop id t hw hdue =>
      refine ⟨h.attempts_loop hc hw hdue, ?_⟩
      rw [act_step_of_work? hw]
      cases hs : c.stepTask ⟨id, .keepAlive p (.sleeping t)⟩ with
      | none => rfl
      | some d => exact (stepTask_moves h.leased hs (by rintro q i who ⟨⟩)).bus

/-- A round that nothing else of its member disturbs, whoever began it and at whatever time of the
member's life. However its calls fail, and whether the store has acted by then or not: if the round
fails, it had no lease and could not be registered, the member is as it was and nobody was told
anything; and if it could not read the topology, it goes on without a failure, nobody is told
anything, and the snapshot and its time are as they were, unless the renewal reaches the limit. In
the store it leaves one new lease at most and what is under the key of its own node. -/
theorem failed_round_changes_nothing (hnew : c.New p) {before : List Act}
    (hbefore : Along (Stays p) c before) (hm : (c.play before).member? p = some m₀)
    (hc : m₀.isCancelled = false) (hbegins : (c.play before).Begins p id a)
    (hacts : Along (Untouched others p id) ((c.play before).act a) acts) :
    let d := (c.play before).act a
    let moves := movesAlong p id d acts
    ∃ m x, (d.play acts).member? p = some m ∧ (d.play acts).Stands p id x ∧
      d.bus p = (c.play before).bus p ∧
      (∀ f, x = .done (.error f) →
        m = m₀ ∧ m₀.lease = none ∧ Along (Quiet p id) d acts ∧
          (moves = [.ended .grant false] ∨
            ∃ l, moves = [.ended .grant true, .ended (.publish l) false])) ∧
      (.ended .scan false ∈ moves →
        (∀ f, x ≠ .done (.error f)) ∧ Along (Quiet p id) d acts ∧ m.lastSync = m₀.lastSync ∧
          (m.snapshot = m₀.snapshot ∨
            m.snapshot = none ∧ m.lease = none ∧ (∃ l, .ended (.renew l) false ∈ moves) ∧
              m₀.settings.maxKeepAliveRetry ≤ (if m₀.lease = none then 0 else m₀.failures) + 1)) ∧
      ((∀ s s', others s s' → s.SameContent s') →
        ∃ granted, ((c.play before).storeOf p).DiffersIn m₀.node.path granted
          ((d.play acts).storeOf p) ∧ granted.length ≤ 1) := by
  intro d moves
  obtain ⟨σ₀, h₀⟩ := hnew.hasMember.shows
  obtain ⟨htidy, σ, h⟩ := h₀.exists_play hnew.tidy hbefore
  obtain rfl := Option.some.inj (h.member?.symm.trans hm)
  obtain ⟨σ', h', -⟩ := h.act htidy hbegins.ne_join
  obtain ⟨hbegun, hbus⟩ := h.attempts_begins htidy hc hbegins
  obtain ⟨⟨m, x, hm', hx, ha⟩, hquiet⟩ := hbegun.play h'.hasMember (htidy.act a) hc hacts
  rw [List.nil_append] at ha hquiet
  have hprogress := ha.progress hc
  refine ⟨m, x, hm', hx, hbus, fun f hover => ?_, fun hscan => ?_, fun hothers => ?_⟩
  · rw [hover] at hprogress
    obtain ⟨hsame, hlease, hmoves⟩ := hprogress.of_failed
    refine ⟨hsame, hlease, hquiet ?_, hmoves⟩
    obtain hm | ⟨l, hm⟩ := hmoves <;> simp [hm]
  · obtain ⟨hok, hsync, hno, hsnapshot⟩ := hprogress.of_unread hscan
    exact ⟨fun f hover => hok f (congrArg Standing.next hover), hquiet hno, hsync, hsnapshot⟩
  · obtain ⟨granted, hd, hle, -⟩ := ha.differsIn hc hothers
    exact ⟨granted, hd, hle⟩

theorem Untouched.of_step (h : (c.round? p id).isSome = true) :
    Untouched others p id c (.step id) where
  stays := by rintro P ⟨⟩
  underWay := Option.isSome_iff_ne_none.1 h
  drop := by rintro ⟨⟩
  member hne := absurd rfl hne
  store hne := absurd rfl hne

theorem Untouched.of_pass (h : (c.round? p id).isSome = true) (hrefl : ∀ s, others s s)
    (ms : Nat) : Untouched others p id c (.pass ms) where
  stays := by rintro P ⟨⟩
  underWay := Option.isSome_iff_ne_none.1 h
  drop := by rintro ⟨⟩
  member _ := rfl
  store _ := hrefl _

theorem Stands.eq_done {x : Standing} {r : Except Failure Unit} (h : c.Stands p id x)
    (hw : c.work? p id = none) (hr : c.outcome? id = some r) : x = .done r := by
  cases h with
  | underWay hx =>
      rw [round?, hw] at hx
      cases hx
  | ended hw' hr' => rw [Option.some.inj (hr.symm.trans hr')]
  | sleeps hw' => cases hw.symm.trans hw'
  | backsOff hw' f => cases hw.symm.trans hw'

/-- The beginner is granted a lease, and its record is written; but the answer comes too late. -/
theorem failed_round_changes_nothing_unheard :
    let before := [Act.slow "m" .put ⟨0, 4000⟩]
    let acts := [Act.step 0, .step 0, .step 0, .pass 3000, .step 0]
    let c := beginner.play before
    let d := c.act (.start "m" .upkeep)
    beginner.New "m" ∧ Along (Stays "m") beginner before ∧ c.Begins "m" 0 (.start "m" .upkeep) ∧
      Along (Untouched Eq "m" 0) d acts ∧
      (d.play acts).outcome? 0 = some (.error .callTimedOut) ∧
      Along (Quiet "m" 0) d acts ∧
      (∃ m, c.member? "m" = some m ∧ m.isCancelled = false ∧ (d.play acts).member? "m" = some m ∧
        ∃ granted, (c.storeOf "m").DiffersIn m.node.path granted ((d.play acts).storeOf "m") ∧
          granted.length ≤ 1) ∧
      ((d.play acts).storeOf "m").leaseCount = 1 := by
  intro before acts c d
  have hnew : beginner.New "m" := new_join rfl rfl _
  have hbefore : Along (Stays "m") beginner before := by decide +kernel
  have hbegins : c.Begins "m" 0 (.start "m" .upkeep) := .outside
  have hacts : Along (Untouched Eq "m" 0) d acts := by
    refine ⟨.of_step ?_, .of_step ?_, .of_step ?_, .of_pass ?_ (fun _ => rfl) _, .of_step ?_,
      trivial⟩ <;> decide +kernel
  let m : Member := { node := Node.new "svc-a" "10.0.0.1" 9001, settings := {} }
  have hm : c.member? "m" = some m := by decide +kernel
  have hfails : (d.play acts).outcome? 0 = some (.error .callTimedOut) := by decide +kernel
  have hover : (d.play acts).work? "m" 0 = none := by
    have hnone : ((d.play acts).work? "m" 0).isNone = true := by decide +kernel
    simpa using hnone
  obtain ⟨m', x, hm', hx, -, hfailed, -, hstore⟩ :=
    failed_round_changes_nothing hnew hbefore hm rfl hbegins hacts
  obtain ⟨rfl, -, hquiet, -⟩ := hfailed _ (hx.eq_done hover hfails)
  exact ⟨hnew, hbefore, hbegins, hacts, hfails, hquiet,
    ⟨m, hm, rfl, hm', hstore fun _ _ h => by subst h; exact ⟨rfl, rfl, rfl, rfl⟩⟩,
    by decide +kernel⟩

end Cluster

end ServiceMesh
