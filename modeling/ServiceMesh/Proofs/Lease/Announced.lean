import ServiceMesh.Proofs.Lease.Lookups

/-!
Who hears of a change. Whenever the look-ups of a member come out differently from one moment to the
next, the routine that made the difference goes on to tell the watchers, all those that are there
now. There is one exception: a renewal that fails once too often gives the snapshot up in silence.
-/

namespace ServiceMesh

namespace Member

variable {m : Member} {now : Nat}

/-- The snapshot has no service without nodes. -/
def IsProper (m : Member) : Prop := ∀ t ∈ m.snapshot, t.Proper

theorem isProper_of_snapshot_eq_none (h : m.snapshot = none) : m.IsProper := by
  intro t ht
  cases h.symm.trans ht

/-- Look-ups are answered from the snapshot alone. -/
theorem directory_of_snapshot {m' : Member} (h : m'.snapshot = m.snapshot) :
    m'.directory = m.directory := by
  have hs : m'.getService = m.getService := by
    funext name
    rw [getService, h, getService]
  have hl : m'.listServices = m.listServices := by rw [listServices, h, listServices]
  rw [directory, hs, hl, directory]

/-- Events either change something, which is told, or nothing at all. -/
theorem applyEvents_cases (h : m.IsProper) (es : List Event) :
    (∃ rest, (m.applyEvents es).2 = .notify (.applied rest)) ∨
      m.applyEvents es = (m, .done (.ok ())) := by
  induction es with
  | nil => exact .inr rfl
  | cons e es ih =>
      rw [applyEvents]
      split
      · exact ih
      · next t ht =>
          dsimp only
          split
          · exact .inl ⟨es, rfl⟩
          · next hno =>
              have hsame : (t.apply e).1 = t := (h t ht).apply_of_not_changed (by simpa using hno)
              have hm : { m with snapshot := some (t.apply e).1 } = m := by rw [hsame, ← ht]
              rw [hm]
              exact ih

/-! ### Turns -/

/-- A turn of a routine, from what it has waited for: it goes on with an answer or behind a
notification, or it begins with events. -/
inductive Turn (m : Member) (now : Nat) : Option Wait → Member × Next → Prop where
  | resumes {f : Flight} {reply : Except Failure f.point.Reply} (h : f.Yields now reply) :
      m.Turn now (some (.call f)) (m.resume now f.point reply)
  | told (n : Notification) (p : NoticePoint) : m.Turn now (some (.notice n p)) (m.notified p)
  | applies (events : List Event) : m.Turn now none (m.applyEvents events)

/-- The renewal fails once too often. -/
def GivesUp (m : Member) (now : Nat) (f : Flight) : Prop :=
  f.point.kind = .keepAlive ∧ f.Fails now ∧ m.isCancelled = false ∧
    m.settings.maxKeepAliveRetry ≤ m.failures + 1

instance (m : Member) (now : Nat) (f : Flight) : Decidable (m.GivesUp now f) :=
  inferInstanceAs (Decidable (_ ∧ _ ∧ _ ∧ _))

/-- After a renewal a round is over. -/
theorem resume_of_keepAlive {p : CallPoint} (hp : p.kind = .keepAlive)
    (r : Except Failure p.Reply) : (m.resume now p r).2 = .done (.ok ()) := by
  cases p with
  | renew lease => cases r <;> (rw [resume]; split <;> rfl)
  | _ => cases hp

/-- A turn that makes a difference goes on to a notification, or gives up. -/
theorem Turn.cases_of_directory_ne {x : Option Wait} {s : Member × Next} (h : m.Turn now x s)
    (hp : m.IsProper) (hne : s.1.directory ≠ m.directory) :
    (∃ q, s.2 = .notify q) ∨ ∃ f, x = some (.call f) ∧ m.GivesUp now f := by
  have hevents (es : List Event) (hne : (m.applyEvents es).1.directory ≠ m.directory) :
      ∃ q, (m.applyEvents es).2 = .notify q := by
    rcases applyEvents_cases hp es with ⟨rest, hr⟩ | hr
    · exact ⟨_, hr⟩
    · rw [hr] at hne
      exact absurd rfl hne
  cases h with
  | applies es => exact .inl (hevents es hne)
  | told n q =>
      cases q with
      | synced => exact absurd rfl hne
      | applied rest => exact .inl (hevents rest hne)
      | finished => exact absurd rfl hne
  | @resumes f reply hy =>
      obtain ⟨point, actsAt, answersAt, deadline, answer⟩ := f
      cases point with
      | grant =>
          cases reply with
          | error e => exact absurd rfl hne
          | ok lease =>
              rw [resume] at hne
              split at hne <;> exact absurd rfl hne
      | publish lease =>
          cases reply with
          | error e => exact absurd rfl hne
          | ok u =>
              rw [resume] at hne
              split at hne
              · exact absurd rfl hne
              · exact absurd (directory_of_snapshot rfl) hne
      | withdraw => exact absurd rfl hne
      | scan =>
          cases reply with
          | error e => exact absurd rfl hne
          | ok records =>
              rw [resume] at hne ⊢
              split at hne
              · exact absurd rfl hne
              · next hc => exact .inl ⟨.synced, by rw [if_neg hc]⟩
      | renew lease =>
          cases reply with
          | ok u =>
              rw [resume] at hne
              split at hne
              · exact absurd rfl hne
              · exact absurd (directory_of_snapshot rfl) hne
          | error e =>
              rw [resume] at hne
              split at hne
              · exact absurd rfl hne
              · next hc =>
                  rw [renewalFailed] at hne
                  dsimp only at hne
                  split at hne
                  · next hlimit =>
                      exact .inr ⟨_, rfl, rfl, ⟨e, hy⟩, by simpa using hc, hlimit⟩
                  · exact absurd (directory_of_snapshot rfl) hne
      | retire => exact .inl ⟨.finished, rfl⟩

end Member

namespace Cluster

variable {c c' d : Cluster} {p : String} {l : Leased} {m : Member}

theorem directory_of_leased (h : c.leased? p = some l) : c.directory p = l.member.directory := by
  rw [leased?] at h
  split at h
  · next hp =>
      obtain rfl := Option.some.inj h
      rw [directory, hp]
      rfl
  · cases h

theorem directory_of_same (h : c.leased? p = some l) (h' : c'.leased? p = c.leased? p) :
    c'.directory p = c.directory p := by
  rw [directory_of_leased h, directory_of_leased (h'.trans h)]

theorem directory_setMember (h : c.leased? p = some l) (m : Member) :
    (c.setMember p m).directory p = m.directory :=
  directory_of_leased (leased?_setMember_self h m)

/-- A member that has lost nothing but the time of its last reading answers as before. -/
theorem directory_watchBroke (h : c.leased? p = some l) :
    (c.watchBroke p).1.directory p = c.directory p := by
  rw [watchBroke, member?, h]
  exact (directory_setMember h _).trans (directory_of_leased h).symm

def Announces (p : String) (c : Cluster) (id : Nat) : Prop :=
  ∃ q, c.wait? p id = some (.notice (c.bus p).announce q)

/-- A task has taken a turn of a routine of the party, and what the routine needs next is followed
up: whatever is to be told is told to those who watch now. -/
def Took (p : String) (m : Member) (now : Nat) (x : Option Wait) (c : Cluster) (id : Nat) : Prop :=
  ∃ s, m.Turn now x s ∧ c.directory p = s.1.directory ∧
    (∀ q, s.2 = .notify q → c.Announces p id) ∧ ∀ r, s.2 = .done r → c.wait? p id = none

theorem wait?_setTask_self (c : Cluster) (id : Nat) {w : Option Work}
    (hw : ∀ w' ∈ w, w'.party = p) : (c.setTask id w).wait? p id = w.bind Work.wait? := by
  rw [wait?, work?_setTask, if_pos rfl]
  cases w with
  | none => rfl
  | some w => simp [Option.filter, hw w rfl]

/-- A routine takes a turn, and its task goes on accordingly. -/
theorem took_of_continueWith {now id : Nat} {x : Option Wait} {s : Member × Next} {w : Option Work}
    (hd : d.leased? p = some l) (hs : m.Turn now x s)
    (hc : c.parties = (d.continueWith p s).1.parties) (hparty : ∀ w' ∈ w, w'.party = p)
    (hw : w.bind Work.wait? = (d.continueWith p s).2.getLeft?) :
    Took p m now x (c.setTask id w) id := by
  have hbus : (c.setTask id w).bus p = (d.continueWith p s).1.bus p := by
    rw [bus, party?, bus, party?, ← hc]
    rfl
  have hdir : (c.setTask id w).directory p = (d.continueWith p s).1.directory p := by
    rw [directory, party?, directory, party?, ← hc]
    rfl
  refine ⟨s, hs, hdir.trans (directory_setMember hd s.1), fun q hq => ⟨q, ?_⟩, fun r hr => ?_⟩
  · rw [wait?_setTask_self c id hparty, hw, hbus, continueWith, hq]
    rfl
  · rw [wait?_setTask_self c id hparty, hw, continueWith, hr]
    rfl

/-! ### The steps of the tasks of a party -/

/-- A call reaches the store, or its routine goes on with what it yields. -/
theorem stepFlight_eq_some {f : Flight} {r : Cluster × (Wait ⊕ Except Failure Unit)}
    (hl : c.leased? p = some l) (hr : c.stepFlight p f = some r) :
    r.1.leased? p = c.leased? p ∨
      ∃ s, l.member.Turn c.now (some (.call f)) s ∧ r = c.continueWith p s := by
  rw [stepFlight, hl] at hr
  obtain ⟨l', hl', hr⟩ := Option.bind_eq_some_iff.1 hr
  obtain rfl := Option.some.inj hl'
  split at hr
  · next hreply =>
      split at hr
      · obtain rfl := Option.some.inj hr
        exact .inl rfl
      · split at hr
        · next hn hd =>
            obtain rfl := Option.some.inj hr
            have hlate : f.deadline < f.actsAt := by omega
            exact .inr ⟨_, .resumes (.unsent hreply hlate hd), rfl⟩
        · cases hr
  · next reply hreply =>
      split at hr
      · next hdue =>
          obtain rfl := Option.some.inj hr
          exact .inr ⟨_, .resumes (.answer hreply hdue.1 hdue.2), rfl⟩
      · split at hr
        · next hn hd =>
            obtain rfl := Option.some.inj hr
            have hlate : f.deadline < f.answersAt := by omega
            exact .inr ⟨_, .resumes (.unheard hreply hlate hd), rfl⟩
        · cases hr

/-- What a routine waits for stays on its way, or the routine takes a turn. -/
theorem stepWait_eq_some {w : Wait} {r : Cluster × (Wait ⊕ Except Failure Unit)}
    (hl : c.leased? p = some l) (hr : c.stepWait p w = some r) :
    r.1.leased? p = c.leased? p ∨
      ∃ (d : Cluster) (s : Member × Next), d.leased? p = some l ∧
        l.member.Turn c.now (some w) s ∧ r = d.continueWith p s := by
  cases w with
  | call f =>
      rcases stepFlight_eq_some hl hr with h | ⟨s, hs, rfl⟩
      · exact .inl h
      · exact .inr ⟨c, s, hl, hs, rfl⟩
  | notice n q =>
      rw [stepWait] at hr
      split at hr
      · split at hr
        · cases hr
        · obtain rfl := Option.some.inj hr
          exact .inl (leased?_setBus c p _ p)
      · next b _ =>
          have hb : (c.setBus p b).leased? p = some l := (leased?_setBus c p b p).trans hl
          dsimp only at hr
          rw [member?, hb] at hr
          obtain rfl := Option.some.inj hr
          exact .inr ⟨c.setBus p b, _, hb, .told n q, rfl⟩

/-- A step of a task of the party leaves all look-ups as they are, or it is a turn of a routine. -/
theorem stepTask_took {t : Task} (hl : c.leased? p = some l) (hp : t.work.party = p)
    (h : c.stepTask t = some c') :
    c'.directory p = c.directory p ∨ Took p l.member c.now t.work.wait? c' t.id := by
  obtain ⟨id, work⟩ := t
  have hkeep {d : Cluster} {w : Option Work} (hd : d.leased? p = c.leased? p) :
      (d.setTask id w).directory p = c.directory p := directory_of_same hl hd
  cases work with
  | routine q w =>
      obtain rfl : q = p := hp
      rw [stepTask] at h
      dsimp only at h
      split at h
      · cases h
      · next d w' hs =>
          obtain rfl := Option.some.inj h
          rcases stepWait_eq_some hl hs with hd | ⟨e, s, he, ht, hr⟩
          · exact .inl (hkeep hd)
          · exact .inr (took_of_continueWith he ht (congrArg (·.1.parties) hr)
              (by simp [Work.party]) (congrArg (·.2.getLeft?) hr))
      · next d r hs =>
          obtain rfl := Option.some.inj h
          rcases stepWait_eq_some hl hs with hd | ⟨e, s, he, ht, hr⟩
          · exact .inl (hkeep (w := none) hd)
          · refine .inr (took_of_continueWith (c := { d with outcomes := _ }) he ht
              (congrArg (·.1.parties) hr) (by simp) (congrArg (·.2.getLeft?) hr))
  | keepAlive q loop =>
      obtain rfl : q = p := hp
      obtain ⟨r, hr, rfl⟩ := Option.map_eq_some_iff.1 h
      obtain he | ⟨w, s, rfl, hs, rfl⟩ := (stepKeepAlive_eq_some hr).2
      · exact .inl (hkeep (congrArg (·.leased? q) he))
      · rcases stepWait_eq_some hl hs with hd | ⟨e, s', he, ht, rfl⟩
        · exact .inl (hkeep hd)
        · refine .inr (took_of_continueWith he ht rfl (stepKeepAlive_eq_some hr).1 ?_)
          rcases (e.continueWith q s').2 with w' | (f | u) <;> rfl
  | watch q loop =>
      obtain rfl : q = p := hp
      obtain ⟨r, hr, rfl⟩ := Option.map_eq_some_iff.1 h
      obtain ⟨he, -⟩ | rfl | ⟨_, _, read, rest, events, rfl, rfl⟩ | ⟨_, _, w, s, rfl, hs, rfl⟩ :=
        stepWatch_eq_some hr
      · exact .inl (hkeep (congrArg (·.leased? q) he))
      · exact .inl (directory_watchBroke hl)
      · right
        have hm : c.member? q = some l.member := by rw [member?, hl]; rfl
        rw [applyBatch, hm]
        dsimp only
        refine took_of_continueWith hl (.applies events) ?_ ?_ ?_
        · split <;> (next hw => rw [hw])
        · split <;> simp [Work.party]
        · split <;> (next hw => rw [hw]; rfl)
      · rcases stepWait_eq_some hl hs with hd | ⟨e, s', he, ht, rfl⟩
        · exact .inl (hkeep hd)
        · refine .inr (took_of_continueWith he ht rfl (by simp [Work.party]) ?_)
          cases (e.continueWith q s').2 <;> rfl
  | follow q sink who =>
      obtain rfl : q = p := hp
      obtain ⟨r, hr, rfl⟩ := Option.map_eq_some_iff.1 h
      exact .inl (hkeep (spares_stepFollow hr).leased)

/-- Events that are handed over from outside are applied at once, up to the first change. -/
theorem start_apply_took (hl : c.leased? p = some l) (ht : c.Tidy) (es : List Event) :
    Took p l.member c.now none (c.start p (.apply es)) c.nextTask := by
  have hm : c.member? p = some l.member := by rw [member?, hl]; rfl
  have hset : (c.setMember p (l.member.applyEvents es).1).Tidy :=
    ht.of_eq (setMember_tasks c p _) (setMember_nextTask c p _)
  have hnext : (c.setMember p (l.member.applyEvents es).1).nextTask = c.nextTask :=
    setMember_nextTask c p _
  rw [start, hm]
  refine ⟨_, .applies es, ?_, fun q hq => ⟨q, ?_⟩, fun r hr => ?_⟩
  · refine Eq.trans ?_ (directory_setMember hl (l.member.applyEvents es).1)
    dsimp only
    split
    · next d w hd =>
        obtain rfl := (Prod.mk.inj hd).1
        rfl
    · next d r hd =>
        obtain rfl := (Prod.mk.inj hd).1
        rfl
  · simp only [Member.start, continueWith, hq, issue]
    rw [wait?, work?_spawn hset, if_pos hnext.symm]
    exact congrArg (Option.bind · Work.wait?) (if_pos rfl)
  · simp only [Member.start, continueWith, hr, issue]
    have hnone : (c.setMember p (l.member.applyEvents es).1).task? c.nextTask = none :=
      hset.task?_eq_none (Nat.le_of_eq hnext)
    rw [wait?, work?, task?]
    rw [task?] at hnone
    rw [hnone]
    rfl

end Cluster

/-! ### Acts and runs -/

namespace Cluster

variable {c : Cluster} {p : String} {σ : Scene} {a : Act} {acts : List Act}

/-- The task that goes on with an act, or begins with it. -/
def Act.task? (c : Cluster) : Act → Option Nat
  | step id => some id
  | start _ _ => some c.nextTask
  | _ => none

def GivesUp (p : String) (c : Cluster) (a : Act) : Prop :=
  ∃ id, a = .step id ∧ ∃ f ∈ c.flight? p id, ∃ m ∈ c.member? p, m.GivesUp c.now f

/-- Whatever makes a difference to look-ups is a turn of a routine. -/
theorem Shows.act_took (h : c.Shows p σ) (ht : c.Tidy) (ha : ∀ P, a ≠ .join p P)
    (hne : (c.act a).directory p ≠ c.directory p) :
    ∃ id, a.task? c = some id ∧ Took p σ.member c.now (c.wait? p id) (c.act a) id ∧
      (a = .step id ∨ c.wait? p id = none) := by
  obtain ⟨σ', h', hstep⟩ := h.act ht ha
  have hσ : σ'.member.directory ≠ σ.member.directory := by rwa [h.directory, h'.directory] at hne
  have hstart (r : Routine) (hr : (σ.member.start σ.now r).1.directory ≠ σ.member.directory)
      (he : a = .start p r) : ∃ id, a.task? c = some id ∧
        Took p σ.member c.now (c.wait? p id) (c.act a) id ∧
          (a = .step id ∨ c.wait? p id = none) := by
    subst he
    have hnone : c.wait? p c.nextTask = none := by
      rw [Cluster.wait?, work?, ht.task?_eq_none (Nat.le_refl _)]
      rfl
    refine ⟨c.nextTask, rfl, ?_, .inr hnone⟩
    cases r with
    | upkeep => exact absurd rfl hr
    | apply es =>
        rw [hnone]
        exact start_apply_took h.leased ht es
    | withdrawal => exact absurd rfl hr
  cases hstep with
  | elsewhere hsp hother =>
      rw [Scene.member, hsp.leased] at hσ
      exact absurd rfl hσ
  | waits hw hidle => exact absurd rfl hσ
  | @steps id w w' m s hw hg =>
      obtain ⟨htask, hparty⟩ := work?_eq_some_iff.1 ((h.work id).trans hw)
      have hwait : c.wait? p id = w.wait? := by
        rw [Cluster.wait?, h.work id, hw]
        rfl
      rw [Cluster.act, htask] at hne ⊢
      refine ⟨id, rfl, ?_, .inl rfl⟩
      dsimp only at hne ⊢
      cases hs : c.stepTask ⟨id, w⟩ with
      | none =>
          rw [hs] at hne
          exact absurd rfl hne
      | some c' =>
          rw [hs] at hne
          rw [hwait]
          exact (stepTask_took h.leased hparty hs).resolve_left hne
  | slows k d => exact absurd rfl hσ
  | starts hi => exact hstart _ hσ rfl
  | startsAndEnds hi => exact hstart _ hσ rfl
  | registers hc hs => exact absurd rfl hσ
  | drops id => exact absurd rfl hσ
  | feedsIn what => exact absurd rfl hσ

/-- Unless the party gives up, whatever makes a difference to look-ups is about to be told. -/
theorem Shows.announces_of_directory_ne (h : c.Shows p σ) (ht : c.Tidy) (hp : σ.member.IsProper)
    (ha : ∀ P, a ≠ .join p P) (hne : (c.act a).directory p ≠ c.directory p)
    (hnot : ¬c.GivesUp p a) : ∃ id, a.task? c = some id ∧ (c.act a).Announces p id := by
  obtain ⟨id, htask, ⟨s, hturn, hdir, htold, -⟩, hstep⟩ := h.act_took ht ha hne
  have hmember : s.1.directory ≠ σ.member.directory := by
    rw [← hdir, ← h.directory]
    exact hne
  rcases hturn.cases_of_directory_ne hp hmember with ⟨q, hq⟩ | ⟨f, hf, hgives⟩
  · exact ⟨id, htask, htold q hq⟩
  · rcases hstep with rfl | hnone
    · exact absurd ⟨id, rfl, f, mem_flight?_iff.2 hf, σ.member, h.member?, hgives⟩ hnot
    · cases hf.symm.trans hnone

theorem Shows.isProper_play (h : c.Shows p σ) (ht : c.Tidy) (hp : σ.member.IsProper)
    (hstays : Along (Stays p) c acts) :
    (c.play acts).Tidy ∧ ∃ σ', (c.play acts).Shows p σ' ∧ σ'.member.IsProper :=
  h.knows_play Topology.isKept_proper ht hp hstays

instance (p : String) (c : Cluster) (a : Act) : Decidable (c.GivesUp p a) :=
  decidable_of_iff
    (∃ id ∈ a.step?, ∃ f ∈ c.flight? p id, ∃ m ∈ c.member? p, m.GivesUp c.now f)
    (by simp only [GivesUp, Act.eq_step_iff])

/-- Whenever a look-up comes out differently after an act than before, the task that acted is about
to tell everyone who watches now, unless a renewal has just failed once too often. -/
theorem change_announced_iff (hnew : c.New p) (hstays : Along (Stays p) c (acts ++ [a])) :
    let before := c.play acts
    let after := before.act a
    (∃ name, (after.directory p).service name ≠ (before.directory p).service name) ∨
        (after.directory p).names ≠ (before.directory p).names →
      ((∃ id, a.task? before = some id ∧ after.Announces p id) ↔ ¬before.GivesUp p a) := by
  intro before after hchange
  obtain ⟨σ, h⟩ := hnew.hasMember.shows
  obtain ⟨hbefore, hnow, -⟩ := along_append.1 hstays
  have hproper : σ.member.IsProper := by
    rw [hnew.member σ.member h.member?]
    exact Member.isProper_of_snapshot_eq_none rfl
  obtain ⟨htidy, σ₁, h₁, hp⟩ := h.isProper_play hnew.tidy hproper hbefore
  have hne : after.directory p ≠ before.directory p := by
    intro he
    rw [he] at hchange
    rcases hchange with ⟨name, hn⟩ | hn
    · exact hn rfl
    · exact hn rfl
  constructor
  · rintro ⟨id', htask', q, hq⟩ ⟨i, rfl, f, hf, m, -, hgives⟩
    obtain ⟨id, htask, ⟨s, hturn, -, -, hdone⟩, -⟩ := h₁.act_took htidy hnow hne
    obtain rfl : i = id := Option.some.inj htask
    obtain rfl : i = id' := Option.some.inj htask'
    -- whatever the answer to a renewal is, the round ends with it
    rw [mem_flight?_iff.1 hf] at hturn
    obtain ⟨r, hr⟩ : ∃ r, s.2 = .done r := by
      cases hturn with
      | resumes hy => exact ⟨_, Member.resume_of_keepAlive hgives.1 _⟩
    cases (hdone r hr).symm.trans hq
  · exact h₁.announces_of_directory_ne htidy hp hnow hne

/-- A member that gives up at the first renewal that fails, and one who watches it. -/
def watched : Cluster :=
  (({} : Cluster).act (.join "m" ⟨.new 16 .block, .leased {
    member := {
      node := Node.new "svc-a" "10.0.0.1" 9001
      settings := { maxKeepAliveRetry := 1 } }
    store := 0 }⟩))

def registering : List Act :=
  [.useBus "m" .subscribe, .start "m" .upkeep] ++ List.replicate 5 (.step 0)

/-- The watcher has heard of the first snapshot. Then the store rejects a renewal. -/
def losingLease : List Act :=
  registering ++ List.replicate 4 (.step 0) ++
    [.useBus "m" (.drain 0 16), .use 0 (.setRejectsKeepAlive true), .start "m" .upkeep, .step 1]

/-- The first snapshot is announced. -/
theorem change_announced_iff_registering :
    watched.New "m" ∧ Along (Stays "m") watched (registering ++ [.step 0]) ∧
      ((watched.play registering).directory "m").names = .error .notReady ∧
      (((watched.play registering).act (.step 0)).directory "m").names = .ok ["svc-a"] ∧
      ∃ id, Act.task? (watched.play registering) (.step 0) = some id ∧
        ((watched.play registering).act (.step 0)).Announces "m" id := by
  have hnew : watched.New "m" := new_join rfl rfl _
  have hstays : Along (Stays "m") watched (registering ++ [.step 0]) := by decide +kernel
  have hbefore : ((watched.play registering).directory "m").names = .error .notReady := by
    decide +kernel
  have hafter : (((watched.play registering).act (.step 0)).directory "m").names =
      .ok ["svc-a"] := by
    decide +kernel
  have hne : (((watched.play registering).act (.step 0)).directory "m").names ≠
      ((watched.play registering).directory "m").names := by
    rw [hbefore, hafter]
    rintro ⟨⟩
  refine ⟨hnew, hstays, hbefore, hafter, ?_⟩
  exact (change_announced_iff hnew hstays (.inr hne)).2 (by decide +kernel)

/-- The loss of the snapshot is not: nothing is left to do, and the watcher has no signal. -/
theorem gaveUp_unannounced :
    let before := watched.play losingLease
    let after := before.act (.step 1)
    watched.New "m" ∧ Along (Stays "m") watched (losingLease ++ [.step 1]) ∧
      (before.directory "m").names = .ok ["svc-a"] ∧
      (after.directory "m").names = .error .notReady ∧
      (∀ id, ¬after.Announces "m" id) ∧
      (after.bus "m").sinks = [⟨0, 16, 0, true⟩] := by
  intro before after
  have hnone : after.tasks.length = 0 := by decide +kernel
  refine ⟨new_join rfl rfl _, by decide +kernel, by decide +kernel, by decide +kernel, ?_,
    by decide +kernel⟩
  rintro id ⟨q, hq⟩
  obtain ⟨t, ht, -⟩ := exists_task_of_wait? hq
  rw [List.eq_nil_of_length_eq_zero hnone] at ht
  cases ht

end Cluster

end ServiceMesh
