import ServiceMesh.Proofs.Cluster.View

/-!
What the routines of a member leave alone, and what they wait for. Only a withdrawal cancels a
member, and once that is done nothing goes on but what is waiting for an answer.
-/

namespace ServiceMesh

namespace Member

/-- The members differ only in what they have learned from the store. -/
structure Alike (m m' : Member) : Prop where
  node : m'.node = m.node
  settings : m'.settings = m.settings
  isCancelled : m'.isCancelled = m.isCancelled
  isStarted : m'.isStarted = m.isStarted

theorem Alike.refl (m : Member) : m.Alike m := ⟨rfl, rfl, rfl, rfl⟩

theorem Alike.trans {m m' m'' : Member} (h : m.Alike m') (h' : m'.Alike m'') : m.Alike m'' where
  node := h'.node.trans h.node
  settings := h'.settings.trans h.settings
  isCancelled := h'.isCancelled.trans h.isCancelled
  isStarted := h'.isStarted.trans h.isStarted

/-- Events touch the snapshot only. -/
theorem applyEvents_fst (m : Member) (es : List Event) :
    ∃ t, (m.applyEvents es).1 = { m with snapshot := t } := by
  induction es generalizing m with
  | nil => exact ⟨m.snapshot, rfl⟩
  | cons e es ih =>
      rw [applyEvents]
      split
      · exact ih m
      · next t _ =>
          dsimp only
          split
          · exact ⟨_, rfl⟩
          · exact ih _

theorem alike_applyEvents (m : Member) (es : List Event) : m.Alike (m.applyEvents es).1 := by
  obtain ⟨t, ht⟩ := m.applyEvents_fst es
  rw [ht]
  exact ⟨rfl, rfl, rfl, rfl⟩

/-- After events a routine tells the watchers of a change, or is done. -/
theorem applyEvents_snd (m : Member) (es : List Event) :
    (∃ rest, (m.applyEvents es).2 = .notify (.applied rest)) ∨
      (m.applyEvents es).2 = .done (.ok ()) := by
  induction es generalizing m with
  | nil => exact .inr rfl
  | cons e es ih =>
      rw [applyEvents]
      split
      · exact ih m
      · next t _ =>
          dsimp only
          split
          · exact .inl ⟨es, rfl⟩
          · exact ih _

theorem alike_renewalFailed (m : Member) : m.Alike m.renewalFailed := by
  rw [renewalFailed]
  split <;> exact ⟨rfl, rfl, rfl, rfl⟩

theorem alike_resume (m : Member) (now : Nat) (p : CallPoint) (r : Except Failure p.Reply) :
    m.Alike (m.resume now p r).1 := by
  cases p with
  | grant =>
      cases r with
      | error f => exact .refl m
      | ok lease =>
          rw [resume]
          split <;> exact .refl m
  | publish lease =>
      cases r with
      | error f => exact .refl m
      | ok u =>
          rw [resume]
          split
          · exact .refl m
          · exact ⟨rfl, rfl, rfl, rfl⟩
  | withdraw => exact .refl m
  | scan =>
      cases r with
      | error f => exact .refl m
      | ok records =>
          rw [resume]
          split
          · exact .refl m
          · exact ⟨rfl, rfl, rfl, rfl⟩
  | renew lease =>
      cases r with
      | error f =>
          rw [resume]
          split
          · exact .refl m
          · exact m.alike_renewalFailed
      | ok u =>
          rw [resume]
          split
          · exact .refl m
          · exact ⟨rfl, rfl, rfl, rfl⟩
  | retire => exact ⟨rfl, rfl, rfl, rfl⟩

/-- Nothing but a withdrawal cancels a member. -/
theorem alike_start (m : Member) (now : Nat) {r : ServiceMesh.Routine} (hr : r ≠ .withdrawal) :
    m.Alike (m.start now r).1 := by
  cases r with
  | upkeep => exact .refl m
  | apply es => exact m.alike_applyEvents es
  | withdrawal => exact absurd rfl hr

theorem isCancelled_start (m : Member) (now : Nat) (r : ServiceMesh.Routine)
    (h : m.isCancelled = true) : (m.start now r).1.isCancelled = true := by
  by_cases hr : r = .withdrawal
  · subst hr
    rfl
  · exact (m.alike_start now hr).isCancelled.trans h

theorem node_start (m : Member) (now : Nat) (r : ServiceMesh.Routine) :
    (m.start now r).1.node = m.node := by
  by_cases hr : r = .withdrawal
  · subst hr
    rfl
  · exact (m.alike_start now hr).node

theorem alike_notified (m : Member) (p : NoticePoint) : m.Alike (m.notified p).1 := by
  cases p with
  | synced => exact .refl m
  | applied rest => exact m.alike_applyEvents rest
  | finished => exact .refl m

end Member

/-! ### What tasks wait for -/

inductive Errand where
  | upkeep
  | application
  | withdrawal
  deriving DecidableEq

def CallPoint.errand : CallPoint → Errand
  | retire => .withdrawal
  | _ => .upkeep

def NoticePoint.errand : NoticePoint → Errand
  | synced => .upkeep
  | applied _ => .application
  | finished => .withdrawal

def Wait.errand : Wait → Errand
  | .call f => f.point.errand
  | .notice _ p => p.errand

def Next.IsFor (e : Errand) : Next → Prop
  | .call p => p.errand = e
  | .notify p => p.errand = e
  | .done _ => True

namespace Member

/-- A finished withdrawal is done. -/
theorem notified_of_withdrawal (m : Member) {p : NoticePoint} (h : p.errand = .withdrawal) :
    m.notified p = (m, .done (.ok ())) := by
  cases p with
  | finished => rfl
  | _ => cases h

theorem isFor_renewStep (m : Member) : m.renewStep.IsFor .upkeep := by
  rw [renewStep]
  split <;> trivial

theorem isFor_syncStep (m : Member) (now : Nat) : (m.syncStep now).IsFor .upkeep := by
  rw [syncStep]
  split
  · rfl
  · exact m.isFor_renewStep

theorem isFor_tick (m : Member) (now : Nat) : (m.tick now).IsFor .upkeep := by
  rw [tick]
  split
  · trivial
  · split
    · rfl
    · exact m.isFor_syncStep now

theorem isFor_applyEvents (m : Member) (es : List Event) :
    (m.applyEvents es).2.IsFor .application := by
  rcases m.applyEvents_snd es with ⟨rest, h⟩ | h
  · rw [h]; rfl
  · rw [h]; trivial

theorem isFor_resume (m : Member) (now : Nat) (p : CallPoint) (r : Except Failure p.Reply) :
    (m.resume now p r).2.IsFor p.errand := by
  cases p with
  | grant =>
      cases r with
      | error f => trivial
      | ok lease =>
          rw [resume]
          split
          · trivial
          · rfl
  | publish lease =>
      cases r with
      | error f => trivial
      | ok u =>
          rw [resume]
          split
          · rfl
          · exact isFor_syncStep _ now
  | withdraw => trivial
  | scan =>
      cases r with
      | error f => exact m.isFor_renewStep
      | ok records =>
          rw [resume]
          split
          · exact m.isFor_renewStep
          · rfl
  | renew lease =>
      cases r <;>
        (rw [resume]; split <;> trivial)
  | retire => rfl

theorem isFor_notified (m : Member) (p : NoticePoint) : (m.notified p).2.IsFor p.errand := by
  cases p with
  | synced => exact m.isFor_renewStep
  | applied rest => exact m.isFor_applyEvents rest
  | finished => trivial

end Member

theorem Leased.Issues.errand {l : Leased} {now : Nat} {n : Next} {r : Wait ⊕ Except Failure Unit}
    {e : Errand} (h : l.Issues now n r) (hn : n.IsFor e) : ∀ y ∈ r.getLeft?, y.errand = e := by
  intro y hy
  cases h with
  | done r => cases hy
  | notify n p =>
      obtain rfl := Option.some.inj hy
      exact hn
  | call p =>
      obtain rfl := Option.some.inj hy
      exact hn

/-- Only what needs a call makes one. -/
theorem Leased.Issues.getLeft?_ne_call {l : Leased} {now : Nat} {n : Next}
    {r : Wait ⊕ Except Failure Unit} (h : l.Issues now n r) (hn : ∀ q, n ≠ .call q) (f : Flight) :
    r.getLeft? ≠ some (.call f) := by
  cases h with
  | done r => rintro ⟨⟩
  | notify n p => rintro ⟨⟩
  | call p => exact absurd rfl (hn p)

/-- A call that sets out has no answer yet. -/
theorem Leased.Issues.reply_eq_none {l : Leased} {now : Nat} {n : Next}
    {r : Wait ⊕ Except Failure Unit} (h : l.Issues now n r) {f : Flight}
    (hf : r.getLeft? = some (.call f)) : f.reply = none := by
  cases h with
  | done r => cases hf
  | notify n p => cases hf
  | call p =>
      cases hf
      rfl

/-- What a routine waits for next is for the same errand. -/
theorem Scene.Advances.errand {σ : Scene} {x : Wait} {m : Member} {s : Store}
    {r : Wait ⊕ Except Failure Unit} (h : σ.Advances x m s r) :
    ∀ y ∈ r.getLeft?, y.errand = x.errand := by
  cases h with
  | acts hr hdue hin =>
      intro y hy
      obtain rfl := Option.some.inj hy
      rfl
  | resumes hy hr => exact hr.errand (Member.isFor_resume _ _ _ _)
  | held n' =>
      intro y hy
      obtain rfl := Option.some.inj hy
      rfl
  | told hr => exact hr.errand (Member.isFor_notified _ _)

/-! ### Calls -/

namespace CallPoint

variable {m : Member} {s : Store} {p : CallPoint}

/-- A call that fails changes nothing. -/
theorem perform_of_error {f : Failure} (h : (p.perform m s).2 = .error f) :
    (p.perform m s).1 = s := by
  cases p with
  | scan => rfl
  | renew lease => rfl
  | grant =>
      rw [perform] at h ⊢
      split
      · next hs => rw [hs] at h; cases h
      · rfl
  | publish lease =>
      rw [perform] at h ⊢
      split
      · next hs => rw [hs] at h; cases h
      · rfl
  | withdraw =>
      rw [perform] at h ⊢
      split
      · next hs => rw [hs] at h; cases h
      · rfl
  | retire =>
      rw [perform] at h ⊢
      split
      · next hs => rw [hs] at h; cases h
      · rfl

/-- After a deletion the record of the member is gone. -/
theorem get?_perform_of_delete (hp : p.kind = .delete) {r : p.Reply}
    (h : (p.perform m s).2 = .ok r) : (p.perform m s).1.get? m.node.path = none := by
  cases p with
  | withdraw =>
      rw [perform] at h ⊢
      split
      · next hs => exact Store.get?_of_delete hs
      · next hs => rw [hs] at h; cases h
  | retire =>
      rw [perform] at h ⊢
      split
      · next hs => exact Store.get?_of_delete hs
      · next hs => rw [hs] at h; cases h
  | _ => cases hp

/-- After a publication the record of the member is there. -/
theorem get?_perform_of_put (hp : p.kind = .put) {r : p.Reply} (h : (p.perform m s).2 = .ok r) :
    (p.perform m s).1.get? m.node.path = some m.node.encode := by
  cases p with
  | publish lease =>
      rw [perform] at h ⊢
      split
      · next hs =>
          obtain ⟨hr, -⟩ := Store.put_eq_ok hs
          simp [Store.get?, hr]
      · next hs => rw [hs] at h; cases h
  | _ => cases hp

/-- All other calls leave every record alone. -/
theorem get?_perform (hd : p.kind ≠ .delete) (hp : p.kind ≠ .put) (k : String) :
    (p.perform m s).1.get? k = s.get? k := by
  cases p with
  | grant =>
      rw [perform]
      split
      · next hs => rw [Store.get?, (Store.grant_eq_ok hs).1]; rfl
      · rfl
  | publish lease => exact absurd rfl hp
  | withdraw => exact absurd rfl hd
  | scan => rfl
  | renew lease => rfl
  | retire => exact absurd rfl hd

end CallPoint

namespace Member

variable {m : Member} {now : Nat} {p : CallPoint}

/-- A withdrawn member that learns of its publication takes it back. -/
theorem resume_put_of_isCancelled (hp : p.kind = .put) (hc : m.isCancelled = true) (r : p.Reply) :
    m.resume now p (.ok r) = (m, .call .withdraw) := by
  cases p with
  | publish lease => rw [resume, if_pos hc]
  | _ => cases hp

theorem resume_put_error (hp : p.kind = .put) (f : Failure) :
    m.resume now p (.error f) = (m, .done (.error f)) := by
  cases p with
  | publish lease => rfl
  | _ => cases hp

/-- A deletion is the last call of its routine. -/
theorem resume_delete_ne_call (hp : p.kind = .delete) (r : Except Failure p.Reply) (q : CallPoint) :
    (m.resume now p r).2 ≠ .call q := by
  cases p with
  | withdraw => rintro ⟨⟩
  | retire => rintro ⟨⟩
  | _ => cases hp

end Member

namespace Scene

def wait? (σ : Scene) (id : Nat) : Option Wait := (σ.work id).bind Work.wait?

theorem wait?_setWork (σ : Scene) (id : Nat) (w : Option Work) (i : Nat) :
    (σ.setWork id w).wait? i = if i = id then w.bind Work.wait? else σ.wait? i := by
  rw [wait?, setWork_work]
  split <;> rfl

theorem wait?_spawn (σ : Scene) (w : Work) (i : Nat) :
    (σ.spawn w).wait? i = if i = σ.nextTask then w.wait? else σ.wait? i := by
  rw [wait?, spawn_work]
  split <;> rfl

@[simp] theorem wait?_put (σ : Scene) (m : Member) (s : Store) (i : Nat) :
    (σ.put m s).wait? i = σ.wait? i := rfl

/-- What is put into the stream of a member waits there. -/
@[simp] theorem wait?_feedIn (σ : Scene) (what : Injection) (i : Nat) :
    (σ.feedIn what).wait? i = σ.wait? i := by
  change ((σ.work i).map _).bind _ = (σ.work i).bind _
  cases σ.work i with
  | none => rfl
  | some w =>
      cases w with
      | watch q loop => cases loop <;> rfl
      | _ => rfl

variable {σ σ' : Scene} {p : String} {m : Member} {s : Store} {a : Cluster.Act}

theorem Advances.alike {x : Wait} {r : Wait ⊕ Except Failure Unit} (h : σ.Advances x m s r) :
    σ.member.Alike m := by
  cases h with
  | acts hr hdue hin => exact .refl _
  | resumes hy hr => exact Member.alike_resume _ _ _ _
  | held n' => exact .refl _
  | told hr => exact Member.alike_notified _ _

theorem Goes.alike {w : Work} {w' : Option Work} (h : σ.Goes p w m s w') : σ.member.Alike m := by
  cases h with
  | routine ha => exact ha.alike
  | routineEnds ha => exact ha.alike
  | ticking ha => exact ha.alike
  | tickEnds ha hl => exact ha.alike
  | applying ha => exact ha.alike
  | hands hc hn hr => exact Member.alike_applyEvents _ _
  | handsBatch hc hn hr => exact Member.alike_applyEvents _ _
  | refused hc => exact ⟨rfl, rfl, rfl, rfl⟩
  | breaks hc => exact ⟨rfl, rfl, rfl, rfl⟩
  | _ => exact .refl _

theorem wait?_of_isResting {loop : KeepAliveLoop} (h : loop.IsResting) (q : String) :
    (Work.keepAlive q loop).wait? = none := by
  cases loop with
  | ticking w => exact h.elim
  | _ => rfl

theorem wait?_watch_of_isResting {loop : WatchLoop} (h : loop.IsResting) (q : String) :
    (Work.watch q loop).wait? = none := by
  cases loop with
  | applying feed injected w => exact h.elim
  | _ => rfl

theorem wait?_after (q : String) (feed : Feed) (injected : List Injection)
    (r : Wait ⊕ Except Failure Unit) :
    (Work.watch q (.after feed injected r)).wait? = r.getLeft? := by
  cases r <;> rfl

/-- A task that is not a watch loop does not become one. -/
theorem Goes.not_watch {w : Work} {w' : Option Work} (h : σ.Goes p w m s w')
    (hw : ∀ q loop, w ≠ .watch q loop) : ∀ v ∈ w', ∀ q loop, v ≠ .watch q loop := by
  intro v hv q loop
  cases h with
  | routine ha => cases hv; rintro ⟨⟩
  | routineEnds ha => cases hv
  | ticks hc hdue hi => cases hv; rintro ⟨⟩
  | ticking ha => cases hv; rintro ⟨⟩
  | tickEnds ha hl => cases hv; rintro ⟨⟩
  | rests hc hl hl' => cases hv; rintro ⟨⟩
  | keepAliveEnds hc hl => cases hv
  | follows hf =>
      obtain rfl := hf v hv
      rintro ⟨⟩
  | _ => exact absurd rfl (hw _ _)

/-- A task in the middle of a routine goes on with it. -/
theorem Goes.advances {w : Work} {w' : Option Work} (h : σ.Goes p w m s w') {x : Wait}
    (hx : w.wait? = some x) : ∃ r, σ.Advances x m s r ∧ w'.bind Work.wait? = r.getLeft? := by
  cases h with
  | routine ha =>
      obtain rfl := Option.some.inj hx
      exact ⟨_, ha, rfl⟩
  | routineEnds ha =>
      obtain rfl := Option.some.inj hx
      exact ⟨_, ha, rfl⟩
  | ticking ha =>
      obtain rfl := Option.some.inj hx
      exact ⟨_, ha, rfl⟩
  | tickEnds ha hl =>
      obtain rfl := Option.some.inj hx
      exact ⟨_, ha, wait?_of_isResting hl p⟩
  | applying ha =>
      obtain rfl := Option.some.inj hx
      exact ⟨_, ha, wait?_after p _ _ _⟩
  | rests hc hl hl' => cases (wait?_of_isResting hl p).symm.trans hx
  | keepAliveEnds hc hl => cases (wait?_of_isResting hl p).symm.trans hx
  | watchEnds hc hl => cases (wait?_watch_of_isResting hl p).symm.trans hx
  | _ => cases hx

/-- A task of a withdrawn member that is not in the middle of a routine has nothing more to do. -/
theorem Goes.of_isCancelled {w : Work} {w' : Option Work} (h : σ.Goes p w m s w')
    (hc : σ.member.isCancelled = true) (hx : w.wait? = none) :
    m = σ.member ∧ s = σ.store ∧ w'.bind Work.wait? = none := by
  have hnot {P : Prop} (hn : σ.member.isCancelled = false) : P := by
    rw [hc] at hn
    cases hn
  -- every loop looks at the withdrawal before it goes on
  cases h with
  | routine ha => cases hx
  | routineEnds ha => cases hx
  | ticking ha => cases hx
  | tickEnds ha hl => cases hx
  | applying ha => cases hx
  | keepAliveEnds _ hl => exact ⟨rfl, rfl, rfl⟩
  | watchEnds _ hl => exact ⟨rfl, rfl, rfl⟩
  | follows hw =>
      refine ⟨rfl, rfl, ?_⟩
      cases w' with
      | none => rfl
      | some w'' =>
          obtain rfl := hw w'' rfl
          rfl
  | ticks hn _ _ => exact hnot hn
  | rests hn _ _ => exact hnot hn
  | subscribes hn _ => exact hnot hn
  | streams hn => exact hnot hn
  | refused hn => exact hnot hn
  | breaks hn => exact hnot hn
  | reads hn _ => exact hnot hn
  | hands hn _ _ => exact hnot hn
  | handsBatch hn _ _ => exact hnot hn
  | resubscribes hn _ => exact hnot hn

theorem Advances.grows {x : Wait} {r : Wait ⊕ Except Failure Unit} (h : σ.Advances x m s r) :
    σ.store.Grows s := by
  cases h with
  | acts hr hdue hin => exact CallPoint.grows_perform _ _ _
  | _ => exact .refl _

theorem Goes.grows {w : Work} {w' : Option Work} (h : σ.Goes p w m s w') : σ.store.Grows s := by
  cases h with
  | routine ha => exact ha.grows
  | routineEnds ha => exact ha.grows
  | ticking ha => exact ha.grows
  | tickEnds ha hl => exact ha.grows
  | applying ha => exact ha.grows
  | _ => exact .refl _

/-- Whatever happens, the store grows. -/
theorem Step.grows (h : σ.Step p a σ') : σ.store.Grows σ'.store := by
  cases h with
  | elsewhere hsp hother => exact hsp.grows
  | steps hw hg => exact hg.grows
  | _ => exact .refl _

/-- A withdrawn member stays withdrawn. -/
theorem Step.isCancelled (h : σ.Step p a σ') (hc : σ.member.isCancelled = true) :
    σ'.member.isCancelled = true := by
  cases h with
  | elsewhere hsp hother => exact (congrArg (·.member.isCancelled) hsp.leased).trans hc
  | steps hw hg => exact hg.alike.isCancelled.trans hc
  | @starts r w hi => exact Member.isCancelled_start _ _ _ hc
  | @startsAndEnds r res hi => exact Member.isCancelled_start _ _ _ hc
  | _ => exact hc

/-- A member stays on its store. -/
theorem Step.leased_store (h : σ.Step p a σ') : σ'.leased.store = σ.leased.store := by
  cases h with
  | elsewhere hsp hother => rw [hsp.leased]
  | _ => rfl

/-- A member stays the member of its node. -/
theorem Step.node (h : σ.Step p a σ') : σ'.member.node = σ.member.node := by
  cases h with
  | elsewhere hsp hother => exact congrArg (·.member.node) hsp.leased
  | steps hw hg => exact hg.alike.node
  | @starts r w hi => exact Member.node_start _ _ r
  | @startsAndEnds r res hi => exact Member.node_start _ _ r
  | _ => rfl

end Scene

namespace Cluster

def wait? (c : Cluster) (p : String) (id : Nat) : Option Wait :=
  (c.work? p id).bind Work.wait?

def flight? (c : Cluster) (p : String) (id : Nat) : Option Flight :=
  match c.wait? p id with
  | some (.call f) => some f
  | _ => none

theorem mem_flight?_iff {c : Cluster} {p : String} {id : Nat} {f : Flight} :
    f ∈ c.flight? p id ↔ c.wait? p id = some (.call f) := by
  rw [flight?]
  split
  · next g hg => simp [hg, eq_comm]
  · next hno => exact ⟨(by rintro ⟨⟩), fun h => absurd h (hno f)⟩

/-- A routine that waits belongs to a task. -/
theorem exists_task_of_wait? {c : Cluster} {p : String} {id : Nat} {x : Wait}
    (h : c.wait? p id = some x) :
    ∃ t ∈ c.tasks, t.id = id ∧ t.work.party = p ∧ t.work.wait? = some x := by
  obtain ⟨w, hw, hx⟩ := Option.bind_eq_some_iff.1 h
  obtain ⟨ht, hp⟩ := work?_eq_some_iff.1 hw
  exact ⟨⟨id, w⟩, List.mem_of_find?_eq_some ht, rfl, hp, hx⟩

theorem Shows.wait? {c : Cluster} {p : String} {σ : Scene} (h : c.Shows p σ) (id : Nat) :
    c.wait? p id = σ.wait? id := by
  rw [Cluster.wait?, h.work, Scene.wait?]

/-! ### Newcomers -/

/-- The member of a party is as it was made, and nothing has been begun for it. -/
structure New (p : String) (c : Cluster) : Prop where
  tidy : c.Tidy
  hasMember : c.HasMember p
  member : ∀ m ∈ c.member? p, m = { node := m.node, settings := m.settings }
  tasks : ∀ t ∈ c.tasks, t.work.party = p → ∃ sink who, t.work = .follow p sink who

/-- Nobody takes the place of the party. -/
def Stays (p : String) (_ : Cluster) (a : Act) : Prop := ∀ P, a ≠ .join p P

instance (p : String) (c : Cluster) (a : Act) : Decidable (Stays p c a) :=
  match a with
  | .join q P => decidable_of_iff (q ≠ p) (by simp [Stays])
  | .step id => isTrue (by simp [Stays])
  | .pass ms => isTrue (by simp [Stays])
  | .use i op => isTrue (by simp [Stays])
  | .slow q k d => isTrue (by simp [Stays])
  | .start q r => isTrue (by simp [Stays])
  | .register q => isTrue (by simp [Stays])
  | .drop id => isTrue (by simp [Stays])
  | .feedIn q what => isTrue (by simp [Stays])
  | .useBus q op => isTrue (by simp [Stays])

/-- A newcomer is not in the middle of anything. -/
theorem New.wait?_eq_none {p : String} {c : Cluster} (h : c.New p) (id : Nat) :
    c.wait? p id = none := by
  cases hx : c.wait? p id with
  | none => rfl
  | some x =>
      obtain ⟨t, ht, -, hp, hw⟩ := exists_task_of_wait? hx
      obtain ⟨sink, who, he⟩ := h.tasks t ht hp
      rw [he] at hw
      cases hw

/-- Whoever joins first is a newcomer. -/
theorem new_join {p : String} {l : Leased} (hl : l.store = 0)
    (hm : l.member = { node := l.member.node, settings := l.member.settings }) (b : Bus) :
    (({} : Cluster).act (.join p ⟨b, .leased l⟩)).New p := by
  have hleased : (({} : Cluster).act (.join p ⟨b, .leased l⟩)).leased? p = some l := by
    rw [act, leased?, party?_setParty, if_pos rfl]
  refine ⟨(by rintro _ ⟨⟩), ⟨l, hleased, hl ▸ Nat.one_pos⟩, fun m h => ?_, (by rintro _ ⟨⟩)⟩
  rw [member?, hleased] at h
  obtain rfl := Option.some.inj h
  exact hm

end Cluster

end ServiceMesh
