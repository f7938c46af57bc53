import ServiceMesh.Proofs.Lease.Rounds

/-!
The member of a cluster is a member under upkeep. As long as nobody withdraws it and its rounds do
not overlap, what happens to it in a run is a run of its upkeep, in which the calls are answered as
the store answers them. So what every upkeep keeps is kept by the member of a cluster.
-/

namespace ServiceMesh

/-- The call is answered like this, whatever others would be. -/
def CallPoint.answer (p : CallPoint) (r : Except Failure p.Reply) (q : CallPoint) :
    Except Failure q.Reply :=
  if h : p = q then h ▸ r else .error default

theorem CallPoint.answer_self (p : CallPoint) (r : Except Failure p.Reply) : p.answer r p = r := by
  rw [answer, dif_pos rfl]

theorem Upkeep.play_append (u : Upkeep) (acts acts' : List Act) :
    u.play (acts ++ acts') = (u.play acts).play acts' := List.foldl_append

/-- What others do to a member takes its round no further. -/
theorem Member.Heeds.upkeep {m m' : Member} {es : List Event} (h : m.Heeds es m')
    (point? : Option RoundPoint) :
    ∃ acts, (⟨m, point?⟩ : Upkeep).play acts = ⟨m', point?⟩ := by
  cases h with
  | nothing => exact ⟨[], rfl⟩
  | events => exact ⟨[.applies es], rfl⟩
  | «break» => exact ⟨[.watchBreaks], rfl⟩
  | started => exact ⟨[.starts], rfl⟩

namespace Scene

variable {p : String} {σ σ' : Scene} {a : Cluster.Act} {o o' : Option (Nat × Wait)}

def upkeep (σ : Scene) (o : Option (Nat × Wait)) : Upkeep :=
  ⟨σ.member, o.bind fun r => r.2.roundPoint?⟩

theorem Continues.goesOn {s : Member × Next} {r : Wait ⊕ Except Failure Unit}
    (h : σ.Continues s r) : Upkeep.goesOn s = ⟨s.1, r.getLeft?.bind Wait.roundPoint?⟩ := by
  obtain ⟨m, n⟩ := s
  cases h with
  | done r => rfl
  | notify n p => rfl
  | call p => rfl

/-- A round goes on in its upkeep when it hears from the store or has told the watchers. -/
theorem Advances.upkeep {x : Wait} {m : Member} {s : Store} {r : Wait ⊕ Except Failure Unit}
    (h : σ.Advances x m s r) (he : x.errand = .upkeep) :
    ∃ acts, (⟨σ.member, x.roundPoint?⟩ : Upkeep).play acts =
      ⟨m, r.getLeft?.bind Wait.roundPoint?⟩ := by
  cases h with
  | acts hr hdue hin => exact ⟨[], rfl⟩
  | @resumes f reply r hy hr =>
      refine ⟨[.answered σ.now (f.point.answer reply)], ?_⟩
      have hanswer : (⟨σ.member, some (.call f.point)⟩ : Upkeep).act
          (.answered σ.now (f.point.answer reply)) =
            Upkeep.goesOn (σ.member.resume σ.now f.point (f.point.answer reply f.point)) := rfl
      rw [f.point.answer_self, hr.goesOn] at hanswer
      exact hanswer
  | held n' => exact ⟨[], rfl⟩
  | @told n point r hr =>
      cases point with
      | synced => exact ⟨[.told], hr.goesOn⟩
      | applied rest => cases he
      | finished => cases he

theorem RoundStep.upkeep (h : σ.RoundStep p o a σ' o') (hu : σ.Upheld o) :
    ∃ acts, (σ.upkeep o).play acts = σ'.upkeep o' := by
  cases h with
  | elsewhere hsp hother =>
      have hm : σ'.member = σ.member := congrArg Leased.member hsp.leased
      exact ⟨[], by rw [Scene.upkeep, Scene.upkeep, hm]; rfl⟩
  | heeds hm hs => exact hm.upkeep _
  | begins hm hs hc =>
      refine ⟨[.begins σ.now], ?_⟩
      rw [Scene.upkeep, Scene.upkeep, hm]
      exact hc.goesOn
  | @advances _ id x r ha =>
      obtain ⟨-, he⟩ := (hu.round id x).2 rfl
      obtain ⟨acts, hacts⟩ := ha.upkeep he
      refine ⟨acts, hacts.trans ?_⟩
      rw [Scene.upkeep, Option.bind_map]
      rfl
  | drops hm hs => exact ⟨[.abandoned], by rw [Scene.upkeep, Scene.upkeep, hm]; rfl⟩

end Scene

namespace Cluster

variable {p : String} {c : Cluster} {a : Act} {acts : List Act} {σ : Scene}
  {o : Option (Nat × Wait)}

/-- Nobody withdraws the member of the party, and its rounds do not overlap. -/
structure Upholds (p : String) (c : Cluster) (a : Act) : Prop where
  stays : c.Stays p a
  kept : a ≠ .start p .withdrawal
  oneRound : (c.act a).OneRound p

theorem Shows.upkeep_play (h : c.Shows p σ) (ht : c.Tidy) (hu : σ.Upheld o)
    (ha : Along (Upholds p) c acts) :
    ∃ σ' o' acts', (c.play acts).Shows p σ' ∧ (σ.upkeep o).play acts' = σ'.upkeep o' := by
  induction acts generalizing c σ o with
  | nil => exact ⟨σ, o, [], h, rfl⟩
  | cons a acts ih =>
      obtain ⟨σ₁, h₁, hs⟩ := h.act ht ha.1.stays
      obtain ⟨o₁, hr, hu₁⟩ := hu.step (h.isTidy ht) hs (ha.1.oneRound.of_shows h₁) ha.1.kept
      obtain ⟨step, hstep⟩ := hr.upkeep hu
      obtain ⟨σ', o', rest, h', hrest⟩ := ih h₁ (ht.act a) hu₁ ha.2
      exact ⟨σ', o', step ++ rest, h', by rw [Upkeep.play_append, hstep, hrest]⟩

/-- A member that nobody withdraws is always in a state that its upkeep alone can bring about. -/
theorem exists_upkeep_play (hnew : c.New p) {m : Member} (hm : c.member? p = some m)
    (ha : Along (Upholds p) c acts) :
    ∃ acts', (c.play acts).member? p =
      some ((Upkeep.new m.node m.settings).play acts').member := by
  obtain ⟨σ, h⟩ := hnew.hasMember.shows
  obtain rfl := Option.some.inj (h.member?.symm.trans hm)
  obtain ⟨σ', o', acts', h', hplay⟩ := h.upkeep_play hnew.tidy (hnew.upheld h) ha
  refine ⟨acts', ?_⟩
  have hstart : σ.upkeep none = .new σ.member.node σ.member.settings :=
    congrArg (Upkeep.mk · none) (hnew.member _ hm)
  rw [← hstart, hplay, h'.member?]
  rfl

end Cluster

end ServiceMesh
