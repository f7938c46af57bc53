import ServiceMesh.Proofs.Balance.Refresh
import ServiceMesh.Proofs.Cluster.View
import ServiceMesh.Proofs.Notify.Bus

/-!
What the steps of a cluster do to the bus of a party and to the clients. A bus moves only where a
notification goes on or a follower takes a signal; clients are touched by followers alone.
-/

namespace ServiceMesh

namespace Cluster

variable {c c' d : Cluster} {p q : String} {l : Leased} {i : Nat} {who : Follower} {a : Act}

/-! ### Buses -/

@[simp] theorem bus_setLeased (c : Cluster) (q : String) (l : Leased) (p : String) :
    (c.setLeased q l).bus p = c.bus p := by
  rw [setLeased]
  split
  · next P hP =>
      rw [bus, party?_setParty, bus]
      by_cases hpq : p = q
      · rw [if_pos hpq, hpq, hP]
      · rw [if_neg hpq]
  · rfl

@[simp] theorem bus_setMember (c : Cluster) (q : String) (m : Member) (p : String) :
    (c.setMember q m).bus p = c.bus p := by
  rw [setMember]
  split
  · exact bus_setLeased c q _ p
  · rfl

theorem bus_setBus_of_ne (h : p ≠ q) (c : Cluster) (b : Bus) : (c.setBus q b).bus p = c.bus p := by
  rw [setBus]
  split
  · rw [bus, party?_setParty, if_neg h, bus]
  · rfl

theorem bus_setBus_self (h : c.leased? p = some l) (b : Bus) : (c.setBus p b).bus p = b := by
  rw [leased?] at h
  split at h
  · next hP => rw [setBus, hP, bus, party?_setParty, if_pos rfl]
  · cases h

theorem bus_of_parties (h : d.parties = c.parties) (p : String) : d.bus p = c.bus p := by
  rw [bus, party?, h, bus, party?]

/-! ### Work other than following -/

/-- The clients are as they were, and the bus of a party is this one now. -/
structure Moves (p : String) (b : Bus) (c d : Cluster) : Prop where
  bus : d.bus p = b
  pools : d.pools = c.pools
  builders : d.builders = c.builders
  resolvers : d.resolvers = c.resolvers

namespace Moves

variable {b : Bus}

theorem refl (p : String) (c : Cluster) : c.Moves p (c.bus p) c := ⟨rfl, rfl, rfl, rfl⟩

theorem setMember (h : Moves p b c d) (q : String) (m : Member) :
    Moves p b c (d.setMember q m) := by
  obtain ⟨h₁, h₂, h₃, h₄⟩ := h
  refine ⟨(bus_setMember d q m p).trans h₁, ?_, ?_, ?_⟩ <;>
  · rw [Cluster.setMember]
    split
    · rw [setLeased]
      split <;> assumption
    · assumption

theorem setTask (h : Moves p b c d) (id : Nat) (w : Option Work) : Moves p b c (d.setTask id w) :=
  ⟨h.bus, h.pools, h.builders, h.resolvers⟩

end Moves

theorem setBus_moves {b b' : Bus} (h : (c.setBus q b).bus p = b') :
    Moves p b' c (c.setBus q b) := by
  refine ⟨h, ?_, ?_, ?_⟩ <;>
  · rw [setBus]
    split <;> rfl

def busAfter (c : Cluster) (p q : String) : Option Wait → Bus
  | some (.notice n _) => if q = p then ((c.bus p).advance n).1 else c.bus p
  | _ => c.bus p

theorem stepFlight_moves {f : Flight} {r : Cluster × (Wait ⊕ Except Failure Unit)}
    (hr : c.stepFlight q f = some r) (p : String) : Moves p (c.bus p) c r.1 := by
  rw [stepFlight] at hr
  obtain ⟨l, -, hr⟩ := Option.bind_eq_some_iff.1 hr
  split at hr
  · split at hr
    · obtain rfl := Option.some.inj hr
      exact ⟨rfl, rfl, rfl, rfl⟩
    · split at hr
      · obtain rfl := Option.some.inj hr
        exact (Moves.refl p c).setMember q _
      · cases hr
  · split at hr
    · obtain rfl := Option.some.inj hr
      exact (Moves.refl p c).setMember q _
    · split at hr
      · obtain rfl := Option.some.inj hr
        exact (Moves.refl p c).setMember q _
      · cases hr

theorem stepWait_moves {w : Wait} {r : Cluster × (Wait ⊕ Except Failure Unit)}
    (hl : c.leased? p = some l) (hr : c.stepWait q w = some r) :
    Moves p (c.busAfter p q (some w)) c r.1 := by
  cases w with
  | call f => exact stepFlight_moves hr p
  | notice n point =>
      have hset : Moves p (c.busAfter p q (some (.notice n point))) c
          (c.setBus q ((c.bus q).advance n).1) := by
        refine setBus_moves ?_
        rw [busAfter]
        split
        · next hqp =>
            subst hqp
            exact bus_setBus_self hl _
        · next hqp => exact bus_setBus_of_ne (Ne.symm hqp) c _
      rw [stepWait] at hr
      split at hr
      · next b n' hb =>
          rw [hb] at hset
          split at hr
          · cases hr
          · obtain rfl := Option.some.inj hr
            exact hset
      · next b hb =>
          rw [hb] at hset
          dsimp only at hr
          split at hr
          · obtain rfl := Option.some.inj hr
            exact hset.setMember q _
          · obtain rfl := Option.some.inj hr
            exact hset

theorem watchBroke_moves (c : Cluster) (p q : String) :
    Moves p (c.bus p) c (c.watchBroke q).1 := by
  rw [watchBroke]
  split
  · exact (Moves.refl p c).setMember q _
  · exact .refl p c

theorem applyBatch_moves (c : Cluster) (p q : String) (feed : Feed) (injected : List Injection)
    (events : List Event) : Moves p (c.bus p) c (c.applyBatch q feed injected events).1 := by
  rw [applyBatch]
  split
  · next m _ =>
      have hset := (Moves.refl p c).setMember q (m.applyEvents events).1
      split
      · next hw => exact (Prod.mk.inj hw).1 ▸ hset
      · next hw => exact (Prod.mk.inj hw).1 ▸ hset
  · exact .refl p c

/-- Work other than following leaves the clients alone, and the bus too unless it is telling. -/
theorem stepTask_moves {t : Task} (hl : c.leased? p = some l) (h : c.stepTask t = some c')
    (hf : ∀ q i who, t.work ≠ .follow q i who) :
    Moves p (c.busAfter p t.work.party t.work.wait?) c c' := by
  obtain ⟨id, work⟩ := t
  have hsame {e : Cluster} (he : e = c) : Moves p (c.bus p) c e := he ▸ .refl p c
  cases work with
  | routine q w =>
      rw [stepTask] at h
      dsimp only at h
      split at h
      · cases h
      · next hs =>
          obtain rfl := Option.some.inj h
          exact (stepWait_moves hl hs).setTask id _
      · next hs =>
          obtain rfl := Option.some.inj h
          obtain ⟨h₁, h₂, h₃, h₄⟩ := stepWait_moves hl hs
          exact ⟨h₁, h₂, h₃, h₄⟩
  | keepAlive q loop =>
      obtain ⟨r, hr, rfl⟩ := Option.map_eq_some_iff.1 h
      cases loop with
      | ticking w =>
          obtain ⟨s, hs, he⟩ := Option.bind_eq_some_iff.1 hr
          obtain rfl := Option.some.inj he
          exact (stepWait_moves hl hs).setTask id _
      | _ =>
          obtain he | ⟨w, s, hloop, -⟩ := (stepKeepAlive_eq_some hr).2
          · exact (hsame he).setTask id _
          · cases hloop
  | watch q loop =>
      obtain ⟨r, hr, rfl⟩ := Option.map_eq_some_iff.1 h
      cases loop with
      | applying feed injected w =>
          obtain ⟨s, hs, he⟩ := Option.bind_eq_some_iff.1 hr
          have hr₁ : r.1 = s.1 := by
            split at he <;> (obtain rfl := Option.some.inj he; rfl)
          have hmoves := stepWait_moves hl hs
          rw [← hr₁] at hmoves
          exact hmoves.setTask id _
      | _ =>
          obtain ⟨he, -⟩ | rfl | ⟨_, _, read, rest, events, -, rfl⟩ | ⟨_, _, w, s, hloop, -⟩ :=
            stepWatch_eq_some hr
          · exact (hsame he).setTask id _
          · exact (watchBroke_moves c p q).setTask id _
          · exact (applyBatch_moves c p q read rest events).setTask id _
          · cases hloop
  | follow q i who => exact absurd rfl (hf q i who)

/-- Apart from steps and what watchers do, no act moves a bus or touches a client. -/
theorem act_moves (ha : ∀ P, a ≠ .join p P) (hstep : ∀ id, a ≠ .step id)
    (hbus : ∀ op, a ≠ .useBus p op) : Moves p (c.bus p) c (c.act a) := by
  have hsame : Moves p (c.bus p) c c := .refl p c
  cases a with
  | step id => exact absurd rfl (hstep id)
  | pass ms => exact ⟨rfl, rfl, rfl, rfl⟩
  | use j op => exact ⟨rfl, rfl, rfl, rfl⟩
  | slow q k d =>
      rw [Cluster.act, setDelay]
      split
      · next l _ =>
          refine ⟨bus_setLeased c q _ p, ?_, ?_, ?_⟩ <;>
          · rw [setLeased]
            split <;> rfl
      · exact hsame
  | join q P =>
      have hpq : p ≠ q := by
        rintro rfl
        exact ha P rfl
      refine ⟨?_, rfl, rfl, rfl⟩
      rw [Cluster.act, bus, party?_setParty, if_neg hpq, bus]
  | start q r =>
      rw [Cluster.act, start]
      split
      · exact hsame
      · next m _ =>
          obtain ⟨h₁, h₂, h₃, h₄⟩ := hsame.setMember q (m.start c.now r).1
          split
          · next hc => exact (Prod.mk.inj hc).1 ▸ ⟨h₁, h₂, h₃, h₄⟩
          · next hc => exact (Prod.mk.inj hc).1 ▸ ⟨h₁, h₂, h₃, h₄⟩
  | register q =>
      rw [Cluster.act]
      split
      · exact hsame
      · rw [startLoops]
        split
        · exact hsame
        · next m _ =>
            split
            · exact hsame
            · obtain ⟨h₁, h₂, h₃, h₄⟩ := hsame.setMember q { m with isStarted := true }
              exact ⟨h₁, h₂, h₃, h₄⟩
  | drop id => exact ⟨rfl, rfl, rfl, rfl⟩
  | feedIn q what => exact ⟨rfl, rfl, rfl, rfl⟩
  | useBus q op =>
      have hpq : p ≠ q := by
        rintro rfl
        exact hbus op rfl
      exact setBus_moves (bus_setBus_of_ne hpq c _)

theorem useBus_moves (hl : c.leased? p = some l) (op : Bus.Op) :
    Moves p (op.run (c.bus p)) c (c.act (.useBus p op)) := setBus_moves (bus_setBus_self hl _)

/-! ### Followers -/

/-- A follower has been served: what it refreshes agrees with the directories, and whatever else
has changed agrees with them too. -/
structure Refreshed (who : Follower) (c d : Cluster) : Prop where
  parties : d.parties = c.parties
  pools : ∀ id P, d.pools.get? id = some P → ∃ P₀, c.pools.get? id = some P₀ ∧
    P.party = P₀.party ∧ (P.value.InSync (c.directory P.party) ∨ P = P₀ ∧ who ≠ .pool id)
  builders : ∀ id B, d.builders.get? id = some B → ∃ B₀, c.builders.get? id = some B₀ ∧
    ∀ r ∈ B.value, r ∈ B₀.value
  resolvers : ∀ r R, d.resolvers.get? r = some R → ∃ R₀, c.resolvers.get? r = some R₀ ∧
    R.party = R₀.party ∧ (R.value.InSync (c.directory R.party) ∨
      R = R₀ ∧ ∀ id B, who = .builder id → d.builders.get? id = some B → r ∉ B.value)

theorem directory_of_parties (h : d.parties = c.parties) (p : String) :
    d.directory p = c.directory p := by
  rw [directory, party?, h, directory, party?]

def push (c : Cluster) (id : String) : Cluster :=
  match c.resolvers.get? id with
  | some r =>
    let pushed := r.value.push (c.directory r.party)
    { c with resolvers := c.resolvers.insert id { r with value := pushed } }
  | none => c

def openOf (c : Cluster) (ids : List String) : List String :=
  ids.filter fun id =>
    match c.resolvers.get? id with
    | some r => !r.value.isClosed
    | none => false

theorem notifyResolvers_eq (c : Cluster) (builder : String) :
    c.notifyResolvers builder =
      match c.builders.get? builder with
      | none => c
      | some b =>
        (c.openOf b.value).foldl push
          { c with builders := c.builders.insert builder { b with value := c.openOf b.value } } :=
  rfl

theorem push_clients (c : Cluster) (id : String) :
    (c.push id).parties = c.parties ∧ (c.push id).pools = c.pools ∧
      (c.push id).builders = c.builders := by
  rw [push]
  split <;> exact ⟨rfl, rfl, rfl⟩

theorem foldl_push_clients (ids : List String) (c : Cluster) :
    (ids.foldl push c).parties = c.parties ∧ (ids.foldl push c).pools = c.pools ∧
      (ids.foldl push c).builders = c.builders := by
  induction ids generalizing c with
  | nil => exact ⟨rfl, rfl, rfl⟩
  | cons id ids ih =>
      obtain ⟨h₁, h₂, h₃⟩ := ih (c.push id)
      obtain ⟨g₁, g₂, g₃⟩ := c.push_clients id
      exact ⟨h₁.trans g₁, h₂.trans g₂, h₃.trans g₃⟩

/-- After a round every resolver in it has been told, and no other one has changed. -/
theorem get?_foldl_push (ids : List String) (c : Cluster) {r : String} {R : Owned Resolver}
    (h : (ids.foldl push c).resolvers.get? r = some R) :
    ∃ R₀, c.resolvers.get? r = some R₀ ∧ R.party = R₀.party ∧
      (R.value.InSync (c.directory R.party) ∨ R = R₀ ∧ r ∉ ids) := by
  induction ids generalizing c with
  | nil => exact ⟨R, h, rfl, .inr ⟨rfl, by simp⟩⟩
  | cons id ids ih =>
      obtain ⟨R₁, h₁, hparty, hR⟩ := ih (c.push id) h
      rw [directory_of_parties (c.push_clients id).1] at hR
      rw [push] at h₁
      split at h₁
      · next R₀ h₀ =>
          rw [KeyMap.get?_insert] at h₁
          split at h₁
          · next hr =>
              obtain rfl := Option.some.inj h₁
              refine ⟨R₀, hr ▸ h₀, hparty, .inl ?_⟩
              rcases hR with hR | ⟨rfl, -⟩
              · exact hR
              · exact R₀.value.inSync_push _
          · next hr =>
              refine ⟨R₁, h₁, hparty, hR.imp_right fun ⟨he, hno⟩ => ⟨he, ?_⟩⟩
              simp [hr, hno]
      · next h₀ =>
          refine ⟨R₁, h₁, hparty, hR.imp_right fun ⟨he, hno⟩ => ⟨he, ?_⟩⟩
          have hr : r ≠ id := by
            rintro rfl
            cases h₀.symm.trans h₁
          simp [hr, hno]

theorem refreshed_slot (c : Cluster) (name : String) :
    c.Refreshed (.slot name) (c.rebuildSlot name) := by
  rw [rebuildSlot]
  split <;>
  · refine ⟨rfl, fun id P h => ⟨P, h, rfl, .inr ⟨rfl, ?_⟩⟩, fun id B h => ⟨B, h, fun _ h => h⟩,
      fun r R h => ⟨R, h, rfl, .inr ⟨rfl, fun id B he => ?_⟩⟩⟩
    · simp
    · cases he

theorem refreshed_pool (c : Cluster) (name : String) :
    c.Refreshed (.pool name) (c.syncPool name) := by
  rw [syncPool]
  split
  · next P₀ h₀ =>
      refine ⟨rfl, fun id P h => ?_, fun id B h => ⟨B, h, fun _ h => h⟩,
        fun r R h => ⟨R, h, rfl, .inr ⟨rfl, fun id B he => ?_⟩⟩⟩
      · dsimp only at h
        rw [KeyMap.get?_insert] at h
        split at h
        · next hid =>
            obtain rfl := Option.some.inj h
            exact ⟨P₀, hid ▸ h₀, rfl, .inl (P₀.value.inSync_sync _)⟩
        · next hid => exact ⟨P, h, rfl, .inr ⟨rfl, by simp [Ne.symm hid]⟩⟩
      · cases he
  · next h₀ =>
      refine ⟨rfl, fun id P h => ⟨P, h, rfl, .inr ⟨rfl, ?_⟩⟩, fun id B h => ⟨B, h, fun _ h => h⟩,
        fun r R h => ⟨R, h, rfl, .inr ⟨rfl, fun id B he => ?_⟩⟩⟩
      · intro he
        obtain rfl := Follower.pool.inj he
        cases h₀.symm.trans h
      · cases he

theorem refreshed_builder (c : Cluster) (name : String) :
    c.Refreshed (.builder name) (c.notifyResolvers name) := by
  rw [notifyResolvers_eq]
  split
  · next h₀ =>
      refine ⟨rfl, fun id P h => ⟨P, h, rfl, .inr ⟨rfl, by simp⟩⟩,
        fun id B h => ⟨B, h, fun _ h => h⟩, fun r R h => ⟨R, h, rfl, .inr ⟨rfl, fun id B he hB => ?_⟩⟩⟩
      obtain rfl := Follower.builder.inj he
      cases h₀.symm.trans hB
  · next B₀ h₀ =>
      generalize hkept : c.openOf B₀.value = kept
      have hsub : ∀ r ∈ kept, r ∈ B₀.value := by
        rw [← hkept]
        exact fun r hr => (List.mem_filter.1 hr).1
      have hclients := foldl_push_clients kept
        { c with builders := c.builders.insert name { B₀ with value := kept } }
      obtain ⟨hparties, hpools, hbuilders⟩ := hclients
      refine ⟨hparties, fun id P h => ⟨P, hpools ▸ h, rfl, .inr ⟨rfl, by simp⟩⟩, fun id B h => ?_,
        fun r R h => ?_⟩
      · rw [hbuilders, KeyMap.get?_insert] at h
        split at h
        · next hid =>
            obtain rfl := Option.some.inj h
            exact ⟨B₀, hid ▸ h₀, hsub⟩
        · exact ⟨B, h, fun _ h => h⟩
      · obtain ⟨R₀, hR₀, hparty, hin | ⟨he, hno⟩⟩ := get?_foldl_push kept _ h
        · exact ⟨R₀, hR₀, hparty, .inl hin⟩
        · refine ⟨R₀, hR₀, hparty, .inr ⟨he, fun id B hid hB => ?_⟩⟩
          obtain rfl := Follower.builder.inj hid
          rw [hbuilders, KeyMap.get?_insert, if_pos rfl] at hB
          obtain rfl := Option.some.inj hB
          exact hno

theorem refreshed_refresh (c : Cluster) (who : Follower) : c.Refreshed who (c.refresh who) := by
  cases who with
  | slot name => exact c.refreshed_slot name
  | pool name => exact c.refreshed_pool name
  | builder name => exact c.refreshed_builder name

/-- A follower takes a signal and refreshes its client, or its inbox is no longer there. -/
theorem stepFollow_eq_some {r : Cluster × Option Work} (hr : c.stepFollow q i who = some r) :
    r = (c, none) ∨
      r = ((c.setBus q ((c.bus q).drain i 1).1).refresh who, some (.follow q i who)) := by
  rw [stepFollow] at hr
  split at hr
  · exact .inl (Option.some.inj hr).symm
  · split at hr
    · exact .inr (Option.some.inj hr).symm
    · cases hr

/-- What a follower refreshes belongs to the party. -/
def Owns (p : String) (c : Cluster) : Follower → Prop
  | .slot _ => True
  | .pool id => ∀ P, c.pools.get? id = some P → P.party = p
  | .builder id => ∀ B, c.builders.get? id = some B → ∀ r ∈ B.value,
      ∀ R, c.resolvers.get? r = some R → R.party = p

/-- What a follower refreshes agrees with the directory of the party. -/
def InSync (p : String) (c : Cluster) : Follower → Prop
  | .slot _ => True
  | .pool id => ∀ P, c.pools.get? id = some P → P.value.InSync (c.directory p)
  | .builder id => ∀ B, c.builders.get? id = some B → ∀ r ∈ B.value,
      ∀ R, c.resolvers.get? r = some R → R.value.InSync (c.directory p)

namespace Refreshed

variable {who' : Follower}

theorem owns (h : c.Refreshed who' d) (ho : c.Owns p who) : d.Owns p who := by
  cases who with
  | slot name => trivial
  | pool name =>
      intro P hP
      obtain ⟨P₀, hP₀, hparty, -⟩ := h.pools name P hP
      exact hparty.trans (ho P₀ hP₀)
  | builder name =>
      intro B hB r hr R hR
      obtain ⟨B₀, hB₀, hsub⟩ := h.builders name B hB
      obtain ⟨R₀, hR₀, hparty, -⟩ := h.resolvers r R hR
      exact hparty.trans (ho B₀ hB₀ r (hsub r hr) R₀ hR₀)

theorem inSync (h : c.Refreshed who d) (ho : c.Owns p who) : d.InSync p who := by
  have hdir := directory_of_parties h.parties p
  cases who with
  | slot name => trivial
  | pool name =>
      intro P hP
      obtain ⟨P₀, hP₀, hparty, hin | ⟨-, hne⟩⟩ := h.pools name P hP
      · rwa [hparty, ho P₀ hP₀, ← hdir] at hin
      · exact absurd rfl hne
  | builder name =>
      intro B hB r hr R hR
      obtain ⟨B₀, hB₀, hsub⟩ := h.builders name B hB
      obtain ⟨R₀, hR₀, hparty, hin | ⟨-, hno⟩⟩ := h.resolvers r R hR
      · rwa [hparty, ho B₀ hB₀ r (hsub r hr) R₀ hR₀, ← hdir] at hin
      · exact absurd hr (hno name B rfl hB)

/-- Other followers do no harm. -/
theorem inSync_of_inSync (h : c.Refreshed who' d) (ho : c.Owns p who) (hin : c.InSync p who) :
    d.InSync p who := by
  have hdir := directory_of_parties h.parties p
  cases who with
  | slot name => trivial
  | pool name =>
      intro P hP
      obtain ⟨P₀, hP₀, hparty, hin' | ⟨rfl, -⟩⟩ := h.pools name P hP
      · rwa [hparty, ho P₀ hP₀, ← hdir] at hin'
      · exact hdir ▸ hin P hP₀
  | builder name =>
      intro B hB r hr R hR
      obtain ⟨B₀, hB₀, hsub⟩ := h.builders name B hB
      obtain ⟨R₀, hR₀, hparty, hin' | ⟨rfl, -⟩⟩ := h.resolvers r R hR
      · rwa [hparty, ho B₀ hB₀ r (hsub r hr) R₀ hR₀, ← hdir] at hin'
      · exact hdir ▸ hin B₀ hB₀ r (hsub r hr) R hR₀

end Refreshed

end Cluster

end ServiceMesh
