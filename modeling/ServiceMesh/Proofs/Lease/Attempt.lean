import ServiceMesh.Proofs.Lease.Routine
import ServiceMesh.Proofs.Store.Trace

/-!
One round of upkeep by itself, with every way in which its calls may fail: on the way to the store,
in the store, or on the way back when the store has acted. A call that fails changes nothing of the
member but the count of its failed renewals. So a round that fails leaves the member as it was, and
a round that could not read the topology leaves the snapshot as it was.
-/

namespace ServiceMesh

inductive Standing where
  /-- A call is on its way. -/
  | sent (p : CallPoint)
  /-- The store has acted, and the answer is on its way back. -/
  | acted (p : CallPoint) (reply : Except Failure p.Reply)
  | telling (p : NoticePoint)
  | done (result : Except Failure Unit)

def Standing.next : Standing → Next
  | sent p => .call p
  | acted p _ => .call p
  | telling p => .notify p
  | done r => .done r

inductive Move where
  /-- A call came to its end, as the member knows it. -/
  | ended (p : CallPoint) (isOk : Bool)
  /-- The watchers of the member began to be told. -/
  | announced
  deriving DecidableEq

namespace Next

def standing : Next → Standing
  | call p => .sent p
  | notify p => .telling p
  | done r => .done r

def moves : Next → List Move
  | notify _ => [.announced]
  | _ => []

@[simp] theorem next_standing (n : Next) : n.standing.next = n := by cases n <;> rfl

end Next

/-- A round that began with a member and a store, what it has been through, and the member, the
store and the round as they are now. Nothing else is done to the member, while others do to the
store what they may. -/
inductive Attempt (others : Store → Store → Prop) (m₀ : Member) (s₀ : Store) :
    List Move → Member → Store → Standing → Prop where
  | begins (now : Nat) : Attempt others m₀ s₀ [] m₀ s₀ (m₀.tick now).standing
  | others {moves : List Move} {m : Member} {s s' : Store} {x : Standing}
      (h : Attempt others m₀ s₀ moves m s x) (hs : others s s') :
      Attempt others m₀ s₀ moves m s' x
  | acts {moves : List Move} {m : Member} {s : Store} {p : CallPoint}
      (h : Attempt others m₀ s₀ moves m s (.sent p)) :
      Attempt others m₀ s₀ moves m (p.perform m s).1 (.acted p (p.perform m s).2)
  | answered {moves : List Move} {m : Member} {s : Store} {p : CallPoint}
      {reply : Except Failure p.Reply} (now : Nat)
      (h : Attempt others m₀ s₀ moves m s (.acted p reply)) :
      Attempt others m₀ s₀ (moves ++ .ended p reply.isOk :: (m.resume now p reply).2.moves)
        (m.resume now p reply).1 s (m.resume now p reply).2.standing
  /-- The call fails, or the member gives it up; the store has acted by then, or it never will. -/
  | fails {moves : List Move} {m : Member} {s : Store} {x : Standing} {p : CallPoint} (now : Nat)
      (f : Failure) (h : Attempt others m₀ s₀ moves m s x) (hx : x.next = .call p) :
      Attempt others m₀ s₀ (moves ++ .ended p false :: (m.resume now p (.error f)).2.moves)
        (m.resume now p (.error f)).1 s (m.resume now p (.error f)).2.standing
  | told {moves : List Move} {m : Member} {s : Store} {p : NoticePoint}
      (h : Attempt others m₀ s₀ moves m s (.telling p)) :
      Attempt others m₀ s₀ (moves ++ (m.notified p).2.moves) (m.notified p).1 s
        (m.notified p).2.standing

/-! ### The parts of a round -/

/-- The member holds a lease: it had one before, or it was registered in this round. -/
inductive Holds (m₀ : Member) : List Move → Member → Prop where
  | before (hl : m₀.lease ≠ none) : Holds m₀ [] m₀
  | registered (hl : m₀.lease = none) (l : LeaseId) :
      Holds m₀ [.ended .grant true, .ended (.publish l) true]
        { m₀ with lease := some l, failures := 0 }

/-- The member is through with the topology: it did not have to be read, it could not be read, or
it was. -/
inductive Synced (m₀ : Member) : List Move → Member → Prop where
  | unneeded {moves : List Move} {m : Member} (h : Holds m₀ moves m) : Synced m₀ moves m
  | unread {moves : List Move} {m : Member} (h : Holds m₀ moves m) :
      Synced m₀ (moves ++ [.ended .scan false]) m
  | read {moves : List Move} {m : Member} (h : Holds m₀ moves m) (t : Topology) (now : Nat) :
      Synced m₀ (moves ++ [.ended .scan true, .announced])
        { m with snapshot := some t, lastSync := some now }

/-- All that can become of a round: what it has been through, the member, and what comes next. -/
inductive Progress (m₀ : Member) : List Move → Member → Next → Prop where
  | asks (hl : m₀.lease = none) : Progress m₀ [] m₀ (.call .grant)
  | ungranted (hl : m₀.lease = none) (f : Failure) :
      Progress m₀ [.ended .grant false] m₀ (.done (.error f))
  | publishes (hl : m₀.lease = none) (l : LeaseId) :
      Progress m₀ [.ended .grant true] m₀ (.call (.publish l))
  | unpublished (hl : m₀.lease = none) (l : LeaseId) (f : Failure) :
      Progress m₀ [.ended .grant true, .ended (.publish l) false] m₀ (.done (.error f))
  | reads {moves : List Move} {m : Member} (h : Holds m₀ moves m) :
      Progress m₀ moves m (.call .scan)
  | tells {moves : List Move} {m : Member} (h : Holds m₀ moves m) (t : Topology) (now : Nat) :
      Progress m₀ (moves ++ [.ended .scan true, .announced])
        { m with snapshot := some t, lastSync := some now } (.notify .synced)
  | renews {moves : List Move} {m : Member} {l : LeaseId} (h : Synced m₀ moves m)
      (hl : m.lease = some l) : Progress m₀ moves m (.call (.renew l))
  | renewed {moves : List Move} {m : Member} (h : Synced m₀ moves m) (l : LeaseId) :
      Progress m₀ (moves ++ [.ended (.renew l) true]) { m with failures := 0 } (.done (.ok ()))
  | unrenewed {moves : List Move} {m : Member} (h : Synced m₀ moves m) (l : LeaseId) :
      Progress m₀ (moves ++ [.ended (.renew l) false]) m.renewalFailed (.done (.ok ()))

variable {others : Store → Store → Prop} {m₀ m : Member} {s₀ s : Store} {moves : List Move}
  {n : Next} {x : Standing} {p : CallPoint}

namespace Holds

theorem lease_ne_none (h : Holds m₀ moves m) : m.lease ≠ none := by
  cases h with
  | before hl => exact hl
  | registered hl l => exact Option.some_ne_none l

/-- Getting a lease changes nothing else, but that the count begins anew. -/
theorem eq (h : Holds m₀ moves m) :
    m = { m₀ with
      lease := m.lease
      failures := if m₀.lease = none then 0 else m₀.failures } := by
  cases h with
  | before hl => rw [if_neg hl]
  | registered hl l => rw [if_pos hl]

theorem alike (h : Holds m₀ moves m) : m₀.Alike m := by
  rw [h.eq]
  exact ⟨rfl, rfl, rfl, rfl⟩

/-- By then the member has neither read the topology nor renewed its lease. -/
theorem notMem (h : Holds m₀ moves m) :
    .announced ∉ moves ∧ ∀ isOk, .ended .scan isOk ∉ moves := by
  cases h with
  | before hl => simp
  | registered hl l => simp

end Holds

namespace Synced

theorem lease_ne_none (h : Synced m₀ moves m) : m.lease ≠ none := by
  cases h with
  | unneeded h => exact h.lease_ne_none
  | unread h => exact h.lease_ne_none
  | read h t now => exact h.lease_ne_none

/-- Reading the topology changes nothing but the snapshot and its time, and not even these if it
fails. -/
theorem eq (h : Synced m₀ moves m) :
    m = { m₀ with
      lease := m.lease
      failures := if m₀.lease = none then 0 else m₀.failures
      lastSync := m.lastSync
      snapshot := m.snapshot } := by
  cases h with
  | unneeded h =>
      have heq := h.eq
      rw [heq]
  | unread h =>
      have heq := h.eq
      rw [heq]
  | read h t now =>
      have heq := h.eq
      rw [heq]

theorem alike (h : Synced m₀ moves m) : m₀.Alike m := by
  rw [h.eq]
  exact ⟨rfl, rfl, rfl, rfl⟩

theorem of_unread (h : Synced m₀ moves m) (hscan : .ended .scan false ∈ moves) :
    m.lastSync = m₀.lastSync ∧ m.snapshot = m₀.snapshot ∧ .announced ∉ moves := by
  cases h with
  | unneeded h => exact absurd hscan (h.notMem.2 false)
  | unread h =>
      have heq := h.eq
      rw [heq]
      exact ⟨rfl, rfl, by simp [h.notMem.1]⟩
  | read h t now => simp [h.notMem.2 false] at hscan

end Synced

namespace Progress

theorem of_renewStep (h : Synced m₀ moves m) : Progress m₀ moves m m.renewStep := by
  rw [Member.renewStep]
  split
  · next l hl => exact .renews h hl
  · next hl => exact absurd hl h.lease_ne_none

theorem of_syncStep (h : Holds m₀ moves m) (now : Nat) : Progress m₀ moves m (m.syncStep now) := by
  rw [Member.syncStep]
  split
  · exact .reads h
  · exact of_renewStep (.unneeded h)

theorem of_tick (hc : m₀.isCancelled = false) (now : Nat) : Progress m₀ [] m₀ (m₀.tick now) := by
  rw [Member.tick, if_neg (by simp [hc])]
  split
  · next hl => exact .asks (Option.isNone_iff_eq_none.1 hl)
  · next hl =>
      have hlease : m₀.lease ≠ none := by simpa using hl
      exact of_syncStep (.before hlease) now

/-- Who the member is does not change in a round. -/
theorem alike (h : Progress m₀ moves m n) : m₀.Alike m := by
  cases h with
  | reads h => exact h.alike
  | tells h t now =>
      rw [h.eq]
      exact ⟨rfl, rfl, rfl, rfl⟩
  | renews h hl => exact h.alike
  | renewed h l =>
      rw [h.eq]
      exact ⟨rfl, rfl, rfl, rfl⟩
  | unrenewed h l => exact h.alike.trans (Member.alike_renewalFailed _)
  | _ => exact .refl _

theorem moves_renewStep (m : Member) : m.renewStep.moves = [] := by
  rw [Member.renewStep]
  split <;> rfl

theorem moves_syncStep (m : Member) (now : Nat) : (m.syncStep now).moves = [] := by
  rw [Member.syncStep]
  split
  · rfl
  · exact moves_renewStep m

/-- However a call ends, the round goes on to its next part or is over. -/
theorem resume (hc : m₀.isCancelled = false) (h : Progress m₀ moves m (.call p)) (now : Nat)
    (reply : Except Failure p.Reply) :
    Progress m₀ (moves ++ .ended p reply.isOk :: (m.resume now p reply).2.moves)
      (m.resume now p reply).1 (m.resume now p reply).2 := by
  have hrunning : ¬m.isCancelled = true := by simp [h.alike.isCancelled, hc]
  cases h with
  | asks hl =>
      cases reply with
      | error f => exact .ungranted hl f
      | ok lease =>
          rw [Member.resume, if_neg hrunning]
          exact .publishes hl lease
  | publishes hl l =>
      cases reply with
      | error f => exact .unpublished hl l f
      | ok u =>
          rw [Member.resume, if_neg hrunning, moves_syncStep]
          exact of_syncStep (.registered hl l) now
  | reads h =>
      cases reply with
      | error f =>
          rw [Member.resume, moves_renewStep]
          exact of_renewStep (.unread h)
      | ok records =>
          rw [Member.resume, if_neg hrunning]
          exact .tells h (Topology.ofScan records) now
  | renews h hl =>
      cases reply with
      | error f =>
          rw [Member.resume, if_neg hrunning]
          exact .unrenewed h _
      | ok u =>
          rw [Member.resume, if_neg hrunning]
          exact .renewed h _

theorem notified {q : NoticePoint} (h : Progress m₀ moves m (.notify q)) :
    Progress m₀ (moves ++ (m.notified q).2.moves) (m.notified q).1 (m.notified q).2 := by
  cases h with
  | tells h t now =>
      rw [Member.notified, moves_renewStep, List.append_nil]
      exact of_renewStep (.read h t now)

/-- All that a round tells of is the topology that it has read. -/
theorem of_notify {q : NoticePoint} (h : Progress m₀ moves m (.notify q)) :
    q = .synced ∧ .announced ∈ moves := by
  cases h with
  | tells h t now => exact ⟨rfl, by simp⟩

/-- A round asks for a lease first, and never again. -/
theorem moves_eq_nil (h : Progress m₀ moves m (.call .grant)) : moves = [] := by
  cases h with
  | asks hl => rfl

/-- A round that fails has not got a lease or could not publish the node under it, and it leaves
the member as it was. -/
theorem of_failed {f : Failure} (h : Progress m₀ moves m (.done (.error f))) :
    m = m₀ ∧ m₀.lease = none ∧
      (moves = [.ended .grant false] ∨
        ∃ l, moves = [.ended .grant true, .ended (.publish l) false]) := by
  cases h with
  | ungranted hl f => exact ⟨rfl, hl, .inl rfl⟩
  | unpublished hl l f => exact ⟨rfl, hl, .inr ⟨l, rfl⟩⟩

/-- A failed reading leaves the snapshot and its time as they were and is told to nobody; only the
renewal that comes after it may give the snapshot up with the lease. -/
theorem of_unread (h : Progress m₀ moves m n) (hscan : .ended .scan false ∈ moves) :
    (∀ f, n ≠ .done (.error f)) ∧ m.lastSync = m₀.lastSync ∧ .announced ∉ moves ∧
      (m.snapshot = m₀.snapshot ∨
        m.snapshot = none ∧ m.lease = none ∧ (∃ l, .ended (.renew l) false ∈ moves) ∧
          m₀.settings.maxKeepAliveRetry ≤ (if m₀.lease = none then 0 else m₀.failures) + 1) := by
  cases h with
  | asks hl => cases hscan
  | ungranted hl f => simp at hscan
  | publishes hl l => simp at hscan
  | unpublished hl l f => simp at hscan
  | reads h => exact absurd hscan (h.notMem.2 false)
  | tells h t now => simp [h.notMem.2 false] at hscan
  | renews h hl =>
      obtain ⟨hl, hs, hno⟩ := h.of_unread hscan
      exact ⟨by rintro f ⟨⟩, hl, hno, .inl hs⟩
  | renewed h l =>
      obtain ⟨hl, hs, hno⟩ := h.of_unread (by simpa using hscan)
      exact ⟨by rintro f ⟨⟩, hl, by simpa using hno, .inl hs⟩
  | unrenewed h l =>
      obtain ⟨hl, hs, hno⟩ := h.of_unread (by simpa using hscan)
      refine ⟨by rintro f ⟨⟩, ?_, by simpa using hno, ?_⟩
      · rw [Member.renewalFailed]
        split <;> exact hl
      · rw [Member.renewalFailed]
        split
        · next hlimit =>
            rw [h.eq] at hlimit
            exact .inr ⟨rfl, rfl, ⟨l, by simp⟩, hlimit⟩
        · exact .inl hs

end Progress

namespace Attempt

/-- Every round has come this far. -/
theorem progress (hc : m₀.isCancelled = false) (h : Attempt others m₀ s₀ moves m s x) :
    Progress m₀ moves m x.next := by
  induction h with
  | begins now =>
      rw [Next.next_standing]
      exact .of_tick hc now
  | others h hs ih => exact ih
  | acts h ih => exact ih
  | answered now h ih =>
      rw [Next.next_standing]
      exact ih.resume hc now _
  | fails now f h hx ih =>
      rw [Next.next_standing]
      rw [hx] at ih
      exact ih.resume hc now (.error f)
  | told h ih =>
      rw [Next.next_standing]
      exact ih.notified

/-- As long as the others leave alone what the store holds, a round adds one lease to it at most,
and touches no key but that of the member's own node. -/
theorem differsIn (hc : m₀.isCancelled = false) (hothers : ∀ s s', others s s' → s.SameContent s')
    (h : Attempt others m₀ s₀ moves m s x) :
    ∃ granted, s₀.DiffersIn m₀.node.path granted s ∧ granted.length ≤ 1 ∧
      (moves = [] → (∀ p reply, x ≠ .acted p reply) → granted = []) := by
  induction h with
  | begins now => exact ⟨[], .refl _ _, Nat.zero_le 1, fun _ _ => rfl⟩
  | others h hs ih =>
      obtain ⟨granted, hd, hle, hnone⟩ := ih
      have hsame := hothers _ _ hs
      refine ⟨granted, ?_, hle, hnone⟩
      rw [← List.append_nil granted]
      exact hd.trans (.of_eq hsame.records hsame.leases hsame.published) (List.disjoint_nil_right _)
  | @acts moves m s p h ih =>
      obtain ⟨granted, hd, hle, hnone⟩ := ih
      obtain ⟨granted', hd', hle', hother⟩ := p.differsIn_perform m s
      rw [(h.progress hc).alike.node] at hd'
      -- only the first call of a round can ask for a lease
      by_cases hp : p = .grant
      · subst hp
        obtain rfl := hnone (h.progress hc).moves_eq_nil (by rintro p reply ⟨⟩)
        exact ⟨granted', hd.trans hd' (List.disjoint_nil_left _), hle',
          fun _ hno => absurd rfl (hno _ _)⟩
      · obtain rfl := hother hp
        refine ⟨granted, ?_, hle, fun _ hno => absurd rfl (hno p _)⟩
        rw [← List.append_nil granted]
        exact hd.trans hd' (List.disjoint_nil_right _)
  | answered now h ih =>
      obtain ⟨granted, hd, hle, -⟩ := ih
      exact ⟨granted, hd, hle, fun hnil => by simp at hnil⟩
  | fails now f h hx ih =>
      obtain ⟨granted, hd, hle, -⟩ := ih
      exact ⟨granted, hd, hle, fun hnil => by simp at hnil⟩
  | told h ih =>
      obtain ⟨granted, hd, hle, hnone⟩ := ih
      refine ⟨granted, hd, hle, fun hnil _ => hnone (List.append_eq_nil_iff.1 hnil).1 ?_⟩
      rintro p reply ⟨⟩

end Attempt

end ServiceMesh
