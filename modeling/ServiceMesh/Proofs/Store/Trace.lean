import ServiceMesh.Lease.Routine
import ServiceMesh.Proofs.Store.History

/-!
What a call leaves behind in the store. The calls of a member touch nothing but the key of its own
node, and the only thing that they add is a lease when one was asked for.
-/

namespace ServiceMesh

namespace Store

variable {s s' s'' : Store} {key : String} {granted granted' : List LeaseId}

/-- Beside one key and these leases, which are new, the second store holds what the first one
held. -/
structure DiffersIn (key : String) (granted : List LeaseId) (s s' : Store) : Prop where
  records : ∀ k, k ≠ key → s'.records.get? k = s.records.get? k
  leaseIds : s'.leaseIds = (s.leaseIds.filter fun l => l ∉ granted) ++ granted
  boundKeys : ∀ k l, k ≠ key → (k ∈ s'.boundKeys l ↔ l ∉ granted ∧ k ∈ s.boundKeys l)
  published : ∃ es, s'.published.toList = s.published.toList ++ es ∧ ∀ e ∈ es, e.key = key

structure SameContent (s s' : Store) : Prop where
  records : s'.records = s.records
  leases : s'.leases = s.leases
  nextLease : s'.nextLease = s.nextLease
  published : s'.published = s.published

namespace DiffersIn

theorem of_no_grant (hr : ∀ k, k ≠ key → s'.records.get? k = s.records.get? k)
    (hl : s'.leaseIds = s.leaseIds)
    (hb : ∀ k l, k ≠ key → (k ∈ s'.boundKeys l ↔ k ∈ s.boundKeys l))
    (hp : ∃ es, s'.published.toList = s.published.toList ++ es ∧ ∀ e ∈ es, e.key = key) :
    s.DiffersIn key [] s' where
  records := hr
  leaseIds := by simpa using hl
  boundKeys k l hk := by simpa using hb k l hk
  published := hp

theorem of_eq (hr : s'.records = s.records) (hl : s'.leases = s.leases)
    (hp : s'.published = s.published) : s.DiffersIn key [] s' :=
  of_no_grant (fun k _ => by rw [hr]) (leaseIds_of_leases hl)
    (fun k l _ => by rw [boundKeys_of_leases hl])
    ⟨[], by rw [hp, List.append_nil], by rintro e ⟨⟩⟩

theorem refl (key : String) (s : Store) : s.DiffersIn key [] s := .of_eq rfl rfl rfl

/-- One after the other, as long as no lease is granted in both. -/
theorem trans (h : s.DiffersIn key granted s') (h' : s'.DiffersIn key granted' s'')
    (hd : granted.Disjoint granted') : s.DiffersIn key (granted ++ granted') s'' where
  records k hk := (h'.records k hk).trans (h.records k hk)
  leaseIds := by
    have hstay : (granted.filter fun l => l ∉ granted') = granted :=
      List.filter_eq_self.2 fun l hl => decide_eq_true (hd hl)
    rw [h'.leaseIds, h.leaseIds, List.filter_append, List.filter_filter, hstay, List.append_assoc]
    simp only [List.mem_append, not_or, Bool.decide_and, Bool.and_comm]
  boundKeys k l hk := by
    rw [h'.boundKeys k l hk, h.boundKeys k l hk, List.mem_append, not_or, ← and_assoc,
      and_comm (a := l ∉ granted')]
  published := by
    obtain ⟨es, hp, hkey⟩ := h.published
    obtain ⟨es', hp', hkey'⟩ := h'.published
    refine ⟨es ++ es', by rw [hp', hp, List.append_assoc], fun e he => ?_⟩
    rcases List.mem_append.1 he with he | he
    · exact hkey e he
    · exact hkey' e he

end DiffersIn

/-- A change that keeps a key in all leases keeps it bound as it was. -/
theorem mem_boundKeys_updateLease_of_iff {k : String} {f : KeyMap Unit → KeyMap Unit}
    (hf : ∀ keys : KeyMap Unit, k ∈ (f keys).keys ↔ k ∈ keys.keys) (s : Store) (id l : LeaseId) :
    k ∈ (s.updateLease id f).boundKeys l ↔ k ∈ s.boundKeys l := by
  rw [mem_boundKeys_updateLease]
  split
  · next hl =>
      subst hl
      rw [boundKeys]
      cases s.lease? l with
      | none => simp
      | some x => simp [hf]
  · rfl

theorem mem_boundKeys_bind_of_ne {k : String} (hk : k ≠ key) (s : Store) (id l : LeaseId) :
    k ∈ (s.bind key id).boundKeys l ↔ k ∈ s.boundKeys l := by
  refine mem_boundKeys_updateLease_of_iff (fun keys => ?_) s id l
  rw [KeyMap.mem_keys_iff, KeyMap.mem_keys_iff, KeyMap.get?_insert_of_ne _ hk]

theorem mem_boundKeys_unbind_of_ne {k : String} (hk : k ≠ key) (s : Store) (l : LeaseId) :
    k ∈ (s.unbind key).boundKeys l ↔ k ∈ s.boundKeys l := by
  rw [unbind]
  split
  · next id _ =>
      refine mem_boundKeys_updateLease_of_iff (fun keys => ?_) s id l
      rw [KeyMap.mem_keys_iff, KeyMap.mem_keys_iff, KeyMap.get?_erase_of_ne _ hk]
  · rfl

theorem differsIn_of_put {value : List UInt8} {id : LeaseId}
    (h : s.put key value (some id) = .ok s') : s.DiffersIn key [] s' := by
  obtain ⟨hr, hp⟩ := put_eq_ok h
  obtain ⟨-, hl⟩ := leases_of_put h
  apply DiffersIn.of_no_grant
  · intro k hk
    rw [hr, KeyMap.get?_insert_of_ne _ hk]
  · rw [leaseIds_of_leases hl, bind, leaseIds_updateLease, leaseIds_unbind]
  · intro k l hk
    rw [boundKeys_of_leases hl, mem_boundKeys_bind_of_ne hk, mem_boundKeys_unbind_of_ne hk]
  · exact ⟨[.put key value], by simp [hp], by simp [Event.key]⟩

theorem differsIn_of_delete (h : s.delete key = .ok s') : s.DiffersIn key [] s' := by
  rcases delete_eq_ok h with ⟨-, hr, hp⟩ | ⟨-, rfl⟩
  · rcases leases_of_delete h with hl | rfl
    · apply DiffersIn.of_no_grant
      · intro k hk
        rw [hr, KeyMap.get?_erase_of_ne _ hk]
      · rw [leaseIds_of_leases hl, leaseIds_unbind]
      · intro k l hk
        rw [boundKeys_of_leases hl, mem_boundKeys_unbind_of_ne hk]
      · exact ⟨[.delete key], by simp [hp], by simp [Event.key]⟩
    · exact .refl _ _
  · exact .refl _ _

theorem differsIn_of_grant {id : LeaseId} (h : s.grant = .ok (s', id)) (key : String) :
    s.DiffersIn key [id] s' := by
  obtain ⟨hr, hp⟩ := grant_eq_ok h
  constructor
  · intro k _
    rw [hr]
  · simp only [leaseIds_of_grant h, List.mem_singleton]
  · intro k l _
    rw [mem_boundKeys_of_grant h, List.mem_singleton]
  · exact ⟨[], by simp [hp], by rintro e ⟨⟩⟩

end Store

/-- A call of a member adds at most one lease, if it asks for one, and it touches no key but that of
the member's own node. -/
theorem CallPoint.differsIn_perform (m : Member) (p : CallPoint) (s : Store) :
    ∃ granted, s.DiffersIn m.node.path granted (p.perform m s).1 ∧ granted.length ≤ 1 ∧
      (p ≠ .grant → granted = []) := by
  have hsame : ∃ granted, s.DiffersIn m.node.path granted s ∧ granted.length ≤ 1 ∧
      (p ≠ .grant → granted = []) := ⟨[], .refl _ s, Nat.zero_le 1, fun _ => rfl⟩
  cases p with
  | grant =>
      rw [perform]
      split
      · next h => exact ⟨_, Store.differsIn_of_grant h _, Nat.le_refl 1, fun hne => absurd rfl hne⟩
      · exact hsame
  | publish lease =>
      rw [perform]
      split
      · next h => exact ⟨_, Store.differsIn_of_put h, Nat.zero_le 1, fun _ => rfl⟩
      · exact hsame
  | withdraw =>
      rw [perform]
      split
      · next h => exact ⟨_, Store.differsIn_of_delete h, Nat.zero_le 1, fun _ => rfl⟩
      · exact hsame
  | scan => exact hsame
  | renew lease => exact hsame
  | retire =>
      rw [perform]
      split
      · next h => exact ⟨_, Store.differsIn_of_delete h, Nat.zero_le 1, fun _ => rfl⟩
      · exact hsame

end ServiceMesh
