import Mathlib.Data.Finset.Basic
import ServiceMesh.Proofs.Balance.Refresh
import ServiceMesh.Proofs.Cluster.Settling

/-!
What reaches a balanced channel. A resolver remembers the addresses that it told last, whether they
can be connected to or not, and tells the differences. Its changes pass through two queues: one
without bounds, in which they are told, and the channel itself, out of which they are taken when it
is used. Replayed in order they connect the channel to the addresses of the last answer.
-/

namespace ServiceMesh

namespace Change

/-- What a channel is connected to after a change. -/
def apply (connected : Finset String) : Change → Finset String
  | insert addr => Insert.insert addr connected
  | remove addr => connected.erase addr

/-- What a channel is connected to that has got these changes and no others. -/
def connected (changes : List Change) : Finset String := changes.foldl apply ∅

theorem mem_foldl_remove (addresses : List String) (s : Finset String) (a : String) :
    a ∈ (addresses.map remove).foldl apply s ↔ a ∈ s ∧ a ∉ addresses := by
  induction addresses generalizing s with
  | nil => simp
  | cons b addresses ih =>
      rw [List.map_cons, List.foldl_cons, ih, apply, Finset.mem_erase, List.mem_cons, not_or]
      exact ⟨fun ⟨⟨hb, hs⟩, ha⟩ => ⟨hs, hb, ha⟩, fun ⟨hs, hb, ha⟩ => ⟨⟨hb, hs⟩, ha⟩⟩

theorem mem_foldl_insert (addresses : List String) (s : Finset String) (a : String) :
    a ∈ (addresses.map insert).foldl apply s ↔ a ∈ s ∨ a ∈ addresses := by
  induction addresses generalizing s with
  | nil => simp
  | cons b addresses ih =>
      rw [List.map_cons, List.foldl_cons, ih, apply, Finset.mem_insert, List.mem_cons]
      rw [or_comm (a := a = b), or_assoc]

end Change

namespace Resolver

variable {r : Resolver} {d : Directory}

/-! ### Differences -/

def endpoints (addresses : List String) : Finset String := (addresses.filter isEndpoint).toFinset

theorem mem_endpoints {addresses : List String} {a : String} :
    a ∈ endpoints addresses ↔ a ∈ addresses ∧ isEndpoint a = true := by
  rw [endpoints, List.mem_toFinset, List.mem_filter]

theorem changes_self (addresses : List String) : changes addresses addresses = [] := by
  simp only [changes, difference, List.append_eq_nil_iff, List.map_eq_nil_iff,
    List.filter_eq_nil_iff, List.mem_filter, decide_eq_true_eq]
  exact ⟨fun a ha hno => hno ha, fun a ha => absurd ha.1 ha.2⟩

/-- Changes connect the channel to the new addresses, however often an address is told. -/
theorem foldl_apply_changes (old new : List String) :
    (changes old new).foldl Change.apply (endpoints old) = endpoints new := by
  ext a
  rw [changes, List.foldl_append, Change.mem_foldl_insert, Change.mem_foldl_remove, mem_endpoints,
    mem_endpoints]
  simp only [difference, List.mem_filter, decide_eq_true_eq]
  constructor
  · rintro (⟨⟨hold, he⟩, hkept⟩ | ⟨⟨hnew, -⟩, he⟩)
    · exact ⟨by_contra fun hnew => hkept ⟨hold, hnew⟩, he⟩
    · exact ⟨hnew, he⟩
  · rintro ⟨hnew, he⟩
    by_cases hold : a ∈ old
    · exact .inl ⟨⟨hold, he⟩, fun hgone => hgone.2 hnew⟩
    · exact .inr ⟨⟨hnew, hold⟩, he⟩

def changesAlong : List String → List (List String) → List Change
  | _, [] => []
  | old, new :: told => changes old new ++ changesAlong new told

theorem changesAlong_concat (old new : List String) (told : List (List String)) :
    changesAlong old (told ++ [new]) =
      changesAlong old told ++ changes (told.getLastD old) new := by
  induction told generalizing old with
  | nil => simp [changesAlong]
  | cons next told ih =>
      rw [List.cons_append, changesAlong, changesAlong, ih, List.append_assoc,
        List.getLastD_cons]

theorem foldl_apply_changesAlong (old : List String) (told : List (List String)) :
    (changesAlong old told).foldl Change.apply (endpoints old) =
      endpoints (told.getLastD old) := by
  induction told generalizing old with
  | nil => rfl
  | cons new told ih =>
      rw [changesAlong, List.foldl_append, foldl_apply_changes, ih, List.getLastD_cons]

/-- The changes along some lists lead to the last of them. -/
theorem connected_changesAlong (told : List (List String)) :
    Change.connected (changesAlong [] told) = endpoints (told.getLastD []) :=
  foldl_apply_changesAlong [] told

/-! ### Telling -/

/-- A service that is not known and one without nodes are alike. -/
theorem known_of_empty {name : String}
    (h : ∀ s, d.service name = .ok s → s.isEmpty = true) : d.known name = [] := by
  rw [Directory.known, Directory.addresses]
  cases hs : d.service name with
  | error f => rfl
  | ok s =>
      dsimp only
      rw [h s hs]
      rfl

/-- An open resolver tells at once, whatever is still in its queue and in the channel. -/
theorem push_of_open (h : r.isClosed = false) (d : Directory) :
    r.push d =
      { r with
        current := d.known r.service
        queue := r.queue ++ changes r.current (d.known r.service) } := by
  rw [push_eq, if_neg]
  simp [h]

/-- As much is forwarded as there is room for. -/
theorem forward_of_open (h : r.channelOpen = true) :
    r.forward =
      { r with
        channel := r.channel ++ r.queue.take (channelCapacity - r.channel.length)
        queue := r.queue.drop (channelCapacity - r.channel.length) } := by
  rw [forward]
  split
  · next hqueue => rw [hqueue, List.take_nil, List.drop_nil, List.append_nil, ← hqueue]
  · rfl

theorem build_eq_ok {target : String} (h : build d target = .ok r) :
    ∃ service, r = ({ service } : Resolver).push d := by
  rw [build] at h
  cases hs : parseTarget target with
  | error f =>
      rw [hs] at h
      cases h
  | ok service =>
      rw [hs] at h
      exact ⟨service, (Except.ok.inj h).symm⟩

end Resolver

/-! ### A channel in use -/

structure Balanced where
  resolver : Resolver
  taken : List Change := []

namespace Balanced

open Resolver

inductive Act where
  /-- The resolver is told to look again. -/
  | push (d : Directory)
  | forward
  /-- The channel is used, and some changes are taken out of it. -/
  | take (n : Nat)

def act (b : Balanced) : Act → Balanced
  | .push d => { b with resolver := b.resolver.push d }
  | .forward => { b with resolver := b.resolver.forward }
  | .take n =>
    { resolver := { b.resolver with channel := b.resolver.channel.drop n }
      taken := b.taken ++ b.resolver.channel.take n }

def play (b : Balanced) (acts : List Act) : Balanced := acts.foldl act b

def told (b : Balanced) : List Change := b.taken ++ (b.resolver.channel ++ b.resolver.queue)

def answers (service : String) (acts : List Act) : List (List String) :=
  acts.filterMap fun a =>
    match a with
    | .push d => some (d.known service)
    | _ => none

/-- The channel is open, and it has got or will get the changes along these answers, in order. -/
structure Follows (b : Balanced) (service : String) (found : List (List String)) : Prop where
  service : b.resolver.service = service
  isClosed : b.resolver.isClosed = false
  channelOpen : b.resolver.channelOpen = true
  current : b.resolver.current = found.getLastD []
  told : b.told = changesAlong [] found
  room : b.resolver.channel.length ≤ channelCapacity

variable {b : Balanced} {service : String} {found : List (List String)}

theorem play_append (b : Balanced) (acts acts' : List Act) :
    b.play (acts ++ acts') = (b.play acts).play acts' := List.foldl_append

theorem answers_append (service : String) (acts acts' : List Act) :
    answers service (acts ++ acts') = answers service acts ++ answers service acts' :=
  List.filterMap_append

/-- Using the channel is no look-up. -/
theorem answers_replicate (service : String) (n : Nat) :
    answers service (List.replicate n [.take channelCapacity, .forward]).flatten = [] := by
  induction n with
  | zero => rfl
  | succ n ih =>
      rw [List.replicate_succ, List.flatten_cons, answers_append, ih]
      rfl

theorem told_forward (h : b.resolver.channelOpen = true) : (b.act .forward).told = b.told := by
  rw [told, act, forward_of_open h, told]
  dsimp only
  rw [List.append_assoc _ (List.take _ _), List.take_append_drop]

theorem told_take (b : Balanced) (n : Nat) : (b.act (.take n)).told = b.told := by
  rw [told, act, told]
  dsimp only
  rw [List.append_assoc, ← List.append_assoc (List.take n _), List.take_append_drop]

namespace Follows

theorem push (h : b.Follows service found) (d : Directory) :
    (b.act (.push d)).Follows service (found ++ [d.known service]) := by
  rw [act, push_of_open h.isClosed]
  refine ⟨h.service, h.isClosed, h.channelOpen, ?_, ?_, h.room⟩
  · simp [h.service]
  · rw [changesAlong_concat, ← h.told, ← h.current, ← h.service, Balanced.told, Balanced.told]
    simp only [List.append_assoc]

theorem forward (h : b.Follows service found) : (b.act .forward).Follows service found := by
  have htold := (told_forward h.channelOpen).trans h.told
  rw [act, forward_of_open h.channelOpen] at htold ⊢
  refine ⟨h.service, h.isClosed, h.channelOpen, h.current, htold, ?_⟩
  have hroom := h.room
  dsimp only
  rw [List.length_append, List.length_take]
  omega

theorem take (h : b.Follows service found) (n : Nat) :
    (b.act (.take n)).Follows service found := by
  refine ⟨h.service, h.isClosed, h.channelOpen, h.current, (b.told_take n).trans h.told, ?_⟩
  rw [act, List.length_drop]
  exact Nat.le_trans (Nat.sub_le _ _) h.room

theorem play (h : b.Follows service found) (acts : List Act) :
    (b.play acts).Follows service (found ++ answers service acts) := by
  induction acts generalizing b found with
  | nil =>
      change b.Follows service (found ++ [])
      rwa [List.append_nil]
  | cons a acts ih =>
      change ((b.act a).play acts).Follows service _
      cases a with
      | push d =>
          have hfound : found ++ answers service (.push d :: acts) =
              found ++ [d.known service] ++ answers service acts := by
            simp [answers]
          rw [hfound]
          exact ih (h.push d)
      | forward => exact ih h.forward
      | take n => exact ih (h.take n)

/-- A channel that is used gets on: all that is in it is taken, and the next changes follow. -/
theorem queue_serve (h : b.Follows service found) :
    (b.play [.take channelCapacity, .forward]).resolver.queue =
      b.resolver.queue.drop channelCapacity := by
  have htaken := h.take channelCapacity
  have hempty : (b.act (.take channelCapacity)).resolver.channel = [] :=
    List.drop_eq_nil_of_le h.room
  change ((b.act (.take channelCapacity)).resolver.forward).queue = _
  rw [forward_of_open htaken.channelOpen, hempty]
  rfl

theorem queue_serve_replicate (h : b.Follows service found) (n : Nat) :
    (b.play (List.replicate n [.take channelCapacity, .forward]).flatten).resolver.queue =
      b.resolver.queue.drop (n * channelCapacity) := by
  induction n generalizing b with
  | zero => simp [Balanced.play]
  | succ n ih =>
      have hnext : (b.play [.take channelCapacity, .forward]).Follows service found :=
        (h.take _).forward
      rw [List.replicate_succ, List.flatten_cons, play_append, ih hnext, h.queue_serve,
        List.drop_drop, Nat.succ_mul, Nat.add_comm]

/-- After it was used often enough everything has been taken out of the channel. -/
theorem delivered (h : b.Follows service found) {n : Nat}
    (hn : b.resolver.queue.length ≤ n * channelCapacity) :
    let e := b.play ((List.replicate n [.take channelCapacity, .forward]).flatten ++
      [.take channelCapacity])
    e.taken = b.told ∧ e.resolver.channel = [] ∧ e.resolver.queue = [] := by
  intro e
  have hserved := h.play (List.replicate n [.take channelCapacity, .forward]).flatten
  have hqueue := h.queue_serve_replicate n
  rw [List.drop_eq_nil_of_le hn] at hqueue
  have he : e = (b.play (List.replicate n [.take channelCapacity, .forward]).flatten).act
      (.take channelCapacity) := by
    change Balanced.play b (_ ++ [_]) = _
    rw [play_append]
    rfl
  have hchannel : e.resolver.channel = [] := by
    rw [he, act]
    exact List.drop_eq_nil_of_le hserved.room
  have hempty : e.resolver.queue = [] := by rw [he, act]; exact hqueue
  have htold : e.told = b.told := by
    rw [he, told_take, hserved.told, h.told, answers_replicate, List.append_nil]
  refine ⟨?_, hchannel, hempty⟩
  rw [← htold, Balanced.told, hchannel, hempty, List.append_nil, List.append_nil]

end Follows

/-- A resolver that has just been built has told the answer of the moment. -/
theorem follows_build {d : Directory} {target : String} {r : Resolver}
    (h : build d target = .ok r) : (⟨r, []⟩ : Balanced).Follows r.service [d.known r.service] := by
  obtain ⟨service, rfl⟩ := build_eq_ok h
  have hnew : (⟨{ service }, []⟩ : Balanced).Follows service [] :=
    ⟨rfl, rfl, rfl, rfl, rfl, Nat.zero_le _⟩
  have hpush := hnew.push d
  have hservice : (({ service } : Resolver).push d).service = service := hpush.service
  rw [hservice]
  exact hpush

end Balanced

/-! ### No time -/

namespace Cluster

theorem buildResolver_now (c : Cluster) (builder id target : String) :
    (c.buildResolver builder id target).1.now = c.now := by
  rw [buildResolver]
  split
  · rfl
  · split
    · rfl
    · exact settle_now _

theorem notifyAll_now (c : Cluster) (builder : String) : (c.notifyAll builder).now = c.now :=
  (settle_now _).trans (alike_notifyResolvers c builder).now

theorem pushResolver_now (c : Cluster) (id : String) : (c.pushResolver id).now = c.now := by
  rw [pushResolver, modifyResolver]
  split
  · exact settle_now _
  · rfl

end Cluster

namespace Balanced

open Resolver

/-- However often a resolver looks again and whatever it finds: what it has told connects its
channel to the addresses found last, and comes out of the channel in the order in which it was told.
What was found before is not told again, and telling waits for nothing. -/
theorem channel_follows_addresses {d₀ : Directory} {target : String} {r₀ : Resolver}
    (h : build d₀ target = .ok r₀) (acts : List Act) :
    let b := (⟨r₀, []⟩ : Balanced).play acts
    let found := d₀.known r₀.service :: answers r₀.service acts
    Change.connected b.told = endpoints (found.getLastD []) ∧
      b.resolver.current = found.getLastD [] ∧
      (∀ d : Directory, (∀ s, d.service r₀.service = .ok s → s.isEmpty = true) →
        d.known r₀.service = []) ∧
      (∀ d : Directory, d.known r₀.service = b.resolver.current →
        b.resolver.push d = b.resolver) ∧
      b.told = changesAlong [] found ∧
      (∀ n, b.resolver.queue.length ≤ n * channelCapacity →
        let e := b.play ((List.replicate n [.take channelCapacity, .forward]).flatten ++
          [.take channelCapacity])
        e.taken = b.told ∧ e.resolver.channel = [] ∧ e.resolver.queue = []) ∧
      b.resolver.channel.length ≤ channelCapacity ∧
      (∀ d : Directory, b.resolver.push d =
        { b.resolver with
          current := d.known r₀.service
          queue := b.resolver.queue ++ changes b.resolver.current (d.known r₀.service) }) ∧
      ∀ (c : Cluster) (builder id target : String),
        (c.buildResolver builder id target).1.now = c.now ∧
          (c.notifyAll builder).now = c.now ∧ (c.pushResolver id).now = c.now := by
  intro b found
  have hb : b.Follows r₀.service found := (follows_build h).play acts
  have hpush : ∀ d : Directory, b.resolver.push d =
      { b.resolver with
        current := d.known r₀.service
        queue := b.resolver.queue ++ changes b.resolver.current (d.known r₀.service) } := by
    intro d
    rw [← hb.service]
    exact push_of_open hb.isClosed d
  refine ⟨?_, hb.current, fun d hd => known_of_empty hd, fun d hd => ?_, hb.told,
    fun n hn => hb.delivered hn, hb.room, hpush, fun c builder id target => ?_⟩
  · rw [hb.told, connected_changesAlong]
  · rw [hpush, hd, changes_self, List.append_nil]
  · exact ⟨c.buildResolver_now builder id target, c.notifyAll_now builder, c.pushResolver_now id⟩

/-- A service with a node that is told twice and one that nobody can connect to. -/
def doubled : Script where
  services := [
    ("svc-a", .ok [
      .new "svc-a" "10.0.0.1" 9001, .new "svc-a" "no host" 9001, .new "svc-a" "10.0.0.1" 9001])]
  listing := none

def replaced : Script where
  services := [("svc-a", .ok [.new "svc-a" "no host" 9001, .new "svc-a" "10.0.0.2" 9001])]
  listing := none

/-- The channel is used once while the service changes, and once more in the end. -/
theorem channel_follows_addresses_replaced :
    let r₀ := ({ service := "svc-a" } : Resolver).push doubled.directory
    let b := (⟨r₀, []⟩ : Balanced).play [
      .forward, .take 1, .push .detached, .push replaced.directory]
    build doubled.directory "lb:///svc-a" = .ok r₀ ∧
      b.resolver.current = ["no host:9001", "10.0.0.2:9001"] ∧
      Change.connected b.told = endpoints ["no host:9001", "10.0.0.2:9001"] ∧
      b.resolver.push replaced.directory = b.resolver ∧
      (b.play [.take channelCapacity, .forward, .take channelCapacity]).taken = [
        .insert "10.0.0.1:9001", .insert "10.0.0.1:9001", .remove "10.0.0.1:9001",
        .remove "no host:9001", .remove "10.0.0.1:9001", .insert "10.0.0.2:9001"] := by
  intro r₀ b
  have hbuild : build doubled.directory "lb:///svc-a" = .ok r₀ := by decide +kernel
  obtain ⟨hconnected, hcurrent, -, hsame, htold, hdelivered, -⟩ :=
    channel_follows_addresses hbuild [
      .forward, .take 1, .push .detached, .push replaced.directory]
  obtain ⟨htaken, -⟩ := hdelivered 1 (by decide +kernel)
  refine ⟨hbuild, hcurrent, hconnected, hsame _ (by decide +kernel), htaken.trans ?_⟩
  rw [htold]
  decide +kernel

end Balanced

end ServiceMesh
