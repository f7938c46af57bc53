import ServiceMesh.Proofs.Balance.Upkeep

/-!
Which clients a pool has. After a sync these are the clients of the nodes that the registry tells
of: first the earlier ones that are still asked for, as they were, then one for each node that is
new. So whatever happened to a pool, what is selected from it was told of at the last sync.
-/

namespace ServiceMesh.Pool

variable {p : Pool} {d : Directory} {b : Backend} {service : String}

/-! ### One sync -/

/-- Every service of the listing is asked for its clients in turn. -/
theorem targets_eq (d : Directory) :
    targets d = (d.names.toOption.getD []).flatMap fun name =>
      (d.nodes name).map fun n => ⟨n.addr, name⟩ := by
  rw [targets]
  cases d.names with
  | error f => rfl
  | ok names =>
      refine congrArg (List.flatMap · names) (funext fun name => ?_)
      rw [Directory.nodes]
      cases d.service name <;> rfl

theorem targets_of_error {f : Failure} (h : d.names = .error f) : targets d = [] := by
  rw [targets, h]

theorem sync_eq (p : Pool) (d : Directory) :
    p.sync d =
      { p with
        clients := p.clients.filter (· ∈ targets d) ++ (targets d).filter (· ∉ p.clients)
        isSynced := true } := by
  -- a client is among those to be dropped exactly if it is no target
  have hkept : p.clients.filter (fun c => c ∉ (difference p.clients (targets d)).removed) =
      p.clients.filter (· ∈ targets d) := by
    refine List.filter_congr fun c hc => ?_
    simp [difference, hc]
  rw [sync, hkept]
  rfl

theorem nodup_clients_sync (hp : p.clients.Nodup) (hd : (targets d).Nodup) :
    (p.sync d).clients.Nodup := by
  rw [sync_eq]
  refine List.nodup_append.2 ⟨hp.filter _, hd.filter _, ?_⟩
  rintro b hb c hc rfl
  have hnew := (List.mem_filter.1 hc).2
  exact of_decide_eq_true hnew (List.mem_filter.1 hb).1

/-! ### Selection -/

theorem select_of_unready (h : p.isSynced = false) (service : String) :
    p.select service = (p, .error (.ofGateway "service registry not ready")) := by
  rw [select, if_pos (by simp [h])]

theorem select_of_nobody (h : p.isSynced = true) (hb : ∀ b ∈ p.clients, b.service ≠ service) :
    p.select service = (p, .error (.ofGateway "no available nodes")) := by
  have hnil : p.clients.filter (fun c => c.service = service) = [] :=
    List.filter_eq_nil_iff.2 fun b hb' => by simpa using hb b hb'
  rw [select, if_neg (by simp [h]), hnil, RoundRobin.pick_nil]

/-! ### Runs -/

def lastSeen (acts : List Act) : Option Directory :=
  acts.foldl (fun seen a =>
    match a with
    | .sync d => some d
    | .select _ => seen) none

/-- The pool has followed the registry as it was seen last, or it has never followed it. -/
def Follows (p : Pool) : Option Directory → Prop
  | some d => p.InSync d
  | none => p.isSynced = false

theorem Follows.act {seen : Option Directory} (h : p.Follows seen) (a : Act) :
    (balancer.act p a).1.Follows
      (match a with
        | .sync d => some d
        | .select _ => seen) := by
  cases a with
  | sync d => exact p.inSync_sync d
  | select service =>
      cases seen with
      | some d => exact InSync.select h service
      | none =>
          have hself : balancer.act p (.select service) = (p, some (p.select service).2) := by
            change ((p.select service).1, some (p.select service).2) = _
            rw [select_of_unready h]
          rw [hself]
          exact h

theorem follows_after (r : RoundRobin) (acts : List Act) :
    (balancer.after { roundRobin := r } acts).Follows (lastSeen acts) := by
  suffices H : ∀ (p : Pool) (seen : Option Directory), p.Follows seen →
      (balancer.after p acts).Follows (acts.foldl (fun seen a =>
        match a with
        | .sync d => some d
        | .select _ => seen) seen) from H _ none rfl
  induction acts with
  | nil => exact fun p seen h => h
  | cons a acts ih => exact fun p seen h => ih _ _ (h.act a)

/-- How a selection of a service ends in a pool that followed this registry last, if any. -/
structure Ends (seen : Option Directory) (service : String) (result : Except Failure Backend) :
    Prop where
  found : ∀ b, result = .ok b → ∃ d ∈ seen, b ∈ targets d ∧ b.service = service
  nobody : result = .error (.ofGateway "no available nodes") ↔
    ∃ d ∈ seen, ∀ b ∈ targets d, b.service ≠ service
  unready : result = .error (.ofGateway "service registry not ready") ↔ seen = none
  fails : ∀ f, result = .error f →
    f = .ofGateway "no available nodes" ∨ f = .ofGateway "service registry not ready"

theorem Follows.ends {seen : Option Directory} (h : p.Follows seen) (service : String) :
    Ends seen service (p.select service).2 := by
  have hdistinct : Failure.ofGateway "no available nodes" ≠
      .ofGateway "service registry not ready" := by decide
  cases seen with
  | none =>
      rw [select_of_unready h]
      exact ⟨by simp, by simp [hdistinct.symm], by simp, by simp⟩
  | some d =>
      have hsync : p.isSynced = true := h.1
      by_cases hb : ∃ b ∈ p.clients, b.service = service
      · obtain ⟨b, hmem, hservice, hselect⟩ := exists_select hsync hb
        rw [hselect]
        have hd : b ∈ targets d := (h.2 b).1 hmem
        refine ⟨?_, ?_, by simp, by simp⟩
        · rintro c ⟨⟩
          exact ⟨d, rfl, hd, hservice⟩
        · simpa using ⟨b, hd, hservice⟩
      · have hnobody : ∀ b ∈ p.clients, b.service ≠ service := fun b hmem hs => hb ⟨b, hmem, hs⟩
        rw [select_of_nobody hsync hnobody]
        refine ⟨by simp, ?_, by simp [hdistinct], by simp⟩
        simpa using fun b hd => hnobody b ((h.2 b).2 hd)

/-- After a sync a pool has exactly the clients that the registry asks for, whatever it had before:
those of before that are still asked for, in their order, and behind them the new ones, in the order
in which the services are listed and their nodes are found. What is selected in any run comes from
what the last sync saw. -/
theorem clients_follow_registry (p : Pool) (d : Directory) (r : RoundRobin) (acts : List Act)
    (service : String) :
    (targets d = (d.names.toOption.getD []).flatMap fun name =>
        (d.nodes name).map fun n => ⟨n.addr, name⟩) ∧
      p.sync d =
        { p with
          clients := p.clients.filter (· ∈ targets d) ++ (targets d).filter (· ∉ p.clients)
          isSynced := true } ∧
      (∀ b, b ∈ (p.sync d).clients ↔ b ∈ targets d) ∧
      (∀ f, d.names = .error f → (p.sync d).clients = []) ∧
      (p.clients.Nodup → (targets d).Nodup → (p.sync d).clients.Nodup) ∧
      Ends (lastSeen acts) service
        ((balancer.after { roundRobin := r } acts).select service).2 := by
  refine ⟨targets_eq d, sync_eq p d, (p.inSync_sync d).2, fun f hf => ?_, nodup_clients_sync,
    (follows_after r acts).ends service⟩
  refine List.eq_nil_iff_forall_not_mem.2 fun b hb => ?_
  rw [(p.inSync_sync d).2, targets_of_error hf] at hb
  cases hb

/-- An address has moved from one service to another. -/
def moved : Script where
  services := [
    ("svc-a", .ok [.new "svc-a" "10.0.0.1" 9001]), ("svc-b", .error .notReady),
    ("svc-c", .ok [.new "svc-c" "10.0.0.2" 9002])]
  listing := none

/-- The client of the old service goes and one of the new service comes; where it stood it does not
come back. Without an answer there is nobody left, and then there is nobody to select. -/
theorem clients_follow_registry_moved :
    let p : Pool := {
      clients := [⟨"10.0.0.2:9002", "svc-b"⟩, ⟨"10.0.0.1:9001", "svc-a"⟩]
      isSynced := true
      roundRobin := ⟨0⟩ }
    let d := moved.directory
    let acts : List Act := [.sync d, .select "svc-c", .sync .detached]
    p.clients.Nodup ∧ (targets d).Nodup ∧ (p.sync d).clients.Nodup ∧
      (p.sync d).clients = [⟨"10.0.0.1:9001", "svc-a"⟩, ⟨"10.0.0.2:9002", "svc-c"⟩] ∧
      Directory.detached.names = .error .notReady ∧ (p.sync .detached).clients = [] ∧
      ((balancer.after { roundRobin := ⟨0⟩ } acts).select "svc-c").2 =
        .error (.ofGateway "no available nodes") := by
  intro p d acts
  have hp : p.clients.Nodup := by decide +kernel
  have hd : (targets d).Nodup := by decide +kernel
  obtain ⟨-, -, -, -, hnodup, -⟩ := clients_follow_registry p d ⟨0⟩ [] "svc-c"
  obtain ⟨-, -, -, hempty, -, hends⟩ := clients_follow_registry p .detached ⟨0⟩ acts "svc-c"
  refine ⟨hp, hd, hnodup hp hd, by decide +kernel, rfl, hempty _ rfl, hends.nobody.2 ?_⟩
  exact ⟨.detached, rfl, by rintro b ⟨⟩⟩

end ServiceMesh.Pool
