import ServiceMesh.Proofs.Balance.Refresh
import ServiceMesh.Proofs.Balance.Turns

/-!
The counter over a long run. Pools and slots are brought up to date from time to time and asked in
between. Every selection that finds somebody takes the next value of the counter, and nothing else
takes one: neither upkeep, whatever the registry says by then, nor a selection that fails. Upkeep
that finds nothing new leaves no trace at all.
-/

namespace ServiceMesh

/-- What selects by turns: it is kept up to date by some of the acts on it and asked by the
others. -/
structure Balancer (σ τ α : Type) where
  /-- The state after an act, and how a selection ended, if there was one. -/
  act : σ → τ → σ × Option (Except Failure α)
  isUpkeep : τ → Bool
  roundRobin : σ → RoundRobin
  /-- Those among whom an act selects. -/
  items : σ → τ → List α

/-- All acts up to the first of a kind, and from there on only those of other kinds. -/
def keepFirst {τ : Type} (kind : τ → Bool) : List τ → List τ
  | [] => []
  | a :: acts => if kind a then a :: acts.filter (!kind ·) else a :: keepFirst kind acts

namespace Balancer

variable {σ τ α : Type} (b : Balancer σ τ α)

def after (s : σ) (acts : List τ) : σ := acts.foldl (fun s a => (b.act s a).1) s

def answers : σ → List τ → List (Option (Except Failure α))
  | _, [] => []
  | s, a :: acts =>
    (if b.isUpkeep a then [] else [(b.act s a).2]) ++ answers (b.act s a).1 acts

/-- The selections that found somebody: among whom, and whom. -/
def selected : σ → List τ → List (List α × α)
  | _, [] => []
  | s, a :: acts =>
    ((b.act s a).2.bind (·.toOption)).toList.map (b.items s a, ·) ++ selected (b.act s a).1 acts

/-- What is selected is what the counter says, and the counter is moved by nothing else. -/
structure ByCounter : Prop where
  found : ∀ s a, (b.act s a).2.bind (·.toOption) = ((b.roundRobin s).pick (b.items s a)).2
  moved : ∀ s a, b.roundRobin (b.act s a).1 = ((b.roundRobin s).pick (b.items s a)).1

/-- In such a state upkeep changes nothing, and there is no way out of it. -/
structure Settles (settled : σ → Prop) (acts : List τ) : Prop where
  idle : ∀ {s a}, a ∈ acts → settled s → b.isUpkeep a = true → (b.act s a).1 = s
  kept : ∀ {s a}, a ∈ acts → settled s → b.isUpkeep a = false → settled (b.act s a).1

variable {b}

@[simp] theorem after_cons (s : σ) (a : τ) (acts : List τ) :
    b.after s (a :: acts) = b.after (b.act s a).1 acts := rfl

theorem answers_cons (s : σ) (a : τ) (acts : List τ) :
    b.answers s (a :: acts) =
      (if b.isUpkeep a then [] else [(b.act s a).2]) ++ b.answers (b.act s a).1 acts := rfl

/-! ### The values of the counter -/

theorem ByCounter.selected_cons (hb : b.ByCounter) (s : σ) (a : τ) (acts : List τ) :
    b.selected s (a :: acts) =
      (((b.roundRobin s).pick (b.items s a)).2).toList.map (b.items s a, ·) ++
        b.selected (b.act s a).1 acts := by
  rw [selected, hb.found]

/-- The value that comes `i` after the next is the one that comes `i + 1` after this one. -/
theorem succ_add_mod (c : UInt64) (i : Nat) :
    ((c + 1).toNat + i) % UInt64.size = (c.toNat + (i + 1)) % UInt64.size := by
  rw [UInt64.toNat_add]
  change ((c.toNat + 1) % UInt64.size + i) % UInt64.size = _
  rw [Nat.mod_add_mod, Nat.add_assoc, Nat.add_comm 1 i]

/-- The selections that find somebody take the values of the counter one after the other. -/
theorem ByCounter.getElem?_selected (hb : b.ByCounter) (s : σ) (acts : List τ) (i : Nat)
    {items : List α} {x : α} (h : (b.selected s acts)[i]? = some (items, x)) :
    items[((b.roundRobin s).counter.toNat + i) % UInt64.size % items.length]? = some x := by
  induction acts generalizing s i with
  | nil => cases h
  | cons a acts ih =>
      rw [hb.selected_cons] at h
      have hmoved := hb.moved s a
      by_cases hitems : b.items s a = []
      · rw [hitems, RoundRobin.pick_nil] at h hmoved
        have hlater := ih (b.act s a).1 i h
        rwa [hmoved] at hlater
      · rw [RoundRobin.pick_of_ne_nil hitems] at h hmoved
        have hlt : (b.roundRobin s).counter.toNat % (b.items s a).length <
            (b.items s a).length := Nat.mod_lt _ (List.length_pos_iff.2 hitems)
        rw [List.getElem?_eq_getElem hlt] at h
        cases i with
        | zero =>
            obtain ⟨rfl, rfl⟩ := Prod.mk.inj (Option.some.inj h)
            rw [Nat.add_zero, Nat.mod_eq_of_lt (UInt64.toNat_lt _)]
            exact List.getElem?_eq_getElem hlt
        | succ i =>
            have hlater := ih (b.act s a).1 i h
            rwa [hmoved, succ_add_mod] at hlater

/-- The counter is as many values further as there were selections that found somebody. -/
theorem ByCounter.roundRobin_after (hb : b.ByCounter) (s : σ) (acts : List τ) :
    (b.roundRobin (b.after s acts)).counter.toNat =
      ((b.roundRobin s).counter.toNat + (b.selected s acts).length) % UInt64.size := by
  induction acts generalizing s with
  | nil => exact (Nat.mod_eq_of_lt (UInt64.toNat_lt _)).symm
  | cons a acts ih =>
      have hmoved := hb.moved s a
      rw [after_cons, ih, hb.selected_cons, List.length_append]
      by_cases hitems : b.items s a = []
      · rw [hitems, RoundRobin.pick_nil] at hmoved ⊢
        rw [hmoved]
        simp
      · rw [RoundRobin.pick_of_ne_nil hitems] at hmoved ⊢
        have hlt : (b.roundRobin s).counter.toNat % (b.items s a).length <
            (b.items s a).length := Nat.mod_lt _ (List.length_pos_iff.2 hitems)
        rw [hmoved, succ_add_mod, List.getElem?_eq_getElem hlt]
        simp [Nat.add_comm]

/-! ### Upkeep that finds nothing new -/

theorem Settles.tail {settled : σ → Prop} {a : τ} {acts : List τ}
    (h : b.Settles settled (a :: acts)) : b.Settles settled acts where
  idle ha := h.idle (List.mem_cons_of_mem a ha)
  kept ha := h.kept (List.mem_cons_of_mem a ha)

theorem Settles.filter {settled : σ → Prop} {acts : List τ} (h : b.Settles settled acts) {s : σ}
    (hs : settled s) :
    b.answers s (acts.filter (!b.isUpkeep ·)) = b.answers s acts ∧
      b.after s (acts.filter (!b.isUpkeep ·)) = b.after s acts := by
  induction acts generalizing s with
  | nil => exact ⟨rfl, rfl⟩
  | cons a acts ih =>
      cases ha : b.isUpkeep a with
      | true =>
          have hidle := h.idle List.mem_cons_self hs ha
          rw [List.filter_cons_of_neg (by simp [ha]), answers_cons, after_cons, ha, hidle]
          exact ih h.tail hs
      | false =>
          have hkept := h.kept List.mem_cons_self hs ha
          obtain ⟨hanswers, hafter⟩ := ih h.tail hkept
          rw [List.filter_cons_of_pos (by simp [ha]), answers_cons, answers_cons, after_cons,
            after_cons, hanswers, hafter]
          exact ⟨rfl, rfl⟩

/-- If upkeep settles everything, it is enough to do it once. -/
theorem Settles.keepFirst {settled : σ → Prop} {acts : List τ} (h : b.Settles settled acts)
    (hfirst : ∀ s, ∀ a ∈ acts, b.isUpkeep a = true → settled (b.act s a).1) (s : σ) :
    b.answers s (keepFirst b.isUpkeep acts) = b.answers s acts ∧
      b.after s (ServiceMesh.keepFirst b.isUpkeep acts) = b.after s acts := by
  induction acts generalizing s with
  | nil => exact ⟨rfl, rfl⟩
  | cons a acts ih =>
      have hlater := ih h.tail fun s a' ha' => hfirst s a' (List.mem_cons_of_mem a ha')
      cases ha : b.isUpkeep a with
      | true =>
          have hsettled := hfirst s a List.mem_cons_self ha
          obtain ⟨hanswers, hafter⟩ := h.tail.filter hsettled
          rw [ServiceMesh.keepFirst, if_pos ha, answers_cons, answers_cons, after_cons, after_cons,
            hanswers, hafter]
          exact ⟨rfl, rfl⟩
      | false =>
          obtain ⟨hanswers, hafter⟩ := hlater (b.act s a).1
          rw [ServiceMesh.keepFirst, if_neg (by simp [ha]), answers_cons, answers_cons, after_cons,
            after_cons, hanswers, hafter]
          exact ⟨rfl, rfl⟩

end Balancer

/-! ### Pools -/

namespace Pool

/-- What is done with a pool. A sync sees the registry as it is at that moment. -/
inductive Act where
  | sync (d : Directory)
  | select (service : String)

def balancer : Balancer Pool Act Backend where
  act p
    | .sync d => (p.sync d, none)
    | .select service => ((p.select service).1, some (p.select service).2)
  isUpkeep
    | .sync _ => true
    | .select _ => false
  roundRobin := (·.roundRobin)
  items p
    | .sync _ => []
    | .select service => p.candidates service

theorem byCounter : balancer.ByCounter where
  found p a := by
    cases a with
    | sync d => rfl
    | select service => exact p.serves.answers p.roundRobin service
  moved p a := by
    cases a with
    | sync d => rfl
    | select service => exact congrArg Pool.roundRobin (p.serves.goesOn p.roundRobin service)

/-- A pool that agrees with the registry is left as it is. -/
theorem InSync.sync_eq {p : Pool} {d : Directory} (h : p.InSync d) : p.sync d = p := by
  have hchange : difference p.clients (targets d) = ⟨[], []⟩ := by
    rw [difference, Difference.mk.injEq, List.filter_eq_nil_iff, List.filter_eq_nil_iff]
    exact ⟨fun c hc => by simpa using (h.2 c).2 hc, fun c hc => by simpa using (h.2 c).1 hc⟩
  rw [sync, hchange, ← h.1, List.append_nil, List.filter_eq_self.2 (by simp)]

/-- While the registry says the same, one sync is enough. -/
theorem settles_of_forall {acts : List Act} {d : Directory}
    (h : ∀ d', .sync d' ∈ acts → d' = d) : balancer.Settles (InSync · d) acts where
  idle {p a} ha hp hupkeep := by
    cases a with
    | sync d' => exact h d' ha ▸ hp.sync_eq
    | select service => cases hupkeep
  kept {p a} _ hp hupkeep := by
    cases a with
    | sync d' => cases hupkeep
    | select service => exact hp.select service

end Pool

/-! ### Slots -/

namespace SelectorSlot

inductive Act where
  | rebuild
  | next (d : Directory) (service : String)

/-- As long as there is no selector nothing is selected. -/
def balancer : Balancer SelectorSlot Act Node where
  act s
    | .rebuild => (s.rebuild, none)
    | .next d service =>
      if s.isBuilt then ((s.next d service).1, some (s.next d service).2) else (s, none)
  isUpkeep
    | .rebuild => true
    | .next _ _ => false
  roundRobin := (·.roundRobin)
  items s
    | .rebuild => []
    | .next d service => if s.isBuilt then d.nodes service else []

theorem byCounter : balancer.ByCounter where
  found s a := by
    cases a with
    | rebuild => rfl
    | next d service =>
        obtain ⟨r, _ | _⟩ := s
        · rfl
        · exact (serves ⟨r, true⟩ d).answers r service
  moved s a := by
    cases a with
    | rebuild => rfl
    | next d service =>
        obtain ⟨r, _ | _⟩ := s
        · rfl
        · exact congrArg SelectorSlot.roundRobin ((serves ⟨r, true⟩ d).goesOn r service)

/-- A slot that has a selector keeps it, and a new one is no different. -/
theorem settles (acts : List Act) : balancer.Settles (·.isBuilt = true) acts where
  idle {s a} _ hs hupkeep := by
    cases a with
    | rebuild =>
        obtain ⟨r, _ | _⟩ := s
        · cases hs
        · rfl
    | next d service => cases hupkeep
  kept {s a} _ hs hupkeep := by
    cases a with
    | rebuild => cases hupkeep
    | next d service =>
        obtain ⟨r, _ | _⟩ := s
        · cases hs
        · exact congrArg SelectorSlot.isBuilt ((serves ⟨r, true⟩ d).goesOn r service)

end SelectorSlot

namespace Balancer

/-- In a run of a pool or a slot, the `i`-th selection that finds somebody is that of the `i`-th
value of the counter, from where it was at the beginning, whatever upkeep and whatever failures lie
in between; and with a selector and somebody to find, somebody is found. So upkeep beyond the first
makes no difference, neither to the selections nor to what is left in the end: in a pool as long as
the registry says the same, in a slot always. -/
theorem counter_outlasts_upkeep (p : Pool) (s : SelectorSlot) :
    (∀ acts i clients c, (Pool.balancer.selected p acts)[i]? = some (clients, c) →
      clients[(p.roundRobin.counter.toNat + i) % UInt64.size % clients.length]? = some c) ∧
    (∀ acts, (Pool.balancer.after p acts).roundRobin.counter.toNat =
      (p.roundRobin.counter.toNat + (Pool.balancer.selected p acts).length) % UInt64.size) ∧
    (∀ acts i nodes n, (SelectorSlot.balancer.selected s acts)[i]? = some (nodes, n) →
      nodes[(s.roundRobin.counter.toNat + i) % UInt64.size % nodes.length]? = some n) ∧
    (∀ acts, (SelectorSlot.balancer.after s acts).roundRobin.counter.toNat =
      (s.roundRobin.counter.toNat + (SelectorSlot.balancer.selected s acts).length) % UInt64.size) ∧
    (∀ acts service, (Pool.balancer.after p acts).isSynced = true →
      (∃ c ∈ (Pool.balancer.after p acts).clients, c.service = service) →
        ∃ c, (Pool.balancer.act (Pool.balancer.after p acts) (.select service)).2 =
          some (.ok c)) ∧
    (∀ acts d service, (SelectorSlot.balancer.after s acts).isBuilt = true →
      d.nodes service ≠ [] →
        ∃ n, (SelectorSlot.balancer.act (SelectorSlot.balancer.after s acts)
          (.next d service)).2 = some (.ok n)) ∧
    (∀ acts d, (∀ d', .sync d' ∈ acts → d' = d) →
      Pool.balancer.answers p (keepFirst Pool.balancer.isUpkeep acts) =
          Pool.balancer.answers p acts ∧
        Pool.balancer.after p (keepFirst Pool.balancer.isUpkeep acts) =
          Pool.balancer.after p acts) ∧
    ∀ acts,
      SelectorSlot.balancer.answers s (keepFirst SelectorSlot.balancer.isUpkeep acts) =
          SelectorSlot.balancer.answers s acts ∧
        SelectorSlot.balancer.after s (keepFirst SelectorSlot.balancer.isUpkeep acts) =
          SelectorSlot.balancer.after s acts := by
  refine ⟨fun acts i clients c h => Pool.byCounter.getElem?_selected p acts i h,
    fun acts => Pool.byCounter.roundRobin_after p acts,
    fun acts i nodes n h => SelectorSlot.byCounter.getElem?_selected s acts i h,
    fun acts => SelectorSlot.byCounter.roundRobin_after s acts,
    fun acts service hs hc => ?_, fun acts d service hs hn => ?_, fun acts d hd => ?_,
    fun acts => ?_⟩
  · obtain ⟨c, -, -, hselect⟩ := Pool.exists_select hs hc
    exact ⟨c, congrArg some (congrArg Prod.snd hselect)⟩
  · obtain ⟨n, -, hnext⟩ := SelectorSlot.exists_next hn (SelectorSlot.balancer.after s acts)
    exact ⟨n, (congrArg Prod.snd (if_pos hs)).trans (congrArg some hnext)⟩
  · refine (Pool.settles_of_forall hd).keepFirst (fun q a ha hupkeep => ?_) p
    cases a with
    | sync d' => exact hd d' ha ▸ q.inSync_sync d'
    | select service => cases hupkeep
  · refine (SelectorSlot.settles acts).keepFirst (fun t a _ hupkeep => ?_) s
    cases a with
    | rebuild => rfl
    | next d service => cases hupkeep

def steady : Script where
  services := [
    ("svc-a", .ok [.new "svc-a" "10.0.0.1" 9001, .new "svc-a" "10.0.0.2" 9001]),
    ("svc-b", .ok [.new "svc-b" "10.0.0.3" 9001])]
  listing := none

/-- The counters wrap after their first value. Three selections of the pool and of the slot find
somebody; upkeep, a service that nobody knows and a selector that is not there yet do not count. -/
theorem counter_outlasts_upkeep_wrapping :
    let r : RoundRobin := ⟨18446744073709551615⟩
    let p : Pool := { roundRobin := r }
    let s : SelectorSlot := { roundRobin := r }
    let d := steady.directory
    let clients : List Backend := [⟨"10.0.0.1:9001", "svc-a"⟩, ⟨"10.0.0.2:9001", "svc-a"⟩]
    let nodes : List Node := [.new "svc-a" "10.0.0.1" 9001, .new "svc-a" "10.0.0.2" 9001]
    let acts : List Pool.Act := [.select "svc-a", .sync d, .select "svc-a", .sync d,
      .select "svc-x", .select "svc-a", .select "svc-b"]
    let once : List Pool.Act := [.select "svc-a", .sync d, .select "svc-a", .select "svc-x",
      .select "svc-a", .select "svc-b"]
    let steps : List SelectorSlot.Act := [.next d "svc-a", .rebuild, .next d "svc-a", .rebuild,
      .next d "svc-x", .next d "svc-a", .next d "svc-b"]
    let built : List SelectorSlot.Act := [.next d "svc-a", .rebuild, .next d "svc-a",
      .next d "svc-x", .next d "svc-a", .next d "svc-b"]
    ((Pool.balancer.selected p acts)[1]? = some (clients, ⟨"10.0.0.1:9001", "svc-a"⟩) ∧
      clients[(r.counter.toNat + 1) % UInt64.size % clients.length]? =
        some ⟨"10.0.0.1:9001", "svc-a"⟩ ∧
      (∃ c, (Pool.balancer.act (Pool.balancer.after p acts) (.select "svc-b")).2 =
        some (.ok c)) ∧
      (∀ d', .sync d' ∈ acts → d' = d) ∧
      Pool.balancer.answers p once = Pool.balancer.answers p acts ∧
      Pool.balancer.after p once = Pool.balancer.after p acts) ∧
    (SelectorSlot.balancer.selected s steps)[1]? =
        some (nodes, .new "svc-a" "10.0.0.1" 9001) ∧
      nodes[(r.counter.toNat + 1) % UInt64.size % nodes.length]? =
        some (.new "svc-a" "10.0.0.1" 9001) ∧
      (∃ n, (SelectorSlot.balancer.act (SelectorSlot.balancer.after s steps)
        (.next d "svc-b")).2 = some (.ok n)) ∧
      SelectorSlot.balancer.answers s built = SelectorSlot.balancer.answers s steps ∧
      SelectorSlot.balancer.after s built = SelectorSlot.balancer.after s steps := by
  intro r p s d clients nodes acts once steps built
  have hsame : ∀ d', .sync d' ∈ acts → d' = d := by simp [acts]
  have hclient : (Pool.balancer.selected p acts)[1]? =
      some (clients, ⟨"10.0.0.1:9001", "svc-a"⟩) := by decide +kernel
  have hnode : (SelectorSlot.balancer.selected s steps)[1]? =
      some (nodes, .new "svc-a" "10.0.0.1" 9001) := by decide +kernel
  obtain ⟨hclients, -, hnodes, -, hselect, hnext, hsynced, hbuilt⟩ := counter_outlasts_upkeep p s
  exact ⟨⟨hclient, hclients acts 1 _ _ hclient,
      hselect acts "svc-b" (by decide +kernel) (by decide +kernel), hsame, hsynced acts d hsame⟩,
    hnode, hnodes steps 1 _ _ hnode, hnext steps d "svc-b" (by decide +kernel) (by decide +kernel),
    hbuilt steps⟩

end Balancer

end ServiceMesh
