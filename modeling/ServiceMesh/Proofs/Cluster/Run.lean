import ServiceMesh.Cluster.Clients
import ServiceMesh.Proofs.Store.Log

/-!
Runs of a cluster. A run is a list of acts: a task takes one step, time passes, or something is done
from outside. Nothing is assumed about their order, so the runs are all interleavings at the points
where tasks wait, with every duration of every call.
-/

namespace ServiceMesh

inductive Routine where
  | upkeep
  | apply (events : List Event)
  | withdrawal

def Member.start (m : Member) (now : Nat) : Routine → Member × Next
  | .upkeep => (m, m.tick now)
  | .apply events => m.applyEvents events
  | .withdrawal => m.deregister

inductive Bus.Op where
  | subscribe
  | drain (id limit : Nat)
  | close (id : Nat)

def Bus.Op.run (b : Bus) : Bus.Op → Bus
  | subscribe => b.subscribe.1
  | drain id limit => (b.drain id limit).1
  | close id => b.close id

def Work.party : Work → String
  | routine party _ => party
  | keepAlive party _ => party
  | watch party _ => party
  | follow party _ _ => party

namespace Cluster

/-- Starts a routine beside everything else. One that needs nothing is over at once. -/
def start (c : Cluster) (party : String) (r : Routine) : Cluster :=
  match c.member? party with
  | none => c
  | some m =>
    match c.continueWith party (m.start c.now r) with
    | (c, .inl w) => (c.spawn (.routine party w)).1
    | (c, .inr result) =>
      { c with outcomes := (c.nextTask, result) :: c.outcomes, nextTask := c.nextTask + 1 }

/-- Puts something into the stream that a party follows, if it follows one. -/
def feedIn (c : Cluster) (party : String) (what : Injection) : Cluster :=
  let put (t : Task) : Task :=
    match t.work with
    | .watch q loop =>
      if q = party then ⟨t.id, .watch q ((loop.inject? what).getD loop)⟩ else t
    | _ => t
  { c with tasks := c.tasks.map put }

inductive Act where
  /-- A task goes on by one step, unless it waits. -/
  | step (task : Nat)
  | pass (ms : Nat)
  /-- Someone uses a store, or something happens to it. -/
  | use (store : Nat) (op : Store.Op)
  /-- Calls of a kind take longer from now on, or less long. -/
  | slow (party : String) (kind : CallKind) (d : Delay)
  | join (party : String) (p : Party)
  | start (party : String) (r : Routine)
  | register (party : String)
  /-- A task is given up where it stands. -/
  | drop (task : Nat)
  | feedIn (party : String) (what : Injection)
  | useBus (party : String) (op : Bus.Op)

def act (c : Cluster) : Act → Cluster
  | .step id =>
    match c.task? id with
    | some t => (c.stepTask t).getD c
    | none => c
  | .pass ms => { c with now := c.now + ms }
  | .use i op => c.setStore i (op.run (c.store i))
  | .slow party kind d => c.setDelay party kind d
  | .join party p => c.setParty party p
  | .start party r => c.start party r
  | .register party => if c.isCancelled party then c else c.startLoops party
  | .drop id => c.setTask id none
  | .feedIn party what => c.feedIn party what
  | .useBus party op => c.setBus party (op.run (c.bus party))

def play (c : Cluster) (acts : List Act) : Cluster := acts.foldl act c

/-- Every act of a run, in the state in which it is taken, satisfies a condition. -/
def Along (P : Cluster → Act → Prop) : Cluster → List Act → Prop
  | _, [] => True
  | c, a :: acts => P c a ∧ Along P (c.act a) acts

def Sometime (P : Cluster → Act → Prop) : Cluster → List Act → Prop
  | _, [] => False
  | c, a :: acts => P c a ∨ Sometime P (c.act a) acts

@[simp] theorem play_nil (c : Cluster) : c.play [] = c := rfl

@[simp] theorem play_cons (c : Cluster) (a : Act) (acts : List Act) :
    c.play (a :: acts) = (c.act a).play acts := rfl

theorem play_append (c : Cluster) (acts acts' : List Act) :
    c.play (acts ++ acts') = (c.play acts).play acts' :=
  List.foldl_append

theorem along_append {P : Cluster → Act → Prop} {c : Cluster} {acts acts' : List Act} :
    Along P c (acts ++ acts') ↔ Along P c acts ∧ Along P (c.play acts) acts' := by
  induction acts generalizing c with
  | nil => simp [Along]
  | cons a acts ih => simp [Along, ih, and_assoc]

instance decidableAlong {P : Cluster → Act → Prop} [∀ c a, Decidable (P c a)] :
    ∀ c acts, Decidable (Along P c acts)
  | _, [] => isTrue trivial
  | c, a :: acts => @instDecidableAnd _ _ _ (decidableAlong (c.act a) acts)

instance decidableSometime {P : Cluster → Act → Prop} [∀ c a, Decidable (P c a)] :
    ∀ c acts, Decidable (Sometime P c acts)
  | _, [] => isFalse id
  | c, a :: acts => @instDecidableOr _ _ _ (decidableSometime (c.act a) acts)

def Act.step? : Act → Option Nat
  | step id => some id
  | _ => none

theorem Act.eq_step_iff {a : Act} {id : Nat} : a = .step id ↔ id ∈ a.step? := by
  cases a <;> simp [Act.step?, eq_comm]

/-! ### The tasks of a cluster -/

/-- The numbers of all tasks are used up. -/
def Tidy (c : Cluster) : Prop := ∀ t ∈ c.tasks, t.id < c.nextTask

instance (c : Cluster) : Decidable c.Tidy :=
  inferInstanceAs (Decidable (∀ t ∈ c.tasks, t.id < c.nextTask))

def HasMember (p : String) (c : Cluster) : Prop := ∃ l ∈ c.leased? p, l.store < c.stores.length

instance (p : String) (c : Cluster) : Decidable (HasMember p c) :=
  inferInstanceAs (Decidable (∃ l ∈ c.leased? p, l.store < c.stores.length))

theorem id_of_task? {c : Cluster} {id : Nat} {t : Task} (h : c.task? id = some t) : t.id = id := by
  simpa using List.find?_some h

theorem Tidy.task?_eq_none {c : Cluster} (h : c.Tidy) {id : Nat} (hid : c.nextTask ≤ id) :
    c.task? id = none := by
  rw [task?, List.find?_eq_none]
  intro t ht
  have hlt := h t ht
  simp only [decide_eq_true_eq]
  omega

end Cluster

end ServiceMesh
