import ServiceMesh.Proofs.Balance.Refresh
import ServiceMesh.Proofs.Notify.Bus

/-!
The audience of a bus: everyone who reads a registry again whenever the bus tells of a change. A
change is made first and told afterwards; a reader takes a signal first and reads afterwards, and
before its first signal it reads once. Between any two of these steps anything else may happen, and
nothing is assumed about the order, so the runs are all interleavings. The tasks of a cluster take a
signal and read in one step; here the steps are apart, and a reading takes time.

The invariant is that a reader either has begun its last reading after the last change, or is about
to read, or has a signal in its inbox, or is still to be reached by a notification. A signal that is
not delivered because the inbox is full changes nothing about that.
-/

namespace ServiceMesh

/-- A change on its way to the watchers: it has been made, or it is being told. -/
inductive Teller where
  | silent
  | telling (n : Notification)
  deriving DecidableEq, Repr

namespace Teller

def step (b : Bus) : Teller → Option (Bus × Option Teller)
  | silent => some (b, some (.telling b.announce))
  | telling n => (b.serve n).map fun r => (r.1, r.2.map telling)

def Reaches (i : Nat) : Teller → Prop
  | silent => True
  | telling n => i ∈ n.rest

end Teller

/-! ### Clients -/

/-- A resolver, and when its builder came to have it. -/
structure Adopted where
  resolver : Resolver
  since : Nat

inductive Client where
  | pool (p : Pool)
  | builder (resolvers : List Adopted)

namespace Client

inductive Use where
  | select (service : String)
  | adopt (r : Resolver)
  | forward (place : Nat)
  | dropChannel (place : Nat)

def use (now : Nat) : Use → Client → Client
  | .select service, .pool p => .pool (p.select service).1
  | .adopt r, .builder rs => .builder (rs ++ [⟨r, now⟩])
  | .forward i, .builder rs =>
    .builder (rs.modify i fun r => { r with resolver := r.resolver.forward })
  | .dropChannel i, .builder rs =>
    .builder (rs.modify i fun r => { r with resolver := r.resolver.dropChannel })
  | _, c => c

/-- When a reading begins, the resolvers that have ended are let go. -/
def tidy : Client → Client
  | pool p => pool p
  | builder rs => builder (rs.filter fun r => !r.resolver.isClosed)

/-- When a reading ends, the client takes over what it saw; of a builder, this is every resolver
that was there when the reading began, with a look of its own. -/
def refresh (begun : Nat) (look : Nat → Directory) : Client → Client
  | pool p => pool (p.sync (look 0))
  | builder rs => builder (rs.mapIdx fun i r =>
      if r.since < begun then { r with resolver := r.resolver.push (look i) } else r)

/-- The client agrees with the directory, as far as it was there when the reading began. -/
def InSync (d : Directory) (begun : Nat) : Client → Prop
  | pool p => p.InSync d
  | builder rs => ∀ r ∈ rs, r.since < begun → r.resolver.InSync d

variable {d : Directory} {begun : Nat}

theorem inSync_refresh (c : Client) (d : Directory) (begun : Nat) :
    (c.refresh begun fun _ => d).InSync d begun := by
  cases c with
  | pool p => exact p.inSync_sync d
  | builder rs =>
      intro r hr hlt
      obtain ⟨i, hi, rfl⟩ := List.mem_mapIdx.1 hr
      by_cases hi' : rs[i].since < begun
      · rw [if_pos hi']
        exact Resolver.inSync_push _ d
      · rw [if_neg hi'] at hlt
        exact absurd hlt hi'

theorem mem_modify {rs : List Adopted} {i : Nat} {f : Adopted → Adopted} {r : Adopted}
    (h : r ∈ rs.modify i f) : ∃ s ∈ rs, r = s ∨ r = f s := by
  obtain ⟨j, hj, rfl⟩ := List.mem_iff_getElem.1 h
  rw [List.length_modify] at hj
  refine ⟨rs[j], List.getElem_mem hj, ?_⟩
  rw [List.getElem_modify]
  split
  · exact .inr rfl
  · exact .inl rfl

/-- What is done with a client in the meantime does not bring it out of step. -/
theorem InSync.use {c : Client} (h : c.InSync d begun) {now : Nat} (hnow : begun ≤ now) (u : Use) :
    (c.use now u).InSync d begun := by
  have hmodify {rs : List Adopted} (h : (builder rs).InSync d begun) (i : Nat)
      {f : Resolver → Resolver} (hf : ∀ r : Resolver, r.InSync d → (f r).InSync d) :
      (builder (rs.modify i fun r => { r with resolver := f r.resolver })).InSync d begun := by
    intro r hr hlt
    obtain ⟨s, hs, rfl | rfl⟩ := mem_modify hr
    · exact h _ hs hlt
    · exact hf _ (h _ hs hlt)
  cases c with
  | pool p =>
      cases u with
      | select service => exact Pool.InSync.select h service
      | _ => exact h
  | builder rs =>
      cases u with
      | select service => exact h
      | adopt r =>
          intro s hs hlt
          rcases List.mem_append.1 hs with hs | hs
          · exact h s hs hlt
          · obtain rfl := List.mem_singleton.1 hs
            exact absurd hlt (Nat.not_lt.2 hnow)
      | forward i => exact hmodify h i fun r => Resolver.InSync.forward
      | dropChannel i => exact hmodify h i fun r => Resolver.InSync.dropChannel

end Client

/-! ### Readers -/

inductive Phase where
  /-- It is about to read. -/
  | due
  /-- It is reading. The directory has changed since then; its states before are kept, the last one
  first. -/
  | reading (earlier : List Directory)
  /-- It waits for a signal. -/
  | idle

structure Reader where
  phase : Phase
  readAt : Nat
  client : Client

/-- A client that has just subscribed is about to read. A builder without resolvers has nothing to
read for and waits at once. -/
def Reader.subscribed (now : Nat) : Client → Reader
  | .builder [] => ⟨.idle, now, .builder []⟩
  | c => ⟨.due, 0, c⟩

def Reader.missed (d : Directory) (r : Reader) : Reader :=
  match r.phase with
  | .reading earlier => { r with phase := .reading (d :: earlier) }
  | _ => r

/-- A registry, its bus and its readers, which go by the numbers of their inboxes. -/
structure Audience where
  clock : Nat := 1
  directory : Directory
  /-- When the directory changed last. -/
  changedAt : Nat := 0
  bus : Bus
  tellers : List Teller := []
  readers : Nat → Option Reader := fun _ => none

namespace Audience

def start (capacity : Nat) (policy : NotifyPolicy) (d : Directory) : Audience where
  directory := d
  bus := .new capacity policy

inductive Act where
  /-- The directory changes; this will be told. -/
  | change (d : Directory)
  /-- A notification without a change. -/
  | tell
  /-- A change that is to be told, or a notification under way, goes on by one step. -/
  | serve (place : Nat)
  /-- Someone begins to follow the bus, with an inbox of some size. -/
  | join (capacity : Nat) (client : Client)
  /-- A reader takes a signal out of its inbox. -/
  | receive (i : Nat)
  /-- A reading begins. -/
  | read (i : Nat)
  /-- A reading ends. Each of its look-ups was answered at some moment since it began. -/
  | finish (i : Nat) (moment : Nat → Option String → Nat)
  | use (i : Nat) (u : Client.Use)
  /-- Someone watches who is no reader, and empties the inbox at will. -/
  | watch (capacity : Nat)
  | drain (i limit : Nat)
  /-- A watcher goes away, reader or not. -/
  | close (i : Nat)

def setReader (a : Audience) (i : Nat) (r : Option Reader) : Audience :=
  { a with readers := fun j => if j = i then r else a.readers j }

/-- What an act does at the moment of the clock. An act that is not possible does nothing. -/
def perform (a : Audience) : Act → Audience
  | .change d =>
    { a with
      directory := d
      changedAt := a.clock
      tellers := a.tellers ++ [.silent]
      readers := fun i => (a.readers i).map (·.missed a.directory) }
  | .tell => { a with tellers := a.tellers ++ [.silent] }
  | .serve place =>
    match a.tellers.drop place with
    | [] => a
    | t :: later =>
      match t.step a.bus with
      | none => a
      | some (bus, t') => { a with bus, tellers := a.tellers.take place ++ t'.toList ++ later }
  | .join capacity client =>
    if 0 < capacity then
      let r := Reader.subscribed a.clock client
      { a with bus := (a.bus.addWatcher capacity).1 }.setReader a.bus.nextId (some r)
    else a
  | .receive i =>
    match a.readers i with
    | some ⟨.idle, readAt, client⟩ =>
      if 0 < a.bus.queued i then
        { a with bus := (a.bus.drain i 1).1 }.setReader i (some ⟨.due, readAt, client⟩)
      else a
    | _ => a
  | .read i =>
    match a.readers i with
    | some ⟨.due, _, client⟩ => a.setReader i (some ⟨.reading [], a.clock, client.tidy⟩)
    | _ => a
  | .finish i moment =>
    match a.readers i with
    | some ⟨.reading earlier, readAt, client⟩ =>
      let look (k : Nat) := a.directory.sighting earlier (moment k)
      a.setReader i (some ⟨.idle, readAt, client.refresh readAt look⟩)
    | _ => a
  | .use i u =>
    match a.readers i with
    | some r => a.setReader i (some { r with client := r.client.use a.clock u })
    | none => a
  | .watch capacity => { a with bus := (a.bus.addWatcher capacity).1 }
  | .drain i limit =>
    if (a.readers i).isSome then a else { a with bus := (a.bus.drain i limit).1 }
  | .close i => { a with bus := a.bus.close i }.setReader i none

def act (a : Audience) (x : Act) : Audience := { a.perform x with clock := a.clock + 1 }

def play (a : Audience) (acts : List Act) : Audience := acts.foldl act a

/-! ### What is kept for each reader -/

/-- A signal waits for a watcher, or is on its way to it. -/
def Signals (a : Audience) (i : Nat) : Prop := 0 < a.bus.queued i ∨ ∃ t ∈ a.tellers, t.Reaches i

structure Attends (a : Audience) (i : Nat) (r : Reader) : Prop where
  isRead : a.bus.IsRead i
  begun : r.readAt < a.clock
  /-- No change is missed. -/
  alert : a.changedAt < r.readAt ∨ r.phase = .due ∨ a.Signals i
  /-- A reading that began after the last change sees one state of the directory. -/
  steady : ∀ earlier, r.phase = .reading earlier → a.changedAt < r.readAt → earlier = []
  inSync : r.phase = .idle → a.changedAt < r.readAt → r.client.InSync a.directory r.readAt

structure Sound (a : Audience) : Prop where
  changed : a.changedAt < a.clock
  numbered : a.bus.Numbered
  attends : ∀ i r, a.readers i = some r → a.Attends i r

structure Keeps (a a' : Audience) (i : Nat) : Prop where
  directory : a'.directory = a.directory
  changedAt : a'.changedAt = a.changedAt
  clock : a.clock ≤ a'.clock
  isRead : a.bus.IsRead i → a'.bus.IsRead i
  signals : a.bus.IsRead i → a.Signals i → a'.Signals i

variable {a a' : Audience} {i : Nat} {r : Reader}

theorem Attends.of_keeps (h : a.Attends i r) (hk : a.Keeps a' i) : a'.Attends i r where
  isRead := hk.isRead h.isRead
  begun := Nat.lt_of_lt_of_le h.begun hk.clock
  alert := by
    rw [hk.changedAt]
    exact h.alert.imp_right (·.imp_right (hk.signals h.isRead))
  steady := by
    rw [hk.changedAt]
    exact h.steady
  inSync := by
    rw [hk.changedAt, hk.directory]
    exact h.inSync

/-- Readers are either left alone or looked at one by one. -/
theorem Sound.of_keeps (h : a.Sound) (hc : a'.changedAt < a'.clock) (hn : a'.bus.Numbered)
    (hr : ∀ i r, a'.readers i = some r → (a.readers i = some r ∧ a.Keeps a' i) ∨ a'.Attends i r) :
    a'.Sound where
  changed := hc
  numbered := hn
  attends i r hi := by
    rcases hr i r hi with ⟨hi, hk⟩ | ha
    · exact (h.attends i r hi).of_keeps hk
    · exact ha

/-- An inbox that is as it was, and all that was to be told still is. -/
theorem keeps_of_sink? (hd : a'.directory = a.directory) (hc : a'.changedAt = a.changedAt)
    (ht : a.clock ≤ a'.clock) (hs : a.bus.IsRead i → a'.bus.sink? i = a.bus.sink? i)
    (hl : ∀ t ∈ a.tellers, t ∈ a'.tellers) : a.Keeps a' i where
  directory := hd
  changedAt := hc
  clock := ht
  isRead h := h.congr (hs h)
  signals h := by
    rintro (hq | ⟨t, ht, hr⟩)
    · exact .inl (Bus.queued_congr (hs h) ▸ hq)
    · exact .inr ⟨t, hl t ht, hr⟩

namespace Sound

/-- No reader takes part. -/
theorem of_keeps_all (h : a.Sound) (hc : a'.changedAt < a'.clock) (hn : a'.bus.Numbered)
    (hr : a'.readers = a.readers) (hk : ∀ i, a.Keeps a' i) : a'.Sound :=
  h.of_keeps hc hn fun i _ hi => .inl ⟨hr ▸ hi, hk i⟩

theorem stay (h : a.Sound) : { a with clock := a.clock + 1 }.Sound :=
  h.of_keeps_all (Nat.lt_succ_of_lt h.changed) h.numbered rfl fun _ =>
    keeps_of_sink? rfl rfl (Nat.le_succ _) (fun _ => rfl) fun _ => id

/-- One reader takes part, and the inboxes of the others are as they were. -/
theorem setReader (h : a.Sound) {b : Bus} (hb : b.Numbered)
    (hs : ∀ j, j ≠ i → a.bus.IsRead j → b.sink? j = a.bus.sink? j) (r : Option Reader)
    (hr : ∀ r' ∈ r, { a with bus := b, clock := a.clock + 1 }.Attends i r') :
    { { a with bus := b }.setReader i r with clock := a.clock + 1 }.Sound := by
  refine h.of_keeps (Nat.lt_succ_of_lt h.changed) hb fun j r' hj => ?_
  change (if j = i then r else a.readers j) = some r' at hj
  by_cases hji : j = i
  · subst hji
    rw [if_pos rfl] at hj
    obtain ⟨h₁, h₂, h₃, h₄, h₅⟩ := hr r' hj
    exact .inr ⟨h₁, h₂, h₃, h₄, h₅⟩
  · rw [if_neg hji] at hj
    exact .inl ⟨hj, keeps_of_sink? rfl rfl (Nat.le_succ _) (hs j hji) fun _ => id⟩

theorem change (h : a.Sound) (d : Directory) : (a.act (.change d)).Sound where
  changed := Nat.lt_succ_self _
  numbered := h.numbered
  attends i r hi := by
    obtain ⟨r', hr', rfl⟩ := Option.map_eq_some_iff.1 hi
    have ha := h.attends i r' hr'
    have hreadAt : (r'.missed a.directory).readAt = r'.readAt := by
      rw [Reader.missed]
      split <;> rfl
    have hold : ¬a.clock < (r'.missed a.directory).readAt := by
      rw [hreadAt]
      exact Nat.lt_asymm ha.begun
    exact {
      isRead := ha.isRead
      begun := by
        rw [hreadAt]
        exact Nat.lt_succ_of_lt ha.begun
      alert := by
        have hmem : Teller.silent ∈ a.tellers ++ [.silent] :=
          List.mem_append_right _ (List.mem_singleton_self _)
        exact .inr (.inr (.inr ⟨.silent, hmem, trivial⟩))
      steady := fun _ _ hlt => absurd hlt hold
      inSync := fun _ hlt => absurd hlt hold }

theorem tell (h : a.Sound) : (a.act .tell).Sound :=
  h.of_keeps_all (Nat.lt_succ_of_lt h.changed) h.numbered rfl fun _ =>
    keeps_of_sink? rfl rfl (Nat.le_succ _) (fun _ => rfl) fun _ => List.mem_append_left _

end Sound

/-- A step of a teller takes no signal from anybody, and whoever it was to reach is reached later or
has a signal now. -/
theorem step_eq_some {t : Teller} {b b' : Bus} {t' : Option Teller} (h : t.step b = some (b', t'))
    (hn : b.Numbered) :
    b'.Numbered ∧ ∀ i, b.IsRead i → b'.IsRead i ∧ b.queued i ≤ b'.queued i ∧
      (t.Reaches i → 0 < b'.queued i ∨ ∃ u ∈ t', u.Reaches i) := by
  cases t with
  | silent =>
      obtain ⟨rfl, rfl⟩ := Prod.mk.inj (Option.some.inj h)
      exact ⟨hn, fun i hi => ⟨hi, Nat.le_refl _, fun _ => .inr ⟨_, rfl, hi.mem_announce⟩⟩⟩
  | telling n =>
      obtain ⟨⟨c, n'⟩, hs, he⟩ := Option.map_eq_some_iff.1 h
      obtain ⟨rfl, rfl⟩ := Prod.mk.inj he
      have hserves := Bus.serves_of_serve hs
      refine ⟨hserves.numbered hn, fun i hi => ?_⟩
      obtain ⟨hread, hle⟩ := hserves.isRead hi
      refine ⟨hread, hle, fun hr => ?_⟩
      rcases hserves.reaches hi hr with hq | ⟨k, rfl, hk⟩
      · exact .inl hq
      · exact .inr ⟨.telling k, rfl, hk⟩

namespace Sound

theorem serve (h : a.Sound) (place : Nat) : (a.act (.serve place)).Sound := by
  unfold Audience.act perform
  dsimp only
  split
  · exact h.stay
  · next t later htellers =>
      split
      · exact h.stay
      · next b t' hstep =>
          obtain ⟨hn, hb⟩ := step_eq_some hstep h.numbered
          have hall : a.tellers = a.tellers.take place ++ t :: later := by
            rw [← htellers, List.take_append_drop]
          refine h.of_keeps_all (Nat.lt_succ_of_lt h.changed) hn rfl fun i => ?_
          refine ⟨rfl, rfl, Nat.le_succ _, fun hi => (hb i hi).1, fun hi => ?_⟩
          obtain ⟨-, hle, hreaches⟩ := hb i hi
          rintro (hq | ⟨u, hu, hr⟩)
          · exact .inl (Nat.lt_of_lt_of_le hq hle)
          · rw [hall, List.mem_append, List.mem_cons] at hu
            rcases hu with hu | rfl | hu
            · exact .inr ⟨u, by simp [hu], hr⟩
            · rcases hreaches hr with hq | ⟨v, rfl, hv⟩
              · exact .inl hq
              · exact .inr ⟨v, by simp, hv⟩
            · exact .inr ⟨u, by simp [hu], hr⟩

theorem join (h : a.Sound) (capacity : Nat) (client : Client) :
    (a.act (.join capacity client)).Sound := by
  unfold Audience.act perform
  dsimp only
  split
  · next hc =>
      refine h.setReader (h.numbered.addWatcher capacity)
        (fun j _ hj => hj.sink?_addWatcher capacity) _ fun r hr => ?_
      obtain rfl := Option.some.inj hr
      have hread := h.numbered.isRead_addWatcher hc
      have hdue (c : Client) :
          { a with bus := (a.bus.addWatcher capacity).1, clock := a.clock + 1 }.Attends
            a.bus.nextId ⟨.due, 0, c⟩ :=
        ⟨hread, Nat.succ_pos _, .inr (.inl rfl), by rintro _ ⟨⟩, by rintro ⟨⟩⟩
      cases client with
      | pool p => exact hdue _
      | builder rs =>
          cases rs with
          | nil =>
              exact ⟨hread, Nat.lt_succ_self _, .inl h.changed, by rintro _ ⟨⟩, by rintro - - _ ⟨⟩⟩
          | cons _ _ => exact hdue _
  · exact h.stay

theorem receive (h : a.Sound) (i : Nat) : (a.act (.receive i)).Sound := by
  unfold Audience.act perform
  dsimp only
  split
  · next readAt client hi =>
      have ha := h.attends i _ hi
      split
      · refine h.setReader (h.numbered.drain i 1)
          (fun j hj _ => Bus.sink?_drain_of_ne hj a.bus 1) _ fun r hr => ?_
        obtain rfl := Option.some.inj hr
        exact {
          isRead := ha.isRead.drain 1
          begun := Nat.lt_succ_of_lt ha.begun
          alert := .inr (.inl rfl)
          steady := by rintro _ ⟨⟩
          inSync := by rintro ⟨⟩ }
      · exact h.stay
  · exact h.stay

theorem read (h : a.Sound) (i : Nat) : (a.act (.read i)).Sound := by
  unfold Audience.act perform
  dsimp only
  split
  · next readAt client hi =>
      refine h.setReader h.numbered (fun _ _ _ => rfl) _ fun r hr => ?_
      obtain rfl := Option.some.inj hr
      exact {
        isRead := (h.attends i _ hi).isRead
        begun := Nat.lt_succ_self _
        alert := .inl h.changed
        steady := by
          rintro earlier ⟨⟩ -
          rfl
        inSync := by rintro ⟨⟩ }
  · exact h.stay

theorem finish (h : a.Sound) (i : Nat) (moment : Nat → Option String → Nat) :
    (a.act (.finish i moment)).Sound := by
  unfold Audience.act perform
  dsimp only
  split
  · next earlier readAt client hi =>
      have ha := h.attends i _ hi
      refine h.setReader h.numbered (fun _ _ _ => rfl) _ fun r hr => ?_
      obtain rfl := Option.some.inj hr
      exact {
        isRead := ha.isRead
        begun := Nat.lt_succ_of_lt ha.begun
        alert := ha.alert.imp_right (·.imp_left (by rintro ⟨⟩))
        steady := by rintro _ ⟨⟩
        inSync := by
          intro _ hlt
          rw [ha.steady earlier rfl hlt]
          simp only [Directory.sighting_nil]
          exact client.inSync_refresh a.directory readAt }
  · exact h.stay

theorem use (h : a.Sound) (i : Nat) (u : Client.Use) : (a.act (.use i u)).Sound := by
  unfold Audience.act perform
  dsimp only
  split
  · next r hi =>
      have ha := h.attends i r hi
      refine h.setReader h.numbered (fun _ _ _ => rfl) _ fun r' hr => ?_
      obtain rfl := Option.some.inj hr
      exact {
        isRead := ha.isRead
        begun := Nat.lt_succ_of_lt ha.begun
        alert := ha.alert
        steady := ha.steady
        inSync := fun hidle hlt => (ha.inSync hidle hlt).use (Nat.le_of_lt ha.begun) u }
  · exact h.stay

theorem watch (h : a.Sound) (capacity : Nat) : (a.act (.watch capacity)).Sound :=
  h.of_keeps_all (Nat.lt_succ_of_lt h.changed) (h.numbered.addWatcher capacity) rfl fun _ =>
    keeps_of_sink? rfl rfl (Nat.le_succ _) (·.sink?_addWatcher capacity) fun _ => id

theorem drain (h : a.Sound) (i limit : Nat) : (a.act (.drain i limit)).Sound := by
  unfold Audience.act perform
  dsimp only
  split
  · exact h.stay
  · next hi =>
      refine h.of_keeps (Nat.lt_succ_of_lt h.changed) (h.numbered.drain i limit) fun j r hj => ?_
      have hji : j ≠ i := by
        rintro rfl
        exact hi (Option.isSome_iff_exists.2 ⟨r, hj⟩)
      exact .inl ⟨hj, keeps_of_sink? rfl rfl (Nat.le_succ _)
        (fun _ => Bus.sink?_drain_of_ne hji a.bus limit) fun _ => id⟩

theorem close (h : a.Sound) (i : Nat) : (a.act (.close i)).Sound :=
  h.setReader (h.numbered.close i) (fun _ hj _ => Bus.sink?_close_of_ne hj a.bus) none
    (by rintro _ ⟨⟩)

theorem act (h : a.Sound) (x : Act) : (a.act x).Sound := by
  cases x with
  | change d => exact h.change d
  | tell => exact h.tell
  | serve place => exact h.serve place
  | join capacity client => exact h.join capacity client
  | receive i => exact h.receive i
  | read i => exact h.read i
  | finish i moment => exact h.finish i moment
  | use i u => exact h.use i u
  | watch capacity => exact h.watch capacity
  | drain i limit => exact h.drain i limit
  | close i => exact h.close i

theorem play (h : a.Sound) (acts : List Act) : (a.play acts).Sound := by
  induction acts generalizing a with
  | nil => exact h
  | cons x acts ih => exact ih (h.act x)

end Sound

theorem sound_start (capacity : Nat) (policy : NotifyPolicy) (d : Directory) :
    (start capacity policy d).Sound where
  changed := Nat.zero_lt_one
  numbered := by rintro s ⟨⟩
  attends := by rintro i r ⟨⟩

/-- Whatever happens around a bus, under either policy: when nothing is being told, a reader that
waits with an empty inbox has begun its last reading after the last change, and its client agrees
with the directory of the moment. -/
theorem inSync_of_quiet {capacity : Nat} {policy : NotifyPolicy} {d : Directory} {acts : List Act}
    {a : Audience} (ha : a = (start capacity policy d).play acts) (hquiet : a.tellers = [])
    {i : Nat} {r : Reader} (hr : a.readers i = some r) (hidle : r.phase = .idle)
    (hempty : a.bus.queued i = 0) :
    a.changedAt < r.readAt ∧ r.client.InSync a.directory r.readAt := by
  have hsound : a.Sound := ha ▸ (sound_start capacity policy d).play acts
  have hattends := hsound.attends i r hr
  have hlt : a.changedAt < r.readAt := by
    rcases hattends.alert with hlt | hdue | hq | ⟨t, ht, -⟩
    · exact hlt
    · cases hidle.symm.trans hdue
    · exact absurd hempty (Nat.ne_of_gt hq)
    · rw [hquiet] at ht
      cases ht
  exact ⟨hlt, hattends.inSync hidle hlt⟩

def single (service ip : String) : Directory :=
  Script.directory ⟨[(service, .ok [Node.new service ip 9001])], none⟩

/-- A pool subscribes and reads. The directory changes twice before the pool takes the signal of the
first change, so the second one meets a full inbox. -/
def twoChanges : List Act :=
  [.join 1 (.pool { roundRobin := ⟨0⟩ }), .read 0, .finish 0 fun _ _ => 0,
    .change (single "svc-a" "10.0.0.1"), .serve 0, .serve 0, .serve 0,
    .change (single "svc-b" "10.0.0.2"), .serve 0]

theorem inSync_of_quiet_coalesced :
    let full := (start 1 .coalesce .detached).play twoChanges
    let a := (start 1 .coalesce .detached).play
      (twoChanges ++ [.serve 0, .serve 0, .receive 0, .read 0, .finish 0 fun _ _ => 0])
    (full.act (.serve 0)).bus = full.bus ∧ a.tellers = [] ∧ a.bus.queued 0 = 0 ∧
      ∃ p, a.readers 0 = some ⟨.idle, 13, .pool p⟩ ∧ a.changedAt < 13 ∧
        ∀ b, b ∈ p.clients ↔ b ∈ Pool.targets (single "svc-b" "10.0.0.2") := by
  intro full a
  have hquiet : a.tellers = [] := rfl
  have hempty : a.bus.queued 0 = 0 := rfl
  obtain ⟨hlt, -, hin⟩ := inSync_of_quiet (a := a) rfl hquiet rfl rfl hempty
  exact ⟨rfl, hquiet, hempty, _, rfl, hlt, hin⟩

end Audience

end ServiceMesh
