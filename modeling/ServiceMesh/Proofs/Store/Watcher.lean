import Mathlib.Data.List.Infix
import ServiceMesh.Proofs.Store.History
import ServiceMesh.Proofs.Store.Feed
import ServiceMesh.Proofs.Store.Scan

/-!
Scan first and watch then: a watcher that has never been too far behind knows what is stored. What
it has seen, with what is still ahead of it, leads from the pairs that were stored when it began to
those that are stored now. One that was too far behind hears of it before it sees anything else.
-/

namespace ServiceMesh

/-- What the events leave of the pairs under a beginning is what those of them leave that have
it. -/
theorem Event.record_filter {wants : Event → Bool} {k : String}
    (hk : ∀ e : Event, e.key = k → wants e = true) (v : Option (List UInt8)) (es : List Event) :
    record k v (es.filter wants) = record k v es := by
  induction es generalizing v with
  | nil => rfl
  | cons e es ih =>
      rw [record_cons, List.filter_cons]
      split
      · rw [record_cons, ih]
      · next hw =>
          rw [ih, if_neg fun he => hw (hk e he)]

/-! ### The pairs under a beginning -/

namespace Store

theorem sorted_scanFrom {l : List (String × Record)} (h : Entries.Sorted l) (start : String) :
    Entries.Sorted (scanFrom start l) := by
  rw [scanFrom_eq_filter h]
  exact List.pairwise_map.2 (h.sublist List.filter_sublist)

def pairs (s : Store) (start : String) : KeyMap (List UInt8) :=
  ⟨scanFrom start s.records.entries, sorted_scanFrom s.records.sorted start⟩

theorem scan_eq_pairs {s : Store} (h : s.isAvailable = true) (start : String) :
    s.scan start = .ok (s.pairs start).entries := by
  rw [scan, if_neg (not_not.2 h)]
  rfl

theorem get?_pairs (s : Store) (start k : String) :
    (s.pairs start).get? k =
      if start.toList.isPrefixOf k.toList = true then s.get? k else none := by
  split
  · next hp => exact s.lookup_scanFrom hp
  · next hp =>
      rw [← Option.not_isSome_iff_eq_none, Option.isSome_iff_exists]
      rintro ⟨v, hv⟩
      have hm : (k, v) ∈ scanFrom start s.records.entries := (KeyMap.mem_entries_iff _).2 hv
      rw [scanFrom_eq_filter s.records.sorted] at hm
      obtain ⟨r, hr, he⟩ := List.mem_map.1 hm
      obtain ⟨rfl, -⟩ := Prod.mk.inj he
      exact hp (List.mem_filter.1 hr).2

/-- The events that have the beginning lead from the pairs of one store to those of the other. -/
theorem foldl_write_pairs {s s' : Store} {es : List Event} {start : String}
    (hes : ∀ k, s'.get? k = Event.record k (s.get? k) es) :
    (es.filter fun e => start.toList.isPrefixOf e.key.toList).foldl Event.write (s.pairs start) =
      s'.pairs start := by
  refine KeyMap.ext_get? fun k => ?_
  rw [Event.get?_foldl_write, get?_pairs, get?_pairs]
  split
  · next hp => rw [Event.record_filter (fun e he => he ▸ hp), hes]
  · next hp =>
      refine Event.record_of_forall_ne (fun e he => ?_) none
      rintro rfl
      exact hp (List.mem_filter.1 he).2

end Store

/-! ### A store and one of its watchers -/

/-- A store, a feed of it, and everything that the feed has yielded. -/
structure Watched where
  store : Store
  feed : Feed
  yielded : List (Except Failure Event)

namespace Watched

/-- What happens next: the store is used, or the feed reads on once. A lease may also end piece by
piece, with the feed reading on in between: first the lease goes, and then its records, in any
order. -/
inductive Act where
  | use (op : Store.Op)
  | lapse (lease : LeaseId)
  | drop (key : String)
  | read

def act (w : Watched) : Act → Watched
  | .use op => { w with store := op.run w.store }
  | .lapse lease =>
    { w with store := { w.store with leases := w.store.leases.filter fun l => l.id ≠ lease } }
  | .drop key => { w with store := w.store.drop key }
  | .read =>
    match w.feed.read? w.store with
    | none => w
    | some (feed, item) => { w with feed, yielded := w.yielded ++ item.toList }

def play (w : Watched) (acts : List Act) : Watched := acts.foldl act w

def unread (w : Watched) : Nat := w.feed.unread w.store

def pending (w : Watched) : List (Except Failure Event) := (w.feed.take w.store w.unread).2

/-- To end a lease at once is to end it and to take its records away in key order. -/
theorem play_expire (w : Watched) (lease : LeaseId) :
    w.play (.lapse lease :: (w.store.boundKeys lease).map .drop) = w.act (.use (.expire lease)) := by
  -- the induction is on the keys of the lease, with any store they are dropped from
  suffices H : ∀ (keys : List String) (v : Watched),
      v.play (keys.map .drop) = { v with store := keys.foldl Store.drop v.store } from
    H (w.store.boundKeys lease) (w.act (.lapse lease))
  intro keys
  induction keys with
  | nil => exact fun v => rfl
  | cons k keys ih => exact fun v => ih (v.act (.drop k))

/-- A poll is some looks at the feed, until something comes out or nothing is left. -/
theorem exists_play_eq_seek (w : Watched) (fuel : Nat) :
    ∃ n, w.play (.replicate n .read) =
      { w with
        feed := (Feed.seek w.store fuel w.feed).1
        yielded := w.yielded ++ (Feed.seek w.store fuel w.feed).2.toList } := by
  induction fuel generalizing w with
  | zero => exact ⟨0, by simp [play, Feed.seek]⟩
  | succ fuel ih =>
      rw [Feed.seek]
      cases hr : w.feed.read? w.store with
      | none => exact ⟨0, by simp [play]⟩
      | some r =>
          obtain ⟨g, item⟩ := r
          have hact : w.act .read = { w with feed := g, yielded := w.yielded ++ item.toList } := by
            rw [act, hr]
          cases item with
          | some item => exact ⟨1, hact⟩
          | none =>
              obtain ⟨n, hn⟩ := ih (w.act .read)
              refine ⟨n + 1, ?_⟩
              rw [List.replicate_succ]
              refine hn.trans ?_
              rw [hact]
              simp

/-- All but reading only lets the store grow. -/
theorem act_of_ne_read (w : Watched) {a : Act} (ha : a ≠ .read) :
    ∃ s', w.store.Grows s' ∧ w.act a = { w with store := s' } := by
  cases a with
  | use op => exact ⟨_, Store.grows_run w.store op, rfl⟩
  | lapse lease => exact ⟨(w.act (.lapse lease)).store, .of_eq rfl rfl, rfl⟩
  | drop key => exact ⟨_, Store.grows_drop w.store key, rfl⟩
  | read => exact absurd rfl ha

/-- A feed reads nothing, or the next event, or all those that it has missed. -/
theorem act_read (w : Watched) :
    (w.act .read = w ∧ w.store.published.size ≤ w.feed.position) ∨
      (∃ e, w.unread ≤ Feed.capacity ∧
        w.store.published.toList[w.feed.position]? = some e ∧
        w.act .read =
          { w with
            feed := { w.feed with position := w.feed.position + 1 }
            yielded := w.yielded ++ if w.feed.wants e then [.ok e] else [] }) ∨
      (Feed.capacity < w.unread ∧
        w.act .read =
          { w with
            feed := { w.feed with position := w.feed.position + (w.unread - Feed.capacity) }
            yielded := w.yielded ++ [.error (Feed.lagged (w.unread - Feed.capacity))] }) := by
  by_cases hlag : Feed.capacity < w.unread
  · refine .inr (.inr ⟨hlag, ?_⟩)
    rw [act, Feed.read?, ← unread, if_pos hlag]
    rfl
  · cases hp : w.store.published[w.feed.position]? with
    | none =>
        refine .inl ⟨?_, by simpa using hp⟩
        rw [act, Feed.read?, ← unread, if_neg hlag, hp]
    | some e =>
        refine .inr (.inl ⟨e, Nat.not_lt.1 hlag, by simpa using hp, ?_⟩)
        rw [act, Feed.read?, ← unread, if_neg hlag, hp]
        by_cases hw : w.feed.wants e = true <;> simp [hw]

/-! ### What was yielded, event by event -/

/-- What comes out of a feed while it reads on over published events: each event that it wants, in
order, and instead of those that it missed how many they were. -/
inductive Accounts (wants : Event → Bool) : List (Except Failure Event) → List Event → Prop where
  | nil : Accounts wants [] []
  | event {items : List (Except Failure Event)} {es : List Event} (h : Accounts wants items es)
      (e : Event) : Accounts wants (items ++ if wants e then [.ok e] else []) (es ++ [e])
  | missed {items : List (Except Failure Event)} {es : List Event} (h : Accounts wants items es)
      {lost : List Event} (hl : lost ≠ []) :
      Accounts wants (items ++ [.error (Feed.lagged lost.length)]) (es ++ lost)

theorem Accounts.wants_of_mem {wants : Event → Bool} {items : List (Except Failure Event)}
    {es : List Event} (h : Accounts wants items es) {e : Event} (he : .ok e ∈ items) :
    wants e = true := by
  induction h with
  | nil => cases he
  | event h e' ih =>
      rcases List.mem_append.1 he with he | he
      · exact ih he
      · split at he
        · next hw =>
            obtain rfl := Except.ok.inj (List.mem_singleton.1 he)
            exact hw
        · cases he
  | missed h hl ih =>
      rcases List.mem_append.1 he with he | he
      · exact ih he
      · cases List.mem_singleton.1 he

/-- Where nothing was missed, everything wanted came out. -/
theorem Accounts.eq_of_forall_ne {wants : Event → Bool} {items : List (Except Failure Event)}
    {es : List Event} (h : Accounts wants items es) (hno : ∀ f, .error f ∉ items) :
    items = (es.filter wants).map .ok := by
  induction h with
  | nil => rfl
  | event h e ih =>
      rw [ih fun f hf => hno f (List.mem_append_left _ hf), List.filter_append, List.map_append]
      congr 1
      by_cases hw : wants e = true <;> simp [hw]
  | missed h hl ih => exact absurd (List.mem_append_right _ List.mem_cons_self) (hno _)

/-- What holds of a store and a watcher that began with the given ones. -/
structure Follows (s : Store) (f : Feed) (w : Watched) : Prop where
  grows : s.Grows w.store
  start_eq : w.feed.start = f.start
  le_position : f.position ≤ w.feed.position
  position_le : w.feed.position ≤ w.store.published.size
  accounts : Accounts f.wants w.yielded
    ((w.store.published.toList.take w.feed.position).drop f.position)

variable {s : Store} {f : Feed} {w : Watched}

/-- A store that grows takes its watcher with it. -/
theorem Follows.grow {s' : Store} (h : Follows s f w) (hs : w.store.Grows s') :
    Follows s f { w with store := s' } where
  grows := h.grows.trans hs
  start_eq := h.start_eq
  le_position := h.le_position
  position_le := Nat.le_trans h.position_le hs.size_le
  accounts := by
    obtain ⟨es, he, -⟩ := hs
    dsimp only
    rw [he, List.take_append_of_le_length (by simpa using h.position_le)]
    exact h.accounts

theorem Follows.wants_eq (h : Follows s f w) : w.feed.wants = f.wants := by
  funext e
  rw [Feed.wants, h.start_eq, Feed.wants]

theorem Follows.le_length_take (h : Follows s f w) :
    f.position ≤ (w.store.published.toList.take w.feed.position).length := by
  rw [List.length_take_of_le (by simpa using h.position_le)]
  exact h.le_position

/-- Whatever is read, the part of the log that the feed is done with grows by it. -/
theorem Follows.read (h : Follows s f w) : Follows s f (w.act .read) := by
  rcases w.act_read with ⟨hr, -⟩ | ⟨e, -, he, hr⟩ | ⟨hlag, hr⟩
  · rw [hr]
    exact h
  · obtain ⟨hlt, -⟩ := List.getElem?_eq_some_iff.1 he
    rw [hr]
    rw [Array.length_toList] at hlt
    refine ⟨h.grows, h.start_eq, Nat.le_succ_of_le h.le_position, hlt, ?_⟩
    dsimp only
    rw [List.take_add_one, he, List.drop_append_of_le_length h.le_length_take, h.wants_eq]
    exact h.accounts.event e
  · have hend : w.feed.position + (w.unread - Feed.capacity) ≤ w.store.published.size := by
      have hp := h.position_le
      rw [unread, Feed.unread]
      omega
    obtain ⟨lost, hlost⟩ : ∃ lost, lost =
        (w.store.published.toList.drop w.feed.position).take (w.unread - Feed.capacity) := ⟨_, rfl⟩
    have hlen : lost.length = w.unread - Feed.capacity := by
      rw [hlost, List.length_take_of_le]
      rw [List.length_drop, Array.length_toList]
      omega
    have hne : lost ≠ [] := by
      rw [← List.length_pos_iff, hlen]
      omega
    rw [hr]
    refine ⟨h.grows, h.start_eq, Nat.le_add_right_of_le h.le_position, hend, ?_⟩
    dsimp only
    rw [List.take_add, List.drop_append_of_le_length h.le_length_take, ← hlost, ← hlen]
    exact h.accounts.missed hne

theorem Follows.act (h : Follows s f w) (a : Act) : Follows s f (w.act a) := by
  by_cases ha : a = .read
  · subst ha
    exact h.read
  · obtain ⟨s', hs, he⟩ := w.act_of_ne_read ha
    rw [he]
    exact h.grow hs

theorem Follows.play (h : Follows s f w) (acts : List Act) : Follows s f (w.play acts) := by
  induction acts generalizing w with
  | nil => exact h
  | cons a acts ih => exact ih (h.act a)

/-! ### Being too far behind -/

theorem isPrefix_yielded_act (w : Watched) (a : Act) : w.yielded <+: (w.act a).yielded := by
  by_cases ha : a = .read
  · subst ha
    rcases w.act_read with ⟨hr, -⟩ | ⟨e, -, -, hr⟩ | ⟨-, hr⟩
    · rw [hr]
    · rw [hr]
      exact List.prefix_append ..
    · rw [hr]
      exact List.prefix_append ..
  · obtain ⟨s', -, he⟩ := w.act_of_ne_read ha
    rw [he]

theorem isPrefix_yielded_play (w : Watched) (acts : List Act) :
    w.yielded <+: (w.play acts).yielded := by
  induction acts generalizing w with
  | nil => exact List.prefix_rfl
  | cons a acts ih => exact (w.isPrefix_yielded_act a).trans (ih (w.act a))

/-- While a watcher is not too far behind, it is not told that it was. -/
theorem error_not_mem_act (hu : w.unread ≤ Feed.capacity) (hno : ∀ e, .error e ∉ w.yielded)
    (a : Act) : ∀ e, .error e ∉ (w.act a).yielded := by
  by_cases ha : a = .read
  · subst ha
    rcases w.act_read with ⟨hr, -⟩ | ⟨e, -, -, hr⟩ | ⟨hlag, -⟩
    · rw [hr]
      exact hno
    · rw [hr]
      intro f hf
      rcases List.mem_append.1 hf with hf | hf
      · exact hno f hf
      · split at hf
        · cases List.mem_singleton.1 hf
        · cases hf
    · omega
  · obtain ⟨s', -, he⟩ := w.act_of_ne_read ha
    rw [he]
    exact hno

theorem error_not_mem_play {acts : List Act} (hno : ∀ e, .error e ∉ w.yielded)
    (hu : ∀ before, before <+: acts → (w.play before).unread ≤ Feed.capacity) :
    ∀ e, .error e ∉ (w.play acts).yielded := by
  induction acts generalizing w with
  | nil => exact hno
  | cons a acts ih =>
      refine ih (error_not_mem_act (hu [] List.nil_prefix) hno a) fun before hb => ?_
      exact hu (a :: before) (List.cons_prefix_cons.2 ⟨rfl, hb⟩)

/-- Once a watcher is too far behind, this is the first thing that it hears. -/
theorem missed_of_play {more : List Act} {item : Except Failure Event}
    {rest : List (Except Failure Event)} (hlag : Feed.capacity < w.unread)
    (hm : (w.play more).yielded = w.yielded ++ item :: rest) :
    ∃ n, w.unread - Feed.capacity ≤ n ∧ item = .error (Feed.lagged n) := by
  induction more generalizing w with
  | nil => exact absurd hm (by simp [play])
  | cons a more ih =>
      by_cases ha : a = .read
      · subst ha
        rcases w.act_read with ⟨-, hend⟩ | ⟨e, hle, -⟩ | ⟨-, hr⟩
        · rw [unread, Feed.unread] at hlag
          omega
        · omega
        · -- the first thing that comes out is what it has missed
          obtain ⟨later, hl⟩ := (w.act .read).isPrefix_yielded_play more
          rw [hr, List.append_assoc] at hl
          rw [play, List.foldl_cons, ← play, hr, ← hl] at hm
          obtain ⟨rfl, -⟩ := List.cons.inj (List.append_cancel_left hm)
          exact ⟨_, Nat.le_refl _, rfl⟩
      · obtain ⟨s', hs, he⟩ := w.act_of_ne_read ha
        rw [play, List.foldl_cons, ← play, he] at hm
        have hmore : w.unread ≤ ({ w with store := s' } : Watched).unread :=
          Nat.sub_le_sub_right hs.size_le _
        obtain ⟨n, hn, rfl⟩ := ih (Nat.lt_of_lt_of_le hlag hmore) hm
        exact ⟨n, by omega, rfl⟩

/-! ### The whole story -/

/-- A feed that is not too far behind and reads on to the end yields everything that it wants. -/
theorem take_eq_of_unread_le {fuel : Nat} (hfuel : f.unread s ≤ fuel)
    (hu : f.unread s ≤ Feed.capacity) :
    (f.take s fuel).2 = ((f.ahead s).filter f.wants).map .ok := by
  induction fuel generalizing f with
  | zero =>
      have hnil : f.ahead s = [] := by
        rw [Feed.ahead, List.drop_eq_nil_iff, Array.length_toList]
        rw [Feed.unread] at hfuel
        omega
      rw [hnil]
      rfl
  | succ fuel ih =>
      rw [Feed.take]
      rcases Feed.read?_cases hu with ⟨hr, ha⟩ | ⟨e, hr, ha, -⟩
      · rw [hr, ha]
        rfl
      · have hnext : ({ f with position := f.position + 1 } : Feed).unread s = f.unread s - 1 :=
          Nat.sub_add_eq ..
        have hwants : ({ f with position := f.position + 1 } : Feed).wants = f.wants := rfl
        rw [hr, ha]
        dsimp only
        rw [ih (by omega) (by omega), hwants, List.filter_cons]
        by_cases hw : f.wants e = true <;> simp [hw]

/-- A watcher that has not missed anything accounts for all events since it began: what it wants of
them has come out, and the rest is ahead. -/
theorem Follows.yielded_append_pending (h : Follows s f w) (hno : ∀ e, .error e ∉ w.yielded)
    (hu : w.unread ≤ Feed.capacity) :
    w.yielded ++ w.pending =
      ((w.store.published.toList.drop f.position).filter f.wants).map .ok := by
  have hsplit : w.store.published.toList.drop f.position =
      (w.store.published.toList.take w.feed.position).drop f.position ++
        w.feed.ahead w.store := by
    rw [Feed.ahead, ← List.drop_append_of_le_length h.le_length_take, List.take_append_drop]
  have hpending : w.pending = ((w.feed.ahead w.store).filter w.feed.wants).map .ok :=
    take_eq_of_unread_le (Nat.le_refl _) hu
  rw [h.accounts.eq_of_forall_ne hno, hpending, h.wants_eq, hsplit, List.filter_append,
    List.map_append]

/-- Scanned first and watched then: a store, a watcher that began with it, and whatever happened
since. What comes out has the beginning that was asked for. As long as there was never more unread
than is kept, all that was published under the beginning has come out or is still to come, each
event once and in order, and leads from what the scan found to what is stored now. In general each
event that is passed over without coming out is accounted for, and a watcher that has too much
before it hears first how much it has missed. -/
theorem scan_then_watch {start : String} (hw : s.watch start = .ok f) (acts : List Act) :
    let w := play ⟨s, f, []⟩ acts
    let since := w.store.published.toList.drop s.published.size
    let wants := fun e : Event => start.toList.isPrefixOf e.key.toList
    s.scan start = .ok (s.pairs start).entries ∧
    (∀ e, .ok e ∈ w.yielded → start.toList <+: e.key.toList) ∧
    ((∀ before, before <+: acts → (play ⟨s, f, []⟩ before).unread ≤ Feed.capacity) →
      (∀ e, .error e ∉ w.yielded) ∧
        w.yielded ++ w.pending = (since.filter wants).map .ok ∧
          (since.filter wants).foldl Event.write (s.pairs start) = w.store.pairs start) ∧
    Accounts wants w.yielded (since.take (w.feed.position - s.published.size)) ∧
    (Feed.capacity < w.unread →
      (w.act .read).yielded =
          w.yielded ++ [.error (Feed.lagged (w.unread - Feed.capacity))] ∧
        ∀ more item rest, (w.play more).yielded = w.yielded ++ item :: rest →
          ∃ n, w.unread - Feed.capacity ≤ n ∧ item = .error (Feed.lagged n)) := by
  intro w since wants
  obtain ⟨havail, rfl⟩ : s.isAvailable = true ∧ f = ⟨start, s.published.size⟩ := by
    rw [Store.watch] at hw
    split at hw
    · cases hw
    · next ha => exact ⟨not_not.1 ha, (Except.ok.inj hw).symm⟩
  have h0 : Follows s ⟨start, s.published.size⟩ ⟨s, ⟨start, s.published.size⟩, []⟩ :=
    ⟨.refl s, rfl, Nat.le_refl _, Nat.le_refl _, by simpa using Accounts.nil⟩
  have h : Follows s ⟨start, s.published.size⟩ w := h0.play acts
  refine ⟨Store.scan_eq_pairs havail start, fun e he => ?_, fun hu => ?_, ?_, fun hlag => ?_⟩
  · exact List.isPrefixOf_iff_prefix.1 (h.accounts.wants_of_mem he)
  · have hno : ∀ e, .error e ∉ w.yielded := error_not_mem_play (fun e => List.not_mem_nil) hu
    obtain ⟨es, hp, hes⟩ := h.grows
    have hsince : since = es := by
      change w.store.published.toList.drop _ = es
      rw [hp, List.drop_left' (Array.length_toList)]
    refine ⟨hno, h.yielded_append_pending hno (hu acts List.prefix_rfl), ?_⟩
    rw [hsince]
    exact Store.foldl_write_pairs hes
  · have hcut := h.accounts
    rw [List.drop_take] at hcut
    exact hcut
  · refine ⟨?_, fun more item rest hm => missed_of_play hlag hm⟩
    rcases w.act_read with ⟨-, hend⟩ | ⟨e, hle, -⟩ | ⟨-, hr⟩
    · rw [unread, Feed.unread] at hlag
      omega
    · omega
    · rw [hr]

/-- One node goes with its lease while another one comes, and the watcher, which has seen only the
first of it, knows of both. -/
theorem scan_then_watch_lapsed :
    let s := Store.empty.play [.grant, .put "/a/1" [1] (some 1), .put "/b" [2] none]
    let acts : List Act := [.use (.put "/a/2" [3] none), .read, .use (.put "/b" [4] none),
      .lapse 1, .drop "/a/1", .read]
    s.watch "/a/" = .ok ⟨"/a/", 2⟩ ∧
      (∀ before, before <+: acts → (play ⟨s, ⟨"/a/", 2⟩, []⟩ before).unread ≤ Feed.capacity) ∧
      (play ⟨s, ⟨"/a/", 2⟩, []⟩ acts).yielded = [.ok (.put "/a/2" [3])] ∧
      (play ⟨s, ⟨"/a/", 2⟩, []⟩ acts).pending = [.ok (.delete "/a/1")] ∧
      ((play ⟨s, ⟨"/a/", 2⟩, []⟩ acts).store.pairs "/a/").entries = [("/a/2", [3])] := by
  intro s acts
  have hw : s.watch "/a/" = .ok ⟨"/a/", 2⟩ := rfl
  have hu : ∀ before, before <+: acts →
      (play ⟨s, ⟨"/a/", 2⟩, []⟩ before).unread ≤ Feed.capacity := by
    simp only [← List.mem_inits]
    decide
  have h := ((scan_then_watch hw acts).2.2.1 hu).2.2
  refine ⟨hw, hu, by decide, by decide, ?_⟩
  rw [← h]
  decide

end Watched

end ServiceMesh
