import Keyload.Run.Sentinel

/-!
What a watch makes of the history of a store. The history only grows; a notice that a watch has before it, with no
cancel in between and not too far back, is read in the end, and nothing else is.
-/
namespace Keyload

/-! ### The history grows -/

/-- One history goes on as another. -/
structure Feed.Grows (feed later : Feed) : Prop where
  size_le : feed.size ≤ later.size
  same : ∀ j < feed.size, later[j]? = feed[j]?

namespace Feed.Grows

theorem refl (feed : Feed) : Grows feed feed := ⟨Nat.le_refl _,fun _ _ => rfl⟩

theorem trans {feed middle later : Feed} (first : Grows feed middle) (then_ : Grows middle later) :
    Grows feed later := by
  refine ⟨Nat.le_trans first.size_le then_.size_le,?_⟩
  intro j known
  rw [then_.same j (Nat.lt_of_lt_of_le known first.size_le),first.same j known]

theorem push (feed : Feed) (notice : Notice) : Grows feed (feed.push notice) := by
  refine ⟨by simp,?_⟩
  intro j known
  rw [Array.getElem?_push,if_neg (Nat.ne_of_lt known)]

end Feed.Grows

namespace Sentinel

/-- The notice that a key was given the awaited value. -/
def tells (key : String) : Notice := .changed ⟨.put,key,awaited⟩

theorem value_beq (a b : ByteArray) : (a == b) = true ↔ a = b := by
  obtain ⟨a⟩ := a
  obtain ⟨b⟩ := b
  constructor
  · intro same
    have same : (a == b) = true := same
    rw [eq_of_beq same]
  · intro same
    cases same
    exact beq_self_eq_true a

theorem isAwaited_iff (e : WatchEvent) : isAwaited e = true ↔ e.change = .put ∧ e.value = awaited := by
  rw [isAwaited,Bool.and_eq_true,value_beq,beq_iff_eq]

/-- Where an item of a watch leads. -/
theorem after_cases (nowMs : Nat) (t : Watch.Stream) (item : Option Watch.Item) :
    after nowMs t item = .watching t ∨ after nowMs t item = .opening ∨ after nowMs t item = .pausing (nowMs + pauseMs) ∨
      after nowMs t item = .settled true := by
  unfold after
  split
  · exact .inl rfl
  · split
    · exact .inr (.inr (.inr rfl))
    · exact .inl rfl
  · exact .inr (.inl rfl)
  · exact .inr (.inr (.inl rfl))
  · exact .inr (.inr (.inl rfl))

end Sentinel

/-- The history goes on without a notice that the key was given the awaited value. -/
structure Feed.Silent (key : String) (feed later : Feed) : Prop where
  grows : Grows feed later
  untold : ∀ j, feed.size ≤ j → later[j]? ≠ some (Sentinel.tells key)

namespace Feed.Silent
open Sentinel (tells)

theorem refl (key : String) (feed : Feed) : Silent key feed feed := by
  refine ⟨.refl feed,?_⟩
  intro j beyond
  simp [Array.getElem?_eq_none beyond]

theorem trans {key : String} {feed middle later : Feed} (first : Silent key feed middle)
    (then_ : Silent key middle later) : Silent key feed later := by
  refine ⟨first.grows.trans then_.grows,?_⟩
  intro j from_
  by_cases known : j < middle.size
  · rw [then_.grows.same j known]
    exact first.untold j from_
  · exact then_.untold j (Nat.not_lt.mp known)

theorem push {key : String} {notice : Notice} (other : notice ≠ tells key) (feed : Feed) :
    Silent key feed (feed.push notice) := by
  refine ⟨.push feed notice,?_⟩
  intro j from_
  rw [Array.getElem?_push]
  split
  · exact fun same => other (Option.some.inj same)
  · simp [Array.getElem?_eq_none from_]

end Feed.Silent

/-- The history goes on with the notice that the key was given the awaited value, or without it. -/
def Feed.Goes (key : String) (feed later : Feed) : Prop :=
  later = feed.push (Sentinel.tells key) ∨ Silent key feed later

theorem Feed.Goes.grows {key : String} {feed later : Feed} (goes : Goes key feed later) : Grows feed later := by
  rcases goes with rfl | silent
  · exact .push _ _
  · exact silent.grows

theorem Feed.push_goes (key : String) (feed : Feed) (notice : Notice) : Goes key feed (feed.push notice) := by
  by_cases told : notice = Sentinel.tells key
  · exact .inl (told ▸ rfl)
  · exact .inr (.push told feed)

theorem Memory.remove_silent (key : String) (m : Memory) (gone : String) :
    Feed.Silent key m.feed (m.remove gone).feed :=
  .push (by simp [Sentinel.tells]) m.feed

theorem Memory.execute_goes (key : String) (m : Memory) (op : Operation) :
    Feed.Goes key m.feed (m.execute op).2.feed := by
  cases op with
  | put key value =>
    rw [execute]
    split
    · exact .inr (.refl _ _)
    · exact Feed.push_goes _ _ _
  | get => exact .inr (.refl _ _)
  | delete base below =>
    have all : ∀ (gone : List String) (m : Memory), Feed.Silent key m.feed (gone.foldl remove m).feed := by
      intro gone
      induction gone with
      | nil => exact fun m => .refl key m.feed
      | cons one gone ih => exact fun m => (remove_silent key m one).trans (ih (m.remove one))
    exact .inr (all _ m)

/-! ### Reading -/

namespace Feed
open Sentinel (tells isAwaited isAwaited_iff)

variable {feed : Feed} {w : Watching}

/-- A watch of a single key. -/
def Watches (w : Watching) (key : String) : Prop := w.key = key ∧ w.withPrefix = false

theorem covers_iff {key : String} (watches : Watches w key) (other : String) : covers w other = true ↔ other = key := by
  obtain ⟨rfl,exact_⟩ := watches
  rw [covers,if_neg (by simp [exact_]),beq_iff_eq]
  exact eq_comm

/-- A notice that lies ahead is not passed over before a cancel. -/
theorem find_hears {key : String} (watches : Watches w key) {k : Nat} (at_k : feed[k]? = some (tells key))
    {n place : Nat} (ahead : place ≤ k) (enough : k < place + n)
    (uncanceled : ∀ j, place ≤ j → j < k → feed[j]? ≠ some .canceled) :
    ∃ es later, feed.find w n place = (some (.events es),later) ∧ place < later ∧
      (es.any isAwaited = true ∨ later ≤ k) := by
  induction n generalizing place with
  | zero => omega
  | succ n ih =>
    have known : place < feed.size := Nat.lt_of_le_of_lt ahead (Array.getElem?_eq_some_iff.mp at_k).1
    have at_place : feed[place]? = some feed[place] := Array.getElem?_eq_getElem known
    by_cases here : place = k
    · subst here
      have covered : covers w key = true := (covers_iff watches key).mpr rfl
      refine ⟨[⟨.put,key,Sentinel.awaited⟩],place + 1,?_,Nat.lt_succ_self _,.inl ?_⟩
      · rw [find,at_k]
        simp [tells,update?,covered]
      · simp [isAwaited_iff]
    · have before : place < k := by omega
      rw [find,at_place]
      cases notice : feed[place] with
      | canceled => exact absurd (notice ▸ at_place) (uncanceled place (Nat.le_refl _) before)
      | changed e =>
        by_cases covered : covers w e.key = true
        · exact ⟨[e],place + 1,by simp [update?,covered],Nat.lt_succ_self _,.inr before⟩
        · have further : k < place + 1 + n := by omega
          obtain ⟨es,later,found,further,heard⟩ := ih before further fun j from_ => uncanceled j (Nat.le_of_lt from_)
          refine ⟨es,later,?_,by omega,heard⟩
          simpa [update?,covered] using found

/-- An awaited value that is found was told from the place on. -/
theorem find_told {key : String} (watches : Watches w key) {n place later : Nat} {es : List WatchEvent}
    (found : feed.find w n place = (some (.events es),later)) (awaited : es.any isAwaited = true) :
    ∃ j, place ≤ j ∧ feed[j]? = some (tells key) := by
  induction n generalizing place with
  | zero => cases found
  | succ n ih =>
    rw [find] at found
    cases at_place : feed[place]? with
    | none =>
      rw [at_place] at found
      cases found
    | some notice =>
      simp only [at_place] at found
      cases notice with
      | canceled => cases found
      | changed e =>
        by_cases covered : covers w e.key = true
        · simp only [update?,covered,if_true] at found
          cases found
          refine ⟨place,Nat.le_refl _,?_⟩
          obtain ⟨change,value⟩ := (isAwaited_iff e).mp (by simpa using awaited)
          have same := (covers_iff watches e.key).mp covered
          obtain ⟨_,_,_⟩ := e
          cases change
          cases value
          cases same
          exact at_place
        · simp only [update?,covered] at found
          obtain ⟨j,from_,at_j⟩ := ih found
          exact ⟨j,by omega,at_j⟩

theorem find_place (feed : Feed) (w : Watching) (n place : Nat) :
    place ≤ (feed.find w n place).2 ∧ (place ≤ feed.size → (feed.find w n place).2 ≤ feed.size) := by
  induction n generalizing place with
  | zero => exact ⟨Nat.le_refl _,id⟩
  | succ n ih =>
    rw [find]
    cases at_place : feed[place]? with
    | none => exact ⟨Nat.le_refl _,id⟩
    | some notice =>
      have known : place < feed.size := (Array.getElem?_eq_some_iff.mp at_place).1
      cases read : update? w notice with
      | some u =>
        simp only [read]
        exact ⟨Nat.le_succ _,fun _ => known⟩
      | none =>
        obtain ⟨further,inside⟩ := ih (place + 1)
        simp only [read]
        exact ⟨by omega,fun _ => inside known⟩

theorem place_le_readable (feed : Feed) (w : Watching) : w.place ≤ feed.readable w := Nat.le_max_left _ _

theorem next_place (feed : Feed) (w : Watching) :
    w.place ≤ (feed.next w).2.place ∧ (w.place ≤ feed.size → (feed.next w).2.place ≤ feed.size) := by
  obtain ⟨further,inside⟩ := find_place feed w (feed.size - feed.readable w) (feed.readable w)
  refine ⟨Nat.le_trans (place_le_readable feed w) further,fun known => inside ?_⟩
  unfold readable
  omega

/-- An awaited value that is read was told since the watch was read last. -/
theorem next_told {key : String} (watches : Watches w key) {es : List WatchEvent}
    (read : (feed.next w).1 = some (.events es)) (awaited : es.any isAwaited = true) :
    ∃ j, w.place ≤ j ∧ feed[j]? = some (tells key) := by
  have found : feed.find w (feed.size - feed.readable w) (feed.readable w) =
      (some (.events es),(feed.next w).2.place) := by
    rw [← read]
    rfl
  obtain ⟨j,from_,at_j⟩ := find_told watches found awaited
  exact ⟨j,Nat.le_trans (place_le_readable feed w) from_,at_j⟩

theorem readable_le {k : Nat} (place : w.place ≤ k) (recent : feed.size ≤ k + capacity) : feed.readable w ≤ k := by
  unfold readable
  omega

end Feed

namespace Watch.Stream
open Sentinel (tells isAwaited)

variable {s t : Stream} {key : String} {feed later : Feed}

/-- Nothing that has befallen the watch breaks it off. -/
def Unbroken (s : Stream) : Prop := ∀ i ∈ s.pending, i = .quiet

/-- The watch is not broken off and has no cancel before it. -/
structure Listens (s : Stream) (feed : Feed) : Prop where
  unbroken : s.Unbroken
  uncanceled : ∀ j, feed.readable s.watching ≤ j → feed[j]? ≠ some .canceled

/-- The watch is going to read the notice `k`, that the key has the awaited value. -/
structure Owes (s : Stream) (key : String) (feed : Feed) (k : Nat) : Prop where
  watches : Feed.Watches s.watching key
  unbroken : s.Unbroken
  ahead : feed.readable s.watching ≤ k
  uncanceled : ∀ j, feed.readable s.watching ≤ j → j < k → feed[j]? ≠ some .canceled
  told : feed[k]? = some (tells key)

/-- The watch will not read that the key has the awaited value. -/
def Deaf (s : Stream) (key : String) (feed : Feed) : Prop :=
  ¬ s.Unbroken ∨ ∀ j, s.watching.place ≤ j → feed[j]? ≠ some (tells key)

theorem next_unbefallen (watching : Watching) (feed : Feed) : next ⟨watching,[]⟩ feed =
    if watching.place < feed.size then some ((feed.next watching).1.map .update,⟨(feed.next watching).2,[]⟩)
    else none :=
  rfl

theorem next_inside {item : Option Item} (run : s.next feed = some (item,t)) (watches : Feed.Watches s.watching key)
    (inside : s.watching.place ≤ feed.size) : Feed.Watches t.watching key ∧ t.watching.place ≤ feed.size := by
  obtain ⟨watching,pending⟩ := s
  cases pending with
  | cons i rest =>
    cases run
    exact ⟨watches,inside⟩
  | nil =>
    rw [next_unbefallen] at run
    split at run
    · cases run
      exact ⟨watches,(Feed.next_place feed watching).2 inside⟩
    · cases run

theorem Listens.told (listens : s.Listens feed) (watches : Feed.Watches s.watching key)
    (inside : s.watching.place ≤ feed.size) : s.Owes key (feed.push (tells key)) feed.size := by
  have grows := Feed.Grows.push feed (tells key)
  constructor
  case watches => exact watches
  case unbroken => exact listens.unbroken
  case ahead => exact Feed.readable_le inside (by simp [Feed.capacity])
  case uncanceled =>
    intro j from_ before
    rw [grows.same j before]
    refine listens.uncanceled j (Nat.le_trans ?_ from_)
    unfold Feed.readable
    simp only [Array.size_push]
    omega
  case told => simp

theorem Owes.grows {k : Nat} (owes : s.Owes key feed k) (grows : feed.Grows later)
    (recent : later.size ≤ k + Feed.capacity) : s.Owes key later k := by
  have known := (Array.getElem?_eq_some_iff.mp owes.told).1
  constructor
  case watches => exact owes.watches
  case unbroken => exact owes.unbroken
  case ahead => exact Feed.readable_le (Nat.le_trans (Feed.place_le_readable feed s.watching) owes.ahead) recent
  case uncanceled =>
    intro j from_ before
    rw [grows.same j (Nat.lt_trans before known)]
    refine owes.uncanceled j (Nat.le_trans ?_ from_) before
    have := grows.size_le
    unfold Feed.readable
    omega
  case told => exact (grows.same k known).trans owes.told

theorem Owes.quiet {k : Nat} (owes : s.Owes key feed k) : (s.interrupt .quiet).Owes key feed k := by
  refine ⟨owes.watches,?_,owes.ahead,owes.uncanceled,owes.told⟩
  intro i member
  rcases List.mem_append.mp member with old | new
  · exact owes.unbroken i old
  · exact List.mem_singleton.mp new

/-- How much is to be read before the notice `k`. -/
def before (s : Stream) (k : Nat) : Nat := s.pending.length + (k + 1 - s.watching.place)

/-- A watch that is going to read the notice has something to read, and it is the notice or something before it. -/
theorem Owes.next {k : Nat} (owes : s.Owes key feed k) :
    ∃ es t, s.next feed = some (some (.update (.events es)),t) ∧
      (es.any isAwaited = true ∨ t.Owes key feed k ∧ t.before k < s.before k) := by
  obtain ⟨watching,pending⟩ := s
  cases pending with
  | cons i rest =>
    cases owes.unbroken i List.mem_cons_self
    refine ⟨[],⟨watching,rest⟩,rfl,.inr ⟨⟨owes.watches,?_,owes.ahead,owes.uncanceled,owes.told⟩,?_⟩⟩
    · exact fun i member => owes.unbroken i (List.mem_cons_of_mem _ member)
    · simp [before]
  | nil =>
    have known := (Array.getElem?_eq_some_iff.mp owes.told).1
    have ahead := owes.ahead
    have behind := Feed.place_le_readable feed watching
    obtain ⟨es,place,found,further,heard⟩ := Feed.find_hears owes.watches owes.told
      (n := feed.size - feed.readable watching) ahead (by simp only at ahead ⊢; omega) owes.uncanceled
    refine ⟨es,⟨{ watching with place },[]⟩,?_,heard.imp_right fun short => ⟨?_,?_⟩⟩
    · have unread : watching.place < feed.size := Nat.lt_of_le_of_lt (Nat.le_trans behind ahead) known
      rw [next_unbefallen,if_pos unread,Feed.next,found]
      rfl
    · simp only at ahead further
      have narrower : feed.readable watching ≤ feed.readable { watching with place } := by
        unfold Feed.readable at further ⊢
        simp only
        omega
      refine ⟨owes.watches,owes.unbroken,?_,?_,owes.told⟩
      · unfold Feed.readable at ahead ⊢
        simp only
        omega
      · exact fun j from_ => owes.uncanceled j (Nat.le_trans narrower from_)
    · simp only at ahead further
      simp only [before,List.length_nil]
      omega

theorem Deaf.interrupt (deaf : s.Deaf key feed) (i : Interruption) : (s.interrupt i).Deaf key feed := by
  rcases deaf with broken | untold
  · refine .inl fun unbroken => broken fun j member => ?_
    exact unbroken j (List.mem_append_left _ member)
  · exact .inr untold

/-- Reading on, a watch that is deaf stays so. -/
theorem Deaf.next (deaf : s.Deaf key feed) (watches : Feed.Watches s.watching key) {item : Option Item}
    (run : s.next feed = some (item,t)) (nowMs : Nat) :
    Sentinel.after nowMs t item = .watching t ∧ t.Deaf key feed ∨ Sentinel.after nowMs t item = .opening ∨
      Sentinel.after nowMs t item = .pausing (nowMs + Sentinel.pauseMs) := by
  obtain ⟨watching,pending⟩ := s
  cases pending with
  | cons i rest =>
    cases run
    cases i with
    | failed e => exact .inr (.inr rfl)
    | ended => exact .inr (.inr rfl)
    | quiet =>
      refine .inl ⟨rfl,deaf.imp_left fun broken unbroken => broken fun i member => ?_⟩
      rcases List.mem_cons.mp member with rfl | later
      · rfl
      · exact unbroken i later
  | nil =>
    have untold : ∀ j, watching.place ≤ j → feed[j]? ≠ some (tells key) := by
      rcases deaf with broken | untold
      · exact absurd (by simp [Unbroken]) broken
      · exact untold
    rw [next_unbefallen] at run
    split at run
    · cases run
      have still : Deaf ⟨(feed.next watching).2,[]⟩ key feed :=
        .inr fun j from_ => untold j (Nat.le_trans (Feed.next_place feed watching).1 from_)
      cases read : (feed.next watching).1 with
      | none => exact .inl ⟨rfl,still⟩
      | some u =>
        cases u with
        | canceled reason => exact .inr (.inl rfl)
        | events es =>
          have unheard : ¬ es.any isAwaited = true := fun heard => by
            obtain ⟨j,from_,told⟩ := Feed.next_told watches read heard
            exact untold j from_ told
          refine .inl ⟨?_,still⟩
          rw [Option.map_some,Sentinel.after,if_neg unheard]
    · cases run

end Watch.Stream

end Keyload
