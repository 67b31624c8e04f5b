import Mathlib.Data.Finset.Sort
import Mathlib.Data.String.Basic
import Keyload.Proofs.Store.FiniteMap
import Keyload.Proofs.Watch.Notices

/-!
What the watches on a store yield. The changes are told by the finite map that the store holds: a put that does not
fail tells its value, a delete tells each key that was bound, in order, and nothing else tells anything. A watch that is
never too far behind yields what is told after it was opened, as far as it covers the key, each once and in order.
-/
namespace Keyload

/-- What happens at a store that is watched. -/
inductive Act where
  | call (c : Call)
  | cancelWatches
  /-- Open a watch; watches are numbered from zero. -/
  | watch (key : String) (withPrefix : Bool)
  /-- Ask a watch for its next update. -/
  | poll (i : Nat)
  | drop (i : Nat)

/-! ### What a map tells -/

namespace FiniteMap

/-- What happens to a map. -/
noncomputable def after (f : FiniteMap) : Act → FiniteMap
  | .call c => (f.call c).2
  | _ => f

/-- The notices of what happens to a map. -/
noncomputable def told (f : FiniteMap) : Act → List Notice
  | .call (.execute (.put key value)) => if f.failing = 0 then [.changed ⟨.put,key,value.toUTF8⟩] else []
  | .call (.execute (.delete key true)) =>
    (f.keysUnder key).sort.map fun gone => .changed ⟨.delete,gone,ByteArray.empty⟩
  | .call (.execute (.delete key false)) =>
    if f.value key = none then [] else [.changed ⟨.delete,key,ByteArray.empty⟩]
  | .call (.write key value) => [.changed ⟨.put,key,value⟩]
  | .cancelWatches => [.canceled]
  | _ => []

/-- The notices of all that happens to a map. -/
noncomputable def history (f : FiniteMap) : List Act → List Notice
  | [] => []
  | act :: acts => f.told act ++ history (f.after act) acts

end FiniteMap

/-- What a watch of one key, or of all keys that start with it, is to yield on a notice. -/
def Notice.yields (key : String) (withPrefix : Bool) : Notice → Option WatchUpdate
  | .changed e =>
    if e.key = key ∨ withPrefix = true ∧ key.toList <+: e.key.toList then some (.events [e]) else none
  | .canceled => some (.canceled "canceled by store")

/-! ### What a store tells -/

namespace Memory

/-- The keys that a delete removes are those found below its text, in order. -/
theorem doomed_eq_sort (m : Memory) (base : String) : m.doomed base true = (m.contents.keysUnder base).sort := by
  have ordered : ((m.below base).map Prod.fst).Pairwise (· ≤ ·) := by
    rw [below_eq,List.pairwise_map]
    refine ((Std.TreeMap.ordered_keys_toList (t := m.data)).filter _).imp fun {e e'} before => ?_
    exact le_of_lt (compareOfLessAndEq_eq_lt.mp before)
  rw [doomed,if_pos rfl,← keys_below,(List.toFinset_sort _ (keys_below_nodup m base)).mpr ordered]

theorem feed_removed (keys : List String) (m : Memory) : (keys.foldl remove m).feed.toList =
    m.feed.toList ++ keys.map fun gone => .changed ⟨.delete,gone,ByteArray.empty⟩ := by
  induction keys generalizing m with
  | nil => simp
  | cons key keys ih =>
    rw [List.foldl_cons,ih (m.remove key)]
    simp [remove]

/-- A call adds to the history of a store what the map with its contents tells. -/
theorem feed_call (m : Memory) (c : Call) : (m.call c).2.feed.toList = m.feed.toList ++ m.contents.told (.call c) := by
  cases c with
  | execute op =>
    show (m.execute op).2.feed.toList = _
    cases op with
    | put key value =>
      by_cases prompt : m.failing = 0
      · rw [FiniteMap.told,if_pos (show m.contents.failing = 0 from prompt)]
        simp [execute,prompt,write]
      · rw [FiniteMap.told,if_neg (show ¬ m.contents.failing = 0 from prompt)]
        simp [execute,Nat.pos_of_ne_zero prompt]
    | get => exact (List.append_nil _).symm
    | delete key below =>
      refine (feed_removed (m.doomed key below) m).trans ?_
      cases below with
      | true => rw [doomed_eq_sort,FiniteMap.told]
      | false =>
        rw [doomed_exact,FiniteMap.told]
        show _ = _ ++ if m.get? key = none then _ else _
        cases m.get? key <;> rfl
  | write key value => exact Array.toList_push
  | failPuts n => exact (List.append_nil _).symm
  | countBelow base => exact (List.append_nil _).symm

end Memory

/-! ### Watches that are polled -/

/-- A watch as its owner has it: with the updates it has yielded, and whether it was dropped. -/
structure Listener where
  watching : Watching
  heard : List WatchUpdate
  dropped : Bool

/-- Ask a watch for its next update, unless it was dropped. -/
def Listener.poll (l : Listener) (feed : Feed) : Listener :=
  if l.dropped then l
  else
    let (u,watching) := feed.next l.watching
    { l with watching, heard := l.heard ++ u.toList }

/-- A store and the watches that were opened on it. -/
structure Audience where
  memory : Memory
  listeners : List Listener

namespace Audience

/-- Nobody has opened a watch. -/
def silent (m : Memory) : Audience := ⟨m,[]⟩

/-- What becomes of a store and its watches. -/
def next (a : Audience) : Act → Audience
  | .call c => { a with memory := (a.memory.call c).2 }
  | .cancelWatches => { a with memory := a.memory.cancelWatches }
  | .watch key withPrefix => { a with listeners := a.listeners ++ [⟨a.memory.watch key withPrefix,[],false⟩] }
  | .poll i => { a with listeners := a.listeners.modify i (·.poll a.memory.feed) }
  | .drop i => { a with listeners := a.listeners.modify i ({ · with dropped := true }) }

/-- What becomes of a store and its watches in the end. -/
def run (a : Audience) (acts : List Act) : Audience := acts.foldl next a

/-- A watch is not more notices behind than it can still read, unless it was dropped. -/
def KeepsUp (a : Audience) (i : Nat) : Prop :=
  ∀ l ∈ a.listeners[i]?, l.dropped = false → a.memory.feed.size ≤ l.watching.place + Feed.capacity

end Audience

/-! ### Reading on -/

namespace Feed

theorem covers_iff_starts (w : Watching) (key : String) :
    covers w key = true ↔ key = w.key ∨ w.withPrefix = true ∧ w.key.toList <+: key.toList := by
  rw [covers]
  split
  · rename_i below
    rw [List.isPrefixOf_iff_prefix]
    refine ⟨fun starts => .inr ⟨below,starts⟩,?_⟩
    rintro (rfl | ⟨_,starts⟩)
    · exact List.prefix_refl _
    · exact starts
  · rename_i exactly
    rw [beq_iff_eq,eq_comm]
    exact ⟨.inl,fun same => same.resolve_right fun below => exactly below.1⟩

theorem update?_eq_yields (w : Watching) (notice : Notice) : update? w notice = notice.yields w.key w.withPrefix := by
  cases notice with
  | canceled => rfl
  | changed e => simp only [update?,Notice.yields,covers_iff_starts]

/-- The updates that a watch has before it. -/
def unread (feed : Feed) (w : Watching) : List WatchUpdate :=
  (feed.toList.drop w.place).filterMap (Notice.yields w.key w.withPrefix)

variable {feed : Feed} {w : Watching}

theorem unread_of_end (ended : feed.size ≤ w.place) : feed.unread w = [] := by
  rw [unread,List.drop_eq_nil_of_le (by simpa using ended)]
  rfl

theorem unread_of_notice {notice : Notice} (found : feed[w.place]? = some notice) : feed.unread w =
    (notice.yields w.key w.withPrefix).toList ++ feed.unread { w with place := w.place + 1 } := by
  obtain ⟨known,found⟩ := Array.getElem?_eq_some_iff.mp found
  rw [unread,List.drop_eq_getElem_cons (by simpa using known),Array.getElem_toList,found,List.filterMap_cons]
  cases notice.yields w.key w.withPrefix <;> rfl

/-- A search finds the first update that lies before the watch, and leaves the others there. -/
theorem find_unread (feed : Feed) (w : Watching) {n i : Nat} (enough : feed.size ≤ i + n) :
    feed.unread { w with place := i } =
        (feed.find w n i).1.toList ++ feed.unread { w with place := (feed.find w n i).2 } ∧
      ((feed.find w n i).1 = none → feed.unread { w with place := i } = []) := by
  induction n generalizing i with
  | zero => exact ⟨rfl,fun _ => unread_of_end enough⟩
  | succ n ih =>
    rw [find]
    cases found : feed[i]? with
    | none => exact ⟨rfl,fun _ => unread_of_end (Array.getElem?_eq_none_iff.mp found)⟩
    | some notice =>
      have first : feed.unread { w with place := i } =
          (notice.yields w.key w.withPrefix).toList ++ feed.unread { w with place := i + 1 } :=
        unread_of_notice found
      simp only [first,update?_eq_yields]
      cases notice.yields w.key w.withPrefix with
      | some u => exact ⟨rfl,by simp⟩
      | none => exact ih (i := i + 1) (by omega)

/-- A watch that is not too far behind yields the first update before it next, and keeps the others before it. -/
theorem next_unread (recent : feed.size ≤ w.place + capacity) :
    feed.unread w = (feed.next w).1.toList ++ feed.unread (feed.next w).2 ∧
      (feed.next w).1 = (feed.unread w).head? := by
  have place : feed.readable w = w.place := by
    unfold readable
    omega
  obtain ⟨split_,none_left⟩ := find_unread feed w (n := feed.size - w.place) (i := w.place) (by omega)
  have same : feed.next w = ((feed.find w (feed.size - w.place) w.place).1,
      { w with place := (feed.find w (feed.size - w.place) w.place).2 }) := by
    rw [next,place]
  rw [same]
  refine ⟨split_,?_⟩
  cases found : (feed.find w (feed.size - w.place) w.place).1 with
  | none => rw [none_left found]; rfl
  | some u => rw [split_,found]; rfl

theorem drain_unread (recent : feed.size ≤ w.place + capacity) : (feed.drain w).1 = feed.unread w := by
  have place : feed.readable w = w.place := by
    unfold readable
    omega
  rw [drain,place,unread]
  exact List.filterMap_congr fun notice _ => update?_eq_yields w notice

/-- What is told to the history lies before every watch that was opened by then. -/
theorem unread_told {later : Feed} {told : List Notice} (adds : later.toList = feed.toList ++ told)
    (opened : w.place ≤ feed.size) :
    later.unread w = feed.unread w ++ told.filterMap (Notice.yields w.key w.withPrefix) := by
  rw [unread,adds,List.drop_append_of_le_length (by simpa using opened),List.filterMap_append,unread]

end Feed

/-! ### What a watch has yielded -/

namespace Listener

variable {l : Listener} {feed later : Feed} {key : String} {withPrefix : Bool} {due : List WatchUpdate}

/-- A watch that is to yield some updates has yielded the first of them and has the others before it; once it is
dropped it yields no more. -/
structure Hears (l : Listener) (feed : Feed) (key : String) (withPrefix : Bool) (due : List WatchUpdate) : Prop where
  watches : l.watching.key = key ∧ l.watching.withPrefix = withPrefix
  opened : l.watching.place ≤ feed.size
  heard : l.heard <+: due
  rest : l.dropped = false → due = l.heard ++ feed.unread l.watching

theorem Hears.told (hears : l.Hears feed key withPrefix due) {told : List Notice}
    (adds : later.toList = feed.toList ++ told) :
    l.Hears later key withPrefix (due ++ told.filterMap (Notice.yields key withPrefix)) := by
  have longer : later.size = feed.size + told.length := by
    rw [← Array.length_toList,adds,List.length_append,Array.length_toList]
  refine ⟨hears.watches,by have := hears.opened; omega,hears.heard.trans (List.prefix_append _ _),fun open_ => ?_⟩
  rw [Feed.unread_told adds hears.opened,hears.watches.1,hears.watches.2,← List.append_assoc,← hears.rest open_]

theorem Hears.poll (hears : l.Hears feed key withPrefix due)
    (recent : l.dropped = false → feed.size ≤ l.watching.place + Feed.capacity) :
    (l.poll feed).Hears feed key withPrefix due := by
  rw [Listener.poll]
  split
  · exact hears
  · rename_i open_
    have rest := hears.rest (Bool.eq_false_iff.mpr open_)
    rw [(Feed.next_unread (recent (Bool.eq_false_iff.mpr open_))).1,← List.append_assoc] at rest
    exact ⟨hears.watches,(Feed.next_place feed l.watching).2 hears.opened,⟨_,rest.symm⟩,fun _ => rest⟩

theorem Hears.drop (hears : l.Hears feed key withPrefix due) :
    Hears { l with dropped := true } feed key withPrefix due :=
  ⟨hears.watches,hears.opened,hears.heard,fun open_ => nomatch open_⟩

end Listener

namespace Audience

variable {a : Audience} {i : Nat} {key : String} {withPrefix : Bool} {due : List WatchUpdate}

/-- What happens at a store adds to its history what the map with its contents tells, and changes the contents like
the map. -/
theorem next_memory (a : Audience) (act : Act) :
    (a.next act).memory.feed.toList = a.memory.feed.toList ++ a.memory.contents.told act ∧
      (a.next act).memory.contents = a.memory.contents.after act := by
  cases act with
  | call c => exact ⟨Memory.feed_call a.memory c,congrArg Prod.snd (Memory.contents_call a.memory c)⟩
  | cancelWatches => exact ⟨Array.toList_push,rfl⟩
  | watch | poll | drop => exact ⟨(List.append_nil _).symm,rfl⟩

theorem run_contents (a : Audience) (acts : List Act) :
    (a.run acts).memory.contents = acts.foldl FiniteMap.after a.memory.contents := by
  induction acts generalizing a with
  | nil => rfl
  | cons act acts ih => rw [run,List.foldl_cons,← run,ih,(next_memory a act).2,List.foldl_cons]

/-- A watch that was opened hears what it is to yield. -/
def Attends (a : Audience) (i : Nat) (key : String) (withPrefix : Bool) (due : List WatchUpdate) : Prop :=
  ∃ l, a.listeners[i]? = some l ∧ l.Hears a.memory.feed key withPrefix due

/-- What happens at a store adds to what a watch is to yield what the map with its contents tells. -/
theorem Attends.next (attends : a.Attends i key withPrefix due) (recent : a.KeepsUp i) (act : Act) :
    (a.next act).Attends i key withPrefix
      (due ++ (a.memory.contents.told act).filterMap (Notice.yields key withPrefix)) := by
  obtain ⟨l,at_i,hears⟩ := attends
  have told := hears.told (next_memory a act).1
  cases act with
  | call | cancelWatches => exact ⟨l,at_i,told⟩
  | watch =>
    exact ⟨l,(List.getElem?_append_left (List.getElem?_eq_some_iff.mp at_i).1).trans at_i,told⟩
  | poll j =>
    by_cases asked : j = i
    · subst asked
      exact ⟨l.poll a.memory.feed,by simp [Audience.next,at_i],told.poll (recent l at_i)⟩
    · exact ⟨l,by simp [Audience.next,asked,at_i],told⟩
  | drop j =>
    by_cases asked : j = i
    · subst asked
      exact ⟨_,by simp [Audience.next,at_i],told.drop⟩
    · exact ⟨l,by simp [Audience.next,asked,at_i],told⟩

/-- As long as a watch is not too far behind, what it is to yield grows by all that the map tells. -/
theorem Attends.run (attends : a.Attends i key withPrefix due) (acts : List Act)
    (recent : ∀ first, first <+: acts → (a.run first).KeepsUp i) : (a.run acts).Attends i key withPrefix
      (due ++ (a.memory.contents.history acts).filterMap (Notice.yields key withPrefix)) := by
  induction acts generalizing a due with
  | nil => rwa [FiniteMap.history,List.filterMap_nil,List.append_nil]
  | cons act acts ih =>
    have later := ih (attends.next (recent [] List.nil_prefix) act) fun first before => by
      obtain ⟨rest,rfl⟩ := before
      exact recent (act :: first) ⟨rest,rfl⟩
    rw [(next_memory a act).2] at later
    rw [FiniteMap.history,List.filterMap_append,← List.append_assoc]
    exact later

/-- Whatever happens at a store and to the watches on it: a watch that is never too far behind has yielded the first of
the updates that are due, and as long as it is not dropped it yields the next one when it is asked, and has all others
before it. What is due is what the map of the store tells after the watch was opened, as far as it covers the key. -/
theorem watch_delivers (m : Memory) (before later : List Act) (key : String) (withPrefix : Bool)
    (recent : ∀ acts, acts <+: later → ((silent m).run (before ++ .watch key withPrefix :: acts)).KeepsUp
      ((silent m).run before).listeners.length) :
    let a := (silent m).run (before ++ .watch key withPrefix :: later)
    let due := ((before.foldl FiniteMap.after m.contents).history later).filterMap (Notice.yields key withPrefix)
    ∃ l, a.listeners[((silent m).run before).listeners.length]? = some l ∧ l.heard <+: due ∧
      (l.dropped = false →
        (a.memory.feed.next l.watching).1 = due[l.heard.length]? ∧
          (a.memory.feed.drain l.watching).1 = due.drop l.heard.length) := by
  intro a due
  have parts : ∀ acts, (silent m).run (before ++ .watch key withPrefix :: acts) =
      (((silent m).run before).next (.watch key withPrefix)).run acts := by
    intro acts
    rw [run,List.foldl_append]
    rfl
  have contents := run_contents (silent m) before
  have opened : (((silent m).run before).next (.watch key withPrefix)).Attends
      ((silent m).run before).listeners.length key withPrefix [] :=
    ⟨_,List.getElem?_concat_length,⟨rfl,rfl⟩,Nat.le_refl _,List.nil_prefix,
      fun _ => (Feed.unread_of_end (Nat.le_refl _)).symm⟩
  obtain ⟨l,at_i,hears⟩ := opened.run later fun acts first => parts acts ▸ recent acts first
  rw [List.nil_append,(next_memory _ _).2,contents,← parts] at hears
  rw [← parts] at at_i
  replace hears : l.Hears a.memory.feed key withPrefix due := hears
  refine ⟨l,at_i,hears.heard,fun open_ => ?_⟩
  have close : a.memory.feed.size ≤ l.watching.place + Feed.capacity := recent later (List.prefix_refl _) l at_i open_
  have rest : due.drop l.heard.length = a.memory.feed.unread l.watching := by
    rw [hears.rest open_,List.drop_left]
  refine ⟨?_,(Feed.drain_unread close).trans rest.symm⟩
  rw [(Feed.next_unread close).2,← rest,List.head?_drop]

/-- What happens at a store while two watches are open. -/
def bustle : List Act :=
  [.watch "b" false,.call (.execute (.put "a/1" "x")),.call (.execute (.put "c" "x")),
    .call (.execute (.delete "a" true)),.cancelWatches,.poll 0,.poll 0,.poll 1]

instance : DecidableEq WatchEvent := fun a b =>
  decidable_of_iff (a.change = b.change ∧ a.key = b.key ∧ a.value.data = b.value.data) <| by
    cases a
    cases b
    simp [ByteArray.ext_iff]

deriving instance DecidableEq for WatchUpdate

/-- A watch on all keys that start with a text is to yield a put, the keys that a delete removes, in order, and the
cancel, and it is asked for two of them. -/
theorem prefix_watch_delivers :
    let a := fun acts => (silent .empty).run ([.call (.write "a/2" "y".toUTF8)] ++ .watch "a" true :: acts)
    (∀ acts, acts <+: bustle → (a acts).KeepsUp 0) ∧
    (([Act.call (.write "a/2" "y".toUTF8)].foldl FiniteMap.after Memory.empty.contents).history bustle).filterMap
        (Notice.yields "a" true) = [.events [⟨.put,"a/1","x".toUTF8⟩],.events [⟨.delete,"a/1",.empty⟩],
          .events [⟨.delete,"a/2",.empty⟩],.canceled "canceled by store"] ∧
      (a bustle).listeners[0]?.map (·.heard.length) = some 2 := by
  intro a
  have recent : ∀ acts ∈ bustle.inits, (a acts).KeepsUp 0 := by
    unfold KeepsUp
    decide +kernel
  have recent : ∀ acts, acts <+: bustle → (a acts).KeepsUp 0 :=
    fun acts first => recent acts ((List.mem_inits _ _).mpr first)
  obtain ⟨l,at_0,heard,rest⟩ := watch_delivers .empty [.call (.write "a/2" "y".toUTF8)] bustle "a" true recent
  have seen : (a bustle).listeners[0]?.map (fun l => (l.heard,l.dropped,((a bustle).memory.feed.drain l.watching).1)) =
      some ([.events [⟨.put,"a/1","x".toUTF8⟩],.events [⟨.delete,"a/1",.empty⟩]],false,
        [.events [⟨.delete,"a/2",.empty⟩],.canceled "canceled by store"]) := by
    decide +kernel
  change (a bustle).listeners[0]? = some l at at_0
  rw [at_0] at seen ⊢
  simp only [Option.map_some,Option.some.injEq,Prod.mk.injEq] at seen ⊢
  obtain ⟨yielded,open_,left⟩ := seen
  obtain ⟨more,split_⟩ := heard
  have drained := (rest open_).2
  rw [← split_,List.drop_left] at drained
  refine ⟨recent,?_,by rw [yielded]; rfl⟩
  rw [← split_,yielded,← drained]
  exact congrArg (_ ++ ·) left

end Audience

end Keyload
