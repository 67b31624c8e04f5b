import Mathlib.Algebra.BigOperators.Group.Finset.Basic
import Mathlib.Algebra.Ring.Nat
import Mathlib.Data.Set.Finite.Basic
import Keyload.Proofs.Store.Contents

/-!
The store as a finite map. Whoever calls the store sees a map from keys to values that is changed at the keys a call
names and nowhere else, and whose reads count exactly the keys that are bound; the scans over ordered keys, the
history of changes and the order of removals do not show. Of the puts after failures were asked for, the first ones
fail, as many as were asked for.
-/
namespace Keyload

/-- A finite map from keys to values, and the number of puts that are to fail. -/
@[ext]
structure FiniteMap where
  value : String → Option ByteArray
  finite : {key | value key ≠ none}.Finite
  failing : Nat

/-- What a store is asked. -/
inductive Call where
  | execute (op : Operation)
  /-- Write a value, whatever puts are to fail. -/
  | write (key : String) (value : ByteArray)
  | failPuts (n : Nat)
  | countBelow (base : String)

/-- Whether a call is a put that may be made to fail. -/
def Call.isPut : Call → Bool
  | .execute (.put _ _) => true
  | _ => false

/-- What is heard of a call. -/
inductive Reply where
  | result (r : Except StoreError Answer)
  | done
  | count (n : Nat)

/-- The answers to calls that are made one after another, and the state after them. -/
def callAll {S : Type} (call : S → Call → Reply × S) : S → List Call → List Reply × S
  | s, [] => ([],s)
  | s, c :: calls =>
    let (reply, s) := call s c
    let (replies, s) := callAll call s calls
    (reply :: replies,s)

theorem callAll_cons {S : Type} (call : S → Call → Reply × S) (s : S) (c : Call) (calls : List Call) :
    callAll call s (c :: calls) = ((call s c).1 :: (callAll call (call s c).2 calls).1,
      (callAll call (call s c).2 calls).2) := rfl

/-- Where every single call is answered alike from states that belong together, all calls are. -/
theorem callAll_refines {S T : Type} {call : S → Call → Reply × S} {call' : T → Call → Reply × T} {view : S → T}
    (step : ∀ s c, Prod.map id view (call s c) = call' (view s) c) (calls : List Call) (s : S) :
    Prod.map id view (callAll call s calls) = callAll call' (view s) calls := by
  induction calls generalizing s with
  | nil => rfl
  | cons c calls ih => rw [callAll_cons,callAll_cons,← step s c,Prod.map_snd,← ih (call s c).2]; rfl

/-! ### Calls of a map -/

namespace FiniteMap

/-- The bound keys that start with a text. -/
noncomputable def keysUnder (f : FiniteMap) (base : String) : Finset String :=
  f.finite.toFinset.filter fun key => base.toList <+: key.toList

/-- The bytes of a bound key that a read counts. -/
def bytes (f : FiniteMap) (keysOnly : Bool) (key : String) : Nat :=
  key.utf8ByteSize + if keysOnly then 0 else (f.value key).elim 0 ByteArray.size

/-- The map with one key bound. -/
def bind (f : FiniteMap) (key : String) (value : ByteArray) : FiniteMap where
  value := Function.update f.value key (some value)
  finite := by
    refine (f.finite.insert key).subset fun k bound => ?_
    by_cases same : k = key
    · exact .inl same
    · rw [Set.mem_ofPred,Function.update_of_ne same] at bound
      exact .inr bound
  failing := f.failing

/-- The map with some keys no longer bound. -/
def without (f : FiniteMap) (gone : Finset String) : FiniteMap where
  value key := if key ∈ gone then none else f.value key
  finite := by
    refine f.finite.subset fun k bound none_bound => bound ?_
    rw [none_bound,ite_self]
  failing := f.failing

/-- An operation on a map. -/
noncomputable def execute (f : FiniteMap) : Operation → Except StoreError Answer × FiniteMap
  | .put key value =>
    if f.failing = 0 then (.ok (.put (key.utf8ByteSize + value.utf8ByteSize)),f.bind key value.toUTF8)
    else (.error (.backend s!"injected put failure for {key}"),{ f with failing := f.failing - 1 })
  | .get key true _ keysOnly =>
    (.ok (.get true (f.keysUnder key).card (∑ k ∈ f.keysUnder key, f.bytes keysOnly k)),f)
  | .get key false _ keysOnly =>
    match f.value key with
    | some _ => (.ok (.get false 1 (f.bytes keysOnly key)),f)
    | none => (.ok (.get false 0 0),f)
  | .delete key true => (.ok (.delete (f.keysUnder key).card),f.without (f.keysUnder key))
  | .delete key false =>
    match f.value key with
    | some _ => (.ok (.delete 1),f.without {key})
    | none => (.ok (.delete 0),f)

/-- A call of a map. -/
noncomputable def call (f : FiniteMap) : Call → Reply × FiniteMap
  | .execute op => ((.result (f.execute op).1),(f.execute op).2)
  | .write key value => (.done,f.bind key value)
  | .failPuts n => (.done,{ f with failing := n })
  | .countBelow base => (.count (f.keysUnder base).card,f)

theorem mem_keysUnder (f : FiniteMap) (base key : String) :
    key ∈ f.keysUnder base ↔ f.value key ≠ none ∧ base.toList <+: key.toList := by
  simp [keysUnder]

end FiniteMap

/-! ### The map that a store holds -/

namespace Memory

/-- A call of a store. -/
def call (m : Memory) : Call → Reply × Memory
  | .execute op => (.result (m.execute op).1,(m.execute op).2)
  | .write key value => (.done,m.write key value)
  | .failPuts n => (.done,m.failPuts n)
  | .countBelow base => (.count (m.countBelow base),m)

theorem get?_ne_none (m : Memory) (key : String) : m.get? key ≠ none ↔ key ∈ m.data.keys := by
  rw [Std.TreeMap.mem_keys,Std.TreeMap.mem_iff_isSome_getElem?,Option.isSome_iff_ne_none]
  rfl

/-- The contents of a store as a map. -/
def contents (m : Memory) : FiniteMap where
  value := m.get?
  finite := by simpa only [get?_ne_none] using m.data.keys.finite_toSet
  failing := m.failing

/-! #### What is found below a text -/

private theorem get?_of_below {m : Memory} {base key : String} {value : ByteArray} (found : (key,value) ∈ m.below base) :
    m.get? key = some value := by
  rw [below_eq] at found
  exact Std.TreeMap.mem_toList_iff_getElem?_eq_some.mp (List.mem_filter.mp found).1

theorem keys_below_nodup (m : Memory) (base : String) : ((m.below base).map Prod.fst).Nodup := by
  have distinct : (m.data.toList.map Prod.fst).Nodup := by
    rw [List.Nodup,List.pairwise_map]
    exact Std.TreeMap.distinct_keys_toList.imp fun other same => other (by rw [same]; exact Std.ReflCmp.compare_self)
  rw [below_eq]
  exact distinct.sublist (List.filter_sublist.map Prod.fst)

theorem keys_below (m : Memory) (base : String) :
    ((m.below base).map Prod.fst).toFinset = m.contents.keysUnder base := by
  ext key
  have doomed_keys := mem_doomed m base key
  rw [doomed,if_pos rfl] at doomed_keys
  rw [List.mem_toFinset,doomed_keys,FiniteMap.mem_keysUnder,← List.isPrefixOf_iff_prefix]
  exact and_congr_left fun _ => by rw [← Std.TreeMap.mem_keys,← get?_ne_none]; rfl

theorem countBelow_eq (m : Memory) (base : String) : m.countBelow base = (m.contents.keysUnder base).card := by
  rw [← keys_below,List.toFinset_card_of_nodup (keys_below_nodup m base),List.length_map]
  rfl

private theorem sumAll_eq (ns : List Nat) : sumAll ns = ns.sum := by
  induction ns with
  | nil => rfl
  | cons n ns ih => rw [List.sum_cons,← ih]; rfl

private theorem bytes_below (m : Memory) (base : String) (keysOnly : Bool) :
    sumAll ((m.below base).map fun (k,v) => entrySize keysOnly k v) =
      ∑ k ∈ m.contents.keysUnder base, m.contents.bytes keysOnly k := by
  have sizes : (m.below base).map (fun (k,v) => entrySize keysOnly k v) =
      ((m.below base).map Prod.fst).map (m.contents.bytes keysOnly) := by
    rw [List.map_map]
    refine List.map_congr_left fun e found => ?_
    show entrySize keysOnly e.1 e.2 = m.contents.bytes keysOnly e.1
    simp only [entrySize,FiniteMap.bytes,contents,get?_of_below found]
    rfl
  rw [sumAll_eq,sizes,← keys_below,List.sum_toFinset _ (keys_below_nodup m base)]

/-! #### Changes -/

theorem contents_write (m : Memory) (key : String) (value : ByteArray) :
    (m.write key value).contents = m.contents.bind key value := by
  refine FiniteMap.ext (funext fun k => ?_) rfl
  show (m.data.insert key value)[k]? = Function.update m.get? key (some value) k
  rw [Std.TreeMap.getElem?_insert,Function.update_apply]
  simp only [Std.LawfulEqCmp.compare_eq_iff_eq,eq_comm (a := key)]
  rfl

theorem contents_remove (keys : List String) (m : Memory) :
    (keys.foldl remove m).contents = m.contents.without keys.toFinset := by
  refine FiniteMap.ext (funext fun k => ?_) (failing_removed keys m)
  show (keys.foldl remove m).get? k = if k ∈ keys.toFinset then none else m.get? k
  simp only [List.mem_toFinset]
  induction keys generalizing m with
  | nil => simp
  | cons key keys ih =>
    have removed : (m.remove key).get? k = if key = k then none else m.get? k := by
      show (m.data.erase key)[k]? = _
      rw [Std.TreeMap.getElem?_erase]
      simp only [Std.LawfulEqCmp.compare_eq_iff_eq]
      rfl
    rw [List.foldl_cons,ih (m.remove key),removed]
    grind

theorem doomed_exact (m : Memory) (key : String) :
    m.doomed key false = if (m.get? key).isSome then [key] else [] := by
  rw [doomed,Std.TreeMap.contains_eq_isSome_getElem?]
  rfl

/-- An operation is answered as by the map, and leaves the map that the operation on the map leaves. -/
theorem contents_execute (m : Memory) (op : Operation) :
    ((m.execute op).1,(m.execute op).2.contents) = m.contents.execute op := by
  cases op with
  | put key value =>
    by_cases prompt : m.failing = 0
    · have answers : m.execute (.put key value) = (.ok (.put (key.utf8ByteSize + value.utf8ByteSize)),
          m.write key value.toUTF8) := by
        simp [execute,prompt]
      rw [answers,FiniteMap.execute,if_pos (show m.contents.failing = 0 from prompt),← contents_write]
    · have fails : m.execute (.put key value) = (.error (.backend s!"injected put failure for {key}"),
          { m with failing := m.failing - 1 }) := by
        simp [execute,Nat.pos_of_ne_zero prompt]
      rw [fails,FiniteMap.execute,if_neg (show ¬ m.contents.failing = 0 from prompt)]
      rfl
  | get key below serializable keysOnly =>
    cases below with
    | true =>
      rw [FiniteMap.execute,← countBelow_eq,← bytes_below]
      rfl
    | false =>
      show (Except.ok (m.read key false keysOnly),m.contents) = _
      simp only [read,FiniteMap.execute,FiniteMap.bytes,contents]
      cases m.get? key <;> rfl
  | delete key below =>
    have answers : ((m.execute (.delete key below)).1,(m.execute (.delete key below)).2.contents) =
        (.ok (.delete (m.doomed key below).length),m.contents.without (m.doomed key below).toFinset) := by
      rw [← contents_remove]
      rfl
    rw [answers]
    cases below with
    | true =>
      rw [FiniteMap.execute,← countBelow_eq,← keys_below]
      simp [doomed,countBelow]
    | false =>
      rw [doomed_exact,FiniteMap.execute]
      show _ = match m.get? key with
        | some _ => _
        | none => _
      cases bound : m.get? key with
      | some v => simp
      | none =>
        have nothing : m.contents.without ∅ = m.contents := FiniteMap.ext (funext fun k => by simp [FiniteMap.without]) rfl
        simp [nothing]

theorem contents_call (m : Memory) (c : Call) : Prod.map id contents (m.call c) = m.contents.call c := by
  cases c with
  | execute op =>
    have same := contents_execute m op
    rw [FiniteMap.call,← same]
    rfl
  | write key value =>
    rw [FiniteMap.call,← contents_write]
    rfl
  | failPuts n => rfl
  | countBelow base =>
    rw [FiniteMap.call,← countBelow_eq]
    rfl

/-! #### Puts that fail -/

/-- As long as nothing is asked about failures, each put through an operation uses up one that is to fail. -/
private theorem failing_after (calls : List Call) (unasked : ∀ n, Call.failPuts n ∉ calls) (m : Memory) :
    (callAll call m calls).2.failing = m.failing - calls.countP Call.isPut := by
  induction calls generalizing m with
  | nil => rfl
  | cons c calls ih =>
    have step : (m.call c).2.failing = m.failing - if c.isPut then 1 else 0 := by
      cases c with
      | execute op =>
        show (m.execute op).2.failing = _
        cases op with
        | put key value =>
          by_cases prompt : m.failing = 0
          · rw [failing_put prompt,prompt,Nat.zero_sub]
          · simp [execute,Nat.pos_of_ne_zero prompt,Call.isPut]
        | get key below serializable keysOnly => rfl
        | delete key below => exact failing_delete m key below
      | write key value => rfl
      | failPuts n => exact absurd (List.mem_cons_self ..) (unasked n)
      | countBelow base => rfl
    show (callAll call (m.call c).2 calls).2.failing = _
    rw [ih (fun n asked => unasked n (List.mem_cons_of_mem c asked)),step,List.countP_cons]
    omega

/-- Whatever is called, a store answers as the finite map it holds, and holds the map that the calls leave; and after
`n` puts were asked to fail, until it is asked again, the first `n` puts fail and change nothing, and no others do. -/
theorem refines_finite_map (m : Memory) (calls : List Call) :
    Prod.map id contents (callAll call m calls) = callAll FiniteMap.call m.contents calls ∧
      ∀ n, (∀ k, Call.failPuts k ∉ calls) → ∀ key value,
        let s := (callAll call (m.failPuts n) calls).2
        (calls.countP Call.isPut < n → ∃ s', s.execute (.put key value) =
          (.error (.backend s!"injected put failure for {key}"),s') ∧ s'.contents.value = s.contents.value) ∧
        (n ≤ calls.countP Call.isPut → ∃ s', s.execute (.put key value) =
          (.ok (.put (key.utf8ByteSize + value.utf8ByteSize)),s') ∧
            s'.contents.value = Function.update s.contents.value key (some value.toUTF8)) := by
  refine ⟨callAll_refines contents_call calls m,fun n unasked key value => ?_⟩
  have left := failing_after calls unasked (m.failPuts n)
  generalize (callAll call (m.failPuts n) calls).2 = s at left ⊢
  change s.failing = n - _ at left
  refine ⟨fun few => ⟨{ s with failing := s.failing - 1 },?_,rfl⟩,fun enough => ⟨s.write key value.toUTF8,?_,?_⟩⟩
  · have fails : 0 < s.failing := by omega
    simp [execute,fails]
  · have prompt : s.failing = 0 := by omega
    simp [execute,prompt]
  · rw [contents_write]
    rfl

/-- Of two puts to a store that is to fail one, the second is answered, with the bytes of its key and value. -/
theorem second_put_answered : (∀ n, Call.failPuts n ∉ [Call.execute (.put "é" "x")]) ∧
    ∃ s', (callAll call (empty.failPuts 1) [.execute (.put "é" "x")]).2.execute (.put "é/b" "ü") = (.ok (.put 6),s') ∧
      s'.contents.value "é" = none ∧ s'.contents.value "é/b" = some "ü".toUTF8 := by
  have unasked : ∀ n, Call.failPuts n ∉ [Call.execute (.put "é" "x")] := by simp
  obtain ⟨s',answers,bound⟩ :=
    ((refines_finite_map empty [.execute (.put "é" "x")]).2 1 unasked "é/b" "ü").2 (by decide)
  refine ⟨unasked,s',answers,?_,?_⟩
  · rw [bound,Function.update_of_ne (by decide)]
    exact Std.TreeMap.getElem?_emptyc
  · rw [bound,Function.update_self]

end Memory

end Keyload
