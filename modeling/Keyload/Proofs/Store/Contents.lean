import Keyload.Proofs.Store.Ordered

/-!
Which keys a store holds after an operation, and after many. Where no put is to fail, a put adds its key and takes
nothing away, and a delete of all keys that start with a text leaves exactly the others.
-/
namespace Keyload.Memory

/-- The contents after operations, one after another. -/
def executeAll (m : Memory) (ops : List Operation) : Memory := ops.foldl (fun m op => (m.execute op).2) m

/-- Whether a text is the text of a node and a slash with more after it. -/
def Below (node key : String) : Prop := ∃ more, key = node ++ "/" ++ more

theorem startsWith_iff (base key : String) : startsWith base key = true ↔ ∃ more, key = base ++ more := by
  rw [startsWith,List.isPrefixOf_iff_prefix]
  constructor
  · rintro ⟨more,same⟩
    refine ⟨String.ofList more,String.toList_injective ?_⟩
    rw [String.toList_append,String.toList_ofList,same]
  · rintro ⟨more,rfl⟩
    exact ⟨more.toList,(String.toList_append ..).symm⟩

theorem startsWith_below {node key : String} (below : Below node key) : startsWith node key = true := by
  obtain ⟨more,rfl⟩ := below
  exact (startsWith_iff _ _).mpr ⟨"/" ++ more,by rw [String.append_assoc]⟩

@[simp]
theorem not_mem_empty (key : String) : key ∉ Memory.empty.data := Std.TreeMap.not_mem_emptyc

theorem mem_put {m : Memory} (prompt : m.failing = 0) (k v key : String) :
    key ∈ (m.execute (.put k v)).2.data ↔ key = k ∨ key ∈ m.data := by
  have runs : (m.execute (.put k v)).2 = m.write k v.toUTF8 := by
    simp only [execute]
    rw [if_neg (by omega)]
  rw [runs]
  show key ∈ m.data.insert k _ ↔ _
  rw [Std.TreeMap.mem_insert,Std.LawfulEqCmp.compare_eq_iff_eq,eq_comm]

theorem failing_put {m : Memory} (prompt : m.failing = 0) (k v : String) :
    (m.execute (.put k v)).2.failing = 0 := by
  simp only [execute]
  rw [if_neg (by omega)]
  exact prompt

theorem mem_answered {m m' : Memory} {k v : String} {a : Answer} (executed : m.execute (.put k v) = (.ok a,m'))
    (key : String) : key ∈ m'.data ↔ key = k ∨ key ∈ m.data := by
  have prompt : m.failing = 0 := by
    refine Nat.eq_zero_of_not_pos fun fails => ?_
    simp only [execute,if_pos fails] at executed
    cases executed
  have after : m' = (m.execute (.put k v)).2 := (congrArg Prod.snd executed).symm
  rw [after]
  exact mem_put prompt k v key

/-- A put that is answered leaves its key and all others in the store. -/
theorem put_answered {m m' : Memory} {k v : String} {a : Answer} (executed : m.execute (.put k v) = (.ok a,m')) :
    k ∈ m'.data ∧ ∀ key ∈ m.data, key ∈ m'.data :=
  ⟨(mem_answered executed k).mpr (.inl rfl),fun key member => (mem_answered executed key).mpr (.inr member)⟩

theorem size_of_keys {m : Memory} {keys : List String} (distinct : keys.Nodup)
    (same : ∀ key, key ∈ m.keys ↔ key ∈ keys) : m.size = keys.length := by
  have perm : m.keys.Perm keys := (List.perm_ext_iff_of_nodup Std.TreeMap.nodup_keys distinct).mpr same
  rw [← perm.length_eq]
  exact Std.TreeMap.length_keys.symm

theorem failing_removed (keys : List String) (m : Memory) : (keys.foldl remove m).failing = m.failing := by
  induction keys generalizing m with
  | nil => rfl
  | cons k keys ih => exact ih (m.remove k)

theorem failing_delete (m : Memory) (key : String) (below : Bool) :
    (m.execute (.delete key below)).2.failing = m.failing :=
  failing_removed (m.doomed key below) m

private theorem mem_removed (keys : List String) (m : Memory) (key : String) :
    key ∈ (keys.foldl remove m).data ↔ key ∈ m.data ∧ key ∉ keys := by
  induction keys generalizing m with
  | nil => simp
  | cons k keys ih =>
    rw [List.foldl_cons,ih (m.remove k)]
    have gone : key ∈ (m.remove k).data ↔ k ≠ key ∧ key ∈ m.data := by
      show key ∈ m.data.erase k ↔ _
      rw [Std.TreeMap.mem_erase,ne_eq,ne_eq,Std.LawfulEqCmp.compare_eq_iff_eq]
    rw [gone,List.mem_cons,not_or]
    grind

theorem mem_doomed (m : Memory) (base key : String) :
    key ∈ m.doomed base true ↔ key ∈ m.data ∧ startsWith base key = true := by
  simp only [doomed,below_eq,if_true,List.mem_map,List.mem_filter]
  constructor
  · rintro ⟨⟨k,v⟩,⟨member,starts⟩,rfl⟩
    have found := Std.TreeMap.mem_toList_iff_getElem?_eq_some.mp member
    exact ⟨Std.TreeMap.mem_iff_isSome_getElem?.mpr (by rw [found]; rfl),starts⟩
  · rintro ⟨member,starts⟩
    obtain ⟨v,found⟩ := Option.isSome_iff_exists.mp (Std.TreeMap.mem_iff_isSome_getElem?.mp member)
    exact ⟨(key,v),⟨Std.TreeMap.mem_toList_iff_getElem?_eq_some.mpr found,starts⟩,rfl⟩

theorem mem_delete (m : Memory) (base key : String) :
    key ∈ (m.execute (.delete base true)).2.data ↔ key ∈ m.data ∧ startsWith base key = false := by
  show key ∈ ((m.doomed base true).foldl remove m).data ↔ _
  rw [mem_removed,mem_doomed]
  cases startsWith base key <;> simp

theorem mem_puts {m : Memory} (prompt : m.failing = 0) (puts : List (String × String)) (key : String) :
    (m.executeAll (puts.map fun p => .put p.1 p.2)).failing = 0 ∧
      (key ∈ (m.executeAll (puts.map fun p => .put p.1 p.2)).data ↔ key ∈ puts.map Prod.fst ∨ key ∈ m.data) := by
  induction puts generalizing m with
  | nil => simp [executeAll,prompt]
  | cons p puts ih =>
    obtain ⟨still,later⟩ := ih (failing_put prompt p.1 p.2)
    refine ⟨still,later.trans ?_⟩
    rw [mem_put prompt,List.map_cons,List.mem_cons]
    grind

/-! ### What operations leave of one key -/

/-- Whether an operation puts or removes a key. -/
def touches (key : String) : Operation → Bool
  | .put k _ => k == key
  | .get .. => false
  | .delete base below => if below then startsWith base key else base == key

/-- The last operation that puts or removes a key. -/
def lastOn (key : String) (ops : List Operation) : Option Operation := (ops.filter (touches key)).getLast?

/-- A store holds these keys and no other. -/
def HasKeys (m : Memory) (keys : List String) : Prop := ∀ key, key ∈ m.data ↔ key ∈ keys

theorem executeAll_append (m : Memory) (ops more : List Operation) :
    m.executeAll (ops ++ more) = (m.executeAll ops).executeAll more := List.foldl_append

theorem mem_delete_key (m : Memory) (k key : String) :
    key ∈ (m.execute (.delete k false)).2.data ↔ key ∈ m.data ∧ k ≠ key := by
  show key ∈ ((m.doomed k false).foldl remove m).data ↔ _
  rw [mem_removed]
  refine and_congr_right fun member => not_congr ?_
  by_cases there : m.data.contains k = true
  · simp [doomed,there,eq_comm]
  · have other : k ≠ key := by
      rintro rfl
      exact there (Std.TreeMap.mem_iff_contains.mp member)
    simp [doomed,there,other]

theorem failing_execute {m : Memory} (prompt : m.failing = 0) (op : Operation) : (m.execute op).2.failing = 0 := by
  cases op with
  | put k v => exact failing_put prompt k v
  | get k below serializable keysOnly => exact prompt
  | delete k below => exact (failing_delete m k below).trans prompt

/-- An operation on a key leaves it in the store if it is a put, and every other operation leaves it as it is. -/
theorem mem_execute {m : Memory} (prompt : m.failing = 0) (op : Operation) (key : String) :
    key ∈ (m.execute op).2.data ↔ if touches key op then op.kind = .put else key ∈ m.data := by
  cases op with
  | put k v =>
    rw [mem_put prompt]
    by_cases same : k = key
    · simp [touches,same,Operation.kind]
    · simp [touches,same,Ne.symm same]
  | get k below serializable keysOnly => rfl
  | delete k below =>
    cases below with
    | true =>
      rw [mem_delete]
      cases starts : startsWith k key <;> simp [touches,starts,Operation.kind]
    | false =>
      rw [mem_delete_key]
      by_cases same : k = key
      · simp [touches,same,Operation.kind]
      · simp [touches,same]

/-- Only a put brings a key into the store. -/
theorem mem_of_execute {m : Memory} {op : Operation} {key : String} (member : key ∈ (m.execute op).2.data) :
    key ∈ m.data ∨ ∃ value, op = .put key value := by
  cases op with
  | put k v =>
    by_cases fails : 0 < m.failing
    · simp only [execute,if_pos fails] at member
      exact .inl member
    · rcases (mem_put (by omega) k v key).mp member with rfl | before
      · exact .inr ⟨v,rfl⟩
      · exact .inl before
  | get k below serializable keysOnly => exact .inl member
  | delete k below =>
    cases below with
    | true => exact .inl ((mem_delete m k key).mp member).1
    | false => exact .inl ((mem_delete_key m k key).mp member).1

/-- After many operations it is the last one on a key that counts. -/
theorem mem_executeAll {m : Memory} (prompt : m.failing = 0) (ops : List Operation) (key : String) :
    key ∈ (m.executeAll ops).data ↔ (lastOn key ops).elim (key ∈ m.data) fun op => op.kind = .put := by
  induction ops generalizing m with
  | nil => rfl
  | cons op ops ih =>
    refine (ih (failing_execute prompt op)).trans ?_
    rw [lastOn,lastOn,List.filter_cons]
    by_cases on : touches key op = true
    · rw [if_pos on,List.getLast?_cons]
      cases (ops.filter (touches key)).getLast? with
      | none => simp [mem_execute prompt,on]
      | some last => rfl
    · rw [if_neg on]
      cases (ops.filter (touches key)).getLast? with
      | none => simp [mem_execute prompt,on]
      | some last => rfl

private theorem key_of_touches {op : Operation} {key : String} (on : touches key op = true) (puts : op.kind = .put) :
    op.key = key := by
  cases op with
  | put k v => exact beq_iff_eq.mp on
  | get k below serializable keysOnly => cases on
  | delete k below => cases puts

/-- Operations that put no key of their own keep the keys of a store if and only if the last one on every key of the
store is a put. -/
theorem hasKeys_executeAll {m : Memory} (prompt : m.failing = 0) {keys : List String} (full : m.HasKeys keys)
    {ops : List Operation} (own : ∀ op ∈ ops, op.kind = .put → op.key ∈ keys) :
    (m.executeAll ops).HasKeys keys ↔ ∀ key ∈ keys, ∀ op ∈ lastOn key ops, op.kind = .put := by
  constructor
  · intro kept key member op last
    have there := (mem_executeAll prompt ops key).mp ((kept key).mpr member)
    rw [Option.mem_def.mp last] at there
    exact there
  · intro lasts key
    rw [mem_executeAll prompt]
    cases last : lastOn key ops with
    | none => exact full key
    | some op =>
      refine ⟨fun puts => ?_,fun member => lasts key member op last⟩
      obtain ⟨member,on⟩ := List.mem_filter.mp (List.mem_of_getLast? last)
      exact key_of_touches on puts ▸ own op member puts

end Keyload.Memory
