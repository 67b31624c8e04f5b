import Keyload.Proofs.KeySpace.Populated
import Keyload.Proofs.Pattern.Numbering
import Keyload.Proofs.Pattern.Recompiled

/-!
Keys as addresses. The text of an entry joins one name of each level down to its own, and no name holds a slash if those
that rules and expressions yield do not; so cutting a key at its slashes gives the names back. None of them is empty but
the name of a last level that the line does not name: one that begins with the mark of its values (`keys_address`).
-/
namespace Keyload

namespace Pattern

/-- A name that an instance of the level can have. -/
def Level.Instance (l : Level) (name : String) : Prop := ∃ i < l.count, l.Drawn i name

/-- A name that stands for itself between slashes. -/
def Proper (name : String) : Prop := name ≠ "" ∧ '/' ∉ name.toList

/-- The names of rules and those drawn from expressions are proper. Nothing is asked of names that the line itself
writes. -/
def ProperlyNamed (p : Pattern) : Prop :=
  ∀ l ∈ p.levels, (l.isRandom = true ∨ ∃ rule, l.Refers rule) → ∀ name, l.Instance name → Proper name

/-- The last segment of a line begins with the mark of its values. -/
def Nameless (line : String) : Prop := ∃ text, (parts line).getLast? = some (';' :: text)

/-! ### Names that are written in a line -/

namespace Format

theorem unescaped_subset (cs : List Char) : unescaped cs ⊆ cs := by
  induction cs using unescaped.induct with
  | case1 rest ih =>
    rw [unescaped]
    intro c member
    rcases List.mem_cons.mp member with rfl | member
    · exact List.mem_cons_self
    · exact .tail _ (.tail _ (ih member))
  | case2 c rest no_pair ih =>
    rw [unescaped]
    · exact List.cons_subset_cons c ih
    · exact no_pair
  | case3 => exact List.Subset.refl []

theorem Padded.mem {flags numeral field : List Char} {width : ℕ} (padded : Padded flags width numeral field) {c : Char}
    (member : c ∈ field) : c = ' ' ∨ c = '0' ∨ c ∈ numeral := by
  cases padded with
  | left | zeros | right =>
    rcases List.mem_append.mp member with there | there
    all_goals first | exact .inr (.inr there) | simp [List.eq_of_mem_replicate there]

theorem Padded.ne_nil {flags numeral field : List Char} {width : ℕ} (padded : Padded flags width numeral field)
    (some_digit : numeral ≠ []) : field ≠ [] := by
  cases padded <;> simp [some_digit]

/-- A format prints proper names, unless a slash is written in it. -/
theorem render_proper {source : String} {f : Format} (accepted : (read source).run = .ok (.ok f))
    (no_slash : '/' ∉ source.toList) {n : ℕ} {name : String} (rendered : f.render n = .ok name) : Proper name := by
  obtain ⟨p,k,-,-,written,asked,-,rfl⟩ := read_iff.mp accepted
  obtain ⟨alphabet,listed,spells⟩ := letters_write asked
  have padded := verbOf_pads p.flags p.width k n
  rw [p.format_render] at rendered
  split at rendered
  · cases rendered
    rw [written,Spelling.written] at no_slash
    simp only [List.mem_append,List.mem_cons,not_or] at no_slash
    constructor
    · intro empty
      have nothing := congrArg String.toList empty
      simp [padded.ne_nil (spells n).some_digit] at nothing
    · rw [String.toList_ofList]
      intro member
      rcases List.mem_append.mp member with member | member
      · rcases List.mem_append.mp member with member | member
        · exact no_slash.1 (unescaped_subset _ member)
        · rcases padded.mem member with is | is | member
          · cases is
          · cases is
          · have digits : ∀ x ∈ letters, '/' ∉ x.2 := by decide
            exact digits _ listed ((spells n).digits _ member)
      · exact no_slash.2.2.2.2.2 (unescaped_subset _ member)
  · cases rendered

end Format

theorem parts_cut {line : String} {segment : List Char} (member : segment ∈ parts line) :
    segment ≠ [] ∧ '/' ∉ segment := by
  have cut (cs : List Char) : ∀ s ∈ cs.splitOn '/', '/' ∉ s := by
    induction cs with
    | nil => simp
    | cons c rest ih =>
      rw [List.splitOn,List.splitOnP_cons_eq_if_modifyHead]
      split
      · exact List.forall_mem_cons.mpr ⟨List.not_mem_nil,ih⟩
      · rename_i other
        rw [List.splitOn] at ih
        cases later : rest.splitOnP (· == '/') with
        | nil => exact absurd later (List.splitOnP_ne_nil _ rest)
        | cons s more =>
          rw [later,List.forall_mem_cons] at ih
          refine List.forall_mem_cons.mpr ⟨?_,ih.2⟩
          intro slash
          rcases List.mem_cons.mp slash with is | later
          · exact other (by simp [← is])
          · exact ih.1 later
  obtain ⟨member,some_char⟩ := List.mem_filter.mp member
  exact ⟨by simpa using some_char,cut _ _ member⟩

theorem pathOf_eq_nil {segment : List Char} (some_char : segment ≠ []) :
    pathOf segment = [] ↔ ∃ text, segment = ';' :: text := by
  cases segment with
  | nil => exact absurd rfl some_char
  | cons c rest =>
    by_cases mark : c = ';'
    · simp [pathOf,mark]
    · simp [pathOf,mark]

theorem pathOf_no_slash {segment : List Char} (no_slash : '/' ∉ segment) : '/' ∉ pathOf segment :=
  fun slash => no_slash ((List.takeWhile_prefix _).subset slash)

theorem Counted.within {text name : List Char} {count : Option ℕ} (counted : Counted text name count) :
    name <+: text := by
  cases counted with
  | alone => exact List.prefix_rfl
  | bracketed => exact ⟨_,(List.append_assoc ..).symm⟩

theorem Level.Instance.drawn {l : Level} {name : String} (inst : l.Instance name) :
    ∃ (i : ℕ) (σ : Type) (_ : RandomSource σ) (g g' : σ), i < l.count ∧ l.instanceName i g = .ok (name,g') := by
  obtain ⟨i,inside,σ,source,g,g',run⟩ := inst
  exact ⟨i,σ,source,g,g',inside,run⟩

/-- A name comes from a rule or an expression, or it is written without slashes and empty only where its path is. -/
theorem Reads.instance_written {c : Compiler} {path : List Char} {l : Level} (reads : Reads c path l)
    (no_slash : '/' ∉ path) {name : String} (inst : l.Instance name) :
    (path ≠ [] ∧ (l.isRandom = true ∨ ∃ rule, l.Refers rule)) ∨ '/' ∉ name.toList ∧ (name = "" ↔ path = []) := by
  cases reads with
  | fixed unmarked =>
    obtain ⟨i,σ,_,g,g',inside,run⟩ := inst.drawn
    obtain rfl : i = 0 := Nat.lt_one_iff.mp inside
    have is : String.ofList path = name := (Draw.pure_ok run).1
    rw [← is,← String.toList_inj,String.toList_ofList]
    exact .inr ⟨no_slash,Iff.rfl⟩
  | drawn valid => exact .inl ⟨List.cons_ne_nil _ _,.inl rfl⟩
  | rule counted known allowed enough =>
    exact .inl ⟨List.cons_ne_nil _ _,.inr ⟨_,_,_,_,String.toList_ofList,counted,rfl⟩⟩
  | @numbered text format count f counted valid =>
    obtain ⟨i,-,drawn⟩ := inst
    have is_proper := Format.render_proper valid (fun slash => no_slash ?_) ((Level.drawn_fixed rfl).mp drawn)
    · exact .inr ⟨is_proper.2,iff_of_false is_proper.1 (List.cons_ne_nil _ _)⟩
    · rw [String.toList_ofList] at slash
      exact .tail _ (counted.within.subset slash)

/-- The names of a level are written without slashes, and none of them is empty unless its path is. -/
theorem Reads.instance_proper {c : Compiler} {path : List Char} {l : Level} (reads : Reads c path l)
    (no_slash : '/' ∉ path)
    (proper : (l.isRandom = true ∨ ∃ rule, l.Refers rule) → ∀ name, l.Instance name → Proper name) {name : String}
    (inst : l.Instance name) : '/' ∉ name.toList ∧ (name = "" ↔ path = []) := by
  rcases reads.instance_written no_slash inst with ⟨some_path,special⟩ | written
  · have is_proper := proper special name inst
    exact ⟨is_proper.2,iff_of_false is_proper.1 some_path⟩
  · exact written

/-- No slashes are in the names of a level, if they are in none that rules and expressions yield. -/
theorem Reads.unslashed {c : Compiler} {path : List Char} {l : Level} (reads : Reads c path l) (no_slash : '/' ∉ path)
    (unslashed : (l.isRandom = true ∨ ∃ rule, l.Refers rule) → l.Unslashed) : l.Unslashed := by
  intro i inside name drawn
  rcases reads.instance_written no_slash ⟨i,inside,drawn⟩ with ⟨-,special⟩ | ⟨written,-⟩
  · exact unslashed special i inside name drawn
  · exact written

/-- In a compiled line, the names of a level are written without slashes, and none of them is empty but that of a last
level without a name. -/
theorem instance_proper {σ : Type} [RandomSource σ] {line : String} {c c' : Compiler} {g g' : σ} {p : Pattern}
    (compiled : Compile.Yields (Compiler.compile line) c g p c' g') (proper : p.ProperlyNamed) {k : ℕ} {l : Level}
    (at_k : p.levels[k]? = some l) {name : String} (inst : l.Instance name) :
    '/' ∉ name.toList ∧ (name = "" ↔ Nameless line ∧ k + 1 = p.depth) := by
  obtain ⟨-,accepted,-,all⟩ := (Compiler.compile_ends line c g).given compiled
  obtain ⟨within,rfl⟩ := List.getElem?_eq_some_iff.mp at_k
  have inside : k < (parts line).length := all.length_eq ▸ within
  have reads := (all.get inside within).path
  obtain ⟨some_char,no_slash⟩ := parts_cut (List.getElem_mem inside)
  obtain ⟨unslashed,empty⟩ := reads.instance_proper (pathOf_no_slash no_slash)
    (proper p.levels[k] (List.getElem_mem within)) inst
  refine ⟨unslashed,empty.trans ((pathOf_eq_nil some_char).trans ⟨?_,?_⟩)⟩
  · rintro ⟨text,marked⟩
    have split : parts line = (parts line).take k ++ (parts line)[k] :: (parts line).drop (k + 1) := by
      rw [← List.drop_eq_getElem_cons inside,List.take_append_drop]
    have none_after := (accepted.last _ _ _ split).mp (by rw [marked]; exact List.mem_cons_self)
    have last : k + 1 = (parts line).length := by
      have := List.drop_eq_nil_iff.mp none_after
      omega
    refine ⟨⟨text,?_⟩,last.trans all.length_eq⟩
    rw [List.getLast?_eq_getElem?,← last,Nat.add_sub_cancel,List.getElem?_eq_getElem inside,marked]
  · rintro ⟨⟨text,last⟩,at_end⟩
    have ends : k + 1 = (parts line).length := at_end.trans all.length_eq.symm
    rw [List.getLast?_eq_getElem?,← ends,Nat.add_sub_cancel,List.getElem?_eq_getElem inside] at last
    exact ⟨text,Option.some.inj last⟩

/-! ### Names that are seen to be proper -/

/-- Whether a name is proper. -/
def isProper (name : String) : Bool := name != "" && !name.toList.contains '/'

/-- Whether it can be seen that a level is properly named: its names are listed, or its expression has one text. -/
def Level.seenProper (l : Level) : Bool :=
  match l.segment with
  | .names names => l.source.toList.head? != some ':' || names.all isProper
  | .format _ => l.source.toList.head? != some ':'
  | .random r =>
    match r.sampler with
    | .literal count text => count == .once && isProper text
    | _ => false

theorem properlyNamed_of_seen {p : Pattern} (seen : p.levels.all Level.seenProper = true) : p.ProperlyNamed := by
  have proper_of {name : String} (is : isProper name = true) : Proper name := by
    simpa [isProper,Proper] using is
  intro l member special name inst
  have visible := List.all_eq_true.mp seen l member
  have marked (fixed : l.isRandom = false) : l.source.toList.head? = some ':' := by
    rcases special with random | ⟨rule,text,_,_,written,-⟩
    · rw [fixed] at random
      cases random
    · rw [written]
      rfl
  obtain ⟨i,σ,_,g,g',inside,run⟩ := inst.drawn
  unfold Level.seenProper at visible
  unfold Level.instanceName at run
  cases segment : l.segment with
  | random r =>
    simp only [segment] at visible run
    obtain ⟨source,sampler⟩ := r
    cases sampler with
    | literal count text =>
      simp only [Bool.and_eq_true,beq_iff_eq] at visible
      obtain ⟨rfl,is⟩ := visible
      have drawn : ("" ++ text,g) = (name,g') := Except.ok.inj run
      cases drawn
      rw [String.empty_append]
      exact proper_of is
    | chars | seq | any => cases visible
  | format f => simp [segment,marked (by simp [Level.isRandom,segment])] at visible
  | names names =>
    simp only [segment,marked (by simp [Level.isRandom,segment]),bne_self_eq_false,Bool.false_or,
      Array.all_eq_true_iff_forall_mem] at visible
    simp only [segment] at run
    cases listed : names[i]? with
    | none =>
      simp only [listed] at run
      cases run
    | some n =>
      simp only [listed] at run
      obtain ⟨rfl,-⟩ := Draw.pure_ok run
      exact proper_of (visible n (Array.mem_of_getElem? listed))

end Pattern

/-! ### Texts and names -/

namespace KeySpace
open Pattern (Level)

/-- A text joins these names, each of an instance of its level, from the first level on. -/
structure Addresses (levels : List Level) (names : List String) (text : String) : Prop where
  written : text = path "" names
  instances : List.Forall₂ Level.Instance (levels.take names.length) names

theorem addresses_root (levels : List Level) : Addresses levels [] "" := ⟨rfl,.nil⟩

theorem Addresses.child {levels : List Level} {names : List String} {text : String}
    (at_node : Addresses levels names text) {l : Level} (at_l : levels[names.length]? = some l) {name : String}
    (inst : l.Instance name) : Addresses levels (names ++ [name]) (text ++ "/" ++ name) := by
  refine ⟨?_,?_⟩
  · rw [at_node.written,path,path,List.foldl_append]
    rfl
  · rw [List.length_append,List.length_singleton,List.take_add_one,at_l]
    exact List.rel_append at_node.instances (.cons inst .nil)

theorem Addresses.length_le {levels : List Level} {names : List String} {text : String}
    (at_node : Addresses levels names text) : names.length ≤ levels.length := by
  have := at_node.instances.length_eq
  rw [List.length_take] at this
  omega

private theorem join_slashes (first : List Char) (names : List (List Char)) :
    first ++ names.flatMap ('/' :: ·) = ['/'].intercalate (first :: names) := by
  induction names generalizing first with
  | nil => simp
  | cons name names ih => simp [← ih name]

/-- Names without slashes come back when their text is cut at the slashes. -/
theorem splitOn_path {names : List String} (unslashed : ∀ name ∈ names, '/' ∉ name.toList) :
    (path "" names).toList.splitOn '/' = [] :: names.map String.toList := by
  have joined : (path "" names).toList = ['/'].intercalate ([] :: names.map String.toList) := by
    rw [path_toList,← join_slashes,List.flatMap_map]
    rfl
  rw [joined]
  refine List.splitOn_intercalate '/' (fun l member => ?_) (List.cons_ne_nil _ _)
  rcases List.mem_cons.mp member with rfl | member
  · exact List.not_mem_nil
  · obtain ⟨name,at_name,rfl⟩ := List.mem_map.mp member
    exact unslashed name at_name

end KeySpace

/-! ### Entries -/

namespace Cursor
open Pattern (Level)
open KeySpace (Addresses)

variable {σ : Type} [RandomSource σ] {levels : List Level} {stop : Option ℕ}

/-- The base of every open node joins one name of each level above the children of the node. -/
def Placed (levels : List Level) (stack : List Frame) : Prop :=
  ∀ f ∈ stack, ∃ names, names.length = f.level ∧ Addresses levels names f.base

/-- The key of an entry joins one name of each level down to that of the entry. -/
def Addressed (levels : List Level) (e : Entry) : Prop :=
  ∃ names, names.length = e.level + 1 ∧ Addresses levels names e.key

/-- One entry: its key joins names, and so do the bases of the nodes that are open after it. -/
theorem advanceStack_placed {stack after : List Frame} (placed : Placed levels stack) {entry : Option Entry} {g h : σ}
    (run : advanceStack levels stop stack g = .ok ((entry,after),h)) :
    Placed levels after ∧ ∀ e, entry = some e → Addressed levels e := by
  induction stack using advanceStack.induct levels generalizing g with
  | case1 =>
    rw [advanceStack] at run
    cases run
    exact ⟨placed,fun e is => absurd is.symm (Option.some_ne_none e)⟩
  | case2 f rest beyond ih =>
    rw [advanceStack_beyond rest beyond] at run
    exact ih (List.forall_mem_cons.mp placed).2 run
  | case3 f rest l at_f more ih =>
    rw [advanceStack_next rest at_f more] at run
    obtain ⟨⟨names,length,at_base⟩,others⟩ := List.forall_mem_cons.mp placed
    obtain ⟨name,h₁,drawn,run⟩ := Draw.bind_ok run
    have child : Addresses levels (names ++ [name]) (f.base ++ "/" ++ name) :=
      at_base.child (length ▸ at_f) ⟨f.next,more,σ,_,g,h₁,drawn⟩
    have deeper : (names ++ [name]).length = f.level + 1 := by simp [length]
    have later : Placed levels ({ f with next := f.next + 1 } :: rest) :=
      List.forall_mem_cons.mpr ⟨⟨names,length,at_base⟩,others⟩
    by_cases stops : stop = some f.level
    · rw [if_pos stops] at run
      cases run
      exact ⟨later,fun e is => Option.some.inj is ▸ ⟨_,deeper,child⟩⟩
    · rw [if_neg stops] at run
      by_cases leaf : l.isLeaf
      · rw [if_pos leaf] at run
        obtain ⟨value,h₂,-,run⟩ := Draw.bind_ok run
        cases run
        exact ⟨later,fun e is => Option.some.inj is ▸ ⟨_,deeper,child⟩⟩
      · rw [if_neg leaf] at run
        exact ih name (List.forall_mem_cons.mpr ⟨⟨_,deeper,child⟩,later⟩) run
  | case4 f rest l at_f spent ih =>
    rw [advanceStack_spent rest at_f spent] at run
    exact ih (List.forall_mem_cons.mp placed).2 run

/-- However many entries are taken, the key of each joins names. -/
theorem take_addressed {n : ℕ} {c : Cursor} (placed : Placed levels c.stack) {es es' : Array Entry} {ended : Bool}
    {g h : σ} (before : ∀ e ∈ es, Addressed levels e) (run : take levels n c es g = .ok ((es',ended),h)) :
    ∀ e ∈ es', Addressed levels e := by
  induction n generalizing c es g with
  | zero =>
    cases run
    exact before
  | succ n ih =>
    obtain ⟨⟨entry,c'⟩,h₁,advanced,run⟩ := Draw.bind_ok run
    obtain ⟨⟨entry',after⟩,h₂,stepped,made⟩ := Draw.bind_ok advanced
    cases made
    obtain ⟨still_placed,here⟩ := advanceStack_placed placed stepped
    cases entry with
    | none =>
      cases run
      exact before
    | some e =>
      refine ih still_placed (fun e' member => ?_) run
      rcases Array.mem_push.mp member with earlier | rfl
      · exact before e' earlier
      · exact here _ rfl

end Cursor

namespace KeySpace
open Pattern (Compiler Compile Level Nameless)

/-- Keys are addresses. Below any node of a compiled line whose rules and expressions yield proper names, and wherever a
cursor stops, every entry has a key that one name of each level down to its own make, after a slash each; the names are
instances of their levels and come back when the key is cut at its slashes. All of them are proper, but for the name of
the last level where the line does not name that level. -/
theorem keys_address {σ τ : Type} [RandomSource σ] [RandomSource τ] (line : String) (c c' : Compiler) (g g' : σ)
    (p : Pattern) (compiled : Compile.Yields (Compiler.compile line) c g p c' g') (proper : p.ProperlyNamed)
    (above : List String) (base : String) (at_base : Addresses p.levels above base) (stop : Option ℕ) (n : ℕ) (h h' : τ)
    (es : Array Entry) (ended : Bool)
    (run : Cursor.take p.levels n (Cursor.below base above.length stop) #[] h = .ok ((es,ended),h')) :
    ∀ e ∈ es, ∃ names, names.length = e.level + 1 ∧ Addresses p.levels names e.key ∧
      e.key.toList.splitOn '/' = [] :: names.map String.toList ∧ (∀ name ∈ names, '/' ∉ name.toList) ∧
      ((∀ name ∈ names, name ≠ "") ↔ ¬(Nameless line ∧ e.level + 1 = p.depth)) := by
  intro e member
  have placed : Cursor.Placed p.levels (Cursor.below base above.length stop).stack := by
    simpa [Cursor.Placed,Cursor.below] using ⟨above,rfl,at_base⟩
  obtain ⟨names,length,at_key⟩ := Cursor.take_addressed placed (by simp) run e member
  have at_level (k : ℕ) (inside : k < names.length) :
      '/' ∉ names[k].toList ∧ (names[k] = "" ↔ Nameless line ∧ k + 1 = p.depth) := by
    have within := Nat.lt_of_lt_of_le inside at_key.length_le
    refine Pattern.instance_proper compiled proper (List.getElem?_eq_getElem within) ?_
    have taken : k < (p.levels.take names.length).length := at_key.instances.length_eq.symm.subst inside
    have inst := at_key.instances.get taken inside
    rwa [List.get_eq_getElem,List.get_eq_getElem,List.getElem_take] at inst
  have unslashed : ∀ name ∈ names, '/' ∉ name.toList := fun name member => by
    obtain ⟨k,inside,rfl⟩ := List.getElem_of_mem member
    exact (at_level k inside).1
  have cut : e.key.toList.splitOn '/' = [] :: names.map String.toList := by
    rw [at_key.written]
    exact splitOn_path unslashed
  refine ⟨names,length,at_key,cut,unslashed,fun named nameless => ?_,fun some_name name member empty => ?_⟩
  · have last : e.level < names.length := by omega
    exact named _ (List.getElem_mem last) ((at_level e.level last).2.mpr nameless)
  · obtain ⟨k,inside,rfl⟩ := List.getElem_of_mem member
    obtain ⟨nameless,at_end⟩ := (at_level k inside).2.mp empty
    have whole : names.length ≤ p.depth := at_key.length_le
    exact some_name ⟨nameless,by omega⟩

/-- A line that is nothing but the mark of its values and an expression is accepted, though there is no name in it, and
its key is a slash. -/
theorem nameless_key : ∃ (c c' : Compiler) (g g' h h' : Xoshiro) (p : Pattern) (es : Array Entry) (ended : Bool),
    Compile.Yields (Compiler.compile ";x") c g p c' g' ∧ p.ProperlyNamed ∧
      Cursor.take p.levels 2 (Cursor.start none) #[] h = .ok ((es,ended),h') ∧
      ∃ e ∈ es, e.level = 0 ∧ e.key = "/" ∧
        ¬∃ names, names.length = e.level + 1 ∧ e.key = path "" names ∧ ∀ name ∈ names, name ≠ "" := by
  have made : Compiler.makes ⟨⟨[]⟩,none⟩ ";x" (fun p => p.levels.all Level.seenProper &&
      match Cursor.take p.levels 2 (Cursor.start none) #[] (Xoshiro.ofSeed 2) with
      | .ok ((es,_),_) => es.toList == [⟨0,"/",some "x"⟩]
      | .error _ => false) = true := by decide +kernel
  obtain ⟨p,c',g',run,checked⟩ := Compiler.yields_of_makes made
  obtain ⟨seen,taken⟩ := Bool.and_eq_true_iff.mp checked
  split at taken
  · rename_i es ended h' took
    refine ⟨_,c',_,g',_,h',p,es,ended,run,Pattern.properlyNamed_of_seen seen,took,⟨0,"/",some "x"⟩,?_,rfl,rfl,?_⟩
    · rw [← Array.mem_toList_iff,beq_iff_eq.mp taken]
      exact List.mem_singleton_self _
    · rintro ⟨names,length,key,some_name⟩
      obtain ⟨name,rfl⟩ := List.length_eq_one_iff.mp length
      refine some_name name List.mem_cons_self (String.toList_inj.mp ?_)
      simpa [path_toList] using (congrArg String.toList key).symm
  · cases taken

/-- Names of a rule, of an expression, of a format and of the line itself, joined to two keys. -/
theorem mixed_address : ∃ (c c' : Compiler) (g g' h h' : Xoshiro) (p : Pattern) (es : Array Entry) (ended : Bool),
    Compile.Yields (Compiler.compile "/:r/!y/%n-%d/x;v") c g p c' g' ∧ p.ProperlyNamed ∧
      Cursor.take p.levels 3 (Cursor.start none) #[] h = .ok ((es,ended),h') ∧
      es.toList.map Entry.key = ["/a/y/n-0/x","/b/y/n-0/x"] ∧
      ∀ e ∈ es, ∃ names, names.length = 4 ∧ Addresses p.levels names e.key ∧
        e.key.toList.splitOn '/' = [] :: names.map String.toList ∧ ∀ name ∈ names, name ≠ "" := by
  have made : Compiler.makes ⟨⟨[⟨"r",2,0,none,#["a","b"]⟩]⟩,none⟩ "/:r/!y/%n-%d/x;v" (fun p =>
      p.levels.all Level.seenProper && match Cursor.take p.levels 3 (Cursor.start none) #[] (Xoshiro.ofSeed 2) with
      | .ok ((es,_),_) => es.toList.map Entry.key == ["/a/y/n-0/x","/b/y/n-0/x"] && es.all (·.level == 3)
      | .error _ => false) = true := by decide +kernel
  obtain ⟨p,c',g',run,checked⟩ := Compiler.yields_of_makes made
  obtain ⟨seen,taken⟩ := Bool.and_eq_true_iff.mp checked
  split at taken
  · rename_i es ended h' took
    obtain ⟨keys,levels⟩ := Bool.and_eq_true_iff.mp taken
    refine ⟨_,c',_,g',_,h',p,es,ended,run,Pattern.properlyNamed_of_seen seen,took,beq_iff_eq.mp keys,fun e member => ?_⟩
    obtain ⟨names,length,at_key,cut,-,named⟩ := keys_address "/:r/!y/%n-%d/x;v" _ c' _ g' p run
      (Pattern.properlyNamed_of_seen seen) [] "" (addresses_root p.levels) none 3 _ h' es ended took e member
    have level : e.level = 3 := beq_iff_eq.mp (Array.all_eq_true_iff_forall_mem.mp levels e member)
    refine ⟨names,by omega,at_key,cut,named.mpr fun nameless => ?_⟩
    obtain ⟨text,last⟩ := nameless.1
    have mark : (Pattern.parts "/:r/!y/%n-%d/x;v").getLast?.bind List.head? = some 'x' := by decide +kernel
    rw [last] at mark
    exact absurd mark (by decide : some ';' ≠ some 'x')
  · cases taken

end KeySpace

end Keyload
