import Keyload.Proofs.Pattern.Written

/-!
The grammar of pattern lines, apart from how they are compiled: which paths and lines are accepted, and what is wrong
with the others. A line is judged by its leftmost segment that is out of order, so it has one error at most, and none
if it is accepted.
-/
namespace Keyload.Pattern

/-! ### Rules -/

/-- On what terms patterns may refer to a builder rule. -/
structure Terms where
  /-- The instances of a reference that asks for no number. -/
  count : Nat
  /-- The bound of every count, zero when there is none. -/
  max : Nat
  /-- How many values there are, if they are fixed. -/
  listed : Option Nat

/-- A count within the bound, and within the fixed values. -/
def Terms.Allows (t : Terms) (n : Nat) : Prop := (t.max = 0 ∨ n ≤ t.max) ∧ ∀ m, t.listed = some m → n ≤ m

/-- The terms that a definition declares. -/
def BuilderDefinition.terms (d : BuilderDefinition) : Terms :=
  ⟨d.count,d.max,if d.values = [] then none else some d.values.length⟩

/-- What was declared for a name, in whatever case; the last declaration counts. -/
def declared? (rules : List (String × BuilderDefinition)) (name : String) : Option BuilderDefinition :=
  (rules.reverse.find? fun rule => Text.lower rule.1 == Text.lower name).map Prod.snd

/-- The terms of the declared rules, by name. -/
def declaredTerms (rules : List (String × BuilderDefinition)) (name : String) : Option Terms :=
  (declared? rules name).map BuilderDefinition.terms

/-! ### Expressions -/

/-- A text that texts can be drawn from. -/
def Valid (text : String) : Prop := ∃ r, (Regex.compile text).run = .ok (.ok r)

/-- A text that is refused as an expression. -/
def Invalid (text : String) : Prop := ∃ e, (Regex.compile text).run = .ok (.error e)

theorem valid_not_invalid {text : String} (valid : Valid text) : ¬Invalid text := by
  rintro ⟨e,refused⟩
  obtain ⟨r,accepted⟩ := valid
  rw [accepted] at refused
  cases refused

theorem compile_error {text : String} {e : DefinitionError} (refused : (Regex.compile text).run = .ok (.error e)) :
    e = .invalidRegex text := by
  unfold Regex.compile at refused
  split at refused
  · cases refused
    rfl
  · rename_i shape read
    change (((Regex.Sampler.ofShape shape).run.map (Except.mapError _)).bind _ : Except Fault _) = _ at refused
    cases built : (Regex.Sampler.ofShape shape).run with
    | error f =>
      rw [built] at refused
      cases refused
    | ok r =>
      rw [built] at refused
      cases r with
      | error e =>
        cases refused
        rfl
      | ok sampler => cases refused

/-! ### Paths -/

variable (terms : String → Option Terms)

/-- The paths that may be written. -/
inductive Path : List Char → Prop
  | fixed {path : List Char} (unmarked : path.head? ≠ some ':' ∧ path.head? ≠ some '!' ∧ path.head? ≠ some '%') :
      Path path
  | drawn {text : List Char} (valid : Valid (String.ofList text)) : Path ('!' :: text)
  | rule {text name : List Char} {count : Option Nat} {t : Terms} (counted : Counted text name count)
      (known : terms (String.ofList name) = some t) (allowed : t.Allows (count.getD t.count)) : Path (':' :: text)
  | numbered {text format : List Char} {count : Option Nat} {f : Format} (counted : Counted text format count)
      (valid : (Format.read (String.ofList format)).run = .ok (.ok f)) : Path ('%' :: text)

/-- What is wrong with a path. -/
inductive PathError (pattern : String) : List Char → DefinitionError → Prop
  | count {mark : Char} {text : List Char} (marked : mark = ':' ∨ mark = '%')
      (uncounted : ∀ name count, ¬Counted text name count) :
      PathError pattern (mark :: text) (.invalidCount (String.ofList text))
  | expression {text : List Char} (invalid : Invalid (String.ofList text)) :
      PathError pattern ('!' :: text) (.invalidRegex (String.ofList text))
  | unknown {text name : List Char} {count : Option Nat} (counted : Counted text name count)
      (absent : terms (String.ofList name) = none) :
      PathError pattern (':' :: text) (.unknownRule pattern (String.ofList name))
  | format {text format : List Char} {count : Option Nat} {flaw : Format.Flaw} (counted : Counted text format count)
      (invalid : (Format.read (String.ofList format)).run = .ok (.error flaw)) :
      PathError pattern ('%' :: text) (.invalidFormat (String.ofList format) flaw.message)
  | bound {text name : List Char} {count : Option Nat} {t : Terms} (counted : Counted text name count)
      (known : terms (String.ofList name) = some t) (bounded : 0 < t.max) (many : t.max < count.getD t.count) :
      PathError pattern (':' :: text)
        (.countExceedsMax (Text.lower (String.ofList name)) (count.getD t.count) t.max)
  | values {text name : List Char} {count : Option Nat} {t : Terms} {n : Nat} (counted : Counted text name count)
      (known : terms (String.ofList name) = some t) (within : t.max = 0 ∨ count.getD t.count ≤ t.max)
      (listed : t.listed = some n) (many : n < count.getD t.count) :
      PathError pattern (':' :: text) (.countExceedsMax (Text.lower (String.ofList name)) (count.getD t.count) n)

variable {terms}

theorem path_faultless {pattern : String} {path : List Char} (accepted : Path terms path) (e : DefinitionError) :
    ¬PathError terms pattern path e := by
  intro wrong
  cases accepted with
  | fixed unmarked => cases wrong <;> simp_all
  | drawn valid =>
    cases wrong with
    | count marked _ => simp at marked
    | expression invalid => exact valid_not_invalid valid invalid
  | rule counted known allowed =>
    cases wrong with
    | count _ uncounted => exact uncounted _ _ counted
    | unknown again absent =>
      obtain ⟨rfl,-⟩ := counted_unique counted again
      rw [known] at absent
      cases absent
    | bound again known' bounded many =>
      obtain ⟨rfl,rfl⟩ := counted_unique counted again
      cases known.symm.trans known'
      rcases allowed.1 with free | within
      · omega
      · omega
    | values again known' _ listed many =>
      obtain ⟨rfl,rfl⟩ := counted_unique counted again
      cases known.symm.trans known'
      have := allowed.2 _ listed
      omega
  | numbered counted valid =>
    cases wrong with
    | count _ uncounted => exact uncounted _ _ counted
    | format again invalid =>
      obtain ⟨rfl,-⟩ := counted_unique counted again
      rw [valid] at invalid
      cases invalid

theorem pathError_unique {pattern : String} {path : List Char} {e e' : DefinitionError}
    (wrong : PathError terms pattern path e) (wrong' : PathError terms pattern path e') : e = e' := by
  cases wrong with
  | count marked uncounted =>
    cases wrong' with
    | count => rfl
    | expression => simp at marked
    | unknown counted | format counted | bound counted | values counted => exact absurd counted (uncounted _ _)
  | expression =>
    cases wrong' with
    | count marked => simp at marked
    | expression => rfl
  | unknown counted absent =>
    cases wrong' with
    | count _ uncounted => exact absurd counted (uncounted _ _)
    | unknown again =>
      obtain ⟨rfl,-⟩ := counted_unique counted again
      rfl
    | bound again known | values again known =>
      obtain ⟨rfl,-⟩ := counted_unique counted again
      rw [absent] at known
      cases known
  | format counted invalid =>
    cases wrong' with
    | count _ uncounted => exact absurd counted (uncounted _ _)
    | format again invalid' =>
      obtain ⟨rfl,-⟩ := counted_unique counted again
      cases invalid.symm.trans invalid'
      rfl
  | bound counted known bounded many =>
    cases wrong' with
    | count _ uncounted => exact absurd counted (uncounted _ _)
    | unknown again absent =>
      obtain ⟨rfl,-⟩ := counted_unique counted again
      rw [known] at absent
      cases absent
    | bound again known' =>
      obtain ⟨rfl,rfl⟩ := counted_unique counted again
      cases known.symm.trans known'
      rfl
    | values again known' within =>
      obtain ⟨rfl,rfl⟩ := counted_unique counted again
      cases known.symm.trans known'
      omega
  | values counted known within listed many =>
    cases wrong' with
    | count _ uncounted => exact absurd counted (uncounted _ _)
    | unknown again absent =>
      obtain ⟨rfl,-⟩ := counted_unique counted again
      rw [known] at absent
      cases absent
    | bound again known' bounded beyond =>
      obtain ⟨rfl,rfl⟩ := counted_unique counted again
      cases known.symm.trans known'
      omega
    | values again known' _ listed' =>
      obtain ⟨rfl,rfl⟩ := counted_unique counted again
      cases known.symm.trans known'
      cases listed.symm.trans listed'
      rfl

/-! ### Segments -/

variable (terms)

/-- A segment that may stand after some others. -/
structure InPlace (before : List (List Char)) (segment : List Char) : Prop where
  first : ∀ s ∈ before, ';' ∉ s
  value : ';' ∈ segment → Valid (valueOf segment)
  path : Path terms (pathOf segment)

/-- What is wrong with a segment that stands after some others. Its values are looked at before its path. -/
inductive Offends (pattern : String) (before : List (List Char)) (segment : List Char) : DefinitionError → Prop
  | late {s : List Char} (earlier : s ∈ before) (named : ';' ∈ s) : Offends pattern before segment (.leafNotLast pattern)
  | value (first : ∀ s ∈ before, ';' ∉ s) (named : ';' ∈ segment) (invalid : Invalid (valueOf segment)) :
      Offends pattern before segment (.invalidRegex (valueOf segment))
  | path {e : DefinitionError} (first : ∀ s ∈ before, ';' ∉ s) (value : ';' ∈ segment → Valid (valueOf segment))
      (wrong : PathError terms pattern (pathOf segment) e) : Offends pattern before segment e

variable {terms}

theorem inPlace_faultless {pattern : String} {before : List (List Char)} {segment : List Char}
    (inPlace : InPlace terms before segment) (e : DefinitionError) : ¬Offends terms pattern before segment e := by
  intro offends
  cases offends with
  | late earlier named => exact inPlace.first _ earlier named
  | value _ named invalid => exact valid_not_invalid (inPlace.value named) invalid
  | path _ _ wrong => exact path_faultless inPlace.path e wrong

theorem offends_unique {pattern : String} {before : List (List Char)} {segment : List Char} {e e' : DefinitionError}
    (offends : Offends terms pattern before segment e) (offends' : Offends terms pattern before segment e') : e = e' := by
  cases offends with
  | late earlier named =>
    cases offends' with
    | late => rfl
    | value first | path first => exact absurd named (first _ earlier)
  | value first named invalid =>
    cases offends' with
    | late earlier named' => exact absurd named' (first _ earlier)
    | value => rfl
    | path _ value => exact absurd invalid (valid_not_invalid (value named))
  | path first value wrong =>
    cases offends' with
    | late earlier named => exact absurd named (first _ earlier)
    | value _ named invalid => exact absurd invalid (valid_not_invalid (value named))
    | path _ _ wrong' => exact pathError_unique wrong wrong'

/-! ### Lines -/

variable (terms)

/-- Every segment may stand where it stands, after some others. -/
def InOrder (earlier segments : List (List Char)) : Prop :=
  ∀ before segment after, segments = before ++ segment :: after → InPlace terms (earlier ++ before) segment

/-- Nothing is wrong with any of the segments. -/
def Faultless (pattern : String) (segments : List (List Char)) : Prop :=
  ∀ before segment after e, segments = before ++ segment :: after → ¬Offends terms pattern before segment e

/-- The lines of the grammar: the last segment names values, no other does, and all are in order. -/
structure Accepted (source : String) : Prop where
  some_segment : parts source ≠ []
  last : ∀ before segment after, parts source = before ++ segment :: after → (';' ∈ segment ↔ after = [])
  values : ∀ segment ∈ parts source, ';' ∈ segment → Valid (valueOf segment)
  paths : ∀ segment ∈ parts source, Path terms (pathOf segment)

/-- What is wrong with a line: the fault of its leftmost segment that has one, or else of the whole line. -/
inductive Rejected (source : String) : DefinitionError → Prop
  | empty (none_there : parts source = []) : Rejected source (.emptyPattern source)
  | segment {before : List (List Char)} {segment : List Char} {after : List (List Char)} {e : DefinitionError}
      (whole : parts source = before ++ segment :: after) (leftmost : Faultless terms source before)
      (offends : Offends terms source before segment e) : Rejected source e
  | valueless {before : List (List Char)} {segment : List Char} (whole : parts source = before ++ [segment])
      (faultless : Faultless terms source (parts source)) (unnamed : ';' ∉ segment) :
      Rejected source (.missingValue source)

variable {terms}

theorem inOrder_nil (earlier : List (List Char)) : InOrder terms earlier [] := by
  intro before segment after whole
  simp at whole

theorem inOrder_cons {earlier : List (List Char)} {segment : List Char} {rest : List (List Char)}
    (inPlace : InPlace terms earlier segment) (later : InOrder terms (earlier ++ [segment]) rest) :
    InOrder terms earlier (segment :: rest) := by
  intro before s after whole
  cases before with
  | nil =>
    cases whole
    simpa using inPlace
  | cons s' before =>
    cases whole
    simpa using later before s after rfl

theorem InOrder.faultless {segments : List (List Char)} (inOrder : InOrder terms [] segments) (pattern : String) :
    Faultless terms pattern segments :=
  fun before segment after e whole => inPlace_faultless (inOrder before segment after whole) e

theorem Accepted.inOrder {source : String} (accepted : Accepted terms source) : InOrder terms [] (parts source) := by
  intro before segment after whole
  have member : segment ∈ parts source := by rw [whole]; simp
  rw [List.nil_append]
  refine ⟨fun s earlier named => ?_,accepted.values segment member,accepted.paths segment member⟩
  obtain ⟨left,right,split⟩ := List.append_of_mem earlier
  have none_later := (accepted.last left s (right ++ segment :: after) (by rw [whole,split]; simp)).mp named
  simp at none_later

/-- Segments in order make a line, if the last one names values. -/
theorem InOrder.accepted {source : String} (inOrder : InOrder terms [] (parts source)) {earlier : List (List Char)}
    {final : List Char} (whole : parts source = earlier ++ [final]) (named : ';' ∈ final) : Accepted terms source := by
  refine ⟨by simp [whole],fun before segment after split => ⟨fun is => ?_,?_⟩,fun segment member => ?_,
    fun segment member => ?_⟩
  · cases after with
    | nil => rfl
    | cons s after =>
      have next := inOrder (before ++ [segment]) s after (by rw [split]; simp)
      exact absurd is (next.first segment (by simp))
  · rintro rfl
    obtain ⟨-,same⟩ := List.append_inj' (split.symm.trans whole) rfl
    cases same
    exact named
  all_goals obtain ⟨before,after,split⟩ := List.append_of_mem member
  · exact (inOrder before segment after split).value
  · exact (inOrder before segment after split).path

theorem accepted_not_rejected {source : String} (accepted : Accepted terms source) (e : DefinitionError) :
    ¬Rejected terms source e := by
  intro rejected
  cases rejected with
  | empty none_there => exact accepted.some_segment none_there
  | segment whole _ offends => exact accepted.inOrder.faultless source _ _ _ e whole offends
  | valueless whole _ unnamed => exact unnamed ((accepted.last _ _ [] whole).mpr rfl)

/-- Of two segments with nothing wrong before them, neither comes before the other. -/
private theorem leftmost_same {pattern : String} {before before' after after' : List (List Char)}
    {segment segment' : List Char} (same : before ++ segment :: after = before' ++ segment' :: after')
    (leftmost : Faultless terms pattern before) (leftmost' : Faultless terms pattern before') {e e' : DefinitionError}
    (offends : Offends terms pattern before segment e) (offends' : Offends terms pattern before' segment' e') :
    before = before' ∧ segment = segment' := by
  rcases List.append_eq_append_iff.mp same with ⟨more,later,tail⟩ | ⟨more,later,tail⟩
  · cases more with
    | nil =>
      cases tail
      exact ⟨by simpa using later.symm,rfl⟩
    | cons s more =>
      cases tail
      exact absurd offends (leftmost' _ _ _ _ later)
  · cases more with
    | nil =>
      cases tail
      exact ⟨by simpa using later,rfl⟩
    | cons s more =>
      cases tail
      exact absurd offends' (leftmost _ _ _ _ later)

theorem rejected_unique {source : String} {e e' : DefinitionError} (rejected : Rejected terms source e)
    (rejected' : Rejected terms source e') : e = e' := by
  cases rejected with
  | empty none_there =>
    cases rejected' with
    | empty => rfl
    | segment whole | valueless whole => simp [none_there] at whole
  | segment whole leftmost offends =>
    cases rejected' with
    | empty none_there => simp [none_there] at whole
    | segment whole' leftmost' offends' =>
      obtain ⟨rfl,rfl⟩ := leftmost_same (whole.symm.trans whole') leftmost leftmost' offends offends'
      exact offends_unique offends offends'
    | valueless _ faultless => exact absurd offends (faultless _ _ _ _ whole)
  | valueless whole faultless =>
    cases rejected' with
    | empty none_there => simp [none_there] at whole
    | segment whole' _ offends => exact absurd offends (faultless _ _ _ _ whole')
    | valueless => rfl

end Keyload.Pattern
