import Keyload.KeySpace.Basic
import Keyload.Pattern.Compiler
import Keyload.Settings.Basic

/-!
# Engines

An engine is what one run shares and never changes: the settings and the key space compiled from them.
Everything random comes from numbered streams of one seed. Stream zero draws the names of rules and the
seed of the key space; the parts of a run take the streams after it, one each.
-/
namespace Keyload

/-- The settings of a run and what is compiled from them. -/
structure Engine where
  settings : Settings
  seed : UInt64
  keySpace : KeySpace
  deriving Repr

namespace Engine

/-- The value lengths that settings ask for. -/
def valueSpec (s : Settings) : Except DefinitionError (Option Pattern.ValueSpec) :=
  match s.workload.valueSpec with
  | some text => (Pattern.ValueSpec.read text).map some
  | none => .ok none

/-- The compiled patterns and the seed of the prefix lists, drawn from one source. -/
def compile {σ : Type} [RandomSource σ] (s : Settings) (spec : Option Pattern.ValueSpec) :
    ExceptT DefinitionError (Draw σ) KeySpace := do
  let compiler ← Pattern.Compiler.new s.workload.builderRules spec
  let compiled : Draw σ (Except DefinitionError (List Pattern) × Pattern.Compiler) :=
    (Pattern.Compiler.compileAll s.workload.patterns).run compiler
  match (← compiled).1 with
  | .error e => throw e
  | .ok patterns =>
    let seed ← (Draw.word : Draw σ Nat)
    match KeySpace.new patterns (UInt64.ofNat seed) with
    | .ok ks => pure ks
    | .error e => throw e

/-- The engine of settings, with the seed to use. -/
def new (settings : Settings) (seed : UInt64) : Outcome DefinitionError Engine := do
  match valueSpec settings with
  | .error e => throw e
  | .ok spec =>
    let keySpace ← ExceptT.mk <|
      ((compile settings spec).run (Xoshiro.ofStream seed 0)).map Prod.fst
    pure ⟨settings, seed, keySpace⟩

/-- A random stream; the parts of a run take them from one on. -/
def stream (e : Engine) (i : Nat) : Xoshiro := Xoshiro.ofStream e.seed i

/-- The keys that the run addresses: the whole key space, or the total where that is smaller. -/
def addressed (e : Engine) : Nat :=
  let total := e.settings.initialTotal
  if 0 < total ∧ total < e.keySpace.size then total else e.keySpace.size

end Engine

end Keyload
