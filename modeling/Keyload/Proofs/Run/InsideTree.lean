import Keyload.Proofs.Churn.Inside
import Keyload.Proofs.Run.Deeds
import Keyload.Proofs.Run.ProducerMoves

/-!
Whatever loads, churns and reads a key space of one pattern of fixed names, and however its steps and those of the
workers fall, the store comes to hold none but the keys that it held at first and the leaf keys of the pattern. Every
put that a producer has ready, can still draw or has sent is of a leaf key, and nothing else brings a key into the store.
-/
namespace Keyload
open Pattern (Level)
open Cursor (LeafLast)

/-- Work whose puts are of leaf keys. -/
inductive Work.Inside (p : Pattern) : Work → Prop where
  | load {keys : Bounded} (yields : keys.Yields p) : Inside p (.load keys)
  | activity {a : Churn.Activity} (inside : a.Inside p) : Inside p (.activity a)
  | replay (r : Watch.Replay) : Inside p (.replay r)

variable {σ : Type}

/-- A producer whose puts, now and later, are of leaf keys. -/
structure Producer.Inside (p : Pattern) (q : Producer σ) : Prop where
  work : q.work.Inside p
  ready : ∀ op, q.stage.operation? = some op → op.Inside p
  subtree : ∀ op c, q.stage = .sending op (some c) → c.Yields p ∧ ∀ a, q.work = .activity a → a.levels = p.levels

/-- A producer that has not begun. -/
def Producer.IsFresh (q : Producer σ) : Prop := q.stage = .choosing ∨ ∃ untilMs, q.stage = .delayed untilMs

/-- A run whose producers put leaf keys alone, and whose store holds these besides what it held at first. -/
structure Run.InTree (p : Pattern) (first : Memory) (r : Run σ) : Prop where
  carries : r.Carries (Producer.Inside p) (Operation.Inside p)
  keys : ∀ key, key ∈ r.site.memory.data → key ∈ first.data ∨ p.Leaf key

/-- If a run has a main task, that is one of an engine of the key space. -/
def Run.Directed (ks : KeySpace) (r : Run σ) : Prop :=
  r.course = none ∨ ∃ e g, Led e g r ∧ e.keySpace = ks

/-- A step that is not somebody else's put or write, nor an operation that a producer is given. -/
def Event.IsOwn : Event → Prop
  | .outside (.write ..) => False
  | .outside (.execute _) => False
  | .outside (.offer ..) => False
  | _ => True

section
variable {ks : KeySpace} {p : Pattern} (single : ks.patterns = [p]) (leafLast : LeafLast p.levels)
  (fixed : ∀ l ∈ p.levels, l.isRandom = false)
include single leafLast fixed

/-- Work that comes from a key space of the pattern stays inside it. -/
theorem Work.From.inside {work : Work} (from_ : work.From ks) : work.Inside p := by
  cases from_ with
  | load total =>
    refine .load ?_
    rw [KeySpace.keys,single]
    exact Bounded.yields_start leafLast total
  | value defined => exact .activity (Churn.inside_of_value single leafLast fixed defined)
  | level defined => exact .activity (Churn.inside_of_level single leafLast fixed defined)
  | read a => exact .activity (.read a)
  | replay a => exact .replay a

theorem Producer.inside_of_fresh {q : Producer σ} (from_ : q.work.From ks) (fresh : q.IsFresh) : q.Inside p := by
  refine ⟨from_.inside single leafLast fixed,fun op ready => ?_,fun op c stage => ?_⟩
  · rcases fresh with stage | ⟨untilMs,stage⟩
    · rw [stage] at ready
      cases ready
    · rw [stage] at ready
      cases ready
  · rcases fresh with fresh | ⟨untilMs,fresh⟩
    · rw [fresh] at stage
      cases stage
    · rw [fresh] at stage
      cases stage

end

/-! ### Producers -/

namespace Producer.Inside

variable {p : Pattern} {q q' : Producer σ}

theorem inStage (work : q.work.Inside p) {stage : ProducerStage} (idle : stage.operation? = none) :
    (q.inStage stage).Inside p := by
  refine ⟨work,fun op ready => ?_,fun op c same => ?_⟩
  · have ready : stage.operation? = some op := ready
    rw [idle] at ready
    cases ready
  · have same : stage = .sending op (some c) := same
    rw [same] at idle
    cases idle

theorem sending (work : q.work.Inside p) {op : Operation} (good : op.Inside p) :
    (q.inStage (.sending op none)).Inside p := by
  refine ⟨work,fun op' ready => ?_,fun op' c same => ?_⟩
  · cases ready
    exact good
  · cases same

theorem finishStep (work : q.work.Inside p) : q.finishStep.Inside p := by
  refine ⟨work,fun op ready => ?_,fun op c same => ?_⟩
  · cases ready
  · cases same

theorem drawing {α : Type} (work : q.work.Inside p) (x : Draw σ α) {next : α → Producer σ → Producer σ}
    (after : ∀ a source, x q.source = .ok (a,source) → (next a { q with source }).Inside p) :
    (q.drawing x next).Inside p := by
  unfold Producer.drawing
  cases drawn : x q.source with
  | ok r => exact after r.1 r.2 drawn
  | error f => exact inStage work rfl

theorem wake (work : q.work.Inside p) (nowMs : Nat) : (q.wake nowMs).Inside p := by
  unfold Producer.wake
  split
  · refine ⟨work,fun op ready => ?_,fun op c stage => ?_⟩
    · cases ready
    · cases stage
  · exact inStage work rfl

variable [RandomSource σ] (leafLast : LeafLast p.levels) (fixed : ∀ l ∈ p.levels, l.isRandom = false)
include leafLast fixed

theorem build (work : q.work.Inside p) {c : Cursor} (yields : c.Yields p)
    (same : ∀ a, q.work = .activity a → a.levels = p.levels) : (q.build p.levels c).Inside p := by
  refine drawing work _ fun drawn source run => ?_
  obtain ⟨op,c'⟩ := drawn
  cases op with
  | none => exact finishStep work
  | some op =>
    obtain ⟨good,further⟩ := Churn.draw_inside leafLast fixed yields run
    refine ⟨work,fun op' ready => ?_,fun op' c'' stage => ?_⟩
    · cases ready
      exact good
    · cases stage
      exact ⟨further,same⟩

theorem choose (work : q.work.Inside p) (chosen : q.choose = some q') : q'.Inside p := by
  have idle {stage : ProducerStage} (none : stage.operation? = none) : (q.inStage stage).Inside p := inStage work none
  have drawn {α : Type} := drawing (α := α) work
  unfold Producer.choose at chosen
  generalize q.work = w at work chosen
  cases work with
  | @load keys yields =>
    cases chosen
    refine drawn _ fun next source run => ?_
    obtain ⟨entry,keys'⟩ := next
    obtain ⟨leaf,further⟩ := yields.next leafLast fixed run
    cases entry with
    | none =>
      refine ⟨.load further,fun op ready => ?_,fun op c stage => ?_⟩
      · cases ready
      · cases stage
    | some e =>
      refine ⟨.load further,fun op ready => ?_,fun op c stage => ?_⟩
      · cases ready
        intro key value same
        cases same
        exact leaf e rfl
      · cases stage
  | activity within =>
    cases chosen
    exact idle rfl
  | replay a =>
    cases chosen
    exact idle rfl

theorem beginStep (work : q.work.Inside p) {held : Option Operation} (good : ∀ op, held = some op → op.Inside p) :
    (q.beginStep held).Inside p := by
  cases held with
  | some op => exact sending work (good op rfl)
  | none =>
    have idle {stage : ProducerStage} (none : stage.operation? = none) : (q.inStage stage).Inside p :=
      inStage work none
    have drawn {α : Type} := drawing (α := α) work
    have sends {op : Operation} (good : op.Inside p) : (q.inStage (.sending op none)).Inside p := sending work good
    unfold Producer.beginStep
    generalize q.work = w at work
    cases work with
    | @activity a within =>
      refine drawn _ fun next source run => ?_
      obtain ⟨step,b⟩ := next
      obtain ⟨within,step_within⟩ := within.next run
      cases step_within with
      | send good => exact sending (.activity within) good
      | build yields same =>
        have built := build (q := { q with source, work := .activity b }) leafLast fixed (.activity within) yields
          fun a work => by cases work; exact same
        rwa [← same] at built
      | nothing => exact inStage (.activity within) rfl
    | load yields => exact idle rfl
    | replay a =>
      refine sends fun key value same => ?_
      cases same

theorem proceed (inside : q.Inside p) {op : Operation} {subtree : Option Cursor}
    (stage : q.stage = .sending op subtree) : (q.proceed subtree).Inside p := by
  unfold Producer.proceed
  dsimp only
  split
  · rename_i c a work
    obtain ⟨yields,same⟩ := inside.subtree op c stage
    rw [same a work]
    exact build (q := { q with sent := q.sent + 1 }) leafLast fixed inside.work yields same
  · exact finishStep inside.work

/-- What a producer does by itself keeps it inside the pattern. -/
theorem goes {told : Bool} {nowMs : Nat} (inside : q.Inside p) (goes : q.Goes told nowMs q') : q'.Inside p := by
  cases goes with
  | ends active after =>
    subst after
    exact inStage inside.work rfl
  | wakes stage heard after =>
    subst after
    exact wake inside.work nowMs
  | chooses stage after => exact choose leafLast fixed inside.work after
  | begins stage heard after =>
    subst after
    refine beginStep (q := q.tick nowMs) leafLast fixed inside.work fun op held => inside.ready op ?_
    rw [stage,held]
    rfl

end Producer.Inside

/-! ### Runs -/

namespace Run.InTree

variable {p : Pattern} {first : Memory} {r next : Run σ}

theorem same (inTree : r.InTree p first) (producers : next.producers = r.producers)
    (dispatchers : next.dispatchers = r.dispatchers) (data : next.site.memory.data = r.site.memory.data) :
    next.InTree p first :=
  ⟨inTree.carries.same producers dispatchers,data ▸ inTree.keys⟩

/-- The operation of a worker brings no key into the store but a leaf key. -/
theorem worker {d w : Nat} (inTree : r.InTree p first) (run : r.moveWorker d w = some next) : next.InTree p first := by
  refine ⟨inTree.carries.worker run,fun key member => ?_⟩
  obtain ⟨x,v,at_d,at_w,move⟩ := moveWorker_move run
  rcases move.memory with same | ⟨op,runs,executed⟩
  · rw [same] at member
    exact inTree.keys key member
  · rw [executed] at member
    rcases Memory.mem_of_execute member with before | ⟨value,rfl⟩
    · exact inTree.keys key before
    · refine .inr (inTree.carries.dispatchers x (List.mem_of_getElem? at_d) _ (List.mem_append_right _ ?_) key value rfl)
      exact List.mem_filterMap.mpr ⟨v,List.mem_of_getElem? at_w,operation_of_running runs⟩

variable {ks : KeySpace} (single : ks.patterns = [p]) (leafLast : LeafLast p.levels)
  (fixed : ∀ l ∈ p.levels, l.isRandom = false)

section
include single leafLast fixed

/-- What the main task does brings in nothing but work of the key space, which has not begun. -/
theorem deed (inTree : r.InTree p first) (deed : Deed ks r next) : next.InTree p first := by
  cases deed with
  | course c => exact inTree.same rfl rfl rfl
  | @site site memory begun => exact inTree.same rfl rfl (congrArg Memory.data memory)
  | recorder recorder => exact inTree.same rfl rfl rfl
  | stopAll => exact inTree.same rfl rfl rfl
  | watch more => exact inTree.same rfl rfl rfl
  | @employ name options clients inside =>
    refine ⟨⟨inTree.carries.producers,fun x member => ?_⟩,inTree.keys⟩
    rcases List.mem_append.mp member with old | new
    · exact inTree.carries.dispatchers x old
    · rw [List.mem_singleton.mp new]
      intro op held
      have nothing : (Dispatcher.start name options clients).inHand = [] := start_idle _ _ _ rfl
      rw [nothing] at held
      cases held
  | subscribe => exact inTree.same rfl rfl rfl
  | @assign q assigned =>
    refine ⟨⟨fun q' member => ?_,inTree.carries.dispatchers⟩,inTree.keys⟩
    rcases List.mem_append.mp member with old | new
    · exact inTree.carries.producers q' old
    · rw [List.mem_singleton.mp new]
      exact Producer.inside_of_fresh single leafLast fixed assigned.work assigned.fresh
  | report secs => exact inTree.same rfl rfl rfl

theorem deeds (inTree : r.InTree p first) (deeds : Deeds ks r next) : next.InTree p first := by
  induction deeds with
  | refl => exact inTree
  | tail _ deed ih => exact ih.deed single leafLast fixed deed

end

variable [RandomSource σ]

section
include leafLast fixed

/-- A producer goes on, and what it sends is of a leaf key where it is a put. -/
theorem producer {i : Nat} (inTree : r.InTree p first) (run : r.moveProducer i = some next) : next.InTree p first := by
  obtain ⟨q,x,at_i,-,move⟩ := moveProducer_move run
  have inside := inTree.carries.producers q (List.mem_of_getElem? at_i)
  cases move with
  | @goes q' goes after =>
    subst after
    refine ⟨inTree.carries.placeProducer i (inside.goes leafLast fixed goes),?_⟩
    rw [placeProducer_site]
    exact inTree.keys
  | @sends op subtree stage told after =>
    subst after
    have accepted := inTree.carries.accept q.dispatcher i (inside.ready op (by rw [stage]; rfl))
    refine ⟨accepted.placeProducer i (inside.proceed leafLast fixed stage),?_⟩
    rw [placeProducer_site]
    exact inTree.keys
  | enlists told after =>
    subst after
    exact ⟨inTree.carries.onDispatcher q.dispatcher fun _ keeps => keeps,inTree.keys⟩

theorem intervene {i : Intervention} (inTree : r.InTree p first) (own : (Event.outside i).IsOwn) :
    (r.intervene i).InTree p first := by
  have on_producer (j : Nat) {f : Producer σ → Producer σ} (keeps : ∀ q, q.Inside p → (f q).Inside p) :
      (r.onProducer j f).InTree p first := by
    refine onProducer_elim (fun s => s.InTree p first) inTree fun q at_j => ?_
    refine ⟨inTree.carries.placeProducer j (keeps q (inTree.carries.producers q (List.mem_of_getElem? at_j))),?_⟩
    rw [placeProducer_site]
    exact inTree.keys
  cases i with
  | write key value => exact own.elim
  | execute op => exact own.elim
  | offer j op => exact own.elim
  | urge j =>
    refine on_producer j fun q inside => ?_
    refine Producer.Inside.beginStep (q := { q with allowance := some 1 }) leafLast fixed inside.work fun op held => ?_
    cases held
  | dismiss j => exact on_producer j fun q inside => Producer.Inside.inStage inside.work rfl
  | _ => exact inTree.same rfl rfl rfl

end

include single leafLast fixed

/-- A step keeps a run inside the tree of the pattern. -/
theorem step {ev : Event} (inTree : r.InTree p first) (directed : r.Directed ks) (own : ev.IsOwn)
    (run : r.step ev = some next) : next.InTree p first := by
  cases ev with
  | turn who =>
    cases who with
    | main =>
      rcases directed with nobody | ⟨e,g,⟨c,course,equipped⟩,rfl⟩
      · have moved : r.moveMain = some next := run
        rw [moveMain,nobody] at moved
        cases moved
      · exact inTree.deeds single leafLast fixed (moveMain_deeds course equipped run).1
    | producer i => exact inTree.producer leafLast fixed run
    | worker d w => exact inTree.worker run
    | watcher i =>
      have aside := moveWatcher_aside run
      exact inTree.same aside.producers aside.dispatchers (congrArg Memory.data aside.memory)
    | reporter i =>
      have aside := moveReporter_aside run
      exact inTree.same aside.producers aside.dispatchers (congrArg Memory.data aside.memory)
  | outside i =>
    cases run
    exact inTree.intervene leafLast fixed own
  | pass ms =>
    cases run
    exact inTree.same rfl rfl rfl

end Run.InTree

namespace Run

variable [RandomSource σ] {ks : KeySpace} {p : Pattern} {first r next : Run σ}

/-- A run without a main task never gets one. -/
theorem step_undirected {ev : Event} (nobody : r.course = none) (run : r.step ev = some next) : next.course = none := by
  cases ev with
  | turn who =>
    cases who with
    | main =>
      have moved : r.moveMain = some next := run
      rw [moveMain,nobody] at moved
      cases moved
    | producer i =>
      obtain ⟨q,-,turn⟩ := moveProducer_turn run
      exact turn.course.trans nobody
    | worker d w => exact (moveWorker_course run).trans nobody
    | watcher i => exact (moveWatcher_aside run).course.trans nobody
    | reporter i => exact (moveReporter_aside run).course.trans nobody
  | outside i =>
    cases run
    have on_producer (j : Nat) (f : Producer σ → Producer σ) : (r.onProducer j f).course = none :=
      onProducer_elim (fun s => s.course = none) nobody fun _ _ => (placeProducer_course r j _).trans nobody
    cases i with
    | offer j op => exact on_producer j _
    | urge j => exact on_producer j _
    | dismiss j => exact on_producer j _
    | interrupt x =>
      show r.course.map _ = none
      rw [nobody]
      rfl
    | _ => exact nobody
  | pass ms =>
    cases run
    exact nobody

theorem Directed.step {ev : Event} (directed : r.Directed ks) (run : r.step ev = some next) : next.Directed ks := by
  rcases directed with nobody | ⟨e,g,led,same⟩
  · exact .inl (step_undirected nobody run)
  · exact .inr ⟨e,g,led.step run,same⟩

/-- Loads, churn and reads of a key space of one pattern, sent through any dispatchers by any producers or by a main
task, bring no key into the store but those that are listed for its last level. -/
theorem churn_stays_inside {events : List Event} (single : ks.patterns = [p]) (compiled : Pattern.Compiled p)
    (fixed : ∀ l ∈ p.levels, l.isRandom = false) (idle : ∀ x ∈ first.dispatchers, x.queue = [] ∧ x.inHand = [])
    (producers : ∀ q ∈ first.producers, q.work.From ks ∧ q.IsFresh) (directed : first.Directed ks)
    (own : ∀ ev ∈ events, ev.IsOwn) (run : first.steps events = some r) {key : String}
    (member : key ∈ r.site.memory.data) :
    key ∈ first.site.memory.data ∨ ∃ keys, ks.prefixes (p.depth - 1) = .ok keys ∧ key ∈ keys := by
  have leafLast := Pattern.Compiler.compiled_leafLast compiled
  have start : first.InTree p first.site.memory := by
    refine ⟨⟨fun q among => ?_,fun x among op held => ?_⟩,fun key there => .inl there⟩
    · obtain ⟨from_,fresh⟩ := producers q among
      exact Producer.inside_of_fresh single leafLast fixed from_ fresh
    · obtain ⟨queue,hands⟩ := idle x among
      rw [queue,hands] at held
      cases held
  have inTree : r.InTree p first.site.memory := by
    refine (steps_induction (fun events r => (∀ ev ∈ events, ev.IsOwn) → r.InTree p first.site.memory ∧ r.Directed ks)
      (fun _ => ⟨start,directed⟩) ?_ run own).1
    intro events r ev next _ before step own
    obtain ⟨inTree,directed⟩ := before fun ev member => own ev (List.mem_append_left _ member)
    have own := own ev (List.mem_append_right _ List.mem_cons_self)
    exact ⟨inTree.step single leafLast fixed directed own step,directed.step step⟩
  exact (inTree.keys key member).imp id (KeySpace.listed_of_leaf single compiled fixed)

/-! ### A run of everything -/

/-- Settings of one pattern whose subtrees are removed and built again, whose values are put anew and read. -/
def stirring (pattern : String) : Settings :=
  { busily pattern with
    churn := { Settings.standard.churn with valueRate := some 0, levelRate := some 0, level := 0, levelPct := 50 } }

/-- A producer draws an operation and sends it, and the worker carries it out. -/
def sendOne (i : Nat) : List Event := List.replicate 3 (.turn (.producer i)) ++ errand i

/-- A key is loaded, its subtree is removed, read, put anew and built again. -/
def stirOnce : List Event :=
  [.turn .main] ++ sendOne 0 ++ [.turn (.producer 0),.turn (.worker 0 0),.turn .main,.turn .main] ++ sendOne 1 ++
    sendOne 3 ++ sendOne 2 ++ sendOne 1

/-- One key is put by the load, by the churn of values and by that of subtrees, and is the only one in the end. -/
theorem stirred_stays_inside : ∃ e p r, Engine.new (stirring "/a/b;z") 1 = ExceptT.mk (.ok (.ok e)) ∧
    e.keySpace.patterns = [p] ∧ (∀ l ∈ p.levels, l.isRandom = false) ∧ (reporting e).Directed e.keySpace ∧
    (∀ ev ∈ stirOnce, ev.IsOwn) ∧ (reporting e).steps stirOnce = some r ∧ r.site.begun.size = 5 ∧
    "/a/b" ∈ r.site.memory.data ∧
    ("/a/b" ∈ (reporting e).site.memory.data ∨
      ∃ keys, e.keySpace.prefixes (p.depth - 1) = .ok keys ∧ "/a/b" ∈ keys) := by
  have ran : ((Engine.new (stirring "/a/b;z") 1).run.toOption.bind Except.toOption).any (fun e =>
      e.hasLevels 2 (fun l => !l.isRandom) && ((reporting e).steps stirOnce).any fun r =>
        r.site.begun.size == 5 && r.site.memory.data.contains "/a/b") = true := by
    decide +kernel
  obtain ⟨e,found,ran⟩ := (Option.any_eq_true _ _).mp ran
  obtain ⟨plain,ran⟩ := Bool.and_eq_true_iff.mp ran
  obtain ⟨r,run,ran⟩ := (Option.any_eq_true _ _).mp ran
  obtain ⟨five,there⟩ := Bool.and_eq_true_iff.mp ran
  have accepted := Engine.new_of_toOption found
  obtain ⟨p,single,-,levels⟩ := Engine.levels_of_check plain
  have compiled : Pattern.Compiled p := Engine.new_compiled accepted p (by rw [single]; exact List.mem_cons_self)
  have fixed (l : Level) (member : l ∈ p.levels) : l.isRandom = false := by simpa using (levels l member).2
  have directed : (reporting e).Directed e.keySpace := .inr ⟨e,.workload,led_start e .workload _ _ _ _ _,rfl⟩
  have own : ∀ ev ∈ stirOnce, ev.IsOwn := by simp [stirOnce,sendOne,errand,Event.IsOwn]
  have there : "/a/b" ∈ r.site.memory.data := Std.TreeMap.mem_iff_contains.mpr there
  refine ⟨e,p,r,accepted,single,fixed,directed,own,run,beq_iff_eq.mp five,there,?_⟩
  refine churn_stays_inside single compiled fixed (fun x member => ?_) (fun q member => ?_) directed own run there
  · cases member
  · cases member

end Run

end Keyload
