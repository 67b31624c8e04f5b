import Keyload.Proofs.Churn.Sent
import Keyload.Proofs.Run.Alone

/-!
Subtree churn carried out by the workers of a dispatcher. A cycle sends the delete of a node and, later, the puts that
bring its keys back; the workers may carry them out in another order. The tree is whole again after whole cycles if and
only if the last operation on each of its keys was a put, and so it is where the operations on a key are carried out in
the order in which they were sent, as a single worker does.
-/
namespace Keyload
open Churn (Activity LevelChurn)
open Churn.Activity (sends sendAll sendAll_next sends_drawn sends_done)
open Run (Accounts Alone SentTurn Traced)

variable {σ : Type} [RandomSource σ]

/-! ### The producer of an activity -/

/-- The producer of an activity, after whole steps were sent and maybe a part of the next one. -/
inductive Stepping (a₀ : Activity) (g₀ : σ) (accepted : List Operation) (p : Producer σ) : Prop where
  | between {a : Activity} (stage : p.stage = .choosing ∨ p.stage = .pacing none) (work : p.work = .activity a)
      (sent : a₀.sendAll p.steps g₀ = .ok ((accepted,a),p.source)) : Stepping a₀ g₀ accepted p
  | sending {a b : Activity} {op : Operation} {h : σ} (stage : p.stage = .sending op none) (work : p.work = .activity b)
      (sent : a₀.sendAll p.steps g₀ = .ok ((accepted,a),h)) (begun : a.next h = .ok ((.send op,b),p.source)) :
      Stepping a₀ g₀ accepted p
  /-- The puts `done` of a subtree were accepted; the next one and those that can still be drawn complete them. -/
  | building {a b : Activity} {op : Operation} {ops done : List Operation} {c c₀ : Cursor} {h h₀ : σ}
      (stage : p.stage = .sending op (some c)) (work : p.work = .activity b) (parts : accepted = ops ++ done)
      (sent : a₀.sendAll p.steps g₀ = .ok ((ops,a),h)) (begun : a.next h = .ok ((.build c₀,b),h₀))
      (rest : ∀ more g, sends b.levels (.build c) p.source = .ok (more,g) →
        sends b.levels (.build c₀) h₀ = .ok (done ++ op :: more,g)) : Stepping a₀ g₀ accepted p
  | gone {a : Activity} {ops : List Operation} {h : σ} (ended : p.hasEnded = true)
      (sent : a₀.sendAll p.steps g₀ = .ok ((ops,a),h))
      (parts : accepted = ops ∨ ∃ c b h', a.next h = .ok ((.build c,b),h')) : Stepping a₀ g₀ accepted p

namespace Stepping

variable {a₀ : Activity} {g₀ : σ} {accepted : List Operation} {p : Producer σ}

/-- Going on with a subtree. -/
private theorem build {a b : Activity} {ops : List Operation} (done : List Operation) {c c₀ : Cursor} {h h₀ : σ}
    (work : p.work = .activity b) (sent : a₀.sendAll p.steps g₀ = .ok ((ops,a),h))
    (begun : a.next h = .ok ((.build c₀,b),h₀))
    (rest : ∀ more g, sends b.levels (.build c) p.source = .ok (more,g) →
      sends b.levels (.build c₀) h₀ = .ok (done ++ more,g)) :
    Stepping a₀ g₀ (ops ++ done) (p.build b.levels c) ∧ (p.build b.levels c).dispatcher = p.dispatcher := by
  unfold Producer.build Producer.drawing
  cases drawn : Activity.draw b.levels c p.source with
  | error f => exact ⟨.gone rfl sent (.inr ⟨_,_,_,begun⟩),rfl⟩
  | ok r =>
    obtain ⟨⟨op,c'⟩,g⟩ := r
    cases op with
    | none =>
      have whole := sendAll_next sent begun (rest [] g (sends_done drawn))
      rw [List.append_nil] at whole
      exact ⟨.between (.inl rfl) work whole,rfl⟩
    | some op =>
      exact ⟨.building rfl work rfl sent begun fun more g left => rest _ g (sends_drawn drawn left),rfl⟩

/-- Beginning a step. -/
private theorem beginStep {a : Activity} (work : p.work = .activity a)
    (sent : a₀.sendAll p.steps g₀ = .ok ((accepted,a),p.source)) :
    Stepping a₀ g₀ accepted (p.beginStep none) ∧ (p.beginStep none).dispatcher = p.dispatcher := by
  simp only [Producer.beginStep,work,Producer.drawing]
  cases begun : a.next p.source with
  | error f => exact ⟨.gone rfl sent (.inl rfl),rfl⟩
  | ok r =>
    obtain ⟨⟨step,b⟩,g⟩ := r
    cases step with
    | send op => exact ⟨.sending rfl rfl sent begun,rfl⟩
    | nothing => exact ⟨.gone rfl sent (.inl rfl),rfl⟩
    | build c =>
      have built := build (p := { p with source := g, work := .activity b }) [] rfl sent begun fun more h left => left
      rwa [List.append_nil] at built

private theorem proceed_build {b : Activity} (work : p.work = .activity b) (c : Cursor) :
    p.proceed (some c) = { p with sent := p.sent + 1 }.build b.levels c := by
  cases p
  cases work
  rfl

/-- The turns of the producer of an activity send its steps, one after another. -/
theorem accounts (a₀ : Activity) (g₀ : σ) : Accounts (Stepping a₀ g₀) := by
  intro r next x p accepted at_p at_x stepping run
  unfold Run.moveProducer at run
  rw [at_p] at run
  simp only [Option.bind_eq_bind,Option.bind_some,at_x] at run
  cases stepping with
  | @between a stage work sent =>
    rcases stage with stage | stage
    · simp only [stage,Producer.choose,work,Option.map_some,Option.some.injEq] at run
      exact .place (q := p.inStage (.pacing none)) (.between (.inr rfl) work sent) rfl rfl run.symm
    · simp only [stage] at run
      split at run
      · cases run
        exact .place (q := p.inStage .ended) (.gone rfl sent (.inl rfl)) rfl rfl rfl
      · split at run
        · cases run
          obtain ⟨stepping,dispatcher⟩ := beginStep (p := p.tick r.nowMs) work sent
          exact .place stepping (Run.beginStep_sent _ none) dispatcher rfl
        · cases run
  | @sending a b op h stage work sent begun =>
    simp only [stage,Run.send] at run
    split at run
    · cases run
      exact .place (q := p.inStage .ended) (.gone rfl sent (.inl rfl)) rfl rfl rfl
    · split at run
      · cases run
        have whole : a₀.sendAll (p.steps + 1) g₀ = .ok ((accepted ++ [op],b),p.source) := sendAll_next sent begun rfl
        exact .send (q := { p with sent := p.sent + 1 }.finishStep) stage (.between (.inl rfl) work whole) rfl rfl rfl
      · split at run
        · cases run
        · cases run
          exact .enlist rfl
  | @building a b op ops done c c₀ h h₀ stage work parts sent begun rest =>
    simp only [stage,Run.send] at run
    split at run
    · cases run
      exact .place (q := p.inStage .ended) (.gone rfl sent (.inr ⟨_,_,_,begun⟩)) rfl rfl rfl
    · split at run
      · cases run
        obtain ⟨stepping,dispatcher⟩ := build (p := { p with sent := p.sent + 1 }) (done ++ [op]) (c := c) work
          sent begun fun more g left => by rw [List.append_assoc]; exact rest more g left
        have proceeds := proceed_build work c
        rw [← List.append_assoc,← parts] at stepping
        exact .send stage (proceeds ▸ stepping) (Run.proceed_sent p (some c)) (proceeds ▸ dispatcher) rfl
      · split at run
        · cases run
        · cases run
          exact .enlist rfl
  | gone ended =>
    unfold Producer.hasEnded at ended
    cases stage : p.stage with
    | ended =>
      simp only [stage] at run
      cases run
    | broken f =>
      simp only [stage] at run
      cases run
    | _ => simp [stage] at ended

end Stepping

namespace Churn.LevelChurn
open Memory (lastOn touches)

/-- Whole cycles were sent and all of their operations carried out, none with an error. -/
structure Settled (a : LevelChurn) (l : Ledger) (r : Run σ) : Prop where
  told : r.stopped = false
  fine : l.errors = 0
  undropped : l.dropped = []
  idle : ∃ x ∈ r.dispatchers[0]?, x.queue = [] ∧ x.inHand = []
  cycles : ∃ p ∈ r.producers[0]?, 2 * a.slots.size ∣ p.steps

instance (a : LevelChurn) (l : Ledger) (r : Run σ) : Decidable (a.Settled l r) :=
  decidable_of_iff (r.stopped = false ∧ l.errors = 0 ∧ l.dropped = [] ∧
      (∃ x ∈ r.dispatchers[0]?, x.queue = [] ∧ x.inHand = []) ∧ ∃ p ∈ r.producers[0]?, 2 * a.slots.size ∣ p.steps)
    ⟨fun ⟨told,fine,undropped,idle,cycles⟩ => ⟨told,fine,undropped,idle,cycles⟩,
      fun settled => ⟨settled.told,settled.fine,settled.undropped,settled.idle,settled.cycles⟩⟩

/-- After whole cycles, no subtree is sent in part. -/
private theorem sent_whole {a : LevelChurn} (sound : a.Sound) (start : a.slots.place = 0) {g₀ : σ}
    {accepted : List Operation} {p : Producer σ} (stepping : Stepping (.level a) g₀ accepted p)
    (whole : 2 * a.slots.size ∣ p.steps) :
    ∃ b h, (Activity.level a).sendAll p.steps g₀ = .ok ((accepted,b),h) := by
  cases stepping with
  | between stage work sent => exact ⟨_,_,sent⟩
  | sending stage work sent begun => exact ⟨_,_,sent⟩
  | building stage work parts sent begun rest => exact (cycles_end sound start whole sent begun).elim
  | gone ended sent parts =>
    rcases parts with rfl | ⟨c,b,h',begun⟩
    · exact ⟨_,_,sent⟩
    · exact (cycles_end sound start whole sent begun).elim

variable {ks : KeySpace} {p : Pattern} {level pct n workers connection : Nat} {a : LevelChurn} {g₀ g₁ g : σ}
  {es : Array Entry} {b : Bounded} {site : Site} {name : String} {options : DispatchOptions} {ticker : Option Ticker}
  {events : List Event} {l : Ledger} {r : Run σ}

/-- What was sent, and what has become of it, once whole cycles are settled. -/
private theorem settled_sent (sound : a.Sound) (start : a.slots.place = 0)
    (traced : Traced 0 (.ofProducer site workers connection name options
      (.start 0 (.activity (.level a)) g ticker)) events l r)
    (own : ∀ i, .outside i ∉ events) (settled : a.Settled l r) :
    (∃ steps b h, 2 * a.slots.size ∣ steps ∧ (Activity.level a).sendAll steps g = .ok ((l.accepted,b),h)) ∧
      r.site.memory = site.memory.executeAll l.finished ∧ l.finished.Perm l.accepted ∧
      (workers = 1 → l.finished = l.accepted) := by
  have begins : Alone (Stepping (.level a) g) site.memory Ledger.empty
      (.ofProducer site workers connection name options (.start 0 (.activity (.level a)) g ticker))
      (Dispatcher.start name options (List.range workers)) (.start 0 (.activity (.level a)) g ticker) :=
    ⟨rfl,rfl,rfl,rfl,.between (.inl rfl) rfl rfl,fun _ => rfl⟩
  obtain ⟨x,p,state⟩ := traced.alone (Stepping.accounts _ g) own settled.told begins
  obtain ⟨y,begun,at_y,-,balanced⟩ := traced.inBalance settled.told
    ⟨_,[],rfl,(List.append_nil _).symm,Ledger.Balanced.start name options (List.range workers)⟩
  obtain ⟨y',at_y',queue,inHand⟩ := settled.idle
  cases at_y.symm.trans at_y'
  obtain ⟨p',at_p,whole⟩ := settled.cycles
  rw [state.producers] at at_p
  cases at_p
  obtain ⟨b,h,sent⟩ := sent_whole sound start state.sent whole
  obtain ⟨all,inTurn⟩ := balanced.idle queue inHand settled.undropped
  rw [List.length_range] at inTurn
  exact ⟨⟨p.steps,b,h,whole,sent⟩,state.carried settled.fine,all,inTurn⟩

/-- Workers that churn subtrees whose nodes do not begin with each other leave the tree of the loaded keys whole after
whole cycles if and only if no loaded key was deleted last; and so does a single worker, as do several that carry the
operations on each key out in the order in which they were accepted. -/
theorem kept_by_workers (single : ks.patterns = [p]) (compiled : Pattern.Compiled p)
    (fixed : ∀ l ∈ p.levels, l.isRandom = false) (some_share : 0 < pct)
    (created : (LevelChurn.new ks level pct).run = .ok (.ok a))
    (loaded : (ks.keys 0).take n #[] g₀ = .ok ((es,true,b),g₁)) (unlike : a.Unlike) (prompt : site.memory.failing = 0)
    (full : site.memory.HasKeys (es.toList.map Entry.key))
    (traced : Traced 0 (.ofProducer site workers connection name options
      (.start 0 (.activity (.level a)) g ticker)) events l r)
    (own : ∀ i, .outside i ∉ events) (settled : a.Settled l r) :
    (r.site.memory.HasKeys (es.toList.map Entry.key) ↔
        ∀ key ∈ es.toList.map Entry.key, ∀ op ∈ lastOn key l.finished, op.kind = .put) ∧
      ((workers = 1 ∨ ∀ key ∈ es.toList.map Entry.key,
          l.finished.filter (touches key) = l.accepted.filter (touches key)) →
        r.site.memory.HasKeys (es.toList.map Entry.key)) := by
  obtain ⟨sound,rfl,start⟩ := new_sound single compiled fixed some_share created
  have load := Bounded.take_single single loaded
  rw [load_keys sound load] at full ⊢
  obtain ⟨⟨steps,c,h,whole,sent⟩,carried,all,inTurn⟩ := settled_sent sound start traced own settled
  obtain ⟨-,-,-,-,-,own⟩ := sent_steps sound sent
  have kept :=
    sent_cycles sound start (apart_of_unlike sound unlike) (rebuilds_of_load sound load) whole sent prompt full
  rw [carried]
  have lasts := Memory.hasKeys_executeAll prompt full fun op member => own op (all.mem_iff.mp member)
  refine ⟨lasts,?_⟩
  rintro (one | same)
  · rwa [inTurn one]
  · refine lasts.mpr fun key member op last => ?_
    rw [lastOn,same key member] at last
    exact (Memory.hasKeys_executeAll prompt full own).mp kept key member op last

/-! ### Two neighbours -/

/-- Workers that churn neighbours, from a store of their keys. -/
def churned (a : LevelChurn) (es : Array Entry) (workers : Nat) : Run Xoshiro :=
  .ofProducer (Site.fresh .prompt (Memory.empty.executeAll (es.toList.map Activity.putOf))) workers 0 "level_churn"
    .plain (.start 0 (.activity (.level a)) (Xoshiro.ofSeed 1) none)

theorem churned_full (a : LevelChurn) (es : Array Entry) (workers : Nat) :
    (churned a es workers).site.memory.failing = 0 ∧
      (churned a es workers).site.memory.HasKeys (es.toList.map Entry.key) := by
  have put_back (key : String) := mem_putBack (m := Memory.empty) rfl es.toList key
  refine ⟨(put_back "").1,fun key => (put_back key).2.trans ?_⟩
  simp

/-- A cycle of one slot and one key: the worker carries out the delete, and then the put. -/
def cycleInTurn : List Event :=
  let cycleHalf := [.producer 0,.producer 0,.producer 0,.worker 0 0,.worker 0 0,.worker 0 0]
  (cycleHalf ++ cycleHalf).map .turn

/-- The same cycle with two workers: one begins the delete, and ends it when the other one has carried out the put. -/
def cycleOvertaken : List Event :=
  [.producer 0,.producer 0,.producer 0,.worker 0 0,.worker 0 0,.producer 0,.producer 0,.producer 0,.worker 0 1,
    .worker 0 1,.worker 0 1,.worker 0 0].map .turn

theorem unlike_of_neighbours {es : Array Entry} (neighbours : Neighbours "a" "b" ks p a es) : a.Unlike := by
  rw [Unlike,neighbours.keys.1]
  decide +kernel

/-- A single worker keeps two neighbours. -/
theorem kept_in_turn : ∃ ks p a es, Neighbours "a" "b" ks p a es ∧ ∃ l r, Traced 0 (churned a es 1) cycleInTurn l r ∧
    a.Settled l r ∧ r.site.memory.HasKeys (es.toList.map Entry.key) := by
  obtain ⟨ks,p,a,es,neighbours,ends⟩ := neighbours_with (x := "a") (y := "b")
    (fun a es => (Run.keep 0 cycleInTurn .empty (churned a es 1)).any fun (l,r) => decide (a.Settled l r))
    (by decide +kernel)
  obtain ⟨⟨l,r⟩,kept,settled⟩ := (Option.any_eq_true _ _).mp ends
  have settled := of_decide_eq_true settled
  obtain ⟨b,g,loaded⟩ := neighbours.loaded
  obtain ⟨prompt,full⟩ := churned_full a es 1
  have traced := Run.keep_traced .start kept
  have keeps := (kept_by_workers neighbours.single neighbours.compiled neighbours.fixed (by decide) neighbours.created
    loaded (unlike_of_neighbours neighbours) prompt full traced (by simp [cycleInTurn]) settled).2 (.inl rfl)
  exact ⟨ks,p,a,es,neighbours,l,r,traced,settled,keeps⟩

/-- Two workers lose a key of two neighbours, neither of which begins with the other: the delete ends after the put that
was sent to undo it. -/
theorem overtaken_loses : ∃ ks p a es, Neighbours "a" "b" ks p a es ∧ a.Unlike ∧
    (churned a es 2).site.memory.HasKeys (es.toList.map Entry.key) ∧ ∃ l r,
      Traced 0 (churned a es 2) cycleOvertaken l r ∧ a.Settled l r ∧
        ¬ r.site.memory.HasKeys (es.toList.map Entry.key) := by
  obtain ⟨ks,p,a,es,neighbours,ends⟩ := neighbours_with (x := "a") (y := "b")
    (fun a es => (Run.keep 0 cycleOvertaken .empty (churned a es 2)).any fun (l,r) =>
      decide (a.Settled l r) && es.toList.any fun e => !r.site.memory.data.contains e.key)
    (by decide +kernel)
  obtain ⟨⟨l,r⟩,kept,ends⟩ := (Option.any_eq_true _ _).mp ends
  obtain ⟨settled,lost⟩ := Bool.and_eq_true_iff.mp ends
  obtain ⟨e,member,gone⟩ := List.any_eq_true.mp lost
  refine ⟨ks,p,a,es,neighbours,unlike_of_neighbours neighbours,(churned_full a es 2).2,l,r,Run.keep_traced .start kept,
    of_decide_eq_true settled,fun whole => ?_⟩
  have there := Std.TreeMap.mem_iff_contains.mp ((whole e.key).mpr (List.mem_map_of_mem member))
  simp [there] at gone

end Churn.LevelChurn

end Keyload
