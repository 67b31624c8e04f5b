import Keyload.Proofs.Store.Renewal

/-!
The clients of a pool between their callers. Users call the clients in any interleaving, and whatever else happens at
the site may happen at any moment. Of every client it is noted what its calls come to (`ClientNote`). A call changes
nothing but its own client and its own stage there (`Step.client`), so what holds of one client follows from what single
moves do to it (`ClientMove`).
-/
namespace Keyload

namespace Client

variable {c c' : Client} {s after : Site} {r : Reaction}

/-- A renewal that went well. -/
theorem endRenewal_ok (answer : c.endRenewal s r = (.ok c',after)) : c' = c.renew s.issued ∧
    after = { s with issued := s.issued + 1, history := s.history.push (.opened c.endpoint s.issued) } := by
  unfold endRenewal Site.endConnect at answer
  cases failure : r.failure with
  | none =>
    rw [failure] at answer
    cases answer
    exact ⟨rfl,rfl⟩
  | some e =>
    rw [failure] at answer
    cases answer

/-- A renewal that was refused: the client is told what the store answered. -/
theorem endRenewal_error {e : StoreError} (answer : c.endRenewal s r = (.error e,after)) :
    r.failure = some e ∧ after = { s with history := s.history.push (.refused c.endpoint) } := by
  unfold endRenewal Site.endConnect at answer
  cases failure : r.failure with
  | none =>
    rw [failure] at answer
    cases answer
  | some e =>
    rw [failure] at answer
    cases answer
    exact ⟨rfl,rfl⟩

end Client

/-- What is noted of the calls on a client. -/
inductive ClientNote where
  /-- A use that needs no counting. -/
  | passed
  /-- A use was counted. -/
  | took
  /-- The connection was released, to be replaced. -/
  | closed
  /-- The connection was replaced, and the use counted. -/
  | renewed
  /-- The connection could not be replaced. -/
  | refused (e : StoreError)
  deriving DecidableEq

/-- Where a user stands with a client: the call that has not returned, and how the store will answer if the call is
renewing the connection. -/
abbrev CallStage := Option (ClientCall × Option Reaction)

/-- A move of user `u` on the client `c`, from one stage to another. -/
inductive ClientMove (asks : ClientCall → Prop) (u : ClientUser) (c : Client) (site : Site) :
    CallStage → Option ClientNote → Client → Site → CallStage → Prop where
  | passes (asked : asks (.acquire 0)) : ClientMove asks u c site none (some .passed) c site none
  | asks {q : ClientCall} (asked : asks q) (counted : q ≠ .acquire 0) :
    ClientMove asks u c site none none (c.enter u) site (some (q,none))
  | takes {q : ClientCall} (held : c.isHeldBy u) (young : q.isDue c = false) :
    ClientMove asks u c site (some (q,none)) (some .took) ((q.spend c).leave u) site none
  | closes {q : ClientCall} {r : Reaction} {after : Site} (held : c.isHeldBy u) (due : q.isDue c)
    (begun : c.beginRenewal site = (r,after)) :
    ClientMove asks u c site (some (q,none)) (some .closed) c after (some (q,some r))
  | renews {q : ClientCall} {r : Reaction} {c' : Client} {after : Site}
    (answer : c.endRenewal site r = (.ok c',after)) :
    ClientMove asks u c site (some (q,some r)) (some .renewed) ((q.spend c').leave u) after none
  | fails {q : ClientCall} {r : Reaction} {e : StoreError} {after : Site}
    (answer : c.endRenewal site r = (.error e,after)) :
    ClientMove asks u c site (some (q,some r)) (some (.refused e)) (c.leave u) after none

theorem ClientMove.mono {asks asks' : ClientCall → Prop} (more : ∀ q, asks q → asks' q) {u : ClientUser}
    {c c' : Client} {site site' : Site} {stage stage' : CallStage} {note : Option ClientNote}
    (move : ClientMove asks u c site stage note c' site' stage') :
    ClientMove asks' u c site stage note c' site' stage' := by
  cases move with
  | passes asked => exact .passes (more _ asked)
  | asks asked counted => exact .asks (more _ asked) counted
  | takes held young => exact .takes held young
  | closes held due begun => exact .closes held due begun
  | renews answer => exact .renews answer
  | fails answer => exact .fails answer

/-- The clients of a pool between their callers. -/
structure SharedPool where
  clients : List Client
  site : Site
  /-- Where the users stand with each client. -/
  calls : Nat → ClientUser → CallStage

/-- How a pool is used: what is asked of each client, and what else may happen to the site. -/
structure Usage where
  asks : Nat → ClientCall → Prop
  meanwhile : Site → Site → Prop

namespace SharedPool

/-- The pool after a move of user `u` on client `i`. -/
def put (s : SharedPool) (i : Nat) (u : ClientUser) (c : Client) (site : Site) (stage : CallStage) : SharedPool :=
  ⟨s.clients.set i c,site,Function.update s.calls i (Function.update (s.calls i) u stage)⟩

/-- What may happen next, and what is noted of which client. -/
inductive Step (w : Usage) (s : SharedPool) : List (Nat × ClientNote) → SharedPool → Prop where
  | call {i : Nat} {u : ClientUser} {c c' : Client} {note : Option ClientNote} {site : Site} {stage : CallStage}
    (there : s.clients[i]? = some c) (move : ClientMove (w.asks i) u c s.site (s.calls i u) note c' site stage) :
    Step w s (note.toList.map (i,·)) (s.put i u c' site stage)
  | aside {site : Site} (elsewhere : w.meanwhile s.site site) : Step w s [] { s with site }

/-- A state that can be reached, with what was noted on the way. -/
inductive Trace (w : Usage) (first : SharedPool) : List (Nat × ClientNote) → SharedPool → Prop where
  | start : Trace w first [] first
  | step {notes new : List (Nat × ClientNote)} {s next : SharedPool} (trace : Trace w first notes s)
    (step : Step w s new next) : Trace w first (notes ++ new) next

/-- What was noted of a client. -/
def notesOf (i : Nat) (notes : List (Nat × ClientNote)) : List ClientNote :=
  (notes.filter (·.1 = i)).map Prod.snd

theorem notesOf_append (i : Nat) (notes new : List (Nat × ClientNote)) :
    notesOf i (notes ++ new) = notesOf i notes ++ notesOf i new := by
  simp [notesOf]

theorem notesOf_own (i : Nat) (note : Option ClientNote) : notesOf i (note.toList.map (i,·)) = note.toList := by
  cases note <;> simp [notesOf]

theorem notesOf_other {i j : Nat} (other : j ≠ i) (note : Option ClientNote) :
    notesOf i (note.toList.map (j,·)) = [] := by
  cases note <;> simp [notesOf,other]

variable {w : Usage} {s next : SharedPool} {new : List (Nat × ClientNote)} {i : Nat} {c : Client}

theorem put_calls_of_ne {u v : ClientUser} {j : Nat} {site : Site} {stage : CallStage} (other : (j,v) ≠ (i,u)) :
    (s.put i u c site stage).calls j v = s.calls j v := by
  unfold put
  dsimp only
  by_cases same : j = i
  · subst same
    rw [Function.update_self,Function.update_of_ne fun here => other (by rw [here])]
  · rw [Function.update_of_ne same]

theorem enter_uses (c : Client) (u : ClientUser) : (c.enter u).uses = c.uses := by
  unfold Client.enter
  split <;> rfl

theorem put_same {u : ClientUser} {stage : CallStage} (there : s.clients[i]? = some c) (stands : s.calls i u = stage) :
    s.put i u c s.site stage = s := by
  obtain ⟨clients,site,calls⟩ := s
  cases stands
  obtain ⟨inside,rfl⟩ := List.getElem?_eq_some_iff.mp there
  simp [put]

theorem put_put (u : ClientUser) (c c' : Client) (site site' : Site) (stage stage' : CallStage) :
    (s.put i u c site stage).put i u c' site' stage' = s.put i u c' site' stage' := by
  simp [put,Function.update_idem]

theorem put_calls_self (s : SharedPool) (i : Nat) (u : ClientUser) (c : Client) (site : Site) (stage : CallStage) :
    (s.put i u c site stage).calls i u = stage := by
  simp [put]

/-- A client after a move on client `i`: it is what became of that one, or as it was. -/
theorem put_client {u : ClientUser} {j : Nat} {c' d : Client} {site : Site} {stage : CallStage}
    (there : s.clients[i]? = some c) (here : (s.put i u c' site stage).clients[j]? = some d) :
    j = i ∧ d = c' ∨ j ≠ i ∧ s.clients[j]? = some d := by
  by_cases same : j = i
  · subst same
    have inside := (List.getElem?_eq_some_iff.mp there).1
    exact .inl ⟨rfl,Option.some.inj (here.symm.trans (List.getElem?_set_self inside))⟩
  · exact .inr ⟨same,(List.getElem?_set_ne (Ne.symm same)).symm.trans here⟩

/-- What a step does to a client and to its callers: nothing, or one of them makes a move. -/
inductive ClientStep (asks : ClientCall → Prop) (c : Client) (before after : Site) (calls : ClientUser → CallStage) :
    List ClientNote → Client → (ClientUser → CallStage) → Prop where
  | rests : ClientStep asks c before after calls [] c calls
  | moves {u : ClientUser} {note : Option ClientNote} {c' : Client} {stage : CallStage}
    (move : ClientMove asks u c before (calls u) note c' after stage) :
    ClientStep asks c before after calls note.toList c' (Function.update calls u stage)

theorem Step.client (step : Step w s new next) (there : s.clients[i]? = some c) :
    ∃ c', next.clients[i]? = some c' ∧
      ClientStep (w.asks i) c s.site next.site (s.calls i) (notesOf i new) c' (next.calls i) := by
  cases step with
  | aside elsewhere => exact ⟨c,there,.rests⟩
  | @call j u d d' note site stage there' move =>
    have inside := (List.getElem?_eq_some_iff.mp there').1
    by_cases same : j = i
    · subst same
      obtain rfl := Option.some.inj (there.symm.trans there')
      rw [notesOf_own]
      refine ⟨d',List.getElem?_set_self inside,?_⟩
      have calls : (s.put j u d' site stage).calls j = Function.update (s.calls j) u stage := Function.update_self ..
      rw [calls]
      exact .moves move
    · rw [notesOf_other same]
      refine ⟨c,(List.getElem?_set_ne same).trans there,?_⟩
      have calls : (s.put j u d' site stage).calls i = s.calls i := Function.update_of_ne (Ne.symm same) ..
      rw [calls]
      exact .rests

variable {first : SharedPool} {notes : List (Nat × ClientNote)} {u : ClientUser} {c' : Client} {site site' : Site}
  {stage stage' : CallStage} {note : Option ClientNote}

/-- A user that has made a move makes another one. -/
theorem Trace.goes_on (trace : Trace w first notes (s.put i u c site stage)) (inside : i < s.clients.length)
    (move : ClientMove (w.asks i) u c site stage note c' site' stage') :
    Trace w first (notes ++ note.toList.map (i,·)) (s.put i u c' site' stage') := by
  have here : (s.put i u c site stage).clients[i]? = some c := List.getElem?_set_self inside
  rw [← put_calls_self s i u c site stage] at move
  have after := trace.step (.call here move)
  rwa [put_put] at after

theorem Trace.goes_aside (trace : Trace w first notes s) (elsewhere : w.meanwhile s.site site) :
    Trace w first notes { s with site } := by
  have after := trace.step (.aside elsewhere)
  rwa [List.append_nil] at after

theorem Trace.trans {more : List (Nat × ClientNote)} (trace : Trace w first notes s) (later : Trace w s more next) :
    Trace w first (notes ++ more) next := by
  induction later with
  | start => rwa [List.append_nil]
  | step _ step ih =>
    rw [← List.append_assoc]
    exact ih.step step

/-- What can be reached is still reached when more may happen. -/
theorem Trace.mono {w' : Usage} (asks : ∀ i q, w.asks i q → w'.asks i q)
    (meanwhile : ∀ a b, w.meanwhile a b → w'.meanwhile a b) (trace : Trace w first notes s) :
    Trace w' first notes s := by
  induction trace with
  | start => exact .start
  | step _ step ih =>
    refine ih.step ?_
    cases step with
    | call there move => exact .call there (move.mono (asks _))
    | aside elsewhere => exact .aside (meanwhile _ _ elsewhere)

end SharedPool

end Keyload
