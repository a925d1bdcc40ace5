import Conformance.Proofs.Resolution.Coherence
import Conformance.Proofs.Resolution.Transport
import Conformance.Resolution.Sharing

/-!
Threads that take turns.

Threads are queries that are cut up into accesses. Left alone, a thread answers as the query does
(`Thread.likeQueries`). With others in between, two things can be said of it:

* if two threads make accesses that fit each other, each from memories that are alike
  (`Thread.Together`), then whatever the schedule is, threads of the one kind come to the results
  that threads of the other kind come to by the same schedule (`Thread.sideBySide_together`);
* if the accesses of a thread keep an invariant that fixes its result (`Thread.Gives`), it comes
  to this result by every schedule (`Thread.sideBySide_gives`).

A schedule can let threads run to their ends without interruption, in any order
(`Pool.exists_schedule`).
-/

namespace Conformance

namespace Thread

variable {α β γ : Type}

instance : LawfulMonad Thread :=
  LawfulMonad.mk' Thread
    (fun thread => by
      show thread.bind (fun value => pure value) = thread
      induction thread with
      | ended result => cases result <;> rfl
      | access change next ih => exact congrArg (access change) (funext ih))
    (fun _ _ => rfl)
    (fun thread further last => by
      show (thread.bind further).bind last = thread.bind fun value => (further value).bind last
      induction thread with
      | ended result => cases result <;> rfl
      | access change next ih => exact congrArg (access change) (funext ih))

/-! ## Threads that are left alone -/

theorem answer_ended (result : Except Fault α) (memory : Memory) :
    (ended result).alone.answer memory = (result, memory) := by
  cases result <;> rfl

theorem answer_access (change : Memory → Memory) (next : Memory → Thread α) (memory : Memory) :
    (access change next).alone.answer memory = (next memory).alone.answer (change memory) := rfl

theorem answer_find_bind (part : Memory.Part α) (index : Nat) (further : Option α → Thread β)
    (memory : Memory) : (find part index >>= further).alone.answer memory =
      (further ((part.read memory).find? index)).alone.answer memory := rfl

theorem answer_keep (part : Memory.Part α) (index : Nat) (answer : α) (memory : Memory) :
    (keep part index answer).alone.answer memory =
      (.ok (((part.read memory).find? index).getD answer),
        part.write memory ((part.read memory).keep index answer)) := rfl

/-- A thread goes on after one that has a result. -/
theorem answer_bind_ok {thread : Thread α} {further : α → Thread β} {memory after : Memory} {a : α}
    (answered : thread.alone.answer memory = (.ok a, after)) :
    (thread >>= further).alone.answer memory = (further a).alone.answer after := by
  induction thread generalizing memory with
  | ended result =>
    rw [answer_ended] at answered
    cases answered
    rfl
  | access change next ih => exact ih memory answered

/-- Threads that are left alone have the answers of queries, and leave the same behind. -/
def likeQueries : Lifting Thread QueryM where
  rel r thread query := ∀ memory, ∃ a b after, thread.alone.answer memory = (.ok a, after) ∧
    query.answer memory = (.ok b, after) ∧ r a b
  pure results memory := ⟨_, _, memory, rfl, rfl, results⟩
  bind related next memory := by
    obtain ⟨a, b, middle, answered, answeredSecond, results⟩ := related memory
    obtain ⟨c, d, after, answeredNext, answeredNextSecond, last⟩ := next a b results middle
    refine ⟨c, d, after, ?_, ?_, last⟩
    · rw [answer_bind_ok answered, answeredNext]
    · rw [QueryM.answer_bind_ok answeredSecond, answeredNextSecond]

/-- A thread that is left alone leaves behind what the query does. -/
theorem alone_inStep {r : α → β → Prop} {thread : Thread α} {query : QueryM β}
    (like : likeQueries.rel r thread query) : (Memory.inStep Eq).rel r thread.alone query := by
  intro memory _ same
  subst same
  obtain ⟨a, b, after, answered, answeredQuery, results⟩ := like memory
  exact ⟨a, b, after, after, answered, answeredQuery, rfl, results⟩

/-! ## Threads that fit each other -/

/-- Two threads make accesses that fit each other: from memories of which `R` holds each pair of
accesses leaves memories behind of which it holds, whatever happened in between. -/
inductive Together (R : Memory → Memory → Prop) (r : α → β → Prop) : Thread α → Thread β → Prop
  | ended {a : α} {b : β} (results : r a b) : Together R r (.ended (.ok a)) (.ended (.ok b))
  | access {change changeSecond : Memory → Memory} {next : Memory → Thread α}
      {nextSecond : Memory → Thread β}
      (kept : ∀ {first second}, R first second → R (change first) (changeSecond second))
      (further : ∀ {first second}, R first second →
        Together R r (next first) (nextSecond second)) :
      Together R r (.access change next) (.access changeSecond nextSecond)

variable {R : Memory → Memory → Prop}

/-- Threads that fit each other, with related results. -/
def together (R : Memory → Memory → Prop) : Lifting Thread Thread where
  rel r := Together R r
  pure := .ended
  bind {_ _ _ _ _ _ _ _ f g} related next := by
    induction related with
    | ended results => exact next _ _ results
    | access kept _ ih => exact .access kept fun alike => ih alike

/-- Threads that look for answers fit each other if the answers do. -/
theorem find_together {part : Memory.Part α} {partSecond : Memory.Part β} {index other : Nat}
    {g : α → β} (alike : ∀ {first second}, R first second →
      (partSecond.read second).find? other = ((part.read first).find? index).map g) :
    (together R).rel (fun a b => b = a.map g) (find part index) (find partSecond other) :=
  .access (fun related => related) fun related => .ended (alike related)

/-- Threads that remember answers fit each other if the answers do that there are. -/
theorem keep_together {part : Memory.Part α} {partSecond : Memory.Part β} {index other : Nat}
    {g : α → β} (alike : ∀ {first second}, R first second →
      (partSecond.read second).find? other = ((part.read first).find? index).map g) {answer : α}
    (kept : ∀ {first second}, R first second →
      R (part.write first ((part.read first).keep index answer))
        (partSecond.write second ((partSecond.read second).keep other (g answer)))) :
    (together R).rel (fun a b => b = g a) (keep part index answer)
      (keep partSecond other (g answer)) := by
  refine .access kept fun related => .ended ?_
  rw [alike related, Option.getD_map]

/-- Threads that fit each other do so too when they are left alone. -/
theorem Together.alone {r : α → β → Prop} {first : Thread α} {second : Thread β}
    (fits : Together R r first second) : (Memory.inStep R).rel r first.alone second.alone := by
  induction fits with
  | ended results => exact (Memory.inStep R).pure results
  | access kept _ ih => exact fun memory other alike => ih alike _ _ (kept alike)

/-- Queries run in step if threads that answer like them fit each other. -/
theorem Together.queries {r : α → β → Prop} {first : Thread α} {second : Thread β}
    (fits : Together R r first second) {query : QueryM α} {other : QueryM β}
    (like : likeQueries.rel Eq first query) (likeSecond : likeQueries.rel Eq second other) :
    (Memory.inStep R).rel r query other := by
  intro memory memorySecond alike
  obtain ⟨a, b, after, afterSecond, answered, answeredSecond, kept, results⟩ :=
    fits.alone memory memorySecond alike
  obtain ⟨_, _, _, again, answeredQuery, rfl⟩ := like memory
  obtain ⟨_, _, _, againSecond, answeredOther, rfl⟩ := likeSecond memorySecond
  cases answered.symm.trans again
  cases answeredSecond.symm.trans againSecond
  exact ⟨a, b, after, afterSecond, answeredQuery, answeredOther, kept, results⟩

/-! ## Threads with a result -/

/-- The accesses of a thread keep `P`, and from memories of which `P` holds it comes to a result
that is related to a value, whatever happened in between. -/
inductive Gives (P : Memory → Prop) (r : α → β → Prop) (value : β) : Thread α → Prop
  | ended {a : α} (results : r a value) : Gives P r value (.ended (.ok a))
  | access {change : Memory → Memory} {next : Memory → Thread α}
      (kept : ∀ {memory}, P memory → P (change memory))
      (further : ∀ {memory}, P memory → Gives P r value (next memory)) :
      Gives P r value (.access change next)

variable {P : Memory → Prop}

/-- A thread has a result if it has that result with all that a part of it can come to. -/
theorem Gives.bind {δ : Type} {r : α → β → Prop} {q : γ → δ → Prop} {thread : Thread α}
    {further : α → Thread γ} {value : β} {last : δ} (given : Gives P r value thread)
    (next : ∀ a, r a value → Gives P q last (further a)) :
    Gives P q last (thread >>= further) := by
  induction given with
  | ended results => exact next _ results
  | access kept _ ih => exact .access kept fun known => ih known

/-- Threads that come to results that are related to values. -/
def gives (P : Memory → Prop) : Lifting Thread Id where
  rel r thread value := Gives P r value thread
  pure := .ended
  bind given next := given.bind fun a results => next a _ results

/-- A thread that looks for an answer has a result if it has that result with every answer that
there can be. -/
theorem find_gives {r : α → β → Prop} {part : Memory.Part γ} {index : Nat}
    {further : Option γ → Thread α} {value : β} (each : ∀ {memory}, P memory →
      Gives P r value (further ((part.read memory).find? index))) :
    Gives P r value (find part index >>= further) :=
  .access (fun known => known) each

/-- Threads with a result come to it too when they are left alone. -/
theorem Gives.alone {r : α → β → Prop} {thread : Thread α} {value : β}
    (given : Gives P r value thread) : (Memory.keeping P).rel r thread.alone value := by
  induction given with
  | ended results => exact (Memory.keeping P).pure results
  | access kept _ ih => exact fun memory known => ih known _ (kept known)

end Thread

/-! ## Pools -/

namespace Pool

variable {α β : Type} {R : Memory → Memory → Prop} {P : Memory → Prop} {r : α → β → Prop}

/-- The threads of two pools fit each other. -/
structure Together (R : Memory → Memory → Prop) (r : α → β → Prop) (first : Pool α)
    (second : Pool β) : Prop where
  threads : List.Forall₂ (Thread.Together R r) first.threads second.threads
  memory : R first.memory second.memory

namespace Together

variable {first : Pool α} {second : Pool β}

theorem turn (fits : Together R r first second) (position : Nat) :
    Together R r (first.turn position) (second.turn position) := by
  have pair := forall₂_getElem? fits.threads position
  unfold Pool.turn
  generalize first.threads[position]? = thread at pair ⊢
  generalize second.threads[position]? = other at pair ⊢
  cases pair with
  | none => exact fits
  | some related =>
    cases related with
    | ended => exact fits
    | access kept further =>
      exact ⟨forall₂_set fits.threads position (further fits.memory), kept fits.memory⟩

theorem follow (fits : Together R r first second) (schedule : List Nat) :
    Together R r (first.follow schedule) (second.follow schedule) := by
  induction schedule generalizing first second with
  | nil => exact fits
  | cons position schedule ih => exact ih (fits.turn position)

end Together

/-- The threads of a pool come to results that are related to values. -/
structure Gives (P : Memory → Prop) (r : α → β → Prop) (values : List β) (pool : Pool α) :
    Prop where
  threads : List.Forall₂ (fun thread value => Thread.Gives P r value thread) pool.threads values
  memory : P pool.memory

namespace Gives

variable {pool : Pool α} {values : List β}

theorem turn (given : Gives P r values pool) (position : Nat) :
    Gives P r values (pool.turn position) := by
  unfold Pool.turn
  split
  · rename_i change next found
    obtain ⟨value, listed, related⟩ := exists_getElem?_of_forall₂ given.threads found
    cases related with
    | access kept further =>
      refine ⟨?_, kept given.memory⟩
      have replaced := forall₂_set given.threads position (further given.memory)
      rwa [set_eq_self listed] at replaced
  · exact given

theorem follow (given : Gives P r values pool) (schedule : List Nat) :
    Gives P r values (pool.follow schedule) := by
  induction schedule generalizing pool with
  | nil => exact given
  | cons position schedule ih => exact ih (given.turn position)

end Gives

/-! ## Schedules without interruption -/

/-- The thread at a position runs to its end. -/
def complete (pool : Pool α) (position : Nat) : Pool α :=
  match pool.threads[position]? with
  | none => pool
  | some thread =>
    let (result, memory) := thread.alone.answer pool.memory
    { threads := pool.threads.set position (.ended result), memory }

theorem complete_of_some {pool : Pool α} {position : Nat} {thread : Thread α}
    (found : pool.threads[position]? = some thread) : pool.complete position =
      { threads := pool.threads.set position (.ended (thread.alone.answer pool.memory).1)
        memory := (thread.alone.answer pool.memory).2 } := by
  rw [complete, found]

/-- A thread that gets turn after turn runs to its end. -/
theorem exists_turns (pool : Pool α) (position : Nat) :
    ∃ count, pool.follow (List.replicate count position) = pool.complete position := by
  cases found : pool.threads[position]? with
  | none => exact ⟨0, by rw [complete, found]; rfl⟩
  | some thread =>
    -- By induction on the thread: each turn makes the access that it waits for.
    induction thread generalizing pool with
    | ended result =>
      refine ⟨0, ?_⟩
      rw [complete_of_some found, Thread.answer_ended, set_eq_self found]
      rfl
    | access change next ih =>
      have step : pool.turn position =
          ⟨pool.threads.set position (next pool.memory), change pool.memory⟩ := by
        rw [turn, found]
      have inside : position < pool.threads.length := (List.getElem?_eq_some_iff.mp found).1
      have waits : (pool.turn position).threads[position]? = some (next pool.memory) := by
        rw [step, List.getElem?_set_self inside]
      obtain ⟨count, runs⟩ := ih pool.memory (pool.turn position) waits
      refine ⟨count + 1, runs.trans ?_⟩
      rw [complete_of_some waits, complete_of_some found, step, List.set_set, Thread.answer_access]

/-- Threads can run to their ends one after another, in any order. -/
theorem exists_schedule (pool : Pool α) (order : List Nat) :
    ∃ schedule, pool.follow schedule = order.foldl complete pool := by
  induction order generalizing pool with
  | nil => exact ⟨[], rfl⟩
  | cons position order ih =>
    obtain ⟨count, runs⟩ := pool.exists_turns position
    obtain ⟨schedule, follows⟩ := ih (pool.complete position)
    refine ⟨List.replicate count position ++ schedule, ?_⟩
    calc pool.follow (List.replicate count position ++ schedule)
      _ = (pool.follow (List.replicate count position)).follow schedule := List.foldl_append
      _ = (pool.complete position).follow schedule := by rw [runs]
      _ = (position :: order).foldl complete pool := follows

end Pool

namespace Thread

variable {α β : Type} {R : Memory → Memory → Prop} {P : Memory → Prop} {r : α → β → Prop}

/-- Threads that fit each other come to related results by the same schedule. -/
theorem sideBySide_together {first : List (Thread α)} {second : List (Thread β)}
    (fit : List.Forall₂ (Together R r) first second) (schedule : List Nat) :
    (Memory.inStep R).rel (List.Forall₂ r) (sideBySide first schedule)
      (sideBySide second schedule) := by
  intro memory other alike
  have start : Pool.Together R r ⟨first, memory⟩ ⟨second, other⟩ := ⟨fit, alike⟩
  have pools := start.follow schedule
  exact (Memory.inStep R).mapM pools.threads (fun _ _ _ pair => pair.alone) _ _ pools.memory

/-- Threads with a result come to it by every schedule. -/
theorem sideBySide_gives {threads : List (Thread α)} {values : List β}
    (given : List.Forall₂ (fun thread value => Gives P r value thread) threads values)
    (schedule : List Nat) :
    (Memory.keeping P).rel (List.Forall₂ r) (sideBySide threads schedule) values := by
  intro memory known
  have start : Pool.Gives P r values ⟨threads, memory⟩ := ⟨given, known⟩
  have pool := start.follow schedule
  have results := (Memory.keeping P).mapM (g := pure) pool.threads
    fun _ _ _ thread => thread.alone
  rw [List.mapM_pure, List.map_id'] at results
  exact results _ pool.memory

end Thread

end Conformance
