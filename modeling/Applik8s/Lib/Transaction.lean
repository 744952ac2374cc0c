import Mathlib.Data.Fintype.Basic
import Applik8s.Lib.Program

/-! Transactions over a shared store, submitted concurrently.

A transaction takes a checkpoint, executes its body one call at a time, and undoes
the body's writes when it throws. A process is what one submitted operation does:
reads of the store outside any transaction, transactions, and a result. `Step`
interleaves processes at every call, with one lock around transaction bodies and
any waiting process allowed to take the lock next. `interleaving_is_serial`: processes
of a single transaction, or of a single read that no transaction shows a state of its
own, have the effect and the results of running them one after the other. -/
namespace Applik8s.Lib
open List
open Function (update update_of_ne)

/-- A store whose transactions can be undone, and what a read of it sees. -/
structure Store (I : Interface) (σ ρ : Type) extends Interpreter I σ where
  /-- What a failed transaction leaves, from its checkpoint and the state at the failure. -/
  rollback : σ → σ → σ
  observe : σ → ρ

inductive Process (I : Interface) (ρ ε α : Type) : Type 1 where
  | settled (result : Except ε α)
  | observe (next : ρ → Process I ρ ε α)
  | transact {β : Type} (body : Program I ε β) (next : Except ε β → Process I ρ ε α)

variable {I : Interface} {σ ρ ε α ι : Type}

def Store.transaction {β : Type} (store : Store I σ ρ) (body : Program I ε β) (state : σ) :
    Except ε β × σ :=
  match body.exec store.toInterpreter state with
  | (.ok value, after) => (.ok value, after)
  | (.error error, after) => (.error error, store.rollback state after)

def Process.serial (store : Store I σ ρ) : Process I ρ ε α → σ → Except ε α × σ
  | .settled result, state => (result, state)
  | .observe next, state => (next (store.observe state)).serial store state
  | .transact body next, state =>
    (next (store.transaction body state).1).serial store (store.transaction body state).2

inductive Thread (I : Interface) (σ ρ ε α : Type) : Type 1 where
  | outside (process : Process I ρ ε α)
  | inside {β : Type} (checkpoint : σ) (rest : Program I ε β)
      (next : Except ε β → Process I ρ ε α)

def Thread.IsInside : Thread I σ ρ ε α → Prop
  | .outside _ => False
  | .inside .. => True

structure System (I : Interface) (σ ρ ε α ι : Type) where
  world : σ
  threads : ι → Thread I σ ρ ε α

/-- A process that is settled from the start or consists of one read or one transaction. -/
inductive Process.Atomic : Process I ρ ε α → Prop where
  | settled (result : Except ε α) : Atomic (.settled result)
  | read (finish : ρ → Except ε α) : Atomic (.observe fun seen => .settled (finish seen))
  | transact {β : Type} (body : Program I ε β) (finish : Except ε β → Except ε α) :
      Atomic (.transact body fun result => .settled (finish result))

/-- The store after the processes named by `order` ran one after the other. -/
def serialWorld (store : Store I σ ρ) (processes : ι → Process I ρ ε α) (start : σ) (order : List ι) : σ :=
  order.foldl (fun world i => ((processes i).serial store world).2) start

/-- The processes named by `order` have settled with the results of running them
in that order. -/
def SettledIn (store : Store I σ ρ) (processes : ι → Process I ρ ε α) (start : σ)
    (system : System I σ ρ ε α ι) (order : List ι) : Prop :=
  ∀ earlier i later, order = earlier ++ i :: later → system.threads i =
      .outside (.settled ((processes i).serial store (serialWorld store processes start earlier)).1)

variable {store : Store I σ ρ} {processes : ι → Process I ρ ε α} {start : σ}
  {system after : System I σ ρ ε α ι} {order : List ι} {i : ι}

private theorem settledIn_append (settled : SettledIn store processes start sys order)
    (last : sys.threads i = .outside (.settled
      ((processes i).serial store (serialWorld store processes start order)).1)) :
    SettledIn store processes start sys (order ++ [i]) := by
  intro earlier j later split
  rcases eq_nil_or_concat later with rfl | ⟨front, final, rfl⟩
  · obtain ⟨rfl, same⟩ := append_inj' split rfl
    cases same
    exact last
  · have regrouped : order ++ [i] = (earlier ++ j :: front) ++ [final] := by simpa using split
    exact settled earlier j front (append_inj' regrouped rfl).1

private theorem outside_of_settled (settled : SettledIn store processes start sys order)
    (member : i ∈ order) : ∃ res, sys.threads i = .outside (.settled res) := by
  obtain ⟨earlier, later, split⟩ := append_of_mem member
  exact ⟨_, settled earlier i later split⟩

private theorem serialWorld_snoc (order : List ι) (i : ι) : serialWorld store processes start (order ++ [i]) =
      ((processes i).serial store (serialWorld store processes start order)).2 := by
  simp [serialWorld]

private theorem settledIn_idle
    (idle : ∀ i ∈ extra, ∃ res, (processes i).serial store (serialWorld store processes start order) = (res, serialWorld store processes start order) ∧ sys.threads i = .outside (.settled res))
    (settled : SettledIn store processes start sys order) :
    serialWorld store processes start (order ++ extra) = serialWorld store processes start order ∧
      SettledIn store processes start sys (order ++ extra) := by
  induction extra generalizing order with
  | nil => simpa using settled
  | cons i extra ih =>
    obtain ⟨_, alone, at_rest⟩ := idle i mem_cons_self
    have here : serialWorld store processes start (order ++ [i]) = serialWorld store processes start order := by
      rw [serialWorld_snoc, alone]
    have extended : SettledIn store processes start sys (order ++ [i]) :=
      settledIn_append settled (by rw [at_rest, alone])
    obtain ⟨sameWorld, allSettled⟩ := ih (by
      rw [here]
      exact fun j member => idle j (mem_cons_of_mem _ member)) extended
    rw [append_cons]
    exact ⟨sameWorld.trans here, allSettled⟩

private theorem nodup_snoc (distinct : order.Nodup) (absent : i ∉ order) : (order ++ [i]).Nodup := by
  refine nodup_append.mpr ⟨distinct, by simp, ?_⟩
  rintro j member k last rfl
  exact absent (mem_singleton.mp last ▸ member)

variable [DecidableEq ι]

inductive Step (store : Store I σ ρ) : System I σ ρ ε α ι → System I σ ρ ε α ι → Prop where
  | observe {system : System I σ ρ ε α ι} {i : ι} {next : ρ → Process I ρ ε α}
      (ready : system.threads i = .outside (.observe next)) :
      Step store system { system with
        threads := update system.threads i (.outside (next (store.observe system.world))) }
  | enter {β : Type} {system : System I σ ρ ε α ι} {i : ι} {body : Program I ε β}
      {next : Except ε β → Process I ρ ε α}
      (ready : system.threads i = .outside (.transact body next))
      (free : ∀ j, ¬ (system.threads j).IsInside) :
      Step store system { system with
        threads := update system.threads i (.inside system.world body next) }
  | call {β : Type} {system : System I σ ρ ε α ι} {i : ι} {checkpoint : σ} {request : I.Call}
      {rest : I.Reply request → Program I ε β} {next : Except ε β → Process I ρ ε α}
      (ready : system.threads i = .inside checkpoint (.call request rest) next) :
      Step store system
        { world := (store.answer request system.world).2
          threads := update system.threads i (.inside checkpoint (rest (store.answer request system.world).1) next) }
  | commit {β : Type} {system : System I σ ρ ε α ι} {i : ι} {checkpoint : σ} {value : β}
      {next : Except ε β → Process I ρ ε α}
      (ready : system.threads i = .inside checkpoint (.done value) next) :
      Step store system { system with
        threads := update system.threads i (.outside (next (.ok value))) }
  | abort {β : Type} {system : System I σ ρ ε α ι} {i : ι} {checkpoint : σ} {error : ε}
      {next : Except ε β → Process I ρ ε α}
      (ready : system.threads i = .inside checkpoint (.throw error) next) :
      Step store system
        { world := store.rollback checkpoint system.world
          threads := update system.threads i (.outside (next (.error error))) }

/-- What a reader sees between two calls of a transaction, it also sees before the
transaction or after it. -/
def Steady (store : Store I σ ρ) (processes : ι → Process I ρ ε α) : Prop :=
  ∀ i j (finish : ρ → Except ε α) (β : Type) (body : Program I ε β)
    (respond : Except ε β → Except ε α) (before reached : σ) (rest : Program I ε β),
    processes i = .observe (fun seen => .settled (finish seen)) →
    processes j = .transact body (fun result => .settled (respond result)) →
    Program.Passes store.toInterpreter body before rest reached →
    finish (store.observe reached) = finish (store.observe before) ∨
      finish (store.observe reached) = finish (store.observe (store.transaction body before).2)

/-- The holder of the lock: its checkpoint is the store of the settled processes, and it
has come to `rest` from there. `late` are the readers that already saw what it will
leave. -/
structure Holding (store : Store I σ ρ) (processes : ι → Process I ρ ε α) (start : σ)
    (system : System I σ ρ ε α ι) (order : List ι) (i : ι) (late : List ι) (γ : Type)
    (body rest : Program I ε γ) (respond : Except ε γ → Except ε α) : Prop where
  absent : i ∉ order
  submitted : processes i = .transact body (fun result => .settled (respond result))
  inside : system.threads i =
    .inside (serialWorld store processes start order) rest (fun result => .settled (respond result))
  passes : Program.Passes store.toInterpreter body (serialWorld store processes start order) rest system.world
  lateDistinct : late.Nodup
  lateApart : ∀ j ∈ late, j ∉ order ∧ j ≠ i
  lateSettled : ∀ j ∈ late, ∃ finish : ρ → Except ε α, processes j = .observe (fun seen => .settled (finish seen)) ∧
    system.threads j = .outside (.settled (finish
      (store.observe (store.transaction body (serialWorld store processes start order)).2)))
  others : ∀ j ∉ order, j ≠ i → j ∉ late → system.threads j = .outside (processes j)

/-- Between two steps, either nobody holds the lock and the store is that of the settled
processes in some order, or one process does. -/
def Serialised (store : Store I σ ρ) (processes : ι → Process I ρ ε α) (start : σ)
    (system : System I σ ρ ε α ι) : Prop :=
  ∃ order : List ι, order.Nodup ∧ SettledIn store processes start system order ∧
    ((system.world = serialWorld store processes start order ∧ ∀ i ∉ order, system.threads i = .outside (processes i)) ∨
      ∃ i late γ body rest respond, Holding store processes start system order i late γ body rest respond)

private theorem settledIn_update (absent : i ∉ order) (settled : SettledIn store processes start sys order) :
    SettledIn store processes start ⟨world, update sys.threads i thread⟩ order := by
  intro earlier j later split
  have other : j ≠ i := by
    rintro rfl
    exact absent (by simp [split])
  simpa [update_of_ne other] using settled earlier j later split

variable {γ : Type}

private theorem serialised_of_ended (res : Except ε γ) (distinct : order.Nodup)
    (settled : SettledIn store processes start sys order)
    (holding : Holding store processes start sys order i late γ body rest respond)
    (ended : store.transaction body (serialWorld store processes start order) = (res, world)) :
    Serialised store processes start
      ⟨world, update sys.threads i (.outside (.settled (respond res)))⟩ := by
  have alone : (processes i).serial store (serialWorld store processes start order) = (respond res, world) := by
    simp [holding.submitted, Process.serial, ended]
  have here : serialWorld store processes start (order ++ [i]) = world := by
    rw [serialWorld_snoc, alone]
  have first : SettledIn store processes start
      ⟨world, update sys.threads i (.outside (.settled (respond res)))⟩ (order ++ [i]) :=
    settledIn_append (settledIn_update holding.absent settled) (by simp [alone])
  obtain ⟨sameWorld, allSettled⟩ := settledIn_idle (by
    intro j member
    obtain ⟨finish, reader, at_rest⟩ := holding.lateSettled j member
    refine ⟨finish (store.observe world), ?_, ?_⟩
    · simp [reader, Process.serial, here]
    · simp [update_of_ne (holding.lateApart j member).2, at_rest, ended]) first
  refine ⟨order ++ [i] ++ late, ?_, allSettled, Or.inl ⟨?_, ?_⟩⟩
  · refine nodup_append.mpr ⟨nodup_snoc distinct holding.absent, holding.lateDistinct, ?_⟩
    rintro j early k member rfl
    obtain ⟨apart, other⟩ := holding.lateApart j member
    rcases mem_append.mp early with early | early
    · exact apart early
    · exact other (mem_singleton.mp early)
  · rw [sameWorld, here]
  · intro j fresh
    simp only [mem_append, mem_singleton, not_or] at fresh
    obtain ⟨⟨outside, other⟩, prompt⟩ := fresh
    simp [update_of_ne other, holding.others j outside other prompt]

private theorem serialised_of_read {finish : ρ → Except ε α} (steady : Steady store processes)
    (distinct : order.Nodup) (settled : SettledIn store processes start sys order)
    (holding : Holding store processes start sys order i late γ body rest respond)
    (reader : processes j = .observe fun seen => .settled (finish seen)) (outside : j ∉ order) (other : j ≠ i)
    (prompt : j ∉ late) : Serialised store processes start { sys with
      threads := update sys.threads j (.outside (.settled (finish (store.observe sys.world)))) } := by
  rcases steady j i finish γ body respond _ _ rest reader holding.submitted holding.passes
    with early | seen
  · -- the reader saw the checkpoint: it is settled before the holder
    have alone : (processes j).serial store (serialWorld store processes start order) =
        (finish (store.observe sys.world), serialWorld store processes start order) := by
      simp [reader, Process.serial, early]
    have here : serialWorld store processes start (order ++ [j]) = serialWorld store processes start order := by
      rw [serialWorld_snoc, alone]
    refine ⟨order ++ [j], nodup_snoc distinct outside,
      settledIn_append (settledIn_update outside settled) (by simp [alone]),
      Or.inr ⟨i, late, γ, body, rest, respond, ?_⟩⟩
    exact {
      absent := by simp [holding.absent, Ne.symm other]
      submitted := holding.submitted
      inside := by simp [update_of_ne (Ne.symm other), holding.inside, here]
      passes := by rw [here]; exact holding.passes
      lateDistinct := holding.lateDistinct
      lateApart := by
        intro k member
        obtain ⟨apart, distinctFrom⟩ := holding.lateApart k member
        refine ⟨?_, distinctFrom⟩
        rintro within
        rcases mem_append.mp within with within | within
        · exact apart within
        · exact prompt (mem_singleton.mp within ▸ member)
      lateSettled := by
        intro k member
        have apart : k ≠ j := fun same => prompt (same ▸ member)
        simpa [update_of_ne apart, here] using holding.lateSettled k member
      others := by
        intro k fresh distinctFrom notLate
        simp only [mem_append, mem_singleton, not_or] at fresh
        simp [update_of_ne fresh.2, holding.others k fresh.1 distinctFrom notLate] }
  · refine ⟨order, distinct, settledIn_update outside settled, Or.inr ⟨i, j :: late, γ, body, rest, respond, ?_⟩⟩
    exact {
      absent := holding.absent
      submitted := holding.submitted
      inside := by simp [update_of_ne (Ne.symm other), holding.inside]
      passes := holding.passes
      lateDistinct := nodup_cons.mpr ⟨prompt, holding.lateDistinct⟩
      lateApart := by
        intro k member
        rcases mem_cons.mp member with rfl | member
        · exact ⟨outside, other⟩
        · exact holding.lateApart k member
      lateSettled := by
        intro k member
        by_cases same : k = j
        · subst same
          exact ⟨finish, reader, by simp [seen]⟩
        · have older : k ∈ late := (mem_cons.mp member).resolve_left same
          simpa [update_of_ne same] using holding.lateSettled k older
      others := by
        intro k fresh distinctFrom notLate
        simp only [mem_cons, not_or] at notLate
        simp [update_of_ne notLate.1, holding.others k fresh distinctFrom notLate.2] }

private theorem Holding.call {late : List ι} {respond : Except ε γ → Except ε α} {body : Program I ε γ} {req : I.Call}
    {next : I.Reply req → Program I ε γ}
    (holding : Holding store processes start sys order i late γ body (.call req next) respond) :
    Holding store processes start
      { world := (store.answer req sys.world).2
        threads := update sys.threads i (.inside (serialWorld store processes start order)
          (next (store.answer req sys.world).1) (fun res => .settled (respond res))) }
      order i late γ body (next (store.answer req sys.world).1) respond where
  absent := holding.absent
  submitted := holding.submitted
  inside := by simp
  passes := .call holding.passes
  lateDistinct := holding.lateDistinct
  lateApart := holding.lateApart
  lateSettled := by
    intro j member
    simpa [update_of_ne (holding.lateApart j member).2] using holding.lateSettled j member
  others := by
    intro j outside other prompt
    simp [update_of_ne other, holding.others j outside other prompt]

private theorem serialised_step_idle (atomic : ∀ i, (processes i).Atomic) (distinct : order.Nodup)
    (settled : SettledIn store processes start sys order)
    (here : sys.world = serialWorld store processes start order)
    (waiting : ∀ i ∉ order, sys.threads i = .outside (processes i)) (step : Step store sys after) :
    Serialised store processes start after := by
  -- with the lock free, every thread is where it was submitted or has settled
  have shape : ∀ j, (∃ res, sys.threads j = .outside (.settled res)) ∨
      (j ∉ order ∧ sys.threads j = .outside (processes j)) := fun j =>
    if member : j ∈ order then Or.inl (outside_of_settled settled member)
    else Or.inr ⟨member, waiting j member⟩
  cases step with
  | @observe _ j next ready =>
    rcases shape j with ⟨res, at_rest⟩ | ⟨fresh, as_submitted⟩
    · simp [at_rest] at ready
    rw [as_submitted, Thread.outside.injEq] at ready
    have kind := atomic j
    rw [ready] at kind
    cases kind with
    | read finish =>
      have alone : (processes j).serial store (serialWorld store processes start order) =
          (finish (store.observe sys.world), serialWorld store processes start order) := by
        simp [ready, Process.serial, here]
      refine ⟨order ++ [j], nodup_snoc distinct fresh,
        settledIn_append (settledIn_update fresh settled) (by simp [alone]), Or.inl ⟨?_, ?_⟩⟩
      · rw [serialWorld_snoc, alone, here]
      intro k absent
      simp only [mem_append, mem_singleton, not_or] at absent
      simp [update_of_ne absent.2, waiting k absent.1]
  | @enter β _ j body _ ready =>
    rcases shape j with ⟨res, at_rest⟩ | ⟨fresh, as_submitted⟩
    · simp [at_rest] at ready
    rw [as_submitted, Thread.outside.injEq] at ready
    have kind := atomic j
    rw [ready] at kind
    cases kind with
    | transact body respond =>
      refine ⟨order, distinct, settledIn_update fresh settled, Or.inr ⟨j, [], β, body, body, respond, ?_⟩⟩
      exact {
        absent := fresh
        submitted := ready
        inside := by simp [here]
        passes := by rw [← here]; exact .start
        lateDistinct := nodup_nil
        lateApart := by simp
        lateSettled := by simp
        others := by
          intro k outside other _
          simp [update_of_ne other, waiting k outside] }
  | @call _ _ j =>
    rcases shape j with ⟨res, at_rest⟩ | ⟨_, as_submitted⟩ <;> simp_all
  | @commit _ _ j =>
    rcases shape j with ⟨res, at_rest⟩ | ⟨_, as_submitted⟩ <;> simp_all
  | @abort _ _ j => rcases shape j with ⟨_, _⟩ | ⟨_, _⟩ <;> simp_all

variable (atomic : ∀ i, (processes i).Atomic) (steady : Steady store processes)
include atomic steady

private theorem serialised_step_held (distinct : order.Nodup) (settled : SettledIn store processes start sys order)
    (holding : Holding store processes start sys order i late γ body rest respond) (step : Step store sys after)
    : Serialised store processes start after := by
  -- every thread but the holder's is where it was submitted or has settled
  have shape : ∀ j, j ≠ i → (∃ res, sys.threads j = .outside (.settled res)) ∨
      (j ∉ order ∧ j ∉ late ∧ sys.threads j = .outside (processes j)) := by
    intro j other
    by_cases member : j ∈ order
    · exact Or.inl (outside_of_settled settled member)
    by_cases seen : j ∈ late
    · obtain ⟨finish, _, at_rest⟩ := holding.lateSettled j seen
      exact Or.inl ⟨_, at_rest⟩
    · exact Or.inr ⟨member, seen, holding.others j member other seen⟩
  have inside := holding.inside
  cases step with
  | @observe _ j next ready =>
    by_cases same : j = i
    · subst same
      simp [inside] at ready
    rcases shape j same with ⟨res, at_rest⟩ | ⟨outside, prompt, as_submitted⟩
    · simp [at_rest] at ready
    · rw [as_submitted, Thread.outside.injEq] at ready
      have kind := atomic j
      rw [ready] at kind
      cases kind with
      | read finish => exact serialised_of_read steady distinct settled holding ready outside same prompt
  | @enter _ _ _ _ _ _ free => exact absurd (by simp [inside, Thread.IsInside]) (free i)
  | @call _ _ j _ _ _ _ ready =>
    by_cases same : j = i
    · subst same
      rw [inside] at ready
      cases ready
      exact ⟨order, distinct, settledIn_update holding.absent settled,
        Or.inr ⟨j, late, γ, body, _, respond, holding.call⟩⟩
    · rcases shape j same with ⟨res, at_rest⟩ | ⟨_, _, as_submitted⟩ <;> simp_all
  | @commit _ _ j _ value _ ready =>
    by_cases same : j = i
    · subst same
      rw [inside] at ready
      cases ready
      have sameEnd := holding.passes.exec_eq
      rw [Program.exec_done] at sameEnd
      exact serialised_of_ended (.ok value) distinct settled holding (by simp [Store.transaction, ← sameEnd])
    · rcases shape j same with ⟨res, at_rest⟩ | ⟨_, _, as_submitted⟩ <;> simp_all
  | @abort _ _ j _ error _ ready =>
    by_cases same : j = i
    · subst same
      rw [inside] at ready
      cases ready
      have sameEnd := holding.passes.exec_eq
      rw [Program.exec_throw] at sameEnd
      exact serialised_of_ended (.error error) distinct settled holding (by simp [Store.transaction, ← sameEnd])
    · rcases shape j same with ⟨_, _⟩ | ⟨_, _, _⟩ <;> simp_all

theorem serialised_step (serialised : Serialised store processes start sys) (step : Step store sys after) :
    Serialised store processes start after := by
  obtain ⟨_, distinct, settled, ⟨here, waiting⟩ | ⟨i, _, γ, _, _, _, holding⟩⟩ :=
    serialised
  · exact serialised_step_idle atomic distinct settled here waiting step
  · exact serialised_step_held atomic steady distinct settled holding step

/-- Processes made of one transaction or of one steady read, interleaved in any way and
run until all have settled, leave the store and the results of running them one after
the other in some order. -/
theorem interleaving_is_serial [Fintype ι]
    (run : Relation.ReflTransGen (Step store) ⟨start, fun i => .outside (processes i)⟩ after)
    (finished : ∀ i, ∃ res, after.threads i = .outside (.settled res)) :
    ∃ order : List ι, order.Nodup ∧ (∀ i, i ∈ order) ∧ after.world = serialWorld store processes start order ∧
      SettledIn store processes start after order := by
  have serialised : Serialised store processes start after := by
    clear finished
    induction run with
    | refl => exact ⟨[], nodup_nil, by simp [SettledIn], Or.inl ⟨rfl, fun i _ => rfl⟩⟩
    | tail _ step ih => exact serialised_step atomic steady ih step
  obtain ⟨order, distinct, settled, ⟨here, waiting⟩ | ⟨i, late, γ, _, _, _, holding⟩⟩ :=
    serialised
  · -- the processes that never took a step were settled when submitted and change nothing
    let extra := (Finset.univ.filter (· ∉ order)).toList
    have idle : ∀ i ∈ extra, ∃ res, (processes i).serial store (serialWorld store processes start order) =
          (res, serialWorld store processes start order) ∧
        after.threads i = .outside (.settled res) := by
      intro i member
      have absent : i ∉ order := by simpa [extra] using member
      obtain ⟨res, at_rest⟩ := finished i
      have submitted : processes i = .settled res :=
        Thread.outside.inj ((waiting i absent).symm.trans at_rest)
      exact ⟨res, by simp [submitted, Process.serial], at_rest⟩
    obtain ⟨sameWorld, allSettled⟩ := settledIn_idle idle settled
    refine ⟨order ++ extra, nodup_append.mpr ⟨distinct, Finset.nodup_toList _, ?_⟩, ?_,
      here.trans sameWorld.symm, allSettled⟩
    · rintro i member j late rfl
      have absent : i ∉ order := by simpa [extra] using late
      exact absent member
    · intro i
      by_cases member : i ∈ order <;> simp [extra, member]
  · obtain ⟨_, at_rest⟩ := finished i
    simp [holding.inside] at at_rest

end Applik8s.Lib
