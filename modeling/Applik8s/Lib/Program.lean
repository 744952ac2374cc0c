import Mathlib.Logic.Relation

/-! Programs over an interface. A program is a tree of interface calls that ends in a
value or an error; an interpreter answers the calls from a state. The text of a
program is independent of who answers it, so the same body can be executed to the
end or one call at a time (`Applik8s.Lib.Transaction`). -/
namespace Applik8s.Lib
open List

/-- The calls a program may make and what each of them answers. -/
structure Interface where
  Call : Type
  Reply : Call → Type

inductive Program (I : Interface) (ε α : Type) where
  | done (value : α)
  | throw (error : ε)
  | call (request : I.Call) (next : I.Reply request → Program I ε α)

/-- How calls are answered, and what each leaves behind. -/
structure Interpreter (I : Interface) (σ : Type) where
  answer : (request : I.Call) → σ → I.Reply request × σ

theorem bind_ok {ε α β : Type} {first : Except ε α} {next : α → Except ε β} {value : β}
    (done : (first >>= next) = .ok value) : ∃ middle, first = .ok middle ∧ next middle = .ok value := by
  cases first with
  | error => cases done
  | ok middle => exact ⟨middle, rfl, done⟩

theorem bind_of_ok {ε α β : Type} {first : Except ε α} {next : α → Except ε β} {middle : α} {value : β}
    (done : first = .ok middle) (rest : next middle = .ok value) : (first >>= next) = .ok value := by
  rw [done]
  exact rest

namespace Program
variable {I : Interface} {ε α β σ : Type}

def bind : Program I ε α → (α → Program I ε β) → Program I ε β
  | .done value, next => next value
  | .throw error, _ => .throw error
  | .call request after, next => .call request fun reply => (after reply).bind next

instance : Monad (Program I ε) where
  pure := .done
  bind := .bind

def check : Except ε α → Program I ε α
  | .ok value => .done value
  | .error error => .throw error

/-- `try { … } catch (error) { … }`, as a value that tells which. -/
def attempt {δ : Type} : Program I ε α → Program I δ (Except ε α)
  | .done value => .done (.ok value)
  | .throw error => .done (.error error)
  | .call request next => .call request fun reply => (next reply).attempt

/-- `for (const item of items) await body(item)`. -/
def forEach : List α → (α → Program I ε Unit) → Program I ε Unit
  | [], _ => .done ()
  | item :: rest, body => (body item).bind fun _ => forEach rest body

def collect : List α → (α → Program I ε β) → Program I ε (List β)
  | [], _ => .done []
  | item :: rest, body => (body item).bind fun value => (collect rest body).bind fun values => .done (value :: values)

/-- Runs a program to its end. The state is the one its last call left, also
when it throws: undoing anything is the caller's business. -/
def exec (interpreter : Interpreter I σ) : Program I ε α → σ → Except ε α × σ
  | .done value, state => (.ok value, state)
  | .throw error, state => (.error error, state)
  | .call request next, state =>
    exec interpreter (next (interpreter.answer request state).1) (interpreter.answer request state).2

/-- How a program may end when its calls are answered in one of the ways allowed. -/
def MayEnd (answers : (request : I.Call) → I.Reply request → Prop) : Program I ε α → Except ε α → Prop
  | .done value, result => result = .ok value
  | .throw error, result => result = .error error
  | .call request next, result => ∃ reply, answers request reply ∧ (next reply).MayEnd answers result

variable {next : α → Program I ε β}

theorem mayEnd_bind : (prog >>= next).MayEnd answers res ↔ ∃ first, prog.MayEnd answers first ∧
      match first with
      | .ok value => (next value).MayEnd answers res
      | .error error => res = .error error := by
  change (prog.bind next).MayEnd answers res ↔ _
  induction prog with
  | done value => simp [bind, MayEnd]
  | throw error => simp [bind, MayEnd]
  | call _ _ ih =>
    simp only [bind, MayEnd, ih]
    exact ⟨fun ⟨reply, allowed, first, ended, rest⟩ => ⟨first, ⟨reply, allowed, ended⟩, rest⟩,
      fun ⟨first, ⟨reply, allowed, ended⟩, rest⟩ => ⟨reply, allowed, first, ended, rest⟩⟩

@[simp] theorem mayEnd_pure :
    (pure value : Program I ε α).MayEnd answers res ↔ res = .ok value := Iff.rfl

@[simp] theorem mayEnd_throw :
    (throw error : Program I ε α).MayEnd answers res ↔ res = .error error := Iff.rfl

@[simp] theorem mayEnd_check :
    (check out : Program I ε α).MayEnd answers res ↔ res = out := by
  cases out <;> rfl

theorem MayEnd.mono {prog : Program I ε α} (ends : prog.MayEnd answers res)
    (allowed : ∀ req reply, answers req reply → wider req reply) : prog.MayEnd wider res := by
  induction prog with
  | done value => exact ends
  | throw error => exact ends
  | call req next ih =>
    obtain ⟨reply, answered, rest⟩ := ends
    exact ⟨reply, allowed req reply answered, ih reply rest⟩

theorem mayEnd_attempt {answers : (req : I.Call) → I.Reply req → Prop} {δ : Type} {prog : Program I ε α}
    {res : Except δ (Except ε α)} : (prog.attempt : Program I δ (Except ε α)).MayEnd answers res ↔
      ∃ came, prog.MayEnd answers came ∧ res = .ok came := by
  induction prog with
  | done value => simp [attempt, MayEnd]
  | throw error => simp [attempt, MayEnd]
  | call _ _ ih =>
    simp only [attempt, MayEnd, ih]
    exact ⟨fun ⟨reply, allowed, came, ended, same⟩ => ⟨came, ⟨reply, allowed, ended⟩, same⟩,
      fun ⟨came, ⟨reply, allowed, ended⟩, same⟩ => ⟨reply, allowed, came, ended, same⟩⟩

variable {interpreter : Interpreter I σ} {state before after : σ}

@[simp] theorem exec_pure (value : α) : exec interp (pure value : Program I ε α) state = (.ok value, state) := rfl
@[simp] theorem exec_done (value : α) : exec interp (.done value : Program I ε α) state = (.ok value, state) := rfl

@[simp] theorem exec_throw (error : ε) :
    exec interp (.throw error : Program I ε α) state = (.error error, state) := rfl

@[simp] theorem exec_check (out : Except ε α) : exec interp (check out) state = (out, state) := by
  cases out <;> rfl

theorem exec_attempt {δ : Type} (prog : Program I ε α) (state : σ) :
    exec interp (prog.attempt : Program I δ (Except ε α)) state =
      (.ok (exec interp prog state).1, (exec interp prog state).2) := by
  induction prog generalizing state with
  | done value => rfl
  | throw error => rfl
  | call _ _ ih => exact ih _ _

theorem exec_bind (prog : Program I ε α) (next : α → Program I ε β) (state : σ) : exec interp (prog >>= next) state =
      match exec interp prog state with
      | (.ok value, state) => exec interp (next value) state
      | (.error error, state) => (.error error, state) := by
  induction prog generalizing state with
  | done value => rfl
  | throw error => rfl
  | call _ _ ih => exact ih _ _

theorem exec_bind_ok : exec interp (prog >>= next) before = (.ok value, after) ↔
      ∃ first middle, exec interp prog before = (.ok first, middle) ∧
        exec interp (next first) middle = (.ok value, after) := by
  rw [exec_bind]
  generalize exec interp prog before = out
  obtain ⟨first | first, middle⟩ := out
  · simp
  constructor
  · exact fun ran => ⟨first, middle, rfl, ran⟩
  · rintro ⟨_, _, same, ran⟩
    cases same
    exact ran

theorem exec_check_bind_ok : exec interp (check out >>= next) before = (.ok value, after) ↔
      ∃ first, out = .ok first ∧ exec interp (next first) before = (.ok value, after) := by
  cases out <;> simp [exec_bind]

theorem exec_forEach_bind_ok {next : Unit → Program I ε β} :
    exec interp (forEach items body >>= next) before = (.ok value, after) ↔
      ∃ middle, exec interp (forEach items body) before = (.ok (), middle) ∧
        exec interp (next ()) middle = (.ok value, after) := by
  rw [exec_bind_ok]
  exact ⟨fun ⟨_, middle, ran⟩ => ⟨middle, ran⟩, fun ⟨middle, ran⟩ => ⟨(), middle, ran⟩⟩

theorem exec_forEach_cons (item : α) (rest : List α) (body : α → Program I ε Unit) :
    exec interp (forEach (item :: rest) body) state =
      exec interp (body item >>= fun _ => forEach rest body) state := rfl

theorem exec_collect_cons (item : α) (rest : List α) (body : α → Program I ε β) :
    exec interp (collect (item :: rest) body) state = exec interp (body item >>= fun value =>
        collect rest body >>= fun values => pure (value :: values)) state := rfl

theorem exec_forEach_stationary (still : ∀ item ∈ items, exec interp (body item) state = (.ok (), state)) :
    exec interp (forEach items body) state = (.ok (), state) := by
  induction items with
  | nil => rfl
  | cons item rest ih =>
    rw [exec_forEach_cons, exec_bind, still item mem_cons_self]
    exact ih fun item member => still item (mem_cons_of_mem _ member)

/-- An iteration that can only fail or do nothing makes a loop that can only fail
or do nothing, and a completed one passed every iteration. -/
theorem forEach_stationary_ok (still : ∀ item ∈ items, (exec interp (body item) state).2 = state)
    (ran : exec interp (forEach items body) state = (.ok (), after)) :
    after = state ∧ ∀ item ∈ items, exec interp (body item) state = (.ok (), state) := by
  induction items with
  | nil =>
    cases ran
    simp
  | cons item rest ih =>
    rw [exec_forEach_cons, exec_bind_ok] at ran
    obtain ⟨_, _, first, later⟩ := ran
    have stays := still item mem_cons_self
    rw [first] at stays
    subst stays
    obtain ⟨same, passed⟩ := ih (fun item member => still item (mem_cons_of_mem _ member)) later
    refine ⟨same, fun item member => ?_⟩
    rcases mem_cons.mp member with rfl | member
    · exact first
    · exact passed item member

/-! ### What holds wherever an execution stops -/

section
variable {kept : σ → Prop}

theorem bind_keeps (first : kept (exec interp prog state).2)
    (rest : ∀ value middle, exec interp prog state = (.ok value, middle) → kept middle → kept (exec interp (next value) middle).2)
    : kept (exec interp (prog >>= next) state).2 := by
  rw [exec_bind]
  generalize ran : exec interp prog state = out at first
  obtain ⟨_ | value, middle⟩ := out
  · exact first
  · exact rest value middle ran first

theorem check_bind_keeps (holds : kept state)
    (rest : ∀ value, out = .ok value → kept (exec interp (next value) state).2) :
    kept (exec interp (check out >>= next) state).2 := by
  cases out with
  | error error => exact holds
  | ok value => exact rest value rfl

theorem forEach_keeps (each : ∀ item ∈ items, ∀ state, kept state → kept (exec interp (body item) state).2)
    (holds : kept state) : kept (exec interp (forEach items body) state).2 := by
  induction items generalizing state with
  | nil => exact holds
  | cons item rest ih =>
    rw [exec_forEach_cons]
    exact bind_keeps (each item mem_cons_self state holds) fun _ middle _ reached =>
      ih (fun item member => each item (mem_cons_of_mem _ member)) reached

theorem collect_keeps {body : α → Program I ε β}
    (each : ∀ item ∈ items, ∀ state, kept state → kept (exec interp (body item) state).2) (holds : kept state)
    : kept (exec interp (collect items body) state).2 := by
  induction items generalizing state with
  | nil => exact holds
  | cons item rest ih =>
    rw [exec_collect_cons]
    refine bind_keeps (each item mem_cons_self state holds) fun _ middle _ reached => ?_
    exact bind_keeps (ih (fun item member => each item (mem_cons_of_mem _ member)) reached) fun _ _ _ ended => ended

end

theorem forEach_ok_each {kept : σ → Prop}
    (each : ∀ item ∈ items, ∀ state, kept state → kept (exec interp (body item) state).2) (holds : kept before)
    (ran : exec interp (forEach items body) before = (.ok (), after)) :
    ∀ item ∈ items, ∃ here later, kept here ∧ exec interp (body item) here = (.ok (), later) := by
  induction items generalizing before with
  | nil => simp
  | cons item rest ih =>
    rw [exec_forEach_cons, exec_bind_ok] at ran
    obtain ⟨_, middle, first, later⟩ := ran
    have reached : kept middle := by
      have kept_first := each item mem_cons_self before holds
      rwa [first] at kept_first
    intro other member
    rcases mem_cons.mp member with rfl | member
    · exact ⟨before, middle, holds, first⟩
    · exact ih (fun item member => each item (mem_cons_of_mem _ member)) reached later other member

theorem forEach_ok_keeps (kept : σ → Prop)
    (each : ∀ item ∈ items, ∀ here there, exec interp (body item) here = (.ok (), there) → kept here → kept there)
    (holds : kept before) (ran : exec interp (forEach items body) before = (.ok (), after)) : kept after := by
  induction items generalizing before with
  | nil =>
    cases ran
    exact holds
  | cons item rest ih =>
    rw [exec_forEach_cons, exec_bind_ok] at ran
    obtain ⟨_, middle, first, later⟩ := ran
    have reached : kept middle := each item mem_cons_self before middle first holds
    exact ih (fun item member => each item (mem_cons_of_mem _ member)) reached later

/-- What every completed iteration establishes of its item and keeps of the others holds
of all items once the loop is completed. -/
theorem forEach_ok_all (reached : α → σ → Prop)
    (establishes : ∀ item here there, exec interp (body item) here = (.ok (), there) → reached item there)
    (keeps : ∀ other item here there, exec interp (body item) here = (.ok (), there) → reached other here → reached other there)
    (ran : exec interp (forEach items body) before = (.ok (), after)) : ∀ item ∈ items, reached item after := by
  induction items generalizing before with
  | nil => simp
  | cons first rest ih =>
    rw [exec_forEach_cons, exec_bind_ok] at ran
    obtain ⟨_, middle, ranFirst, ranRest⟩ := ran
    intro item member
    rcases mem_cons.mp member with rfl | member
    · exact forEach_ok_keeps (reached item) (fun other _ => keeps item other)
        (establishes item before middle ranFirst) ranRest
    · exact ih ranRest item member

theorem forEach_filter : forEach items (fun item => if chosen item = true then body item else pure ()) =
      forEach (items.filter chosen) body := by
  induction items with
  | nil => rfl
  | cons item rest ih =>
    by_cases picked : chosen item = true
    · rw [filter_cons_of_pos picked]
      simp [forEach, picked, if_true, ih]
    rw [filter_cons_of_neg picked, ← ih]
    simp only [forEach, picked]
    rfl

/-! ### Which calls a program makes -/

/-- Every call a program can make satisfies `allowed`. -/
def MakesOnly (allowed : I.Call → Prop) : Program I ε α → Prop
  | .done _ => True
  | .throw _ => True
  | .call request next => allowed request ∧ ∀ reply, (next reply).MakesOnly allowed

/-- From here a program can neither throw nor make a call that `touches`. -/
def Concludes (touches : I.Call → Prop) : Program I ε α → Prop
  | .done _ => True
  | .throw _ => False
  | .call request next => ¬ touches request ∧ ∀ reply, (next reply).Concludes touches

/-- A program that is done with its checks once it makes a call that `touches`. -/
def TouchesLast (touches : I.Call → Prop) : Program I ε α → Prop
  | .done _ => True
  | .throw _ => True
  | .call request next =>
    (∀ reply, (next reply).Concludes touches) ∨ (¬ touches request ∧ ∀ reply, (next reply).TouchesLast touches)

section
variable {program : Program I ε α}

theorem makesOnly_bind (first : prog.MakesOnly allowed) (rest : ∀ value, (next value).MakesOnly allowed) :
    (prog >>= next).MakesOnly allowed := by
  induction prog with
  | done value => exact rest value
  | throw error => trivial
  | call _ _ ih => exact ⟨first.1, fun reply => ih reply (first.2 reply)⟩

theorem makesOnly_check (out : Except ε α) : (check out : Program I ε α).MakesOnly allowed := by
  cases out <;> trivial

theorem makesOnly_checked (rest : ∀ value, (next value).MakesOnly allowed) :
    (check out >>= next : Program I ε β).MakesOnly allowed :=
  makesOnly_bind (makesOnly_check out) rest

theorem makesOnly_forEach {body : α → Program I ε Unit} (each : ∀ item, (body item).MakesOnly allowed)
    : (forEach items body).MakesOnly allowed := by
  induction items with
  | nil => trivial
  | cons item rest ih => exact makesOnly_bind (each item) fun _ => ih

theorem makesOnly_collect {body : α → Program I ε β} (each : ∀ item, (body item).MakesOnly allowed)
    : (collect items body).MakesOnly allowed := by
  induction items with
  | nil => trivial
  | cons item rest ih => exact makesOnly_bind (each item) fun _ => makesOnly_bind ih fun _ => trivial

theorem makesOnly_imp (implied : ∀ request, stricter request → allowed request) (only : program.MakesOnly stricter)
    : program.MakesOnly allowed := by
  induction program with
  | done value => trivial
  | throw error => trivial
  | call request after ih => exact ⟨implied request only.1, fun reply => ih reply (only.2 reply)⟩

theorem makesOnly_any (prog : Program I ε α) : prog.MakesOnly fun _ => True := by
  induction prog with
  | done value => trivial
  | throw error => trivial
  | call _ _ ih => exact ⟨trivial, ih⟩

theorem concludes_bind (first : prog.Concludes touches) (rest : ∀ value, (next value).Concludes touches) :
    (prog >>= next).Concludes touches := by
  induction prog with
  | done value => exact rest value
  | throw error => exact first
  | call _ _ ih => exact ⟨first.1, fun reply => ih reply (first.2 reply)⟩

theorem touchesLast_bind (first : prog.MakesOnly fun req => ¬ touches req)
    (rest : ∀ value, (next value).TouchesLast touches) : (prog >>= next).TouchesLast touches := by
  induction prog with
  | done value => exact rest value
  | throw error => trivial
  | call _ _ ih => exact Or.inr ⟨first.1, fun reply => ih reply (first.2 reply)⟩

theorem touchesLast_of_makesOnly (only : program.MakesOnly fun request => ¬ touches request) :
    program.TouchesLast touches := by
  induction program with
  | done value => trivial
  | throw error => trivial
  | call _ _ ih => exact Or.inr ⟨only.1, fun reply => ih reply (only.2 reply)⟩

/-- What relates every call a program may make to its answer relates any execution of
the program to its start, however it ends. -/
theorem exec_relates (related : σ → σ → Prop) (refl : ∀ state, related state state)
    (trans : ∀ {first second third}, related first second → related second third → related first third)
    (each : ∀ request, allowed request → ∀ state, related state (interpreter.answer request state).2)
    (only : program.MakesOnly allowed) (state : σ) : related state (exec interpreter program state).2 := by
  induction program generalizing state with
  | done value => exact refl state
  | throw error => exact refl state
  | call request next ih => exact trans (each request only.1 state) (ih _ (only.2 _) _)

end

/-! ### The states a program passes through -/

/-- Executing `program` from `state` comes to `rest` with `reached` in between two calls. -/
inductive Passes (interpreter : Interpreter I σ) (program : Program I ε α) (state : σ) :
    Program I ε α → σ → Prop where
  | start : Passes interpreter program state program state
  | call {request : I.Call} {next : I.Reply request → Program I ε α} {reached : σ}
      (before : Passes interpreter program state (.call request next) reached) :
      Passes interpreter program state (next (interpreter.answer request reached).1)
        (interpreter.answer request reached).2

theorem Passes.exec_eq (passes : Passes interp prog state rest reached) :
    exec interp rest reached = exec interp prog state := by
  induction passes with
  | start => rfl
  | call before ih => exact ih

section
variable {ν : Type}

private theorem exec_of_concludes {view : σ → ν}
    (kept : ∀ request, ¬ touches request → ∀ state, view (interpreter.answer request state).2 = view state)
    (concludes : program.Concludes touches) (state : σ) :
    ∃ value after, exec interpreter program state = (.ok value, after) ∧ view after = view state := by
  induction program generalizing state with
  | done value => exact ⟨value, state, rfl, rfl⟩
  | throw error => exact concludes.elim
  | call request next ih =>
    obtain ⟨value, after, ran, same⟩ := ih _ (concludes.2 _) (interpreter.answer request state).2
    exact ⟨value, after, ran, same.trans (kept request concludes.1 state)⟩

/-- A program that touches a view last shows, between any two of its calls, the view it
started from, or it succeeds with the view it shows. -/
theorem Passes.view_or (view : σ → ν)
    (kept : ∀ request, ¬ touches request → ∀ state, view (interpreter.answer request state).2 = view state)
    (last : program.TouchesLast touches) (passes : Passes interpreter program state rest reached) :
    view reached = view state ∨
      ∃ value after, exec interpreter program state = (.ok value, after) ∧ view reached = view after := by
  -- along the way the rest either still touches last from the starting view, or concludes
  have shape : (rest.TouchesLast touches ∧ view reached = view state) ∨ rest.Concludes touches := by
    induction passes with
    | start => exact Or.inl ⟨last, rfl⟩
    | @call request _ reached _ ih =>
      rcases ih with ⟨concludes | ⟨untouched, later⟩, same⟩ | concludes
      · exact Or.inr (concludes _)
      · exact Or.inl ⟨later _, (kept request untouched reached).trans same⟩
      · exact Or.inr (concludes.2 _)
  rcases shape with ⟨_, same⟩ | concludes
  · exact Or.inl same
  · obtain ⟨value, after, ran, same⟩ := exec_of_concludes kept concludes reached
    exact Or.inr ⟨value, after, by rw [← passes.exec_eq, ran], same.symm⟩

end
end Program
end Applik8s.Lib
