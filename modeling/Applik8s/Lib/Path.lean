import Applik8s.Lib.Crowd

/-! Programs that carry one work forward, whoever has begun it. The states that the work goes through
lie on a path; wherever on the path a call is answered, it is left somewhere further on, or where it
was. Then any number of callers, each of them stopping anywhere, keep to the path together. -/
namespace Applik8s.Lib
variable {I : Interface} {ε α β σ Op : Type}

/-- From `place` on, every permitted call leaves the world on the path, no further back; the program
does not throw, and ends as `post` says. -/
def Treads (interpreter : Interpreter I σ) (path : Nat → σ) (permits : σ → I.Call → Prop)
    (post : α → Nat → Prop) : Nat → Program I ε α → Prop
  | place, .done value => post value place
  | _, .throw _ => False
  | place, .call request next => ∀ later, place ≤ later → permits (path later) request →
      ∃ reached, later ≤ reached ∧ (interpreter.answer request (path later)).2 = path reached ∧
        Treads interpreter path permits post reached (next (interpreter.answer request (path later)).1)

theorem treads_check (passes : out = .ok value) (ends : post value place)
    : Treads interp path permits post place (.check out) := by
  subst passes
  exact ends

theorem treads_bind (between : β → Nat → Prop) (first : Treads interp path permits between place prog)
    (rest : ∀ value reached, between value reached → Treads interp path permits post reached (next value)) :
    Treads interp path permits post place (prog >>= next) := by
  induction prog generalizing place with
  | done value => exact rest value place first
  | throw error => exact first.elim
  | call _ _ ih =>
    intro later since permitted
    obtain ⟨reached, further, left, treads⟩ := first later since permitted
    exact ⟨reached, further, left, ih _ treads⟩

theorem treads_check_bind {next : β → Program I ε α} (passes : out = .ok value)
    (rest : Treads interp path permits post place (next value)) :
    Treads interp path permits post place (.check out >>= next) := by
  subst passes
  exact rest

section
def Interpreter.server (interpreter : Interpreter I σ) : Server I σ Unit where
  answer request _ world := interpreter.answer request world

variable {path : Nat → σ} {permits : σ → I.Call → Prop} {post : α → Nat → Prop}

/-- Every caller treads on from a place that the world has passed. -/
structure Crowd.OnPath (interpreter : Interpreter I σ) (path : Nat → σ) (permits : σ → I.Call → Prop)
    (post : α → Nat → Prop) (crowd : Crowd I σ ε α Op) (place : Nat) : Prop where
  world : crowd.world = path place
  callers : ∀ caller operation program, crowd.callers caller = some ⟨operation, program⟩ →
    ∃ since ≤ place, Treads interpreter path permits post since program

def Crowd.Permitted (permits : σ → I.Call → Prop) (crowd : Crowd I σ ε α Op)
    (event : CrowdEvent Op Unit) : Prop :=
  ∀ caller, event = .step caller () → crowd.Asks caller (permits crowd.world)

variable {crowd : Crowd I σ ε α Op}

theorem Crowd.onPath_set {interp : Interpreter I σ} {place reached : Nat}
    (on : crowd.OnPath interp path permits post place) (further : place ≤ reached) (caller : Nat)
    (next : Option (Caller I ε α Op))
    (treads : ∀ op prog, next = some ⟨op, prog⟩ → ∃ since ≤ reached, Treads interp path permits post since prog) :
    ({ crowd.set caller next with world := path reached } : Crowd I σ ε α Op).OnPath interp path
      permits post reached where
  world := rfl
  callers other op prog here := by
    by_cases same : other = caller
    · subst same
      simp only [Crowd.set, Function.update_self] at here
      exact treads op prog here
    · simp only [Crowd.set, Function.update_of_ne same] at here
      obtain ⟨since, passed, treads⟩ := on.callers other op prog here
      exact ⟨since, Nat.le_trans passed further, treads⟩

theorem Crowd.OnPath.advance (on : crowd.OnPath interp path permits post place)
    (treads : ∀ op, Treads interp path permits post 0 (body op)) (permitted : crowd.Permitted permits event)
    : ∃ reached, place ≤ reached ∧
      (crowd.advance interp.server body event).OnPath interp path permits post reached := by
  have leaving : ∀ caller, (crowd.set caller none).OnPath interp path permits post place := by
    intro caller
    have left := Crowd.onPath_set on Nat.le.refl caller none nofun
    rwa [← on.world] at left
  cases event with
  | start caller op =>
    refine ⟨place, Nat.le.refl, ?_⟩
    unfold Crowd.advance
    dsimp only
    split
    · have begun := Crowd.onPath_set on Nat.le.refl caller (some ⟨op, body op⟩) ?_
      · rwa [← on.world] at begun
      · rintro _ _ same
        cases same
        exact ⟨0, Nat.zero_le _, treads op⟩
    · exact on
  | stop caller => exact ⟨place, Nat.le.refl, leaving caller⟩
  | step caller choice =>
    unfold Crowd.advance
    dsimp only
    split
    · next op req next here =>
      obtain ⟨_, passed, prog⟩ := on.callers caller op _ here
      have may := permitted caller rfl op req next here
      rw [on.world] at may
      obtain ⟨reached, further, left, rest⟩ := prog place passed may
      refine ⟨reached, further, ?_⟩
      rw [on.world]
      have answered := Crowd.onPath_set on further caller (some ⟨op,
        next (interp.answer req (path place)).1⟩) ?_
      · rw [← left] at answered
        exact answered
      rintro _ _ same
      cases same
      exact ⟨reached, Nat.le.refl, rest⟩
    · exact ⟨place, Nat.le.refl, leaving caller⟩
    · exact ⟨place, Nat.le.refl, on⟩

theorem Crowd.OnPath.run (on : crowd.OnPath interp path permits post place)
    (treads : ∀ op, Treads interp path permits post 0 (body op))
    (each : EachStep (Crowd.advance interp.server body) (Crowd.Permitted permits) crowd events) :
    ∃ reached, place ≤ reached ∧ (runFrom (Crowd.advance interp.server body) crowd events).OnPath interp path permits
        post reached := by
  induction events generalizing crowd place with
  | nil => exact ⟨place, Nat.le.refl, on⟩
  | cons event rest ih =>
    obtain ⟨_, further, on⟩ := on.advance treads each.1
    obtain ⟨reached, onward, on⟩ := ih on each.2
    exact ⟨reached, Nat.le_trans further onward, on⟩

end
end Applik8s.Lib
