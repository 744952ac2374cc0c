import Mathlib.Logic.Function.Basic
import Applik8s.Lib.Program
import Applik8s.Lib.Run

/-! Any number of callers at once. Each runs a program of its own against one world; every
call is answered in one piece, and between two calls of one caller anything may happen. A
`Conduct` says, phase by phase, which calls a program makes; what the phases of all callers
mean for the world is an invariant that is kept call by call. -/
namespace Applik8s.Lib
open Function (update update_of_ne update_self)
variable {I : Interface} {ε α β σ Choice Op Φ : Type}

structure Server (I : Interface) (σ Choice : Type) where
  answer : (request : I.Call) → Choice → σ → I.Reply request × σ

structure Caller (I : Interface) (ε α Op : Type) where
  operation : Op
  program : Program I ε α

structure Crowd (I : Interface) (σ ε α Op : Type) where
  world : σ
  callers : Nat → Option (Caller I ε α Op) := fun _ => none

inductive CrowdEvent (Op Choice : Type) where
  | start (caller : Nat) (operation : Op)
  | step (caller : Nat) (choice : Choice)
  /-- The caller is gone, wherever it was. -/
  | stop (caller : Nat)

def Crowd.set (crowd : Crowd I σ ε α Op) (caller : Nat) (next : Option (Caller I ε α Op)) :
    Crowd I σ ε α Op :=
  { crowd with callers := update crowd.callers caller next }

def Crowd.advance (server : Server I σ Choice) (body : Op → Program I ε α) (crowd : Crowd I σ ε α Op) :
    CrowdEvent Op Choice → Crowd I σ ε α Op
  | .start caller operation =>
    match crowd.callers caller with
    | none => crowd.set caller (some ⟨operation, body operation⟩)
    | some _ => crowd
  | .step caller choice =>
    match crowd.callers caller with
    | some ⟨operation, .call request next⟩ =>
      { crowd.set caller (some ⟨operation, next (server.answer request choice crowd.world).1⟩) with
        world := (server.answer request choice crowd.world).2 }
    | some _ => crowd.set caller none
    | none => crowd
  | .stop caller => crowd.set caller none

theorem Crowd.advance_world {server : Server I σ Choice} {crowd : Crowd I σ ε α Op} (related : σ → σ → Prop)
    (refl : related crowd.world crowd.world)
    (answered : ∀ caller choice op req rest, event = .step caller choice → crowd.callers caller = some ⟨op, .call req rest⟩ → related crowd.world (server.answer req choice crowd.world).2)
    : related crowd.world (crowd.advance server body event).world := by
  unfold Crowd.advance
  split
  · split <;> exact refl
  · next caller choice =>
    split
    · next op req rest running => exact answered caller choice op req rest rfl running
    · exact refl
    · exact refl
  · exact refl

/-- What a caller asks for next, if anything, is allowed. -/
def Crowd.Asks (crowd : Crowd I σ ε α Op) (caller : Nat) (allowed : I.Call → Prop) : Prop :=
  ∀ operation request rest, crowd.callers caller = some ⟨operation, .call request rest⟩ → allowed request

def Crowd.decideAsks (crowd : Crowd I σ ε α Op) (caller : Nat) {allowed : I.Call → Prop}
    (decides : ∀ request, Decidable (allowed request)) : Decidable (crowd.Asks caller allowed) :=
  match here : crowd.callers caller with
  | some ⟨operation, .call request rest⟩ =>
    match decides request with
    | isTrue holds => isTrue fun _ _ _ same => by rw [here] at same; cases same; exact holds
    | isFalse fails => isFalse fun all => fails (all operation request rest here)
  | some ⟨_, .done _⟩ => isTrue fun _ _ _ same => by rw [here] at same; cases same
  | some ⟨_, .throw _⟩ => isTrue fun _ _ _ same => by rw [here] at same; cases same
  | none => isTrue fun _ _ _ same => by rw [here] at same; cases same

/-- The calls a program may make in each phase, and the phase each answer leads to, as far as
the answers are among those reckoned with. -/
structure Conduct (I : Interface) (Φ : Type) where
  permits : Φ → I.Call → Prop
  answers : (request : I.Call) → I.Reply request → Prop
  after : Φ → (request : I.Call) → I.Reply request → Φ

/-- The program keeps to the conduct, and ends in a phase that satisfies `close`. -/
def Obeys (conduct : Conduct I Φ) (close : Φ → Except ε α → Prop) : Φ → Program I ε α → Prop
  | phase, .done value => close phase (.ok value)
  | phase, .throw error => close phase (.error error)
  | phase, .call request next => conduct.permits phase request ∧
      ∀ reply, conduct.answers request reply → Obeys conduct close (conduct.after phase request reply) (next reply)

section
variable {conduct : Conduct I Φ} {phase : Φ}

theorem obeys_call : Obeys conduct close phase (.call req next) ↔ conduct.permits phase req ∧
      ∀ reply, conduct.answers req reply → Obeys conduct close (conduct.after phase req reply) (next reply) := Iff.rfl

@[simp] theorem obeys_check :
    Obeys conduct close phase (.check out) ↔ close phase out := by
  cases out <;> rfl

theorem obeys_bind {prog : Program I ε β} :
    Obeys conduct close phase (prog >>= next) ↔ Obeys conduct (fun phase res => match res with
        | .ok value => Obeys conduct close phase (next value)
        | .error error => close phase (.error error)) phase prog := by
  change Obeys conduct close phase (prog.bind next) ↔ _
  induction prog generalizing phase with
  | done value => rfl
  | throw error => rfl
  | call _ _ ih =>
    rw [Program.bind, obeys_call, obeys_call]
    exact and_congr_right fun _ => forall₂_congr fun reply _ => ih reply

theorem obeys_request (permitted : conduct.permits phase req)
    (rest : ∀ reply, conduct.answers req reply → Obeys conduct close (conduct.after phase req reply) (next reply)) :
    Obeys conduct close phase (.call req .done >>= next) :=
  ⟨permitted, rest⟩

theorem obeys_check_bind {next : β → Program I ε α} (fails : ∀ error, out = .error error → close phase (.error error))
    (rest : ∀ value, out = .ok value → Obeys conduct close phase (next value)) :
    Obeys conduct close phase (.check out >>= next) := by
  cases out with
  | error error => exact fails error rfl
  | ok value => exact rest value rfl

theorem obeys_attempt {δ : Type} {prog : Program I ε α} {close : Φ → Except δ (Except ε α) → Prop} :
    Obeys conduct close phase (prog.attempt : Program I δ (Except ε α)) ↔
      Obeys conduct (fun phase res => close phase (.ok res)) phase prog := by
  induction prog generalizing phase with
  | done value => rfl
  | throw error => rfl
  | call _ _ ih =>
    rw [Program.attempt, obeys_call, obeys_call]
    exact and_congr_right fun _ => forall₂_congr fun reply _ => ih reply

theorem Obeys.weaken (obeys : Obeys conduct close phase prog)
    (closes : ∀ phase res, close phase res → laxer phase res) : Obeys conduct laxer phase prog := by
  induction prog generalizing phase with
  | done value => exact closes _ _ obeys
  | throw error => exact closes _ _ obeys
  | call _ _ ih => exact ⟨obeys.1, fun reply allowed => ih reply (obeys.2 reply allowed)⟩

/-- A loop that collects keeps to the conduct when each of its iterations does, from phases of one kind. -/
theorem obeys_collect {γ : Type} {items : List β} {iteration : β → Program I ε γ} (holds : Φ → Prop)
    (here : holds phase) (each : ∀ item ∈ items, ∀ phase, holds phase →
      Obeys conduct (fun now _ => holds now) phase (iteration item)) :
    Obeys conduct (fun now _ => holds now) phase (Program.collect items iteration) := by
  induction items generalizing phase with
  | nil => exact here
  | cons item rest ih =>
    refine obeys_bind.mpr ((each item List.mem_cons_self phase here).weaken ?_)
    rintro now (error | _) held
    · exact held
    refine obeys_bind.mpr ((ih held fun item member => each item (List.mem_cons_of_mem _ member)).weaken ?_)
    rintro _ (_ | _) held <;> exact held

end

/-- The callers under way are those that have a phase, and keep to the conduct from it. -/
structure Conducted (conduct : Conduct I Φ) (crowd : Crowd I σ ε α Op)
    (phases : Nat → Option (Op × Φ)) : Prop where
  present : ∀ caller, crowd.callers caller = none ↔ phases caller = none
  obeys : ∀ caller operation program, crowd.callers caller = some ⟨operation, program⟩ →
    ∃ phase, phases caller = some (operation, phase) ∧ Obeys conduct (fun _ _ => True) phase program

def Crowd.Kept (conduct : Conduct I Φ) (invariant : σ → (Nat → Option (Op × Φ)) → Prop)
    (crowd : Crowd I σ ε α Op) : Prop :=
  ∃ phases, Conducted conduct crowd phases ∧ invariant crowd.world phases

section
variable {conduct : Conduct I Φ} {invariant : σ → (Nat → Option (Op × Φ)) → Prop}
  {crowd : Crowd I σ ε α Op} {phases : Nat → Option (Op × Φ)} {server : Server I σ Choice}
  {body : Op → Program I ε α}

theorem kept_empty (holds : invariant world fun _ => none) :
    Crowd.Kept conduct invariant ({ world } : Crowd I σ ε α Op) :=
  ⟨fun _ => none, ⟨by simp, by simp⟩, holds⟩

theorem Conducted.update {world : σ} (conducted : Conducted conduct crowd phases) (agree : next = none ↔ phase = none)
    (obeys : ∀ op prog, next = some ⟨op, prog⟩ → ∃ now, phase = some (op, now) ∧ Obeys conduct (fun _ _ => True) now prog)
    : Conducted conduct { crowd.set caller next with world } (update phases caller phase) := by
  constructor
  · intro other
    by_cases same : other = caller
    · subst same
      simp [Crowd.set, agree]
    · simp [Crowd.set, update_of_ne same, conducted.present other]
  intro other op prog here
  by_cases same : other = caller
  · subst same
    simp only [Crowd.set, update_self] at here ⊢
    exact obeys op prog here
  · simp only [Crowd.set, update_of_ne same] at here ⊢
    exact conducted.obeys other op prog here

/-- What is to be shown of the single calls: the invariant is kept when a caller starts, has a
permitted call answered, or leaves. -/
structure Crowd.Keeps (server : Server I σ Choice) (body : Op → Program I ε α) (conduct : Conduct I Φ)
    (invariant : σ → (Nat → Option (Op × Φ)) → Prop)
    (condition : Crowd I σ ε α Op → CrowdEvent Op Choice → Prop) (initial : Op → Φ) : Prop where
  conducted : ∀ operation, Obeys conduct (fun _ _ => True) (initial operation) (body operation)
  start : ∀ crowd phases caller operation, Conducted conduct crowd phases →
    invariant crowd.world phases → crowd.callers caller = none →
    condition crowd (.start caller operation) →
    invariant crowd.world (update phases caller (some (operation, initial operation)))
  call : ∀ crowd phases caller choice operation phase request next, Conducted conduct crowd phases →
    invariant crowd.world phases → phases caller = some (operation, phase) →
    crowd.callers caller = some ⟨operation, .call request next⟩ →
    conduct.permits phase request → condition crowd (.step caller choice) →
    conduct.answers request (server.answer request choice crowd.world).1 ∧
      invariant (server.answer request choice crowd.world).2 (update phases caller
          (some (operation, conduct.after phase request (server.answer request choice crowd.world).1)))
  leave : ∀ world phases caller, invariant world phases → invariant world (update phases caller none)

theorem Crowd.Keeps.advance (keeps : Crowd.Keeps server body conduct invariant condition initial)
    (event : CrowdEvent Op Choice) (kept : crowd.Kept conduct invariant) (allowed : condition crowd event) :
    (crowd.advance server body event).Kept conduct invariant := by
  obtain ⟨phases, conducted, holds⟩ := kept
  have left : ∀ caller, (crowd.set caller none).Kept conduct invariant := fun caller =>
    ⟨update phases caller none, conducted.update (by simp) (by simp), keeps.leave _ _ caller holds⟩
  cases event with
  | stop caller => exact left caller
  | start caller op =>
    unfold Crowd.advance
    dsimp only
    cases vacant : crowd.callers caller with
    | some => exact ⟨phases, conducted, holds⟩
    | none =>
      refine ⟨_, conducted.update (by simp) ?_, keeps.start crowd phases caller op conducted holds vacant allowed⟩
      intro other prog same
      cases same
      exact ⟨initial op, rfl, keeps.conducted op⟩
  | step caller choice =>
    unfold Crowd.advance
    dsimp only
    cases here : crowd.callers caller with
    | none => exact ⟨phases, conducted, holds⟩
    | some running =>
      obtain ⟨op, prog⟩ := running
      obtain ⟨phase, inPhase, obeys⟩ := conducted.obeys caller op prog here
      cases prog with
      | done value => exact left caller
      | throw error => exact left caller
      | call req next =>
        obtain ⟨answered, after⟩ := keeps.call crowd phases caller choice op phase req next
          conducted holds inPhase here obeys.1 allowed
        refine ⟨_, conducted.update (by simp) ?_, after⟩
        intro other prog same
        cases same
        exact ⟨_, rfl, obeys.2 _ answered⟩

theorem Crowd.Keeps.run (keeps : Crowd.Keeps server body conduct invariant condition initial)
    (kept : crowd.Kept conduct invariant) (each : EachStep (Crowd.advance server body) condition crowd events) :
    (runFrom (Crowd.advance server body) crowd events).Kept conduct invariant :=
  invariant_of_steps (Crowd.Kept conduct invariant)
    (fun _ event held allowed => keeps.advance event held allowed) kept each

private theorem of_update {γ : Type} {phases : Nat → Option γ} {caller other : Nat} {entry : Option γ} {shown : γ}
    (here : update phases caller entry other = some shown) :
    other = caller ∧ entry = some shown ∨ other ≠ caller ∧ phases other = some shown := by
  rw [Function.update_apply] at here
  split at here
  · next same => exact .inl ⟨same, here⟩
  · next apart => exact .inr ⟨apart, here⟩

/-- An invariant of the world, and what each caller knows of it in its phase. -/
def Pointwise (sound : σ → Prop) (agrees : σ → Op → Φ → Prop) (world : σ)
    (phases : Nat → Option (Op × Φ)) : Prop :=
  sound world ∧ ∀ caller operation phase, phases caller = some (operation, phase) → agrees world operation phase

/-- Callers that stand apart: what one is answered leaves what the others know, as long as they stand apart from it. -/
theorem Crowd.keeps_apart {cond : Crowd I σ ε α Op → CrowdEvent Op Choice → Prop} {initial : Op → Φ}
    {sound : σ → Prop} {agrees : σ → Op → Φ → Prop} (apart : Φ → Φ → Prop)
    (symmetric : ∀ one two, apart one two → apart two one)
    (conducted : ∀ op, Obeys conduct (fun _ _ => True) (initial op) (body op))
    (start : ∀ (crowd : Crowd I σ ε α Op) caller op, cond crowd (.start caller op) → sound crowd.world → agrees crowd.world op (initial op))
    (starts : ∀ op phase, apart (initial op) phase)
    (answer : ∀ (crowd : Crowd I σ ε α Op) caller choice op phase req next, crowd.callers caller = some ⟨op, .call req next⟩ → cond crowd (.step caller choice) → sound crowd.world → agrees crowd.world op phase → conduct.permits phase req → conduct.answers req (server.answer req choice crowd.world).1 ∧ sound (server.answer req choice crowd.world).2 ∧ agrees (server.answer req choice crowd.world).2 op (conduct.after phase req (server.answer req choice crowd.world).1) ∧ ∀ operation' other, agrees crowd.world operation' other → apart phase other → agrees (server.answer req choice crowd.world).2 operation' other ∧ apart (conduct.after phase req (server.answer req choice crowd.world).1) other)
    : Crowd.Keeps server body conduct (fun world phases => Pointwise sound agrees world phases ∧
        ∀ one two op operation' phase other, one ≠ two → phases one = some (op, phase) →
          phases two = some (operation', other) → apart phase other) cond initial where
  conducted := conducted
  start crowd phases caller op _ held _ allowed := by
    obtain ⟨⟨kept, knows⟩, distinct⟩ := held
    refine ⟨⟨kept, fun one operation' phase here => ?_⟩, fun one two operation' operation'' phase other ne here there => ?_⟩
    · obtain ⟨rfl, ⟨⟩⟩ | ⟨-, here⟩ := of_update here
      · exact start crowd one op allowed kept
      · exact knows one operation' phase here
    obtain ⟨-, ⟨⟩⟩ | ⟨-, here⟩ := of_update here
    · exact starts op other
    · obtain ⟨-, ⟨⟩⟩ | ⟨-, there⟩ := of_update there
      · exact symmetric _ _ (starts op phase)
      · exact distinct one two _ _ _ _ ne here there
  call crowd phases caller choice op phase req next _ held here running permitted allowed := by
    obtain ⟨⟨sounds, knows⟩, distinct⟩ := held
    obtain ⟨answered, kept, own, others⟩ := answer crowd caller choice op phase req next running allowed
      sounds (knows caller op phase here) permitted
    refine ⟨answered, ⟨kept, fun one operation' phase' there => ?_⟩,
      fun one two operation' operation'' phase' other ne first second => ?_⟩
    · obtain ⟨rfl, ⟨⟩⟩ | ⟨same, there⟩ := of_update there
      · exact own
      · exact (others operation' phase' (knows one operation' phase' there)
          (distinct caller one _ _ _ _ (Ne.symm same) here there)).1
    obtain ⟨rfl, ⟨⟩⟩ | ⟨-, earlier⟩ := of_update first
    · rw [update_of_ne (Ne.symm ne)] at second
      exact (others operation'' other (knows two operation'' other second) (distinct one two _ _ _ _ ne here second)).2
    · obtain ⟨rfl, ⟨⟩⟩ | ⟨-, second⟩ := of_update second
      · exact symmetric _ _ (others operation' phase' (knows one operation' phase' earlier)
          (distinct two one _ _ _ _ (Ne.symm ne) here earlier)).2
      · exact distinct one two _ _ _ _ ne earlier second
  leave world phases caller held := by
    obtain ⟨⟨kept, knows⟩, distinct⟩ := held
    have elsewhere : ∀ one op phase, update phases caller none one = some (op, phase) →
        phases one = some (op, phase) := by
      intro one op phase here
      obtain ⟨-, ⟨⟩⟩ | ⟨-, here⟩ := of_update here
      exact here
    exact ⟨⟨kept, fun one op phase here => knows one op phase (elsewhere one op phase here)⟩,
      fun one two _ _ _ _ ne here there => distinct one two _ _ _ _ ne (elsewhere _ _ _ here) (elsewhere _ _ _ there)⟩

theorem Crowd.keeps_pointwise (follows : σ → σ → Prop)
    (conducted : ∀ op, Obeys conduct (fun _ _ => True) (initial op) (body op))
    (start : ∀ (crowd : Crowd I σ ε α Op) caller op, condition crowd (.start caller op) → sound crowd.world → agrees crowd.world op (initial op))
    (follow : ∀ world world' op phase, agrees world op phase → follows world world' → agrees world' op phase)
    (answer : ∀ (crowd : Crowd I σ ε α Op) caller choice op phase req next, crowd.callers caller = some ⟨op, .call req next⟩ → condition crowd (.step caller choice) → sound crowd.world → agrees crowd.world op phase → conduct.permits phase req → conduct.answers req (server.answer req choice crowd.world).1 ∧ sound (server.answer req choice crowd.world).2 ∧ follows crowd.world (server.answer req choice crowd.world).2 ∧ agrees (server.answer req choice crowd.world).2 op (conduct.after phase req (server.answer req choice crowd.world).1))
    : Crowd.Keeps server body conduct (Pointwise sound agrees) condition initial := by
  have keeps := Crowd.keeps_apart (fun _ _ => True) (fun _ _ => id) conducted start (fun _ _ => trivial)
    fun crowd caller choice op phase req next running allowed kept knows permitted =>
      let ⟨answered, sound, follows, agrees⟩ :=
        answer crowd caller choice op phase req next running allowed kept knows permitted
      ⟨answered, sound, agrees, fun _ _ others _ => ⟨follow _ _ _ _ others follows, trivial⟩⟩
  simpa using keeps

end
end Applik8s.Lib
