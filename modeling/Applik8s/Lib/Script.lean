import Applik8s.Lib.Crowd

/-! One program after another, each answered by a script: a choice for every call, and where the script ends the
program is gone. What a program that keeps to a conduct leaves agrees with the phase it came to. -/
namespace Applik8s.Lib
variable {I : Interface} {ε α σ Choice Φ : Type}

/-- The outcome, unless the script ended first, and the state that is left. -/
def Server.play (server : Server I σ Choice) : Program I ε α → List Choice → σ → Option (Except ε α) × σ
  | .done value, _, state => (some (.ok value), state)
  | .throw error, _, state => (some (.error error), state)
  | .call _ _, [], state => (none, state)
  | .call request next, choice :: script, state =>
    server.play (next (server.answer request choice state).1) script (server.answer request choice state).2

variable (server : Server I σ Choice)

theorem Server.play_keeps {agrees : Φ → σ → Prop}
    (answers : ∀ phase req choice state, agrees phase state → conduct.permits phase req → conduct.answers req (server.answer req choice state).1 ∧ agrees (conduct.after phase req (server.answer req choice state).1) (server.answer req choice state).2)
    (obeys : Obeys conduct close phase prog) (script : List Choice) (here : agrees phase state) :
    ∃ now, agrees now (server.play prog script state).2 ∧
      ∀ res, (server.play prog script state).1 = some res → close now res := by
  induction prog generalizing phase state script with
  | done value => exact ⟨phase, here, fun res is => Option.some.inj is ▸ obeys⟩
  | throw error => exact ⟨phase, here, fun res is => Option.some.inj is ▸ obeys⟩
  | call req next ih =>
    cases script with
    | nil => exact ⟨phase, here, fun _ is => nomatch is⟩
    | cons choice script =>
      obtain ⟨answered, there⟩ := answers phase req choice state here obeys.1
      exact ih _ (obeys.2 _ answered) script there

end Applik8s.Lib
