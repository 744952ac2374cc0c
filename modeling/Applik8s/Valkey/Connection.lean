import Applik8s.Lib.Run
import Applik8s.Platform
import Applik8s.Valkey.RespProofs

/-! A lane of `valkey-protocol.ts`, an `ApplicationValkeyConnection`: the commands that wait for it, the
exchange that is under way, and what the server has written to its socket and has not arrived. A lane does one
thing at a time; data that arrives while nobody listens is lost. -/
namespace Applik8s.Valkey
open Lib List Bool

/-- A command as it is sent. Its arguments are given as `String` writes them. -/
structure Command where
  parts : List String
  password : Option String := none
  asking : Bool := false

def encodeResp (parts : List String) : List UInt8 :=
  encode s!"*{parts.length}\r\n".toList ++ parts.flatMap fun part =>
    encode s!"${byteLength part.toList}\r\n".toList ++ encode part.toList ++ encode "\r\n".toList

/-- The arguments of `execute`. -/
structure Exchange where
  payload : List UInt8
  responses : Nat

def sendValkeyCommand (command : Command) : Exchange :=
  let commands := (match whenTruthy command.password with
    | some password => [encodeResp ["AUTH", password]]
    | none => []) ++ (if command.asking then [encodeResp ["ASKING"]] else []) ++ [encodeResp command.parts]
  ⟨commands.flatten, commands.length⟩

theorem responses_pos (cmd : Command) : 0 < (sendValkeyCommand cmd).responses := by
  simp [sendValkeyCommand]

/-- How the promise of an exchange is settled; `lost` where the socket fails or the time is up. -/
inductive Outcome where
  | resolved (value : ValkeyResponse)
  | rejected (failure : Failure)
  | lost

/-- `#exchange` between two chunks, and what the server replies to its commands. -/
structure Flight where
  replies : List Reply
  buffer : List UInt8 := []
  remaining : Nat
  lastResponse : ValkeyResponse := .null

structure Settled where
  replies : List Reply
  outcome : Outcome

structure Lane where
  waiting : List Command := []
  flight : Option Flight := none
  /-- What has been written to the socket, if there is one. -/
  socket : Option (List UInt8) := none
  /-- What the server has written to it that has not arrived. -/
  wire : List UInt8 := []
  settled : List Settled := []

namespace Lane
variable (lane : Lane)

def discard : Lane := { lane with socket := none, wire := [] }

def settle (flight : Flight) (outcome : Outcome) : Lane :=
  { lane with flight := none, settled := ⟨flight.replies, outcome⟩ :: lane.settled }

end Lane

inductive Event where
  | execute (command : Command)
  /-- The next command gets the lane, and a socket. The server has its replies to it written in order. -/
  | start (replies : List Reply)
  /-- The next command gets the lane, and no socket. -/
  | refuse
  /-- So many bytes arrive as one chunk. -/
  | data (count : Nat)
  /-- The socket is closed, or fails, or the time is up. -/
  | fail

def Lane.next (lane : Lane) : Event → Lane
  | .execute command => { lane with waiting := lane.waiting ++ [command] }
  | .start replies =>
    match lane.flight, lane.waiting with
    | none, command :: rest =>
      let exchange := sendValkeyCommand command
      if replies.length = exchange.responses then
        { lane with
          waiting := rest
          flight := some { replies, remaining := exchange.responses }
          socket := some (lane.socket.getD [] ++ exchange.payload)
          wire := lane.wire ++ resp.stream replies }
      else lane
    | _, _ => lane
  | .refuse =>
    match lane.flight, lane.socket, lane.waiting with
    | none, none, _ :: rest => { lane with waiting := rest, settled := ⟨[], .lost⟩ :: lane.settled }
    | _, _, _ => lane
  | .data count =>
    let arrived := { lane with wire := lane.wire.drop count }
    match lane.flight with
    | none => arrived
    | some flight =>
      match drain parseResp flight.remaining flight.lastResponse (flight.buffer ++ lane.wire.take count) with
      | .resolved value => arrived.settle flight (.resolved value)
      | .rejected failure => (if failure.isServer then arrived else arrived.discard).settle flight (.rejected failure)
      | .pending remaining lastResponse buffer =>
        { arrived with flight := some { flight with buffer, remaining, lastResponse } }
  | .fail =>
    match lane.flight with
    | none => lane.discard
    | some flight => lane.discard.settle flight .lost

/-- An exchange is settled with what the replies to its own commands come to, or a server error among them. -/
def Settled.Own (settled : Settled) : Prop :=
  match settled.outcome with
  | .resolved value => resp.outcome settled.replies .null = .ok value
  | .rejected (.server reply) => resp.outcome settled.replies .null = .error (.server reply)
  | .rejected _ => False
  | .lost => True

/-! ### Replies that can be read -/

mutual

/-- The integers of a reply, and the lengths it tells, are safe. -/
def Reply.safe : Reply → Bool
  | .integer value => value.natAbs ≤ maxSafeInteger
  | .bulk bytes => bytes.length ≤ maxSafeInteger
  | .array items => items.length ≤ maxSafeInteger && Reply.allSafe items
  | .simple _ | .nullBulk | .nullArray | .error _ => true

def Reply.allSafe : List Reply → Bool
  | [] => true
  | reply :: rest => reply.safe && Reply.allSafe rest

end

private theorem integerMeaning_safe (value : Int) (safe : value.natAbs ≤ maxSafeInteger) :
    integerMeaning value = .ok value := if_pos safe

mutual

open Reply (allSafe meaning meanings)

theorem meaning_safe (reply : Reply) (safe : reply.safe = true) (fails : reply.meaning = .error err)
    : err.isServer = true := by
  cases reply with
  | integer value =>
    simp only [Reply.safe, decide_eq_true_eq] at safe
    rw [meaning, integerMeaning_safe value safe] at fails
    cases fails
  | bulk bytes =>
    simp only [Reply.safe, decide_eq_true_eq] at safe
    rw [meaning, integerMeaning_safe bytes.length safe] at fails
    cases fails
  | array items =>
    simp only [Reply.safe, and_eq_true, decide_eq_true_eq] at safe
    rw [meaning, integerMeaning_safe items.length safe.1] at fails
    cases each : meanings items with
    | error other =>
      rw [each] at fails
      cases fails
      exact meanings_safe items safe.2 each
    | ok values =>
      rw [each] at fails
      cases fails
  | error line =>
    cases fails
    rfl
  | simple line => cases fails
  | nullBulk => cases fails
  | nullArray => cases fails

theorem meanings_safe (replies : List Reply) (safe : allSafe replies = true)
    (fails : meanings replies = .error err) : err.isServer = true := by
  cases replies with
  | nil => cases fails
  | cons reply rest =>
    rw [allSafe, and_eq_true] at safe
    rw [meanings] at fails
    cases meant : reply.meaning with
    | error other =>
      rw [meant] at fails
      cases fails
      exact meaning_safe reply safe.1 meant
    | ok value =>
      rw [meant] at fails
      cases each : meanings rest with
      | error other =>
        rw [each] at fails
        cases fails
        exact meanings_safe rest safe.2 each
      | ok values =>
        rw [each] at fails
        cases fails

end

theorem outcome_safe (safe : Reply.allSafe replies = true) (fails : resp.outcome replies last = .error err) :
    err.isServer = true := by
  induction replies generalizing last with
  | nil => cases fails
  | cons reply rest ih =>
    rw [Reply.allSafe, and_eq_true] at safe
    rw [Frames.outcome] at fails
    cases meant : resp.meaning reply with
    | error other =>
      rw [meant] at fails
      cases fails
      exact meaning_safe reply safe.1 meant
    | ok value =>
      rw [meant] at fails
      exact ih safe.2 fails

/-! ### Every exchange gets its own -/

/-- The lane is started when nothing of earlier replies is on its way, and is replied to with what can be
read. -/
def Clear (lane : Lane) : Event → Prop
  | .start replies => (lane.flight = none → lane.wire = []) ∧ Reply.allSafe replies = true
  | _ => True

instance (lane : Lane) : (event : Event) → Decidable (Clear lane event)
  | .start replies => inferInstanceAs (Decidable ((lane.flight = none → lane.wire = []) ∧ Reply.allSafe replies = true))
  | .execute _ | .refuse | .data _ | .fail => inferInstanceAs (Decidable True)

/-- What is on the wire while an exchange is under way is the rest of its replies, and what has been settled
was settled with its own. -/
structure Lane.Aligned (lane : Lane) : Prop where
  own : ∀ settled ∈ lane.settled, settled.Own
  rest : ∀ flight, lane.flight = some flight → Reply.allSafe flight.replies = true ∧ lane.wire ≠ [] ∧
    ∃ left, flight.remaining = left.length ∧ flight.buffer ++ lane.wire = resp.stream left ∧
      resp.outcome left flight.lastResponse = resp.outcome flight.replies .null

theorem Lane.Aligned.settle {lane : Lane} {flight : Flight} (own : ∀ settled ∈ lane.settled, settled.Own)
    (here : Settled.Own ⟨flight.replies, out⟩) : (lane.settle flight out).Aligned :=
  ⟨forall_mem_cons.mpr ⟨here, own⟩, nofun⟩

theorem Lane.Aligned.next (aligned : lane.Aligned) (event : Event) (clear : Clear lane event) :
    (lane.next event).Aligned := by
  cases event with
  | execute => exact ⟨aligned.own, aligned.rest⟩
  | start replies =>
    unfold Lane.next
    dsimp only
    split
    · next idle _ =>
      split
      · next cmd rest _ answered =>
        refine ⟨aligned.own, fun flight here => ?_⟩
        cases here
        rw [clear.1 idle, nil_append]
        have some_ : replies ≠ [] := by
          rintro rfl
          exact absurd answered (responses_pos cmd).ne
        exact ⟨clear.2, Frames.stream_ne_nil some_, replies, answered.symm, rfl, rfl⟩
      · exact aligned
    · exact aligned
  | refuse =>
    unfold Lane.next
    dsimp only
    split
    · next idle _ _ =>
      exact ⟨forall_mem_cons.mpr ⟨trivial, aligned.own⟩, fun flight here => absurd here (by simp [idle])⟩
    · exact aligned
  | data count =>
    unfold Lane.next
    dsimp only
    split
    · next idle => exact ⟨aligned.own, fun flight here => absurd here (by simp [idle])⟩
    next flight under =>
    obtain ⟨safe, -, left, remaining, whole, out⟩ := aligned.rest flight under
    have cut : (flight.buffer ++ lane.wire.take count) ++ lane.wire.drop count = resp.stream left := by
      rw [append_assoc, take_append_drop, whole]
    have accounted := Frames.drain_accounted left flight.lastResponse cut
    rw [← remaining] at accounted
    change resp.Accounted _ _ (drain parseResp _ _ _) at accounted
    split
    · next value is =>
      rw [is] at accounted
      exact Lane.Aligned.settle (by exact aligned.own) (by exact out.symm.trans accounted.1)
    · next err is =>
      rw [is] at accounted
      have fails : resp.outcome flight.replies .null = .error err := out.symm.trans accounted
      have server := outcome_safe safe fails
      rw [if_pos server]
      cases err with
      | server reply => exact Lane.Aligned.settle (by exact aligned.own) (by exact fails)
      | _ => cases server
    · next later last buffer is =>
      rw [is] at accounted
      obtain ⟨more, others, counted, goesOn, same⟩ := accounted
      refine ⟨aligned.own, fun flight here => ?_⟩
      cases here
      exact ⟨safe, more, others, counted, goesOn, same.trans out⟩
  | fail =>
    unfold Lane.next
    dsimp only
    split
    · next idle => exact ⟨aligned.own, fun flight here => absurd here (by simp [Lane.discard, idle])⟩
    · exact Lane.Aligned.settle (by exact aligned.own) (by exact trivial)

/-- In every run in which no exchange is started while bytes of earlier replies are on their way, and every
reply can be read, each exchange is settled with what its own replies come to, and is settled once they have
arrived. -/
theorem responses_do_not_shift (events : List Event) (clear : EachStep Lane.next Clear {} events) :
    (∀ settled ∈ (runFrom Lane.next {} events).settled, settled.Own) ∧
      ((runFrom Lane.next {} events).wire = [] → (runFrom Lane.next {} events).flight = none) := by
  have aligned : (runFrom Lane.next {} events).Aligned :=
    invariant_of_steps Lane.Aligned (fun lane event aligned clear => aligned.next event clear) ⟨by simp, nofun⟩ clear
  refine ⟨aligned.own, fun arrived => ?_⟩
  cases under : (runFrom Lane.next {} events).flight with
  | none => rfl
  | some flight => exact absurd arrived (aligned.rest flight under).2.1

private def lineOf (text : String) : Line :=
  ⟨(encode text.toList).filter fun byte => byte ≠ 13 ∧ byte ≠ 10, by simp⟩

private def refusedAsking : Reply := .error (lineOf "ERR This instance has cluster support disabled")
private def foundText (value : String) : Reply := .bulk (encode value.toList)
private def firstGet : Command := { parts := ["GET", "first"], asking := true }
private def secondGet : Command := { parts := ["GET", "second"] }

private def overtaken : List Event :=
  [.execute firstGet, .start [refusedAsking, foundText "one"], .data 49, .execute secondGet, .start [foundText "two"], .data 9]

/-- The second exchange is settled with the reply to the command of the first. -/
theorem responses_shift : ¬ ∀ settled ∈ (runFrom Lane.next {} overtaken).settled, settled.Own := by
  intro own
  have second : Settled.Own ⟨[foundText "two"], .resolved (.text "one")⟩ := own _ mem_cons_self
  injection second with same
  injection same with same
  exact absurd same (by decide)

/-- What arrives in one chunk, though it begins with an error, leaves nothing behind. -/
theorem responses_do_not_shift_together :
    (∀ settled ∈ (runFrom Lane.next {} [.execute firstGet, .start [refusedAsking, foundText "one"], .data 58,
      .execute secondGet, .start [foundText "two"], .data 9]).settled, settled.Own) ∧
      ((runFrom Lane.next {} [.execute firstGet, .start [refusedAsking, foundText "one"], .data 58,
        .execute secondGet, .start [foundText "two"], .data 9]).wire = [] →
        (runFrom Lane.next {} [.execute firstGet, .start [refusedAsking, foundText "one"], .data 58,
          .execute secondGet, .start [foundText "two"], .data 9]).flight = none) :=
  responses_do_not_shift _ (by decide +kernel)

end Applik8s.Valkey
