import Mathlib.Data.List.Infix

/-! Frames read off a stream that arrives in pieces. A reader is given what has arrived so far: it takes the
first frame off it, fails on what that frame means, or needs more. What it makes of a stream of frames depends
on the frames alone, wherever the stream was cut. -/
namespace Applik8s.Lib

inductive Halt (ε : Type) where
  | incomplete
  | failed (error : ε)
  deriving DecidableEq

/-- What is read where a frame begins that says `meaning`, with `rest` behind it. -/
def told {β α ε : Type} (rest : List β) : Except ε α → Except (Halt ε) (α × List β)
  | .ok value => .ok (value, rest)
  | .error error => .error (.failed error)

/-- A reader of frames, each written as `encode` writes it. A frame may fail before it is whole. -/
structure Frames (β ι α ε : Type) where
  read : List β → Except (Halt ε) (α × List β)
  encode : ι → List β
  meaning : ι → Except ε α
  encode_ne_nil : ∀ frame, encode frame ≠ []
  whole : ∀ frame rest, read (encode frame ++ rest) = told rest (meaning frame)
  part : ∀ frame early, early <+: encode frame → early ≠ encode frame →
    read early = .error .incomplete ∨ ∃ error, meaning frame = .error error ∧ read early = .error (.failed error)

/-- What is left to be done once a piece has been read as far as it goes. -/
inductive Drained (β α ε : Type) where
  | resolved (value : α)
  | rejected (error : ε)
  | pending (remaining : Nat) (last : α) (buffer : List β)
  deriving DecidableEq

variable {β ι α ε : Type}

/-- Takes `remaining` frames off the buffer, as far as they have arrived, and keeps the last. -/
def drain (read : List β → Except (Halt ε) (α × List β)) : Nat → α → List β → Drained β α ε
  | 0, last, _ => .resolved last
  | remaining + 1, last, buffer =>
    match read buffer with
    | .ok (value, rest) => drain read remaining value rest
    | .error .incomplete => .pending (remaining + 1) last buffer
    | .error (.failed error) => .rejected error

namespace Frames
variable (frames : Frames β ι α ε)

/-- What a stream of frames comes to: the last of them, unless one fails before. -/
def outcome : List ι → α → Except ε α
  | [], last => .ok last
  | frame :: rest, _ =>
    match frames.meaning frame with
    | .ok value => outcome rest value
    | .error error => .error error

def stream (items : List ι) : List β := items.flatMap frames.encode

variable {frames} {buffer wire : List β}

theorem stream_cons (frame : ι) (items : List ι) :
    frames.stream (frame :: items) = frames.encode frame ++ frames.stream items := List.flatMap_cons

theorem stream_ne_nil (some_ : items ≠ []) : frames.stream items ≠ [] := by
  cases items with
  | nil => exact absurd rfl some_
  | cons frame rest =>
    rw [stream_cons]
    exact fun empty => frames.encode_ne_nil frame (List.append_eq_nil_iff.mp empty).1

/-- What has been drained of a stream that comes to `outcome`: all of it, or a failure of one of its frames, or
as much as has arrived. -/
def Accounted (frames : Frames β ι α ε) (outcome : Except ε α) (wire : List β) : Drained β α ε → Prop
  | .resolved value => outcome = .ok value ∧ wire = []
  | .rejected error => outcome = .error error
  | .pending remaining held buffer => wire ≠ [] ∧ ∃ left, remaining = left.length ∧
      buffer ++ wire = frames.stream left ∧ frames.outcome left held = outcome

private theorem arrived (frame : ι) (items : List ι) (whole : buffer ++ wire = frames.stream (frame :: items)) :
    (buffer <+: frames.encode frame ∧ buffer ≠ frames.encode frame ∧ wire ≠ []) ∨
      ∃ rest, buffer = frames.encode frame ++ rest ∧ rest ++ wire = frames.stream items := by
  rw [stream_cons] at whole
  rcases List.append_eq_append_iff.mp whole with ⟨rest, is, tail⟩ | ⟨rest, is, tail⟩
  · by_cases none_ : rest = []
    · subst none_
      exact .inr ⟨[], by simpa using is.symm, by simpa using tail⟩
    · refine .inl ⟨⟨rest, is.symm⟩, fun same => none_ ?_, ?_⟩
      · exact List.self_eq_append_right.mp (same.trans is)
      · rw [tail]
        simp [none_]
  · exact .inr ⟨rest, is, tail.symm⟩

theorem drain_accounted (items : List ι) (last : α) (whole : buffer ++ wire = frames.stream items) :
    frames.Accounted (frames.outcome items last) wire (drain frames.read items.length last buffer) := by
  induction items generalizing last buffer with
  | nil => exact ⟨rfl, (List.append_eq_nil_iff.mp whole).2⟩
  | cons frame rest ih =>
    rw [List.length_cons, drain]
    rcases arrived frame rest whole with ⟨part, short, more⟩ | ⟨_, rfl, goesOn⟩
    · rcases frames.part frame buffer part short with waits | ⟨error, fails, waits⟩
      · rw [waits]
        exact ⟨more, frame :: rest, rfl, whole, rfl⟩
      · rw [waits, outcome, fails]
        rfl
    · rw [frames.whole, outcome]
      cases frames.meaning frame with
      | error error => rfl
      | ok value => exact ih value goesOn

end Frames
end Applik8s.Lib
