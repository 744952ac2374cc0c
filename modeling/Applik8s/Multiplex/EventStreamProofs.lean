import Applik8s.Multiplex.EventStream

/-! Whole frames come out of the buffer as they went in, and no part of a frame is taken for a frame:
inside a line there is no end of line, and after one comes another line. -/
namespace Applik8s.Multiplex
open Lib List
variable {frame : Frame} {line : Line} {crlf : Bool} {part rest text : List Char}

def OneLine (text : List Char) : Prop := ∀ char ∈ text, char ≠ '\r' ∧ char ≠ '\n'

theorem FieldName.oneLine (name : FieldName) : OneLine name.text := by
  cases name <;> simp [OneLine, FieldName.text]

theorem Line.text_oneLine (line : Line) : OneLine line.text := by
  intro char among
  rcases mem_append.mp among with named | among
  · exact line.name.oneLine char named
  rcases mem_cons.mp among with rfl | among
  · decide
  · rcases mem_append.mp among with blank | value
    · split at blank
      · obtain rfl := mem_singleton.mp blank
        decide
      · cases blank
    · exact line.oneLine char value

theorem Line.exists_cons (line : Line) : ∃ char rest, line.text = char :: rest ∧ char ≠ '\r' ∧ char ≠ '\n' := by
  cases is : line.text with
  | nil =>
    have := congrArg List.length is
    simp [Line.text] at this
  | cons char rest => exact ⟨char, rest, rfl, line.text_oneLine char (by rw [is]; exact mem_cons_self)⟩

theorem blankLine_other (other : char ≠ '\r' ∧ char ≠ '\n') : blankLine (char :: rest) = none := by
  unfold blankLine
  split
  · next is => exact absurd (cons.inj is).1 other.1
  · next is => exact absurd (cons.inj is).1 other.1
  · next is => exact absurd (cons.inj is).1 other.2
  · next is => exact absurd (cons.inj is).1 other.2
  · rfl

theorem takeBlock_cons (none_ : blankLine (char :: rest) = none) :
    takeBlock (char :: rest) = (takeBlock rest).map fun (block, after) => (char :: block, after) := by
  rw [takeBlock, none_]

theorem takeBlock_oneLine (oneLine : OneLine text) (rest : List Char) :
    takeBlock (text ++ rest) = (takeBlock rest).map fun (block, after) => (text ++ block, after) := by
  induction text with
  | nil => simp
  | cons char more ih =>
    rw [cons_append, takeBlock_cons (blankLine_other (oneLine char mem_cons_self)),
      ih fun other among => oneLine other (mem_cons_of_mem _ among)]
    cases takeBlock rest <;> rfl

theorem takeBlock_lineEnd (other : char ≠ '\r' ∧ char ≠ '\n') : takeBlock (lineEnd crlf ++ char :: rest) =
      (takeBlock (char :: rest)).map fun (block, after) => (lineEnd crlf ++ block, after) := by
  have feed : blankLine ('\n' :: char :: rest) = none := by
    unfold blankLine
    split
    · next is => cases is
    · next is => cases is
    · next is => exact absurd (cons.inj (cons.inj is).2).1 other.1
    · next is => exact absurd (cons.inj (cons.inj is).2).1 other.2
    · rfl
  have return_ : blankLine ('\r' :: '\n' :: char :: rest) = none := by
    unfold blankLine
    split
    · next is => exact absurd (cons.inj (cons.inj (cons.inj is).2).2).1 other.1
    · next is => exact absurd (cons.inj (cons.inj (cons.inj is).2).2).1 other.2
    · next is => cases is
    · next is => cases is
    · rfl
  cases crlf with
  | false =>
    change takeBlock ('\n' :: char :: rest) = _
    rw [takeBlock_cons feed]
    rfl
  | true =>
    change takeBlock ('\r' :: '\n' :: char :: rest) = _
    rw [takeBlock_cons return_, takeBlock_cons feed]
    cases takeBlock (char :: rest) <;> rfl

def followers (crlf : Bool) : List Line → List Char
  | [] => []
  | line :: rest => lineEnd crlf ++ line.text ++ followers crlf rest

theorem takeBlock_followers :
    takeBlock (lineEnd crlf ++ linesText crlf lines ++ rest) = some (followers crlf lines, rest) := by
  induction lines with
  | nil => cases crlf <;> rfl
  | cons line lines ih =>
    obtain ⟨_, _, is, other⟩ := line.exists_cons
    have split_ : lineEnd crlf ++ linesText crlf (line :: lines) ++ rest =
        lineEnd crlf ++ (line.text ++ (lineEnd crlf ++ linesText crlf lines ++ rest)) := by
      simp [linesText]
    have first := takeBlock_oneLine line.text_oneLine (lineEnd crlf ++ linesText crlf lines ++ rest)
    rw [split_]
    rw [is, cons_append] at first ⊢
    rw [takeBlock_lineEnd other, first, ih, followers, is]
    simp

theorem prefix_append_cases (proper : part <+: first ++ second) :
    part <+: first ∨ ∃ later, part = first ++ later ∧ later <+: second := by
  rcases prefix_or_prefix_of_prefix proper (prefix_append first second) with short | ⟨later, rfl⟩
  · exact .inl short
  · exact .inr ⟨later, rfl, (prefix_append_right_inj first).mp proper⟩

theorem takeBlock_part_lineEnd (short : part <+: lineEnd crlf) : takeBlock part = none := by
  cases crlf <;> simp only [lineEnd, prefix_cons_iff, prefix_nil, if_true, if_false, Bool.false_eq_true] at short
  · rcases short with rfl | ⟨_, rfl, rfl⟩ <;> rfl
  · rcases short with rfl | ⟨_, rfl, rfl | ⟨_, rfl, rfl⟩⟩ <;> rfl

theorem OneLine.of_prefix (oneLine : OneLine text) (short : part <+: text) : OneLine part :=
  fun char among => oneLine char (short.subset among)

theorem takeBlock_part_line (oneLine : OneLine text) (short : part <+: text) :
    takeBlock (lineEnd crlf ++ part) = none := by
  have oneLine := oneLine.of_prefix short
  cases part with
  | nil => exact takeBlock_part_lineEnd (show lineEnd crlf ++ [] <+: lineEnd crlf by simp)
  | cons char more =>
    have nothing := takeBlock_oneLine oneLine []
    rw [append_nil] at nothing
    rw [takeBlock_lineEnd (oneLine char mem_cons_self), nothing]
    rfl

theorem takeBlock_part (proper : part <+: lineEnd crlf ++ linesText crlf lines)
    (less : part ≠ lineEnd crlf ++ linesText crlf lines) : takeBlock part = none := by
  induction lines generalizing part with
  | nil =>
    rcases prefix_append_cases proper with short | ⟨later, rfl, short⟩
    · exact takeBlock_part_lineEnd short
    cases crlf <;> simp only [linesText, lineEnd, prefix_cons_iff, prefix_nil, if_true, if_false,
      Bool.false_eq_true] at short less
    · rcases short with rfl | ⟨_, rfl, rfl⟩
      · rfl
      · exact absurd rfl less
    · rcases short with rfl | ⟨_, rfl, rfl | ⟨_, rfl, rfl⟩⟩
      · rfl
      · rfl
      · exact absurd rfl less
  | cons line lines ih =>
    rcases prefix_append_cases proper with short | ⟨_, rfl, short⟩
    · exact takeBlock_part_lineEnd short
    rw [linesText, append_assoc] at short less
    rcases prefix_append_cases short with inside | ⟨further, rfl, beyond⟩
    · exact takeBlock_part_line line.text_oneLine inside
    obtain ⟨_, _, is, other⟩ := line.exists_cons
    have nothing := ih beyond fun same => less (by rw [same])
    have first := takeBlock_oneLine line.text_oneLine further
    rw [is, cons_append] at first ⊢
    rw [takeBlock_lineEnd other, first, nothing]
    rfl

/-- The block of a frame: its text without the blank line. -/
def Frame.block (frame : Frame) : List Char :=
  match frame.lines with
  | [] => []
  | line :: rest => line.text ++ followers frame.crlf rest

theorem Frame.exists_lines (frame : Frame) : ∃ line rest, frame.lines = line :: rest := by
  cases is : frame.lines with
  | nil => exact absurd (by rw [is]; rfl) frame.carries
  | cons line rest => exact ⟨line, rest, rfl⟩

theorem takeBlock_frame (frame : Frame) (rest : List Char) :
    takeBlock (frame.text ++ rest) = some (frame.block, rest) := by
  obtain ⟨line, lines, is⟩ := frame.exists_lines
  have first := takeBlock_oneLine line.text_oneLine (lineEnd frame.crlf ++ linesText frame.crlf lines ++ rest)
  rw [takeBlock_followers] at first
  rw [Frame.text, Frame.block, is, linesText]
  simpa using first

theorem takeBlock_part_frame (proper : part <+: frame.text) (less : part ≠ frame.text) : takeBlock part = none := by
  obtain ⟨line, _, is⟩ := frame.exists_lines
  rw [Frame.text, is, linesText, append_assoc] at proper less
  rcases prefix_append_cases proper with inside | ⟨_, rfl, beyond⟩
  · have nothing := takeBlock_oneLine (line.text_oneLine.of_prefix inside) []
    rw [append_nil] at nothing
    rw [nothing]
    rfl
  · rw [takeBlock_oneLine line.text_oneLine, takeBlock_part beyond fun same => less (by rw [same])]
    rfl

theorem OneLine.filter (oneLine : OneLine text) : text.filter (· ≠ '\r') = text :=
  filter_eq_self.mpr fun char among => by simpa using (oneLine char among).1

theorem filter_followers :
    (followers crlf lines).filter (· ≠ '\r') = lines.flatMap fun line => '\n' :: line.text := by
  induction lines with
  | nil => rfl
  | cons line lines ih =>
    rw [followers, filter_append, filter_append, ih, line.text_oneLine.filter]
    cases crlf <;> rfl

theorem intercalate_cons :
    intercalate ['\n'] (first :: others) = first ++ others.flatMap fun line => '\n' :: line := by
  induction others generalizing first with
  | nil => simp [intercalate]
  | cons second others ih =>
    have step : intercalate ['\n'] (first :: second :: others) =
        first ++ ('\n' :: intercalate ['\n'] (second :: others)) := by
      simp [intercalate, List.intersperse]
    rw [step, ih, flatMap_cons]
    simp

theorem filter_block (frame : Frame) :
    frame.block.filter (· ≠ '\r') = intercalate ['\n'] (frame.lines.map Line.text) := by
  obtain ⟨line, _, is⟩ := frame.exists_lines
  rw [Frame.block, is, map_cons, intercalate_cons]
  rw [filter_append, filter_followers, line.text_oneLine.filter, flatMap_map]

theorem dataValue_line (line : Line) : dataValue line.text = if line.name = .data then some line.value else none := by
  obtain ⟨name, blank, value, _, trimmed⟩ := line
  cases name with
  | data =>
    have kept : value.dropWhile isTrimmed = value := by
      cases value with
      | nil => rfl
      | cons char rest => rw [dropWhile_cons, if_neg (by simp [trimmed rfl char rfl])]
    cases blank with
    | false => exact congrArg some kept
    | true => exact congrArg some kept
  | event => rfl
  | id => rfl
  | retry => rfl
  | comment => rfl

theorem blockData_frame (frame : Frame) : blockData (frame.block.filter (· ≠ '\r')) = frame.data := by
  obtain ⟨line, lines, is⟩ := frame.exists_lines
  have split_ : (intercalate ['\n'] (frame.lines.map Line.text)).splitOn '\n' = frame.lines.map Line.text := by
    refine splitOn_intercalate _ ?_ ?_
    · intro text among
      obtain ⟨line, -, rfl⟩ := mem_map.mp among
      exact fun inside => (line.text_oneLine _ inside).2 rfl
    · rw [is]
      exact cons_ne_nil _ _
  rw [filter_block, blockData, split_, Frame.data, dataOf, filterMap_map]
  congr 2
  funext line
  exact dataValue_line line

theorem followers_end :
    lineEnd crlf ++ linesText crlf lines = followers crlf lines ++ (lineEnd crlf ++ lineEnd crlf) := by
  induction lines with
  | nil => rfl
  | cons line lines ih =>
    rw [linesText, append_assoc, ih, followers]
    simp

theorem byteLength_block (frame : Frame) : byteLength (frame.block.filter (· ≠ '\r')) ≤ byteLength frame.text := by
  refine byteLength_le_of_sublist (filter_sublist.trans (List.IsPrefix.sublist ?_))
  obtain ⟨_, _, is⟩ := frame.exists_lines
  rw [Frame.text, Frame.block, is, linesText, append_assoc, followers_end]
  exact ⟨lineEnd frame.crlf ++ lineEnd frame.crlf, by simp⟩

theorem texts_cons : texts (frame :: frames) = frame.text ++ texts frames := rfl

theorem Frame.text_ne_nil (frame : Frame) : frame.text ≠ [] := by
  obtain ⟨line, _, is⟩ := frame.exists_lines
  obtain ⟨_, _, first, -⟩ := line.exists_cons
  rw [Frame.text, is, linesText, first]
  exact cons_ne_nil _ _

theorem drain_texts (fits : ∀ frame ∈ frames, byteLength frame.text ≤ maxEventBytes) (proper : text <+: texts frames)
    (enough : text.length ≤ fuel) :
    ∃ whole others left, frames = whole ++ others ∧ text = texts whole ++ left ∧ takeBlock left = none ∧
      drain maxEventBytes fuel text = (whole.map Frame.data, left, none) := by
  induction frames generalizing text fuel with
  | nil =>
    obtain rfl := prefix_nil.mp proper
    exact ⟨[], [], [], rfl, rfl, rfl, by cases fuel <;> rfl⟩
  | cons frame frames ih =>
    rw [texts_cons] at proper
    by_cases whole : frame.text <+: text
    · obtain ⟨rest, rfl⟩ := whole
      have beyond := (prefix_append_right_inj _).mp proper
      have positive := length_pos_iff.mpr frame.text_ne_nil
      rw [length_append] at enough
      obtain ⟨fuel, rfl⟩ : ∃ less, fuel = less + 1 := ⟨fuel - 1, by omega⟩
      obtain ⟨whole, others, left, rfl, rfl, nothing, is⟩ :=
        ih (fun other among => fits other (mem_cons_of_mem _ among)) beyond (show rest.length ≤ fuel by omega)
      refine ⟨frame :: whole, others, left, rfl, by rw [texts_cons, append_assoc], nothing, ?_⟩
      have fit := (byteLength_block frame).trans (fits frame mem_cons_self)
      rw [drain, takeBlock_frame]
      dsimp only
      rw [if_neg (by omega), is, blockData_frame, if_neg (show frame.data ≠ [] from frame.carries)]
      rfl
    · have nothing : takeBlock text = none := by
        rcases prefix_append_cases proper with inside | ⟨_, rfl, -⟩
        · exact takeBlock_part_frame inside fun same => whole ⟨[], by rw [same, append_nil]⟩
        · exact absurd (prefix_append _ _) whole
      refine ⟨[], frame :: frames, text, rfl, rfl, nothing, ?_⟩
      cases fuel with
      | zero => rfl
      | succ fuel => rw [drain, nothing]; rfl

end Applik8s.Multiplex
