import Applik8s.Lib.Run
import Applik8s.Multiplex.EventStreamProofs

/-! The stream of `application-query-multiplex-proxy.ts` between the query gateways and the browser. Each
chunk that an upstream brings is passed on as it is; where no chunk is passed on while another upstream is
within a frame, and the browser never reads more than its buffer takes, the frames come through. -/
namespace Applik8s.Multiplex
open Function (comp_def update update_of_ne update_self)
open Lib List

section
/-- What is still to come from each upstream, what the proxy has enqueued and the browser has not read, and
the browser's reader. -/
structure Relay where
  remaining : Nat → List UInt8
  wire : List UInt8
  reader : Reader

/-- The network brings so many bytes, of an upstream to the proxy or of the proxy to the browser. -/
inductive Event where
  | forward (upstream size : Nat)
  | read (size : Nat)

def Relay.chunk (relay : Relay) (upstream size : Nat) : List UInt8 := (relay.remaining upstream).take size

def Relay.next (maxEventBytes : Nat) (relay : Relay) : Event → Relay
  | .forward upstream size => { relay with
      remaining := update relay.remaining upstream ((relay.remaining upstream).drop size)
      wire := relay.wire ++ relay.chunk upstream size }
  | .read size => { relay with
      wire := relay.wire.drop size
      reader := relay.reader.read maxEventBytes (relay.wire.take size) }

variable (frames : Nat → List Frame)

def start : Relay where
  remaining upstream := encode (texts (frames upstream))
  wire := []
  reader := {}

end

section
variable (frames : Nat → List Frame)

def ofUpstream (upstream : Nat) (merged : List (Nat × Frame)) : List Frame :=
  (merged.filter (·.1 = upstream)).map (·.2)

def Relay.Finished (relay : Relay) : Prop := (∀ upstream, relay.remaining upstream = []) ∧ relay.wire = []

/-- Nothing was thrown, and what was yielded are frames of the upstreams, each in the order of its upstream,
and in the end all of them. -/
def Relay.Delivers (relay : Relay) : Prop :=
  relay.reader.failure = none ∧ ∃ merged : List (Nat × Frame), relay.reader.yielded = merged.map (·.2.data) ∧
      (∀ upstream, ofUpstream upstream merged <+: frames upstream) ∧
      (relay.Finished → ∀ upstream, ofUpstream upstream merged = frames upstream)

def Relay.BetweenFrames (relay : Relay) (upstream : Nat) : Prop :=
  ∃ count, relay.remaining upstream = encode (texts ((frames upstream).drop count))

/-- A chunk is passed on only while the other upstreams are between frames, and with what the browser reads
the buffer stays within its bound. -/
def Careful (maxEventBytes : Nat) (relay : Relay) : Event → Prop
  | .forward upstream size => relay.chunk upstream size ≠ [] →
      ∀ other, other ≠ upstream → relay.BetweenFrames frames other
  | .read size => byteLength (relay.reader.buffer ++ relay.reader.decoded (relay.wire.take size)) ≤ maxEventBytes * 2

end

section
variable {frames whole : List Frame} {reader : Reader} {bytes : List UInt8}

theorem texts_append : texts (whole ++ others) = texts whole ++ texts others := flatMap_append

theorem withoutMark_texts (part : text <+: texts frames) : withoutMark text = text := by
  cases text with
  | nil => rfl
  | cons char rest =>
    cases frames with
    | nil => exact absurd (prefix_nil.mp part) (cons_ne_nil _ _)
    | cons frame frames =>
      obtain ⟨line, _, is⟩ := frame.exists_lines
      have first : char ≠ Char.ofNat 0xFEFF := by
        rw [texts_cons, Frame.text, is, linesText, Line.text] at part
        obtain ⟨_, whole⟩ := part
        rintro rfl
        revert whole
        cases line.name <;> intro whole <;> exact absurd (cons.inj whole).1 (by decide)
      exact if_neg first

structure Reader.HasRead (reader : Reader) (frames : List Frame) (bytes : List UInt8) (whole : List Frame) :
    Prop where
  among : whole <+: frames
  decoded : ({} : Decoder).decode bytes = (reader.decoder, texts whole ++ reader.buffer)
  begun : reader.begun = !(texts whole ++ reader.buffer).isEmpty
  left : takeBlock reader.buffer = none
  yielded : reader.yielded = whole.map Frame.data
  unfailing : reader.failure = none

theorem Reader.hasRead_start : ({} : Reader).HasRead [] [] [] :=
  ⟨ nil_prefix, rfl, rfl, rfl, rfl, rfl⟩

theorem Reader.HasRead.further (read : reader.HasRead frames bytes whole) (more : List Frame) :
    reader.HasRead (frames ++ more) bytes whole :=
  { read with among := read.among.trans (prefix_append _ _) }

theorem Reader.HasRead.next (read : reader.HasRead frames bytes whole)
    (fits : ∀ frame ∈ frames, byteLength frame.text ≤ maxEventBytes) (part : bytes ++ chunk <+: encode (texts frames))
    (bounded : byteLength (reader.buffer ++ reader.decoded chunk) ≤ maxEventBytes * 2) :
    ∃ whole, (reader.read maxEventBytes chunk).HasRead frames (bytes ++ chunk) whole := by
  obtain ⟨⟨others, rfl⟩, decoded, begun, left, yielded, unfailing⟩ := read
  have all := Decoder.decode_append {} bytes chunk
  rw [decoded] at all
  have proper := Decoder.decode_prefix part
  rw [all, texts_append, append_assoc] at proper
  have inside := (List.prefix_append_right_inj _).mp proper
  have plain : reader.decoded chunk = (reader.decoder.decode chunk).2 := by
    unfold Reader.decoded
    split
    · rfl
    next fresh =>
    rw [begun] at fresh
    simp only [Bool.not_eq_true', Bool.not_eq_false, List.isEmpty_iff, List.append_eq_nil_iff] at fresh
    rw [fresh.2, nil_append] at inside
    exact withoutMark_texts inside
  obtain ⟨more, others, after, rfl, cut, nothing, drained⟩ := drain_texts
    (fun frame among => fits frame (List.mem_append_right _ among)) inside (le_refl _)
  have is : reader.read maxEventBytes chunk = {
      decoder := (reader.decoder.decode chunk).1
      begun := reader.begun || !(reader.decoder.decode chunk).2.isEmpty
      buffer := after
      yielded := reader.yielded ++ more.map Frame.data
      failure := none } := by
    rw [plain] at bounded
    unfold Reader.read
    rw [unfailing]
    dsimp only [Option.isSome]
    rw [if_neg (by simp), plain, if_neg (by omega), drained]
  refine ⟨whole ++ more, ?_⟩
  rw [is]
  have texts_ : texts whole ++ reader.buffer ++ (reader.decoder.decode chunk).2 = texts (whole ++ more) ++ after := by
    rw [texts_append, append_assoc, cut, append_assoc]
  exact {
    among := ⟨others, by rw [append_assoc]⟩
    decoded := by rw [all, texts_]
    begun := by
      rw [← texts_, begun]
      cases texts whole ++ reader.buffer <;> simp
    left := nothing
    yielded := by rw [yielded, List.map_append]
    unfailing := rfl }

theorem Reader.HasRead.ended (read : reader.HasRead frames (encode (texts frames)) whole) : whole = frames := by
  obtain ⟨⟨others, rfl⟩, decoded, -, left, -, -⟩ := read
  rw [Decoder.decode_encode, Prod.mk.injEq] at decoded
  rw [texts_append, append_right_inj] at decoded
  rw [← decoded.2] at left
  cases others with
  | nil => exact (append_nil _).symm
  | cons =>
    rw [texts_cons, takeBlock_frame] at left
    cases left

end

section
variable {frames : Nat → List Frame} {relay : Relay} {merged : List (Nat × Frame)} {later : Nat → List Frame}
  {bytes tail : List UInt8} {whole : List Frame} {owner upstream : Nat}

/-- Where the frames of all upstreams are: those that have begun to come, in order, of the last of which a
tail is still missing, and those that are to come. -/
structure Relay.Standing (frames : Nat → List Frame) (relay : Relay) (merged : List (Nat × Frame))
    (later : Nat → List Frame) (owner : Nat) (bytes tail : List UInt8) (whole : List Frame) : Prop where
  sorted : ∀ upstream, frames upstream = ofUpstream upstream merged ++ later upstream
  stream : bytes ++ relay.wire ++ tail = encode (texts (merged.map (·.2)))
  within : tail ≠ [] → ∃ earlier frame, merged = earlier ++ [(owner, frame)] ∧ tail.length < byteLength frame.text
  remaining : ∀ upstream, relay.remaining upstream =
    (if upstream = owner then tail else []) ++ encode (texts (later upstream))
  read : relay.reader.HasRead (merged.map (·.2)) bytes whole

theorem standing_start (frames : Nat → List Frame) : (start frames).Standing frames [] frames 0 [] [] [] where
  sorted _ := rfl
  stream := rfl
  within impossible := absurd rfl impossible
  remaining upstream := by simp [start]
  read := Reader.hasRead_start

theorem ofUpstream_append :
    ofUpstream upstream (merged ++ others) = ofUpstream upstream merged ++ ofUpstream upstream others := by
  simp [ofUpstream]

theorem ofUpstream_same : ofUpstream upstream (more.map (upstream, ·)) = more := by
  simp [ofUpstream, filter_map, comp_def]

theorem ofUpstream_other {more : List Frame} (apart : other ≠ upstream) :
    ofUpstream other (more.map (upstream, ·)) = [] := by
  simp [ofUpstream, filter_map, comp_def, apart.symm]

theorem Relay.Standing.complete (standing : relay.Standing frames merged later owner bytes tail whole)
    (between : relay.BetweenFrames frames owner) : tail = [] := by
  by_contra missing
  obtain ⟨earlier, frame, rfl, short⟩ := standing.within missing
  obtain ⟨count, is⟩ := between
  have sorted := standing.sorted owner
  rw [ofUpstream_append, show ofUpstream owner [(owner, frame)] = [frame] by simp [ofUpstream], append_assoc] at sorted
  rw [standing.remaining, if_pos rfl, sorted] at is
  have lengths := congrArg List.length is
  have positive := length_pos_iff.mpr missing
  rw [drop_append, texts_append, encode_append, length_append, length_append] at lengths
  rcases Nat.eq_zero_or_pos (count - (ofUpstream owner earlier).length) with before | after
  · rw [before, drop_zero, singleton_append, texts_cons, encode_append, length_append] at lengths
    unfold byteLength at short
    omega
  obtain ⟨beyond, is⟩ : ∃ beyond, count - (ofUpstream owner earlier).length = beyond + 1 :=
    ⟨_, (Nat.sub_add_cancel after).symm⟩
  rw [is, singleton_append, drop_succ_cons, drop_eq_nil_of_le (by omega)] at lengths
  have parts := congrArg (List.length ∘ encode ∘ texts) (take_append_drop beyond (later owner))
  simp only [Function.comp_apply, texts_append, encode_append, length_append] at parts
  simp only [texts, flatMap_nil, encode_nil, length_nil] at lengths
  unfold texts at parts
  omega

theorem cut_texts (is : chunk ++ rest = tail ++ encode (texts coming)) :
    ∃ more others missing, coming = more ++ others ∧ rest = missing ++ encode (texts others) ∧
      chunk ++ missing = tail ++ encode (texts more) ∧
      (more = [] ∨ ∃ earlier frame, more = earlier ++ [frame] ∧ missing.length < byteLength frame.text) := by
  induction coming generalizing tail chunk with
  | nil => exact ⟨[], [], rest, rfl, by simp [texts], is, .inl rfl⟩
  | cons frame coming ih =>
    rcases append_eq_append_iff.mp is with ⟨missing, rfl, rfl⟩ | ⟨beyond, rfl, later⟩
    · exact ⟨[], frame :: coming, missing, rfl, rfl, by simp [texts], .inl rfl⟩
    by_cases nothing : beyond = []
    · subst nothing
      exact ⟨[], frame :: coming, [], rfl, later.symm, by simp [texts], .inl rfl⟩
    · rw [texts_cons, encode_append] at later
      obtain ⟨more, others, missing, rfl, rest_, same, last⟩ := ih later.symm
      refine ⟨frame :: more, others, missing, rfl, rest_, ?_, .inr ?_⟩
      · rw [append_assoc, same, texts_cons, encode_append]
      rcases last with rfl | ⟨earlier, final, rfl, short⟩
      · refine ⟨[], frame, rfl, ?_⟩
        have lengths := congrArg List.length same
        have positive := length_pos_iff.mpr nothing
        simp only [texts, flatMap_nil, encode_nil, append_nil, length_append] at lengths
        unfold byteLength
        omega
      · exact ⟨frame :: earlier, final, rfl, short⟩

section
variable (standing : relay.Standing frames merged later owner bytes tail whole)
include standing

theorem Relay.Standing.forward (careful : Careful frames maxEventBytes relay (.forward upstream size)) :
    ∃ merged later owner tail, (relay.next maxEventBytes (.forward upstream size)).Standing frames merged later
      owner bytes tail whole := by
  by_cases nothing : relay.chunk upstream size = []
  · have same : (relay.remaining upstream).drop size = relay.remaining upstream := by
      conv_rhs => rw [← take_append_drop size (relay.remaining upstream)]
      rw [show (relay.remaining upstream).take size = [] from nothing, nil_append]
    refine ⟨merged, later, owner, tail, ?_⟩
    rw [Relay.next, nothing, same, Function.update_eq_self, append_nil]
    exact standing
  have here : relay.remaining upstream = tail ++ encode (texts (later upstream)) := by
    by_cases same : upstream = owner
    · rw [standing.remaining, if_pos same]
    · rw [standing.complete (careful nothing owner (Ne.symm same)), standing.remaining, if_neg same]
  have others : ∀ other, other ≠ upstream → relay.remaining other = encode (texts (later other)) := by
    intro other apart
    rw [standing.remaining]
    split
    · next is =>
      subst is
      rw [standing.complete (careful nothing other apart), nil_append]
    · rfl
  obtain ⟨more, left, missing, split_, rest_, same, last⟩ :=
    cut_texts ((take_append_drop size (relay.remaining upstream)).trans here)
  refine ⟨merged ++ more.map (upstream, ·), update later upstream left, upstream, missing, ?_⟩
  constructor
  · intro other
    rw [ofUpstream_append]
    by_cases is : other = upstream
    · subst is
      rw [ofUpstream_same, update_self, append_assoc, ← split_, standing.sorted]
    · rw [ofUpstream_other is, update_of_ne is, append_nil, standing.sorted]
  · change bytes ++ (relay.wire ++ relay.chunk upstream size) ++ missing = _
    rw [append_assoc, append_assoc, show relay.chunk upstream size ++ missing = _ from same,
      ← append_assoc, ← append_assoc, standing.stream, map_append, texts_append, encode_append,
      map_map]
    simp [comp_def]
  · intro remains
    rcases last with rfl | ⟨earlier, frame, rfl, short⟩
    · have tail_ : tail = relay.chunk upstream size ++ missing := by simpa [texts, Relay.chunk] using same.symm
      have held : tail ≠ [] := by
        rw [tail_]
        simp [remains]
      obtain ⟨earlier, frame, rfl, short⟩ := standing.within held
      have owned : owner = upstream := by
        by_contra apart
        exact held (standing.complete (careful nothing owner apart))
      subst owned
      refine ⟨earlier, frame, by simp, ?_⟩
      have lengths := congrArg List.length tail_
      rw [length_append] at lengths
      omega
    · exact ⟨merged ++ earlier.map (upstream, ·), frame, by simp, short⟩
  · intro other
    change update relay.remaining upstream _ other = _
    by_cases is : other = upstream
    · subst is
      rw [update_self, update_self, if_pos rfl]
      exact rest_
    · rw [update_of_ne is, update_of_ne is, if_neg is, others other is, nil_append]
  · rw [map_append]
    exact standing.read.further _

theorem Relay.Standing.reads (small : ∀ upstream, ∀ frame ∈ frames upstream, byteLength frame.text ≤ maxEventBytes)
    (careful : Careful frames maxEventBytes relay (.read size)) :
    ∃ bytes whole, (relay.next maxEventBytes (.read size)).Standing frames merged later owner bytes tail whole := by
  have fits : ∀ frame ∈ merged.map (·.2), byteLength frame.text ≤ maxEventBytes := by
    intro frame among
    obtain ⟨⟨upstream, frame⟩, there, rfl⟩ := mem_map.mp among
    refine small upstream frame ?_
    rw [standing.sorted]
    exact mem_append_left _ (mem_map.mpr ⟨(upstream, frame), mem_filter.mpr ⟨there, by simp⟩, rfl⟩)
  have wire : relay.wire = relay.wire.take size ++ relay.wire.drop size := (take_append_drop ..).symm
  have stream : bytes ++ relay.wire.take size ++ (relay.wire.drop size ++ tail) =
      encode (texts (merged.map (·.2))) := by
    rw [← standing.stream]
    conv_rhs => rw [wire]
    simp only [append_assoc]
  obtain ⟨whole, read⟩ := standing.read.next fits ⟨_, stream⟩ careful
  exact ⟨bytes ++ relay.wire.take size, whole, standing.sorted, by rw [← stream]; exact append_assoc ..,
    standing.within, standing.remaining, read⟩

theorem Relay.Standing.delivers :
    relay.Delivers frames := by
  obtain ⟨sorted, stream, -, remaining, read⟩ := standing
  obtain ⟨_, among⟩ := read.among
  have taken : (merged.take whole.length).map (·.2) = whole := by
    rw [map_take, ← among, take_left']
    rfl
  refine ⟨read.unfailing, merged.take whole.length, ?_, ?_, ?_⟩
  · rw [read.yielded]
    conv_lhs => rw [← taken]
    rw [map_map]
    rfl
  · intro upstream
    rw [sorted, ← take_append_drop whole.length merged, ofUpstream_append, append_assoc, take_append_drop]
    exact prefix_append _ _
  rintro ⟨nothing, empty⟩ upstream
  have ended : ∀ upstream, (if upstream = owner then tail else []) = [] ∧ later upstream = [] := by
    intro upstream
    have is := (remaining upstream).symm.trans (nothing upstream)
    obtain ⟨first, second⟩ := append_eq_nil_iff.mp is
    refine ⟨first, ?_⟩
    cases coming : later upstream with
    | nil => rfl
    | cons frame rest =>
      rw [coming, encode_eq_nil, texts_cons, append_eq_nil_iff] at second
      exact absurd second.1 frame.text_ne_nil
  have tail_ : tail = [] := by simpa using (ended owner).1
  rw [empty, tail_, append_nil, append_nil] at stream
  subst stream
  have all := read.ended
  rw [sorted, (ended upstream).2, append_nil]
  have lengths := congrArg List.length all
  rw [length_map] at lengths
  rw [take_of_length_le lengths.ge]

end

/-- However the bytes of the upstreams come and are cut: where the proxy never leaves an upstream within a
frame, and the browser reads no more than fits, all frames come through, each whole and in its order. -/
theorem frames_survive (maxEventBytes : Nat) (frames : Nat → List Frame)
    (small : ∀ upstream, ∀ frame ∈ frames upstream, byteLength frame.text ≤ maxEventBytes) (events : List Event)
    (careful : EachStep (Relay.next maxEventBytes) (Careful frames maxEventBytes) (start frames) events) :
    (runFrom (Relay.next maxEventBytes) (start frames) events).Delivers frames := by
  have kept := invariant_of_steps (fun relay => ∃ merged later owner bytes tail whole,
      relay.Standing frames merged later owner bytes tail whole) ?_
    ⟨_, _, _, _, _, _, standing_start frames⟩ careful
  · obtain ⟨merged, later, owner, bytes, tail, whole, standing⟩ := kept
    exact standing.delivers
  rintro _ event ⟨merged, later, owner, bytes, tail, whole, standing⟩ careful
  cases event with
  | forward =>
    obtain ⟨merged, later, owner, tail, standing⟩ := standing.forward careful
    exact ⟨merged, later, owner, bytes, tail, whole, standing⟩
  | read size =>
    obtain ⟨bytes, whole, standing⟩ := standing.reads small careful
    exact ⟨merged, later, owner, bytes, tail, whole, standing⟩

private def saysX : Frame := ⟨[⟨.data, true, ['x'], by simp, by simp [isTrimmed]⟩], false, by decide⟩
private def saysY : Frame := ⟨[⟨.data, true, ['y'], by simp, by simp [isTrimmed]⟩], false, by decide⟩

private def twoUpstreams : Nat → List Frame
  | 0 => [saysX]
  | 1 => [saysY]
  | _ => []

private def manyEvents : Nat → List Frame
  | 0 => [saysX, saysX, saysX]
  | _ => []

private def pieces : List Event :=
  [.forward 0 4, .read 2, .forward 0 20, .forward 1 20, .read 9, .read 20]

theorem frames_survive_pieces : (runFrom (Relay.next 9) (start twoUpstreams) pieces).reader.yielded = [['x'], ['y']] ∧
      (runFrom (Relay.next 9) (start twoUpstreams) pieces).Delivers twoUpstreams := by
  refine ⟨by decide +kernel, frames_survive 9 twoUpstreams ?_ _ ?_⟩
  · intro upstream frame among
    match upstream with
    | 0 | 1 =>
      obtain rfl := mem_singleton.mp among
      decide
    | _ + 2 => cases among
  have bounded : ∀ relay size, byteLength (relay.reader.buffer ++
      relay.reader.decoded (relay.wire.take size)) ≤ 9 * 2 → Careful twoUpstreams 9 relay (.read size) :=
    fun _ _ => id
  refine ⟨fun _ other _ => ⟨0, rfl⟩, bounded _ _ (by decide +kernel), fun _ other apart => ⟨0, ?_⟩,
    fun _ other apart => ?_, bounded _ _ (by decide +kernel), bounded _ _ (by decide +kernel), trivial⟩
  · exact update_of_ne apart _ _
  match other, apart with
  | 0, _ => exact ⟨1, by decide +kernel⟩
  | other + 2, _ => exact ⟨0, rfl⟩

/-- An event of one upstream comes within an event of another, and three events come at once. -/
theorem frames_lost :
    (runFrom (Relay.next 9) (start twoUpstreams) [.forward 0 4, .forward 1 9, .forward 0 5, .read 18]).Finished ∧
      ¬ (runFrom (Relay.next 9) (start twoUpstreams)
        [.forward 0 4, .forward 1 9, .forward 0 5, .read 18]).Delivers twoUpstreams ∧
      ¬ (runFrom (Relay.next 9) (start manyEvents) [.forward 0 27, .read 27]).Delivers manyEvents := by
  have finished : (runFrom (Relay.next 9) (start twoUpstreams)
      [.forward 0 4, .forward 1 9, .forward 0 5, .read 18]).Finished := by
    refine ⟨fun upstream => ?_, by decide +kernel⟩
    match upstream with
    | 0 | 1 => decide +kernel
    | _ + 2 => rfl
  refine ⟨finished, ?_, ?_⟩
  · rintro ⟨-, _, yielded, -, all⟩
    have nothing : (runFrom (Relay.next 9) (start twoUpstreams)
        [.forward 0 4, .forward 1 9, .forward 0 5, .read 18]).reader.yielded = [] := by decide +kernel
    rw [nothing] at yielded
    obtain rfl := map_eq_nil_iff.mp yielded.symm
    exact absurd (all finished 0) (cons_ne_nil _ _).symm
  · rintro ⟨unfailing, -⟩
    have failed : (runFrom (Relay.next 9) (start manyEvents) [.forward 0 27, .read 27]).reader.failure =
        some (.buffer 18) := by decide +kernel
    rw [failed] at unfailing
    cases unfailing

end
end Applik8s.Multiplex
