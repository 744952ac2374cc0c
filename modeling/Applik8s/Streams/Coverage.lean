import Applik8s.Streams.Delivery

/-! What a consumer of a stream has covered: all events up to a sequence, however the stream goes on. A page that is read
behind that sequence has the events that come next. -/
namespace Applik8s.Streams
open Lib List Nat
variable {Payload : Type} {log later : Log Payload} {covered : Envelope Payload → Prop} {bound after limit : Nat}
  {event : Envelope Payload} {read : Source Payload} {page : Page Payload}

theorem Log.Leads.mem (leads : log.Leads later) (among : event ∈ later.events) :
    event ∈ log.events ∨ log.last < event.sequence := by
  obtain ⟨_, is⟩ := leads.events
  have ascending := later.ascending
  have positive := later.positive
  rw [← is] at ascending positive among
  rcases mem_append.mp among with early | late
  · exact .inl early
  · exact .inr (ascending.beyond (fun event among => positive event (mem_append_right _ among)) late)

theorem Log.retained_within : lastNumber Envelope.sequence log.retained ≤ log.last := by
  unfold lastNumber
  cases found : log.retained.getLast? with
  | none => exact zero_le _
  | some event => exact log.ascending.le_lastNumber (mem_filter.mp (mem_of_getLast? found)).1

/-- Up to a sequence, which is within the stream, every event is covered. -/
structure Through (log : Log Payload) (covered : Envelope Payload → Prop) (bound : Nat) : Prop where
  within : bound ≤ log.last
  covers : ∀ event ∈ log.events, event.sequence ≤ bound → covered event

namespace Through

theorem zero : Through log covered 0 :=
  ⟨Nat.zero_le _, fun event among below => absurd (log.positive event among) (Nat.not_lt_of_le below)⟩

theorem mono (through : Through log covered bound) (more : ∀ event, covered event → further event) :
    Through log further bound :=
  ⟨through.within, fun event among below => more event (through.covers event among below)⟩

theorem less (through : Through log covered bound) (below : lower ≤ bound) : Through log covered lower :=
  ⟨below.trans through.within, fun event among under => through.covers event among (under.trans below)⟩

theorem leads (through : Through log covered bound) (leads : log.Leads later) : Through later covered bound where
  within := through.within.trans leads.last
  covers event among below := by
    rcases leads.mem among with among | _
    · exact through.covers event among below
    · have := through.within
      omega

theorem max (one : Through log covered bound) (two : Through log covered other) :
    Through log covered (max bound other) := by
  rcases le_total bound other with less | less
  · rwa [max_eq_right less]
  · rwa [max_eq_left less]

end Through

/-- A page that was read behind `after`: its items are what the stream has up to the sequence it names next. -/
structure PageSound (log : Log Payload) (after : Nat) (page : Page Payload) : Prop where
  within : page.nextSequence ≤ log.last
  covers : ∀ event ∈ log.events, after < event.sequence → event.sequence ≤ page.nextSequence → event ∈ page.items

theorem PageSound.leads (sound : PageSound log after page) (leads : log.Leads later) : PageSound later after page where
  within := sound.within.trans leads.last
  covers event among above below := by
    rcases leads.mem among with among | _
    · exact sound.covers event among above below
    · have := sound.within
      omega

theorem PageSound.through (sound : PageSound log after page) (before : Through log covered after)
    (items : ∀ event ∈ page.items, covered event) : Through log covered page.nextSequence where
  within := sound.within
  covers event among below := by
    by_cases early : event.sequence ≤ after
    · exact before.covers event among early
    · exact items event (sound.covers event among (Nat.lt_of_not_le early) below)

theorem read_sound (contract : ReadContract read) (within : after ≤ log.last)
    (near : (read log after limit).retentionFloor ≤ after) : PageSound log after (read log after limit) where
  within := (contract.within ..).trans (max_le within Nat.le.refl)
  covers event among above below := by
    rw [contract.floor] at near
    rw [contract.covers]
    refine mem_window.mpr ⟨mem_filter.mpr ⟨among, ?_⟩, above, below⟩
    exact decide_eq_true (lt_of_le_of_lt near above)

/-- The items of a page ascend, between the sequence it was read behind and the one it names next. -/
theorem read_items (contract : ReadContract read) (log : Log Payload) (after limit : Nat) :
    (read log after limit).items.Pairwise (·.sequence < ·.sequence) ∧ ∀ event ∈ (read log after limit).items,
      after < event.sequence ∧ event.sequence ≤ (read log after limit).nextSequence := by
  rw [contract.covers]
  exact ⟨(log.ascending.filter _).filter _, fun event among => (mem_window.mp among).2⟩

end Applik8s.Streams
