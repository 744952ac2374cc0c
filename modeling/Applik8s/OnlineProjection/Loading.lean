import Applik8s.OnlineProjection.Steps

/-! What is read of the stream or of a snapshot makes up for the stream. -/
namespace Applik8s.OnlineProjection
open Lib List Nat
open Streams (Through PageSound ReadContract)
variable {Payload Row : Type} {live : ProjectionOptions Payload Row} {log : Streams.Log (Content Payload)}
  {left : List (Write Payload Row)} {event : Write Payload Row} {base upTo : Nat}
  {read : Streams.Source (Content Payload)}

theorem projectEvents_ok (ok : projectEvents project envelopes = .ok events) :
    events.map Write.envelope = envelopes ∧ ∀ event ∈ events, project event.envelope.payload = .ok event.rows := by
  unfold projectEvents at ok
  induction envelopes generalizing events with
  | nil =>
    cases ok
    exact ⟨rfl, nofun⟩
  | cons envelope rest ih =>
    rw [mapM_cons] at ok
    obtain ⟨_, is, ok⟩ := bind_ok ok
    obtain ⟨_, are, ok⟩ := bind_ok ok
    obtain ⟨_, projected, is⟩ := bind_ok is
    cases is
    cases ok
    obtain ⟨envelopes, all⟩ := ih are
    exact ⟨congrArg (envelope :: ·) envelopes, forall_mem_cons.mpr ⟨projected, all⟩⟩

theorem pending_read (contract : ReadContract read) (within : base ≤ log.last)
    (near : (read log base limit).retentionFloor ≤ base)
    (ok : projectEvents live.project (read log base limit).items = .ok events) :
    Pending live log base events (read log base limit).nextSequence := by
  have sound := Streams.read_sound contract within near
  obtain ⟨ascending, above⟩ := Streams.read_items contract log base limit
  obtain ⟨envelopes, projected⟩ := projectEvents_ok ok
  refine ⟨sound.within, ?_, fun event among => ?_, fun event among => ?_, fun event among above below => ?_, projected⟩
  · rw [← envelopes] at ascending
    simpa only [pairwise_map] using ascending
  · exact above event.envelope (envelopes ▸ mem_map_of_mem among)
  · have among : event.envelope ∈ (read log base limit).items := envelopes ▸ mem_map_of_mem among
    rw [contract.covers] at among
    exact (mem_filter.mp (mem_window.mp among).1).1
  · have among := sound.covers event among above below
    rw [← envelopes] at among
    exact mem_map.mp among

theorem Pending.next (pending : Pending live log base (event :: left) upTo) :
    Pending live log event.envelope.sequence left upTo where
  within := pending.within
  ascending := (pairwise_cons.mp pending.ascending).2
  bounded other among :=
    ⟨(pairwise_cons.mp pending.ascending).1 other among, (pending.bounded other (.tail _ among)).2⟩
  recorded other among := pending.recorded other (.tail _ among)
  covers other among above below := by
    obtain ⟨write, member, rfl⟩ :=
      pending.covers other among ((pending.bounded event mem_cons_self).1.trans above) below
    rcases mem_cons.mp member with rfl | member
    · exact absurd above (lt_irrefl _)
    · exact ⟨write, member, rfl⟩
  projected other among := pending.projected other (.tail _ among)

variable {covered : Event Payload → Prop}

theorem Pending.through (pending : Pending live log base (event :: left) upTo) (before : Through log covered base)
    (here : covered event.envelope) : Through log covered event.envelope.sequence where
  within := (pending.bounded event mem_cons_self).2.trans pending.within
  covers other among below := by
    by_cases early : other.sequence ≤ base
    · exact before.covers other among early
    obtain ⟨write, member, rfl⟩ := pending.covers other among (Nat.lt_of_not_le early)
      (below.trans (pending.bounded event mem_cons_self).2)
    rcases mem_cons.mp member with rfl | member
    · exact here
    · have := (pairwise_cons.mp pending.ascending).1 write member
      omega

theorem Pending.done (pending : Pending live log base [] upTo)
    (before : Through log covered base) : Through log covered upTo where
  within := pending.within
  covers other among below := by
    by_cases early : other.sequence ≤ base
    · exact before.covers other among early
    · obtain ⟨_, member, -⟩ := pending.covers other among (Nat.lt_of_not_le early) below
      cases member

theorem Remains.held (remains : Remains opts applied event []) : Held opts applied event := by
  obtain ⟨_, split, held⟩ := remains
  rw [append_nil] at split
  rwa [← split] at held

theorem Remains.next (remains : Remains opts applied event (row :: due)) (is : opts.changeOf row = .ok change)
    (seq : entry.sequence = event.envelope.sequence) (same : entry.change = change) :
    Remains opts (applied ++ [entry]) event due := by
  obtain ⟨done, split, held⟩ := remains
  refine ⟨done ++ [row], by rw [split, append_assoc]; rfl, fun other among => ?_⟩
  rcases mem_append.mp among with among | among
  · exact (held.mono (subset_append_left ..)) other among
  · rw [mem_singleton.mp among]
    exact ⟨change, is, entry, mem_append_right _ (mem_singleton_self _), seq, same⟩

theorem Remains.all : Remains opts applied event event.rows := ⟨[], rfl, nofun⟩

theorem owes_page (contract : ReadContract read) (within : base ≤ log.last)
    (near : (read log base limit).retentionFloor ≤ base)
    (ok : projectEvents rebuild.project (read log base limit).items = .ok events)
    (owes : Owes opts rebuild live log snapshots applied left goal) (reaches : base ≤ goal) :
    Owes opts rebuild live log snapshots applied (left ++ events) (read log base limit).nextSequence := by
  have sound := Streams.read_sound contract within near
  obtain ⟨envelopes, projected⟩ := projectEvents_ok ok
  intro more beyond held
  refine sound.through ((owes more beyond fun event among => held event (mem_append_left _ among)).less reaches)
    fun event among => ?_
  rw [← envelopes] at among
  obtain ⟨write, member, rfl⟩ := mem_map.mp among
  exact .inl ⟨write.rows, .inr (projected write member), held write (mem_append_right _ member)⟩

theorem persistSegment_ok (ok : persistSegment opts rebuild segments envelopes = .ok loaded) :
    ∃ events, projectEvents rebuild.project envelopes = .ok events ∧ loaded.flatten = segments.flatten ++ events := by
  obtain ⟨events, projected, ok⟩ := bind_ok ok
  refine ⟨events, projected, ?_⟩
  split at ok
  · cases ok
  cases ok
  cases events with
  | nil => simp
  | cons => simp

theorem loads_page (contract : ReadContract read) (loads : Loads opts rebuild live log snapshots ⟨base, segments⟩)
    (near : (read log base limit).retentionFloor ≤ base)
    (ok : persistSegment opts rebuild segments (read log base limit).items = .ok loaded) :
    Loads opts rebuild live log snapshots ⟨(read log base limit).nextSequence, loaded⟩ := by
  obtain ⟨events, projected, flat⟩ := persistSegment_ok ok
  obtain ⟨ascending, above⟩ := Streams.read_items contract log base limit
  obtain ⟨envelopes, -⟩ := projectEvents_ok projected
  have inside : ∀ event ∈ events, base < event.envelope.sequence ∧
      event.envelope.sequence ≤ (read log base limit).nextSequence :=
    fun event among => above event.envelope (envelopes ▸ mem_map_of_mem among)
  refine ⟨(Streams.read_sound contract loads.within near).within, ⟨?_, fun event among => ?_⟩, ?_⟩
  · rw [flat]
    refine pairwise_append.mpr ⟨loads.ordered.ascending, ?_, fun one first two second => ?_⟩
    · rw [← envelopes] at ascending
      simp only [pairwise_map] at ascending
      exact ascending.imp le_of_lt
    · exact (loads.ordered.bounded one first).trans (le_of_lt (inside two second).1)
  · rw [flat] at among
    rcases mem_append.mp among with among | among
    · exact (loads.ordered.bounded event among).trans (contract.forward ..)
    · exact (inside event among).2
  · rw [flat]
    exact owes_page contract loads.within near projected loads.owes (le_refl _)

theorem loads_nothing : Loads opts rebuild live log snapshots ⟨0, []⟩ :=
  ⟨zero_le _, ⟨.nil, nofun⟩, fun _ _ _ => .zero⟩

theorem visitPages_ok {rebuild : RebuildOptions Payload Row}
    (ok : visitPages opts rebuild partitionBy snap segments pages = .ok loaded) :
    (∀ event ∈ loaded.flatten, event ∈ segments.flatten ∨ event.envelope.sequence = snap.watermark) ∧
    (∀ event ∈ segments.flatten, event ∈ loaded.flatten) ∧
    ∀ page ∈ pages, ∀ item ∈ page.1, ∃ event rows, snapshotEvent opts partitionBy snap item = .ok event ∧
      rebuild.project event.payload = .ok rows ∧ ⟨event, rows⟩ ∈ loaded.flatten := by
  induction pages generalizing segments with
  | nil =>
    cases ok
    exact ⟨fun event among => .inl among, fun event among => among, nofun⟩
  | cons page rest ih =>
    obtain ⟨items, _⟩ := page
    unfold visitPages at ok
    split at ok
    · cases ok
    obtain ⟨envelopes, mapped, ok⟩ := bind_ok ok
    obtain ⟨_, persisted, ok⟩ := bind_ok ok
    obtain ⟨_, projected, flat⟩ := persistSegment_ok persisted
    obtain ⟨same, rows⟩ := projectEvents_ok projected
    obtain ⟨all, kept, others⟩ := ih ok
    have each : ∀ (items : List (String × Payload)) (envelopes : List (Event Payload)), items.mapM (snapshotEvent opts partitionBy snap) = .ok envelopes →
        (∀ envelope ∈ envelopes, envelope.sequence = snap.watermark) ∧
          ∀ item ∈ items, ∃ envelope ∈ envelopes, snapshotEvent opts partitionBy snap item = .ok envelope := by
      intro items
      induction items with
      | nil =>
        intro envelopes none
        cases none
        exact ⟨nofun, nofun⟩
      | cons item items ih =>
        intro envelopes mapped
        rw [mapM_cons] at mapped
        obtain ⟨first, is, mapped⟩ := bind_ok mapped
        obtain ⟨others, are, mapped⟩ := bind_ok mapped
        cases mapped
        obtain ⟨marks, found⟩ := ih others are
        have mark : first.sequence = snap.watermark := by
          obtain ⟨_, -, is⟩ := bind_ok is
          cases is
          rfl
        refine ⟨forall_mem_cons.mpr ⟨mark, marks⟩, forall_mem_cons.mpr ⟨⟨first, .head _, is⟩, ?_⟩⟩
        intro other among
        obtain ⟨envelope, member, is⟩ := found other among
        exact ⟨envelope, .tail _ member, is⟩
    obtain ⟨marks, found⟩ := each items envelopes mapped
    refine ⟨fun event among => ?_, fun event among => kept event ?_, forall_mem_cons.mpr ⟨fun item among => ?_, others⟩⟩
    · rcases all event among with among | mark
      · rw [flat] at among
        rcases mem_append.mp among with among | among
        · exact .inl among
        · exact .inr (marks event.envelope (same ▸ mem_map_of_mem among))
      · exact .inr mark
    · rw [flat]
      exact mem_append_left _ among
    · obtain ⟨envelope, member, is⟩ := found item among
      rw [← same] at member
      obtain ⟨write, inside, rfl⟩ := mem_map.mp member
      refine ⟨write.envelope, write.rows, is, rows write inside, kept write ?_⟩
      rw [flat]
      exact mem_append_right _ inside

theorem loads_snapshot (authority : rebuild.snapshotPartition = some partitionBy) (taken : snap ∈ snapshots)
    (within : snap.watermark ≤ log.last)
    (ok : visitPages opts rebuild partitionBy snap [] snap.pages.zipIdx = .ok loaded) :
    Loads opts rebuild live log snapshots ⟨snap.watermark, loaded⟩ := by
  obtain ⟨marks, -, found⟩ := visitPages_ok ok
  have mark : ∀ event ∈ loaded.flatten, event.envelope.sequence = snap.watermark :=
    fun event among => (marks event among).resolve_left (by simp)
  refine ⟨within, ⟨?_, fun event among => (mark event among).le⟩, fun more _ held => ⟨within, fun event _ below => ?_⟩⟩
  · exact pairwise_of_forall_mem_list fun one first two second => ((mark one first).trans (mark two second).symm).le
  refine .inr ⟨snap, taken, below, fun page member item inside => ?_⟩
  obtain ⟨place, stands⟩ := mem_iff_getElem?.mp member
  obtain ⟨event, rows, is, projected, among⟩ :=
    found (page, place) (mem_zipIdx_iff_getElem?.mpr stands) item inside
  exact ⟨partitionBy, event, rows, authority, is, projected, held _ among⟩

end Applik8s.OnlineProjection
