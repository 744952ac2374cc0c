import Mathlib.Order.Lattice
import Applik8s.Lib.Crowd
import Applik8s.Streams.Gateway

/-! What a client has received. Every message says what is visible between the cursor before it and its
own, as far as no visible event has been deleted that a scan from the beginning has not yet passed; what
is not visible is in no message at all. -/
namespace Applik8s.Streams
open Lib List Option Bool Nat
variable {Payload : Type}

section
theorem postgresRead_contract : ReadContract (@postgresRead Payload) := by
  have rows : ∀ (log : Log Payload) after, Ascending Envelope.sequence (log.retained.filter (after < ·.sequence)) :=
    fun log after => (log.ascending.filter _).filter _
  have above : ∀ (log : Log Payload) after, ∀ event ∈ log.retained.filter (after < ·.sequence),
      after < event.sequence := fun log after event among => by simpa using (mem_filter.mp among).2
  have items : ∀ (log : Log Payload) after limit, (postgresRead log after limit).items =
      (log.retained.filter (after < ·.sequence)).take limit := fun log after limit => by
    simp [postgresRead, take_take]
  have next : ∀ (log : Log Payload) after limit, (postgresRead log after limit).nextSequence =
      (((log.retained.filter (after < ·.sequence)).take limit).getLast?.map
        (·.sequence)).getD after := fun log after limit => by
    rw [← items]
    rfl
  constructor
  · intro log after limit
    rw [next]
    cases found : ((log.retained.filter (after < ·.sequence)).take limit).getLast? with
    | none => exact Nat.le.refl
    | some last => exact le_of_lt (above log after last (mem_of_mem_take (mem_of_getLast? found)))
  · intro log after limit
    rw [next]
    cases found : ((log.retained.filter (after < ·.sequence)).take limit).getLast? with
    | none => exact le_max_left ..
    | some last =>
      have among := mem_of_mem_take (mem_of_getLast? found)
      exact (log.ascending.le_lastNumber (mem_filter.mp (mem_filter.mp among).1).1).trans (le_max_right ..)
  · intro log after limit
    rw [items, next]
    refine (Ascending.window_take (rows log after) (above log after) limit).symm.trans ?_
    exact window_congr fun event _ low _ => by simpa using low
  · intro log after limit
    rw [items]
    exact length_take_le ..
  · exact fun _ _ _ => rfl
  · intro log after limit exhausted event among
    have all : (log.retained.filter (after < ·.sequence)).length ≤ limit := by
      have short : ((log.retained.filter (after < ·.sequence)).take (limit + 1)).length ≤ limit :=
        of_decide_eq_true exhausted
      rw [length_take] at short
      omega
    rw [next, take_of_length_le all]
    by_cases later : after < event.sequence
    · have among : event ∈ log.retained.filter (after < ·.sequence) :=
        mem_filter.mpr ⟨among, by simpa using later⟩
      have below := Ascending.le_lastNumber (rows log after) among
      unfold lastNumber at below
      cases found : (log.retained.filter (after < ·.sequence)).getLast? with
      | none =>
        rw [getLast?_eq_none_iff.mp found] at among
        cases among
      | some last =>
        rw [found] at below
        exact below
    · have early : event.sequence ≤ after := Nat.le_of_not_lt later
      cases found : (log.retained.filter (after < ·.sequence)).getLast? with
      | none => exact early
      | some last => exact early.trans (le_of_lt (above log after last (mem_of_getLast? found)))
  · intro log after limit some_ more
    rw [items]
    have long : ¬ ((log.retained.filter (after < ·.sequence)).take (limit + 1)).length ≤ limit :=
      of_decide_eq_false more
    intro none
    rw [length_take] at long
    have := congrArg List.length none
    rw [length_take, length_nil] at this
    omega

structure Log.Leads (log later : Log Payload) : Prop where
  events : log.events <+: later.events
  floor : log.floor ≤ later.floor

variable (log : Log Payload)

namespace Log

theorem leads_refl : log.Leads log := ⟨prefix_rfl, Nat.le.refl⟩

theorem Leads.trans {log last : Log Payload} (first : log.Leads later) (second : later.Leads last) : log.Leads last :=
  ⟨first.events.trans second.events, first.floor.trans second.floor⟩

theorem Leads.last {log : Log Payload} (leads : log.Leads later) : log.last ≤ later.last := by
  obtain ⟨_, is⟩ := leads.events
  have ascending := later.ascending
  unfold Log.last
  rw [← is] at ascending ⊢
  exact ascending.frontier_le

theorem leads_append (event : Envelope Payload) : log.Leads (log.append event) := by
  unfold append
  split
  · exact ⟨prefix_append .., Nat.le.refl⟩
  · exact log.leads_refl

theorem leads_retain (through : Nat) : log.Leads (log.retain through) :=
  ⟨prefix_rfl, le_max_left ..⟩

variable (visible : Envelope Payload → Bool)

/-- What of the log is visible between two sequences, deleted or not. -/
def between (log : Log Payload) (low high : Nat) : List (Envelope Payload) :=
  window Envelope.sequence low high (log.events.filter visible)

variable {visible}

theorem Leads.between {log : Log Payload} (leads : log.Leads later) (within : high ≤ log.last)
    : later.between visible low high = log.between visible low high := by
  obtain ⟨_, is⟩ := leads.events
  have ascending := later.ascending
  have positive := later.positive
  rw [← is] at ascending positive
  unfold Log.between
  rw [← is, window_filter, window_filter, window_continues ascending
    (fun event among => positive event (mem_append_right _ among)) within]

theorem between_join (first : low ≤ middle) (second : middle ≤ high)
    : log.between visible low middle ++ log.between visible middle high =
      log.between visible low high :=
  window_join (log.ascending.filter visible) first second

end Log
end

section
variable (visible : Envelope Payload → Bool) (read : Source Payload) (start : Nat)

/-- A scan from the beginning passes over no visible event that has been deleted. -/
def Spared (log : Log Payload) (after : Nat) : Prop :=
  start = 0 → ∀ event ∈ log.events, visible event = true → event.sequence ≤ after ∨ log.floor < event.sequence

/-- A page that is not past a retention gap holds what is visible up to the sequence it names. -/
def Found (log : Log Payload) (page : Page Payload) : Prop :=
  retentionGap start page = false → start ≤ page.nextSequence ∧ page.nextSequence ≤ log.last ∧
    page.items = log.between visible start page.nextSequence

/-- Whatever has been written and deleted when a page is read, what is found in the end is right. -/
def Scans : Log Payload → ReadProgram Payload → Prop
  | log, .done page => Found visible start log page
  | _, .throw _ => True
  | log, .call request next => ∀ later, log.Leads later → Spared visible start later request.afterSequence →
        Scans later (next (read later request.afterSequence request.limit))

variable {visible read start} {log : Log Payload}

theorem Found.leads (found : Found visible start log page) (leads : log.Leads later)
    : Found visible start later page := by
  intro near
  obtain ⟨forward, within, all⟩ := found near
  exact ⟨forward, within.trans leads.last, all.trans (leads.between within).symm⟩

theorem Scans.leads (scans : Scans visible read start log prog) (leads : log.Leads later)
    : Scans visible read start later prog := by
  cases prog with
  | done page => exact Found.leads scans leads
  | throw error => trivial
  | call => exact fun last further spared => scans last (leads.trans further) spared

theorem retentionGap_false :
    retentionGap start page = false ↔ start = 0 ∨ page.retentionFloor ≤ start := by
  simp [retentionGap]
  omega

theorem page_between {after : Nat} (contract : ReadContract read) (since : start ≤ after)
    (near : start = 0 ∨ log.floor ≤ start) (spared : Spared visible start log after) :
    (read log after limit).items.filter visible = log.between visible after (read log after limit).nextSequence := by
  rw [contract.covers, ← window_filter]
  have swapped : log.retained.filter visible = (log.events.filter visible).filter (log.floor < ·.sequence) := by
    rw [Log.retained, List.filter_filter, List.filter_filter]
    exact filter_congr fun event _ => and_comm ..
  rw [swapped]
  refine window_congr fun event among low _ => decide_eq_true ?_
  obtain ⟨among, shown⟩ := mem_filter.mp among
  rcases near with zero | early
  · exact (spared zero event among shown).resolve_left (Nat.not_le_of_lt low)
  · exact lt_of_le_of_lt (early.trans since) low

theorem scans_scan (contract : ReadContract read) (pages : Nat) (since : start ≤ cursor) (within : cursor ≤ log.last)
    (part : start = 0 ∨ base ≤ start → items = log.between visible start cursor) :
    Scans visible read start log (scan visible limit pages cursor base exhausted items) := by
  have ends : Found visible start log ⟨items, cursor, exhausted, base⟩ :=
    fun near => ⟨since, within, part (retentionGap_false.mp near)⟩
  induction pages generalizing log cursor base exhausted items with
  | zero => exact ends
  | succ pages ih =>
    unfold scan
    split
    · intro later leads spared
      dsimp only
      split
      · trivial
      have forward := contract.forward later cursor (max 1 (limit - items.length))
      have further : (read later cursor (max 1 (limit - items.length))).nextSequence ≤ later.last :=
        (contract.within ..).trans (max_le (within.trans leads.last) Nat.le.refl)
      have whole : start = 0 ∨ max base (read later cursor (max 1 (limit - items.length))).retentionFloor ≤ start →
          items ++ (read later cursor (max 1 (limit - items.length))).items.filter visible =
            later.between visible start (read later cursor (max 1 (limit - items.length))).nextSequence := by
        intro near
        have before : start = 0 ∨ base ≤ start := near.imp_right (le_max_left _ _).trans
        have after : start = 0 ∨ later.floor ≤ start :=
          near.imp_right (contract.floor .. ▸ (le_max_right _ _).trans)
        rw [page_between contract since after spared]
        refine Eq.trans ?_ (later.between_join since forward)
        exact congrArg (· ++ _) ((part before).trans (leads.between within).symm)
      exact ih (since.trans forward) further whole
        fun near => ⟨since.trans forward, further, whole (retentionGap_false.mp near)⟩
    · exact ends

theorem scans_read (contract : ReadContract read) (subscription : Subscription Payload) (within : start ≤ log.last)
    : Scans subscription.visible read start log (subscription.read start limit) := by
  unfold Subscription.read
  cases opened : subscription.authorize with
  | some authorize =>
    have same : subscription.visible = authorize := by
      funext event
      rw [Subscription.visible, opened]
    rw [same]
    exact scans_scan contract _ Nat.le.refl within fun _ => window_self.symm
  | none =>
    intro later leads spared near
    have near : start = 0 ∨ later.floor ≤ start :=
      (retentionGap_false.mp near).imp_right (contract.floor .. ▸ id)
    refine ⟨contract.forward .., (contract.within ..).trans (max_le (within.trans leads.last) Nat.le.refl), ?_⟩
    rw [← page_between contract Nat.le.refl near spared, filter_eq_self.mpr]
    intro event _
    rw [Subscription.visible, opened]

end

theorem round_cases (cur : Nat) (page : Page Payload) (heartbeatDue : Bool) :
    (retentionGap cur page = true ∧ round cur page heartbeatDue = (some .reset, none)) ∨
    (retentionGap cur page = false ∧ page.items ≠ [] ∧ round cur page heartbeatDue =
      (some (.events page.items page.nextSequence), some page.nextSequence)) ∨
    (retentionGap cur page = false ∧ page.items = [] ∧
      (round cur page heartbeatDue = (some (.keepalive cur), some cur) ∨
        round cur page heartbeatDue = (none, some cur))) := by
  unfold round
  cases gap : retentionGap cur page with
  | true => exact .inl ⟨rfl, rfl⟩
  | false =>
    rw [if_neg Bool.false_ne_true]
    cases found : page.items with
    | nil =>
      rw [if_neg (by simp)]
      cases heartbeatDue
      · exact .inr (.inr ⟨rfl, rfl, .inr rfl⟩)
      · exact .inr (.inr ⟨rfl, rfl, .inl rfl⟩)
    | cons => exact .inr (.inl ⟨rfl, by simp, by simp⟩)

section
/-- A client: what it has received, the cursor it goes on from, and whether it was told to reset. -/
structure Client (Payload : Type) where
  received : List (Envelope Payload) := []
  cursor : Nat := 0
  told : Bool := false

def Client.receive (client : Client Payload) : Message Payload → Client Payload
  | .replay items cursor _ _ | .events items cursor => { client with received := client.received ++ items, cursor }
  | .keepalive cursor => { client with cursor }
  | .reset => { client with told := true }

structure System (Payload : Type) where
  log : Log Payload
  client : Client Payload := {}
  session : Option (Session Payload) := none

inductive Event (Payload : Type) where
  | append (event : Envelope Payload)
  | retain (through : Nat)
  | request (operation : Operation)
  | proceed (heartbeatDue : Bool)
  /-- The next round of a subscription finds the authority changed. -/
  | revoke
  /-- The request is aborted, fails, or has lasted its time. -/
  | close
  | receive
  | disconnect

/-- A limit of `replay` that is not refused. -/
def admits (subscription : Subscription Payload) : Operation → Bool
  | .replay limit => 1 ≤ limit && limit ≤ subscription.pageSize
  | .subscribe => true

variable (subscription : Subscription Payload) (read : Source Payload)

/-- A client that was told to reset asks for nothing more; any other goes on from its cursor. -/
def System.next (system : System Payload) : Event Payload → System Payload
  | .append event => { system with log := system.log.append event }
  | .retain through => { system with log := system.log.retain through }
  | .request operation =>
    if system.session.isNone && !system.client.told && admits subscription operation then
      { system with session := some ⟨operation, system.client.cursor, .waiting, []⟩ }
    else system
  | .proceed heartbeatDue =>
    { system with session := system.session.map (·.proceed subscription read system.log heartbeatDue) }
  | .revoke =>
    match system.session with
    | some ⟨.subscribe, current, .waiting, pending⟩ =>
      { system with session := some ⟨.subscribe, current, .ended, pending ++ [.reset]⟩ }
    | _ => system
  | .close => { system with session := system.session.map ({ · with stage := .ended }) }
  | .receive =>
    match system.session with
    | some ⟨operation, current, stage, message :: rest⟩ =>
      { system with client := system.client.receive message
                    session := some ⟨operation, current, stage, rest⟩ }
    | _ => system
  | .disconnect => { system with session := none }

/-- A page that is read for a request from the beginning passes over no visible event that has been
deleted. -/
def Sparing (system : System Payload) : Event Payload → Prop
  | .proceed _ => ∀ session request next, system.session = some session →
      session.stage = .reading (.call request next) →
        Spared subscription.visible session.current system.log request.afterSequence
  | _ => True

end

section
variable (visible : Envelope Payload → Bool) (log : Log Payload)

/-- What is on its way leads from one cursor to another, unless it tells to reset. -/
def Chained : Nat → List (Message Payload) → Nat → Prop
  | low, [], high => low = high
  | _, .reset :: _, _ => True
  | low, .keepalive cursor :: rest, high => cursor = low ∧ Chained cursor rest high
  | low, .events items cursor :: rest, high | low, .replay items cursor _ _ :: rest, high =>
    low ≤ cursor ∧ cursor ≤ log.last ∧ items = log.between visible low cursor ∧ Chained cursor rest high

variable {visible log} {later : Log Payload}

theorem Chained.leads (leads : log.Leads later) (chained : Chained visible log low pending high)
    : Chained visible later low pending high := by
  induction pending generalizing low with
  | nil => exact chained
  | cons msg rest ih =>
    cases msg with
    | reset => trivial
    | keepalive cursor => exact ⟨chained.1, ih chained.2⟩
    | replay =>
      obtain ⟨forward, within, rfl, chained⟩ := chained
      exact ⟨forward, within.trans leads.last, (leads.between within).symm, ih chained⟩
    | events =>
      obtain ⟨forward, within, rfl, chained⟩ := chained
      exact ⟨forward, within.trans leads.last, (leads.between within).symm, ih chained⟩

theorem Chained.append (first : Chained visible log low pending middle)
    (second : Chained visible log middle more high) : Chained visible log low (pending ++ more) high := by
  induction pending generalizing low with
  | nil =>
    obtain rfl : low = middle := first
    exact second
  | cons msg rest ih =>
    cases msg with
    | reset => trivial
    | keepalive cursor => exact ⟨first.1, ih first.2⟩
    | replay => exact ⟨first.1, first.2.1, first.2.2.1, ih first.2.2.2⟩
    | events => exact ⟨first.1, first.2.1, first.2.2.1, ih first.2.2.2⟩

variable {subscription : Subscription Payload} {read : Source Payload} {system : System Payload}

structure Carries (subscription : Subscription Payload) (read : Source Payload) (log : Log Payload)
    (cursor : Nat) (session : Session Payload) : Prop where
  within : session.current ≤ log.last
  chained : Chained subscription.visible log cursor session.pending session.current
  scans : ∀ program, session.stage = .reading program → Scans subscription.visible read session.current log program

/-- A client that has not been told to reset has received what is visible up to its cursor. -/
structure Sound (subscription : Subscription Payload) (read : Source Payload) (system : System Payload) :
    Prop where
  within : system.client.told = false → system.client.cursor ≤ system.log.last
  received : system.client.told = false →
    system.client.received = system.log.between subscription.visible 0 system.client.cursor
  session : system.client.told = false → ∀ session, system.session = some session →
    Carries subscription read system.log system.client.cursor session

theorem Carries.leads {session : Session Payload} {cursor : Nat}
    (carries : Carries subscription read log cursor session) (leads : log.Leads later) :
    Carries subscription read later cursor session where
  within := carries.within.trans leads.last
  chained := carries.chained.leads leads
  scans prog is := (carries.scans prog is).leads leads

theorem Sound.leads (sound : Sound subscription read sys) (leads : sys.log.Leads later) :
    Sound subscription read { sys with log := later } where
  within live := (sound.within live).trans leads.last
  received live := (sound.received live).trans (leads.between (sound.within live)).symm
  session live session here := (sound.session live session here).leads leads

theorem Carries.proceed (contract : ReadContract read) (carries : Carries subscription read log cursor session)
    (spared : ∀ req next, session.stage = .reading (.call req next) → Spared subscription.visible session.current log req.afterSequence)
    (heartbeatDue : Bool) :
    Carries subscription read log cursor (session.proceed subscription read log heartbeatDue) := by
  obtain ⟨within, chained, scans⟩ := carries
  obtain ⟨op, cur, stage, _⟩ := session
  cases stage with
  | ended => exact ⟨within, chained, scans⟩
  | waiting =>
    refine ⟨within, chained, ?_⟩
    rintro prog is
    cases is
    exact scans_read contract subscription within
  | reading prog =>
    cases prog with
    | throw error => exact ⟨within, chained, nofun⟩
    | call req next =>
      refine ⟨within, chained, ?_⟩
      rintro _ is
      cases is
      exact scans _ rfl log log.leads_refl (spared req next rfl)
    | done page =>
      have found : Found subscription.visible cur log page := scans _ rfl
      cases op with
      | replay limit =>
        unfold Session.proceed replayed
        dsimp only
        cases gap : retentionGap cur page with
        | true => exact ⟨within, chained.append trivial, nofun⟩
        | false =>
          obtain ⟨forward, further, all⟩ := found gap
          exact ⟨further, chained.append ⟨forward, further, all, rfl⟩, nofun⟩
      | subscribe =>
        unfold Session.proceed
        dsimp only
        rcases round_cases cur page heartbeatDue with
          ⟨gap, is⟩ | ⟨gap, some_, is⟩ | ⟨gap, none, is | is⟩
        · rw [is]
          exact ⟨within, chained.append trivial, nofun⟩
        · rw [is]
          obtain ⟨forward, further, all⟩ := found gap
          exact ⟨further, chained.append ⟨forward, further, all, rfl⟩, nofun⟩
        · rw [is]
          exact ⟨within, chained.append ⟨rfl, rfl⟩, nofun⟩
        · rw [is]
          exact ⟨within, chained.append rfl, nofun⟩

theorem Sound.next (contract : ReadContract read) (sound : Sound subscription read sys)
    (sparing : Sparing subscription sys event) :
    Sound subscription read (sys.next subscription read event) := by
  cases event with
  | append event => exact sound.leads (sys.log.leads_append event)
  | retain through => exact sound.leads (sys.log.leads_retain through)
  | request =>
    unfold System.next
    dsimp only
    split
    · refine { sound with session := ?_ }
      rintro live session here
      cases here
      exact ⟨sound.within live, rfl, nofun⟩
    · exact sound
  | proceed heartbeatDue =>
    refine { sound with session := ?_ }
    intro live session here
    obtain ⟨before, held, rfl⟩ := map_eq_some_iff.mp here
    exact (sound.session live before held).proceed contract
      (fun req next reading => sparing before req next held reading) heartbeatDue
  | revoke =>
    unfold System.next
    dsimp only
    split
    · next cur pending held =>
      refine { sound with session := ?_ }
      rintro live session here
      cases here
      have carries := sound.session live _ held
      exact ⟨carries.within, carries.chained.append trivial, nofun⟩
    · exact sound
  | close =>
    refine { sound with session := ?_ }
    intro live session here
    obtain ⟨before, held, rfl⟩ := map_eq_some_iff.mp here
    have carries := sound.session live before held
    exact ⟨carries.within, carries.chained, nofun⟩
  | receive =>
    unfold System.next
    dsimp only
    split
    · next op cur stage msg rest held =>
      cases msg with
      | reset => exact ⟨nofun, nofun, nofun⟩
      | keepalive cursor =>
        refine ⟨fun live => ?_, fun live => ?_, ?_⟩
        · rw [show cursor = sys.client.cursor from (sound.session live _ held).chained.1]
          exact sound.within live
        · rw [show cursor = sys.client.cursor from (sound.session live _ held).chained.1]
          exact sound.received live
        · rintro live session here
          cases here
          obtain ⟨within, chained, scans⟩ := sound.session live _ held
          exact ⟨within, chained.2, scans⟩
      | replay =>
        refine ⟨fun live => ?_, fun live => ?_, ?_⟩
        · exact (sound.session live _ held).chained.2.1
        · obtain ⟨forward, -, rfl, -⟩ := (sound.session live _ held).chained
          refine (congrArg (· ++ _) (sound.received live)).trans ?_
          exact sys.log.between_join (zero_le _) forward
        · rintro live session here
          cases here
          obtain ⟨within, chained, scans⟩ := sound.session live _ held
          exact ⟨within, chained.2.2.2, scans⟩
      | events =>
        refine ⟨fun live => ?_, fun live => ?_, ?_⟩
        · exact (sound.session live _ held).chained.2.1
        · obtain ⟨forward, -, rfl, -⟩ := (sound.session live _ held).chained
          refine (congrArg (· ++ _) (sound.received live)).trans ?_
          exact sys.log.between_join (zero_le _) forward
        · rintro live session here
          cases here
          obtain ⟨within, chained, scans⟩ := sound.session live _ held
          exact ⟨within, chained.2.2.2, scans⟩
    · exact sound
  | disconnect => exact { sound with session := fun _ _ here => nomatch here }

end

section
def readConduct (read : Source Payload) : Conduct (Replay Payload) Unit where
  permits _ _ := True
  answers request reply := ∃ log, reply = read log request.afterSequence request.limit
  after _ _ _ := ()

/-- A read comes to its end, and shows nothing that is not visible. -/
abbrev Shows (subscription : Subscription Payload) (read : Source Payload)
    (program : ReadProgram Payload) : Prop :=
  Obeys (readConduct read) (fun _ result => ∃ page, result = .ok page ∧
    ∀ event ∈ page.items, subscription.visible event = true) () program

variable {subscription : Subscription Payload} {read : Source Payload} {system : System Payload}

theorem shows_read (contract : ReadContract read) (subscription : Subscription Payload)
    (start limit : Nat) : Shows subscription read (subscription.read start limit) := by
  unfold Subscription.read
  cases opened : subscription.authorize with
  | some authorize =>
    have same : subscription.visible = authorize := by
      funext event
      rw [Subscription.visible, opened]
    have all : ∀ pages cursor floor exhausted (items : List (Envelope Payload)),
        (∀ event ∈ items, subscription.visible event = true) →
          Shows subscription read (scan authorize limit pages cursor floor exhausted items) := by
      intro pages
      induction pages with
      | zero => exact fun cursor floor exhausted items shown => ⟨_, rfl, shown⟩
      | succ pages ih =>
        intro cursor floor exhausted items shown
        unfold scan
        split
        · refine ⟨trivial, ?_⟩
          rintro _ ⟨log, rfl⟩
          dsimp only
          split
          · next stalled =>
            obtain ⟨none, more⟩ := and_eq_true_iff.mp stalled
            refine absurd (isEmpty_iff.mp none)
              (contract.advances _ _ _ (Nat.lt_of_lt_of_le Nat.one_pos (Nat.le_max_left _ _)) ?_)
            simpa using more
          · refine ih _ _ _ _ fun event among => ?_
            rcases mem_append.mp among with before | now
            · exact shown event before
            · exact same ▸ (mem_filter.mp now).2
        · exact ⟨_, rfl, shown⟩
    exact all _ _ _ _ _ (by simp)
  | none =>
    refine ⟨trivial, ?_⟩
    rintro _ ⟨_, rfl⟩
    refine ⟨_, rfl, fun event _ => ?_⟩
    rw [Subscription.visible, opened]

def Message.Shown (subscription : Subscription Payload) : Message Payload → Prop
  | .replay items _ _ _ | .events items _ => ∀ event ∈ items, subscription.visible event = true
  | .keepalive _ | .reset => True

/-- A request shows what is visible, and is over once it has told to reset. -/
structure Session.Shown (subscription : Subscription Payload) (read : Source Payload)
    (session : Session Payload) : Prop where
  reads : ∀ program, session.stage = .reading program → Shows subscription read program
  pending : ∀ message ∈ session.pending, message.Shown subscription
  told : .reset ∈ session.pending → session.stage = .ended

theorem Session.Shown.proceed (contract : ReadContract read) {session : Session Payload}
    (shown : session.Shown subscription read) (log : Log Payload) (heartbeatDue : Bool) :
    (session.proceed subscription read log heartbeatDue).Shown subscription read := by
  obtain ⟨reads, pending, told⟩ := shown
  obtain ⟨op, cur, stage, pending'⟩ := session
  have more : ∀ {msg : Message Payload}, msg.Shown subscription → ∀ other,
      other ∈ pending' ++ [msg] → other.Shown subscription := by
    intro msg shown other among
    rcases mem_append.mp among with before | now
    · exact pending other before
    · exact mem_singleton.mp now ▸ shown
  cases stage with
  | ended => exact ⟨reads, pending, told⟩
  | waiting =>
    refine ⟨?_, pending, fun reset => nomatch told reset⟩
    rintro prog is
    cases is
    exact shows_read contract subscription ..
  | reading prog =>
    have quiet : .reset ∉ pending' := fun reset => nomatch told reset
    cases prog with
    | throw error => exact ⟨nofun, pending, fun _ => rfl⟩
    | call =>
      refine ⟨?_, pending, fun reset => absurd reset quiet⟩
      rintro _ is
      cases is
      exact (reads _ rfl).2 _ ⟨log, rfl⟩
    | done page =>
      obtain ⟨_, is, visible⟩ := reads _ rfl
      cases is
      cases op with
      | replay limit =>
        refine ⟨nofun, ?_, fun _ => rfl⟩
        refine more ?_
        unfold replayed
        split
        · trivial
        · exact visible
      | subscribe =>
        unfold Session.proceed
        dsimp only
        rcases round_cases cur page heartbeatDue with
          ⟨-, is⟩ | ⟨-, -, is⟩ | ⟨-, -, is | is⟩
        · rw [is]
          exact ⟨nofun, more (by trivial), fun _ => rfl⟩
        · rw [is]
          exact ⟨nofun, more visible, fun reset => by simp [quiet] at reset⟩
        · rw [is]
          exact ⟨nofun, more (by trivial), fun reset => by simp [quiet] at reset⟩
        · rw [is]
          refine ⟨nofun, ?_, fun reset => by simp [quiet] at reset⟩
          change ∀ msg ∈ pending' ++ [], msg.Shown subscription
          rwa [append_nil]

/-- Nothing that is not visible has been received, or is to be. -/
structure System.Shown (subscription : Subscription Payload) (read : Source Payload)
    (system : System Payload) : Prop where
  received : ∀ event ∈ system.client.received, subscription.visible event = true
  session : ∀ session, system.session = some session → session.Shown subscription read

theorem System.Shown.next (contract : ReadContract read) (shown : system.Shown subscription read)
    (event : Event Payload) : (system.next subscription read event).Shown subscription read := by
  cases event with
  | append event => exact ⟨shown.received, shown.session⟩
  | retain => exact ⟨shown.received, shown.session⟩
  | request =>
    unfold System.next
    dsimp only
    split
    · refine ⟨shown.received, ?_⟩
      rintro session here
      cases here
      exact ⟨nofun, nofun, nofun⟩
    · exact shown
  | proceed heartbeatDue =>
    refine ⟨shown.received, ?_⟩
    intro session here
    obtain ⟨before, held, rfl⟩ := map_eq_some_iff.mp here
    exact (shown.session before held).proceed contract system.log heartbeatDue
  | revoke =>
    unfold System.next
    dsimp only
    split
    · next cur pending held =>
      refine ⟨shown.received, ?_⟩
      rintro session here
      cases here
      refine ⟨nofun, fun msg among => ?_, fun _ => rfl⟩
      rcases mem_append.mp among with before | now
      · exact (shown.session _ held).pending msg before
      · obtain rfl := mem_singleton.mp now
        trivial
    · exact shown
  | close =>
    refine ⟨shown.received, ?_⟩
    intro session here
    obtain ⟨before, held, rfl⟩ := map_eq_some_iff.mp here
    exact ⟨nofun, (shown.session before held).pending, fun _ => rfl⟩
  | receive =>
    unfold System.next
    dsimp only
    split
    · next op cur stage msg rest held =>
      obtain ⟨reads, pending, told⟩ := shown.session _ held
      have here := pending msg mem_cons_self
      have more : ∀ {items : List (Envelope Payload)}, (∀ event ∈ items, subscription.visible event = true) →
          ∀ event ∈ system.client.received ++ items, subscription.visible event = true := by
        intro items visible event among
        exact (mem_append.mp among).elim (shown.received event) (visible event)
      refine ⟨?_, ?_⟩
      · cases msg with
        | replay => exact more here
        | events => exact more here
        | keepalive cursor => exact shown.received
        | reset => exact shown.received
      · rintro _ same
        cases same
        exact ⟨reads, fun other among => pending other (mem_cons_of_mem _ among),
          fun reset => told (mem_cons_of_mem _ reset)⟩
    · exact shown
  | disconnect => exact ⟨shown.received, nofun⟩

end
end Applik8s.Streams
