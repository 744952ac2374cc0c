import Applik8s.Streams.Delivery

/-! A subscription on a stream that stands still. Its rounds deliver what is left to be seen, unless one
of them begins before so many hidden events that no visible one comes within the pages it scans: from
there the cursor does not move any more. -/
namespace Applik8s.Streams
open Lib List Nat
open Nat (le)
variable {Payload : Type}

section
variable (subscription : Subscription Payload) (read : Source Payload) (log : Log Payload)

/-- The next pages of the source hold hidden events only, and there is more behind them. -/
def HiddenPages (authorize : Envelope Payload → Bool) (limit : Nat) : (pages after : Nat) → Prop
  | 0, _ => True
  | pages + 1, after => (read log after limit).exhausted = false ∧
      (∀ event ∈ (read log after limit).items, authorize event = false) ∧
      HiddenPages authorize limit pages (read log after limit).nextSequence

def Hidden (after : Nat) : Prop := ∃ authorize, subscription.authorize = some authorize ∧
  HiddenPages read log authorize subscription.pageSize subscription.maxScanPages after

def Delivered (after : Nat) : Prop :=
  ∀ event ∈ log.retained, subscription.visible event = true → event.sequence ≤ after

/-- A round is about to begin that scans hidden events only, with a visible one behind them. -/
def Stuck (session : Session Payload) : Prop :=
  session.stage = .waiting ∧ (session.current = 0 ∨ log.floor ≤ session.current) ∧
    Hidden subscription read log session.current ∧ ¬ Delivered subscription log session.current

/-- All that is visible has been sent, or the client has been told to reset. -/
def Settled (session : Session Payload) : Prop :=
  Delivered subscription log session.current ∨ .reset ∈ session.pending

/-- The request after so many steps of the gateway, with heartbeats due as they are. -/
def Session.after (heartbeats : Nat → Bool) : Nat → Session Payload → Session Payload
  | 0, session => session
  | steps + 1, session =>
    Session.after (fun step => heartbeats (step + 1)) steps (session.proceed subscription read log (heartbeats 0))

def standing : Interpreter (Replay Payload) (Log Payload) where
  answer request log := (read log request.afterSequence request.limit, log)

variable {subscription read log} (heartbeats : Nat → Bool) (session : Session Payload)

theorem after_one : session.after subscription read log heartbeats 1 =
      session.proceed subscription read log (heartbeats 0) := rfl

theorem after_add (first second : Nat) : Session.after subscription read log heartbeats (first + second) session =
      Session.after subscription read log (fun step => heartbeats (step + first)) second
        (Session.after subscription read log heartbeats first session) := by
  induction first generalizing heartbeats session with
  | zero => rw [Nat.zero_add]; rfl
  | succ first ih =>
    rw [succ_add]
    exact ih _ _

end

section
variable {read : Source Payload} {log : Log Payload} {floor : Nat}

theorem exec_scan_succ (contract : ReadContract read) (few : items.length < limit) :
    (scan authorize limit (pages + 1) cursor floor false items).exec (standing read) log =
      (scan authorize limit pages (read log cursor (max 1 (limit - items.length))).nextSequence
        (max floor log.floor) (read log cursor (max 1 (limit - items.length))).exhausted
        (items ++ (read log cursor (max 1 (limit - items.length))).items.filter authorize)).exec
          (standing read) log := by
  rw [scan, if_pos (by simp [few])]
  change Program.exec (standing read) (@ite _ _ _ _ _) log = _
  split
  · next stalled =>
    obtain ⟨none, more⟩ := Bool.and_eq_true_iff.mp stalled
    refine absurd (isEmpty_iff.mp none)
      (contract.advances _ _ _ (Nat.lt_of_lt_of_le Nat.one_pos (Nat.le_max_left _ _)) ?_)
    simpa [standing] using more
  · change Program.exec (standing read) (scan _ _ _ _ (max floor (read log _ _).retentionFloor) _ _) log = _
    rw [contract.floor]
    rfl

theorem exec_scan_stop (enough : ¬ (items.length < limit ∧ exhausted = false)) :
    (scan authorize limit pages cursor floor exhausted items).exec (standing read) log =
      (.ok ⟨items, cursor, exhausted, floor⟩, log) := by
  cases pages with
  | zero => rfl
  | succ pages =>
    rw [scan, if_neg (by simpa using enough)]
    rfl

theorem scan_standing (contract : ReadContract read) (authorize : Envelope Payload → Bool) (limit pages : Nat)
    (items : List (Envelope Payload)) (ends : exhausted = true → ∀ event ∈ log.retained, event.sequence ≤ cursor) :
    ∃ page, (scan authorize limit pages cursor log.floor exhausted items).exec (standing read) log =
        (.ok page, log) ∧ page.retentionFloor = log.floor ∧ cursor ≤ page.nextSequence ∧
      page.items = items ++ (window Envelope.sequence cursor page.nextSequence log.retained).filter authorize ∧
      (page.exhausted = true → ∀ event ∈ log.retained, event.sequence ≤ page.nextSequence) := by
  induction pages generalizing items cursor exhausted with
  | zero => exact ⟨_, rfl, rfl, le.refl, by simp, ends⟩
  | succ pages ih =>
    by_cases more : items.length < limit ∧ exhausted = false
    · obtain ⟨few, rfl⟩ := more
      rw [exec_scan_succ contract few, max_self]
      have forward := contract.forward log cursor (max 1 (limit - items.length))
      obtain ⟨page, ran, floored, further, all, ends⟩ :=
        ih _ (contract.exhausted log cursor (max 1 (limit - items.length)))
      refine ⟨page, ran, floored, forward.trans further, ?_, ends⟩
      have ascending : Ascending Envelope.sequence log.retained := log.ascending.filter _
      rw [all, contract.covers, append_assoc, ← filter_append, window_join ascending forward further]
    · exact ⟨_, exec_scan_stop more, rfl, le.refl, by simp, ends⟩

theorem hiddenPages_of_scan (contract : ReadContract read) (some_ : 0 < limit) (early : floor ≤ log.floor)
    (ran : (scan authorize limit pages cursor floor false []).exec (standing read) log = (.ok page, log))
    (none : page.items = []) (more : page.exhausted = false) : HiddenPages read log authorize limit pages cursor := by
  induction pages generalizing cursor floor with
  | zero => trivial
  | succ pages ih =>
    rw [exec_scan_succ contract some_, List.length_nil, Nat.sub_zero, max_eq_right some_,
      max_eq_right early, nil_append] at ran
    have hidden : (read log cursor limit).items.filter authorize = [] := by
      obtain ⟨_, ran', -, -, all, -⟩ := scan_standing contract authorize limit pages
        ((read log cursor limit).items.filter authorize) (contract.exhausted log cursor limit)
      cases (Prod.mk.inj (ran.symm.trans ran')).1
      exact (append_eq_nil_iff.mp (all.symm.trans none)).1
    have goesOn : (read log cursor limit).exhausted = false := by
      cases exhausted : (read log cursor limit).exhausted with
      | false => rfl
      | true =>
        rw [exhausted, exec_scan_stop (by simp)] at ran
        cases (Prod.mk.inj ran).1
        cases more
    refine ⟨goesOn, ?_, ?_⟩
    · intro event among
      simpa using filter_eq_nil_iff.mp hidden event among
    · rw [hidden, goesOn] at ran
      exact ih le.refl ran

theorem scan_hiddenPages (contract : ReadContract read) (some_ : 0 < limit)
    (hidden : HiddenPages read log authorize limit pages cursor)
    (ran : (scan authorize limit pages cursor floor false []).exec (standing read) log = (.ok page, log))
    : page.items = [] := by
  induction pages generalizing cursor floor with
  | zero =>
    cases (Prod.mk.inj ran).1
    rfl
  | succ pages ih =>
    obtain ⟨more, all, later⟩ := hidden
    have none : (read log cursor limit).items.filter authorize = [] :=
      filter_eq_nil_iff.mpr fun event among => by simp [all event among]
    rw [exec_scan_succ contract some_, List.length_nil, Nat.sub_zero, max_eq_right some_, more, none, append_nil] at ran
    exact ih later ran

structure Reads (subscription : Subscription Payload) (read : Source Payload) (log : Log Payload)
    (current : Nat) (page : Page Payload) : Prop where
  floor : page.retentionFloor = log.floor
  forward : current ≤ page.nextSequence
  visible : ∀ event ∈ page.items, event ∈ log.retained ∧ current < event.sequence ∧ event.sequence ≤ page.nextSequence
  hidden : page.items = [] ↔ Hidden subscription read log current ∨ Delivered subscription log current

theorem read_standing (contract : ReadContract read) (subscription : Subscription Payload) (log : Log Payload)
    (cur : Nat) : ∃ page, (subscription.read cur subscription.pageSize).exec (standing read) log =
      (.ok page, log) ∧ Reads subscription read log cur page := by
  have some_ : 0 < subscription.pageSize := subscription.paged.1
  unfold Subscription.read
  cases opened : subscription.authorize with
  | none =>
    change ∃ page, (Except.ok (read log cur subscription.pageSize), log) = _ ∧ _
    have within : ∀ event ∈ (read log cur subscription.pageSize).items, event ∈ log.retained ∧
        cur < event.sequence ∧ event.sequence ≤ (read log cur subscription.pageSize).nextSequence :=
      fun event among => mem_window.mp (contract.covers .. ▸ among)
    refine ⟨_, rfl, contract.floor .., contract.forward .., within, fun none => .inr ?_, ?_⟩
    · intro event among _
      have all := contract.exhausted log cur subscription.pageSize (by
        by_contra more
        exact contract.advances _ _ _ some_ (by simpa using more) none) event among
      by_contra beyond
      have found := mem_window.mpr ⟨among, Nat.lt_of_not_le beyond, all⟩
      rw [← contract.covers, none] at found
      cases found
    · rintro (⟨authorize, is, -⟩ | delivered)
      · rw [opened] at is
        cases is
      · rw [eq_nil_iff_forall_not_mem]
        intro event among
        obtain ⟨among, beyond, -⟩ := within event among
        refine absurd (delivered event among ?_) (Nat.not_le_of_lt beyond)
        rw [Subscription.visible, opened]
  | some authorize =>
    have same : subscription.visible = authorize := by
      funext event
      rw [Subscription.visible, opened]
    -- the first page tells the floor
    have began : (scan authorize subscription.pageSize subscription.maxScanPages cur 0 false
          []).exec (standing read) log =
        (scan authorize subscription.pageSize subscription.maxScanPages cur log.floor false
          []).exec (standing read) log := by
      obtain ⟨pages, enough⟩ : ∃ pages, subscription.maxScanPages = pages + 1 :=
        ⟨_, (Nat.sub_add_cancel subscription.scanned.1).symm⟩
      rw [enough, exec_scan_succ contract some_, exec_scan_succ contract some_, Nat.zero_max, max_self]
    obtain ⟨page, ran, floored, forward, all, ends⟩ := scan_standing contract authorize
      subscription.pageSize subscription.maxScanPages [] (by simp : false = true → ∀ event ∈ log.retained,
        event.sequence ≤ cur)
    rw [nil_append] at all
    have found : ∀ event, event ∈ page.items ↔ (event ∈ log.retained ∧ cur < event.sequence ∧
        event.sequence ≤ page.nextSequence) ∧ authorize event = true := by
      intro event
      rw [all, mem_filter, mem_window]
    refine ⟨page, began.trans ran, floored, forward, fun event among => ((found event).mp among).1, fun none => ?_, ?_⟩
    · cases more : page.exhausted with
      | false => exact .inl ⟨authorize, opened, hiddenPages_of_scan contract some_ le.refl ran none more⟩
      | true =>
        refine .inr fun event among shown => ?_
        by_contra beyond
        have here := (found event).mpr ⟨⟨among, Nat.lt_of_not_le beyond, ends more event among⟩, same ▸ shown⟩
        rw [none] at here
        cases here
    · rintro (⟨_, is, hidden⟩ | delivered)
      · cases opened.symm.trans is
        exact scan_hiddenPages contract some_ hidden ran
      · rw [eq_nil_iff_forall_not_mem]
        intro event among
        obtain ⟨⟨among, beyond, -⟩, shown⟩ := (found event).mp among
        exact absurd (delivered event among (same ▸ shown)) (Nat.not_le_of_lt beyond)

end

open Session (proceed)

section
variable {subscription : Subscription Payload} {read : Source Payload} {log : Log Payload}
  {session : Session Payload}

theorem after_reads (subscription : Subscription Payload) (op : Operation) (cur : Nat)
    (pending : List (Message Payload)) (prog : ReadProgram Payload)
    (ran : prog.exec (standing read) log = (.ok page, log)) :
    ∃ steps, ∀ heartbeats, Session.after subscription read log heartbeats steps
      ⟨op, cur, .reading prog, pending⟩ = ⟨op, cur, .reading (.done page), pending⟩ := by
  induction prog with
  | done value =>
    cases (Prod.mk.inj ran).1
    exact ⟨0, fun _ => rfl⟩
  | throw error => cases ran
  | call _ _ ih =>
    obtain ⟨steps, reads⟩ := ih _ ran
    exact ⟨steps + 1, fun heartbeats => reads _⟩

theorem Shows.ends (shows_ : Shows subscription read prog) (log : Log Payload)
    : ∃ page, prog.exec (standing read) log = (.ok page, log) := by
  induction prog with
  | done value => exact ⟨_, rfl⟩
  | throw error =>
    obtain ⟨_, is, -⟩ := shows_
    cases is
  | call _ _ ih => exact ih _ (shows_.2 _ ⟨log, rfl⟩)

/-- A subscription whose round, if one has begun, has begun on the stream as it stands. -/
structure Fresh (subscription : Subscription Payload) (read : Source Payload) (log : Log Payload)
    (session : Session Payload) : Prop where
  subscribed : session.operation = .subscribe
  reads : ∀ program, session.stage = .reading program → ∃ page, program.exec (standing read) log = (.ok page, log) ∧
      Reads subscription read log session.current page
  resets : session.stage = .ended → .reset ∈ session.pending

theorem Reads.near (reads : Reads subscription read log cur page) (near : retentionGap cur page = false)
    : cur = 0 ∨ log.floor ≤ cur :=
  (retentionGap_false.mp near).imp_right (reads.floor ▸ id)

section
variable (contract : ReadContract read) (fresh : Fresh subscription read log session)
include contract fresh

/-- How a fresh request goes on: where it goes on it goes forward, and what it has sent stays sent. -/
theorem Fresh.proceed (heartbeatDue : Bool)
    : Fresh subscription read log (session.proceed subscription read log heartbeatDue) ∧
      session.current ≤ (session.proceed subscription read log heartbeatDue).current ∧ (.reset ∈ session.pending →
        .reset ∈ (session.proceed subscription read log heartbeatDue).pending) := by
  obtain ⟨subscribed, reads, resets⟩ := fresh
  obtain ⟨op, cur, stage, _⟩ := session
  obtain rfl : op = .subscribe := subscribed
  cases stage with
  | ended => exact ⟨⟨rfl, reads, resets⟩, le.refl, id⟩
  | waiting =>
    refine ⟨⟨rfl, ?_, nofun⟩, le.refl, id⟩
    rintro prog is
    cases is
    exact read_standing contract subscription log cur
  | reading prog =>
    obtain ⟨page, ran, found⟩ := reads prog rfl
    cases prog with
    | throw error => cases ran
    | call =>
      refine ⟨⟨rfl, ?_, nofun⟩, le.refl, id⟩
      rintro _ is
      cases is
      exact ⟨page, ran, found⟩
    | done value =>
      obtain rfl := Except.ok.inj (Prod.mk.inj ran).1
      unfold proceed
      dsimp only
      rcases round_cases cur value heartbeatDue with ⟨-, is⟩ | ⟨-, -, is⟩ | ⟨-, -, is | is⟩
      · rw [is]
        exact ⟨⟨rfl, nofun, fun _ => mem_append_right _ (mem_singleton.mpr rfl)⟩, le.refl, mem_append_left _⟩
      · rw [is]
        exact ⟨⟨rfl, nofun, nofun⟩, found.forward, mem_append_left _⟩
      · rw [is]
        exact ⟨⟨rfl, nofun, nofun⟩, le.refl, mem_append_left _⟩
      · rw [is]
        exact ⟨⟨rfl, nofun, nofun⟩, le.refl, mem_append_left _⟩

theorem Fresh.settled (settled : Settled subscription log session) (heartbeats : Nat → Bool) (steps : Nat) :
    Settled subscription log (session.after subscription read log heartbeats steps) := by
  induction steps generalizing heartbeats session with
  | zero => exact settled
  | succ steps ih =>
    obtain ⟨fresh, forward, told⟩ := fresh.proceed contract (heartbeats 0)
    refine ih fresh (settled.imp (fun delivered event among shown => ?_) told) _
    exact (delivered event among shown).trans forward

theorem stuck_stays (open_ : session.stage ≠ .ended) (quiet : .reset ∉ session.pending)
    (near : session.current = 0 ∨ log.floor ≤ session.current) (hidden : Hidden subscription read log session.current)
    (heartbeats : Nat → Bool) (steps : Nat) :
    (session.after subscription read log heartbeats steps).current = session.current ∧
      .reset ∉ (session.after subscription read log heartbeats steps).pending := by
  induction steps generalizing heartbeats session with
  | zero => exact ⟨rfl, quiet⟩
  | succ steps ih =>
    have next : (session.proceed subscription read log (heartbeats 0)).stage ≠ .ended ∧
        .reset ∉ (session.proceed subscription read log (heartbeats 0)).pending ∧
        (session.proceed subscription read log (heartbeats 0)).current = session.current := by
      obtain ⟨subscribed, reads, _⟩ := fresh
      obtain ⟨op, cur, stage, _⟩ := session
      obtain rfl : op = .subscribe := subscribed
      cases stage with
      | ended => exact absurd rfl open_
      | waiting => exact ⟨nofun, quiet, rfl⟩
      | reading prog =>
        obtain ⟨_, ran, found⟩ := reads prog rfl
        cases prog with
        | throw error => cases ran
        | call => exact ⟨nofun, quiet, rfl⟩
        | done value =>
          obtain rfl := Except.ok.inj (Prod.mk.inj ran).1
          have none := found.hidden.mpr (.inl hidden)
          unfold proceed
          dsimp only
          rcases round_cases cur value (heartbeats 0) with
            ⟨gap, is⟩ | ⟨-, some_, is⟩ | ⟨-, -, is | is⟩
          · have near : retentionGap cur value = false :=
              retentionGap_false.mpr (near.imp_right (found.floor ▸ id))
            rw [near] at gap
            cases gap
          · exact absurd none some_
          · rw [is]
            exact ⟨nofun, by simpa using quiet, rfl⟩
          · rw [is]
            exact ⟨nofun, by simpa using quiet, rfl⟩
    obtain ⟨open_, quiet, same⟩ := next
    have stays := ih (fresh.proceed contract (heartbeats 0)).1 open_ quiet (same ▸ near)
      (same ▸ hidden) fun step => heartbeats (step + 1)
    rwa [same] at stays

end

theorem waiting_settles (contract : ReadContract read) (measured : log.last - cur = left)
    (free : ∀ steps, ¬ Stuck subscription read log (Session.after subscription read log heartbeats steps ⟨.subscribe, cur, .waiting, pending⟩))
    : ∃ steps, Fresh subscription read log (Session.after subscription read log heartbeats steps
        ⟨.subscribe, cur, .waiting, pending⟩) ∧
      Settled subscription log (Session.after subscription read log heartbeats steps
        ⟨.subscribe, cur, .waiting, pending⟩) := by
  induction left using Nat.strong_induction_on generalizing cur pending heartbeats with
  | _ left ih =>
    by_cases delivered : Delivered subscription log cur
    · exact ⟨0, ⟨rfl, fun _ is => (by cases is), fun is => (by cases is)⟩, .inl delivered⟩
    obtain ⟨page, ran, found⟩ := read_standing contract subscription log cur
    obtain ⟨steps, reads⟩ := after_reads subscription .subscribe cur pending _ ran
    have next : ∀ more, Session.after subscription read log heartbeats (steps + 1 + (more + 1))
        ⟨.subscribe, cur, .waiting, pending⟩ =
      Session.after subscription read log (fun step => heartbeats (step + 1 + (steps + 1))) more
        (proceed subscription read log (heartbeats (0 + (steps + 1)))
          ⟨.subscribe, cur, .reading (.done page), pending⟩) := by
      intro more
      rw [after_add]
      have reached : Session.after subscription read log heartbeats (steps + 1)
        ⟨.subscribe, cur, .waiting, pending⟩ = _ := reads _
      rw [reached]
      rfl
    generalize heartbeats (0 + (steps + 1)) = due at next
    rcases round_cases cur page due with ⟨-, is⟩ | ⟨-, some_, is⟩ | ⟨near, none, -⟩
    · have does : proceed subscription read log due ⟨.subscribe, cur, .reading (.done page), pending⟩ =
          ⟨.subscribe, cur, .ended, pending ++ [.reset]⟩ := by
        unfold proceed
        dsimp only
        rw [is]
        rfl
      have told : .reset ∈ pending ++ [.reset] := mem_append_right _ (mem_singleton.mpr rfl)
      refine ⟨steps + 1 + (0 + 1), ?_⟩
      rw [next, does]
      exact ⟨⟨rfl, fun _ is => (by cases is), fun _ => told⟩, .inr told⟩
    · -- something has been delivered, and less is left
      have does : proceed subscription read log due ⟨.subscribe, cur, .reading (.done page), pending⟩ =
          ⟨.subscribe, page.nextSequence, .waiting, pending ++ [.events page.items page.nextSequence]⟩ := by
        unfold proceed
        dsimp only
        rw [is]
        rfl
      obtain ⟨event, among⟩ := exists_mem_of_ne_nil _ some_
      obtain ⟨among, _, _⟩ := found.visible event among
      have last := log.ascending.le_lastNumber (mem_filter.mp among).1
      have less : log.last - page.nextSequence < left := by
        unfold Log.last at measured ⊢
        omega
      obtain ⟨more, fresh, settled⟩ := ih _ less rfl fun more => by
        have free := free (steps + 1 + (more + 1))
        rw [next, does] at free
        exact free
      refine ⟨steps + 1 + (more + 1), ?_⟩
      rw [next, does]
      exact ⟨fresh, settled⟩
    · have hidden := (found.hidden.mp none).resolve_right delivered
      exact absurd ⟨rfl, found.near near, hidden, delivered⟩ (free 0)

theorem round_begins (shown : session.Shown subscription read)
    (subscribed : session.operation = .subscribe) (open_ : session.stage ≠ .ended) (log : Log Payload)
    (heartbeats : Nat → Bool) : ∃ steps cur pending, session.after subscription read log heartbeats steps =
        ⟨.subscribe, cur, .waiting, pending⟩ ∨ session.after subscription read log heartbeats steps =
        ⟨.subscribe, cur, .ended, pending ++ [.reset]⟩ := by
  obtain ⟨op, cur, stage, pending⟩ := session
  obtain rfl : op = .subscribe := subscribed
  cases stage with
  | ended => exact absurd rfl open_
  | waiting => exact ⟨0, cur, pending, .inl rfl⟩
  | reading prog =>
    obtain ⟨page, ran⟩ := (shown.reads prog rfl).ends log
    obtain ⟨steps, reads⟩ := after_reads subscription .subscribe cur pending _ ran
    refine ⟨steps + 1, ?_⟩
    rw [after_add, reads, after_one]
    unfold proceed
    dsimp only
    rcases round_cases cur page (heartbeats (0 + steps)) with ⟨-, is⟩ | ⟨-, -, is⟩ | ⟨-, -, is | is⟩
    · rw [is]
      exact ⟨cur, pending, .inr rfl⟩
    · rw [is]
      exact ⟨_, _, .inl rfl⟩
    · rw [is]
      exact ⟨_, _, .inl rfl⟩
    · rw [is]
      exact ⟨_, _, .inl rfl⟩

theorem Session.Shown.after (contract : ReadContract read) (shown : session.Shown subscription read)
    (log : Log Payload) (heartbeats : Nat → Bool) (steps : Nat) :
    (session.after subscription read log heartbeats steps).Shown subscription read := by
  induction steps generalizing heartbeats session with
  | zero => exact shown
  | succ steps ih => exact ih (shown.proceed contract log (heartbeats 0)) _

theorem after_subscribed (subscribed : session.operation = .subscribe) (log : Log Payload) (heartbeats : Nat → Bool)
    (steps : Nat) : (session.after subscription read log heartbeats steps).operation = .subscribe := by
  induction steps generalizing heartbeats session with
  | zero => exact subscribed
  | succ steps ih =>
    refine ih ?_ _
    unfold proceed
    split
    · exact subscribed
    · exact subscribed
    · exact subscribed
    · exact subscribed
    · split <;> (first | exact subscribed | skip)
      split <;> exact subscribed

/-- On a stream that stands still, a subscription delivers all there is to see in finitely many steps, or
tells to reset, exactly if it never begins a round that is stuck. -/
theorem rounds_settle (contract : ReadContract read) (shown : session.Shown subscription read)
    (subscribed : session.operation = .subscribe) (open_ : session.stage ≠ .ended) (heartbeats : Nat → Bool) :
    (∃ steps, ∀ later, steps ≤ later →
      Settled subscription log (session.after subscription read log heartbeats later)) ↔
    ∀ steps, ¬ Stuck subscription read log (session.after subscription read log heartbeats steps) := by
  constructor
  · rintro ⟨steps, settled⟩ step ⟨waits, near, hidden, undelivered⟩
    have goesOn : (session.after subscription read log heartbeats step).stage ≠ .ended := by
      rw [waits]
      nofun
    have fresh : Fresh subscription read log (session.after subscription read log heartbeats step) := by
      refine ⟨after_subscribed subscribed log heartbeats step, fun prog is => ?_, fun is => absurd is goesOn⟩
      rw [waits] at is
      cases is
    have quiet : .reset ∉ (session.after subscription read log heartbeats step).pending :=
      fun told => goesOn ((shown.after contract log heartbeats step).told told)
    obtain ⟨same, quiet⟩ := stuck_stays contract fresh goesOn quiet near hidden
      (fun later => heartbeats (later + step)) steps
    have settled := settled (step + steps) (Nat.le_add_left _ _)
    rw [after_add] at settled
    rcases settled with delivered | told
    · exact undelivered (same ▸ delivered)
    · exact quiet told
  · intro free
    obtain ⟨begun, cur, pending, is | is⟩ := round_begins shown subscribed open_ log heartbeats
    · obtain ⟨steps, fresh, settled⟩ := waiting_settles contract rfl (fun steps => by
        have free := free (begun + steps)
        rwa [after_add, is] at free)
      refine ⟨begun + steps, fun later passed => ?_⟩
      obtain ⟨more, rfl⟩ := Nat.exists_eq_add_of_le passed
      rw [Nat.add_assoc, after_add, is, after_add]
      exact fresh.settled contract settled _ more
    · refine ⟨begun, fun later passed => ?_⟩
      obtain ⟨more, rfl⟩ := Nat.exists_eq_add_of_le passed
      have told : .reset ∈ pending ++ [.reset] := List.mem_append_right _ (List.mem_singleton.mpr rfl)
      rw [after_add, is]
      have fresh : Fresh subscription read log ⟨.subscribe, cur, .ended, pending ++ [.reset]⟩ :=
        ⟨rfl, nofun, fun _ => told⟩
      exact fresh.settled contract (.inr told) _ more

end

section
variable {read : Source Payload}

/-- Where a run leads from a stream that a client has not read yet. -/
def System.run (subscription : Subscription Payload) (read : Source Payload) (start : Log Payload)
    (events : List (Event Payload)) : System Payload :=
  runFrom (System.next subscription read) { log := start } events

/-- Wherever a run leads: if no page that was read for a request from the beginning has passed over a
visible event that was deleted, then a client that was not told to reset has received exactly what is
visible up to its cursor; nobody has received anything else; and a subscription under way delivers, on
the stream as it stands, all there is to see, or tells to reset, exactly if none of its rounds is
stuck. -/
theorem subscriptions_deliver (contract : ReadContract read) (subscription : Subscription Payload)
    (start : Log Payload) (events : List (Event Payload)) :
    (EachStep (System.next subscription read) (Sparing subscription) { log := start } events →
      (System.run subscription read start events).client.told = false →
      (System.run subscription read start events).client.received =
        (System.run subscription read start events).log.between subscription.visible 0
          (System.run subscription read start events).client.cursor) ∧
    (∀ event ∈ (System.run subscription read start events).client.received, subscription.visible event = true) ∧
    ∀ session, (System.run subscription read start events).session = some session →
      session.operation = .subscribe → session.stage ≠ .ended → ∀ heartbeats, ((∃ steps, ∀ later, steps ≤ later →
          Settled subscription (System.run subscription read start events).log
            (session.after subscription read (System.run subscription read start events).log heartbeats later)) ↔
        ∀ steps, ¬ Stuck subscription read (System.run subscription read start events).log
          (session.after subscription read (System.run subscription read start events).log heartbeats
            steps)) := by
  have always : EachStep (System.next subscription read) (fun _ _ => True) { log := start } events :=
    eachStep_of_always fun _ _ _ => trivial
  have shown : (System.run subscription read start events).Shown subscription read :=
    invariant_of_steps (System.Shown subscription read)
      (fun _ event shown _ => System.Shown.next contract shown event) ⟨nofun, nofun⟩ always
  refine ⟨fun sparing live => ?_, shown.received, ?_⟩
  · have sound : Sound subscription read (System.run subscription read start events) :=
      invariant_of_steps (Sound subscription read) (fun _ _ sound sparing => sound.next contract sparing)
        ⟨fun _ => zero_le _, fun _ => window_self.symm, nofun⟩ sparing
    exact sound.received live
  · intro session held subscribed open_ heartbeats
    exact rounds_settle contract (shown.session session held) subscribed open_ heartbeats

theorem sparing_of (safe : sys.log.floor = 0 ∨ ∀ session, sys.session = some session → session.current ≠ 0)
    (event : Event Payload) : Sparing subscription sys event := by
  cases event with
  | proceed =>
    intro session req next held _ zero event among _
    refine .inr ((safe.resolve_right fun beyond => beyond session held zero) ▸ ?_)
    exact sys.log.positive event among
  | append event => trivial
  | retain => trivial
  | request => trivial
  | revoke => trivial
  | close => trivial
  | receive => trivial
  | disconnect => trivial

def oddOnly : Subscription Nat where
  authorize := some fun event => event.payload % 2 = 1
  maxScanPages := 1
  pageSize := 1

def recorded (sequences : List (Nat × Nat)) : List (Event Nat) :=
  sequences.map fun (sequence, payload) => .append ⟨sequence, payload⟩

def answered (operation : Operation) (steps : Nat) : List (Event Nat) :=
  .request operation :: List.replicate steps (.proceed false) ++ [.receive]

/-- Two events are received, the first of them is deleted, and the next is received. -/
def trimmedRun : List (Event Nat) :=
  recorded [(1, 1), (4, 3)] ++ answered .subscribe 3 ++ .disconnect :: answered (.replay 1) 3 ++
    .disconnect :: recorded [(6, 2), (7, 5)] ++ .retain 1 :: answered (.replay 1) 3

theorem subscriptions_deliver_trimmed : (System.run oddOnly postgresRead .empty trimmedRun).client.received =
        (System.run oddOnly postgresRead .empty trimmedRun).log.between oddOnly.visible 0 6 ∧
      (System.run oddOnly postgresRead .empty trimmedRun).client.received = [⟨1, 1⟩, ⟨4, 3⟩] := by
  have delivers := subscriptions_deliver postgresRead_contract oddOnly .empty trimmedRun
  refine ⟨delivers.1 ?_ (by decide +kernel), by decide +kernel⟩
  have safe : EachStep (System.next oddOnly postgresRead) (fun system _ => system.log.floor = 0 ∨
      system.session.all (·.current ≠ 0) = true) { log := .empty } trimmedRun := by decide +kernel
  refine safe.imp fun event _ system safe => sparing_of (safe.imp_right ?_) event
  intro all session held
  rw [held, Option.all_some] at all
  exact of_decide_eq_true all

/-- A client keeps the cursor of an empty stream; the first of two events is deleted before it reads
on. -/
def overtakenRun : List (Event Nat) :=
  answered (.replay 1) 3 ++ .disconnect :: recorded [(1, 1), (2, 3)] ++ .retain 1 :: answered (.replay 1) 3

/-- A hidden event comes before a visible one, and a round scans one event. -/
def obscuredRun : List (Event Nat) := recorded [(1, 2), (2, 1)] ++ [.request .subscribe]

/-- The client is at the cursor of the second event without the first, and was not told to reset; the
subscription sends nothing however long it goes on. -/
theorem subscriptions_lose : ((System.run oddOnly postgresRead .empty overtakenRun).client.told = false ∧
      (System.run oddOnly postgresRead .empty overtakenRun).client.cursor = 2 ∧
      (System.run oddOnly postgresRead .empty overtakenRun).client.received ≠
        (System.run oddOnly postgresRead .empty overtakenRun).log.between oddOnly.visible 0 2) ∧
    ∃ session, (System.run oddOnly postgresRead .empty obscuredRun).session = some session ∧
      ∀ heartbeats, ¬ ∃ steps, ∀ later, steps ≤ later →
        Settled oddOnly (System.run oddOnly postgresRead .empty obscuredRun).log
          (session.after oddOnly postgresRead (System.run oddOnly postgresRead .empty obscuredRun).log
            heartbeats later) := by
  refine ⟨by decide +kernel, ⟨.subscribe, 0, .waiting, []⟩, rfl, fun heartbeats settles => ?_⟩
  have shown : Session.Shown oddOnly postgresRead ⟨.subscribe, 0, .waiting, []⟩ := ⟨nofun, nofun, nofun⟩
  have hidden : Hidden oddOnly postgresRead (System.run oddOnly postgresRead .empty obscuredRun).log 0 :=
    ⟨_, rfl, by decide +kernel, by decide +kernel, trivial⟩
  have undelivered : ¬ Delivered oddOnly (System.run oddOnly postgresRead .empty obscuredRun).log 0 :=
    fun delivered => absurd (delivered ⟨2, 1⟩ (by decide +kernel) (by decide)) (by decide)
  exact (rounds_settle postgresRead_contract shown rfl nofun heartbeats).mp settles 0
    ⟨rfl, .inl rfl, hidden, undelivered⟩

end
end Applik8s.Streams
