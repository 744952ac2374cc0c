import Applik8s.Signals.Records

/-! What a signal store is for, whatever it keeps its signals in. A ledger is the set of
signals, the idempotency keys their decisions were recorded under, and the facts ever
announced. It grows by three kinds of entry, and everything said about the lifecycle
of a signal follows from them. -/
namespace Applik8s.Signals
open List Option

structure Ledger where
  signals : String → Option StoredInstance
  /-- The winning action of a signal by the idempotency key it was recorded under. -/
  resolutions : String → String → Option String
  /-- Every fact announced, in order. -/
  facts : List OutboxFact

namespace Ledger

def empty : Ledger := ⟨fun _ => none, fun _ _ => none, []⟩

def withSignal (ledger : Ledger) (signal : StoredInstance) (fact : OutboxFact) : Ledger :=
  { ledger with
    signals := Function.update ledger.signals signal.id (some signal)
    facts := ledger.facts ++ [fact] }

def withResolution (ledger : Ledger) (id key action : String) : Ledger :=
  { ledger with
    resolutions := Function.update ledger.resolutions id (Function.update (ledger.resolutions id) key (some action)) }

inductive Entry (host : Host) (ledger : Ledger) : Ledger → Prop where
  | issue (signal : StoredInstance) (absent : ledger.signals signal.id = none)
      (named : signal.id = signalIdOf host signal.occurrenceKey) (pending : signal.terminal = none) :
      Entry host ledger (ledger.withSignal signal (issuedFact host signal))
  | resolve (signal : StoredInstance) (action : String) (input : Json) (actor : Actor)
      (receipt : Receipt) (decidedAt key : String) (held : ledger.signals signal.id = some signal)
      (pending : signal.terminal = none) :
      Entry host ledger ((ledger.withSignal
        { signal with terminal := some (.resolved action input actor receipt decidedAt) }
        (resolvedFact host signal action decidedAt)).withResolution signal.id key action)
  | expire (signal : StoredInstance) (expiredAt : String)
      (held : ledger.signals signal.id = some signal) (pending : signal.terminal = none) :
      Entry host ledger (ledger.withSignal { signal with terminal := some (.expired expiredAt) }
        (expiredFact host signal expiredAt))

abbrev Entries (host : Host) : Ledger → Ledger → Prop := Relation.ReflTransGen (Entry host)

variable {host : Host} {ledger later : Ledger} {id : String} {signal : StoredInstance}

/-- How many facts of a kind were announced for a signal. -/
def announced (ledger : Ledger) (kind : FactKind) (id : String) : Nat :=
  ledger.facts.countP fun fact => fact.kind = kind ∧ fact.signalId = id

/-- How many facts of a kind a signal's state calls for. -/
def due (state : Option StoredInstance) (kind : FactKind) : Nat :=
  match kind, state with
  | _, none => 0
  | .issued, some _ => 1
  | .resolved, some signal => if signal.terminal matches some (.resolved ..) then 1 else 0
  | .expired, some signal => if signal.terminal matches some (.expired _) then 1 else 0

/-- A ledger whose signals sit under their own ids and whose facts are the ones its
signals call for, each once. -/
structure Orderly (host : Host) (ledger : Ledger) : Prop where
  named : ∀ id signal, ledger.signals id = some signal → signal.id = id ∧ id = signalIdOf host signal.occurrenceKey
  told : ∀ kind id, ledger.announced kind id = due (ledger.signals id) kind
  /-- A recorded key belongs to a decided signal and names the action that won. -/
  correlated : ∀ id key action, ledger.resolutions id key = some action →
    ∃ signal input actor receipt decidedAt, ledger.signals id = some signal ∧
      signal.terminal = some (.resolved action input actor receipt decidedAt)
  /-- Only one key is recorded for a signal. -/
  single : ∀ id first second, (ledger.resolutions id first).isSome → (ledger.resolutions id second).isSome →
    first = second

/-- Nothing that was decided or announced is taken back. -/
structure Follows (ledger later : Ledger) : Prop where
  signals : ∀ id signal, ledger.signals id = some signal → ∃ terminal,
    later.signals id = some { signal with terminal } ∧ (signal.terminal.isSome → terminal = signal.terminal)
  resolutions : ∀ id key action, ledger.resolutions id key = some action → later.resolutions id key = some action
  facts : ledger.facts <+: later.facts

theorem Follows.refl (ledger : Ledger) : Follows ledger ledger where
  signals id signal held := ⟨signal.terminal, held, fun _ => rfl⟩
  resolutions _ _ _ held := held
  facts := prefix_rfl

variable {first second third : Ledger}

theorem Follows.trans (one : Follows first second) (two : Follows second third) : Follows first third where
  signals id signal held := by
    obtain ⟨_, between, kept⟩ := one.signals id signal held
    obtain ⟨final, after, settled⟩ := two.signals id _ between
    refine ⟨final, after, fun decided => ?_⟩
    have same := kept decided
    exact (settled (by simpa [same] using decided)).trans same
  resolutions id key action held := two.resolutions id key action (one.resolutions id key action held)
  facts := one.facts.trans two.facts

theorem orderly_empty (host : Host) : Orderly host empty where
  named _ _ held := by simp [empty] at held
  told kind id := by cases kind <;> simp [announced, empty, due]
  correlated _ _ _ held := by simp [empty] at held
  single _ _ _ held := by simp [empty] at held

variable (fact : OutboxFact)

theorem announced_withSignal (ledger : Ledger) (signal : StoredInstance)
    (kind : FactKind) (id : String) : (ledger.withSignal signal fact).announced kind id =
      ledger.announced kind id + if fact.kind = kind ∧ fact.signalId = id then 1 else 0 := by
  simp [announced, withSignal, countP_append, countP_cons]

@[simp] theorem withSignal_signals (ledger : Ledger) (signal : StoredInstance) (id : String) :
    (ledger.withSignal signal fact).signals id = if id = signal.id then some signal else ledger.signals id := by
  simp [withSignal, Function.update_apply]

@[simp] theorem withSignal_resolutions (ledger : Ledger) (signal : StoredInstance) :
    (ledger.withSignal signal fact).resolutions = ledger.resolutions := rfl

@[simp] theorem withResolution_signals (ledger : Ledger) (id key action : String) :
    (ledger.withResolution id key action).signals = ledger.signals := rfl

@[simp] theorem withResolution_facts (ledger : Ledger) (id key action : String) :
    (ledger.withResolution id key action).facts = ledger.facts := rfl

@[simp] theorem announced_withResolution (ledger : Ledger) (id key action other : String) (kind : FactKind) :
    (ledger.withResolution id key action).announced kind other = ledger.announced kind other := rfl

theorem withResolution_resolutions (ledger : Ledger) (id key action : String) (other probe : String) :
    (ledger.withResolution id key action).resolutions other probe =
      if other = id ∧ probe = key then some action else ledger.resolutions other probe := by
  by_cases same : other = id
  · subst same
    by_cases here : probe = key <;> simp [withResolution, here]
  · simp [withResolution, same]

variable {next : StoredInstance}

private theorem follows_withSignal {fact : OutboxFact} (undecided : ∀ held, ledger.signals next.id = some held →
      held.terminal = none ∧ ∃ terminal, next = { held with terminal }) :
    Follows ledger (ledger.withSignal next fact) where
  signals id signal held := by
    by_cases same : id = next.id
    · subst same
      obtain ⟨pending, terminal, rfl⟩ := undecided signal held
      exact ⟨terminal, by simp, by simp [pending]⟩
    · exact ⟨signal.terminal, by simpa [same] using held, fun _ => rfl⟩
  resolutions _ _ _ held := held
  facts := prefix_append _ _

theorem Orderly.unrecorded (orderly : Orderly host ledger) (held : ledger.signals id = some signal)
    (pending : signal.terminal = none) (key : String) : ledger.resolutions id key = none := by
  cases recorded : ledger.resolutions id key with
  | none => rfl
  | some action =>
    obtain ⟨decided, _, _, _, _, found, terminal⟩ :=
      orderly.correlated id key action recorded
    obtain rfl : signal = decided := some.inj (held.symm.trans found)
    simp [pending] at terminal

theorem entry_follows (orderly : Orderly host ledger) (entry : Entry host ledger later) : Follows ledger later := by
  cases entry with
  | issue _ absent => exact follows_withSignal fun held found => by simp [absent] at found
  | expire signal _ held pending =>
    refine follows_withSignal fun cur found => ?_
    obtain rfl : signal = cur := some.inj (held.symm.trans found)
    exact ⟨pending, _, rfl⟩
  | resolve signal action input actor receipt decidedAt key held pending =>
    have decided : Follows ledger (ledger.withSignal
        { signal with terminal := some (.resolved action input actor receipt decidedAt) }
        (resolvedFact host signal action decidedAt)) := by
      refine follows_withSignal fun cur found => ?_
      obtain rfl : signal = cur := some.inj (held.symm.trans found)
      exact ⟨pending, _, rfl⟩
    refine ⟨decided.signals, fun other probe earlier recorded => ?_, decided.facts⟩
    rw [withResolution_resolutions, if_neg]
    · exact recorded
    · rintro ⟨rfl, rfl⟩
      simp [orderly.unrecorded held pending] at recorded

private theorem told_withSignal {fact : OutboxFact}
    (told : ∀ kind id, ledger.announced kind id = due (ledger.signals id) kind) (about : fact.signalId = next.id)
    (calls : ∀ kind, due (some next) kind =
      due (ledger.signals next.id) kind + if fact.kind = kind then 1 else 0) (kind : FactKind) (id : String) :
    (ledger.withSignal next fact).announced kind id = due ((ledger.withSignal next fact).signals id) kind := by
  rw [announced_withSignal, withSignal_signals, told, about]
  by_cases same : id = next.id
  · subst same
    simp [calls kind]
  · simp [same, Ne.symm same]

private theorem named_withSignal (named : ∀ id signal, ledger.signals id = some signal →
      signal.id = id ∧ id = signalIdOf host signal.occurrenceKey)
    (own : next.id = signalIdOf host next.occurrenceKey) (id : String) (signal : StoredInstance)
    (held : (ledger.withSignal next fact).signals id = some signal) :
    signal.id = id ∧ id = signalIdOf host signal.occurrenceKey := by
  rw [withSignal_signals] at held
  split at held
  · rename_i same
    cases held
    exact ⟨same.symm, same.trans own⟩
  · exact named id signal held

private theorem correlated_withSignal (correlated : ∀ id key action, ledger.resolutions id key = some action →
      ∃ signal input actor receipt decidedAt, ledger.signals id = some signal ∧
        signal.terminal = some (.resolved action input actor receipt decidedAt))
    (undecided : ∀ held, ledger.signals next.id = some held → held.terminal = none)
    (id key action : String) (recorded : ledger.resolutions id key = some action) :
    ∃ signal input actor receipt decidedAt, (ledger.withSignal next fact).signals id = some signal ∧
      signal.terminal = some (.resolved action input actor receipt decidedAt) := by
  obtain ⟨signal, input, actor, receipt, decidedAt, held, terminal⟩ := correlated id key action recorded
  refine ⟨signal, input, actor, receipt, decidedAt, ?_, terminal⟩
  rw [withSignal_signals, if_neg]
  · exact held
  · rintro rfl
    simp [undecided signal held] at terminal

theorem entry_orderly (orderly : Orderly host ledger) (entry : Entry host ledger later) : Orderly host later := by
  cases entry with
  | issue signal absent named pending =>
    refine ⟨named_withSignal _ orderly.named named, ?_, ?_, orderly.single⟩
    · refine told_withSignal orderly.told rfl fun kind => ?_
      cases kind <;> simp [due, absent, issuedFact, pending]
    · exact correlated_withSignal _ orderly.correlated fun held found => by simp [absent] at found
  | expire signal _ held pending =>
    refine ⟨named_withSignal _ orderly.named (orderly.named _ _ held).2, ?_, ?_, orderly.single⟩
    · refine told_withSignal orderly.told rfl fun kind => ?_
      cases kind <;> simp [due, held, expiredFact, pending]
    refine correlated_withSignal _ orderly.correlated fun cur found => ?_
    obtain rfl : signal = cur := some.inj (held.symm.trans found)
    exact pending
  | resolve signal action input actor receipt decidedAt key held pending =>
    refine ⟨named_withSignal (resolvedFact host signal action decidedAt) orderly.named
      (orderly.named _ _ held).2, ?_, ?_, ?_⟩
    · refine told_withSignal orderly.told rfl fun kind => ?_
      cases kind <;> simp [due, held, resolvedFact, pending]
    · intro id probe recorded found
      rw [withResolution_resolutions] at found
      split at found
      · rename_i here
        obtain ⟨rfl, rfl⟩ := here
        cases found
        exact ⟨{ signal with terminal := some (.resolved action input actor receipt decidedAt) }, input,
          actor, receipt, decidedAt, by simp, rfl⟩
      · refine correlated_withSignal (resolvedFact host signal action decidedAt) orderly.correlated
          (fun cur found => ?_) id probe recorded found
        obtain rfl : signal = cur := some.inj (held.symm.trans found)
        exact pending
    · intro id first second one two
      rw [withResolution_resolutions] at one two
      by_cases same : id = signal.id
      · subst same
        simp only [true_and, withSignal_resolutions, orderly.unrecorded held pending] at one two
        split at one <;> split at two <;> simp_all
      · simp only [same, false_and, if_false] at one two
        exact orderly.single id first second one two

theorem entries_orderly (orderly : Orderly host ledger) (entries : Entries host ledger later) :
    Orderly host later ∧ Follows ledger later := by
  induction entries with
  | refl => exact ⟨orderly, .refl ledger⟩
  | tail _ entry ih => exact ⟨entry_orderly ih.1 entry, ih.2.trans (entry_follows ih.1 entry)⟩

structure Unchanged (id : String) (ledger later : Ledger) : Prop where
  signals : later.signals id = ledger.signals id
  resolutions : later.resolutions id = ledger.resolutions id
  facts : ∀ kind, later.announced kind id = ledger.announced kind id

theorem Unchanged.refl (id : String) (ledger : Ledger) : Unchanged id ledger ledger :=
  ⟨rfl, rfl, fun _ => rfl⟩

theorem Unchanged.trans (one : Unchanged id first second)
    (two : Unchanged id second third) : Unchanged id first third :=
  ⟨two.signals.trans one.signals, two.resolutions.trans one.resolutions,
    fun kind => (two.facts kind).trans (one.facts kind)⟩

theorem unchanged_withSignal {fact : OutboxFact} (other : id ≠ next.id)
    (about : fact.signalId = next.id) : Unchanged id ledger (ledger.withSignal next fact) where
  signals := by simp [other]
  resolutions := rfl
  facts kind := by simp [announced_withSignal, about, Ne.symm other]

theorem unchanged_withResolution {key action other : String} (apart : id ≠ other) :
    Unchanged id ledger (ledger.withResolution other key action) where
  signals := rfl
  resolutions := by simp [withResolution, apart]
  facts _ := rfl

theorem entry_unchanged (held : ledger.signals id = some signal) (decided : signal.terminal.isSome)
    (entry : Entry host ledger later) : Unchanged id ledger later := by
  have apart : ∀ {cur : StoredInstance}, ledger.signals cur.id = some cur →
      cur.terminal = none → id ≠ cur.id := by
    rintro _ found pending rfl
    cases held.symm.trans found
    simp [pending] at decided
  cases entry with
  | issue _ absent =>
    refine unchanged_withSignal (fun same => ?_) rfl
    rw [← same, held] at absent
    cases absent
  | resolve _ _ _ _ _ _ _ found pending =>
    have other := apart found pending
    exact .trans (by exact unchanged_withSignal other rfl) (unchanged_withResolution other)
  | expire _ _ found pending =>
    have other := apart found pending
    exact unchanged_withSignal other rfl

theorem entries_unchanged (held : ledger.signals id = some signal) (decided : signal.terminal.isSome)
    (entries : Entries host ledger later) : Unchanged id ledger later := by
  induction entries with
  | refl => exact .refl id ledger
  | tail _ entry ih => exact ih.trans (entry_unchanged (ih.signals.trans held) decided entry)

end Ledger

/-- The texts a store hashes to name the signals of some occurrences and their facts. -/
def hashedTexts (host : Host) (known : Set String) : Set String :=
  {text | ∃ key ∈ known, text = join "\x00" ["signal", key] ∨
    ∃ kind : FactKind, text = join "\x00" [signalIdOf host key, kind.name]}

/-- SHA-256 tells apart the texts of a run whose occurrences are `known`. -/
def Collisionless (host : Host) (known : Set String) : Prop :=
  Set.InjOn host.sha256 (hashedTexts host known)

theorem join_pair (first second : String) : join "\x00" [first, second] = first ++ "\x00" ++ second := by
  rfl

theorem text_inj (long : first.length = second.length) (same : first ++ "\x00" ++ key = second ++ "\x00" ++ other)
    : first = second ∧ key = other := by
  have chars := congrArg String.toList same
  simp only [String.toList_append, append_assoc] at chars
  obtain ⟨ids, rest⟩ := append_inj chars (by simp [String.length_toList, long])
  obtain ⟨-, keys⟩ := append_inj rest rfl
  exact ⟨String.toList_inj.mp ids, String.toList_inj.mp keys⟩

theorem Collisionless.mono (distinct : Collisionless host known) (subset : fewer ⊆ known)
    : Collisionless host fewer := by
  refine Set.InjOn.mono ?_ distinct
  rintro _ ⟨key, member, named⟩
  exact ⟨key, subset member, named⟩

theorem Collisionless.occurrence (distinct : Collisionless host known) (one : first ∈ known) (two : second ∈ known)
    (same : signalIdOf host first = signalIdOf host second) : first = second := by
  have texts := distinct ⟨first, one, Or.inl rfl⟩ ⟨second, two, Or.inl rfl⟩ same
  rw [join_pair, join_pair] at texts
  exact (text_inj rfl texts).2

theorem Collisionless.fact {kind : FactKind} (distinct : Collisionless host known) (one : first ∈ known)
    (two : second ∈ known)
    (same : stableSignalId host [signalIdOf host first, kind.name] = stableSignalId host [signalIdOf host second, other.name])
    : signalIdOf host first = signalIdOf host second ∧ kind = other := by
  have texts := distinct ⟨first, one, Or.inr ⟨kind, rfl⟩⟩ ⟨second, two, Or.inr ⟨other, rfl⟩⟩ same
  rw [join_pair, join_pair] at texts
  obtain ⟨ids, names⟩ := text_inj (by simp [signalIdOf]) texts
  refine ⟨ids, ?_⟩
  cases kind <;> cases other <;> first | rfl | exact absurd names (by decide)

/-! ### What a call may enter -/

def authorizedReceipt (request : ResolutionRequest) (authorize : Option ResolutionAuthorizer)
    (signal : StoredInstance) : Except Failure (Option Receipt) :=
  match authorize with
  | some authorize => authorize request signal
  | none => .ok request.receipt

namespace Operation
variable {host : Host} {ledger : Ledger}

/-- The entries a call may make, with what it had to pass. -/
inductive Enters (host : Host) : Operation → Ledger → Ledger → Prop where
  | issue {ledger : Ledger} {request : IssueRequest} {authorize : IssueAuthorizer}
      {receipt : Option Receipt} {signal : StoredInstance}
      (absent : ledger.signals (signalIdOf host request.occurrenceKey) = none)
      (allowed : authorize request (signalIdOf host request.occurrenceKey) = .ok receipt)
      (issuedAt expiresAt : String)
      (fresh : signal = { issuedInstance request (signalIdOf host request.occurrenceKey) receipt with
        issuedAt, expiresAt }) :
      Enters host (.issue request authorize) ledger (ledger.withSignal signal (issuedFact host signal))
  | resolve {ledger : Ledger} {request : ResolutionRequest} {authorize : Option ResolutionAuthorizer}
      {finalize : TerminalFinalizer} {current : StoredInstance} {receipt : Receipt}
      (held : ledger.signals request.id = some current) (own : current.id = request.id)
      (pending : current.terminal = none) (declared : request.action ∈ current.actions)
      (allowed : authorizedReceipt request authorize current = .ok (some receipt))
      (final : finalize current (.resolved request.action request.actor receipt request.decidedAt) = .ok ()) :
      Enters host (.resolve request authorize finalize) ledger ((ledger.withSignal (current.decidedBy request receipt)
          (resolvedFact host current request.action request.decidedAt)).withResolution request.id
            request.idempotencyKey request.action)
  | expire {ledger : Ledger} {id expiredAt : String} {finalize : TerminalFinalizer}
      {current : StoredInstance} (held : ledger.signals id = some current) (own : current.id = id)
      (pending : current.terminal = none) (final : finalize current (.expired expiredAt) = .ok ()) :
      Enters host (.expire id expiredAt finalize) ledger
        (ledger.withSignal (current.lapsedAt expiredAt) (expiredFact host current expiredAt))
  | sweep {ledger : Ledger} {now id : String} {limit : Int} {finalize : TerminalFinalizer}
      {current : StoredInstance} (held : ledger.signals id = some current) (own : current.id = id)
      (pending : current.terminal = none) (final : finalize current (.expired now) = .ok ()) :
      Enters host (.expireDue now limit finalize) ledger
        (ledger.withSignal (current.lapsedAt now) (expiredFact host current now))

theorem Enters.entry (enters : Enters host op ledger later) : ledger.Entry host later := by
  cases enters with
  | issue absent _ _ _ fresh =>
    subst fresh
    exact .issue _ absent rfl rfl
  | resolve held own pending _ _ _ =>
    rw [← own] at held ⊢
    exact .resolve _ _ _ _ _ _ _ held pending
  | expire held own pending _ | sweep held own pending _ =>
    rw [← own] at held
    exact .expire _ _ held pending

/-- A callback of the call fails for the signal, as the ledger has it. -/
def Refuses (host : Host) (ledger : Ledger) (id : String) : Operation → Prop
  | .issue request authorize =>
    id = signalIdOf host request.occurrenceKey ∧ ∃ failure, authorize request id = .error failure
  | .resolve request authorize finalize =>
    id = request.id ∧ ∃ current failure, ledger.signals id = some current ∧
      (authorizedReceipt request authorize current = .error failure ∨
        ∃ receipt, authorizedReceipt request authorize current = .ok (some receipt) ∧
          finalize current (.resolved request.action request.actor receipt request.decidedAt) = .error failure)
  | .expire other expiredAt finalize =>
    id = other ∧ ∃ current failure, ledger.signals id = some current ∧
      finalize current (.expired expiredAt) = .error failure
  | .expireDue now _ finalize =>
    ∃ current failure, ledger.signals id = some current ∧ finalize current (.expired now) = .error failure

variable {id : String}

theorem Refuses.congr {op : Operation} (same : later.signals id = ledger.signals id)
    (refuses : op.Refuses host ledger id) : op.Refuses host later id := by
  cases op <;> simp only [Refuses, same] at refuses ⊢ <;> exact refuses

theorem Enters.unchanged (enters : Enters host op ledger later) (refuses : op.Refuses host ledger id)
    : Ledger.Unchanged id ledger later := by
  cases enters with
  | issue _ allowed =>
    obtain ⟨rfl, err, failed⟩ := refuses
    simp [failed] at allowed
  | @resolve _ _ _ _ cur _ held _ _ _ allowed final =>
    obtain ⟨rfl, other, err, found, failed⟩ := refuses
    obtain rfl : cur = other := some.inj (held.symm.trans found)
    simp [allowed, final] at failed
  | expire held _ _ final =>
    obtain ⟨rfl, other, err, found, failed⟩ := refuses
    cases held.symm.trans found
    simp [failed] at final
  | @sweep _ _ _ _ _ cur held own _ final =>
    obtain ⟨_, _, found, failed⟩ := refuses
    refine Ledger.unchanged_withSignal ?_ rfl
    rintro rfl
    have here : ledger.signals cur.id = some cur := own ▸ held
    cases here.symm.trans found
    simp [failed] at final

abbrev EntersAll (host : Host) (operation : Operation) : Ledger → Ledger → Prop :=
  Relation.ReflTransGen (Enters host operation)

theorem entries_of_entersAll (enters : EntersAll host op ledger later) : Ledger.Entries host ledger later :=
  Relation.ReflTransGen.mono (fun _ _ => Enters.entry) _ _ enters

theorem unchanged_of_entersAll (enters : EntersAll host op ledger later) (refuses : op.Refuses host ledger id)
    : Ledger.Unchanged id ledger later := by
  induction enters with
  | refl => exact .refl id ledger
  | tail _ last ih => exact ih.trans (last.unchanged (refuses.congr ih.signals))

/-- An issuance is answered with the one signal of its occurrence, as it was at some point
since. -/
def Answered (host : Host) (signals : String → Option StoredInstance) : Operation → Answer → Prop
  | .issue request _, answer => ∃ signal replayed terminal, answer = .issued signal replayed ∧
      signal.occurrenceKey = request.occurrenceKey ∧
      signals (signalIdOf host request.occurrenceKey) = some { signal with terminal }
  | _, _ => True

def issues : Operation → Set String
  | .issue request _ => {request.occurrenceKey}
  | _ => ∅

end Operation

/-- A further invariant of the signals of a store, with what it asks of the calls when
they are taken up. `known` are the occurrence keys the calls may issue. -/
structure Watch (host : Host) (known : Set String) where
  takes : Operation → (String → Option StoredInstance) → Prop
  holds : (String → Option StoredInstance) → Prop
  start : holds fun _ => none
  keeps : ∀ {operation : Operation} {origin before after : Ledger}, operation.issues ⊆ known →
    takes operation origin.signals → origin.Follows before → before.Orderly host → holds before.signals →
    operation.Enters host before after → holds after.signals

def Watch.none (host : Host) (known : Set String) : Watch host known where
  takes _ _ := True
  holds _ := True
  start := trivial
  keeps _ _ _ _ _ _ := trivial

theorem Watch.keeps_all {origin after : Ledger} (watch : Watch host known) (expected : op.issues ⊆ known)
    (taken : watch.takes op origin.signals) (since : origin.Follows before) (orderly : before.Orderly host)
    (holds : watch.holds before.signals) (enters : op.EntersAll host before after) : watch.holds after.signals := by
  induction enters with
  | refl => exact holds
  | tail earlier last ih =>
    obtain ⟨here, further⟩ := Ledger.entries_orderly orderly (Operation.entries_of_entersAll earlier)
    exact watch.keeps expected taken (since.trans further) here ih last

end Applik8s.Signals
