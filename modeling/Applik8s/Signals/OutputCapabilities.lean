import Mathlib.Logic.Relation
import Applik8s.Lib.Table

/-! What a query may return of signals: `authorizeQueryOutputCapabilities` of `packages/applik8s/src/query-gateway.ts`,
which `snapshot` and `invoke` pass before they return an output. The scan stops at a signal reference, and keeps one of
those that have their contract's and their issuance's id in common. -/
namespace Applik8s.QueryGateway
open Lib List Relation

/-- A value of an output; of those that are no objects only the strings matter. -/
inductive Value where
  | string (text : String) | primitive | object (place : Nat)
  deriving DecidableEq

inductive Node where
  | array (items : List Value) | record (members : List (String × Value))

/-- The objects of an output, which may share what they hold, or hold each other. -/
abbrev Heap := Nat → Node

/-- `ApplicationQuerySignalCapability`. -/
structure Capability where
  contractId : String
  contractName : String
  contractVersion : String
  issuanceId : String
  expiresAt : String
  deriving DecidableEq

instance : Keyed Capability String := ⟨fun capability => capability.contractId ++ "\x00" ++ capability.issuanceId⟩

variable (heap : Heap)

/-- `Reflect.get`, where the value is an object. -/
def get (value : Value) (key : String) : Option Value :=
  match value with
  | .object place =>
    match heap place with
    | .record members => members.lookup key
    | .array _ => none
  | _ => none

def getString (value : Option Value) (key : String) : Option String :=
  match value.bind (get heap · key) with
  | some (.string text) => some text
  | _ => none

def isReference (place : Nat) : Bool := getString heap (some (.object place)) "$type" = some "applik8s.signal/v1"

/-- What a well-formed reference refers to. -/
def referred (place : Nat) : Option Capability := do
  let contract := get heap (.object place) "contract"
  let issuance := get heap (.object place) "issuance"
  return {
    contractId := ← getString heap contract "id"
    contractName := ← getString heap contract "name"
    contractVersion := ← getString heap contract "version"
    issuanceId := ← getString heap issuance "id"
    expiresAt := ← getString heap (some (.object place)) "expiresAt" }

def signalCapability (place : Nat) : Except String (Option Capability) :=
  if isReference heap place then
    match referred heap place with
    | some capability => .ok (some capability)
    | none => .error "Application query returned a malformed reserved signal capability."
  else .ok none

def Node.values : Node → List Value
  | .array items => items
  | .record members => members.map Prod.snd

/-- The loop of the scan. What is pending is popped from the end that was pushed last. -/
def scan : Nat → List Value → List Nat → Table Capability → Except String (Table Capability)
  | _, [], _, capabilities => .ok capabilities
  | 0, _ :: _, _, _ => .error "Application query output capability scan exceeded its bounded node budget."
  | budget + 1, .object place :: pending, seen, capabilities =>
    if place ∈ seen then scan budget pending seen capabilities
    else
      match signalCapability heap place with
      | .ok (some capability) => scan budget pending (place :: seen) (capabilities.put capability)
      | .ok none => scan budget ((heap place).values.reverse ++ pending) (place :: seen) capabilities
      | .error message => .error message
  | budget + 1, _ :: pending, seen, capabilities => scan budget pending seen capabilities

def applicationQuerySignalCapabilities (output : Value) : Except String (List Capability) :=
  (scan heap 100000 [output] [] .empty).map Table.rows

/-- `authorize` is `authorizeOutputCapability` for this query and this caller. -/
def authorizeQueryOutputCapabilities (authorize : Option (Capability → Bool)) (query : String) (output : Value) :
    Except String Unit := do
  let capabilities ← applicationQuerySignalCapabilities heap output
  let forbidden := Except.error ("Application query " ++ query ++ " is not authorized for the established principal and input.")
  if capabilities = [] then .ok ()
  else
    match authorize with
    | none => forbidden
    | some authorize => if capabilities.all authorize then .ok () else forbidden

/-! ### What an output holds -/

def Holds (outer inner : Nat) : Prop := .object inner ∈ (heap outer).values

/-- The objects anywhere in a value. -/
def Within (output : Value) (place : Nat) : Prop := ∃ root, output = .object root ∧ ReflTransGen (Holds heap) root place

/-- The objects in a value that no reference holds. -/
def Open (output : Value) (place : Nat) : Prop :=
  ∃ root, output = .object root ∧ ReflTransGen (fun outer inner => ¬ isReference heap outer ∧ Holds heap outer inner) root place

/-- Every reference in the output is well formed, and authorized as it stands. -/
def Authorized (authorize : Option (Capability → Bool)) (output : Value) : Prop :=
  ∀ place, Within heap output place → isReference heap place →
    ∃ capability, referred heap place = some capability ∧ authorize.any (· capability)

/-- A reference inside of another refers to nothing that no open one refers to, and open references of one key to the
same. -/
structure Distinguishable (output : Value) : Prop where
  nested : ∀ place, Within heap output place → isReference heap place →
    ∃ other, Open heap output other ∧ isReference heap other ∧ referred heap other = referred heap place
  apart : ∀ place other one two, Open heap output place → isReference heap place → referred heap place = some one →
    Open heap output other → isReference heap other → referred heap other = some two →
    Keyed.key one = Keyed.key two → one = two

/-- What holds between two turns of the loop. -/
structure Scanned (output : Value) (pending : List Value) (seen : List Nat) (capabilities : Table Capability) : Prop where
  reached : ∀ place, place ∈ seen ∨ .object place ∈ pending → Open heap output place
  root : ∀ place, output = .object place → place ∈ seen ∨ .object place ∈ pending
  held : ∀ outer ∈ seen, ¬ isReference heap outer → ∀ inner, Holds heap outer inner →
    inner ∈ seen ∨ .object inner ∈ pending
  listed : ∀ place ∈ seen, isReference heap place → ∃ capability, referred heap place = some capability ∧
    ∃ kept ∈ capabilities.rows, Keyed.key kept = Keyed.key capability
  sound : ∀ kept ∈ capabilities.rows, ∃ place, Open heap output place ∧ isReference heap place ∧
    referred heap place = some kept

variable {heap}

theorem Open.within (shown : Open heap output place) : Within heap output place := by
  obtain ⟨root, is, leads⟩ := shown
  exact ⟨root, is, ReflTransGen.mono (fun _ _ => And.right) _ _ leads⟩

theorem Open.step (shown : Open heap output outer) (plain : ¬ isReference heap outer) (holds : Holds heap outer place) :
    Open heap output place :=
  shown.imp fun _ => .imp_right (·.tail ⟨plain, holds⟩)

theorem Scanned.skip (scanned : Scanned heap output (value :: pending) seen capabilities)
    (known : ∀ place, value = .object place → place ∈ seen) : Scanned heap output pending seen capabilities := by
  have drop : ∀ place, place ∈ seen ∨ .object place ∈ value :: pending → place ∈ seen ∨ .object place ∈ pending := by
    rintro place (old | among)
    · exact .inl old
    · exact (mem_cons.mp among).imp (fun same => known place same.symm) id
  exact { scanned with
    reached := fun place either => scanned.reached place (either.imp_right (mem_cons_of_mem _))
    root := fun place is => drop place (scanned.root place is)
    held := fun outer old plain inner holds => drop inner (scanned.held outer old plain inner holds) }

theorem Scanned.turn (scanned : Scanned heap output (.object place :: pending) seen capabilities)
    (more : List Value) (held : ∀ inner, .object inner ∈ more ↔ ¬ isReference heap place ∧ Holds heap place inner)
    (listed : isReference heap place → ∃ cap, referred heap place = some cap ∧
      later = capabilities.put cap) (kept : ¬ isReference heap place → later = capabilities) :
    Scanned heap output (more ++ pending) (place :: seen) later := by
  have shown : Open heap output place := scanned.reached place (.inr mem_cons_self)
  have move : ∀ other, other ∈ seen ∨ .object other ∈ Value.object place :: pending →
      other ∈ place :: seen ∨ .object other ∈ more ++ pending := by
    rintro other (old | among)
    · exact .inl (mem_cons_of_mem _ old)
    rcases mem_cons.mp among with same | among
    · cases same
      exact .inl mem_cons_self
    · exact .inr (mem_append_right _ among)
  refine ⟨?_, fun other is => move other (scanned.root other is), fun outer among plain inner holds => ?_, ?_, ?_⟩
  · rintro other (among | among)
    · rcases mem_cons.mp among with rfl | old
      · exact shown
      · exact scanned.reached other (.inl old)
    · rcases mem_append.mp among with among | among
      · obtain ⟨plain, holds⟩ := (held other).mp among
        exact shown.step plain holds
      · exact scanned.reached other (.inr (mem_cons_of_mem _ among))
  · rcases mem_cons.mp among with rfl | old
    · exact .inr (mem_append_left _ ((held inner).mpr ⟨plain, holds⟩))
    · exact move inner (scanned.held outer old plain inner holds)
  · by_cases is : isReference heap place
    · obtain ⟨cap, refers, rfl⟩ := listed is
      intro other among refer
      rcases mem_cons.mp among with rfl | old
      · exact ⟨cap, refers, cap, Table.mem_put.mpr (.inl rfl), rfl⟩
      obtain ⟨first, means, row, present, same⟩ := scanned.listed other old refer
      by_cases replaced : Keyed.key row = Keyed.key cap
      · exact ⟨first, means, cap, Table.mem_put.mpr (.inl rfl), replaced.symm.trans same⟩
      · exact ⟨first, means, row, Table.mem_put.mpr (.inr ⟨present, replaced⟩), same⟩
    · rw [kept is]
      intro other among refer
      rcases mem_cons.mp among with rfl | old
      · exact (is refer).elim
      · exact scanned.listed other old refer
  · by_cases is : isReference heap place
    · obtain ⟨cap, refers, rfl⟩ := listed is
      intro row present
      rcases Table.mem_put.mp present with rfl | old
      · exact ⟨place, shown, is, refers⟩
      · exact scanned.sound row old.1
    · rw [kept is]
      exact scanned.sound

theorem Scanned.ended (scanned : Scanned heap output [] seen capabilities) (shown : Open heap output place) :
    place ∈ seen := by
  obtain ⟨root, is, leads⟩ := shown
  induction leads with
  | refl => simpa using scanned.root root is
  | tail _ step ih => simpa using scanned.held _ ih step.1 _ step.2

theorem Scanned.scan {budget : Nat} (scanned : Scanned heap output pending seen capabilities)
    (scans : scan heap budget pending seen capabilities = .ok found) : ∃ seen, Scanned heap output [] seen found := by
  fun_induction QueryGateway.scan heap budget pending seen capabilities with
  | case1 =>
    cases scans
    exact ⟨_, scanned⟩
  | case2 => cases scans
  | case3 budget place pending seen capabilities old ih =>
    exact ih (scanned.skip fun other same => by cases same; exact old) scans
  | case4 budget place pending seen capabilities fresh cap signals ih =>
    unfold signalCapability at signals
    split at signals
    · next is =>
      refine ih (scanned.turn [] (by simp [is]) (fun _ => ⟨cap, ?_, rfl⟩) (absurd is)) scans
      split at signals <;> cases signals
      assumption
    · cases signals
  | case5 budget place pending seen capabilities fresh signals ih =>
    unfold signalCapability at signals
    split at signals
    · split at signals <;> cases signals
    · next plain =>
      exact ih (scanned.turn _ (fun inner => by simp [plain, Holds]) (absurd · plain) fun _ => rfl) scans
  | case6 => cases scans
  | case7 budget value pending seen capabilities primitive ih =>
    exact ih (scanned.skip fun place same => (primitive place same).elim) scans

theorem exists_scanned (scans : applicationQuerySignalCapabilities heap output = .ok capabilities) :
    ∃ found seen, Scanned heap output [] seen found ∧ found.rows = capabilities := by
  unfold applicationQuerySignalCapabilities at scans
  cases loop : scan heap 100000 [output] [] .empty <;> rw [loop] at scans <;> cases scans
  have start : Scanned heap output [output] [] .empty := by
    refine ⟨fun place among => ⟨place, ?_, .refl⟩, fun place is => .inr (is ▸ mem_cons_self), nofun, nofun, nofun⟩
    rcases among with old | among
    · cases old
    · exact (mem_singleton.mp among).symm
  obtain ⟨seen, scanned⟩ := start.scan loop
  exact ⟨_, seen, scanned, rfl⟩

/-- A reference to one signal, and within it one to another signal, that the caller may not see. -/
def nestedReferences : Heap
  | 0 => .record [("$type", .string "applik8s.signal/v1"), ("contract", .object 1), ("issuance", .object 2),
      ("expiresAt", .string "2027-01-01T00:00:00.000Z"), ("supersedes", .object 3)]
  | 1 => .record [("id", .string "approval"), ("name", .string "Approval"), ("version", .string "v1")]
  | 2 => .record [("id", .string "signal-1")]
  | 3 => .record [("$type", .string "applik8s.signal/v1"), ("contract", .object 1), ("issuance", .object 4),
      ("expiresAt", .string "2027-01-01T00:00:00.000Z")]
  | _ => .record [("id", .string "signal-2")]

/-- Whoever authorizes: the output passes only with all its references authorized, if no reference in it is taken for
another one. -/
theorem capabilities_authorized_iff (scans : applicationQuerySignalCapabilities heap output = .ok capabilities) :
    (∀ authorize query, authorizeQueryOutputCapabilities heap authorize query output = .ok () →
      Authorized heap authorize output) ↔ Distinguishable heap output := by
  obtain ⟨found, seen, scanned, rfl⟩ := exists_scanned scans
  constructor
  · intro covers
    have passes : authorizeQueryOutputCapabilities heap (some (· ∈ found.rows)) "" output = .ok () := by
      simp [authorizeQueryOutputCapabilities, scans, bind, Except.bind]
    have listed : ∀ place, Within heap output place → isReference heap place →
        ∃ capability ∈ found.rows, referred heap place = some capability := fun place held is => by
      obtain ⟨capability, refers, among⟩ := covers _ _ passes place held is
      exact ⟨capability, by simpa using among, refers⟩
    constructor
    · intro place held is
      obtain ⟨capability, among, refers⟩ := listed place held is
      obtain ⟨other, shown, refer, same⟩ := scanned.sound capability among
      exact ⟨other, shown, refer, same.trans refers.symm⟩
    intro place other one two shown is refers also refer means same
    obtain ⟨_, among, known⟩ := listed place shown.within is
    obtain ⟨_, present, told⟩ := listed other also.within refer
    cases refers.symm.trans known
    cases means.symm.trans told
    exact found.eq_of_key_eq among present same
  · intro distinguishable authorize query passes place held is
    obtain ⟨other, shown, refer, same⟩ := distinguishable.nested place held is
    obtain ⟨capability, refers, kept, among, key⟩ := scanned.listed other (scanned.ended shown) refer
    obtain ⟨third, also, stands, means⟩ := scanned.sound kept among
    obtain rfl := distinguishable.apart third other _ _ also stands means shown refer refers key
    refine ⟨kept, same ▸ refers, ?_⟩
    simp only [authorizeQueryOutputCapabilities, scans, bind, Except.bind, if_neg (ne_nil_of_mem among)] at passes
    cases authorize with
    | none => cases passes
    | some authorize =>
      dsimp only at passes
      split at passes
      · next all => exact all_eq_true.mp all kept among
      · cases passes

theorem contract_output_iff :
    (∀ authorize query, authorizeQueryOutputCapabilities nestedReferences authorize query (.object 3) = .ok () →
      Authorized nestedReferences authorize (.object 3)) ↔ Distinguishable nestedReferences (.object 3) :=
  capabilities_authorized_iff (by decide +kernel : applicationQuerySignalCapabilities nestedReferences (.object 3) =
    .ok [⟨"approval", "Approval", "v1", "signal-2", "2027-01-01T00:00:00.000Z"⟩])

def mayRead (capability : Capability) : Bool := capability.issuanceId = "signal-1"

theorem nested_reference_unauthorized :
    authorizeQueryOutputCapabilities nestedReferences (some mayRead) "cards.list.v1" (.object 0) = .ok () ∧
      ¬ Authorized nestedReferences (some mayRead) (.object 0) := by
  refine ⟨by decide +kernel, fun authorized => ?_⟩
  have held : Within nestedReferences (.object 0) 3 :=
    ⟨0, rfl, .single (by simp [Holds, nestedReferences, Node.values])⟩
  obtain ⟨capability, refers, may⟩ := authorized 3 held (by decide)
  cases refers
  revert may
  decide

end Applik8s.QueryGateway
