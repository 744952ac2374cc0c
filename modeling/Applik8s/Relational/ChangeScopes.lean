import Applik8s.Lib.Json
import Applik8s.Lib.Program
import Applik8s.Lib.Record
import Applik8s.Platform

/-! The scopes model changes are recorded and followed under: `relational-runtime.ts`, and
`recordGenericModelChange` of the durable command runtime. A scope is an opaque digest, one
for global data and one for each value of a trusted context. -/
namespace Applik8s.Relational
open Lib (bind_ok)

/-- `stableJson`, as the value its text denotes. -/
def stableJson (value : Json) : Json := value.sorted

/-- What is signed for a change scope: the text
`applik8s.relational-change-scope.global.v1`, or the text
`applik8s.relational-change-scope.context.v1` with the name and the stable JSON of the value
of a trusted context, separated by NUL. -/
inductive ScopeMessage where
  | global
  | context (name : String) (value : Json)
  deriving DecidableEq

/-- `/^[a-f0-9]{64}$/`. -/
def isHexDigest (text : String) : Bool :=
  text.length = 64 && text.toList.all fun c => c.isDigit || ('a' ≤ c && c ≤ 'f')

structure Hmac where
  digest : String → ScopeMessage → String
  hexadecimal : ∀ secret message, isHexDigest (digest secret message) = true

/-- `ApplicationAdmittedContext`. -/
structure AdmittedContext where
  values : Record Json
  digestSecret : String
  distinct : (values.map Prod.fst).Nodup

/-- `/^[A-Za-z][A-Za-z0-9._-]*$/`. -/
def isStableName (name : String) : Bool :=
  name.toList.head?.any Char.isAlpha && name.toList.all fun c => c.isAlphanum || c = '.' || c = '_' || c = '-'

/-- `ApplicationTrustedContext`; validation gives the summary of a failure. -/
structure TrustedContext where
  name : String
  validate : Json → Except String Unit
  stable : isStableName name = true

/-- `ApplicationPostgresRlsPolicy`. -/
structure AccessPolicy where
  context : TrustedContext
  column : String
  setting : String

/-- `ApplicationDatabaseBinding`. -/
structure DatabaseBinding where
  name : String
  access : Option AccessPolicy

structure ModelTable where
  name : String
  columns : List String

/-- The access column of a model, which gives it a row-level policy and an access contract:
`database.access && columns[database.access.column]`. -/
def ModelTable.access (model : ModelTable) (binding : DatabaseBinding) : Option AccessPolicy :=
  binding.access.filter fun access => access.column ∈ model.columns

/-- The prefix of framework metadata in an admitted context. -/
def reservedName (name : String) : Bool := "applik8s.dev/".toList.isPrefixOf name.toList

section
variable (hmac : Hmac) (scopes : Record String) (binding : DatabaseBinding) (admitted : AdmittedContext)

def applicationRelationalChangeScopes : Record String :=
  ("global", hmac.digest admitted.digestSecret .global) ::
    (admitted.values.filter fun (name, _) => !reservedName name).map fun (name, value) =>
      (s!"context:{name}", hmac.digest admitted.digestSecret (.context name (stableJson value)))

def applicationRelationalChangeScopeDigest (accessContext : Option String) : Except String String :=
  let key := (whenTruthy accessContext).elim "global" fun name => s!"context:{name}"
  match (Record.get scopes key).filter isHexDigest with
  | some digest => .ok digest
  | none => .error ((whenTruthy accessContext).elim
      "Application relational change scopes do not contain a validated global scope."
      fun name => s!"Application relational change scopes do not contain validated trusted context {name}.")

/-- The value of a policy's trusted context, once it is there and valid. -/
def validatedContext (binding : DatabaseBinding) (access : AccessPolicy)
    (admitted : AdmittedContext) : Except String Json :=
  match admitted.values.get access.context.name with
  | none => .error
      s!"Required trusted context {access.context.name} is missing for database {binding.name}."
  | some raw =>
    match access.context.validate raw with
    | .error summary => .error
        s!"Trusted context {access.context.name} failed runtime validation: {summary}"
    | .ok () => .ok raw

/-- The scope `context.transaction` and `context.update` record their changes under. -/
def relationalChangeScopeDigest :
    Except String String :=
  let scopes := applicationRelationalChangeScopes hmac admitted
  match binding.access with
  | none => applicationRelationalChangeScopeDigest scopes none
  | some access => do
    let _ ← validatedContext binding access admitted
    applicationRelationalChangeScopeDigest scopes (some access.context.name)

def relationalReadChangeScopeDigests :
    Except String (List String) :=
  let scopes := applicationRelationalChangeScopes hmac admitted
  match binding.access with
  | none => do return [← applicationRelationalChangeScopeDigest scopes none]
  | some access => do
    let _ ← validatedContext binding access admitted
    let global ← applicationRelationalChangeScopeDigest scopes none
    let own ← applicationRelationalChangeScopeDigest scopes (some access.context.name)
    return sortStrings [global, own]

/-- The scope the durable command runtime records a change under: that of the model's own
access contract, among the scopes of the admission. -/
def recordedChangeScope (model : ModelTable) : Except String String :=
  applicationRelationalChangeScopeDigest scopes ((model.access binding).map fun access => access.context.name)

inductive WritePath where
  | relational
  | durableCommand
  deriving DecidableEq

/-- The scope a writer's change of a model is recorded under. -/
def writtenChangeScope (path : WritePath) (binding : DatabaseBinding) (model : ModelTable)
    (writer : AdmittedContext) : Except String String :=
  match path with
  | .relational => relationalChangeScopeDigest hmac binding writer
  | .durableCommand => recordedChangeScope (applicationRelationalChangeScopes hmac writer) binding model

end

/-- The value of an admitted context under a policy, as stable JSON. -/
def accessValue (access : AccessPolicy) (admitted : AdmittedContext) : Option Json :=
  (admitted.values.get access.context.name).map stableJson

section
variable (context : TrustedContext)

theorem TrustedContext.truthy_name : whenTruthy (some context.name) = some context.name := by
  have nonempty : context.name ≠ "" := by
    intro empty
    have stable := context.stable
    simp [isStableName, empty] at stable
  simp [whenTruthy, truthy, nonempty]

theorem TrustedContext.not_reserved : reservedName context.name = false := by
  by_contra reserved
  have leads : "applik8s.dev/".toList <+: context.name.toList := by
    simpa [reservedName] using reserved
  have slash : '/' ∈ context.name.toList := leads.subset (by decide)
  have stable := context.stable
  simp only [isStableName, Bool.and_eq_true, List.all_eq_true] at stable
  have allowed := stable.2 '/' slash
  simp at allowed

theorem scopes_global : (applicationRelationalChangeScopes hmac admitted).get "global" =
      some (hmac.digest admitted.digestSecret .global) := by
  simp [applicationRelationalChangeScopes, Record.get_cons]

theorem scopes_context : (applicationRelationalChangeScopes hmac admitted).get s!"context:{context.name}" =
      (admitted.values.get context.name).map fun value =>
        hmac.digest admitted.digestSecret (.context context.name (stableJson value)) := by
  have other : "global" ≠ s!"context:{context.name}" := by
    intro same
    have heads := congrArg (fun text => text.toList.head?) same
    simp [toString] at heads
  rw [applicationRelationalChangeScopes, Record.get_cons, if_neg other]
  induction admitted.values with
  | nil => rfl
  | cons entry rest ih =>
    obtain ⟨name, _⟩ := entry
    by_cases same : name = context.name
    · subst same
      simp [Record.get_cons, context.not_reserved]
    have differ : s!"context:{name}" ≠ s!"context:{context.name}" := by
      intro equal
      exact same (by simpa [toString] using equal)
    by_cases reserved : reservedName name = true
    · simp [reserved, Record.get_cons, same, ih]
    · simp [reserved, Record.get_cons, same, differ, ih]

theorem digest_global : applicationRelationalChangeScopeDigest (applicationRelationalChangeScopes hmac admitted) none =
      .ok (hmac.digest admitted.digestSecret .global) := by
  simp [applicationRelationalChangeScopeDigest, whenTruthy, scopes_global, Option.filter, hmac.hexadecimal]

theorem digest_context {context : TrustedContext}
    (found : applicationRelationalChangeScopeDigest (applicationRelationalChangeScopes hmac admitted) (some context.name) = .ok digest)
    : ∃ value, admitted.values.get context.name = some value ∧
      digest = hmac.digest admitted.digestSecret (.context context.name (stableJson value)) := by
  simp only [applicationRelationalChangeScopeDigest, context.truthy_name, Option.elim_some, scopes_context] at found
  cases held : admitted.values.get context.name with
  | none => simp [held] at found
  | some value =>
    simp only [held, Option.map_some, Option.filter, hmac.hexadecimal, if_true] at found
    exact ⟨value, rfl, (Except.ok.inj found).symm⟩

end

section
variable (binding : DatabaseBinding) (model : ModelTable) (row : Json)
  (writer reader : AdmittedContext)

/-- A context passes the row-level policy of a model for a row with an access value: the
model is global, or the context's own value is the row's. -/
def Passes (admitted : AdmittedContext) : Prop :=
  ∀ access, model.access binding = some access → accessValue access admitted = some (stableJson row)

/-- The messages behind the scopes of a writer and a reader. -/
def signedMessages : List ScopeMessage :=
  .global :: binding.access.toList.flatMap fun access =>
    [writer, reader].filterMap fun admitted => (accessValue access admitted).map (.context access.context.name)

def CollisionFree (hmac : Hmac) (secret : String) (messages : List ScopeMessage) : Prop :=
  ∀ message ∈ messages, ∀ other ∈ messages, hmac.digest secret message = hmac.digest secret other → message = other

/-- A global model behind an access boundary is not changed through the relational context by
a writer with another access value than the reader's. -/
def ScopesAgree (path : WritePath) : Prop :=
  path = .relational → ∀ access, binding.access = some access → model.access binding = none →
    accessValue access writer = accessValue access reader

variable {binding model row writer reader}

theorem access_eq (boundary : binding.access = some access) (guarded : model.access binding = some own)
    : own = access := by
  simp only [ModelTable.access, boundary, Option.filter] at guarded
  split at guarded
  · exact (Option.some.inj guarded).symm
  · cases guarded

theorem followed_scopes (boundary : binding.access = some access)
    (followed : relationalReadChangeScopeDigests hmac binding reader = .ok digests) :
    ∃ value, accessValue access reader = some value ∧ ∀ digest, digest ∈ digests ↔
      digest = hmac.digest reader.digestSecret .global ∨
        digest = hmac.digest reader.digestSecret (.context access.context.name value) := by
  simp only [relationalReadChangeScopeDigests, boundary, digest_global] at followed
  obtain ⟨_, -, followed⟩ := bind_ok followed
  obtain ⟨_, ⟨⟩, followed⟩ := bind_ok followed
  obtain ⟨_, found, followed⟩ := bind_ok followed
  cases followed
  obtain ⟨value, held, rfl⟩ := digest_context found
  refine ⟨stableJson value, by simp [accessValue, held], ?_⟩
  intro digest
  simp [mem_sortStrings]

theorem written_relational (boundary : binding.access = some access)
    (written : relationalChangeScopeDigest hmac binding writer = .ok digest) :
    ∃ value, accessValue access writer = some value ∧
      digest = hmac.digest writer.digestSecret (.context access.context.name value) := by
  simp only [relationalChangeScopeDigest, boundary] at written
  obtain ⟨_, -, written⟩ := bind_ok written
  obtain ⟨value, held, digest_eq⟩ := digest_context written
  exact ⟨stableJson value, by simp [accessValue, held], digest_eq⟩

theorem written_durable (guarded : model.access binding = some access)
    (written : recordedChangeScope (applicationRelationalChangeScopes hmac writer) binding model = .ok digest) :
    ∃ value, accessValue access writer = some value ∧
      digest = hmac.digest writer.digestSecret (.context access.context.name value) := by
  simp only [recordedChangeScope, guarded, Option.map_some] at written
  obtain ⟨value, held, digest_eq⟩ := digest_context written
  exact ⟨stableJson value, by simp [accessValue, held], digest_eq⟩

theorem context_scope_followed {digests : List String} (boundary : binding.access = some access)
    (secret : writer.digestSecret = reader.digestSecret)
    (collisionFree : CollisionFree hmac reader.digestSecret (signedMessages binding writer reader))
    (writes : accessValue access writer = some value) (reads : accessValue access reader = some own)
    (followed : ∀ digest, digest ∈ digests ↔ digest = hmac.digest reader.digestSecret .global ∨ digest = hmac.digest reader.digestSecret (.context access.context.name own))
    : hmac.digest writer.digestSecret (.context access.context.name value) ∈ digests ↔ value = own := by
  have signed_global : ScopeMessage.global ∈ signedMessages binding writer reader := by
    simp [signedMessages]
  have signed_value : ScopeMessage.context access.context.name value ∈ signedMessages binding writer reader := by
    simp [signedMessages, boundary, writes]
  have signed_own : ScopeMessage.context access.context.name own ∈ signedMessages binding writer reader := by
    simp [signedMessages, boundary, reads]
  rw [followed, secret]
  constructor
  · rintro (global | context)
    · cases collisionFree _ signed_value _ signed_global global
    · have same := collisionFree _ signed_value _ signed_own context
      injection same
  · rintro rfl
    exact Or.inr rfl

end

private def sampleDigest (message : ScopeMessage) : String :=
  String.ofList (List.replicate 64 (if message = .global then 'a'
      else if message = .context "tenant" (.string "acme") then 'b' else 'c'))

private def sampleHmac : Hmac where
  digest _ message := sampleDigest message
  hexadecimal _ message := by
    unfold sampleDigest
    split
    · decide +kernel
    · split <;> decide +kernel

private def tenant : TrustedContext where
  name := "tenant"
  validate _ := .ok ()
  stable := by decide +kernel

private def tenantDatabase : DatabaseBinding where
  name := "app"
  access := some { context := tenant, column := "tenantId", setting := "applik8s.context.tenant" }

private def of (name : String) : AdmittedContext where
  values := [("tenant", .string name)]
  digestSecret := "secret"
  distinct := by simp

private def catalog : ModelTable := ⟨"Catalog", ["id", "title"]⟩
private def orders : ModelTable := ⟨"Order", ["id", "tenantId"]⟩

end Applik8s.Relational
