import Applik8s.Platform
import Applik8s.Lib.Crowd
import Applik8s.Lib.Json
import Applik8s.Lib.Table

/-! `projectPaymentSubscription` of `billing/src/index.ts`: a handler of payment events that reads the row of
its subscription, and creates or edits it where the event is newer. Every read and every write is one step. -/
namespace Applik8s.Billing
open Lib

inductive PaymentStatus where
  | active | pastDue | cancelled
  deriving DecidableEq

inductive SubscriptionStatus where
  | active | cancelled | past_due
  deriving DecidableEq

structure PaymentProviderEvent where
  provider : String
  id : String
  customerId : String
  subscriptionId : String
  principalScope : String
  plan : String
  status : PaymentStatus
  occurredAt : String
  periodStart : String
  periodEnd : String
  rawType : String
  deriving DecidableEq

/-- A row of `applik8s_billing_customers`. -/
structure BillingCustomer where
  id : String
  principalScope : String
  provider : String
  providerCustomerId : String
  deriving DecidableEq

/-- A row of `applik8s_subscriptions`, as far as payment events write it. -/
structure Subscription where
  id : String
  principalScope : String
  planId : String
  provider : String
  providerCustomerId : String
  providerSubscriptionId : String
  status : SubscriptionStatus
  cancelAtPeriodEnd : Bool
  periodStart : String
  periodEnd : String
  providerOccurredAt : String
  deriving DecidableEq

instance : Keyed BillingCustomer String := ⟨BillingCustomer.id⟩

instance : Keyed Subscription String := ⟨Subscription.id⟩

/-- `Date`, and `JSON.stringify` of a string. -/
structure Runtime where
  dates : Dates
  stringify : String → String

section
variable (runtime : Runtime)

/-- A field that `paymentProviderEventPayload` requires. -/
def required (members : List (String × Json)) (field : String) : Except String String :=
  match members.lookup field with
  | some (.string text) =>
    if text = "" then .error s!"Payment event payload {field} must be a non-empty string." else .ok text
  | _ => .error s!"Payment event payload {field} must be a non-empty string."

def paymentStatus : String → Except String PaymentStatus
  | "active" => .ok .active
  | "pastDue" => .ok .pastDue
  | "cancelled" => .ok .cancelled
  | status => .error s!"Payment event payload status {runtime.stringify status} is unsupported."

def paymentProviderEventPayload : Json → Except String PaymentProviderEvent
  | .object members => do
    let status ← paymentStatus runtime (← required members "status")
    return {
      provider := ← required members "provider"
      id := ← required members "id"
      customerId := ← required members "customerId"
      subscriptionId := ← required members "subscriptionId"
      principalScope := ← required members "principalScope"
      plan := ← required members "plan"
      status
      occurredAt := ← required members "occurredAt"
      periodStart := ← required members "periodStart"
      periodEnd := ← required members "periodEnd"
      rawType := ← required members "rawType" }
  | _ => .error "Payment event payload must be an object."

def PaymentStatus.projected : PaymentStatus → SubscriptionStatus
  | .pastDue => .past_due
  | .cancelled => .cancelled
  | .active => .active

def checkProviderCustomer (event : PaymentProviderEvent) : Option BillingCustomer → Except String Unit
  | some customer =>
    if customer.principalScope ≠ event.principalScope || customer.provider ≠ event.provider then
      .error <| s!"Provider customer {event.provider}/{event.customerId} is already mapped to another " ++
        "principal scope."
    else .ok ()
  | none => .ok ()

def checkScopedCustomer (event : PaymentProviderEvent) (scopedCustomers : List BillingCustomer) :
    Except String (Option BillingCustomer) :=
  if 1 < scopedCustomers.length then
    .error s!"Billing customer mapping for {event.principalScope}/{event.provider} is ambiguous."
  else
    match scopedCustomers.head? with
    | some customer =>
      if customer.providerCustomerId ≠ event.customerId then
        .error <| s!"Billing customer mapping for {event.principalScope}/{event.provider} cannot change " ++
          s!"from {customer.providerCustomerId} to {event.customerId} without an explicit migration."
      else .ok (some customer)
    | none => .ok none

/-- `Date.parse(current) >= Date.parse(next)`; no comparison with a text that is no date holds. -/
def notBefore (current next : String) : Bool :=
  match runtime.dates.parse current, runtime.dates.parse next with
  | some current, some next => next ≤ current
  | _, _ => false

end

section
/-- The calls of a handler. The last one is the return that the delivery of the event waits for. -/
inductive Request where
  | getCustomer (id : String)
  | findCustomers (principalScope provider : String) (limit : Nat)
  | createCustomer (row : BillingCustomer)
  | getSubscription (id : String)
  | createSubscription (row : Subscription)
  | editSubscription (id : String) (update : Subscription → Subscription)
  | acknowledge (event : PaymentProviderEvent)

@[reducible] def Request.Reply : Request → Type
  | .getCustomer _ => Except String (Option BillingCustomer)
  | .findCustomers _ _ _ => Except String (List BillingCustomer)
  | .createCustomer _ | .createSubscription _ | .editSubscription _ _ => Except String Unit
  | .getSubscription _ => Except String (Option Subscription)
  | .acknowledge _ => Unit

def Projection : Interface where
  Call := Request
  Reply := Request.Reply

abbrev Handler (α : Type) := Program Projection String α

def ask (request : Request) : Handler request.Reply := .call request .done

def await {α : Type} (outcome : Handler (Except String α)) : Handler α := do
  Program.check (← outcome)

variable (event : PaymentProviderEvent)

def newCustomer : BillingCustomer where
  id := event.customerId
  principalScope := event.principalScope
  provider := event.provider
  providerCustomerId := event.customerId

/-- The row that is created for the first event of a subscription. -/
def newSubscription : Subscription where
  id := event.subscriptionId
  principalScope := event.principalScope
  planId := event.plan
  provider := event.provider
  providerCustomerId := event.customerId
  providerSubscriptionId := event.subscriptionId
  status := event.status.projected
  cancelAtPeriodEnd := false
  periodStart := event.periodStart
  periodEnd := event.periodEnd
  providerOccurredAt := event.occurredAt

/-- `subscription.update` in the edit. -/
def patched (row : Subscription) : Subscription :=
  { row with
    principalScope := event.principalScope
    planId := event.plan
    provider := event.provider
    providerCustomerId := event.customerId
    providerSubscriptionId := event.subscriptionId
    status := event.status.projected
    periodStart := event.periodStart
    periodEnd := event.periodEnd
    providerOccurredAt := event.occurredAt }

/-- The customer of the event, which is created where there is none. -/
def mapCustomer : Handler Unit := do
  let providerCustomer ← await (ask (.getCustomer event.customerId))
  Program.check (checkProviderCustomer event providerCustomer)
  let scopedCustomers ← await (ask (.findCustomers event.principalScope event.provider 2))
  let scopedCustomer ← Program.check (checkScopedCustomer event scopedCustomers)
  if providerCustomer.isNone && scopedCustomer.isNone then
    await (ask (.createCustomer (newCustomer event)))
  else return ()

variable (runtime : Runtime)

/-- The rest of `projectPaymentSubscription`, from the read of the row on. -/
def projectRow (event : PaymentProviderEvent) : Handler Unit := do
  let current ← await (ask (.getSubscription event.subscriptionId))
  match current with
  | none => await (ask (.createSubscription (newSubscription event)))
  | some row =>
    if notBefore runtime row.providerOccurredAt event.occurredAt then return ()
    else await (ask (.editSubscription event.subscriptionId (patched event)))

def projectPaymentSubscription (payload : Json) : Handler Unit := do
  let event ← Program.check (paymentProviderEventPayload runtime payload)
  mapCustomer event
  projectRow runtime event
  ask (.acknowledge event)

end

section
/-- The two tables, and the events whose handlers have returned. -/
structure World where
  customers : Table BillingCustomer := .empty
  subscriptions : Table Subscription := .empty
  handled : List PaymentProviderEvent := []

/-- Whether a call takes effect, and whether its answer comes. -/
structure Choice where
  takes : Bool
  answers : Bool

def lost {α : Type} : Except String α := .error "connection lost"

def BillingCustomer.conflicts (row other : BillingCustomer) : Bool :=
  other.id = row.id || (other.principalScope = row.principalScope && other.provider = row.provider) ||
    (other.provider = row.provider && other.providerCustomerId = row.providerCustomerId)

def Subscription.conflicts (row other : Subscription) : Bool :=
  other.id = row.id || other.principalScope = row.principalScope ||
    (other.provider = row.provider && other.providerSubscriptionId = row.providerSubscriptionId)

def Subscription.storable (runtime : Runtime) (row : Subscription) : Bool :=
  (runtime.dates.parse row.periodStart).isSome && (runtime.dates.parse row.periodEnd).isSome &&
    (runtime.dates.parse row.providerOccurredAt).isSome

variable (runtime : Runtime)

def World.createCustomer (row : BillingCustomer) (world : World) : Except String World :=
  if world.customers.rows.any row.conflicts then
    .error "duplicate key value violates unique constraint"
  else .ok { world with customers := world.customers.put row }

def World.createSubscription (row : Subscription) (world : World) : Except String World :=
  if !row.storable runtime then .error "invalid input syntax for type timestamp with time zone"
  else if world.subscriptions.rows.any row.conflicts then
    .error "duplicate key value violates unique constraint"
  else .ok { world with subscriptions := world.subscriptions.put row }

def World.editSubscription (id : String) (update : Subscription → Subscription) (world : World) :
    Except String World :=
  match world.subscriptions.find? id with
  | none => .error s!"Application model Subscription has no object with identity {id}."
  | some row =>
    let next := update row
    if !next.storable runtime then .error "invalid input syntax for type timestamp with time zone"
    else if (world.subscriptions.rows.filter (·.id ≠ id)).any next.conflicts then
      .error "duplicate key value violates unique constraint"
    else .ok { world with subscriptions := world.subscriptions.put next }

/-- A write that may be lost, or done without an answer. -/
def World.write (choice : Choice) (world : World) (written : Except String World) :
    Except String Unit × World :=
  if choice.takes then
    match written with
    | .error failure => (.error failure, world)
    | .ok after => (if choice.answers then .ok () else lost, after)
  else (lost, world)

def World.answer : (request : Request) → Choice → World → request.Reply × World
  | .getCustomer id, choice, world => (if choice.answers then .ok (world.customers.find? id) else lost, world)
  | .findCustomers principalScope provider limit, choice, world =>
    (if choice.answers then .ok ((world.customers.rows.filter fun row =>
      row.principalScope = principalScope && row.provider = provider).take limit) else lost, world)
  | .createCustomer row, choice, world => world.write choice (world.createCustomer row)
  | .getSubscription id, choice, world => (if choice.answers then .ok (world.subscriptions.find? id) else lost, world)
  | .createSubscription row, choice, world => world.write choice (world.createSubscription runtime row)
  | .editSubscription id update, choice, world => world.write choice (world.editSubscription runtime id update)
  | .acknowledge event, _, world => ((), { world with handled := world.handled ++ [event] })

def server : Server Projection World Choice := ⟨World.answer runtime⟩

/-- Handlers of the events that are delivered, each delivered any number of times. -/
abbrev System := Crowd Projection World String Unit Json

abbrev Event := CrowdEvent Json Choice

def next : System → Event → System := Crowd.advance (server runtime) (projectPaymentSubscription runtime)

end
end Applik8s.Billing
