import DualStore.Broker.Startup
import DualStore.Delivery.Dispatch
import DualStore.Remote
import DualStore.Store.ConnectionString

/-!
Contract: the service as a whole, from its settings to its consumers.

Owns:
- the outside, which are the two servers and the broker with a shared state;
- connecting, which ends at the first party that cannot be used, and starting the consumers after
  that;
- the report of a failure to start, with its causes.

Does not own: how a party is reached.
-/

namespace DualStore

/-- The parties outside, with a state. -/
structure Outside (σ : Type) where
  servers : Servers σ
  reachBroker : (url : String) → σ → Except String Unit × σ
  broker : Broker σ

inductive StartFailure where
  | settings (error : SettingsError)
  | connection (error : SyncError)
  | consumers (error : SyncError)
deriving DecidableEq, Repr

/-- A failure of the document store and what it goes back to. -/
def StoreError.causes (error : StoreError) : List String :=
  match error with
  | client _ detail => [error.message, detail]
  | invalidDocument _ | unavailable _ => [error.message]

/-- A failure of the search index and what it goes back to. -/
def IndexError.causes (error : IndexError) : List String :=
  match error with
  | invalidAddress fault => [error.message, fault.message]
  | connectionSetup detail | connection detail | serialization detail => [error.message, detail]
  | status .. => [error.message]

/-- A failure of any party and what it goes back to. -/
def SyncError.causes (error : SyncError) : List String :=
  match error with
  | store inner => error.message :: inner.causes
  | index inner => error.message :: inner.causes
  | broker detail => [error.message, detail]

namespace StartFailure

def message : StartFailure → String
  | settings _ => "Failed to load configuration"
  | connection _ => "Failed to connect to infrastructure"
  | consumers _ => "Failed to start consumers"

def causes : StartFailure → List String
  | settings error => error.causes
  | connection error | consumers error => error.causes

/-- The lines of a text, the first one behind a head and the others behind as many blanks. -/
def hang (head : String) (text : String) : String :=
  String.intercalate ("\n" ++ String.ofList (List.replicate head.length ' '))
    ((head ++ text).splitOn "\n")

/-- The report: what could not be done, and its causes, numbered when there are several. -/
def report (failure : StartFailure) : String :=
  let causes :=
    match failure.causes with
    | [cause] => [hang "    " cause]
    | causes => causes.zipIdx.map fun (cause, i) => hang ("    " ++ Text.natText i ++ ": ") cause
  String.intercalate "\n" (["Error: " ++ failure.message, "", "Caused by:"] ++ causes)

end StartFailure

namespace Outside

def unreachable : Outside σ where
  servers := .unreachable
  reachBroker _ state := (.error "broker not reachable", state)
  broker := { accept := fun _ state => (.error "broker not reachable", state) }

/-- Connects to the document store: its text must be usable and the server alive. -/
def connectDocuments (outside : Outside σ) (settings : DocumentStoreSettings) (state : σ) :
    Except StoreError Unit × σ :=
  match ConnectionString.check settings.uri with
  | .error fault => (.error (.client false fault.message), state)
  | .ok () =>
      let (reply, state) := outside.servers.obey .ping state
      (reply.acknowledged, state)

/-- Connects to the search index: the server must be alive and the index there. -/
def connectIndex (outside : Outside σ) (settings : SearchIndexSettings) (state : σ) :
    Except IndexError IndexServer × σ :=
  match Address.parse settings.url with
  | .error fault => (.error (.invalidAddress fault), state)
  | .ok address =>
      let server : IndexServer := ⟨address, settings.index⟩
      match server.ping.run outside.servers.serve state with
      | (.error error, state) => (.error error, state)
      | (.ok (), state) =>
          match server.ensure.run outside.servers.serve state with
          | (.error error, state) => (.error error, state)
          | (.ok (), state) => (.ok server, state)

def connect (outside : Outside σ) (settings : Settings) (state : σ) :
    Except SyncError IndexServer × σ :=
  match outside.connectDocuments settings.documentStore state with
  | (.error error, state) => (.error (.store error), state)
  | (.ok (), state) =>
      match outside.connectIndex settings.searchIndex state with
      | (.error error, state) => (.error (.index error), state)
      | (.ok server, state) =>
          match outside.reachBroker settings.broker.url state with
          | (.error detail, state) => (.error (.broker detail), state)
          | (.ok (), state) => (.ok server, state)

def start (outside : Outside σ) (settings : Settings) (state : σ) :
    Except StartFailure IndexServer × σ :=
  match outside.connect settings state with
  | (.error error, state) => (.error (.connection error), state)
  | (.ok server, state) =>
      let started := settings.topology.start outside.broker state
      (started.result.mapError .consumers |>.map fun () => server, started.state)

end Outside

/-- The handler of a consumed queue, once the service has started. -/
def Outside.handler (outside : Outside σ) (settings : Settings) (server : IndexServer)
    (queue : QueueSpec) : Handler σ :=
  queue.route.handler settings.context (outside.servers.services server)

end DualStore
