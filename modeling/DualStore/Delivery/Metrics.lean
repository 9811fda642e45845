import DualStore.Delivery.Dispatch

/-!
Contract: the exposition of counts and durations as text.

Owns:
- the two families: deliveries by queue, kind and outcome, and handler durations by queue and
  kind, in cumulative buckets;
- what the processing of deliveries adds to them;
- the lines of each family, with label values escaped.

Does not own: sums of durations, and the order of the lines.
-/

namespace DualStore.Metrics

open DualStore.Text

structure Delivery where
  queue : String
  kind : String
  outcome : String
deriving DecidableEq, Repr

/-- One duration observed, in microseconds. -/
structure Duration where
  queue : String
  kind : String
  micros : Nat
deriving DecidableEq, Repr

structure Record where
  deliveries : List Delivery := []
  durations : List Duration := []
deriving Repr

def Delivery.ofCount (queue : String) (count : Count) : Delivery :=
  ⟨queue, count.kindName, count.disposition.name⟩

/-- A record after one delivery of a queue has been processed, whose handler took so long. -/
def Record.add (record : Record) (queue : String) (report : Report) (micros : Nat) : Record :=
  { deliveries := record.deliveries ++ report.counts.map (Delivery.ofCount queue)
    durations := record.durations ++ report.observed.map fun kind => ⟨queue, kind.name, micros⟩ }

/-- A record after deliveries of a queue have been processed, each with the time that its handler
took. -/
def Record.addAll (record : Record) (queue : String) (processed : List (Report × Nat)) : Record :=
  processed.foldl (fun record each => record.add queue each.1 each.2) record

/-- The upper bounds of the buckets in microseconds, and as they are written in seconds. -/
def buckets : List (Nat × String) :=
  [(1000, "0.001"), (5000, "0.005"), (10000, "0.01"), (25000, "0.025"), (50000, "0.05"),
   (100000, "0.1"), (250000, "0.25"), (500000, "0.5"), (1000000, "1"), (2500000, "2.5"),
   (5000000, "5")]

def labelValue (value : String) : String :=
  String.ofList ('"' :: value.toList.flatMap (fun c =>
    if c = '\\' then ['\\', '\\']
    else if c = '"' then ['\\', '"']
    else if c = '\n' then ['\\', 'n']
    else [c]) ++ ['"'])

/-- A sample: a name, labels and a count. -/
def sample (name : String) (labels : List (String × String)) (count : Nat) : String :=
  let inner :=
    String.intercalate "," (labels.map fun (key, value) => key ++ "=" ++ labelValue value)
  name ++ "\x7b" ++ inner ++ "\x7d " ++ natText count

/-- The values of a list without repetitions, by their first occurrences. -/
def distinct [DecidableEq α] (values : List α) : List α :=
  values.foldl (fun seen value => if value ∈ seen then seen else seen ++ [value]) []

def deliveriesName : String := "sync_service_events_total"

def durationsName : String := "sync_service_handler_duration_seconds"

/-- The two lines that introduce a family. -/
def familyHead (name help kind : String) : List String :=
  ["# HELP " ++ name ++ " " ++ help, "# TYPE " ++ name ++ " " ++ kind]

def deliveryLines (deliveries : List Delivery) : List String :=
  (distinct deliveries).map fun d =>
    sample deliveriesName [("kind", d.kind), ("outcome", d.outcome), ("queue", d.queue)]
      (deliveries.count d)

def durationLines (durations : List Duration) (queue kind : String) : List String :=
  let own := durations.filter fun d => d.queue == queue && d.kind == kind
  let labels := [("kind", kind), ("queue", queue)]
  (buckets.map fun (bound, text) =>
    sample (durationsName ++ "_bucket") (labels ++ [("le", text)])
      (own.countP fun d => d.micros ≤ bound)) ++
    [sample (durationsName ++ "_bucket") (labels ++ [("le", "+Inf")]) own.length,
     sample (durationsName ++ "_count") labels own.length]

def exposition (record : Record) : List String :=
  familyHead deliveriesName "Deliveries processed by sync-service, by disposition" "counter" ++
    deliveryLines record.deliveries ++
    familyHead durationsName "Handler latency for sync-service, retries included" "histogram" ++
    (distinct (record.durations.map fun d => (d.queue, d.kind))).flatMap fun (queue, kind) =>
      durationLines record.durations queue kind

def contentType : String := "text/plain; version=0.0.4"

end DualStore.Metrics
