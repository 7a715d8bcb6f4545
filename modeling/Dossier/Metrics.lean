/-!
Metrics. Whatever is measured is an event on a series; a recorder adds events up. The catalog
documents every metric, phase by phase.
-/

namespace Dossier

inductive MetricKind where
  | counter
  | gauge
  | histogram
deriving DecidableEq

def MetricKind.name : MetricKind → String
  | counter => "counter"
  | gauge => "gauge"
  | histogram => "histogram"

structure Metric where
  phase : String
  label : String
  kind : MetricKind
  help : String
  labelNames : List String
deriving DecidableEq

namespace Metric

def name (m : Metric) : String :=
  "profiler_" ++ m.phase ++ "_" ++ m.label ++ (if m.kind == .counter then "_total" else "")

def collection (label : String) (kind : MetricKind) (help : String) (labelNames : List String) :
    Metric :=
  ⟨"collection", label, kind, help, labelNames⟩

def collectorsSucceeded : Metric :=
  collection "collectors_succeeded" .counter "Collectors that completed successfully" ["namespace"]

def collectorsFailed : Metric :=
  collection "collectors_failed" .counter "Collectors that failed, by failure reason"
    ["namespace", "reason"]

def observationsWritten : Metric :=
  collection "observations_written" .counter "Attribute observations accepted by the store"
    ["namespace"]

def observationsRejected : Metric :=
  collection "observations_rejected" .counter "Attribute writes rejected by the store"
    ["namespace"]

def individuals : Metric :=
  collection "individuals" .gauge
    "Individuals produced by the primary collector in the last session" []

def collectorDuration : Metric :=
  collection "collector_duration_seconds" .histogram "Wall-clock time spent per collector"
    ["namespace"]

def evaluation (label : String) (kind : MetricKind) (help : String) : Metric :=
  ⟨"evaluation", label, kind, help, []⟩

def queries : Metric := evaluation "queries" .counter "Requirement queries evaluated"

def unsatisfiable : Metric :=
  evaluation "unsatisfiable" .counter "Queries that matched no individual"

def candidates : Metric :=
  evaluation "candidates" .histogram "Individuals considered per query"

def found : Metric := evaluation "matches" .histogram "Individuals returned per query"

/-- The phases and the metrics of each. -/
def catalog : List (String × List Metric) :=
  [("collection",
      [collectorsSucceeded, collectorsFailed, observationsWritten, observationsRejected,
        individuals, collectorDuration]),
    ("evaluation", [queries, unsatisfiable, candidates, found])]

/-- How many metrics of a list bear a name that one before them has. -/
def conflicts : List Metric → Nat
  | [] => 0
  | m :: ms => (if ms.any fun n => n.name == m.name then 1 else 0) + conflicts ms

end Metric

structure Series where
  metric : Metric
  labels : List String
deriving DecidableEq

/-- The name of a series, with its labels in braces if it has any. -/
def Series.text (s : Series) : String :=
  let pairs := (s.metric.labelNames.zip s.labels).map fun (name, value) => name ++ "=" ++ value
  if pairs.isEmpty then s.metric.name
  else s.metric.name ++ "\x7b" ++ ",".intercalate pairs ++ "\x7d"

inductive Measurement where
  | add (series : Series) (amount : Nat)
  | set (series : Series) (value : Float)
  | sample (series : Series) (value : Float)

/-- What was recorded, series by series in the order of their first events. -/
structure Recorder where
  counters : List (Series × Nat)
  gauges : List (Series × Float)
  histograms : List (Series × List Float)

namespace Recorder

def empty : Recorder := ⟨[], [], []⟩

def change {α : Type} (s : Series) (initial : α) (f : α → α) : List (Series × α) → List (Series × α)
  | [] => [(s, f initial)]
  | (t, a) :: rest => if t = s then (t, f a) :: rest else (t, a) :: change s initial f rest

def record (r : Recorder) : Measurement → Recorder
  | .add s amount => { r with counters := change s 0 (· + amount) r.counters }
  | .set s value => { r with gauges := change s value (fun _ => value) r.gauges }
  | .sample s value => { r with histograms := change s [] (· ++ [value]) r.histograms }

def ofList (ms : List Measurement) : Recorder := ms.foldl record empty

end Recorder

end Dossier
