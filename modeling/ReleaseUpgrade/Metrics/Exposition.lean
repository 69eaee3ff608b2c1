import ReleaseUpgrade.Decimal.Layout
import ReleaseUpgrade.Metrics.Basic

/-!
# Metrics as text

`Metrics.lines` are the lines of the text that a monitoring system reads.  Each family has its
description, its type and then its samples in the order of their text.
-/

namespace ReleaseUpgrade.Metrics

/-- a metric with its samples as text -/
structure Family where
  name : String
  type : String
  /-- a description, without the point at its end -/
  help : String
  samples : List String

namespace Family

/-- a label with its value in quotes -/
def label (name value : String) : String := name ++ "=\"" ++ value ++ "\""

/-- a name, the labels and a value -/
def sample (name : String) (labels : List String) (value : String) : String :=
  name ++ "\x7b" ++ ",".intercalate labels ++ "\x7d " ++ value

def planLabels (p : PlanLabels) : List String := [label "name" p.name, label "namespace" p.ns]

/-- the labels of a plan and one more with its value -/
def withLabel (name : String) (labels : PlanLabels × String) : List String :=
  planLabels labels.1 ++ [label name labels.2]

/-- the samples of a histogram -/
def histogramSamples (name : String) (labels : List String) (h : Histogram) : List String :=
  let bound : Option Float → String := fun b => b.elim "+Inf" Layout.sample.render
  [sample (name ++ "_sum") labels (Layout.sample.render h.sum),
   sample (name ++ "_count") labels (toString h.count)] ++
  (Histogram.cumulated 0 h.buckets).map fun (b, n) =>
    sample (name ++ "_bucket") (label "le" (bound b) :: labels) (toString n)

variable {κ : Type}

def counter (name help : String) (labels : κ → List String) (s : Series κ UInt64) : Family where
  name
  type := "counter"
  help
  samples := s.map fun (l, v) => sample (name ++ "_total") (labels l) (toString v)

def gauge (name help : String) (labels : κ → List String) (s : Series κ Int) : Family where
  name
  type := "gauge"
  help
  samples := s.map fun (l, v) => sample name (labels l) (toString v)

def histogram (name help : String) (labels : κ → List String) (s : Series κ Histogram) :
    Family where
  name
  type := "histogram"
  help
  samples := s.flatMap fun (l, h) => histogramSamples name (labels l) h

/-- the lines of a family -/
def lines (f : Family) : List String :=
  ["# HELP " ++ f.name ++ " " ++ f.help ++ ".", "# TYPE " ++ f.name ++ " " ++ f.type] ++
    f.samples.mergeSort fun a b => a ≤ b

end Family

/-- the families in their order -/
def families (m : Metrics) : List Family :=
  [.counter "ruo_reconcile" "Total number of reconcile calls" (Family.withLabel "result")
     m.reconciles,
   .histogram "ruo_reconcile_duration_seconds" "Duration of reconcile calls in seconds"
     Family.planLabels m.reconcileDurations,
   .gauge "ruo_upgrade_phase_info" "Current upgrade phase (1=active, 0=inactive)"
     (Family.withLabel "phase") m.phaseInfo,
   .counter "ruo_upgrade_completed" "Total number of upgrades that finished every component"
     (Family.withLabel "release") m.completed,
   .counter "ruo_condition_failed" "Total number of component conditions that turned Failed"
     Family.planLabels m.failedConditions,
   .counter "ruo_phase_transition" "Total number of phase transitions" (Family.withLabel "phase")
     m.transitions,
   .histogram "ruo_phase_duration_seconds" "Time spent in each upgrade phase in seconds"
     (Family.withLabel "phase") m.phaseDurations]

/-- the lines of all families -/
def lines (m : Metrics) : List String := m.families.flatMap Family.lines ++ ["# EOF"]

end ReleaseUpgrade.Metrics
