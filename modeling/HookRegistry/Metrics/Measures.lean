import HookRegistry.Assoc
import HookRegistry.Metrics.Registry

/-!
# Measures of the poller

A counter of polls by outcome, and a gauge for the number of webhooks.  `Measures.create` adds both
to a registry and says what the registry holds afterwards, also when it fails.
-/

namespace HookRegistry

/-- How a poll ended. -/
inductive PollOutcome where
  | success
  | failure
  deriving DecidableEq, Repr, Inhabited

/-- The value of the label for an outcome. -/
def PollOutcome.label : PollOutcome → String
  | .success => "success"
  | .failure => "failure"

/-- The outcome with a given label. -/
def PollOutcome.ofLabel? (s : String) : Option PollOutcome :=
  [PollOutcome.success, .failure].find? fun o => o.label == s

/-- Names and explanations of the metrics. -/
structure MetricNames where
  pollsTotal : String := "chrysom_polls_total"
  pollsTotalHelp : String :=
    "Counter for the number of polls (and their success/failure outcomes) to fetch new items."
  webhookListSize : String := "webhook_list_size_value"
  webhookListSizeHelp : String := "Size of the current list of webhooks."
  outcomeLabel : String := "outcome"
  deriving DecidableEq, Repr

namespace Measures

/-- Adds the counter and then the gauge to a registry; gives the registry afterwards and, when one
of the two cannot be added, the reason. -/
def create (r : MetricRegistry) (names : MetricNames) :
    MetricRegistry × Except MetricError Unit :=
  match (Metric.newCounter names.pollsTotal names.pollsTotalHelp names.outcomeLabel).bind r.add with
  | .error e => (r, .error e)
  | .ok r =>
    match (Metric.newGauge names.webhookListSize names.webhookListSizeHelp).bind r.add with
    | .error e => (r, .error e)
    | .ok r => (r, .ok ())

/-- The count where a counter stands still: one more is the same double. -/
def greatestCount : Nat := Nat.pow 2 53

/-- One more, as long as a double can tell. -/
def oneMore (count : Nat) : Nat :=
  if count < greatestCount then count + 1 else count

/-- Counts one more under a value of the label. -/
def increment (value : String) : Metric → Metric
  | .counter family help label counts =>
    .counter family help label (Assoc.put value (oneMore ((Assoc.get? value counts).getD 0)) counts)
  | m => m

/-- The name of a label for which no value can be given: the counter calls itself by it. -/
def ownName : String := "self"

/-- Outcomes can be recorded under these names: a value can be given for the label. -/
def CanRecord (names : MetricNames) : Prop :=
  names.outcomeLabel ≠ ownName

instance (names : MetricNames) : Decidable (CanRecord names) :=
  inferInstanceAs (Decidable (_ ≠ _))

/-- Records the outcome of a poll. -/
def recordPoll (r : MetricRegistry) (names : MetricNames) (outcome : PollOutcome) :
    Except MetricError MetricRegistry :=
  if CanRecord names then
    .ok (r.modify (Metric.familyName names.pollsTotal) (increment outcome.label))
  else .error .unusableLabel

/-- Sets the gauge. -/
def setListSize (r : MetricRegistry) (names : MetricNames) (value : Double) : MetricRegistry :=
  r.modify names.webhookListSize fun
    | .gauge name help _ => .gauge name help value
    | m => m

/-- The name under which the counter is looked up. -/
def sampleName (names : MetricNames) : String :=
  if Metric.totalSuffix.toList.isSuffixOf names.pollsTotal.toList then names.pollsTotal
  else names.pollsTotal ++ Metric.totalSuffix

/-- The number of polls recorded with an outcome. -/
def pollCount (r : MetricRegistry) (names : MetricNames) (outcome : PollOutcome) : Double :=
  (r.sample? (sampleName names) [(names.outcomeLabel, outcome.label)]).getD Double.zero

end Measures

end HookRegistry
