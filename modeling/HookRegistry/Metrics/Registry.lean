import HookRegistry.Double.Basic

/-!
# A registry of metrics

A registry holds counters and gauges and lets no two of them claim the same name.  A counter is
known by its family name, which is the given name without one `_total` at its end, and exposes its
values under the family name with `_total`.
-/

namespace HookRegistry

/-- A metric of a registry. -/
inductive Metric where
  /-- A counter with one label; `counts` holds the values of the label in the order in which they
  first appeared. -/
  | counter (family help label : String) (counts : List (String × Nat))
  | gauge (name help : String) (value : Double)
  deriving DecidableEq, Repr

/-- The value of a metric under a name and labels. -/
structure Sample where
  name : String
  labels : List (String × String)
  value : Double
  deriving DecidableEq, Repr

/-- Why a metric cannot be added or a value not be recorded. -/
inductive MetricError where
  /-- The name of the metric is empty. -/
  | emptyName
  /-- The name of the label is kept for other uses. -/
  | reservedLabel (label : String)
  /-- Nothing is left of the name of a counter. -/
  | emptyFamily
  /-- A name is taken. -/
  | duplicate
  /-- No value can be given for a label of this name. -/
  | unusableLabel
  deriving DecidableEq, Repr

/-- The wording of an error; a taken name is reported without words. -/
def MetricError.message? : MetricError → Option String
  | .emptyName => some "Metric name should not be empty"
  | .reservedLabel label => some ("Reserved label metric name: " ++ label)
  | .emptyFamily => some "metric name cannot be empty"
  | .duplicate => none
  | .unusableLabel => some "MetricWrapperBase.labels() got multiple values for argument 'self'"

namespace Metric

/-- The suffix of the name under which a counter is exposed. -/
def totalSuffix : String := "_total"

/-- The family name of a counter: its name without one `_total` at the end. -/
def familyName (name : String) : String :=
  let cs := name.toList
  let suffix := totalSuffix.toList
  if suffix.isSuffixOf cs then String.ofList (cs.take (cs.length - suffix.length)) else name

/-- The name by which a metric is known. -/
def name : Metric → String
  | .counter family _ _ _ => family
  | .gauge name _ _ => name

/-- The text that explains a metric. -/
def help : Metric → String
  | .counter _ help _ _ => help
  | .gauge _ help _ => help

/-- The names that a metric claims. -/
def claims : Metric → List String
  | .counter family _ _ _ => [family, family ++ totalSuffix, family ++ "_created"]
  | .gauge name _ _ => [name]

/-- The values of a metric. -/
def samples : Metric → List Sample
  | .counter family _ label counts =>
    counts.map fun c =>
      { name := family ++ totalSuffix, labels := [(label, c.1)], value := Double.ofInt c.2 }
  | .gauge name _ value => [{ name, labels := [], value }]

/-- Whether the name of a label is kept for other uses: two underscores, and no line feed after
them but at the very end. -/
def isReservedLabel (label : String) : Bool :=
  match label.toList with
  | '_' :: '_' :: rest =>
    let rest := if rest.getLast? = some '\n' then rest.dropLast else rest
    !rest.contains '\n'
  | _ => false

/-- A counter without values. -/
def newCounter (name help label : String) : Except MetricError Metric :=
  if name.isEmpty then .error .emptyName
  else if isReservedLabel label then .error (.reservedLabel label)
  else if (familyName name).isEmpty then .error .emptyFamily
  else .ok (.counter (familyName name) help label [])

/-- A gauge at zero. -/
def newGauge (name help : String) : Except MetricError Metric :=
  if name.isEmpty then .error .emptyName else .ok (.gauge name help Double.zero)

end Metric

/-- The metrics of a registry, in the order in which they were added. -/
abbrev MetricRegistry := List Metric

namespace MetricRegistry

/-- The names that are taken. -/
def claims (r : MetricRegistry) : List String :=
  r.flatMap Metric.claims

/-- Adds a metric, unless one of its names is taken. -/
def add (r : MetricRegistry) (m : Metric) : Except MetricError MetricRegistry :=
  if m.claims.any r.claims.contains then .error .duplicate else .ok (r ++ [m])

/-- The value under a name and labels. -/
def sample? (r : MetricRegistry) (name : String) (labels : List (String × String)) :
    Option Double :=
  ((r.flatMap Metric.samples).find? fun s => s.name == name && s.labels == labels).map (·.value)

/-- Changes the metric that is known by a name. -/
def modify (r : MetricRegistry) (name : String) (f : Metric → Metric) : MetricRegistry :=
  r.map fun m => if m.name = name then f m else m

end MetricRegistry

end HookRegistry
