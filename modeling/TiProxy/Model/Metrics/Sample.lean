import Mathlib.Data.List.AList

/-! # Samples, query rules and the backend reader's state

The metrics reader stores Prometheus samples, per-rule histories and per-rule results. Go maps
with string keys are `AList`s: each key occurs once and the entry order stands for one
iteration order, which Go leaves unspecified. Float samples are kept as IEEE-754 bit patterns,
because the reader only stores them and tests them for NaN. Times are milliseconds (`model.Time`)
or nanoseconds (`time.Time`, `time.Duration`) as integers, as the code reads them.
-/

namespace TiProxy.Metrics

/-- A Go `map[string]V`. -/
abbrev StrMap (V : Type) := AList (fun _ : String => V)

/-- `model.Time`: milliseconds since the epoch. -/
abbrev Time := Int

/-- `model.SampleValue`, a float64 kept as its bit pattern. -/
structure SampleValue where
  bits : UInt64
deriving DecidableEq, Repr

/-- `math.IsNaN`: every exponent bit set and a non-zero mantissa. -/
def SampleValue.isNaN (value : SampleValue) : Bool :=
  (value.bits >>> 52) &&& 0x7FF == 0x7FF && value.bits &&& 0xFFFFFFFFFFFFF != 0

/-- `model.SamplePair`. -/
structure SamplePair where
  timestamp : Time
  value : SampleValue
deriving DecidableEq, Repr

/-- `model.Metric`, a label set. -/
abbrev Metric := List (String × String)

/-- Modelled from the spec: `LabelNameInstance`, declared outside src/; the spec names the label
`instance`. -/
def labelNameInstance : String := "instance"

/-- `v.Metric[LabelNameInstance]`, the empty string when the label is missing. -/
def instanceOf (metric : Metric) : String :=
  (metric.lookup labelNameInstance).getD ""

/-- The label set `history2Value` builds for a backend. -/
def instanceLabels (backend : String) : Metric := [(labelNameInstance, backend)]

@[simp] theorem instanceOf_instanceLabels (backend : String) :
    instanceOf (instanceLabels backend) = backend := by
  simp [instanceOf, instanceLabels, List.lookup_cons]

/-- `model.Sample`, an element of a vector. -/
structure Sample where
  metric : Metric
  value : SampleValue
  timestamp : Time
deriving DecidableEq, Repr

/-- `model.SampleStream`, an element of a matrix. -/
structure SampleStream where
  metric : Metric
  values : List SamplePair
deriving DecidableEq, Repr

/-- `model.ValueType`. -/
inductive ValueType where
  | none
  | scalar
  | vector
  | matrix
  | string
deriving DecidableEq, Repr

/-- A non-nil `model.Value`. -/
inductive Value where
  | scalar (pair : SamplePair)
  | vector (samples : List Sample)
  | matrix (streams : List SampleStream)
  | string (text : String) (timestamp : Time)
deriving DecidableEq, Repr

/-- `Value.Type()`. -/
def Value.type : Value → ValueType
  | .scalar _ => .scalar
  | .vector _ => .vector
  | .matrix _ => .matrix
  | .string _ _ => .string

/-- `dto.MetricFamily` as `parseMetrics` returns it: the family's labelled samples. -/
structure MetricFamily where
  metrics : List (Metric × SampleValue)
deriving DecidableEq, Repr

/-- The metric families of one scrape, keyed by family name. -/
abbrev MetricFamilies := StrMap MetricFamily

/-- Modelled from the spec: `QueryRule`, declared outside src/. `Metric2Value` projects the
families to one value, `Range2Value` reduces the step-1 history, `Retention` is a
`time.Duration` in nanoseconds. -/
structure QueryRule where
  names : List String
  retention : Int
  metric2Value : MetricFamilies → SampleValue
  range2Value : List SamplePair → SampleValue
  resultType : ValueType

/-- Modelled from the spec: `QueryResult`, declared outside src/. `UpdateTime` is a monotonic
clock reading and a missing `Value` is a nil `model.Value`. -/
structure QueryResult where
  updateTime : Nat := 0
  value : Option Value := none
  err : Option String := none
deriving DecidableEq, Repr

/-- `backendHistory`: the two histories of one rule and one backend. -/
structure BackendHistory where
  step1History : List SamplePair := []
  step2History : List SamplePair := []
deriving DecidableEq, Repr

/-- `map[string]backendHistory`, keyed by backend address. -/
abbrev RuleHistory := StrMap BackendHistory

/-- `map[string]map[string]backendHistory`, keyed by rule key and then backend address. -/
abbrev History := StrMap RuleHistory

/-- `history[ruleKey][backend]`, present only when both maps hold the key. -/
def History.find? (history : History) (ruleKey backend : String) : Option BackendHistory :=
  (history.lookup ruleKey).bind (·.lookup backend)

/-- `history[ruleKey][backend]` with Go's zero value for a missing entry. -/
def History.get (history : History) (ruleKey backend : String) : BackendHistory :=
  (history.find? ruleKey backend).getD {}

/-- The fields of `BackendReader` that its methods read and write. -/
structure BackendReader where
  queryRules : StrMap QueryRule := ∅
  queryResults : String → QueryResult := fun _ => {}
  history : History := ∅
  marshalledHistory : Option History := none

end TiProxy.Metrics
