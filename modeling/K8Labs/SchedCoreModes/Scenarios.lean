import K8Labs.Python.Exc
import K8Labs.Python.Text

/-!
# The workloads of the mode study

`scenarios.py` lists the scheduler modes and the scenarios that are measured in each of them.  A
scenario has groups that compete side by side, or parents some of which have children.  Its units
are the groups, or the parents: the level at which the shares are compared.
-/

namespace SchedCoreModes

open Py

/-- `MODES`. -/
def modes : List String := ["up", "smp", "concur", "max", "tasks"]

/-- A group of a flat scenario. -/
structure Group where
  name : String
  weight : ℕ
  threads : ℕ
  cpuMax : String
  workload : String

/-- A child of a parent. -/
structure Child where
  name : String
  weight : ℕ
  threads : ℕ

/-- A parent of a nested scenario. -/
structure Parent where
  name : String
  weight : ℕ
  threads : ℕ
  children : List Child

/-- The kind of a scenario, with what is in it. -/
inductive Scenario where
  | flat (groups : List Group)
  | nested (parents : List Parent)

/-- `SCENARIOS`. -/
def scenarios : List (String × Scenario) :=
  [("weighted_threads", .flat
      [⟨"w400-t1", 400, 1, "", "cpu"⟩, ⟨"w200-t2", 200, 2, "", "cpu"⟩,
        ⟨"w100-t4", 100, 4, "", "cpu"⟩]),
    ("qos_nested", .nested
      [⟨"qos-guaranteed", 100, 1, []⟩,
        ⟨"qos-burstable", 100, 4, [⟨"pod-a", 100, 2⟩, ⟨"pod-b", 100, 2⟩]⟩]),
    ("quota", .flat
      [⟨"limited", 100, 2, "50000 100000", "cpu"⟩, ⟨"open", 100, 2, "", "cpu"⟩]),
    ("latency", .flat
      [⟨"load", 400, 2, "", "cpu"⟩, ⟨"probe", 100, 1, "", "latency"⟩])]

/-- `parse_mode_file`: the mode that stands in brackets. -/
def parseModeFile (text : String) : Except Exc String :=
  match (splitWords text).find? fun token => startsWith token "(" && endsWith token ")" with
  | some token => .ok (String.ofList (token.toList.drop 1).dropLast)
  | none => valueError ("no active cgroup mode in " ++ text)

/-! ### The groups that are measured -/

/-- What the runner creates and measures. -/
structure Spec where
  name : String
  kind : String
  parent : String
  weight : ℕ
  threads : ℕ
  cpuMax : String
  workload : String
  subtree : Bool
  deriving DecidableEq

/-- The specification of a parent. -/
def Parent.spec (p : Parent) : Spec :=
  ⟨p.name, "parent", "", p.weight, p.threads, "", if p.children.isEmpty then "cpu" else "none",
    !p.children.isEmpty⟩

/-- The specification of a child. -/
def Child.spec (p : Parent) (c : Child) : Spec :=
  ⟨p.name ++ "-" ++ c.name, "child", p.name, c.weight, c.threads, "", "cpu", false⟩

/-- The specification of a group. -/
def Group.spec (g : Group) : Spec :=
  ⟨g.name, "group", "", g.weight, g.threads, g.cpuMax, g.workload, false⟩

/-- `group_specs`. -/
def groupSpecs (name : String) : Except Exc (List Spec) :=
  match scenarios.lookup name with
  | some (.flat groups) => .ok (groups.map Group.spec)
  | some (.nested parents) => .ok (parents.flatMap fun p => p.spec :: p.children.map (Child.spec p))
  | none => .error ⟨.keyError, name⟩

end SchedCoreModes
