namespace CoreTiming

/-- What is counted, in which unit, and from which level on it is of interest. -/
structure Statistic where
  name : String
  unit : String
  level : Nat
  deriving DecidableEq, Repr

namespace Statistic

def summaryLevel : Nat := 1
def memoryLevel : Nat := 2
def detailLevel : Nat := 3
def occupancyLevel : Nat := 4
def sampleLevel : Nat := 5

end Statistic

structure Record where
  component : String
  statistic : Statistic
  value : Nat
  deriving DecidableEq, Repr

structure Sink where
  level : Nat
  records : Array Record := #[]
  deriving DecidableEq, Repr

namespace Sink

def keeps (sink : Sink) (level : Nat) : Bool :=
  level ≤ sink.level

def add (sink : Sink) (record : Record) : Sink :=
  if sink.keeps record.statistic.level then { sink with records := sink.records.push record }
  else sink

/-- Records a value by its parts. They make a record only if it is kept. -/
def emit (sink : Sink) (component : String) (statistic : Statistic) (value : Nat) : Sink :=
  if sink.keeps statistic.level then
    { sink with records := sink.records.push ⟨component, statistic, value⟩ }
  else sink

def addAll (sink : Sink) (records : List Record) : Sink :=
  records.foldl add sink

theorem level_addAll (sink : Sink) (records : List Record) : (sink.addAll records).level = sink.level := by
  induction records generalizing sink with
  | nil => rfl
  | cons record records ih =>
    refine (ih (sink.add record)).trans ?_
    unfold add
    split <;> rfl

theorem toList_addAll (sink : Sink) (records : List Record) : (sink.addAll records).records.toList =
    sink.records.toList ++ records.filter fun record => sink.keeps record.statistic.level := by
  induction records generalizing sink with
  | nil => simp [addAll]
  | cons record records ih =>
    refine (ih (sink.add record)).trans ?_
    cases kept : sink.keeps record.statistic.level with
    | true =>
      have added : sink.add record = { sink with records := sink.records.push record } := if_pos kept
      rw [added, List.filter_cons_of_pos (by simpa using kept)]
      simp [keeps]
    | false =>
      have same : sink.add record = sink := if_neg (by simp [kept])
      rw [same, List.filter_cons_of_neg (by simp [kept])]

end Sink

end CoreTiming
