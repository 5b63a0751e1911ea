import CoreTiming.Proofs.Json.Writing
import CoreTiming.Proofs.Text.Cutting
import CoreTiming.Statistics.Export
import Mathlib.Data.String.Basic

namespace CoreTiming

namespace Record

variable {x y z : Record}

def InOrder (x y : Record) : Prop :=
  x.statistic.name < y.statistic.name ∨ x.statistic.name = y.statistic.name ∧ x.component ≤ y.component

def HasKey (name component : String) (record : Record) : Prop :=
  record.statistic.name = name ∧ record.component = component

instance (name component : String) (record : Record) : Decidable (HasKey name component record) :=
  inferInstanceAs (Decidable (_ ∧ _))

theorem notAfter_iff : notAfter x y = true ↔ InOrder x y := by
  simp only [notAfter, InOrder, Bool.or_eq_true, Bool.and_eq_true, decide_eq_true_eq]

theorem notAfter_trans (x y z : Record) (first : notAfter x y = true) (second : notAfter y z = true) :
    notAfter x z = true := by
  rw [notAfter_iff] at first second ⊢
  rcases first with less | ⟨same, front⟩
  · rcases second with below | ⟨alike, -⟩
    · exact .inl (lt_trans less below)
    · exact .inl (alike ▸ less)
  · rcases second with below | ⟨alike, back⟩
    · exact .inl (same ▸ below)
    · exact .inr ⟨same.trans alike, le_trans front back⟩

theorem notAfter_total (x y : Record) : (notAfter x y || notAfter y x) = true := by
  rw [Bool.or_eq_true, notAfter_iff, notAfter_iff]
  rcases lt_trichotomy x.statistic.name y.statistic.name with less | same | more
  · exact .inl (.inl less)
  · exact (le_total x.component y.component).imp (fun front => .inr ⟨same, front⟩)
      fun back => .inr ⟨same.symm, back⟩
  · exact .inr (.inl more)

theorem inOrder_of_hasKey {name component : String} (first : HasKey name component x)
    (second : HasKey name component y) : InOrder x y :=
  .inr ⟨first.1.trans second.1.symm, (first.2.trans second.2.symm).le⟩

end Record

namespace Sink

open Record (InOrder HasKey)

inductive Call
  | add (record : Record)
  | emit (component : String) (statistic : Statistic) (value : Nat)

def Call.record : Call → Record
  | add record => record
  | emit component statistic value => ⟨component, statistic, value⟩

def call (sink : Sink) : Call → Sink
  | .add record => sink.add record
  | .emit component statistic value => sink.emit component statistic value

def after (level : Nat) (calls : List Call) : Sink :=
  calls.foldl call { level := level }

variable {sink : Sink} {level : Nat} {calls : List Call}

theorem call_eq_add (sink : Sink) (call : Call) : sink.call call = sink.add call.record := by
  cases call <;> rfl

theorem after_eq_addAll (level : Nat) (calls : List Call) :
    after level calls = addAll { level := level } (calls.map Call.record) := by
  rw [after, addAll, List.foldl_map]
  congr 1
  funext sink call
  exact call_eq_add sink call

theorem toList_after (level : Nat) (calls : List Call) :
    (after level calls).records.toList = (calls.map Call.record).filter (·.statistic.level ≤ level) := by
  rw [after_eq_addAll, toList_addAll]
  rfl

theorem perm_rows (sink : Sink) : sink.rows.Perm sink.records.toList :=
  List.mergeSort_perm ..

theorem pairwise_rows (sink : Sink) : sink.rows.Pairwise InOrder :=
  (List.pairwise_mergeSort Record.notAfter_trans Record.notAfter_total _).imp Record.notAfter_iff.mp

theorem filter_rows (sink : Sink) (name component : String) :
    sink.rows.filter (HasKey name component) = sink.records.toList.filter (HasKey name component) := by
  have alike : (sink.records.toList.filter (HasKey name component)).Pairwise
      fun x y => Record.notAfter x y = true := by
    apply List.pairwise_of_forall_mem_list
    intro x first y second
    rw [List.mem_filter, decide_eq_true_eq] at first second
    exact Record.notAfter_iff.mpr (Record.inOrder_of_hasKey first.2 second.2)
  have kept := List.sublist_mergeSort Record.notAfter_trans Record.notAfter_total alike List.filter_sublist
  have again := kept.filter (HasKey name component)
  rw [List.filter_filter] at again
  simp only [Bool.and_self] at again
  exact (again.eq_of_length ((perm_rows sink).filter _).length_eq.symm).symm

end Sink

theorem mapM_map_eq_some {α β : Type} {writer : α → β} {reader : β → Option α} {items : List α}
    (inverse : ∀ item ∈ items, reader (writer item) = some item) : (items.map writer).mapM reader = some items := by
  induction items with
  | nil => rfl
  | cons item items ih =>
    rw [List.map_cons, List.mapM_cons, inverse item List.mem_cons_self,
      ih fun other member => inverse other (List.mem_cons_of_mem _ member)]
    rfl

namespace Record

def cells (record : Record) : List String :=
  [record.component, record.statistic.name, record.statistic.unit, toString record.statistic.level,
    toString record.value]

def readCell? (cell : List Char) : Option Nat :=
  (Json.Number.read? cell).bind Json.Number.toNat?

def ofCells? : List (List Char) → Option Record
  | [component, name, unit, level, value] => do
    let level ← readCell? level
    let value ← readCell? value
    return ⟨String.ofList component, ⟨String.ofList name, String.ofList unit, level⟩, value⟩
  | _ => none

def ofJson? : Json.Value → Option Record
  | .object [(some "component", .text (some component)), (some "name", .text (some name)),
      (some "unit", .text (some unit)), (some "level", .number level), (some "value", .number value)] => do
    let level ← level.toNat?
    let value ← value.toNat?
    return ⟨component, ⟨name, unit, level⟩, value⟩
  | _ => none

/-- No name holds a comma or a line break. -/
def Unbroken (record : Record) : Prop :=
  ∀ text ∈ [record.component, record.statistic.name, record.statistic.unit], ',' ∉ text.toList ∧ '\n' ∉ text.toList

instance (record : Record) : Decidable record.Unbroken :=
  inferInstanceAs (Decidable (∀ text ∈ _, _))

variable {record : Record}

theorem csv_eq (record : Record) : record.csv = String.intercalate "," record.cells :=
  rfl

theorem toList_csv (record : Record) : record.csv.toList = record.component.toList ++ ',' ::
    (record.statistic.name.toList ++ ',' :: (record.statistic.unit.toList ++ ',' ::
      (Nat.toDigits 10 record.statistic.level ++ ',' :: Nat.toDigits 10 record.value))) := by
  rw [csv_eq, String.toList_intercalate]
  simp [cells, List.intercalate_cons_cons]

theorem toDigits_plain (n : Nat) : ∀ c ∈ Nat.toDigits 10 n, c ≠ ',' ∧ c ≠ '\n' ∧ c ≠ '\r' :=
  Numeral.forall_mem_toDigits (by decide) (by decide) n

theorem ofCells?_csv (unbroken : record.Unbroken) : ofCells? (Text.splitAt ',' record.csv.toList) = some record := by
  simp only [Unbroken, List.forall_mem_cons, List.not_mem_nil, false_implies, implies_true, and_true] at unbroken
  obtain ⟨component, name, unit⟩ := unbroken
  have digits : ∀ n, ',' ∉ Nat.toDigits 10 n := fun n member => (toDigits_plain n ',' member).1 rfl
  have number : ∀ n, readCell? (Nat.toDigits 10 n) = some n := by
    intro n
    rw [readCell?, Json.read?_toDigits, Option.bind_some, Json.toNat?_ofNat]
  rw [toList_csv, Text.splitAt_append component.1, Text.splitAt_append name.1, Text.splitAt_append unit.1,
    Text.splitAt_append (digits _), Text.splitAt_of_not_mem (digits _)]
  simp only [ofCells?, number, String.ofList_toList]
  rfl

theorem line_csv (unbroken : record.Unbroken) :
    '\n' ∉ record.csv.toList ∧ record.csv.toList.getLast? ≠ some '\r' := by
  simp only [Unbroken, List.forall_mem_cons, List.not_mem_nil, false_implies, implies_true, and_true] at unbroken
  obtain ⟨component, name, unit⟩ := unbroken
  have digits : ∀ n, '\n' ∉ Nat.toDigits 10 n := fun n member => (toDigits_plain n '\n' member).2.1 rfl
  rw [toList_csv]
  refine ⟨by simp [component, name, unit, digits], ?_⟩
  intro ends
  obtain ⟨last, final⟩ : ∃ last, (Nat.toDigits 10 record.value).getLast? = some last :=
    ⟨_, List.getLast?_eq_some_getLast Nat.toDigits_ne_nil⟩
  simp only [List.getLast?_append, List.getLast?_cons, final] at ends
  cases ends
  exact (toDigits_plain record.value '\r' (List.mem_of_mem_getLast? final)).2.2 rfl

theorem ofJson?_json (record : Record) : ofJson? record.json = some record := by
  show (do
    let level ← (Json.Number.ofNat record.statistic.level).toNat?
    let value ← (Json.Number.ofNat record.value).toNat?
    return (⟨record.component, ⟨record.statistic.name, record.statistic.unit, level⟩, value⟩ : Record)) = some record
  rw [Json.toNat?_ofNat, Json.toNat?_ofNat]
  rfl

theorem plain_json (record : Record) : record.json.Plain :=
  ⟨⟨_, rfl⟩, ⟨_, rfl⟩, ⟨_, rfl⟩, ⟨_, rfl⟩, ⟨_, rfl⟩, ⟨_, rfl⟩, ⟨_, rfl⟩, ⟨_, rfl⟩, ⟨_, rfl⟩, ⟨_, rfl⟩, trivial⟩

end Record

namespace Sink

open Record (InOrder HasKey)

def readCsv? (text : String) : Option (List Record) :=
  match Text.lines text.toList with
  | [] => none
  | header :: lines =>
    if header = csvHeader.toList then lines.mapM fun line => Record.ofCells? (Text.splitAt ',' line) else none

def readJson? (text : String) : Option (List Record) :=
  match Json.read? text with
  | some (.array rows) => rows.mapM Record.ofJson?
  | _ => none

variable {sink : Sink}

def columns : List String :=
  ["ComponentName", "StatisticName", "Unit", "Level", "Value"]

theorem written_csv (sink : Sink) : sink.written .csv =
    String.join ((columns :: sink.rows.map Record.cells).map fun cells => String.intercalate "," cells ++ "\n") := by
  have header : String.intercalate "," columns = csvHeader := rfl
  rw [List.map_cons, header, List.map_map]
  show String.join ((csvHeader :: sink.rows.map Record.csv).map (· ++ "\n")) = _
  rw [List.map_cons, List.map_map]
  rfl

theorem readCsv?_written (unbroken : ∀ record ∈ sink.rows, record.Unbroken) :
    readCsv? (sink.written .csv) = some sink.rows := by
  have text : (sink.written .csv).toList =
      (csvHeader.toList :: sink.rows.map (·.csv.toList)).flatMap (· ++ ['\n']) := by
    simp [written, List.flatMap_map]
  have whole : ∀ line ∈ csvHeader.toList :: sink.rows.map (·.csv.toList),
      '\n' ∉ line ∧ line.getLast? ≠ some '\r' := by
    rw [List.forall_mem_cons, List.forall_mem_map]
    exact ⟨by decide, fun record member => Record.line_csv (unbroken record member)⟩
  have lines := Text.lines_flatMap (fun line member => (whole line member).1) fun line member => (whole line member).2
  rw [readCsv?, text, lines]
  simp only [↓reduceIte]
  exact mapM_map_eq_some fun record member => Record.ofCells?_csv (unbroken record member)

theorem readJson?_written (sink : Sink) : readJson? (sink.written .json) = some sink.rows := by
  have plain : (Json.Value.array (sink.rows.map Record.json)).Plain := by
    show Json.PlainItems (sink.rows.map Record.json)
    induction sink.rows with
    | nil => trivial
    | cons record rows ih => exact ⟨Record.plain_json record, ih⟩
  rw [readJson?, written, Json.read?_pretty plain]
  exact mapM_map_eq_some fun record _ => Record.ofJson?_json record

/-- However records are recorded, the sink keeps those up to its level as they came. Its rows are these records
    in order, with those of one key as they came; a table has a line for the header and one for each row, and
    where no name is broken its cells are those of the rows; and objects hold the same rows. -/
theorem export_faithful (level : Nat) (calls : List Call) :
    let sink := after level calls
    let kept := (calls.map Call.record).filter (·.statistic.level ≤ level)
    sink.records.toList = kept ∧
    (sink.rows.Perm kept ∧ sink.rows.Pairwise InOrder ∧
      ∀ name component, sink.rows.filter (HasKey name component) = kept.filter (HasKey name component)) ∧
    sink.written .csv =
      String.join ((columns :: sink.rows.map Record.cells).map fun cells => String.intercalate "," cells ++ "\n") ∧
    ((∀ record ∈ kept, record.Unbroken) → readCsv? (sink.written .csv) = some sink.rows) ∧
    readJson? (sink.written .json) = some sink.rows := by
  intro sink kept
  have recorded : sink.records.toList = kept := toList_after level calls
  have same : sink.rows.Perm kept := recorded ▸ perm_rows sink
  refine ⟨recorded, ⟨same, pairwise_rows sink, fun name component => ?_⟩, written_csv sink, ?_,
    readJson?_written sink⟩
  · rw [filter_rows, recorded]
  · intro unbroken
    exact readCsv?_written fun record member => unbroken record (same.mem_iff.mp member)

/-- A sample above the level is dropped, and the other two of one core stay as they came, though a core before
    it comes later. -/
theorem samples_stay_in_order :
    let latency : Statistic := ⟨"mem_latency", "cycles", 5⟩
    let calls : List Call := [.emit "cpu.core1" latency 7, .add ⟨"cpu.core1", latency, 3⟩,
      .add ⟨"cpu.core0", ⟨"debug", "count", 6⟩, 1⟩, .emit "cpu.core0" latency 12]
    let sink := after 5 calls
    sink.records.toList.length = 3 ∧
      sink.rows.filter (HasKey "mem_latency" "cpu.core1") =
        [⟨"cpu.core1", latency, 7⟩, ⟨"cpu.core1", latency, 3⟩] ∧
      readCsv? (sink.written .csv) = some sink.rows := by
  intro latency calls sink
  have unbroken : ∀ record ∈ (calls.map Call.record).filter (·.statistic.level ≤ 5), record.Unbroken := by
    decide
  obtain ⟨kept, ⟨-, -, stable⟩, -, table, -⟩ := export_faithful 5 calls
  refine ⟨?_, ?_, table unbroken⟩
  · rw [kept]
    decide
  · rw [stable]
    decide

end Sink

end CoreTiming
