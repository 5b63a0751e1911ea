import CoreTiming.Proofs.Config.Readings
import CoreTiming.Proofs.Text.Cutting
import Mathlib.Data.Nat.Find

namespace CoreTiming

namespace PerCore

variable {α : Type} {setting raw : String} {cores fields : Nat} {reader : Selection → Except ConfigError α}
  {entry : List Char} {entries : List (List Char)} {error : ConfigError}

def Encloses (raw : String) (body : List Char) : Prop :=
  Text.trim raw.toList = '[' :: (body ++ [']'])

def listed (body : List Char) : List (List Char) :=
  ((Text.splitAt ',' body).map Text.trim).filter (!·.isEmpty)

def parts (entry : List Char) : List (List Char) :=
  (Text.splitAt ':' entry).map Text.trim

def IsSelector (cores : Nat) (selector : List Char) : Prop :=
  Text.upper selector = everyCore ∨ ∃ core < cores, Numeral.read 10 Numeral.wordLimit selector = .ok core

def Reaches (cores : Nat) (selector : List Char) (core : Nat) : Prop :=
  core < cores ∧
    (Text.upper selector = everyCore ∨ Numeral.read 10 Numeral.wordLimit selector = .ok core)

def WellFormed (cores fields : Nat) (entry : List Char) : Prop :=
  ∃ selector values, parts entry = selector :: values ∧ values.length = fields ∧ IsSelector cores selector

def Selects (cores fields : Nat) (entry : List Char) (selection : Selection) : Prop :=
  ∃ selector values, parts entry = selector :: values ∧ values.length = fields ∧
    Reaches cores selector selection.core ∧ selection.fields = values.map String.ofList

structure Passes (reader : Selection → Except ConfigError α) (cores fields : Nat) (entry : List Char) :
    Prop where
  wellFormed : WellFormed cores fields entry
  reads : ∀ selection, Selects cores fields entry selection → ∃ value, reader selection = .ok value

/-- What is wrong with an entry, whatever its fields mean. -/
inductive Malformed (setting : String) (cores fields : Nat) (entry : List Char) : ConfigError → Prop
  | fieldCount (count : (parts entry).length ≠ fields + 1) :
      Malformed setting cores fields entry
        (.malformed setting (.fieldCount (String.ofList entry) (parts entry).length (fields + 1)))
  | notCoreIndex {selector : List Char} {values : List (List Char)} {fault : NumeralFault}
      (cut : parts entry = selector :: values) (count : values.length = fields)
      (other : Text.upper selector ≠ everyCore)
      (unread : Numeral.read 10 Numeral.wordLimit selector = .error fault) :
      Malformed setting cores fields entry (.malformed setting (.notCoreIndex (String.ofList selector)))
  | outOfRange {selector : List Char} {values : List (List Char)} {core : Nat}
      (cut : parts entry = selector :: values) (count : values.length = fields)
      (other : Text.upper selector ≠ everyCore)
      (index : Numeral.read 10 Numeral.wordLimit selector = .ok core) (outside : cores ≤ core) :
      Malformed setting cores fields entry (.coreOutOfRange setting core cores)

/-- The first thing that is wrong with an entry, and of the cores that it selects the lowest for which it
    cannot be read. -/
inductive EntryFails (setting : String) (cores fields : Nat) (reader : Selection → Except ConfigError α)
    (entry : List Char) : ConfigError → Prop
  | malformed {error : ConfigError} (malformed : Malformed setting cores fields entry error) :
      EntryFails setting cores fields reader entry error
  | unread {selection : Selection} {error : ConfigError} (selects : Selects cores fields entry selection)
      (failed : reader selection = .error error)
      (lowest : ∀ other, Selects cores fields entry other → other.core < selection.core →
        ∃ value, reader other = .ok value) : EntryFails setting cores fields reader entry error

def Selected (cores fields : Nat) (entries : List (List Char)) (core : Nat) : Prop :=
  ∃ entry ∈ entries, ∃ selection, Selects cores fields entry selection ∧ selection.core = core

/-- Of the entries that select a core the last one decides. -/
def Decides (cores fields : Nat) (entries : List (List Char)) (selection : Selection) : Prop :=
  ∃ before entry after, entries = before ++ entry :: after ∧ Selects cores fields entry selection ∧
    ¬ Selected cores fields after selection.core

def Accepts (reader : Selection → Except ConfigError α) (raw : String) (cores fields : Nat) : Prop :=
  ∃ body, Encloses raw body ∧ (∀ entry ∈ listed body, Passes reader cores fields entry) ∧
    ∀ core < cores, Selected cores fields (listed body) core

def Tabulates (reader : Selection → Except ConfigError α) (raw : String) (cores fields : Nat)
    (table : List α) : Prop :=
  table.length = cores ∧ ∃ body, Encloses raw body ∧ ∀ core < cores, ∃ selection value,
    Decides cores fields (listed body) selection ∧ selection.core = core ∧
      reader selection = .ok value ∧ table[core]? = some value

/-- Brackets come first, then the entries from the left, and a core without an entry comes last. -/
inductive FailsWith (setting raw : String) (cores fields : Nat) (reader : Selection → Except ConfigError α) :
    ConfigError → Prop
  | brackets (bare : ∀ body, ¬ Encloses raw body) :
      FailsWith setting raw cores fields reader (.malformed setting (.notEnclosed raw))
  | entry {body : List Char} {before after : List (List Char)} {entry : List Char} {error : ConfigError}
      (encloses : Encloses raw body) (split : listed body = before ++ entry :: after)
      (passes : ∀ earlier ∈ before, Passes reader cores fields earlier)
      (fails : EntryFails setting cores fields reader entry error) :
      FailsWith setting raw cores fields reader error
  | missing {body : List Char} {core : Nat} (encloses : Encloses raw body)
      (passes : ∀ entry ∈ listed body, Passes reader cores fields entry) (inside : core < cores)
      (unselected : ¬ Selected cores fields (listed body) core)
      (lowest : ∀ earlier < core, Selected cores fields (listed body) earlier) :
      FailsWith setting raw cores fields reader (.missingCore setting core)

theorem exists_parts (entry : List Char) : ∃ selector values, parts entry = selector :: values := by
  apply List.exists_cons_of_ne_nil
  simpa [parts] using Text.splitAt_ne_nil ':' entry

theorem select_eq {selector : List Char} {values : List (List Char)} (cut : parts entry = selector :: values)
    (count : values.length = fields) : select setting cores fields entry =
      if Text.upper selector = everyCore then
        .ok ((List.range cores).map (⟨·, values.map String.ofList⟩))
      else
        match Numeral.read 10 Numeral.wordLimit selector with
        | .error _ => .error (.malformed setting (.notCoreIndex (String.ofList selector)))
        | .ok core =>
          if core < cores then .ok [⟨core, values.map String.ofList⟩]
          else .error (.coreOutOfRange setting core cores) := by
  unfold parts at cut
  unfold select
  rw [cut]
  exact if_neg (by simpa using count)

theorem select_of_malformed (malformed : Malformed setting cores fields entry error) :
    select setting cores fields entry = .error error := by
  cases malformed with
  | fieldCount count =>
    obtain ⟨selector, values, cut⟩ := exists_parts entry
    rw [cut, List.length_cons] at count ⊢
    unfold parts at cut
    unfold select
    rw [cut]
    exact if_pos (by simpa using count)
  | notCoreIndex cut count other unread => rw [select_eq cut count, if_neg other, unread]
  | outOfRange cut count other index outside =>
    rw [select_eq cut count, if_neg other, index]
    exact if_neg (Nat.not_lt.mpr outside)

theorem wellFormed_or_malformed (setting : String) (cores fields : Nat) (entry : List Char) :
    WellFormed cores fields entry ∨ ∃ error, Malformed setting cores fields entry error := by
  obtain ⟨selector, values, cut⟩ := exists_parts entry
  by_cases count : values.length = fields
  · by_cases every : Text.upper selector = everyCore
    · exact .inl ⟨selector, values, cut, count, .inl every⟩
    · cases index : Numeral.read 10 Numeral.wordLimit selector with
      | error fault => exact .inr ⟨_, .notCoreIndex cut count every index⟩
      | ok core =>
        by_cases inside : core < cores
        · exact .inl ⟨selector, values, cut, count, .inr ⟨core, inside, index⟩⟩
        · exact .inr ⟨_, .outOfRange cut count every index (Nat.not_lt.mp inside)⟩
  · exact .inr ⟨_, .fieldCount (by simpa [cut] using count)⟩

theorem exists_select (setting : String) (wellFormed : WellFormed cores fields entry) :
    ∃ selections, select setting cores fields entry = .ok selections ∧
      (∀ selection, selection ∈ selections ↔ Selects cores fields entry selection) ∧
        selections.Pairwise (·.core < ·.core) := by
  obtain ⟨selector, values, cut, count, known⟩ := wellFormed
  have selects : ∀ selection, Selects cores fields entry selection ↔
      Reaches cores selector selection.core ∧ selection.fields = values.map String.ofList := by
    intro selection
    constructor
    · rintro ⟨_, _, same, -, reaches, given⟩
      cases cut.symm.trans same
      exact ⟨reaches, given⟩
    · rintro ⟨reaches, given⟩
      exact ⟨selector, values, cut, count, reaches, given⟩
  rw [select_eq cut count]
  by_cases every : Text.upper selector = everyCore
  · refine ⟨_, if_pos every, fun selection => ?_, ?_⟩
    · obtain ⟨core, given⟩ := selection
      rw [selects]
      simp [Reaches, every, eq_comm]
    · rw [List.pairwise_map]
      exact List.pairwise_lt_range
  · obtain ⟨core, inside, index⟩ := known.resolve_left every
    rw [if_neg every, index]
    refine ⟨_, if_pos inside, fun selection => ?_, List.pairwise_singleton ..⟩
    obtain ⟨other, given⟩ := selection
    rw [selects]
    simp only [Reaches, every, index, List.mem_singleton, Selection.mk.injEq, Except.ok.injEq, false_or]
    constructor
    · rintro ⟨rfl, rfl⟩
      exact ⟨⟨inside, rfl⟩, rfl⟩
    · rintro ⟨⟨-, rfl⟩, rfl⟩
      exact ⟨rfl, rfl⟩

theorem forall_front_iff {holds : Selection → Prop} {front back : List Selection} {selection : Selection}
    (rising : (front ++ selection :: back).Pairwise (·.core < ·.core)) : (∀ earlier ∈ front, holds earlier) ↔
      ∀ other ∈ front ++ selection :: back, other.core < selection.core → holds other := by
  obtain ⟨-, behind, across⟩ := List.pairwise_append.mp rising
  have later := (List.pairwise_cons.mp behind).1
  constructor
  · intro hold other member less
    rcases List.mem_append.mp member with before | member
    · exact hold other before
    · rcases List.mem_cons.mp member with rfl | after
      · omega
      · have greater := later other after
        omega
  · intro hold earlier before
    exact hold earlier (List.mem_append_left _ before) (across earlier before selection List.mem_cons_self)

theorem wellFormed_of_selects {selection : Selection} (selects : Selects cores fields entry selection) :
    WellFormed cores fields entry := by
  obtain ⟨selector, values, cut, count, reaches, -⟩ := selects
  exact ⟨selector, values, cut, count, reaches.2.imp_right fun index => ⟨_, reaches.1, index⟩⟩

theorem not_wellFormed_of_malformed (malformed : Malformed setting cores fields entry error) :
    ¬ WellFormed cores fields entry := by
  intro wellFormed
  obtain ⟨selections, selected, -⟩ := exists_select setting wellFormed
  cases selected.symm.trans (select_of_malformed malformed)

theorem passes_or_fails (setting : String) (cores fields : Nat) (reader : Selection → Except ConfigError α)
    (entry : List Char) :
    Passes reader cores fields entry ∨ ∃ error, EntryFails setting cores fields reader entry error := by
  rcases wellFormed_or_malformed setting cores fields entry with wellFormed | ⟨error, malformed⟩
  · obtain ⟨selections, -, member, rising⟩ := exists_select setting wellFormed
    rcases forall_or_first (fun selection => ∃ value, reader selection = .ok value) selections with
      reads | ⟨front, selection, back, rfl, reads, failed⟩
    · exact .inl ⟨wellFormed, fun selection selects => reads selection ((member selection).mpr selects)⟩
    · obtain ⟨error, unread⟩ := exists_error_of_not_ok failed
      have selects : Selects cores fields entry selection := (member selection).mp (by simp)
      refine .inr ⟨error, .unread selects unread fun other chosen => ?_⟩
      exact (forall_front_iff rising).mp reads other ((member other).mpr chosen)
  · exact .inr ⟨error, .malformed malformed⟩

theorem assign_append (table : Array (Option α)) (front back : List Selection) :
    assign (write reader) table (front ++ back) =
      assign (write reader) table front >>= fun table => assign (write reader) table back := by
  induction front generalizing table with
  | nil => rfl
  | cons selection front ih =>
    rw [List.cons_append, assign, assign]
    cases write reader selection with
    | error fault => rfl
    | ok entry => exact ih _

def fill (setting : String) (cores fields : Nat) (reader : Selection → Except ConfigError α) :
    Array (Option α) → List (List Char) → Except ConfigError (Array (Option α))
  | table, [] => .ok table
  | table, entry :: rest => do
    let selections ← select setting cores fields entry
    let table ← assign (write reader) table selections
    fill setting cores fields reader table rest

/-- To find the selections of all entries, up to one at fault, and to read them afterwards comes to the same
    as to take each entry by itself. -/
theorem assign_selectAll {β : Type} (next : Array (Option α) → Except ConfigError β)
    (table : Array (Option α)) (entries : List (List Char)) :
    (assign (write reader) table (selectAll setting cores fields entries).1 >>= fun table =>
      match (selectAll setting cores fields entries).2 with
      | some fault => .error fault
      | none => next table) = fill setting cores fields reader table entries >>= next := by
  induction entries generalizing table with
  | nil => rfl
  | cons entry entries ih =>
    rw [selectAll, fill]
    cases select setting cores fields entry with
    | error fault => rfl
    | ok selections =>
      simp only [assign_append, bind_assoc, ih]
      rfl

theorem read_eq_fill : read setting raw cores fields reader = (do
    let entries ← PerCore.entries setting raw
    let table ← fill setting cores fields reader (.replicate cores none) entries
    complete setting 0 table.toList) := by
  unfold read selections
  cases PerCore.entries setting raw with
  | error fault => rfl
  | ok entries => exact assign_selectAll (fun table => complete setting 0 table.toList) _ entries

theorem write_of_reads {selection : Selection} {value : α} (read : reader selection = .ok value) :
    write reader selection = .ok (selection.core, value) := by
  rw [write, read]
  rfl

theorem exists_assign {selections : List Selection}
    (reads : ∀ selection ∈ selections, ∃ value, reader selection = .ok value) (table : Array (Option α)) :
    ∃ after, assign (write reader) table selections = .ok after ∧ after.size = table.size ∧
      ∀ core < table.size,
        (∃ selection ∈ selections, selection.core = core ∧ ∃ value, reader selection = .ok value ∧
          after[core]? = some (some value)) ∨
        ((∀ selection ∈ selections, selection.core ≠ core) ∧ after[core]? = table[core]?) := by
  induction selections generalizing table with
  | nil => exact ⟨table, rfl, rfl, fun core _ => .inr ⟨by simp, rfl⟩⟩
  | cons selection selections ih =>
    obtain ⟨value, read⟩ := reads selection List.mem_cons_self
    obtain ⟨after, assigned, size, decided⟩ := ih
      (fun other member => reads other (List.mem_cons_of_mem _ member))
      (table.setIfInBounds selection.core (some value))
    rw [Array.size_setIfInBounds] at size decided
    refine ⟨after, ?_, size, fun core inside => ?_⟩
    · rw [assign, write_of_reads read]
      exact assigned
    · rcases decided core inside with ⟨later, member, rest⟩ | ⟨unselected, same⟩
      · exact .inl ⟨later, List.mem_cons_of_mem _ member, rest⟩
      · by_cases here : selection.core = core
        · refine .inl ⟨selection, List.mem_cons_self, here, value, read, ?_⟩
          rw [same, here, Array.getElem?_setIfInBounds_self_of_lt inside]
        · refine .inr ⟨?_, ?_⟩
          · simpa [here] using unselected
          · rw [same, Array.getElem?_setIfInBounds_ne here]

theorem assign_eq_error {front back : List Selection} {selection : Selection}
    (reads : ∀ earlier ∈ front, ∃ value, reader earlier = .ok value)
    (failed : reader selection = .error error) (table : Array (Option α)) :
    assign (write reader) table (front ++ selection :: back) = .error error := by
  obtain ⟨after, assigned, -⟩ := exists_assign reads table
  rw [assign_append, assigned]
  show assign (write reader) after (selection :: back) = _
  rw [assign, write, failed]
  rfl

theorem fill_of_entryFails (fails : EntryFails setting cores fields reader entry error)
    (table : Array (Option α)) (rest : List (List Char)) :
    fill setting cores fields reader table (entry :: rest) = .error error := by
  rw [fill]
  cases fails with
  | malformed malformed =>
    rw [select_of_malformed malformed]
    rfl
  | @unread selection _ selects failed lowest =>
    obtain ⟨selections, selected, member, rising⟩ := exists_select setting (wellFormed_of_selects selects)
    obtain ⟨front, back, rfl⟩ := List.mem_iff_append.mp ((member selection).mpr selects)
    have earlier : ∀ other ∈ front, ∃ value, reader other = .ok value :=
      (forall_front_iff rising).mpr fun other among => lowest other ((member other).mp among)
    rw [selected]
    show assign (write reader) table (front ++ selection :: back) >>= _ = _
    rw [assign_eq_error earlier failed]
    rfl

theorem exists_fill (setting : String) (passes : ∀ entry ∈ entries, Passes reader cores fields entry)
    {table : Array (Option α)} (full : table.size = cores) : ∃ after,
      fill setting cores fields reader table entries = .ok after ∧ after.size = cores ∧ ∀ core < cores,
        (∃ selection value, Decides cores fields entries selection ∧ selection.core = core ∧
          reader selection = .ok value ∧ after[core]? = some (some value)) ∨
        (¬ Selected cores fields entries core ∧ after[core]? = table[core]?) := by
  induction entries generalizing table with
  | nil => exact ⟨table, rfl, full, fun core _ => .inr ⟨by simp [Selected], rfl⟩⟩
  | cons entry entries ih =>
    have passing := passes entry List.mem_cons_self
    obtain ⟨selections, selected, member, -⟩ := exists_select setting passing.wellFormed
    obtain ⟨middle, assigned, size, written⟩ := exists_assign
      (fun selection among => passing.reads selection ((member selection).mp among)) table
    rw [full] at size written
    obtain ⟨after, filled, sized, decided⟩ :=
      ih (fun other among => passes other (List.mem_cons_of_mem _ among)) size
    refine ⟨after, ?_, sized, fun core inside => ?_⟩
    · rw [fill, selected]
      show assign (write reader) table selections >>= _ = _
      rw [assigned]
      exact filled
    · rcases decided core inside with ⟨selection, value, ⟨before, last, behind, split, rest⟩, given⟩ |
        ⟨unselected, same⟩
      · exact .inl ⟨selection, value, ⟨entry :: before, last, behind, by rw [split]; rfl, rest⟩, given⟩
      -- The later entries leave the core alone, so that this one decides, or none does.
      · rcases written core inside with ⟨selection, among, rfl, value, read, here⟩ | ⟨none_here, kept⟩
        · exact .inl ⟨selection, value, ⟨[], entry, entries, rfl, (member selection).mp among, unselected⟩,
            rfl, read, same.trans here⟩
        · refine .inr ⟨?_, same.trans kept⟩
          rintro ⟨other, among, selection, selects, named⟩
          rcases List.mem_cons.mp among with rfl | later
          · exact none_here selection ((member selection).mpr selects) named
          · exact unselected ⟨other, later, selection, selects, named⟩

theorem fill_append (table : Array (Option α)) (front back : List (List Char)) :
    fill setting cores fields reader table (front ++ back) =
      fill setting cores fields reader table front >>= fun table =>
        fill setting cores fields reader table back := by
  induction front generalizing table with
  | nil => rfl
  | cons entry front ih =>
    rw [List.cons_append, fill, fill]
    simp only [bind_assoc, ih]

theorem complete_eq_error_iff {start : Nat} {table : List (Option α)} :
    complete setting start table = .error error ↔ ∃ core, error = .missingCore setting (start + core) ∧
      table[core]? = some none ∧ ∀ earlier < core, ∃ value, table[earlier]? = some (some value) := by
  induction table generalizing start with
  | nil => simp [complete]
  | cons entry table ih =>
    cases entry with
    | none =>
      constructor
      · intro failed
        cases failed
        exact ⟨0, rfl, rfl, by simp⟩
      · rintro ⟨core, rfl, -, lower⟩
        cases core with
        | zero => rfl
        | succ core =>
          obtain ⟨value, found⟩ := lower 0 (Nat.zero_lt_succ core)
          cases found
    | some value =>
      have rest : complete setting start (some value :: table) = .error error ↔
          complete setting (start + 1) table = .error error := by
        rw [complete]
        cases complete setting (start + 1) table with
        | error fault => exact Iff.rfl
        | ok values => exact iff_of_false nofun nofun
      rw [rest, ih]
      constructor
      · rintro ⟨core, same, empty, lower⟩
        refine ⟨core + 1, by rw [same, Nat.add_assoc, Nat.add_comm 1], empty, fun earlier less => ?_⟩
        cases earlier with
        | zero => exact ⟨value, rfl⟩
        | succ earlier => exact lower earlier (Nat.lt_of_succ_lt_succ less)
      · rintro ⟨core, same, empty, lower⟩
        cases core with
        | zero => cases empty
        | succ core =>
          refine ⟨core, by rw [same, Nat.add_assoc, Nat.add_comm 1], empty, fun earlier less => ?_⟩
          exact lower (earlier + 1) (Nat.succ_lt_succ less)

theorem Encloses.unique {body other : List Char} (encloses : Encloses raw body)
    (encloses' : Encloses raw other) : body = other := by
  simpa using encloses.symm.trans encloses'

theorem body_eq_some_iff {body : List Char} :
    (Text.after? ['['] (Text.trim raw.toList)).bind (Text.upTo? [']']) = some body ↔ Encloses raw body := by
  simp only [Option.bind_eq_some_iff, Text.after?_eq_some_iff, Text.upTo?_eq_some_iff, Encloses]
  simp

theorem entries_of_encloses {body : List Char} (encloses : Encloses raw body) :
    PerCore.entries setting raw = .ok (listed body) := by
  rw [PerCore.entries, body_eq_some_iff.mpr encloses]
  rfl

theorem entries_of_bare (bare : ∀ body, ¬ Encloses raw body) :
    PerCore.entries setting raw = .error (.malformed setting (.notEnclosed raw)) := by
  rw [PerCore.entries]
  cases found : (Text.after? ['['] (Text.trim raw.toList)).bind (Text.upTo? [']']) with
  | none => rfl
  | some body => exact absurd (body_eq_some_iff.mp found) (bare body)

theorem exists_read_eq (setting : String) {body : List Char} (encloses : Encloses raw body)
    (passes : ∀ entry ∈ listed body, Passes reader cores fields entry) : ∃ table : Array (Option α),
      read setting raw cores fields reader = complete setting 0 table.toList ∧ table.size = cores ∧
        ∀ core < cores,
          (∃ selection value, Decides cores fields (listed body) selection ∧ selection.core = core ∧
            reader selection = .ok value ∧ table[core]? = some (some value)) ∨
          (¬ Selected cores fields (listed body) core ∧ table[core]? = some none) := by
  obtain ⟨after, filled, size, decided⟩ := exists_fill setting passes
    (Array.size_replicate (n := cores) (v := none))
  refine ⟨after, ?_, size, fun core inside => ?_⟩
  · rw [read_eq_fill, entries_of_encloses encloses]
    show fill setting cores fields reader (.replicate cores none) (listed body) >>= _ = _
    rw [filled]
    rfl
  · simpa [inside] using decided core inside

theorem selected_of_decides {selection : Selection} (decides : Decides cores fields entries selection) :
    Selected cores fields entries selection.core := by
  obtain ⟨before, entry, after, rfl, selects, -⟩ := decides
  exact ⟨entry, by simp, selection, selects, rfl⟩

theorem exists_table_of_accepts (setting : String) (accepts : Accepts reader raw cores fields) :
    ∃ table, read setting raw cores fields reader = .ok table ∧ Tabulates reader raw cores fields table := by
  obtain ⟨body, encloses, passes, all⟩ := accepts
  obtain ⟨table, same, size, decided⟩ := exists_read_eq setting encloses passes
  have filled : ∀ core < cores, ∃ selection value, Decides cores fields (listed body) selection ∧
      selection.core = core ∧ reader selection = .ok value ∧ table[core]? = some (some value) :=
    fun core inside => (decided core inside).resolve_right fun none => none.1 (all core inside)
  rw [same]
  cases completed : complete setting 0 table.toList with
  | error fault =>
    obtain ⟨core, -, empty, -⟩ := complete_eq_error_iff.mp completed
    rw [Array.getElem?_toList] at empty
    have inside : core < cores := by
      rw [← size]
      exact (Array.getElem?_eq_some_iff.mp empty).1
    obtain ⟨_, _, -, -, -, value⟩ := filled core inside
    cases value.symm.trans empty
  | ok values =>
    have whole := eq_map_some_of_complete completed
    refine ⟨values, rfl, ?_, body, encloses, fun core inside => ?_⟩
    · rw [← size, ← Array.length_toList, whole, List.length_map]
    · obtain ⟨selection, value, decides, named, read, given⟩ := filled core inside
      rw [← Array.getElem?_toList, whole, List.getElem?_map] at given
      refine ⟨selection, value, decides, named, read, ?_⟩
      simpa using given

theorem read_of_failsWith (fails : FailsWith setting raw cores fields reader error) :
    read setting raw cores fields reader = .error error := by
  cases fails with
  | brackets bare =>
    rw [read_eq_fill, entries_of_bare bare]
    rfl
  | @entry body before after entry _ encloses split passes fails =>
    obtain ⟨table, filled, -⟩ := exists_fill setting passes
      (Array.size_replicate (n := cores) (v := none))
    rw [read_eq_fill, entries_of_encloses encloses, split]
    show fill setting cores fields reader (.replicate cores none) (before ++ entry :: after) >>= _ = _
    rw [fill_append, filled]
    show fill setting cores fields reader table (entry :: after) >>= _ = _
    rw [fill_of_entryFails fails]
    rfl
  | @missing body core encloses passes inside unselected lowest =>
    obtain ⟨table, same, -, decided⟩ := exists_read_eq setting encloses passes
    rw [same]
    refine complete_eq_error_iff.mpr ⟨core, by rw [Nat.zero_add], ?_, fun earlier less => ?_⟩
    · rw [Array.getElem?_toList]
      rcases decided core inside with ⟨selection, _, decides, rfl, -⟩ | ⟨-, empty⟩
      · exact absurd (selected_of_decides decides) unselected
      · exact empty
    · rw [Array.getElem?_toList]
      rcases decided earlier (Nat.lt_trans less inside) with ⟨_, value, -, -, -, given⟩ | ⟨missed, -⟩
      · exact ⟨value, given⟩
      · exact absurd (lowest earlier less) missed

theorem accepts_or_fails (setting raw : String) (cores fields : Nat)
    (reader : Selection → Except ConfigError α) :
    Accepts reader raw cores fields ∨ ∃ error, FailsWith setting raw cores fields reader error := by
  classical
  by_cases enclosed : ∃ body, Encloses raw body
  · obtain ⟨body, encloses⟩ := enclosed
    rcases forall_or_first (Passes reader cores fields) (listed body) with
      passes | ⟨before, entry, after, split, earlier, stuck⟩
    · by_cases missed : ∃ core, core < cores ∧ ¬ Selected cores fields (listed body) core
      · obtain ⟨inside, unselected⟩ := Nat.find_spec missed
        refine .inr ⟨_, .missing encloses passes inside unselected fun earlier less => ?_⟩
        by_contra other
        exact Nat.find_min missed less ⟨Nat.lt_trans less inside, other⟩
      · refine .inl ⟨body, encloses, passes, fun core inside => ?_⟩
        by_contra unselected
        exact missed ⟨core, inside, unselected⟩
    · obtain ⟨error, fails⟩ := (passes_or_fails setting cores fields reader entry).resolve_left stuck
      exact .inr ⟨error, .entry encloses split earlier fails⟩
  · exact .inr ⟨_, .brackets (not_exists.mp enclosed)⟩

/-- All that comes before a selection can be read: the earlier entries, and in its own the lower cores. -/
def InTurn (reader : Selection → Except ConfigError α) (cores fields : Nat) (entries : List (List Char))
    (selection : Selection) : Prop :=
  ∃ before entry after, entries = before ++ entry :: after ∧
    (∀ earlier ∈ before, Passes reader cores fields earlier) ∧ Selects cores fields entry selection ∧
      ∀ other, Selects cores fields entry other → other.core < selection.core →
        ∃ value, reader other = .ok value

theorem inTurn_cons_iff {selection : Selection} : InTurn reader cores fields (entry :: entries) selection ↔
    (Selects cores fields entry selection ∧ ∀ other, Selects cores fields entry other →
      other.core < selection.core → ∃ value, reader other = .ok value) ∨
    Passes reader cores fields entry ∧ InTurn reader cores fields entries selection := by
  constructor
  · rintro ⟨before, last, after, split, passes, here⟩
    cases before with
    | nil =>
      cases split
      exact .inl here
    | cons first before =>
      cases split
      exact .inr ⟨passes entry List.mem_cons_self, before, last, after, rfl,
        fun earlier member => passes earlier (List.mem_cons_of_mem _ member), here⟩
  · rintro (here | ⟨first, before, last, after, rfl, passes, here⟩)
    · exact ⟨[], entry, entries, rfl, by simp, here⟩
    · exact ⟨entry :: before, last, after, rfl, List.forall_mem_cons.mpr ⟨first, passes⟩, here⟩

theorem mem_attempted_append {selection : Selection} {front back : List Selection} :
    selection ∈ attempted reader (front ++ back) ↔ selection ∈ attempted reader front ∨
      (∀ earlier ∈ front, ∃ value, reader earlier = .ok value) ∧ selection ∈ attempted reader back := by
  induction front with
  | nil => simp [attempted]
  | cons first front ih =>
    rw [List.cons_append, attempted, attempted]
    cases read : reader first with
    | error fault => simp [read]
    | ok value => simp [read, ih, or_assoc]

theorem exists_split_of_mem_attempted {selection : Selection} {selections : List Selection}
    (member : selection ∈ attempted reader selections) : ∃ front back, selections = front ++ selection :: back ∧
      ∀ earlier ∈ front, ∃ value, reader earlier = .ok value := by
  induction selections with
  | nil => cases member
  | cons first rest ih =>
    rw [attempted] at member
    cases read : reader first with
    | error fault =>
      rw [read] at member
      cases List.mem_singleton.mp member
      exact ⟨[], rest, rfl, by simp⟩
    | ok value =>
      rw [read] at member
      rcases List.mem_cons.mp member with rfl | member
      · exact ⟨[], rest, rfl, by simp⟩
      · obtain ⟨front, back, rfl, reads⟩ := ih member
        exact ⟨first :: front, back, rfl, List.forall_mem_cons.mpr ⟨⟨value, read⟩, reads⟩⟩

theorem mem_attempted_iff {selection : Selection} {selections : List Selection}
    (rising : selections.Pairwise (·.core < ·.core)) : selection ∈ attempted reader selections ↔
      selection ∈ selections ∧ ∀ other ∈ selections, other.core < selection.core →
        ∃ value, reader other = .ok value := by
  constructor
  · intro member
    obtain ⟨front, back, rfl, reads⟩ := exists_split_of_mem_attempted member
    exact ⟨by simp, (forall_front_iff rising).mp reads⟩
  · rintro ⟨member, lower⟩
    obtain ⟨front, back, rfl⟩ := List.mem_iff_append.mp member
    have reads := (forall_front_iff rising).mpr lower
    exact mem_attempted_append.mpr (.inr ⟨reads, mem_attempted_cons_self selection back⟩)

theorem mem_attempted_selectAll_iff {selection : Selection} :
    selection ∈ attempted reader (selectAll setting cores fields entries).1 ↔
      InTurn reader cores fields entries selection := by
  induction entries with
  | nil => simp [selectAll, attempted, InTurn]
  | cons entry entries ih =>
    rw [inTurn_cons_iff, selectAll]
    rcases wellFormed_or_malformed setting cores fields entry with wellFormed | ⟨error, malformed⟩
    · obtain ⟨selections, selected, member, rising⟩ := exists_select setting wellFormed
      have passes : (∀ earlier ∈ selections, ∃ value, reader earlier = .ok value) ↔
          Passes reader cores fields entry := by
        simp only [member]
        exact ⟨fun reads => ⟨wellFormed, reads⟩, fun passing => passing.reads⟩
      rw [selected]
      show selection ∈ attempted reader (selections ++ (selectAll setting cores fields entries).1) ↔ _
      rw [mem_attempted_append, mem_attempted_iff rising, passes, ih]
      simp only [member]
    · rw [select_of_malformed malformed]
      have never := not_wellFormed_of_malformed malformed
      constructor
      · intro member
        cases member
      · rintro (⟨selects, -⟩ | ⟨passing, -⟩)
        · exact absurd (wellFormed_of_selects selects) never
        · exact absurd passing.wellFormed never

theorem mem_calls_iff {selection : Selection} : selection ∈ calls setting raw cores fields reader ↔
    ∃ body, Encloses raw body ∧ InTurn reader cores fields (listed body) selection := by
  unfold calls selections
  by_cases enclosed : ∃ body, Encloses raw body
  · obtain ⟨body, encloses⟩ := enclosed
    rw [entries_of_encloses encloses]
    refine mem_attempted_selectAll_iff.trans ⟨fun turn => ⟨body, encloses, turn⟩, ?_⟩
    rintro ⟨other, encloses', turn⟩
    rwa [encloses.unique encloses']
  · rw [entries_of_bare (not_exists.mp enclosed)]
    constructor
    · intro member
      cases member
    · rintro ⟨body, encloses, -⟩
      exact absurd ⟨body, encloses⟩ enclosed

theorem reads_of_mem_dropLast {selection : Selection} {selections : List Selection}
    (member : selection ∈ (attempted reader selections).dropLast) : ∃ value, reader selection = .ok value := by
  induction selections with
  | nil => cases member
  | cons first rest ih =>
    rw [attempted] at member
    cases read : reader first with
    | error fault =>
      rw [read] at member
      cases member
    | ok value =>
      rw [read] at member
      change selection ∈ (first :: attempted reader rest).dropLast at member
      cases left : attempted reader rest with
      | nil =>
        rw [left] at member
        cases member
      | cons second others =>
        rw [left] at member ih
        rcases List.mem_cons.mp member with rfl | member
        · exact ⟨value, read⟩
        · exact ih member

/-- A list can be read exactly if it is accepted, and then the last entry that selects a core decides. Else
    the first fault is the error, and the reader is called for nothing behind a fault. -/
theorem read_decides (setting raw : String) (cores fields : Nat)
    (reader : Selection → Except ConfigError α) :
    ((∃ table, read setting raw cores fields reader = .ok table) ↔ Accepts reader raw cores fields) ∧
    (∀ table, read setting raw cores fields reader = .ok table → Tabulates reader raw cores fields table) ∧
    (∀ error, read setting raw cores fields reader = .error error ↔
      FailsWith setting raw cores fields reader error) ∧
    (∀ selection, selection ∈ calls setting raw cores fields reader ↔
      ∃ body, Encloses raw body ∧ InTurn reader cores fields (listed body) selection) ∧
    (∀ selection ∈ (calls setting raw cores fields reader).dropLast, ∃ value, reader selection = .ok value) ∧
    ∀ other, (∀ selection ∈ calls setting raw cores fields reader, other selection = reader selection) →
      read setting raw cores fields other = read setting raw cores fields reader := by
  refine ⟨⟨?sound, ?complete⟩, ?table, fun error => ⟨?fault, read_of_failsWith⟩, fun selection => mem_calls_iff,
    fun selection => reads_of_mem_dropLast, fun other => read_congr⟩
  case sound =>
    rintro ⟨table, done⟩
    refine (accepts_or_fails setting raw cores fields reader).resolve_right ?_
    rintro ⟨error, fails⟩
    cases done.symm.trans (read_of_failsWith fails)
  case complete =>
    intro accepts
    obtain ⟨table, done, -⟩ := exists_table_of_accepts setting accepts
    exact ⟨table, done⟩
  case table =>
    intro table done
    rcases accepts_or_fails setting raw cores fields reader with accepts | ⟨error, fails⟩
    · obtain ⟨same, done', tabulates⟩ := exists_table_of_accepts setting accepts
      cases done.symm.trans done'
      exact tabulates
    · cases done.symm.trans (read_of_failsWith fails)
  case fault =>
    intro failed
    rcases accepts_or_fails setting raw cores fields reader with accepts | ⟨first, fails⟩
    · obtain ⟨table, done, -⟩ := exists_table_of_accepts setting accepts
      cases failed.symm.trans done
    · cases failed.symm.trans (read_of_failsWith fails)
      exact fails

theorem override_of_second_core :
    Tabulates Config.readCost "[CORES:1:10, ,1:5:5]" 2 2 [⟨1, 10⟩, ⟨5, 5⟩] ∧
      FailsWith "memCost" "[CORES:0:10,7:1:1]" 2 2 Config.readCost (.zeroLatency 0) := by
  have first := read_decides "memCost" "[CORES:1:10, ,1:5:5]" 2 2 Config.readCost
  have second := read_decides "memCost" "[CORES:0:10,7:1:1]" 2 2 Config.readCost
  exact ⟨first.2.1 _ (by decide +kernel), (second.2.2.1 _).mp (by decide +kernel)⟩

end PerCore

end CoreTiming
