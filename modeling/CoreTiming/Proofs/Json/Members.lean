import CoreTiming.Json.Canonical
import CoreTiming.Json.Fields

namespace CoreTiming.Json

variable {key other : Text} {value : Value} {members new : List (Text × Value)}

theorem lookup_cons (key other : Text) (value : Value) (rest : List (Text × Value)) :
    ((key, value) :: rest).lookup other = if other = key then some value else rest.lookup other := by
  by_cases same : other = key
  · rw [if_pos same, same, List.lookup_cons_self]
  · rw [if_neg same, List.lookup_cons, beq_false_of_ne same]

theorem any_eq_isSome_lookup (key : Text) (members : List (Text × Value)) :
    members.any (·.1 == key) = (members.lookup key).isSome := by
  induction members with
  | nil => rfl
  | cons member rest ih =>
    obtain ⟨name, old⟩ := member
    rw [List.any_cons, lookup_cons, ih]
    by_cases same : key = name
    · simp [same]
    · simp [same, Ne.symm same]

theorem lookup_map (key other : Text) (value : Value) (members : List (Text × Value)) :
    (members.map fun member => if member.1 == key then (key, value) else member).lookup other =
      (members.lookup other).map fun old => if other = key then value else old := by
  induction members with
  | nil => rfl
  | cons member rest ih =>
    obtain ⟨name, old⟩ := member
    have head : (if name == key then (key, value) else (name, old)) =
        (name, if name = key then value else old) := by
      by_cases named : name = key <;> simp [named]
    rw [List.map_cons, head, lookup_cons, lookup_cons, ih]
    by_cases sought : other = name <;> simp [sought]

theorem lookup_put (key other : Text) (value : Value) (members : List (Text × Value)) :
    (put key value members).lookup other = if other = key then some value else members.lookup other := by
  unfold put
  rw [any_eq_isSome_lookup]
  cases found : members.lookup key with
  | none =>
    rw [if_neg (by simp), List.lookup_append, lookup_cons]
    split
    next same => rw [same, found]; rfl
    next => simp
  | some old =>
    rw [if_pos (by rfl), lookup_map]
    split
    next same => rw [same, found]; rfl
    next => simp

theorem put_put (key : Text) (first second : Value) (members : List (Text × Value)) :
    put key second (put key first members) = put key second members := by
  have present : (put key first members).any (·.1 == key) = true := by
    rw [any_eq_isSome_lookup, lookup_put, if_pos rfl]
    rfl
  rw [put, if_pos present]
  cases old : members.any (·.1 == key) with
  | true =>
    rw [put, put, if_pos old, if_pos old, List.map_map]
    refine List.map_congr_left fun member _ => ?_
    show (if (if member.1 == key then (key, first) else member).1 == key then _ else _) = _
    split
    all_goals simp [*]
  | false =>
    have absent : ∀ member ∈ members, ¬ (member.1 == key) = true := by simpa using old
    have kept : members.map (fun member => if member.1 == key then (key, second) else member) =
        members.map id := List.map_congr_left fun member inside => if_neg (absent member inside)
    rw [put, put, if_neg (by simp [old]), if_neg (by simp [old]), List.map_append, kept, List.map_id]
    simp

structure Keyed (members : List (Text × Value)) : Prop where
  distinct : (members.map (·.1)).Nodup
  texts : none ∉ members.map (·.1)

theorem keyed_nil : Keyed [] :=
  ⟨List.nodup_nil, List.not_mem_nil⟩

theorem Keyed.tail {member : Text × Value} (keyed : Keyed (member :: members)) : Keyed members :=
  ⟨(List.nodup_cons.mp keyed.distinct).2, fun inside => keyed.texts (List.mem_cons_of_mem _ inside)⟩

theorem mem_keys_iff : key ∈ members.map (·.1) ↔ (members.lookup key).isSome := by
  rw [← any_eq_isSome_lookup, List.any_eq_true, List.mem_map]
  simp only [beq_iff_eq]

theorem Keyed.head {member : Text × Value} (keyed : Keyed (member :: members)) :
    members.lookup member.1 = none := by
  have fresh := (List.nodup_cons.mp keyed.distinct).1
  rwa [mem_keys_iff, Option.not_isSome_iff_eq_none] at fresh

theorem Keyed.put (keyed : Keyed members) (textual : key ≠ none) (value : Value) :
    Keyed (put key value members) := by
  unfold Json.put
  split
  next present =>
    have same : (members.map fun member => if member.1 == key then (key, value) else member).map (·.1) =
        members.map (·.1) := by
      rw [List.map_map]
      refine List.map_congr_left fun member _ => ?_
      show (if member.1 == key then (key, value) else member).1 = member.1
      split
      next here => exact (eq_of_beq here).symm
      next => rfl
    exact ⟨same ▸ keyed.distinct, same ▸ keyed.texts⟩
  next absent =>
    rw [any_eq_isSome_lookup, ← mem_keys_iff] at absent
    constructor
    · rw [List.map_append, List.nodup_append]
      refine ⟨keyed.distinct, by simp, fun name inside last only same => absent ?_⟩
      have last_eq : last = key := List.mem_singleton.mp only
      rwa [same, last_eq] at inside
    · rw [List.map_append, List.mem_append, not_or]
      exact ⟨keyed.texts, fun only => textual (List.mem_singleton.mp only).symm⟩

theorem Keyed.putAll (keyed : Keyed members) (texts : none ∉ new.map (·.1)) : Keyed (putAll new members) := by
  induction new generalizing members with
  | nil => exact keyed
  | cons member rest ih =>
    rw [List.map_cons, List.mem_cons, not_or] at texts
    exact ih (keyed.put (Ne.symm texts.1) member.2) texts.2

theorem Keyed.lookup_putAll (keyed : Keyed new) (key : Text) (members : List (Text × Value)) :
    (Json.putAll new members).lookup key = (new.lookup key).or (members.lookup key) := by
  induction new generalizing members with
  | nil => rfl
  | cons member rest ih =>
    obtain ⟨name, value⟩ := member
    have step : Json.putAll ((name, value) :: rest) members = Json.putAll rest (Json.put name value members) := rfl
    rw [step, ih keyed.tail, lookup_put, lookup_cons]
    split
    next same => rw [same, keyed.head]; rfl
    next => rfl

/-- The members are keyed, and so are those of each object among them. -/
structure Tidy (members : List (Text × Value)) : Prop where
  keyed : Keyed members
  nested : ∀ key inner, members.lookup key = some (.object inner) → Keyed inner

theorem tidy_nil : Tidy [] :=
  ⟨keyed_nil, fun _ _ found => by cases found⟩

theorem Tidy.put (tidy : Tidy members) (textual : key ≠ none) (value : Value)
    (nested : ∀ inner, value = .object inner → Keyed inner) : Tidy (put key value members) := by
  refine ⟨tidy.keyed.put textual value, fun other inner found => ?_⟩
  rw [lookup_put] at found
  split at found
  · exact nested inner (Option.some.inj found)
  · exact tidy.nested other inner found

theorem exists_of_canonicalMembers? {raw : List (Text × Value)}
    (exchanged : canonicalMembers? raw = some members) : none ∉ members.map (·.1) ∧
      ∀ member ∈ members, ∃ value : Value, value.canonical? = some member.2 := by
  induction raw generalizing members with
  | nil =>
    cases exchanged
    exact ⟨List.not_mem_nil, fun _ inside => by cases inside⟩
  | cons member rest ih =>
    obtain ⟨key, value⟩ := member
    simp only [canonicalMembers?, bind, pure, Option.bind_eq_some_iff, Option.some.injEq] at exchanged
    obtain ⟨text, rfl, canonical, read, others, rest_read, rfl⟩ := exchanged
    obtain ⟨texts, values⟩ := ih rest_read
    refine ⟨?_, List.forall_mem_cons.mpr ⟨⟨value, read⟩, values⟩⟩
    rw [List.map_cons, List.mem_cons, not_or]
    exact ⟨fun same => (by cases same), texts⟩

theorem mem_of_lookup_putAll {members : List (Text × Value)}
    (found : (putAll new members).lookup key = some value) :
    (∃ member ∈ new, member.2 = value) ∨ members.lookup key = some value := by
  induction new generalizing members with
  | nil => exact .inr found
  | cons member rest ih =>
    have later : (putAll rest (put member.1 member.2 members)).lookup key = some value := found
    rcases ih later with ⟨other, inside, same⟩ | here
    · exact .inl ⟨other, List.mem_cons_of_mem _ inside, same⟩
    · rw [lookup_put] at here
      split at here
      · exact .inl ⟨member, List.mem_cons_self, Option.some.inj here⟩
      · exact .inr here

theorem canonical?_ne_object (n : Number) (members : List (Text × Value)) :
    n.canonical? ≠ some (.object members) := by
  unfold Number.canonical? Value.float
  intro exchanged
  split at exchanged
  · split at exchanged
    · split at exchanged <;> cases exchanged
    · cases exchanged
  · split at exchanged <;> cases exchanged

theorem exists_of_canonical?_eq_object {value : Value} (exchanged : value.canonical? = some (.object members)) :
    ∃ raw new, value = .object raw ∧ canonicalMembers? raw = some new ∧ members = putAll new [] := by
  cases value with
  | null => cases exchanged
  | bool b => cases exchanged
  | number n => exact absurd exchanged (canonical?_ne_object n members)
  | text t => cases t <;> cases exchanged
  | array items =>
    rw [Value.canonical?, Option.map_eq_some_iff] at exchanged
    obtain ⟨_, _, same⟩ := exchanged
    cases same
  | object raw =>
    rw [Value.canonical?, Option.map_eq_some_iff] at exchanged
    obtain ⟨new, read, same⟩ := exchanged
    exact ⟨raw, new, rfl, read, (Value.object.inj same).symm⟩

theorem keyed_of_canonical? {value : Value} (exchanged : value.canonical? = some (.object members)) :
    Keyed members := by
  obtain ⟨raw, new, rfl, read, rfl⟩ := exists_of_canonical?_eq_object exchanged
  exact keyed_nil.putAll (exists_of_canonicalMembers? read).1

theorem tidy_of_canonical? {value : Value} (exchanged : value.canonical? = some (.object members)) :
    Tidy members := by
  refine ⟨keyed_of_canonical? exchanged, fun key inner found => ?_⟩
  obtain ⟨raw, new, rfl, read, rfl⟩ := exists_of_canonical?_eq_object exchanged
  rcases mem_of_lookup_putAll found with ⟨member, inside, same⟩ | none
  · obtain ⟨value, canonical⟩ := (exists_of_canonicalMembers? read).2 member inside
    exact keyed_of_canonical? (canonical.trans (congrArg some same))
  · cases none

def named (members : List (Text × Value)) (name : String) : Option Value :=
  members.lookup (some name)

theorem named_put (name other : String) (value : Value) (members : List (Text × Value)) :
    named (put (some name) value members) other = if other = name then some value else named members other := by
  unfold named
  simp only [lookup_put, Option.some.injEq]

theorem Keyed.named_putAll (keyed : Keyed new) (name : String) (members : List (Text × Value)) :
    named (Json.putAll new members) name = (named new name).or (named members name) :=
  keyed.lookup_putAll (some name) members

theorem exists_knownMembers (names : List String) (keyed : Keyed members) :
    ∃ known, knownMembers names members = some known ∧ ∀ name, known.find? (·.1 == name) =
      if name ∈ names then (named members name).map (name, ·) else none := by
  induction members with
  | nil => exact ⟨[], rfl, by simp [named]⟩
  | cons member rest ih =>
    obtain ⟨key, value⟩ := member
    obtain ⟨known, read, finds⟩ := ih keyed.tail
    cases key with
    | none => exact absurd List.mem_cons_self keyed.texts
    | some key =>
      have unseen : known.find? (·.1 == key) = none := by
        rw [finds key, named, keyed.head]
        exact ite_self none
      have fresh : known.any (·.1 == key) = false := by
        rw [List.find?_eq_none] at unseen
        exact List.any_eq_false.mpr unseen
      rw [knownMembers, read]
      cases listed : names.contains key with
      | false =>
        refine ⟨known, by simp, fun name => (finds name).trans ?_⟩
        split
        next inside =>
          have different : some name ≠ some key := by
            rintro same
            cases same
            rw [List.contains_iff_mem.mpr inside] at listed
            cases listed
          rw [named, named, lookup_cons, if_neg different]
        next => rfl
      | true =>
        refine ⟨(key, value) :: known, by simp [fresh], fun name => ?_⟩
        by_cases same : name = key
        · subst same
          have here : ((name, value) :: known).find? (·.1 == name) = some (name, value) :=
            List.find?_cons_of_pos (p := fun member : String × Value => member.1 == name) (beq_self_eq_true name)
          rw [here, if_pos (List.contains_iff_mem.mp listed), named, lookup_cons, if_pos rfl]
          rfl
        · rw [List.find?_cons_of_neg (by simpa using Ne.symm same), finds name, named, named, lookup_cons,
            if_neg (fun alike => same (Option.some.inj alike))]

end CoreTiming.Json
