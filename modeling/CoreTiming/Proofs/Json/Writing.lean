import CoreTiming.Json.Printer
import CoreTiming.Json.Reader
import CoreTiming.Proofs.Text.Numerals

namespace CoreTiming.Json

variable {start middle stop : Scan} {text left right : List Char} {tokens found : List Token} {c : Char}

/-- The scan of a text, whatever has been read and whatever is behind. -/
def Scans (start : Scan) (text : List Char) (stop : Scan) (tokens : List Token) : Prop :=
  ∀ done rest, tokensFrom start done (text ++ rest) = tokensFrom stop (tokens.reverse ++ done) rest

theorem Scans.nil (scan : Scan) : Scans scan [] scan [] :=
  fun _ _ => rfl

theorem Scans.one (first : start.next c = some (stop, found)) : Scans start [c] stop found := by
  intro done rest
  rw [List.singleton_append, tokensFrom, first]

theorem Scans.append {more : List Token} (front : Scans start left middle tokens)
    (back : Scans middle right stop more) : Scans start (left ++ right) stop (tokens ++ more) := by
  intro done rest
  rw [List.append_assoc, front, back, List.reverse_append, List.append_assoc]

theorem Scans.step (first : start.next c = some (middle, [])) (others : Scans middle text stop tokens) :
    Scans start (c :: text) stop tokens :=
  (Scans.one first).append others

theorem Scans.tokensFrom (scans : Scans start text stop tokens) (done : List Token) :
    tokensFrom start done text = tokensFrom stop (tokens.reverse ++ done) [] := by
  have whole := scans done []
  rwa [List.append_nil] at whole

/-- A text that gives these tokens. A number or a name is known to be complete only at its end, or at what
    stands behind it, which is a comma or a line break. -/
structure Reads (text : List Char) (tokens : List Token) : Prop where
  ends : ∀ done, tokensFrom .between done text = some (done.reverse ++ tokens)
  behind : ∀ c found, c = ',' ∨ c = '\n' → Scan.start c = some (.between, found) →
    Scans .between (text ++ [c]) .between (tokens ++ found)

theorem Reads.of_scans (scans : Scans .between text .between tokens) : Reads text tokens where
  ends done := by
    rw [scans.tokensFrom]
    simp [tokensFrom, Scan.finish]
  behind c found _ begins := scans.append (.one begins)

theorem Reads.prepend (scans : Scans .between left .between found) (reads : Reads right tokens) :
    Reads (left ++ right) (found ++ tokens) where
  ends done := by
    rw [scans, reads.ends]
    simp
  behind c more among begins := by
    rw [List.append_assoc, List.append_assoc]
    exact scans.append (reads.behind c more among begins)

theorem Reads.of_finish (stop : Scan) (scans : Scans .between text stop []) (finish : stop.finish = some tokens)
    (next : ∀ c, c = ',' ∨ c = '\n' → stop.next c = (Scan.start c).map fun begun => (begun.1, tokens ++ begun.2)) :
    Reads text tokens where
  ends done := by
    rw [scans.tokensFrom, Json.tokensFrom, finish]
    rfl
  behind c more among begins := by
    have last : stop.next c = some (.between, tokens ++ more) := by
      rw [next c among, begins]
      rfl
    exact scans.append (.one last)

theorem reads_null : Reads "null".toList [.scalar .null] := by
  apply Reads.of_finish (.name "null".toList.reverse) (fun _ _ => rfl) rfl
  rintro c (rfl | rfl) <;> rfl

theorem reads_bool (b : Bool) : Reads (if b then "true" else "false").toList [.scalar (.bool b)] := by
  cases b with
  | false =>
    apply Reads.of_finish (.name "false".toList.reverse) (fun _ _ => rfl) rfl
    rintro c (rfl | rfl) <;> rfl
  | true =>
    apply Reads.of_finish (.name "true".toList.reverse) (fun _ _ => rfl) rfl
    rintro c (rfl | rfl) <;> rfl

theorem isDigit_toDigits (n : Nat) : ∀ c ∈ Nat.toDigits 10 n, c.isDigit = true :=
  Numeral.forall_mem_toDigits (by decide) (by decide) n

theorem head?_toDigits {n : Nat} (positive : 0 < n) : (Nat.toDigits 10 n).head? ≠ some '0' := by
  induction n using Nat.strongRecOn with
  | ind n ih =>
    by_cases small : n < 10
    · have digits : ∀ digit < 10, 0 < digit → [Nat.digitChar digit].head? ≠ some '0' := by decide
      rw [Nat.toDigits_of_lt_base small]
      exact digits n small positive
    · have first := ih (n / 10) (by omega) (by omega)
      rw [Nat.toDigits_of_base_le (by decide) (Nat.not_lt.mp small)]
      obtain ⟨c, rest, cut⟩ := List.exists_cons_of_ne_nil (Nat.toDigits_ne_nil (b := 10) (n := n / 10))
      rw [cut] at first ⊢
      exact first

theorem toList_written_ofNat (n : Nat) : (Number.ofNat n).written.toList = Nat.toDigits 10 n := by
  have same : ∀ c ∈ Nat.toDigits 10 n, Nat.digitChar (c.toNat - '0'.toNat) = c :=
    Numeral.forall_mem_toDigits (by decide) (by decide) n
  have whole : (Number.ofNat n).written =
      String.ofList (((Nat.toDigits 10 n).map fun c => c.toNat - '0'.toNat).map Nat.digitChar) := by
    simp [Number.written, Number.ofNat, Decimal.digitText]
  rw [whole, String.toList_ofList, List.map_map]
  exact (List.map_congr_left same).trans (List.map_id' _)

theorem digitRun_of_isDigit {digits : List Char} (plain : ∀ c ∈ digits, c.isDigit = true) :
    digitRun digits = (digits.map fun c => c.toNat - '0'.toNat, []) := by
  have all : (digits ++ []).takeWhile Char.isDigit = digits ++ [] := List.takeWhile_append_of_pos plain
  have none : (digits ++ []).dropWhile Char.isDigit = [] := List.dropWhile_append_of_pos plain
  rw [List.append_nil] at all none
  rw [digitRun, all, none]

theorem read?_toDigits (n : Nat) : Number.read? (Nat.toDigits 10 n) = some (.ofNat n) := by
  rcases Nat.eq_zero_or_pos n with rfl | positive
  · decide
  · have digits := isDigit_toDigits n
    have leading := head?_toDigits positive
    have run := digitRun_of_isDigit digits
    have zero : ∀ c ∈ Nat.toDigits 10 n, c = '0' ∨ 0 < c.toNat - '0'.toNat :=
      Numeral.forall_mem_toDigits (by decide) (by decide) n
    unfold Number.ofNat
    obtain ⟨c, rest, cut⟩ := List.exists_cons_of_ne_nil (Nat.toDigits_ne_nil (b := 10) (n := n))
    rw [cut] at digits leading run zero ⊢
    have unsigned : c ≠ '-' := by
      rintro rfl
      exact absurd (digits '-' List.mem_cons_self) (by decide)
    have value : 0 < c.toNat - '0'.toNat := by
      apply (zero c List.mem_cons_self).resolve_left
      rintro rfl
      exact leading rfl
    obtain ⟨less, successor⟩ := Nat.exists_eq_succ_of_ne_zero (Nat.ne_of_gt value)
    unfold Number.read?
    split
    rename_i same
    split at same
    · rename_i signed
      exact absurd (List.cons.inj signed).1 unsigned
    · cases same
      rw [run, List.map_cons, successor]
      rfl

theorem value_toDigits (n : Nat) : Number.value ((Nat.toDigits 10 n).map fun c => c.toNat - '0'.toNat) = n := by
  have digits : ∀ digit < 10, (Nat.digitChar digit).toNat - '0'.toNat = digit := by decide
  induction n using Nat.strongRecOn with
  | ind n ih =>
    by_cases small : n < 10
    · rw [Nat.toDigits_of_lt_base small]
      simpa [Number.value] using digits n small
    · have front := ih (n / 10) (by omega)
      unfold Number.value at front ⊢
      rw [Nat.toDigits_of_base_le (by decide) (Nat.not_lt.mp small), List.map_append, List.foldl_append, front,
        List.map_singleton, digits _ (Nat.mod_lt n (by decide))]
      exact Nat.div_add_mod n 10

theorem toNat?_ofNat (n : Nat) : (Number.ofNat n).toNat? = some n := by
  show some (Number.value ((Nat.toDigits 10 n).map fun c => c.toNat - '0'.toNat)) = some n
  rw [value_toDigits]

theorem scans_number {digits : List Char} (plain : ∀ c ∈ digits, c.isDigit = true) (before : List Char) :
    Scans (.number before) digits (.number (digits.reverse ++ before)) [] := by
  induction digits generalizing before with
  | nil => exact .nil _
  | cons digit digits ih =>
    have first : (Scan.number before).next digit = some (.number (digit :: before), []) := by
      have number : Scan.isNumberChar digit = true := by simp [Scan.isNumberChar, plain digit]
      rw [Scan.next, if_pos number]
    rw [List.reverse_cons, List.append_assoc]
    exact .step first (ih (fun c member => plain c (List.mem_cons_of_mem _ member)) _)

theorem reads_nat (n : Nat) : Reads (Number.ofNat n).written.toList [.scalar (.nat n)] := by
  have digits := isDigit_toDigits n
  have finish : (Scan.number (Nat.toDigits 10 n).reverse).finish = some [.scalar (.nat n)] := by
    rw [Scan.finish, List.reverse_reverse, read?_toDigits]
    rfl
  rw [toList_written_ofNat]
  obtain ⟨c, rest, cut⟩ := List.exists_cons_of_ne_nil (Nat.toDigits_ne_nil (b := 10) (n := n))
  have first : Scan.between.next c = some (.number [c], []) := by
    have member : c ∈ Nat.toDigits 10 n := by simp [cut]
    have other : ∀ c ∈ Nat.toDigits 10 n, c ∉ [' ', '\t', '\n', '\r', '[', ']', '\x7b', '\x7d', ',', ':', '"'] :=
      Numeral.forall_mem_toDigits (by decide) (by decide) n
    have absent := other c member
    simp only [List.mem_cons, List.not_mem_nil, or_false, not_or] at absent
    simp [Scan.next, Scan.start, absent, digits c member]
  have scans : Scans .between (Nat.toDigits 10 n) (.number (Nat.toDigits 10 n).reverse) [] := by
    rw [cut] at digits ⊢
    rw [List.reverse_cons]
    exact .step first (scans_number (fun c member => digits c (List.mem_cons_of_mem _ member)) [c])
  apply Reads.of_finish _ scans finish
  rintro c (rfl | rfl)
  · rw [Scan.next, if_neg (by decide), finish]
    rfl
  · rw [Scan.next, if_neg (by decide), finish]
    rfl

def Stands (piece : Piece) (c : Char) : Prop :=
  piece = .char c ∨ piece = .unit c.toNat ∧ c.toNat < 0x20

theorem Stands.join {piece : Piece} (stands : Stands piece c) (rest : List Piece) :
    Piece.join (piece :: rest) = (Piece.join rest).map (c :: ·) := by
  rcases stands with rfl | ⟨rfl, control⟩
  · rfl
  · have low : ¬ 0xD800 ≤ c.toNat := by omega
    cases rest with
    | nil => simp [Piece.join, low]
    | cons next rest => cases next <;> simp [Piece.join, low]

theorem scans_escaped {code : Char} (read : List Piece) (ordinary : code ≠ 'u')
    (known : Scan.escaped? code = some c) : Scans (.text read) ['\\', code] (.text (.char c :: read)) [] := by
  have second : (Scan.escape read).next code = some (.text (.char c :: read), []) := by
    rw [Scan.next, if_neg ordinary, known]
    rfl
  exact .step rfl (.one second)

theorem scans_control (read : List Piece) (control : c.toNat < 0x20) :
    Scans (.text read) ['\\', 'u', '0', '0', Nat.digitChar (c.toNat / 16), Nat.digitChar (c.toNat % 16)]
      (.text (.unit c.toNat :: read)) [] := by
  have high := Numeral.digit?_digitChar (c.toNat / 16) (by omega) 16 (by decide) (by omega)
  have low := Numeral.digit?_digitChar (c.toNat % 16) (by omega) 16 (by decide) (by omega)
  have whole : 16 * (c.toNat / 16) + c.toNat % 16 = c.toNat := Nat.div_add_mod _ _
  have third : (Scan.hex read 0 2).next (Nat.digitChar (c.toNat / 16)) = some (.hex read (c.toNat / 16) 1, []) := by
    simp [Scan.next, high]
  have last : (Scan.hex read (c.toNat / 16) 1).next (Nat.digitChar (c.toNat % 16)) =
      some (.text (.unit c.toNat :: read), []) := by
    simp [Scan.next, low, whole]
  have zeros : Scans (.text read) ['\\', 'u', '0', '0'] (.hex read 0 2) [] := fun _ _ => rfl
  exact zeros.append (.step third (.one last))

theorem exists_scans_escapeChar (c : Char) (read : List Piece) :
    ∃ piece, Scans (.text read) (escapeChar c) (.text (piece :: read)) [] ∧ Stands piece c := by
  unfold escapeChar
  split
  · exact ⟨_, scans_escaped read (by decide) rfl, .inl rfl⟩
  · exact ⟨_, scans_escaped read (by decide) rfl, .inl rfl⟩
  · exact ⟨_, scans_escaped read (by decide) rfl, .inl rfl⟩
  · exact ⟨_, scans_escaped read (by decide) rfl, .inl rfl⟩
  · exact ⟨_, scans_escaped read (by decide) rfl, .inl rfl⟩
  · exact ⟨_, scans_escaped read (by decide) rfl, .inl rfl⟩
  · exact ⟨_, scans_escaped read (by decide) rfl, .inl rfl⟩
  · rename_i quote backslash _ _ _ _ _
    split
    · rename_i control
      exact ⟨_, scans_control read control, .inr ⟨rfl, control⟩⟩
    · rename_i plain
      refine ⟨.char c, .one ?_, .inl rfl⟩
      rw [Scan.next, if_neg quote, if_neg backslash, if_neg plain]

theorem exists_scans_escaped (text : List Char) (read : List Piece) :
    ∃ pieces, Scans (.text read) (text.flatMap escapeChar) (.text (pieces.reverse ++ read)) [] ∧
      Piece.join pieces = some text := by
  induction text generalizing read with
  | nil => exact ⟨[], .nil _, rfl⟩
  | cons c text ih =>
    obtain ⟨piece, first, stands⟩ := exists_scans_escapeChar c read
    obtain ⟨pieces, others, joined⟩ := ih (piece :: read)
    refine ⟨piece :: pieces, ?_, ?_⟩
    · rw [List.flatMap_cons, List.reverse_cons, List.append_assoc]
      exact first.append others
    · rw [stands.join, joined]
      rfl

theorem scans_quoted (s : String) : Scans .between (quoted s).toList .between [.text (some s)] := by
  obtain ⟨pieces, body, joined⟩ := exists_scans_escaped s.toList []
  have cut : (quoted s).toList = '"' :: (s.toList.flatMap escapeChar ++ ['"']) := by
    simp [quoted]
  have last : (Scan.text (pieces.reverse ++ [])).next '"' = some (.between, [.text (some s)]) := by
    rw [Scan.next, if_pos rfl, List.append_nil, List.reverse_reverse, joined, Option.map_some, String.ofList_toList]
  rw [cut]
  exact .step rfl (body.append (.one last))

theorem scans_indentation (depth : Nat) : Scans .between (indentation depth).toList .between [] := by
  have blanks : ∀ count, Scans .between (List.replicate count ' ') .between [] := by
    intro count
    induction count with
    | zero => exact .nil _
    | succ count ih => exact .step rfl ih
  rw [indentation, String.toList_ofList]
  exact blanks _

theorem scans_line (depth : Nat) : Scans .between ("\n" ++ indentation depth).toList .between [] := by
  rw [String.toList_append]
  exact .step rfl (scans_indentation depth)

abbrev Entries (entries : List String) (groups : List (List Token)) : Prop :=
  List.Forall₂ (fun entry group => Reads entry.toList group) entries groups

variable {entries : List String} {groups : List (List Token)}

theorem reads_entries {entry line : String} {group : List Token} (blank : Scans .between line.toList .between [])
    (all : Entries (entry :: entries) (group :: groups)) :
    Reads (String.intercalate ("," ++ line) (entry :: entries)).toList
      ([Token.comma].intercalate (group :: groups)) := by
  induction entries generalizing entry group groups with
  | nil =>
    obtain ⟨first, ⟨⟩⟩ := List.forall₂_cons.mp all
    simpa using first
  | cons next entries ih =>
    obtain ⟨first, others⟩ := List.forall₂_cons.mp all
    obtain _ | @⟨_, behind, _, groups, second, further⟩ := others
    have text : (String.intercalate ("," ++ line) (entry :: next :: entries)).toList =
        (entry.toList ++ [','] ++ line.toList) ++ (String.intercalate ("," ++ line) (next :: entries)).toList := by
      simp [String.toList_intercalate]
    have tokens : [Token.comma].intercalate (group :: behind :: groups) =
        (group ++ [.comma] ++ []) ++ [Token.comma].intercalate (behind :: groups) := by
      simp [List.intercalate_cons_cons]
    rw [text, tokens]
    exact .prepend ((first.behind ',' [.comma] (.inl rfl) rfl).append blank) (ih (.cons second further))

def Bracket (text : String) (token : Token) : Prop :=
  ∃ c, text.toList = [c] ∧ Scan.start c = some (.between, [token])

theorem Bracket.scans {text : String} {token : Token} (bracket : Bracket text token) :
    Scans .between text.toList .between [token] := by
  obtain ⟨c, only, starts⟩ := bracket
  rw [only]
  exact .one starts

theorem reads_block {opening closing : String} {opens closes : Token} (first : Bracket opening opens)
    (last : Bracket closing closes) (depth : Nat) (all : Entries entries groups) :
    Reads (block opening closing depth entries).toList
      (opens :: [Token.comma].intercalate groups ++ [closes]) := by
  apply Reads.of_scans
  cases all with
  | nil =>
    have text : (block opening closing depth []).toList = opening.toList ++ closing.toList := by
      simp [block]
    rw [text]
    exact first.scans.append last.scans
  | @cons entry group entries groups head others =>
    have text : (block opening closing depth (entry :: entries)).toList =
        opening.toList ++ ("\n" ++ indentation (depth + 1)).toList ++
          ((String.intercalate ("," ++ ("\n" ++ indentation (depth + 1))) (entry :: entries)).toList ++ ['\n']) ++
            (indentation depth).toList ++ closing.toList := by
      simp [block]
    have body := (reads_entries (scans_line (depth + 1)) (.cons head others)).behind '\n' [] (.inr rfl) rfl
    have front := (first.scans.append (scans_line (depth + 1))).append body
    have whole := (front.append (scans_indentation depth)).append last.scans
    rw [text]
    simpa using whole

mutual

def Value.tokens : Value → List Token
  | .text t => [.text t]
  | .array items => .openArray :: [Token.comma].intercalate (itemTokens items) ++ [.closeArray]
  | .object members => .openObject :: [Token.comma].intercalate (memberTokens members) ++ [.closeObject]
  | .null => [.scalar .null]
  | .bool b => [.scalar (.bool b)]
  | .number n => [.scalar (.number n)]

def itemTokens : List Value → List (List Token)
  | [] => []
  | item :: rest => item.tokens :: itemTokens rest

def memberTokens : List (Text × Value) → List (List Token)
  | [] => []
  | (key, value) :: rest => (.text key :: .colon :: value.tokens) :: memberTokens rest

end

mutual

/-- No text holds half of a surrogate pair, and every number is a natural one. -/
def Value.Plain : Value → Prop
  | .null | .bool _ => True
  | .number n => ∃ value, n = .ofNat value
  | .text t => ∃ text, t = some text
  | .array items => PlainItems items
  | .object members => PlainMembers members

def PlainItems : List Value → Prop
  | [] => True
  | item :: rest => item.Plain ∧ PlainItems rest

def PlainMembers : List (Text × Value) → Prop
  | [] => True
  | (key, value) :: rest => (∃ text, key = some text) ∧ value.Plain ∧ PlainMembers rest

end

mutual

theorem reads_prettyAt (depth : Nat) : ∀ {value : Value}, value.Plain → Reads (value.prettyAt depth).toList value.tokens
  | .null, _ => reads_null
  | .bool b, _ => reads_bool b
  | .number n, plain => by
    obtain ⟨value, rfl⟩ := plain
    exact reads_nat value
  | .text t, plain => by
    obtain ⟨text, rfl⟩ := plain
    exact .of_scans (scans_quoted text)
  | .array items, plain =>
    reads_block ⟨'[', rfl, rfl⟩ ⟨']', rfl, rfl⟩ depth (reads_prettyItems (depth + 1) plain)
  | .object members, plain =>
    reads_block ⟨'\x7b', rfl, rfl⟩ ⟨'\x7d', rfl, rfl⟩ depth (reads_prettyMembers (depth + 1) plain)

theorem reads_prettyItems (depth : Nat) : ∀ {items : List Value}, PlainItems items →
    Entries (prettyItems depth items) (itemTokens items)
  | [], _ => .nil
  | _ :: _, plain => .cons (reads_prettyAt depth plain.1) (reads_prettyItems depth plain.2)

theorem reads_prettyMembers (depth : Nat) : ∀ {members : List (Text × Value)}, PlainMembers members →
    Entries (prettyMembers depth members) (memberTokens members)
  | [], _ => .nil
  | (key, value) :: rest, plain => by
    obtain ⟨⟨text, rfl⟩, first, others⟩ := plain
    refine .cons ?_ (reads_prettyMembers depth others)
    have cut : (quoted text ++ ": " ++ value.prettyAt depth).toList =
        (quoted text).toList ++ ": ".toList ++ (value.prettyAt depth).toList := by
      simp
    have colon : Scans .between ": ".toList .between [.colon] := fun _ _ => rfl
    show Reads (quoted text ++ ": " ++ value.prettyAt depth).toList _
    rw [cut]
    exact .prepend ((scans_quoted text).append colon) (reads_prettyAt depth first)

end

theorem exists_intercalate_cons (group : List Token) (groups : List (List Token)) :
    ∃ more, [Token.comma].intercalate (group :: groups) = group ++ more := by
  cases groups with
  | nil => exact ⟨[], by simp⟩
  | cons next groups => exact ⟨_, by rw [List.intercalate_cons_cons, List.append_assoc]⟩

theorem assemble_valueOrClose (value : Value) (open' : List Frame) (rest : List Token) :
    assemble open' .valueOrClose (value.tokens ++ rest) = assemble open' .value (value.tokens ++ rest) := by
  cases value <;> simp only [Value.tokens, List.cons_append, List.nil_append, assemble]

mutual

theorem assemble_tokens : ∀ (value : Value) (open' : List Frame) (rest : List Token),
    assemble open' .value (value.tokens ++ rest) = assemble open' (.after value) rest
  | .null, _, _ | .bool _, _, _ | .number _, _, _ | .text _, _, _ => by
    simp only [Value.tokens, List.cons_append, List.nil_append, assemble]
  | .array [], _, _ | .object [], _, _ => by
    simp only [Value.tokens, itemTokens, memberTokens, List.intercalate_nil, List.cons_append, List.nil_append,
      assemble, List.reverse_nil]
  | .array (item :: items), open', rest => by
    have all := assemble_items (item :: items) [] open' rest (by simp)
    obtain ⟨more, tokens⟩ := exists_intercalate_cons item.tokens (itemTokens items)
    rw [itemTokens, tokens, List.append_assoc] at all
    rw [Value.tokens, itemTokens, tokens]
    simp only [List.cons_append, List.append_assoc, List.nil_append, assemble]
    exact (assemble_valueOrClose item _ _).trans all
  | .object ((key, value) :: members), open', rest => by
    have all := assemble_members ((key, value) :: members) [] open' rest (by simp)
    obtain ⟨more, tokens⟩ := exists_intercalate_cons (.text key :: .colon :: value.tokens) (memberTokens members)
    rw [memberTokens, tokens] at all
    rw [Value.tokens, memberTokens, tokens]
    simp only [List.cons_append, List.append_assoc, List.nil_append, assemble] at all ⊢
    exact all

theorem assemble_items : ∀ (items done : List Value) (open' : List Frame) (rest : List Token), items ≠ [] →
    assemble (.items done :: open') .value ([Token.comma].intercalate (itemTokens items) ++ .closeArray :: rest) =
      assemble open' (.after (.array (done.reverse ++ items))) rest
  | [item], done, open', rest, _ => by
    rw [itemTokens, itemTokens, List.intercalate_singleton, assemble_tokens item]
    simp only [assemble, List.reverse_cons]
  | item :: next :: items, done, open', rest, _ => by
    have others := assemble_items (next :: items) (item :: done) open' rest (by simp)
    rw [itemTokens] at others ⊢
    rw [itemTokens, List.intercalate_cons_cons, List.append_assoc, List.append_assoc, assemble_tokens item]
    simp only [List.singleton_append, assemble]
    rw [others, List.reverse_cons, List.append_assoc, List.singleton_append]

theorem assemble_members : ∀ (members done : List (Text × Value)) (open' : List Frame) (rest : List Token),
    members ≠ [] →
    assemble open' (.key done) ([Token.comma].intercalate (memberTokens members) ++ .closeObject :: rest) =
      assemble open' (.after (.object (done.reverse ++ members))) rest
  | [(key, value)], done, open', rest, _ => by
    rw [memberTokens, memberTokens, List.intercalate_singleton]
    simp only [List.cons_append, assemble]
    rw [assemble_tokens value]
    simp only [assemble, List.reverse_cons]
  | (key, value) :: (other, next) :: members, done, open', rest, _ => by
    have others := assemble_members ((other, next) :: members) ((key, value) :: done) open' rest (by simp)
    rw [memberTokens] at others ⊢
    rw [memberTokens, List.intercalate_cons_cons, List.append_assoc, List.append_assoc]
    simp only [List.cons_append, List.nil_append, assemble]
    rw [assemble_tokens value]
    simp only [assemble]
    rw [others, List.reverse_cons, List.append_assoc, List.singleton_append]

end

theorem read?_pretty {value : Value} (plain : value.Plain) : read? value.pretty = some value := by
  have tokens := (reads_prettyAt 0 plain).ends []
  have whole := assemble_tokens value [] []
  rw [List.append_nil] at whole
  rw [read?, Value.pretty, tokens?, tokens, Option.bind_some, List.reverse_nil, List.nil_append, whole, assemble]

end CoreTiming.Json
