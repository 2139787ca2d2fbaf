import WellboreDdms.Python.Regex
import WellboreDdms.Python.Text

/-!
# Bulk filters

A filter of a request for bulk data is `column:operator:value`; a column with a colon stands
in double quotes. `get_bulk_filters` reads it by a regular expression.

- `reBulkFilter`: the expression, part by part.
- `getBulkFilters`: the filters of a request.
- `BulkFilter.write`: a filter as the documentation of the parameter says to write it.
- `filters_parsed_iff`: which filters are read as they were written. A quoted column ends at
  the last quote that an operator follows, and that quote can be one of the value.
-/

namespace WellboreDdms

open Python Python.Regex

/-- The comparisons of a filter. -/
inductive BulkReadFilterOperator where
  | less
  | lessOrEqual
  | greater
  | greaterOrEqual
  | equal
  | notEqual
  | in_
  deriving DecidableEq

namespace BulkReadFilterOperator

/-- Their texts. -/
def value : BulkReadFilterOperator → String
  | less => "lt"
  | lessOrEqual => "lte"
  | greater => "gt"
  | greaterOrEqual => "gte"
  | equal => "eq"
  | notEqual => "neq"
  | in_ => "in"

/-- The members, in the order of the class. -/
def members : List BulkReadFilterOperator :=
  [less, lessOrEqual, greater, greaterOrEqual, equal, notEqual, in_]

/-- The texts of all comparisons. -/
def values : List String := members.map value

end BulkReadFilterOperator

/-- `FilterError`, by its reason. -/
structure FilterError where
  reason : String
  deriving DecidableEq

/-- The text of the exception. -/
def FilterError.message (e : FilterError) : String := "filter error: " ++ e.reason

/-- The comparison of a text, in any case. -/
def BulkReadFilterOperator.fromString (value : String) :
    Except FilterError BulkReadFilterOperator :=
  let value := lower value
  match members.find? fun op => op.value = value with
  | some op => .ok op
  | none => .error ⟨"invalid operator: " ++ value⟩

/-- A comparison of a column with a value. -/
structure BulkFilter where
  column : String
  operator : BulkReadFilterOperator
  value : String
  deriving DecidableEq

/-- The groups `enclosed_col` and `col`: one of them takes part in a match, and it is not
empty. -/
inductive ColumnGroup where
  | enclosedCol (column : String)
  | col (column : String)

/-- `matches['col'] or matches['enclosed_col']` -/
def ColumnGroup.column : ColumnGroup → String
  | enclosedCol column => column
  | col column => column

/-- The named groups of a match. -/
structure FilterMatch where
  column : ColumnGroup
  op : String
  value : String

/-- `:(?P<op>lt|lte|gt|gte|eq|neq|in):(?P<value>.*)$` -/
def matchOperator : List Char → Option (String × String) :=
  literal [':'] fun s =>
    BulkReadFilterOperator.values.findSome? fun op =>
      (literal op.toList (literal [':'] (star dot endOfText)) s).map fun m =>
        (op, String.ofList m.1)

/-- `"(?P<enclosed_col>.+)"` before the operator. -/
def matchEnclosed (s : List Char) : Option FilterMatch :=
  (literal ['"'] (plus dot (literal ['"'] matchOperator)) s).map fun (column, op, value) =>
    { column := .enclosedCol (String.ofList column), op := op, value := value }

/-- `(?P<col>[^:]+)` before the operator. -/
def matchPlain (s : List Char) : Option FilterMatch :=
  (plus (· ≠ ':') matchOperator s).map fun (column, op, value) =>
    { column := .col (String.ofList column), op := op, value := value }

/-- `re_bulk_filter.match(f)` -/
def reBulkFilter (f : String) : Option FilterMatch :=
  (matchEnclosed f.toList).or (matchPlain f.toList)

/-- The error of an expression that does not match. -/
def invalidFilterExpression : FilterError := ⟨"Invalid filter expression"⟩

/-- One round of the loop of `get_bulk_filters`. -/
def getBulkFilter (f : String) : Except FilterError BulkFilter :=
  match reBulkFilter f with
  | none => .error invalidFilterExpression
  | some m => do
    let operator ← BulkReadFilterOperator.fromString m.op
    return { column := m.column.column, operator := operator, value := m.value }

/-- `get_bulk_filters`; `bulkFilter` is the query parameter `filter`. -/
def getBulkFilters (bulkFilter : Option (List String)) : Except FilterError (List BulkFilter) :=
  match bulkFilter with
  | none => .ok []
  | some filters => filters.mapM getBulkFilter

/-! ## Filters as they are documented -/

/-- The column's name, quoted. -/
def inQuotes (column : String) : String := "\"" ++ column ++ "\""

/-- `$column_name:$operator:$value` -/
def filterText (column : String) (op : BulkReadFilterOperator) (value : String) : String :=
  column ++ ":" ++ op.value ++ ":" ++ value

/-- The filter in the form of the documentation: the column in double quotes if it has a
colon. -/
def BulkFilter.write (f : BulkFilter) : String :=
  filterText (if ':' ∈ f.column.toList then inQuotes f.column else f.column) f.operator f.value

/-- The columns and values that a filter can be written with. -/
structure BulkFilter.Writable (f : BulkFilter) : Prop where
  column_ne : f.column ≠ ""
  no_quote : '"' ∉ f.column.toList
  column_line : SingleLine f.column
  value_line : SingleLine f.value

/-- The text has the form of a filter, for a column in double quotes or without a colon. -/
def IsFilter (text : String) : Prop :=
  ∃ column op value, column ≠ "" ∧
    (text = filterText (inQuotes column) op value ∨
      ':' ∉ column.toList ∧ text = filterText column op value)

/-- The value has a double quote that an operator follows. -/
def QuotesOperator (value : String) : Prop :=
  ∃ op : BulkReadFilterOperator, ("\":" ++ op.value ++ ":").toList <:+: value.toList

/-- Filters that are written as documented are read back. -/
def ParsedBack (filters : List BulkFilter) : Prop :=
  getBulkFilters (some (filters.map BulkFilter.write)) = .ok filters

/-- The texts are rejected exactly if one of them has not the form of a filter. -/
def RejectedExactly (texts : List String) : Prop :=
  getBulkFilters (some texts) = .error invalidFilterExpression ↔ ∃ text ∈ texts, ¬ IsFilter text

/-! ## The parts of the expression -/

/-- A text that is not empty has characters. -/
theorem toList_ne_nil_of_ne_empty {s : String} (h : s ≠ "") : s.toList ≠ [] :=
  fun hnil => h (String.toList_eq_nil_iff.mp hnil)

namespace BulkReadFilterOperator

theorem mem_members (op : BulkReadFilterOperator) : op ∈ members := by
  cases op <;> decide

theorem colon_not_mem_value (op : BulkReadFilterOperator) : ':' ∉ op.value.toList := by
  cases op <;> decide

theorem quote_not_mem_value (op : BulkReadFilterOperator) : '"' ∉ op.value.toList := by
  cases op <;> decide

theorem value_injective : Function.Injective value := by
  intro op op' h
  cases op <;> cases op' <;> first | rfl | exact absurd h (by decide)

theorem fromString_value (op : BulkReadFilterOperator) : fromString op.value = .ok op := by
  cases op <;> decide

/-- `:operator:value` -/
def text (op : BulkReadFilterOperator) (value : List Char) : List Char :=
  ':' :: (op.value.toList ++ ':' :: value)

/-- The text of a comparison ends where its value begins. -/
theorem text_inj {op op' : BulkReadFilterOperator} {value value' : List Char}
    (h : op.text value = op'.text value') : op = op' ∧ value = value' := by
  have htail : op.value.toList ++ ':' :: value = op'.value.toList ++ ':' :: value' :=
    (List.cons.inj h).2
  have hcut := congrArg cutFirst htail
  rw [cutFirst_append (colon_not_mem_value op), cutFirst_append (colon_not_mem_value op')] at hcut
  obtain ⟨hop, hvalue⟩ := Prod.mk.inj (Option.some.inj hcut)
  exact ⟨value_injective (String.toList_inj.mp hop), hvalue⟩

end BulkReadFilterOperator

section

open BulkReadFilterOperator

/-- On one line, the operator and the value are what the text is made of. -/
theorem matchOperator_eq_some_iff {s : List Char} (hs : '\n' ∉ s) {m : String × String} :
    matchOperator s = some m ↔
      ∃ op value, m = (op.value, String.ofList value) ∧ s = text op value := by
  have hread : ∀ {m : String × String}, matchOperator s = some m →
      ∃ op value, m = (op.value, String.ofList value) ∧ s = text op value := by
    intro m hm
    obtain ⟨t, rfl, ht⟩ := literal_eq_some_iff.mp hm
    obtain ⟨name, hname, hmatch⟩ := List.exists_of_findSome?_eq_some ht
    obtain ⟨op, -, rfl⟩ := List.mem_map.mp hname
    obtain ⟨taken, hliteral, rfl⟩ := Option.map_eq_some_iff.mp hmatch
    obtain ⟨u, rfl, hcolon⟩ := literal_eq_some_iff.mp hliteral
    obtain ⟨value, rfl, hvalue⟩ := literal_eq_some_iff.mp hcolon
    have hline : '\n' ∉ value := fun hmem => hs (by simp [hmem])
    rw [star_dot_endOfText hline] at hvalue
    obtain rfl := Option.some.inj hvalue
    exact ⟨op, value, rfl, rfl⟩
  refine ⟨hread, ?_⟩
  rintro ⟨op, value, rfl, rfl⟩
  have hline : '\n' ∉ value := fun hmem => hs (by simp [text, hmem])
  -- the operator of the text matches, and no other does
  have hsome : (matchOperator (text op value)).isSome := by
    rw [show text op value = [':'] ++ (op.value.toList ++ ':' :: value) from rfl, matchOperator,
      literal_append, List.findSome?_isSome_iff]
    refine ⟨op.value, List.mem_map_of_mem (mem_members op), ?_⟩
    rw [literal_append, show ':' :: value = [':'] ++ value from rfl, literal_append,
      star_dot_endOfText hline]
    rfl
  obtain ⟨m, hm⟩ := Option.isSome_iff_exists.mp hsome
  obtain ⟨op', value', rfl, htext⟩ := hread hm
  obtain ⟨rfl, rfl⟩ := text_inj htext
  exact hm

/-- The end of a quoted column, and the operator. -/
theorem endQuote_eq_some_iff {s : List Char} (hs : '\n' ∉ s) {m : String × String} :
    literal ['"'] matchOperator s = some m ↔
      ∃ op value, m = (op.value, String.ofList value) ∧ s = '"' :: text op value := by
  rw [literal_eq_some_iff]
  constructor
  · rintro ⟨t, rfl, ht⟩
    obtain ⟨op, value, hm, rfl⟩ :=
      (matchOperator_eq_some_iff fun hmem => hs (List.mem_append_right _ hmem)).mp ht
    exact ⟨op, value, hm, rfl⟩
  · rintro ⟨op, value, hm, rfl⟩
    refine ⟨text op value, rfl, ?_⟩
    exact (matchOperator_eq_some_iff fun hmem => hs (List.mem_cons_of_mem _ hmem)).mpr
      ⟨op, value, hm, rfl⟩

theorem endQuote_eq_append (op : BulkReadFilterOperator) (value : List Char) :
    '"' :: text op value = ("\":" ++ op.value ++ ":").toList ++ value := by
  simp [text]

/-- **The quoted column is read** exactly if no quote of the value is before an operator. -/
theorem enclosed_takes_iff {column value : String} (op : BulkReadFilterOperator)
    (hcolumn : column ≠ "") (hline : SingleLine column) (hvalue : SingleLine value) :
    plus dot (literal ['"'] matchOperator) (column.toList ++ '"' :: text op value.toList) =
        some (column.toList, (op.value, value)) ↔
      ¬ QuotesOperator value := by
  have hrest : '\n' ∉ '"' :: text op value.toList := by
    rw [endQuote_eq_append, List.mem_append]
    exact not_or.mpr ⟨by cases op <;> decide, hvalue⟩
  rw [plus_eq_some_iff]
  constructor
  · rintro ⟨-, -, t, ht, -, hlongest⟩ ⟨op', a, b, hinfix⟩
    obtain rfl := List.append_cancel_left ht
    have hsplit : '"' :: text op value.toList =
        ('"' :: text op a) ++ ('"' :: text op' b) := by
      simp only [endQuote_eq_append, ← hinfix, List.append_assoc]
    have hlater : '\n' ∉ '"' :: text op' b := fun hmem =>
      hrest (hsplit ▸ List.mem_append_right _ hmem)
    have hbefore : '\n' ∉ '"' :: text op a := fun hmem =>
      hrest (hsplit ▸ List.mem_append_left _ hmem)
    have hnone := hlongest _ _ hsplit (List.cons_ne_nil _ _) (forall_dot hbefore)
    cases hnone.symm.trans ((endQuote_eq_some_iff hlater).mpr ⟨op', b, rfl, rfl⟩)
  · intro hvalueQuotes
    refine ⟨toList_ne_nil_of_ne_empty hcolumn, forall_dot hline, _, rfl, ?_, ?_⟩
    · exact (endQuote_eq_some_iff hrest).mpr ⟨op, value.toList, by rw [String.ofList_toList], rfl⟩
    · intro y u hyu hy hall
      rw [Option.eq_none_iff_forall_ne_some]
      intro m hm
      have hu : '\n' ∉ u := fun hmem => hrest (hyu ▸ List.mem_append_right _ hmem)
      obtain ⟨op', b, -, rfl⟩ := (endQuote_eq_some_iff hu).mp hm
      -- the later quote is neither the first one nor in the operator, so it is in the value
      obtain ⟨d, y, rfl⟩ := List.exists_cons_of_ne_nil hy
      have htext : (':' :: (op.value.toList ++ [':'])) ++ value.toList =
          y ++ '"' :: text op' b := by
        simpa [text] using (List.cons.inj hyu).2
      rcases List.append_eq_append_iff.mp htext with ⟨a, -, hva⟩ | ⟨a, hop, hva⟩
      · refine hvalueQuotes ⟨op', a, b, ?_⟩
        rw [hva, endQuote_eq_append, List.append_assoc]
      · cases a with
        | nil =>
          refine hvalueQuotes ⟨op', [], b, ?_⟩
          rw [List.nil_append, ← endQuote_eq_append]
          exact hva
        | cons c a =>
          obtain ⟨rfl, -⟩ := List.cons.inj hva
          have hmem : '"' ∈ ':' :: (op.value.toList ++ [':']) := by
            rw [hop]
            exact List.mem_append_right _ List.mem_cons_self
          simp [quote_not_mem_value] at hmem

theorem toList_filterText (column : String) (op : BulkReadFilterOperator) (value : String) :
    (filterText column op value).toList = column.toList ++ text op value.toList := by
  simp [filterText, text]

/-- The characters of a filter whose column is quoted. -/
theorem toList_inQuotes_filterText (column : String) (op : BulkReadFilterOperator)
    (value : String) :
    (filterText (inQuotes column) op value).toList =
      ['"'] ++ (column.toList ++ '"' :: text op value.toList) := by
  simp [toList_filterText, inQuotes]

/-- A quoted column is read up to its quote. -/
theorem endQuote_filterText {column value : String} {op : BulkReadFilterOperator}
    (h : SingleLine (filterText (inQuotes column) op value)) :
    literal ['"'] matchOperator ('"' :: text op value.toList) = some (op.value, value) := by
  rw [SingleLine, toList_inQuotes_filterText] at h
  have hrest : '\n' ∉ '"' :: text op value.toList := fun hmem =>
    h (List.mem_append_right _ (List.mem_append_right _ hmem))
  exact (endQuote_eq_some_iff hrest).mpr ⟨op, value.toList, by rw [String.ofList_toList], rfl⟩

/-! ## One filter -/

section

variable {f : String} {m : FilterMatch}

/-- **The quoted alternative** reads a column, a comparison and a value. -/
theorem matchEnclosed_spec (hline : SingleLine f) (h : matchEnclosed f.toList = some m) :
    ∃ column op value, column ≠ "" ∧
      m = { column := .enclosedCol column, op := op.value, value := value } ∧
      f = filterText (inQuotes column) op value := by
  obtain ⟨⟨x, r⟩, hm, rfl⟩ := Option.map_eq_some_iff.mp h
  obtain ⟨s, hs, htakes⟩ := literal_eq_some_iff.mp hm
  obtain ⟨hne, -, t, rfl, hk, -⟩ := plus_eq_some_iff.mp htakes
  have htail : '\n' ∉ t := fun hmem =>
    hline (hs ▸ List.mem_append_right _ (List.mem_append_right _ hmem))
  obtain ⟨op, value, rfl, rfl⟩ := (endQuote_eq_some_iff htail).mp hk
  refine ⟨String.ofList x, op, String.ofList value, fun hnil => hne (by simpa using hnil), rfl, ?_⟩
  rw [← String.toList_inj, toList_inQuotes_filterText, hs]
  simp only [String.toList_ofList]

/-- **The plain alternative** reads a column without colons. -/
theorem matchPlain_spec (hline : SingleLine f) (h : matchPlain f.toList = some m) :
    ∃ column op value, column ≠ "" ∧ ':' ∉ column.toList ∧
      m = { column := .col column, op := op.value, value := value } ∧
      f = filterText column op value := by
  obtain ⟨⟨x, r⟩, htakes, rfl⟩ := Option.map_eq_some_iff.mp h
  obtain ⟨hne, hall, t, hs, hk, -⟩ := plus_eq_some_iff.mp htakes
  have htail : '\n' ∉ t := fun hmem => hline (hs ▸ List.mem_append_right _ hmem)
  obtain ⟨op, value, rfl, rfl⟩ := (matchOperator_eq_some_iff htail).mp hk
  refine ⟨String.ofList x, op, String.ofList value, fun hnil => hne (by simpa using hnil), ?_,
    rfl, ?_⟩
  · rw [String.toList_ofList]
    exact fun hmem => absurd (hall ':' hmem) (by decide)
  · rw [← String.toList_inj, toList_filterText, hs]
    simp only [String.toList_ofList]

/-- A column in quotes is enough for a match, though not always for that column. -/
theorem enclosed_takes_some {column value : String} {op : BulkReadFilterOperator}
    (hcolumn : column ≠ "") (hline : SingleLine (filterText (inQuotes column) op value)) :
    plus dot (literal ['"'] matchOperator) (column.toList ++ '"' :: text op value.toList) ≠
      none := by
  intro hnone
  have hquote := endQuote_filterText hline
  rw [SingleLine, toList_inQuotes_filterText] at hline
  have hdot := forall_dot fun hmem =>
    hline (List.mem_append_right _ (List.mem_append_left _ hmem))
  cases hquote.symm.trans (plus_eq_none_iff.mp hnone column.toList _ rfl
    (toList_ne_nil_of_ne_empty hcolumn) hdot)

/-- **The expression fails** on the texts that have not the form of a filter. -/
theorem reBulkFilter_eq_none_iff (hline : SingleLine f) : reBulkFilter f = none ↔ ¬ IsFilter f := by
  rw [reBulkFilter, Option.or_eq_none_iff]
  constructor
  · rintro ⟨henclosed, hplain⟩ ⟨column, op, value, hcolumn, rfl | ⟨hcolon, rfl⟩⟩
    · rw [matchEnclosed, Option.map_eq_none_iff, toList_inQuotes_filterText, literal_append]
        at henclosed
      exact enclosed_takes_some hcolumn hline henclosed
    · rw [matchPlain, Option.map_eq_none_iff, plus_eq_none_iff] at hplain
      rw [SingleLine, toList_filterText] at hline
      have hnone := hplain column.toList _ (toList_filterText column op value)
        (toList_ne_nil_of_ne_empty hcolumn) fun c hc => decide_eq_true fun heq => hcolon (heq ▸ hc)
      have htail : '\n' ∉ text op value.toList := fun hmem =>
        hline (List.mem_append_right _ hmem)
      cases hnone.symm.trans ((matchOperator_eq_some_iff htail).mpr ⟨op, _, rfl, rfl⟩)
  · intro hform
    simp only [Option.eq_none_iff_forall_ne_some]
    constructor
    · intro m hm
      obtain ⟨column, op, value, hcolumn, -, htext⟩ := matchEnclosed_spec hline hm
      exact hform ⟨column, op, value, hcolumn, .inl htext⟩
    · intro m hm
      obtain ⟨column, op, value, hcolumn, hcolon, -, htext⟩ := matchPlain_spec hline hm
      exact hform ⟨column, op, value, hcolumn, .inr ⟨hcolon, htext⟩⟩

/-- The operator of a match is one of the known ones. -/
theorem op_of_reBulkFilter (hline : SingleLine f) (h : reBulkFilter f = some m) :
    ∃ op : BulkReadFilterOperator, m.op = op.value := by
  rcases Option.or_eq_some_iff.mp h with henclosed | ⟨-, hplain⟩
  · obtain ⟨_, op, _, -, rfl, -⟩ := matchEnclosed_spec hline henclosed
    exact ⟨op, rfl⟩
  · obtain ⟨_, op, _, -, -, rfl, -⟩ := matchPlain_spec hline hplain
    exact ⟨op, rfl⟩

end

/-- A match is a filter if its comparison is one. -/
theorem getBulkFilter_of_match {f : String} {m : FilterMatch} {op : BulkReadFilterOperator}
    (h : reBulkFilter f = some m) (hop : m.op = op.value) :
    getBulkFilter f = .ok { column := m.column.column, operator := op, value := m.value } := by
  rw [getBulkFilter, h]
  dsimp only
  rw [hop, fromString_value]
  rfl

/-- A text is read, or it has not the form of a filter. -/
theorem getBulkFilter_error_iff {f : String} (hline : SingleLine f) (e : FilterError) :
    getBulkFilter f = .error e ↔ e = invalidFilterExpression ∧ ¬ IsFilter f := by
  rw [← reBulkFilter_eq_none_iff hline]
  cases h : reBulkFilter f with
  | none =>
    rw [getBulkFilter, h]
    constructor
    · intro he
      cases he
      exact ⟨rfl, rfl⟩
    · rintro ⟨rfl, -⟩
      rfl
  | some m =>
    obtain ⟨op, hop⟩ := op_of_reBulkFilter hline h
    rw [getBulkFilter_of_match h hop]
    exact iff_of_false nofun nofun

variable {f : BulkFilter}

theorem singleLine_write (h : f.Writable) : SingleLine f.write := by
  have hop : '\n' ∉ f.operator.value.toList := by cases f.operator <;> decide
  have hcolumn := h.column_line
  have hvalue := h.value_line
  rw [SingleLine] at hcolumn hvalue ⊢
  rw [BulkFilter.write]
  split
  · rw [toList_inQuotes_filterText]
    simp [text, hop, hcolumn, hvalue]
  · rw [toList_filterText]
    simp [text, hop, hcolumn, hvalue]

/-- A column without colon is read up to the first one. -/
theorem getBulkFilter_plain (h : f.Writable) (hcolon : ':' ∉ f.column.toList) :
    getBulkFilter f.write = .ok f := by
  have hne := toList_ne_nil_of_ne_empty h.column_ne
  have hwrite : f.write.toList = f.column.toList ++ text f.operator f.value.toList := by
    rw [BulkFilter.write, if_neg hcolon, toList_filterText]
  have hline := singleLine_write h
  rw [SingleLine, hwrite] at hline
  have hquote : matchEnclosed f.write.toList = none := by
    rw [matchEnclosed, Option.map_eq_none_iff, Option.eq_none_iff_forall_ne_some]
    intro m hm
    obtain ⟨s, hs, -⟩ := literal_eq_some_iff.mp hm
    obtain ⟨c, column, hcolumn⟩ := List.exists_cons_of_ne_nil hne
    rw [hwrite, hcolumn] at hs
    obtain ⟨rfl, -⟩ := List.cons.inj hs
    exact h.no_quote (hcolumn ▸ List.mem_cons_self)
  have htakes : Takes (· ≠ ':') matchOperator f.write.toList f.column.toList
      (f.operator.value, f.value) := by
    refine ⟨hne, fun c hc => decide_eq_true fun heq => hcolon (heq ▸ hc), _, hwrite, ?_, ?_⟩
    · exact (matchOperator_eq_some_iff fun hmem => hline (List.mem_append_right _ hmem)).mpr
        ⟨f.operator, f.value.toList, by rw [String.ofList_toList], rfl⟩
    · -- the run ends at the colon of the operator
      intro y u hyu hy hall
      obtain ⟨d, y, rfl⟩ := List.exists_cons_of_ne_nil hy
      obtain ⟨rfl, -⟩ := List.cons.inj hyu
      exact absurd (hall ':' List.mem_cons_self) (by decide)
  have hmatch : reBulkFilter f.write = some
      { column := .col f.column, op := f.operator.value, value := f.value } := by
    rw [reBulkFilter, hquote, Option.none_or, matchPlain, plus_eq_some_iff.mpr htakes,
      Option.map_some]
    dsimp only
    rw [String.ofList_toList]
  exact getBulkFilter_of_match hmatch rfl

/-- A quoted column is read back if its end is the last quote before an operator. -/
theorem getBulkFilter_quoted_iff (h : f.Writable) (hcolon : ':' ∈ f.column.toList) :
    getBulkFilter f.write = .ok f ↔ ¬ QuotesOperator f.value := by
  have hwrite : f.write = filterText (inQuotes f.column) f.operator f.value := by
    rw [BulkFilter.write, if_pos hcolon]
  have hline := singleLine_write h
  rw [← enclosed_takes_iff f.operator h.column_ne h.column_line h.value_line]
  -- the quote that ends the column can be taken, so some quote is
  cases hplus : plus dot (literal ['"'] matchOperator)
      (f.column.toList ++ '"' :: text f.operator f.value.toList) with
  | none => exact absurd hplus (enclosed_takes_some h.column_ne (hwrite ▸ hline))
  | some m =>
    obtain ⟨x, name, value⟩ := m
    have hmatch : reBulkFilter f.write = some
        { column := .enclosedCol (String.ofList x), op := name, value := value } := by
      rw [reBulkFilter, matchEnclosed, hwrite, toList_inQuotes_filterText, literal_append, hplus]
      rfl
    obtain ⟨op, rfl⟩ := op_of_reBulkFilter hline hmatch
    rw [getBulkFilter_of_match hmatch rfl]
    constructor
    · intro hread
      obtain rfl := Except.ok.inj hread
      dsimp only [ColumnGroup.column]
      rw [String.toList_ofList]
    · intro hread
      obtain ⟨hx, hrest⟩ := Prod.mk.inj (Option.some.inj hread)
      obtain ⟨hop, hvalue⟩ := Prod.mk.inj hrest
      rw [hx, hvalue, value_injective hop]
      dsimp only [ColumnGroup.column]
      rw [String.ofList_toList]

end

/-! ## The filters of a request -/

section

variable {α β ε : Type}

theorem mapM_map_ok_iff {f : α → Except ε β} {g : β → α} {xs : List β} :
    (xs.map g).mapM f = .ok xs ↔ ∀ x ∈ xs, f (g x) = .ok x := by
  induction xs with
  | nil => exact iff_of_true rfl nofun
  | cons x xs ih =>
    rw [List.map_cons, List.mapM_cons, List.forall_mem_cons, ← ih]
    cases hx : f (g x) with
    | error e => exact iff_of_false nofun nofun
    | ok y =>
      cases hxs : (xs.map g).mapM f with
      | error e => exact iff_of_false nofun nofun
      | ok ys =>
        constructor
        · intro h
          obtain ⟨rfl, rfl⟩ := List.cons.inj (Except.ok.inj h)
          exact ⟨rfl, rfl⟩
        · rintro ⟨hy, hys⟩
          obtain rfl := Except.ok.inj hy
          obtain rfl := Except.ok.inj hys
          rfl

/-- A loop whose rounds fail in one way fails if a round does. -/
theorem mapM_error_iff {f : α → Except ε β} {e : ε} {xs : List α}
    (h : ∀ x ∈ xs, ∀ e', f x = .error e' → e' = e) :
    xs.mapM f = .error e ↔ ∃ x ∈ xs, f x = .error e := by
  induction xs with
  | nil => exact iff_of_false nofun (by simp)
  | cons x xs ih =>
    have hrest := ih fun y hy => h y (List.mem_cons_of_mem _ hy)
    rw [List.mapM_cons]
    cases hx : f x with
    | error e' =>
      obtain rfl := h x List.mem_cons_self e' hx
      exact iff_of_true rfl ⟨x, List.mem_cons_self, hx⟩
    | ok y =>
      have hcons : (∃ z ∈ x :: xs, f z = .error e) ↔ ∃ z ∈ xs, f z = .error e := by
        simp [hx]
      rw [hcons, ← hrest]
      cases hxs : xs.mapM f with
      | error e' => exact Iff.rfl
      | ok ys => exact iff_of_false nofun nofun

end

/-- Filters are read back, unless a quoted column's value holds a comparison of its own. -/
theorem parsedBack_iff {filters : List BulkFilter} (h : ∀ f ∈ filters, f.Writable) :
    ParsedBack filters ↔
      ∀ f ∈ filters, ':' ∈ f.column.toList → ¬ QuotesOperator f.value := by
  rw [ParsedBack, getBulkFilters, mapM_map_ok_iff]
  refine forall₂_congr fun f hf => ?_
  by_cases hcolon : ':' ∈ f.column.toList
  · rw [getBulkFilter_quoted_iff (h f hf) hcolon]
    exact ⟨fun hvalue _ => hvalue, fun hvalue => hvalue hcolon⟩
  · exact iff_of_true (getBulkFilter_plain (h f hf) hcolon) fun hmem => absurd hmem hcolon

theorem rejectedExactly {texts : List String} (h : ∀ text ∈ texts, SingleLine text) :
    RejectedExactly texts := by
  rw [RejectedExactly, getBulkFilters, mapM_error_iff]
  · refine exists_congr fun text => and_congr_right fun hmem => ?_
    rw [getBulkFilter_error_iff (h text hmem)]
    exact and_iff_right rfl
  · intro text hmem e he
    exact ((getBulkFilter_error_iff (h text hmem) e).mp he).1

/-- **The filters are read as they are documented** exactly if no value of a quoted column has
a quote before an operator. -/
theorem filters_parsed_iff {filters : List BulkFilter} {texts : List String}
    (hfilters : ∀ f ∈ filters, f.Writable) (htexts : ∀ text ∈ texts, SingleLine text) :
    ParsedBack filters ∧ RejectedExactly texts ↔
      ∀ f ∈ filters, ':' ∈ f.column.toList → ¬ QuotesOperator f.value := by
  rw [parsedBack_iff hfilters]
  exact and_iff_left (rejectedExactly htexts)

/-- A quote before text that is no operator does no harm, nor one after a plain column. -/
theorem quoted_values_parsed :
    ParsedBack [⟨"A:1", .less, "x\":y"⟩, ⟨"MD", .greaterOrEqual, "1\":lt:2"⟩] ∧
      RejectedExactly ["A:custom_op:3", "A::", "\"A:1\":lt:3"] := by
  refine (filters_parsed_iff ?_ ?_).mpr ?_
  · exact List.forall_mem_cons.mpr ⟨⟨by decide, by decide, by decide, by decide⟩,
      List.forall_mem_singleton.mpr ⟨by decide, by decide, by decide, by decide⟩⟩
  · decide
  · refine List.forall_mem_cons.mpr ⟨fun _ => ?_, List.forall_mem_singleton.mpr fun hcolon => ?_⟩
    · rintro ⟨op, hop⟩
      revert hop
      cases op <;> decide
    · exact absurd hcolon (by decide)

/-- **The value is cut**: the column ends at the quote before `:gt:`. -/
theorem quoted_operator_not_parsed :
    (⟨"A:1", .less, "x\":gt:3"⟩ : BulkFilter).Writable ∧
      ¬ ParsedBack [⟨"A:1", .less, "x\":gt:3"⟩] := by
  refine ⟨⟨by decide, by decide, by decide, by decide⟩, fun h => ?_⟩
  have hread : getBulkFilters (some ["\"A:1\":lt:x\":gt:3"]) =
      .ok [⟨"A:1\":lt:x", .greater, "3"⟩] := by rfl
  have hwrite : (⟨"A:1", .less, "x\":gt:3"⟩ : BulkFilter).write = "\"A:1\":lt:x\":gt:3" := by
    decide
  rw [ParsedBack, List.map_singleton, hwrite, hread] at h
  have hfilter := (List.cons.inj (Except.ok.inj h)).1
  exact absurd (congrArg BulkFilter.column hfilter) (by decide)

end WellboreDdms
