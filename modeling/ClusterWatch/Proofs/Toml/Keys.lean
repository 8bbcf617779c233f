import ClusterWatch.Proofs.Partwise
import ClusterWatch.Toml.Reader

/-!
# Keys of a document

No table of a document that is read has a key twice (`Toml.isKeyed_document?`), at whatever depth and however it was
written: by dotted keys, under a header or in braces. A statement adds a value only where its key is missing, and
changes a table only by such an addition.
-/

namespace ClusterWatch
open Toml

/-- A value in which no table has a key twice. What an array holds is left open. -/
inductive TomlValue.IsKeyed : TomlValue → Prop
  | text (cs : List Char) : IsKeyed (.text cs)
  | integer (n : Int) : IsKeyed (.integer n)
  | real (x : Decimal.Binary64) : IsKeyed (.real x)
  | boolean (b : Bool) : IsKeyed (.boolean b)
  | moment (cs : List Char) : IsKeyed (.moment cs)
  | array (items : List TomlValue) : IsKeyed (.array items)
  | table {origin : TableOrigin} {entries : List (TomlKey × TomlValue)} (hkeys : (entries.map (·.1)).Nodup)
      (hvalues : ∀ e ∈ entries, IsKeyed e.2) : IsKeyed (.table origin entries)
  | tables {items : List (List (TomlKey × TomlValue))} (hkeys : ∀ entries ∈ items, (entries.map (·.1)).Nodup)
      (hvalues : ∀ entries ∈ items, ∀ e ∈ entries, IsKeyed e.2) : IsKeyed (.tables items)

namespace TomlEntries

/-- Entries without two of one key, and so the tables in them. -/
structure IsKeyed (entries : TomlEntries) : Prop where
  keys : (entries.map (·.1)).Nodup
  values : ∀ e ∈ entries, e.2.IsKeyed

theorem isKeyed_nil : IsKeyed [] := ⟨List.nodup_nil, List.forall_mem_nil _⟩

theorem isKeyed_table_iff {origin : TableOrigin} {entries : TomlEntries} :
    (TomlValue.table origin entries).IsKeyed ↔ entries.IsKeyed := by
  constructor
  · intro h
    cases h with
    | table hkeys hvalues => exact ⟨hkeys, hvalues⟩
  · exact fun h => .table h.keys h.values

theorem isKeyed_tables_iff {items : List TomlEntries} :
    (TomlValue.tables items).IsKeyed ↔ ∀ entries ∈ items, entries.IsKeyed := by
  constructor
  · intro h
    cases h with
    | tables hkeys hvalues => exact fun entries he => ⟨hkeys entries he, hvalues entries he⟩
  · exact fun h => .tables (fun entries he => (h entries he).keys) fun entries he => (h entries he).values

theorem IsKeyed.get? {entries : TomlEntries} (h : entries.IsKeyed) {key : TomlKey} {value : TomlValue}
    (hget : entries.get? key = some value) : value.IsKeyed :=
  h.values _ (mem_of_valueAt? hget)

theorem IsKeyed.append {entries : TomlEntries} (h : entries.IsKeyed) {key : TomlKey} (hkey : entries.get? key = none)
    {value : TomlValue} (hvalue : value.IsKeyed) : (entries.append key value).IsKeyed where
  keys := by
    rw [TomlEntries.append, List.map_append]
    exact List.nodup_append'.2 ⟨h.keys, List.nodup_singleton _, by simpa using valueAt?_eq_none_iff.1 hkey⟩
  values := by
    intro e he
    rcases List.mem_append.1 he with he | he
    · exact h.values e he
    · rw [List.mem_singleton.1 he]
      exact hvalue

theorem IsKeyed.replace {entries : TomlEntries} (h : entries.IsKeyed) (key : TomlKey) {value : TomlValue}
    (hvalue : value.IsKeyed) : (entries.replace key value).IsKeyed where
  keys := by
    have hkeys : (entries.replace key value).map (·.1) = entries.map (·.1) := by
      rw [TomlEntries.replace, List.map_map]
      refine List.map_congr_left fun e _ => ?_
      by_cases hkey : e.1 = key <;> simp [hkey]
    rw [hkeys]
    exact h.keys
  values := by
    intro e he
    obtain ⟨e', he', rfl⟩ := List.mem_map.1 he
    split
    · exact hvalue
    · exact h.values e' he'

/-! ## Changes -/

/-- A table at the end of a path is changed without giving any table a key twice, if the change itself does not. -/
theorem IsKeyed.changeAt? {made : TableOrigin} {mayEnter : TableOrigin → Bool}
    {change : TableOrigin → TomlEntries → Option TomlEntries}
    (hchange : ∀ origin es es', IsKeyed es → change origin es = some es' → IsKeyed es') {path : List TomlKey}
    {origin : TableOrigin} {entries entries' : TomlEntries} (h : entries.IsKeyed)
    (heq : changeAt? made mayEnter change path origin entries = some entries') : entries'.IsKeyed := by
  induction path generalizing origin entries entries' with
  | nil => exact hchange origin entries entries' h heq
  | cons key path ih =>
    rw [TomlEntries.changeAt?] at heq
    split at heq
    case h_1 hnone =>
      obtain ⟨es, hes, rfl⟩ := Option.map_eq_some_iff.1 heq
      exact h.append hnone (isKeyed_table_iff.2 (ih isKeyed_nil hes))
    case h_2 origin' es hget =>
      split at heq
      case isTrue =>
        obtain ⟨es', hes', rfl⟩ := Option.map_eq_some_iff.1 heq
        exact h.replace key (isKeyed_table_iff.2 (ih (isKeyed_table_iff.1 (h.get? hget)) hes'))
      case isFalse => cases heq
    case h_3 es earlier hget =>
      obtain ⟨es', hes', rfl⟩ := Option.map_eq_some_iff.1 heq
      obtain ⟨hes, hearlier⟩ := List.forall_mem_cons.1 (isKeyed_tables_iff.1 (h.get? hget))
      exact h.replace key (isKeyed_tables_iff.2 (List.forall_mem_cons.2 ⟨ih hes hes', hearlier⟩))
    case h_4 => cases heq

theorem IsKeyed.insertKey? {entries entries' : TomlEntries} (h : entries.IsKeyed) {path : List TomlKey} {key : TomlKey}
    {value : TomlValue} (hvalue : value.IsKeyed) (heq : entries.insertKey? path key value = some entries') :
    entries'.IsKeyed := by
  refine h.changeAt? (fun origin es es' hes hinsert => ?_) heq
  obtain ⟨hfree, hadded⟩ := Option.ite_none_right_eq_some.1 hinsert
  cases hadded
  rw [Bool.and_eq_true, Option.isNone_iff_eq_none] at hfree
  exact hes.append hfree.2 hvalue

theorem IsKeyed.openTable? {entries entries' : TomlEntries} (h : entries.IsKeyed) {path : List TomlKey} {key : TomlKey}
    (heq : entries.openTable? path key = some entries') : entries'.IsKeyed := by
  refine h.changeAt? (fun origin es es' hes hopen => ?_) heq
  split at hopen
  case h_1 hnone =>
    cases hopen
    exact hes.append hnone (isKeyed_table_iff.2 isKeyed_nil)
  case h_2 inner hget =>
    cases hopen
    exact hes.replace key (isKeyed_table_iff.2 (isKeyed_table_iff.1 (hes.get? hget)))
  case h_3 => cases hopen

theorem IsKeyed.openItem? {entries entries' : TomlEntries} (h : entries.IsKeyed) {path : List TomlKey} {key : TomlKey}
    (heq : entries.openItem? path key = some entries') : entries'.IsKeyed := by
  refine h.changeAt? (fun origin es es' hes hopen => ?_) heq
  split at hopen
  case h_1 hnone =>
    cases hopen
    exact hes.append hnone (isKeyed_tables_iff.2 (List.forall_mem_singleton.2 isKeyed_nil))
  case h_2 items hget =>
    cases hopen
    have hitems := isKeyed_tables_iff.1 (hes.get? hget)
    exact hes.replace key (isKeyed_tables_iff.2 (List.forall_mem_cons.2 ⟨isKeyed_nil, hitems⟩))
  case h_3 => cases hopen

end TomlEntries

/-! ## Values that are read -/

namespace Toml

/-- The reader gives no table that has a key twice. -/
def ReadsKeyed (read : ValueReader) : Prop := ∀ cs v rest, read cs = some (v, rest) → v.IsKeyed

theorem isKeyed_integer? {n : Int} {v : TomlValue} (h : integer? n = some v) : v.IsKeyed := by
  obtain ⟨-, hv⟩ := Option.ite_none_right_eq_some.1 h
  cases hv
  exact .integer n

theorem readsKeyed_readBased? (base : Nat) : ReadsKeyed (readBased? base) := by
  intro cs v rest h
  obtain ⟨⟨digits, tail⟩, -, h⟩ := Option.bind_eq_some_iff.1 h
  obtain ⟨values, -, h⟩ := Option.bind_eq_some_iff.1 h
  obtain ⟨n, hn, h⟩ := Option.bind_eq_some_iff.1 h
  cases h
  exact isKeyed_integer? hn

theorem readsKeyed_readDecimal? (negative : Bool) : ReadsKeyed (readDecimal? negative) := by
  intro cs v rest h
  obtain ⟨⟨whole, tail⟩, -, h⟩ := Option.bind_eq_some_iff.1 h
  dsimp only at h
  split at h
  case isTrue => cases h
  case isFalse =>
    obtain ⟨⟨places, tail'⟩, -, h⟩ := Option.bind_eq_some_iff.1 h
    obtain ⟨⟨exponent, tail''⟩, -, h⟩ := Option.bind_eq_some_iff.1 h
    dsimp only at h
    split at h
    case isTrue =>
      obtain ⟨n, hn, h⟩ := Option.bind_eq_some_iff.1 h
      cases h
      exact isKeyed_integer? hn
    case isFalse =>
      split at h
      case isTrue => cases h
      case isFalse =>
        cases h
        exact .real _

theorem readsKeyed_readNumber? : ReadsKeyed readNumber? := by
  intro cs v rest h
  rw [readNumber?] at h
  split at h
  case h_1 =>
    cases h
    exact .real _
  case h_2 =>
    cases h
    exact .real _
  case h_6 => exact readsKeyed_readDecimal? _ _ v rest h
  -- The other bases have no signs.
  all_goals
    split at h
    · cases h
    · exact readsKeyed_readBased? _ _ v rest h

theorem readsKeyed_readScalar? : ReadsKeyed readScalar? := by
  intro cs v rest h
  rw [readScalar?.eq_def] at h
  split at h
  case h_1 | h_2 =>
    cases h
    exact .boolean _
  case h_3 =>
    split at h
    case isTrue =>
      obtain ⟨⟨text, tail⟩, -, h⟩ := Option.map_eq_some_iff.1 h
      cases h
      exact .text _
    case isFalse =>
      rcases Option.or_eq_some_iff.1 h with h | ⟨-, h⟩
      · obtain ⟨tail, -, h⟩ := Option.map_eq_some_iff.1 h
        cases h
        exact .moment _
      · exact readsKeyed_readNumber? _ v rest h
  case h_4 => cases h

theorem isKeyed_readAssignment? {read : ValueReader} (hread : ReadsKeyed read) {cs rest : List Char} {key : DottedKey}
    {value : TomlValue} (h : readAssignment? read cs = some (key, value, rest)) : value.IsKeyed := by
  obtain ⟨⟨key', tail⟩, -, h⟩ := Option.bind_eq_some_iff.1 h
  obtain ⟨tail', -, h⟩ := Option.bind_eq_some_iff.1 h
  obtain ⟨⟨value', tail''⟩, hvalue, h⟩ := Option.bind_eq_some_iff.1 h
  cases h
  exact hread _ _ _ hvalue

theorem isKeyed_readEntries? {read : ValueReader} (hread : ReadsKeyed read) {fuel : Nat} {cs rest : List Char}
    {entries entries' : TomlEntries} (h : entries.IsKeyed)
    (heq : readEntries? read fuel entries cs = some (entries', rest)) : entries'.IsKeyed := by
  induction fuel generalizing entries cs with
  | zero => cases heq
  | succ fuel ih =>
    obtain ⟨⟨⟨path, key⟩, value, tail⟩, hassign, heq⟩ := Option.bind_eq_some_iff.1 heq
    obtain ⟨added, hadded, heq⟩ := Option.bind_eq_some_iff.1 heq
    have hkeyed := h.insertKey? (isKeyed_readAssignment? hread hassign) hadded
    split at heq
    case h_1 =>
      cases heq
      exact hkeyed
    case h_2 => exact ih hkeyed heq
    case h_3 => cases heq

/-- Tables in braces are put together entry by entry, like tables of statements. -/
theorem readsKeyed_readValue? (depth : Nat) : ReadsKeyed (readValue? depth) := by
  induction depth with
  | zero => exact readsKeyed_readScalar?
  | succ depth ih =>
    intro cs v rest h
    rw [readValue?.eq_def] at h
    dsimp only at h
    split at h
    case h_1 =>
      split at h
      · cases h
        exact .array _
      · obtain ⟨⟨items, tail⟩, -, h⟩ := Option.map_eq_some_iff.1 h
        cases h
        exact .array _
    case h_2 =>
      split at h
      · cases h
        exact TomlEntries.isKeyed_table_iff.2 TomlEntries.isKeyed_nil
      · obtain ⟨⟨entries, tail⟩, hentries, h⟩ := Option.map_eq_some_iff.1 h
        cases h
        exact TomlEntries.isKeyed_table_iff.2 (isKeyed_readEntries? ih TomlEntries.isKeyed_nil hentries)
    case h_3 => exact readsKeyed_readScalar? _ v rest h

/-! ## Statements -/

/-- The value of an assignment has no table with a key twice. -/
def IsKeyedStatement : TomlStatement → Prop
  | .assign _ _ value => value.IsKeyed
  | _ => True

theorem isKeyed_readStatement? {cs rest : List Char} {statement : TomlStatement}
    (h : readStatement? cs = some (statement, rest)) : IsKeyedStatement statement := by
  rw [readStatement?.eq_def] at h
  split at h
  case h_1 =>
    obtain ⟨⟨⟨path, key⟩, tail⟩, -, h⟩ := Option.bind_eq_some_iff.1 h
    obtain ⟨tail', -, h⟩ := Option.bind_eq_some_iff.1 h
    obtain ⟨tail'', -, h⟩ := Option.bind_eq_some_iff.1 h
    cases h
    trivial
  case h_2 =>
    obtain ⟨⟨⟨path, key⟩, tail⟩, -, h⟩ := Option.bind_eq_some_iff.1 h
    obtain ⟨tail', -, h⟩ := Option.bind_eq_some_iff.1 h
    cases h
    trivial
  case h_3 =>
    obtain ⟨⟨⟨path, key⟩, value, tail⟩, hassign, h⟩ := Option.bind_eq_some_iff.1 h
    cases h
    exact isKeyed_readAssignment? (readsKeyed_readValue? _) hassign

theorem isKeyed_readStatements? {fuel : Nat} {cs : List Char} {statements : List TomlStatement}
    (h : readStatements? fuel cs = some statements) : ∀ s ∈ statements, IsKeyedStatement s := by
  induction fuel generalizing cs statements with
  | zero => cases h
  | succ fuel ih =>
    rw [readStatements?] at h
    split at h
    case h_1 =>
      cases h
      exact List.forall_mem_nil _
    case h_2 =>
      obtain ⟨⟨statement, tail⟩, hstatement, h⟩ := Option.bind_eq_some_iff.1 h
      obtain ⟨tail', -, h⟩ := Option.bind_eq_some_iff.1 h
      obtain ⟨more, hmore, rfl⟩ := Option.map_eq_some_iff.1 h
      exact List.forall_mem_cons.2 ⟨isKeyed_readStatement? hstatement, ih hmore⟩

theorem isKeyed_carryOut? {d d' : TomlDocument} {statement : TomlStatement} (h : d.entries.IsKeyed)
    (hstatement : IsKeyedStatement statement) (heq : d.carryOut? statement = some d') : d'.entries.IsKeyed := by
  cases statement with
  | assign path key value =>
    obtain ⟨entries, hentries, rfl⟩ := Option.map_eq_some_iff.1 heq
    exact h.changeAt? (fun _ es es' hes hinsert => hes.insertKey? hstatement hinsert) hentries
  | table path key =>
    obtain ⟨entries, hentries, rfl⟩ := Option.map_eq_some_iff.1 heq
    exact h.openTable? hentries
  | item path key =>
    obtain ⟨entries, hentries, rfl⟩ := Option.map_eq_some_iff.1 heq
    exact h.openItem? hentries

theorem isKeyed_foldlM_carryOut? {statements : List TomlStatement} (hstatements : ∀ s ∈ statements, IsKeyedStatement s)
    {d d' : TomlDocument} (h : d.entries.IsKeyed) (heq : statements.foldlM TomlDocument.carryOut? d = some d') :
    d'.entries.IsKeyed := by
  induction statements generalizing d with
  | nil =>
    cases heq
    exact h
  | cons statement statements ih =>
    obtain ⟨hfirst, hrest⟩ := List.forall_mem_cons.1 hstatements
    rw [List.foldlM_cons] at heq
    obtain ⟨next, hnext, heq⟩ := Option.bind_eq_some_iff.1 heq
    exact ih hrest (isKeyed_carryOut? h hfirst hnext) heq

/-- No table of a document has a key twice. -/
theorem isKeyed_document? {cs : List Char} {entries : TomlEntries} (h : document? cs = some entries) :
    entries.IsKeyed := by
  obtain ⟨d, hd, rfl⟩ := Option.map_eq_some_iff.1 h
  obtain ⟨statements, hstatements, hd⟩ := Option.bind_eq_some_iff.1 hd
  exact isKeyed_foldlM_carryOut? (isKeyed_readStatements? hstatements) TomlEntries.isKeyed_nil hd

end Toml

end ClusterWatch
