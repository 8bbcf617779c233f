import ClusterWatch.Line.Rules
import ClusterWatch.Proofs.Line.Readings
import ClusterWatch.Proofs.Line.Values

/-!
# The first rule that matches

`Rule.Says` lists what each rule makes of the captures of an occurrence: every one of them has to spell a
value. A rule matches a text if the captures of its first occurrence there do, and a line says what the
first rule that matches makes of it (`classify_eq_some_iff`); a later occurrence of an earlier rule does
not count.
-/

namespace ClusterWatch.Line
open Text

namespace Rule

/-- What a rule says when its captures spell these values. -/
inductive Says : Rule → List (List Char) → Report → Prop
  | generation {node generation cells : List Char} {n : NodeId} {g c : UInt64}
      (hnode : Spells node n.toNat) (hgeneration : Spells generation g.toNat)
      (hcells : Spells cells c.toNat) :
      Says generationRule [node, generation, cells] ⟨n, .generation g c⟩
  | pageFaults {node total read write : List Char} {n : NodeId} {t r w : UInt64}
      (hnode : Spells node n.toNat) (htotal : Spells total t.toNat) (hread : Spells read r.toNat)
      (hwrite : Spells write w.toNat) :
      Says pageFaultsRule [node, total, read, write] ⟨n, .pageFaults t r w⟩
  | network {node sent received : List Char} {n : NodeId} {s r : Decimal.Binary64}
      (hnode : Spells node n.toNat) (hsent : SpellsAmount sent s) (hreceived : SpellsAmount received r) :
      Says networkRule [node, sent, received] ⟨n, .network s r⟩
  | barrier {node name : List Char} {n : NodeId} (hnode : Spells node n.toNat) :
      Says barrierRule [node, name] ⟨n, .barrier (barrierStart ++ String.ofList name) .passed⟩
  | partition {node start stop : List Char} {n : NodeId} {a b : UInt32}
      (hnode : Spells node n.toNat) (hstart : Spells start a.toNat) (hstop : Spells stop b.toNat) :
      Says partitionRule [node, start, stop] ⟨n, .init a b⟩
  | complete {node : List Char} {n : NodeId} (hnode : Spells node n.toNat) :
      Says completeRule [node] ⟨n, .complete none⟩
  | finalCells {node cells : List Char} {n : NodeId} {c : UInt64}
      (hnode : Spells node n.toNat) (hcells : Spells cells c.toNat) :
      Says finalCellsRule [node, cells] ⟨n, .complete (some c)⟩

/-- The rule says this of a text: its first occurrence there has captures that spell it. -/
def Matches (rule : Rule) (text : List Char) (report : Report) : Prop :=
  ∃ runs, rule.pattern.OccursFirst text runs ∧ rule.Says runs report

theorem report?_of_says {rule : Rule} {runs : List (List Char)} {report : Report}
    (h : rule.Says runs report) : rule.report? runs = some report := by
  cases h with
  | generation hnode hgeneration hcells =>
    simp [report?, generationRule, word32?_eq_some_iff.2 hnode, word64?_eq_some_iff.2 hgeneration,
      word64?_eq_some_iff.2 hcells]
  | pageFaults hnode htotal hread hwrite =>
    simp [report?, pageFaultsRule, word32?_eq_some_iff.2 hnode, word64?_eq_some_iff.2 htotal,
      word64?_eq_some_iff.2 hread, word64?_eq_some_iff.2 hwrite]
  | network hnode hsent hreceived =>
    simp [report?, networkRule, word32?_eq_some_iff.2 hnode, figure?_eq_some_iff.2 hsent,
      figure?_eq_some_iff.2 hreceived]
  | barrier hnode => simp [report?, barrierRule, word32?_eq_some_iff.2 hnode]
  | partition hnode hstart hstop =>
    simp [report?, partitionRule, word32?_eq_some_iff.2 hnode, word32?_eq_some_iff.2 hstart,
      word32?_eq_some_iff.2 hstop]
  | complete hnode => simp [report?, completeRule, word32?_eq_some_iff.2 hnode]
  | finalCells hnode hcells =>
    simp [report?, finalCellsRule, word32?_eq_some_iff.2 hnode, word64?_eq_some_iff.2 hcells]

/-- A report comes from captures of which the first spells the node, and the others the payload. -/
theorem report?_eq_some_iff {rule : Rule} {runs : List (List Char)} {report : Report} :
    rule.report? runs = some report ↔ ∃ node rest n payload, runs = node :: rest ∧
      Spells node n.toNat ∧ rule.payload? rest = some payload ∧ report = ⟨n, payload⟩ := by
  cases runs with
  | nil =>
    constructor
    · intro h
      cases h
    · rintro ⟨node, rest, n, payload, hruns, -⟩
      cases hruns
  | cons node rest =>
    show (word32? node).bind (fun n => (rule.payload? rest).bind fun payload => some ⟨n, payload⟩) =
      some report ↔ _
    rw [Option.bind_eq_some_iff]
    constructor
    · rintro ⟨n, hn, hrest⟩
      obtain ⟨payload, hpayload, hreport⟩ := Option.bind_eq_some_iff.1 hrest
      cases hreport
      exact ⟨node, rest, n, payload, rfl, word32?_eq_some_iff.1 hn, hpayload, rfl⟩
    · rintro ⟨node', rest', n, payload, ⟨⟩, hnode, hpayload, rfl⟩
      exact ⟨n, word32?_eq_some_iff.2 hnode, by rw [hpayload]; rfl⟩

theorem says_of_report? {rule : Rule} (hrule : rule ∈ rules) {runs : List (List Char)} {report : Report}
    (h : rule.report? runs = some report) : rule.Says runs report := by
  obtain ⟨node, rest, n, payload, rfl, hnode, hpayload, rfl⟩ := report?_eq_some_iff.1 h
  simp only [rules, List.mem_cons, List.not_mem_nil, or_false] at hrule
  rcases hrule with rfl | rfl | rfl | rfl | rfl | rfl | rfl
  case inl =>
    simp only [generationRule] at hpayload
    split at hpayload
    case h_1 generation cells =>
      obtain ⟨g, hg, c, hc, rfl⟩ : ∃ g, word64? generation = some g ∧ ∃ c, word64? cells = some c ∧
          Payload.generation g c = payload := by
        simpa [Option.bind_eq_some_iff] using hpayload
      exact .generation hnode (word64?_eq_some_iff.1 hg) (word64?_eq_some_iff.1 hc)
    case h_2 => cases hpayload
  case inr.inl =>
    simp only [pageFaultsRule] at hpayload
    split at hpayload
    case h_1 total read write =>
      obtain ⟨t, ht, r, hr, w, hw, rfl⟩ : ∃ t, word64? total = some t ∧ ∃ r, word64? read = some r ∧
          ∃ w, word64? write = some w ∧ Payload.pageFaults t r w = payload := by
        simpa [Option.bind_eq_some_iff] using hpayload
      exact .pageFaults hnode (word64?_eq_some_iff.1 ht) (word64?_eq_some_iff.1 hr)
        (word64?_eq_some_iff.1 hw)
    case h_2 => cases hpayload
  case inr.inr.inl =>
    simp only [networkRule] at hpayload
    split at hpayload
    case h_1 sent received =>
      obtain ⟨s, hs, r, hr, rfl⟩ : ∃ s, Decimal.figure? sent = some s ∧
          ∃ r, Decimal.figure? received = some r ∧ Payload.network s r = payload := by
        simpa [Option.bind_eq_some_iff] using hpayload
      exact .network hnode (figure?_eq_some_iff.1 hs) (figure?_eq_some_iff.1 hr)
    case h_2 => cases hpayload
  case inr.inr.inr.inl =>
    simp only [barrierRule] at hpayload
    split at hpayload
    case h_1 name =>
      cases hpayload
      exact .barrier hnode
    case h_2 => cases hpayload
  case inr.inr.inr.inr.inl =>
    simp only [partitionRule] at hpayload
    split at hpayload
    case h_1 start stop =>
      obtain ⟨a, ha, b, hb, rfl⟩ : ∃ a, word32? start = some a ∧ ∃ b, word32? stop = some b ∧
          Payload.init a b = payload := by
        simpa [Option.bind_eq_some_iff] using hpayload
      exact .partition hnode (word32?_eq_some_iff.1 ha) (word32?_eq_some_iff.1 hb)
    case h_2 => cases hpayload
  case inr.inr.inr.inr.inr.inl =>
    simp only [completeRule] at hpayload
    split at hpayload
    case h_1 =>
      cases hpayload
      exact .complete hnode
    case h_2 => cases hpayload
  case inr.inr.inr.inr.inr.inr =>
    simp only [finalCellsRule] at hpayload
    split at hpayload
    case h_1 cells =>
      obtain ⟨c, hc, rfl⟩ : ∃ c, word64? cells = some c ∧ Payload.complete (some c) = payload := by
        simpa [Option.bind_eq_some_iff] using hpayload
      exact .finalCells hnode (word64?_eq_some_iff.1 hc)
    case h_2 => cases hpayload

/-- A report is what the rule says of its captures. -/
theorem report?_eq_some_iff_says {rule : Rule} (hrule : rule ∈ rules) {runs : List (List Char)}
    {report : Report} : rule.report? runs = some report ↔ rule.Says runs report :=
  ⟨says_of_report? hrule, report?_of_says⟩

theorem apply_eq_some_iff {rule : Rule} (hrule : rule ∈ rules) {text : List Char} {report : Report} :
    rule.apply text = some report ↔ rule.Matches text report := by
  rw [Rule.apply, Matches, Option.bind_eq_some_iff]
  simp only [Pattern.leftmost_eq_some_iff, report?_eq_some_iff_says hrule]

end Rule

/-- A line says what the first rule that matches the trimmed line makes of its first occurrence there; the
rules before do not occur, or have a first occurrence with a capture that spells no value. -/
theorem classify_eq_some_iff (line : List Char) (report : Report) :
    classify line = some report ↔ ∃ before rule after, rules = before ++ rule :: after ∧
      rule.Matches (trim line) report ∧
      ∀ earlier ∈ before, ∀ runs, earlier.pattern.OccursFirst (trim line) runs →
        ∀ other, ¬ earlier.Says runs other := by
  rw [classify, List.findSome?_eq_some_iff]
  have hsilent {earlier : Rule} (hrule : earlier ∈ rules) : earlier.apply (trim line) = none ↔
      ∀ runs, earlier.pattern.OccursFirst (trim line) runs → ∀ other, ¬ earlier.Says runs other := by
    rw [Option.eq_none_iff_forall_ne_some]
    constructor
    · intro h runs hruns other hsays
      exact h other ((Rule.apply_eq_some_iff hrule).2 ⟨runs, hruns, hsays⟩)
    · intro h other happly
      obtain ⟨runs, hruns, hsays⟩ := (Rule.apply_eq_some_iff hrule).1 happly
      exact h runs hruns other hsays
  constructor
  · rintro ⟨before, rule, after, hrules, happly, hbefore⟩
    have hmem (r) (hr : r ∈ before ++ rule :: after) : r ∈ rules := hrules ▸ hr
    refine ⟨before, rule, after, hrules, ?_, fun earlier he => ?_⟩
    · exact (Rule.apply_eq_some_iff (hmem rule (by simp))).1 happly
    · exact (hsilent (hmem earlier (List.mem_append_left _ he))).1 (hbefore earlier he)
  · rintro ⟨before, rule, after, hrules, hmatches, hbefore⟩
    have hmem (r) (hr : r ∈ before ++ rule :: after) : r ∈ rules := hrules ▸ hr
    refine ⟨before, rule, after, hrules, ?_, fun earlier he => ?_⟩
    · exact (Rule.apply_eq_some_iff (hmem rule (by simp))).2 hmatches
    · exact (hsilent (hmem earlier (List.mem_append_left _ he))).2 (hbefore earlier he)

end ClusterWatch.Line
