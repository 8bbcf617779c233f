import ClusterWatch.Proofs.Drain.Reference
import ClusterWatch.Proofs.Line.Wordings
import ClusterWatch.Proofs.Text.Lines

/-!
# From what a node prints to what consumers get

A node prints lines, each of which tells a report or is noise (`Prints`). However the bytes of its lines are
cut into reads, the drain of the node publishes exactly the reports that were told (`Drain.run_of_printed`).
-/

namespace ClusterWatch
open Line Text

/-! ## Printed lines -/

/-- Text around a report: it starts no tag and ends no line. -/
structure IsNoise (text : List Char) : Prop where
  bracket : '[' ∉ text
  lineFeed : '\n' ∉ text

theorem IsNoise.nil : IsNoise [] := ⟨List.not_mem_nil, List.not_mem_nil⟩

theorem IsNoise.dropLast {text : List Char} (h : IsNoise text) : IsNoise text.dropLast :=
  have hsub := List.dropLast_sublist text
  ⟨fun hmem => h.bracket (hsub.mem hmem), fun hmem => h.lineFeed (hsub.mem hmem)⟩

/-- A line as a node prints it, and the report that it tells, unless it is noise. Noise may also stand around
a report, if it does not go on its last word or number. -/
inductive Prints : List Char → Option Report → Prop
  | report {rule : Rule} {runs : List (List Char)} {node phrase before after : List Char} {r : Report}
      (hwords : Wording rule runs phrase) (hreport : rule.Says (node :: runs) r)
      (hbefore : IsNoise before) (hafter : IsNoise after)
      (hnext : ∀ c, after.head? = some c → rule.pattern.goesOn c = false) :
      Prints (before ++ (nodeTag node ++ phrase ++ after)) (some r)
  | noise {text : List Char} (htext : IsNoise text) : Prints text none

theorem Line.Rule.Says.isNumeral {rule : Rule} {node : List Char} {runs : List (List Char)} {r : Report}
    (h : rule.Says (node :: runs) r) : IsNumeral node := by
  cases h with
  | generation hnode | pageFaults hnode | network hnode | barrier hnode | partition hnode | complete hnode
  | finalCells hnode => exact hnode.isNumeral

/-- What nodes tell in words: everything but the traffic on the network and errors. -/
inductive Payload.IsWorded : Payload → Prop
  | generation (generation liveCells : UInt64) : IsWorded (.generation generation liveCells)
  | pageFaults (total read write : UInt64) : IsWorded (.pageFaults total read write)
  | barrier {name : List Char} (hne : name ≠ []) (hword : ∀ c ∈ name, isWordChar c = true) :
      IsWorded (.barrier ("BARRIER_" ++ String.ofList name) .passed)
  | init (startRow endRow : UInt32) : IsWorded (.init startRow endRow)
  | complete (finalLiveCells : Option UInt64) : IsWorded (.complete finalLiveCells)

/-- There is a line for every such report. -/
theorem exists_prints {r : Report} (h : r.payload.IsWorded) : ∃ text, Prints text (some r) := by
  obtain ⟨node, payload⟩ := r
  have hnode := spells_toDigits node.toNat
  have hword {n : Nat} : IsNumeral (Nat.toDigits 10 n) := (spells_toDigits n).isNumeral
  have hprints {rule : Rule} {runs : List (List Char)} {phrase : List Char} (hwords : Wording rule runs phrase)
      (hreport : rule.Says (Nat.toDigits 10 node.toNat :: runs) ⟨node, payload⟩) :
      ∃ text, Prints text (some ⟨node, payload⟩) :=
    ⟨_, .report hwords hreport .nil .nil fun _ h => nomatch h⟩
  cases h with
  | generation generation liveCells =>
    exact hprints (.generation hword hword) (.generation hnode (spells_toDigits _) (spells_toDigits _))
  | pageFaults total read write =>
    exact hprints (.pageFaults hword hword hword)
      (.pageFaults hnode (spells_toDigits _) (spells_toDigits _) (spells_toDigits _))
  | barrier hne hword => exact hprints (.barrier hne hword) (.barrier hnode)
  | init startRow endRow =>
    exact hprints (.partition hword hword) (.partition hnode (spells_toDigits _) (spells_toDigits _))
  | complete finalLiveCells =>
    cases finalLiveCells with
    | none => exact hprints .complete (.complete hnode)
    | some cells => exact hprints (.finalCells hword) (.finalCells hnode (spells_toDigits _))

namespace Prints
variable {text : List Char} {told : Option Report}

theorem classify_eq (h : Prints text told) : classify text = told := by
  cases h with
  | report hwords hreport hbefore hafter hnext =>
    rw [hwords.classify_around hreport.isNumeral hbefore.bracket hafter.bracket hnext]
    exact Rule.report?_of_says hreport
  | noise htext => exact classify_of_not_mem htext.bracket

theorem lineFeed_not_mem (h : Prints text told) : '\n' ∉ text := by
  cases h with
  | @report rule runs node phrase before after r hwords hreport hbefore hafter hnext =>
    have htag : '\n' ∉ nodeTag node := by
      have hopen : '\n' ∉ "[Node ".toList := by decide
      have hclose : '\n' ∉ "] ".toList := by decide
      have hnode := hreport.isNumeral.not_mem (a := '\n') (by decide)
      show '\n' ∉ "[Node ".toList ++ (node ++ "] ".toList)
      simp only [List.mem_append, hopen, hclose, hnode, or_self, not_false_iff]
    have hphrase : '\n' ∉ phrase := fun hmem => by
      rcases hwords.writes _ hmem with hword | hmark | ⟨hbracket, -⟩
      · exact absurd hword (by decide)
      · exact absurd hmark (by decide)
      · cases hbracket
    intro hmem
    simp only [List.mem_append, htag, hphrase, or_false, false_or] at hmem
    exact hmem.elim hbefore.lineFeed hafter.lineFeed
  | noise htext => exact htext.lineFeed

/-- A line tells the same without a carriage return at its end. -/
theorem withoutReturn (h : Prints text told) : Prints (withoutReturn text) told := by
  rw [Text.withoutReturn]
  split
  case isFalse => exact h
  case isTrue hreturn =>
    cases h with
    | @report rule runs node phrase before after r hwords hreport hbefore hafter hnext =>
      cases after with
      | nil =>
        -- The last character of a report is not blank.
        rw [List.append_nil, List.getLast?_append_of_ne_nil _ (by simp [hwords.nonempty]),
          List.getLast?_append_of_ne_nil _ hwords.nonempty] at hreturn
        exact absurd (hwords.isBlank_last hreturn) (by decide)
      | cons a after =>
        have hdrop : (before ++ (nodeTag node ++ phrase ++ a :: after)).dropLast =
            before ++ (nodeTag node ++ phrase ++ (a :: after).dropLast) := by
          rw [List.dropLast_append_of_ne_nil (by simp), List.dropLast_append_of_ne_nil (by simp)]
        rw [hdrop]
        refine .report hwords hreport hbefore hafter.dropLast fun c hc => ?_
        cases after with
        | nil => cases hc
        | cons b after => exact hnext c hc
    | noise htext => exact .noise htext.dropLast

end Prints

inductive LineEnding
  | feed
  | returnFeed
deriving DecidableEq, Repr

def LineEnding.text : LineEnding → List Char
  | .feed => ['\n']
  | .returnFeed => ['\r', '\n']

/-- One of the lines that a node prints. -/
structure PrintedLine where
  text : List Char
  told : Option Report
  ending : LineEnding
  prints : Prints text told

/-- The lines as the node writes them. -/
def printout (lines : List PrintedLine) : List Char := lines.flatMap fun l => l.text ++ l.ending.text

theorem linesOf_append {line : List Char} (h : '\n' ∉ line) (rest : List Char) :
    linesOf (line ++ '\n' :: rest) = withoutReturn line :: linesOf rest := by
  rw [linesOf, endedLines_append h, unended_append h]
  rfl

theorem map_classify_printout (lines : List PrintedLine) :
    (linesOf (printout lines)).map classify = lines.map (·.told) := by
  induction lines with
  | nil => rfl
  | cons l lines ih =>
    obtain ⟨text, told, ending, hprints⟩ := l
    have hcons : printout (⟨text, told, ending, hprints⟩ :: lines) = text ++ ending.text ++ printout lines :=
      List.flatMap_cons
    rw [hcons, List.map_cons, ← ih]
    cases ending with
    | feed =>
      have hlines := linesOf_append hprints.lineFeed_not_mem (printout lines)
      rw [List.append_assoc]
      refine (congrArg (List.map classify) hlines).trans ?_
      rw [List.map_cons, hprints.withoutReturn.classify_eq]
    | returnFeed =>
      have hfree : '\n' ∉ text ++ ['\r'] := by
        simp [hprints.lineFeed_not_mem]
      have hreturn : Text.withoutReturn (text ++ ['\r']) = text := by
        simp [Text.withoutReturn]
      have hlines := linesOf_append hfree (printout lines)
      rw [hreturn, List.append_assoc] at hlines
      rw [List.append_assoc]
      refine (congrArg (List.map classify) hlines).trans ?_
      rw [List.map_cons, hprints.classify_eq]

/-! ## The drain of a node that prints -/

theorem isHeard_of_line {arrivals : List Arrival} {lines : List (List Char)}
    (hitems : arrivals.map (·.item) = lines.map .line) (hrunning : ∀ a ∈ arrivals, a.running = true) :
    ∀ a ∈ arrivals, a.isHeard = true := by
  intro a ha
  have hitem : a.item ∈ lines.map .line := hitems ▸ List.mem_map_of_mem ha
  obtain ⟨line, -, hline⟩ := List.mem_map.1 hitem
  rw [Arrival.isHeard, ← hline]
  exact hrunning a ha

theorem map_toReport_events {arrivals : List Arrival} {lines : List (List Char)}
    (hitems : arrivals.map (·.item) = lines.map .line) :
    (arrivals.filterMap Arrival.event?).map (·.toReport) = (lines.map classify).filterMap id := by
  induction lines generalizing arrivals with
  | nil => rw [List.map_eq_nil_iff.1 hitems]; rfl
  | cons line lines ih =>
    obtain ⟨a, arrivals, rfl, hitem, hitems⟩ := List.map_eq_cons_iff.1 hitems
    have hevent : a.event?.map (·.toReport) = classify line := by
      rw [Arrival.event?, hitem]
      dsimp only
      cases classify line <;> rfl
    rw [List.map_cons, List.filterMap_cons, List.filterMap_cons, ← ih hitems, ← hevent]
    cases a.event? <;> rfl

theorem alternate_nil_left (items : List PipeItem) : alternate [] items = items := by
  rw [alternate]

theorem alternate_nil_right (items : List PipeItem) : alternate items [] = items := by
  cases items with
  | nil => exact alternate_nil_left []
  | cons item items => rw [alternate, alternate_nil_left]

/-- Whatever a node prints on one of its pipes, with nothing on the other, and however the bytes are cut into
reads, its drain counts the lines, publishes the reports that were told, in their order, and lets the tracker
observe them. -/
theorem Drain.run_of_printed (node : NodeId) (f : Feed) (lines : List PrintedLine)
    {chunks : List (List UInt8)} (hchunks : ∀ chunk ∈ chunks, chunk ≠ [])
    (hbytes : chunks.flatten = (printout lines).flatMap String.utf8EncodeChar) {arrivals : List Arrival}
    (hitems : arrivals.map (·.item) = alternate (pipeItems (chunks.map .bytes)) (pipeItems []) ∨
      arrivals.map (·.item) = alternate (pipeItems []) (pipeItems (chunks.map .bytes)))
    (hrunning : ∀ a ∈ arrivals, a.running = true) :
    ∃ events, events.map (·.toReport) = lines.filterMap (·.told) ∧
      Drain.run { node } f arrivals =
        ({ node, lines := lines.length, events := events.length, outcome := .endOfStream },
          { tracker := (events.map (·.toReport)).foldl .observe f.tracker,
            bus := { f.bus with queue := f.bus.queue ++ events,
                                published := f.bus.published + events.length } }) := by
  have hlines : arrivals.map (·.item) = (linesOf (printout lines)).map .line := by
    have hpipe := pipeItems_bytes hchunks
    rw [hbytes, decodeLossy_encode] at hpipe
    rcases hitems with hitems | hitems
    · exact hitems.trans ((alternate_nil_right _).trans hpipe)
    · exact hitems.trans ((alternate_nil_left _).trans hpipe)
  have hreports := map_toReport_events hlines
  rw [map_classify_printout, List.filterMap_map] at hreports
  have hlength : arrivals.length = lines.length := by
    have hitems := congrArg List.length hlines
    have htold := congrArg List.length (map_classify_printout lines)
    simp only [List.length_map] at hitems htold
    omega
  refine ⟨_, hreports, ?_⟩
  rw [Drain.run_of_isHeard rfl f (isHeard_of_line hlines hrunning), hlength, Nat.zero_add, Nat.zero_add,
    Feed.pass, foldl_publish, List.foldl_map]

/-- The last lines of a node: its final number of cells, and a word without meaning. -/
def farewell : List PrintedLine :=
  have hnode : Spells ['1'] (1 : NodeId).toNat := ⟨by decide, List.forall_mem_singleton.2 rfl, by decide⟩
  have hcells : Spells ['7'] (7 : UInt64).toNat := ⟨by decide, List.forall_mem_singleton.2 rfl, by decide⟩
  [⟨"[Node 1] Final live cells: 7".toList, some ⟨1, .complete (some 7)⟩, .returnFeed,
      @Prints.report _ _ ['1'] _ [] [] _ (.finalCells hcells.isNumeral) (.finalCells hnode hcells)
        .nil .nil (fun _ h => nomatch h)⟩,
    ⟨"Bye".toList, none, .feed, .noise ⟨by decide, by decide⟩⟩]

/-- The first of two reads ends within the tag. -/
theorem Drain.run_of_printed_farewell :
    let bytes := (printout farewell).flatMap String.utf8EncodeChar
    let chunks := [bytes.take 3, bytes.drop 3]
    let arrivals : List Arrival :=
      [⟨.line "[Node 1] Final live cells: 7".toList, true, ⟨0, 0⟩⟩, ⟨.line "Bye".toList, true, ⟨1, 0⟩⟩]
    (∀ chunk ∈ chunks, chunk ≠ []) ∧ chunks.flatten = bytes ∧
      arrivals.map (·.item) = alternate (pipeItems (chunks.map .bytes)) (pipeItems []) ∧
      (∀ a ∈ arrivals, a.running = true) ∧
      ∃ events, events.map (·.toReport) = [⟨1, .complete (some 7)⟩] ∧
        Drain.run { node := 1 } {} arrivals =
          ({ node := 1, lines := 2, events := events.length },
            { tracker := {}, bus := { queue := events, published := events.length } }) := by
  intro bytes chunks arrivals
  have hchunks : ∀ chunk ∈ chunks, chunk ≠ [] := by decide
  have hbytes : chunks.flatten = bytes := by
    show bytes.take 3 ++ (bytes.drop 3 ++ []) = bytes
    rw [List.append_nil, List.take_append_drop]
  have hitems : arrivals.map (·.item) = alternate (pipeItems (chunks.map .bytes)) (pipeItems []) := by
    rw [pipeItems_bytes hchunks, hbytes, decodeLossy_encode]
    exact (alternate_nil_right _).symm
  have hrunning : ∀ a ∈ arrivals, a.running = true := by decide
  obtain ⟨events, hreports, hrun⟩ :=
    Drain.run_of_printed 1 {} farewell hchunks hbytes (.inl hitems) hrunning
  refine ⟨hchunks, hbytes, hitems, hrunning, events, hreports, hrun.trans ?_⟩
  rw [hreports, Nat.zero_add]
  rfl

end ClusterWatch
